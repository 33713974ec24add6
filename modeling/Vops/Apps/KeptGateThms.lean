import Vops.Apps.AppRuns

/-!
# A login gate is kept

* `Gated`, `GateKept` — a row with a gate, and one whose public route has a gate.
* `AppCommand.Waives` — the operations that may take a gate away; `AppCommand.Carries` — the others start
  where the gate is still recorded, or ask for one.
* `gate_kept`, `wiki_ungated` — sessions in which a gate is kept, and one in which it is lost.

A mark that is set once the row had a gate is kept beside the world: while it is not set nothing with a gate
was written, and once it is set every row that is written with a route has a gate.
-/

namespace Vops.Apps

open Async (AllOps Safe Keeps Steps Surroundings Trace Session given marked)
open AppProg VopsIngress VopsApps

/-! ## Gates -/

/-- The row has a login gate. -/
def Gated (row : Option AppInstall) : Prop := ∃ i ∈ row.bind AppInstall.ingress, i.auth.isSome

/-- A public route of the row has a login gate. -/
def GateKept (row : Option AppInstall) : Prop := ∀ i ∈ row.bind AppInstall.ingress, i.auth.isSome

/-- The operation is told that there is to be no gate, or takes the route away. -/
def AppCommand.Waives : AppCommand → Prop
  | deploy _ _ opts => ∃ intent ∈ opts.auth, intent.mode = .none
  | expose _ opts _ => ∃ intent ∈ opts.auth, intent.mode = .none
  | unexpose _ _ | remove _ _ _ _ | down _ _ _ => True

/-- A deploy routes the app, and is not told anything of a gate. -/
def AsksBare (env : AppEnv) (key : String × String) (source : DeploySource) (host : String)
    (opts : DeployOptions) : Prop :=
  opts.dryRun = false ∧ (truthyText opts.binding.domain).isSome ∧ opts.auth = none ∧
    ∃ plan, env.loadAppPlan source opts.name = .ok plan ∧ (host, plan.name) = key

/-- An operation that routes the app and is not told anything of a gate finds one recorded. -/
def AppCommand.Carries (env : AppEnv) (key : String × String) (s : AppsWorld) : AppCommand → Prop
  | deploy source host opts => AsksBare env key source host opts → Gated (s.row key)
  | expose name opts _ => ∀ row ∈ s.rows, row.name = name → ∀ domain,
      AsksBare env key ⟨some row.appId, none, none⟩ row.host (exposeOptions row opts domain false) →
        Gated (s.row key)
  | unexpose _ _ | remove _ _ _ _ | down _ _ _ => True

theorem Gated.kept {row : Option AppInstall} (h : Gated row) : GateKept row := by
  obtain ⟨i, hi, hauth⟩ := h
  intro j hj
  rw [Option.mem_unique hj hi]
  exact hauth

theorem kept_of_unrouted {row : AppInstall} (h : row.ingress = none) :
    GateKept (some row) ∧ ¬Gated (some row) := by
  refine ⟨fun i hi => ?_, fun ⟨i, hi, _⟩ => ?_⟩
  · rw [Option.bind_some, h] at hi
    cases hi
  · rw [Option.bind_some, h] at hi
    cases hi

theorem kept_none : GateKept none ∧ ¬Gated none := ⟨nofun, fun ⟨_, hi, _⟩ => nomatch hi⟩

/-- A deploy that routes an app has a gate where it is asked for one, or one is recorded. -/
theorem resolveDeployGate_isSome {crypt : Crypt} {app : String} {i : ResolveGateInput}
    {gate : Option IngressGate} (h : resolveDeployGate crypt app i = .ok gate)
    (hingress : i.hasIngress = true) (hintent : ∀ intent ∈ i.intent, intent.mode ≠ .none)
    (hprev : i.intent = none → i.prevAuth.isSome) : gate.isSome := by
  unfold resolveDeployGate at h
  cases hi : i.intent with
  | none =>
      obtain ⟨prev, hp⟩ := Option.isSome_iff_exists.mp (hprev hi)
      simp only [hi, hingress, hp, if_true] at h
      cases h
      rfl
  | some intent =>
      have hbasic : intent.mode = .basic := by
        cases hmode : intent.mode with
        | basic => rfl
        | none => exact absurd hmode (hintent intent hi)
      simp only [hi, hbasic, hingress, Bool.not_true, Bool.false_eq_true, if_false] at h
      obtain ⟨kept, -, h⟩ := Async.except_bind_eq_ok.mp h
      cases kept with
      | some kept =>
          cases h
          rfl
      | none =>
          obtain ⟨gate', -, h⟩ := Async.except_bind_eq_ok.mp h
          cases h
          rfl

/-! ## A deploy -/

section Deploy

variable {env : AppEnv} {key : String × String} {s : AppsWorld} {M : Prop} {σ σ' : AppsWorld × Prop}
  {o : AppOp} {x : o.Answer}

/-- The surroundings, with a mark once the row had a gate. -/
def gateMarked (key : String × String) : Surroundings AppOp AppOp.Answer (AppsWorld × Prop) :=
  marked surroundings fun s => Gated (s.row key)

/-- Once there was a gate, a public route has one. -/
def GateInvariant (key : String × String) (σ : AppsWorld × Prop) : Prop :=
  σ.2 → GateKept (σ.1.row key)

theorem GateInvariant.plain (ho : Plain o) (hx : gateMarked key o σ x σ') (h : GateInvariant key σ) :
    GateInvariant key σ' := by
  intro hmark
  rw [hx.2, eq_of_plain ho hx.1] at hmark
  rw [eq_of_plain ho hx.1]
  exact hmark.elim h Gated.kept

/-- As long as a deploy has attached nothing: a route has a gate if there was one before (`M`), and
nothing has a gate if there was none. -/
def BeforeRoute (key : String × String) (M : Prop) (σ : AppsWorld × Prop) : Prop :=
  (M → GateKept (σ.1.row key)) ∧ (¬M → ¬σ.2 ∧ ¬Gated (σ.1.row key))

theorem BeforeRoute.invariant (h : BeforeRoute key M σ) : GateInvariant key σ := by
  intro hmark
  by_cases hM : M
  · exact h.1 hM
  · exact absurd hmark (h.2 hM).1

/-- A row that is no better than what there was. -/
theorem BeforeRoute.of_row {row : Option AppInstall} (h : BeforeRoute key M σ)
    (hx : gateMarked key o σ x σ') (hrow : σ'.1.row key = row) (hkept : M → GateKept row)
    (hungated : ¬M → ¬Gated row) : BeforeRoute key M σ' := by
  refine ⟨fun hM => hrow.symm ▸ hkept hM, fun hM => ⟨fun hmark => ?_, hrow.symm ▸ hungated hM⟩⟩
  have hcases : σ.2 ∨ Gated (σ'.1.row key) := hx.2.mp hmark
  exact hcases.elim (h.2 hM).1 (hrow.symm ▸ hungated hM)

theorem BeforeRoute.step {d : DeployStart} (hprev : d.prev = s.row d.row.key)
    (hkept : M → GateKept (s.row key)) (hungated : ¬M → ¬Gated (s.row key)) (ho : Unrouted d o)
    (hx : gateMarked key o σ x σ') (h : BeforeRoute key M σ) : BeforeRoute key M σ' := by
  rcases row_cases key hx.1 with hrow | ⟨row, rfl, hkey, hrow⟩ | ⟨rfl, hrow⟩
  · exact h.of_row hx hrow h.1 fun hM => (h.2 hM).2
  · rcases ho with ⟨-, hnone⟩ | hp
    · exact h.of_row hx hrow (fun _ => (kept_of_unrouted hnone).1) fun _ => (kept_of_unrouted hnone).2
    · rw [hprev] at hp
      have hsame : s.row key = some row := by
        rw [← hkey, Table.key_of_get hp]
        exact hp
      exact h.of_row hx hrow (fun hM => hsame ▸ hkept hM) fun hM => hsame ▸ hungated hM
  · exact h.of_row hx hrow (fun _ => kept_none.1) fun _ => kept_none.2

/-- The world is as it was, and the mark says no more than what was known. -/
def Held (s : AppsWorld) (M : Prop) (σ : AppsWorld × Prop) : Prop := σ.1 = s ∧ (σ.2 → M)

/-- The gate of a deploy that routes the app, if there was one. -/
theorem gate_isSome {source : DeploySource} {hostName : String} {opts : DeployOptions} {d : DeployStart}
    (hready : Ready env source hostName opts s d) (hintent : ∀ intent ∈ opts.auth, intent.mode ≠ .none)
    (hcarries : AsksBare env key source hostName opts → Gated (s.row key)) (hkey : d.row.key = key)
    (hrouted : d.decision.resolution.isSome) : d.decision.gate.isSome := by
  obtain ⟨plan, siblings, hplan, -, hprev, hdecided⟩ := hready.decided
  have hrow : d.row.key = (d.host.name, plan.name) := hdecided.key_eq
  obtain ⟨p, -, -, hresolution⟩ := hdecided.prepared
  have hhost : d.host.name = hostName := by simpa using List.find?_some hready.found
  refine resolveDeployGate_isSome hdecided.gate hrouted hintent fun hnone => ?_
  have hdomain : (truthyText opts.binding.domain).isSome := by
    unfold resolveBinding at hresolution
    split at hresolution
    · rw [← Except.ok.inj hresolution] at hrouted
      cases hrouted
    · next h => rw [h]; rfl
  obtain ⟨i, hi, hauth⟩ := hcarries ⟨hready.real, hdomain, hnone, plan, hplan, by rw [← hhost, ← hrow, hkey]⟩
  change ((d.prev.bind AppInstall.ingress).bind AppIngressState.auth).isSome
  rw [hprev, ← hrow, hkey, Option.mem_def.mp hi]
  exact hauth

/-- A deploy that is not told to leave the gate out keeps it. -/
theorem keepsGate_deploy {source : DeploySource} {hostName : String} {opts : DeployOptions}
    (hintent : ∀ intent ∈ opts.auth, intent.mode ≠ .none) (hkept : M → GateKept (s.row key))
    (hgated : Gated (s.row key) → M)
    (hcarries : M → AsksBare env key source hostName opts → Gated (s.row key)) (hσ : Held s M σ) :
    Keeps (gateMarked key) (GateInvariant key) (deploy env source hostName opts) σ := by
  have hungated : ¬M → ¬Gated (s.row key) := fun hM h => hM (hgated h)
  have hheld : ∀ σ, Held s M σ → GateInvariant key σ := fun σ h hmark => h.1.symm ▸ hkept (h.2 hmark)
  have hafter : ∀ o x σ σ', Plain o → gateMarked key o σ x σ' → GateInvariant key σ →
      GateInvariant key σ' := fun o x σ σ' ho hx h => h.plain ho hx
  refine safe_deploy (w := Prod.fst) (J := Held s M) (fun _ _ _ _ hx => hx.1) ?_ hheld hσ
    (fun d dns σ₀ hread hready => ?_) (fun _ _ _ _ => trivial) fun _ _ _ => trivial
  · intro o x σ σ' ho hx h
    have hsame := eq_of_plain ho hx.1
    refine ⟨hsame.trans h.1, fun hmark => ?_⟩
    rw [hx.2, hsame, h.1] at hmark
    exact hmark.elim h.2 hgated
  · rw [hσ.1] at hready
    have hprev : d.prev = s.row d.row.key := by
      obtain ⟨plan, siblings, -, -, hprev, hdecided⟩ := hready.decided
      rw [hprev]
      exact congrArg s.row hdecided.key_eq.symm
    have hkeep : ∀ o x σ σ', Unrouted d o → gateMarked key o σ x σ' → BeforeRoute key M σ →
        BeforeRoute key M σ' := fun o x σ σ' ho hx h => h.step hprev hkept hungated ho hx
    have hI : ∀ σ, BeforeRoute key M σ → GateInvariant key σ := fun σ h => h.invariant
    have hplain : ∀ o x σ σ', Plain o → gateMarked key o σ x σ' → BeforeRoute key M σ →
        BeforeRoute key M σ' := fun o x σ σ' ho hx h => hkeep o x σ σ' ho.ledgerQuiet.unrouted hx h
    have hstart : BeforeRoute key M σ₀ := by
      refine ⟨fun hM => hread.2.1.symm ▸ hkept hM, fun hM => ⟨fun hmark => hM (hread.2.2 hmark), ?_⟩⟩
      exact hread.2.1.symm ▸ hungated hM
    have hattach {dns : Option EnsuredRecord} {σ : AppsWorld × Prop} (h : BeforeRoute key M σ) :
        Safe (gateMarked key) (GateInvariant key) (fun _ σ => GateInvariant key σ) (attach d dns) σ := by
      unfold attach
      split
      · exact Safe.of_done h.invariant h.invariant
      · next r hr =>
          refine Safe.yields_bind (plain_attachRoute _ _ _ _ _) (yields_attachRoute _ _ _ _ _) hplain hI h
            (fun attached σ₁ hattached h₁ => ?_) fun _ _ h => h.invariant
          have hwritten {x : Except String Unit} {σ₂ : AppsWorld × Prop}
              (hx : gateMarked key (.saveInstall (routedRow d.row attached.state)) σ₁ x σ₂) :
              GateInvariant key σ₂ := by
            rcases row_cases key hx.1 with hrow | ⟨row, hsave, hkey, hrow⟩ | ⟨hdelete, -⟩
            · exact (h₁.of_row hx hrow h₁.1 fun hM => (h₁.2 hM).2).invariant
            · by_cases hM : M
              · intro _ i hi
                cases hsave
                rw [hrow] at hi
                cases hi
                rw [hattached.auth, Option.isSome_map]
                exact gate_isSome hready hintent (hcarries hM) hkey (Option.isSome_of_eq_some hr)
              · intro hmark
                rw [hx.2] at hmark
                exact hmark.elim (fun h => absurd h (h₁.2 hM).1) Gated.kept
            · cases hdelete
          exact safe_saveInstall h₁.invariant (fun σ₂ hx => Safe.of_done (hwritten hx) (hwritten hx))
            fun e σ₂ hx => ⟨hwritten hx, hwritten hx⟩
    refine Safe.allOps_bind (.perform_bind (.inl ⟨rfl, rfl⟩) fun _ => allOps_lift _) hkeep hI hstart
      (fun _ σ₁ h₁ => ?_) fun _ _ _ => trivial
    refine Safe.allOps_bind (unrouted_withLedgerRevert d) hkeep hI h₁ (fun (smoke, record) σ₂ h₂ => ?_)
      fun _ _ _ => trivial
    refine Safe.allOps_bind (.perform_bind (.inl ⟨rfl, rfl⟩) fun _ => allOps_lift _) hkeep hI h₂
      (fun _ σ₃ h₃ => ?_) fun _ _ _ => trivial
    refine Safe.allOps_bind (plain_appendAudit _) hplain hI h₃ (fun _ σ₄ h₄ => ?_) fun _ _ _ => trivial
    refine Safe.bind ((hattach h₄).mono fun r σ₅ _ h₅ => ?_)
    cases r with
    | error e => trivial
    | ok attached =>
        exact Safe.allOps_bind (plain_runPostInstall _ _ _ _ _) hafter (fun _ h => h) h₅
          (fun _ σ₆ h₆ => Safe.of_done h₆ trivial) fun _ _ _ => trivial

/-- So does an expose. -/
theorem keepsGate_expose {name : String} {o : IngressDeployOptions} {onHost : Option String}
    (hintent : ∀ intent ∈ o.auth, intent.mode ≠ .none) (hkept : M → GateKept (s.row key))
    (hgated : Gated (s.row key) → M)
    (hcarries : M → AppCommand.Carries env key s (.expose name o onHost)) (hσ : Held s M σ) :
    Keeps (gateMarked key) (GateInvariant key) (expose env name o onHost) σ := by
  refine safe_expose (w := Prod.fst) (J := Held s M) (fun _ _ _ _ hx => hx.1) ?_
    (fun σ h hmark => h.1.symm ▸ hkept (h.2 hmark)) hσ (fun row domain σ₁ h₁ hmem hname _ => ?_)
    fun _ _ _ => trivial
  · intro o x σ σ' ho hx h
    have hsame := eq_of_plain ho hx.1
    refine ⟨hsame.trans h.1, fun hmark => ?_⟩
    rw [hx.2, hsame, h.1] at hmark
    exact hmark.elim h.2 hgated
  · rw [hσ.1] at hmem
    exact keepsGate_deploy hintent hkept hgated (fun hM => hcarries hM row hmem hname domain) h₁.2

/-- What keeps a gate when it is run, and finds it recorded where it must, keeps it. -/
theorem keepsGate_program {c : AppCommand} (hc : ¬c.Waives) (hkept : M → GateKept (s.row key))
    (hgated : Gated (s.row key) → M) (hcarries : M → c.Carries env key s) (hσ : Held s M σ) :
    Keeps (gateMarked key) (GateInvariant key) (c.program env) σ := by
  have hignored {α : Type} {p : AppProg α}
      (hp : Keeps (gateMarked key) (GateInvariant key) p σ) :
      Keeps (gateMarked key) (GateInvariant key) (p >>= fun _ => pure ()) σ :=
    Keeps.seq (M := fun _ _ => True) (hp.mono fun _ _ _ _ _ _ => trivial) fun _ _ hI _ => Keeps.of_done hI
  cases c with
  | deploy source host opts =>
      exact hignored (keepsGate_deploy (fun intent hi hmode => hc ⟨intent, hi, hmode⟩) hkept hgated hcarries hσ)
  | expose name opts host =>
      exact hignored (keepsGate_expose (fun intent hi hmode => hc ⟨intent, hi, hmode⟩) hkept hgated hcarries hσ)
  | unexpose | remove | down => exact absurd trivial hc

end Deploy

/-! ## Every session -/

/-- Once the row of an app has a login gate, every later row of it with a public route has one, through
every session of operations that do not waive it, each of which may be stopped at any moment: where those
that route the app without asking for a gate find one recorded. -/
theorem gate_kept (env : AppEnv) (key : String × String) (c : AppCommand) (s s₁ s₂ s₃ : AppsWorld)
    (t t' : Trace AppOp AppOp.Answer) (p p' : AppProg Unit)
    (ts : List (AppCommand × Trace AppOp AppOp.Answer)) (hc : ¬c.Waives)
    (hstart : Steps surroundings (c.program env) s t p s₁) (hgated : Gated (s₁.row key))
    (hrest : Steps surroundings p s₁ t' p' s₂)
    (hlater : Session surroundings (AppCommand.program env) InventoryEdit
      (fun c s => ¬c.Waives ∧ c.Carries env key s) (fun _ => True) s₂ ts s₃) :
    GateKept (s₃.row key) := by
  have hfirst : GateKept (s₂.row key) := by
    obtain ⟨after, hsteps, hafter⟩ := Steps.marked_of_moment hstart (G := fun s => Gated (s.row key)) hgated
      hrest False
    have hcarries : Gated (s.row key) → c.Carries env key s := by
      intro h
      cases c with
      | deploy => exact fun _ => h
      | expose => exact fun _ _ _ _ _ => h
      | unexpose | remove | down => trivial
    exact (keepsGate_program hc Gated.kept id hcarries
      ⟨rfl, fun (h : False ∨ Gated (s.row key)) => h.elim False.elim id⟩).steps hsteps hafter
  refine hlater.keeps (I := fun s => GateKept (s.row key)) ?_ ?_ hfirst
  · rintro s s' hbetween hkept
    unfold InventoryEdit at hbetween
    rw [hbetween]
    exact hkept
  · rintro c s t p s' ⟨hc, hcarries⟩ hkept hsteps -
    obtain ⟨after, hsteps, hafter⟩ := hsteps.marked (fun s => Gated (s.row key)) True
    exact (keepsGate_program hc (fun _ => hkept) (fun _ => trivial) (fun _ => hcarries)
      ⟨rfl, fun _ => trivial⟩).steps hsteps (hafter trivial)

/-! ## A wiki behind a gate -/

instance (row : Option AppInstall) : Decidable (Gated row) :=
  decidable_of_iff ((row.bind AppInstall.ingress).any fun i => i.auth.isSome) (Option.any_eq_true _ _)

instance (row : Option AppInstall) : Decidable (GateKept row) :=
  decidable_of_iff ((row.bind AppInstall.ingress).all fun i => i.auth.isSome) (Option.all_eq_true _ _)

/-- A deploy of the wiki. -/
def wikiDeployed (opts : DeployOptions) : AppCommand := .deploy ⟨some "wiki", none, none⟩ "web1" opts

/-- `--domain wiki.example.com` -/
def domainOptions : DeployOptions :=
  { plainOptions with ingress := some ⟨⟨some "wiki.example.com", none, false, false, false⟩, none, none⟩ }

/-- What a deploy of the wiki leaves, where everything works. -/
def afterDeploy (opts : DeployOptions) (s : AppsWorld) : AppsWorld :=
  (Async.run (answering working) ((wikiDeployed opts).program wikiEnv) s).2

theorem steps_wikiDeployed (opts : DeployOptions) (s : AppsWorld) :
    ∃ t p, Steps surroundings ((wikiDeployed opts).program wikiEnv) s t p (afterDeploy opts s) := by
  obtain ⟨t, ht⟩ := steps_answering (C := fun _ _ _ => True) working
    (p := (wikiDeployed opts).program wikiEnv) (s := s) (Async.checked_true _ _ _)
  exact ⟨t, _, ht.mono fun _ _ _ _ hx => hx.1⟩

/-- Deployed again with its domain, the wiki keeps the gate that is recorded. -/
theorem wiki_gate_kept : ∃ s : AppsWorld, Gated (s.row ("web1", "wiki")) ∧
    GateKept ((afterDeploy domainOptions s).row ("web1", "wiki")) := by
  obtain ⟨t, p, ht⟩ := steps_wikiDeployed gatedOptions (wikiWorld [])
  obtain ⟨t', p', ht'⟩ := steps_wikiDeployed domainOptions (afterDeploy gatedOptions (wikiWorld []))
  have hgated : Gated ((afterDeploy gatedOptions (wikiWorld [])).row ("web1", "wiki")) := by decide +kernel
  have hbare : ¬(wikiDeployed domainOptions).Waives := fun ⟨_, hi, _⟩ => nomatch hi
  exact ⟨_, hgated, gate_kept wikiEnv _ (wikiDeployed gatedOptions) _ _ _ _ _ _ _ _ _
    (by rintro ⟨intent, hi, hmode⟩; cases hi; cases hmode) ht hgated (.refl _ _)
    (.cons (.refl _) ⟨hbare, fun _ => hgated⟩ ht' trivial (.nil _))⟩

/-- Deployed without a domain in between, it is public without a gate. -/
theorem wiki_ungated : ∃ (s : AppsWorld) (ts : List (AppCommand × Trace AppOp AppOp.Answer)) (s' : AppsWorld),
    Gated (s.row ("web1", "wiki")) ∧
    Session surroundings (AppCommand.program wikiEnv) InventoryEdit (fun c _ => ¬c.Waives) (fun _ => True)
      s ts s' ∧ ¬GateKept (s'.row ("web1", "wiki")) := by
  obtain ⟨t, p, ht⟩ := steps_wikiDeployed plainOptions (afterDeploy gatedOptions (wikiWorld []))
  obtain ⟨t', p', ht'⟩ := steps_wikiDeployed domainOptions
    (afterDeploy plainOptions (afterDeploy gatedOptions (wikiWorld [])))
  have hbare (opts : DeployOptions) (hopts : opts.auth = none) : ¬(wikiDeployed opts).Waives := by
    rintro ⟨intent, hi, -⟩
    rw [hopts] at hi
    cases hi
  refine ⟨afterDeploy gatedOptions (wikiWorld []), _, _, ?_,
    .cons (.refl _) (hbare _ rfl) ht trivial (.cons (.refl _) (hbare _ rfl) ht' trivial (.nil _)), ?_⟩
  · decide +kernel
  · decide +kernel

end Vops.Apps
