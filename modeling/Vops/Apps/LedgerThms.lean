import Vops.Apps.AppRuns
import Vops.Apps.GateThms

/-!
# The ledger and the host

* `Sent`, `PutBack`, `Removed` — the scripts of a run, and that they reported success.
* `Truthful`, `RemovalTruthful` — a row is only deleted or reverted once nothing that was sent is left.
* `RevertsSucceed` — every script that removes an app or puts a host back reports success.
* `ledger_truthful`, `removal_lost` — every run is truthful where they do, and one where one does not.
-/

namespace Vops.Apps

open Async (AllOps Safe Keeps Steps Surroundings Trace given traced)
open AppProg VopsIngress VopsApps

/-! ## What a run has done -/

/-- What was performed, with the answers. -/
abbrev AppTrace := Trace AppOp AppOp.Answer

/-- The deploy script was sent to the host. -/
def Sent (t : AppTrace) (host : DeployHost) (script : HostScript) : Prop :=
  ∃ x, (⟨.runScript host (.deploy script), x⟩ : Σ o : AppOp, o.Answer) ∈ t

/-- A script that puts a host back reported success. -/
def PutBack (t : AppTrace) : Prop :=
  ∃ host script, ∃ x : ScriptResult Unit,
    (⟨.runScript host (.rollback script), x⟩ : Σ o : AppOp, o.Answer) ∈ t ∧ x.succeeded = true

/-- The script that removes an app reported success. -/
def Removed (t : AppTrace) (script : HostScript) : Prop :=
  ∃ host, ∃ x : ScriptResult Unit,
    (⟨.runScript host (.remove script), x⟩ : Σ o : AppOp, o.Answer) ∈ t ∧ x.succeeded = true

/-- The row has the units that the script starts. -/
def Describes (row : AppInstall) (script : HostScript) : Prop :=
  ∃ input : DeployScriptInput, script = buildDeployScript input ∧
    input.unitDir = appUnitDir row.name ∧ input.units = row.units

/-- What was deployed has its row, unless the host was put back. -/
def Truthful (t : AppTrace) (s : AppsWorld) : Prop :=
  ∀ host script, Sent t host script →
    PutBack t ∨ ∃ row, s.row row.key = some row ∧ row.host = host.name ∧ Describes row script

/-- A row whose host is in the inventory is there as long as the app was not removed. -/
def RemovalTruthful (s : AppsWorld) (purge : Bool) (t : AppTrace) (s' : AppsWorld) : Prop :=
  ∀ row, s.row row.key = some row → (s.host row.host).isSome →
    s'.row row.key = some row ∨
      ∃ row' : AppInstall, row'.key = row.key ∧ Removed t (Apps.removeApp row'.toAppInstallV1 purge)

/-- A script that removes an app or puts a host back reports success. -/
def RevertsSucceed : (o : AppOp) → AppsWorld → o.Answer → Prop
  | .runScript _ (.rollback _), _, x => x.succeeded = true
  | .runScript _ (.remove _), _, x => x.succeeded = true
  | _, _, _ => True

/-- The surroundings in which they do, with the history. -/
def reverting : Surroundings AppOp AppOp.Answer (AppsWorld × AppTrace) :=
  traced (given surroundings RevertsSucceed)

/-! ## Steps -/

variable {σ σ' : AppsWorld × AppTrace} {o : AppOp} {x : o.Answer}

/-- Nothing was deployed in this run. -/
def Untouched (σ : AppsWorld × AppTrace) : Prop := ∀ host script, ¬Sent σ.2 host script

theorem Sent.of_step (hx : reverting o σ x σ') (hcalm : ∀ host script, o ≠ .runScript host (.deploy script))
    {host : DeployHost} {script : HostScript} (h : Sent σ'.2 host script) : Sent σ.2 host script := by
  obtain ⟨y, hy⟩ := h
  rw [hx.2] at hy
  rcases List.mem_append.mp hy with hy | hy
  · exact ⟨y, hy⟩
  · exact absurd (congrArg Sigma.fst (List.mem_singleton.mp hy)).symm (hcalm host script)

theorem PutBack.step (h : PutBack σ.2) (hx : reverting o σ x σ') : PutBack σ'.2 := by
  obtain ⟨host, script, y, hy, hok⟩ := h
  refine ⟨host, script, y, ?_, hok⟩
  rw [hx.2]
  exact List.mem_append_left _ hy

/-- Nothing of this run is left on the host. -/
def Settled (σ : AppsWorld × AppTrace) : Prop := Untouched σ ∨ PutBack σ.2

theorem Settled.truthful (h : Settled σ) : Truthful σ.2 σ.1 := by
  intro host script hsent
  rcases h with h | h
  · exact absurd hsent (h host script)
  · exact .inl h

theorem Settled.step (h : Settled σ) (hx : reverting o σ x σ')
    (hcalm : ∀ host script, o ≠ .runScript host (.deploy script)) : Settled σ' :=
  h.imp (fun h host script hsent => h host script (hsent.of_step hx hcalm)) fun h => h.step hx

/-! ## A deploy -/

section Deploy

variable (d : DeployStart)

/-- The deploy script. -/
def deployScript : HostScript := buildDeployScript (deployInput d.decision.hp d.generator d.registry)

/-- The units are those of the app. -/
def InPlace : Prop := d.decision.hp.unitDir = appUnitDir d.decision.bound.name

/-- A row of this deploy. -/
structure Own (row : AppInstall) : Prop where
  key : row.key = d.row.key
  units : row.units = d.row.units

/-- The row is one of this deploy, and nothing else was deployed. -/
structure Claimed (σ : AppsWorld × AppTrace) : Prop where
  only : ∀ host script, Sent σ.2 host script → host = d.host ∧ script = deployScript d
  row : ∃ row, σ.1.row d.row.key = some row ∧ Own d row

variable {d}

theorem Claimed.truthful (hd : InPlace d) (h : Claimed d σ) : Truthful σ.2 σ.1 := by
  intro host script hsent
  obtain ⟨rfl, rfl⟩ := h.only host script hsent
  obtain ⟨row, hrow, hown⟩ := h.row
  refine .inr ⟨row, by rw [hown.key]; exact hrow, congrArg Prod.fst hown.key, _, rfl, ?_, ?_⟩
  · have hname : row.name = d.decision.bound.name := (congrArg Prod.snd hown.key).trans (install_name _)
    rw [hname]
    exact hd
  · exact (hown.units.trans (install_units _)).symm

theorem Claimed.calm (h : Claimed d σ) (hx : reverting o σ x σ') (ho : Calm o) : Claimed d σ' where
  only host script hsent := h.only host script (hsent.of_step hx ho.2)
  row := by
    obtain ⟨row, hrow, hown⟩ := h.row
    refine ⟨row, ?_, hown⟩
    unfold AppsWorld.row at hrow ⊢
    rw [rows_eq ho.1 hx.1.1]
    exact hrow

/-- A row of this deploy is written. -/
theorem Claimed.save {row : AppInstall} {x : Except String Unit} (h : Claimed d σ) (hown : Own d row)
    (hx : reverting (.saveInstall row) σ x σ') : Claimed d σ' where
  only host script hsent := h.only host script (hsent.of_step hx nofun)
  row := by
    rcases Written.cases hx.1.1 with hs | hs
    · exact ⟨row, by rw [hs, AppsWorld.row_save, if_pos hown.key], hown⟩
    · rw [hs]
      exact h.row

/-- How a part of a deploy fails: settled, or with its row where the app is left running. -/
def Failed (d : DeployStart) (e : AppError) (σ : AppsWorld × AppTrace) : Prop :=
  match e with
  | .leftRunning _ => Claimed d σ
  | .failed _ => Settled σ

/-- How a part of a deploy ends. -/
def Outcome {β : Type} (d : DeployStart) (r : Except AppError β) (σ : AppsWorld × AppTrace) : Prop :=
  match r with
  | .ok _ => Claimed d σ
  | .error e => Failed d e σ

theorem Failed.of_clean (h : Untouched σ ∧ Claimed d σ) (e : AppError) : Failed d e σ := by
  cases e with
  | failed message => exact .inl h.1
  | leftRunning message => exact h.2

theorem Failed.truthful {e : AppError} (hd : InPlace d) (h : Failed d e σ) : Truthful σ.2 σ.1 := by
  cases e with
  | failed message => exact Settled.truthful h
  | leftRunning message => exact Claimed.truthful hd h

theorem Failed.calm {e : AppError} (h : Failed d e σ) (hx : reverting o σ x σ') (ho : Calm o) :
    Failed d e σ' := by
  cases e with
  | failed message => exact Settled.step h hx ho.2
  | leftRunning message => exact Claimed.calm h hx ho

theorem clean_step (h : Untouched σ ∧ Claimed d σ) (hx : reverting o σ x σ') (ho : Calm o) :
    Untouched σ' ∧ Claimed d σ' :=
  ⟨fun host script hsent => h.1 host script (hsent.of_step hx ho.2), h.2.calm hx ho⟩

theorem returns_runSmoke (host : DeployHost) (plan : FullAppPlan) (hp : HostDeployPlan) :
    Async.Returns (runSmoke host plan hp) := by
  unfold runSmoke
  dsimp only
  split
  · trivial
  · trivial
  · split
    · exact fun _ => trivial
    · exact fun _ => trivial

theorem returns_discardDnsRecord (dns : Option EnsuredRecord) :
    Async.Returns (discardDnsRecord dns) := by
  unfold discardDnsRecord
  split
  · exact fun _ => trivial
  · trivial

/-- A rollback settles the deploy. -/
theorem safe_rollback {host : DeployHost} {input : RollbackInput} {message : String} {β : Type}
    (hd : InPlace d) (h : Claimed d σ) :
    Safe reverting (fun σ => Truthful σ.2 σ.1) (Outcome (β := β) d)
      (do
        VopsApps.rollbackDeploy host input
        throw (.failed message)) σ := by
  refine Safe.perform (h.truthful hd) fun x σ' hx => ?_
  have hback : PutBack σ'.2 := by
    refine ⟨host, Apps.rollbackDeploy input, x, ?_, hx.1.2⟩
    rw [hx.2]
    exact List.mem_append_right _ (List.mem_singleton_self _)
  exact Safe.of_done (Settled.truthful (.inr hback)) (.inr hback)

theorem safe_gateOrRollback {host : DeployHost} {input : GateInput}
    {res : ScriptResult (Except String Unit)} (hd : InPlace d) (h : Claimed d σ) :
    Safe reverting (fun σ => Truthful σ.2 σ.1) (Outcome d) (gateOrRollback host input res) σ := by
  unfold gateOrRollback
  split
  · exact safe_rollback hd h
  · refine Safe.returns_bind (plain_runSmoke _ _ _) (returns_runSmoke _ _ _)
      (fun o x σ σ' ho hx h => Claimed.calm h hx ho.calm) (fun σ h => h.truthful hd) h fun smoke σ h => ?_
    split
    · exact Safe.of_done (h.truthful hd) h
    · refine Safe.returns_bind (plain_gatherDiag _ _) (fun _ => trivial)
        (fun o x σ σ' ho hx h => Claimed.calm h hx ho.calm) (fun σ h => h.truthful hd) h fun diag σ h => ?_
      refine Safe.perform (h.truthful hd) fun noRollback σ' hx => ?_
      have h' := h.calm hx (Plain.calm trivial)
      split
      · exact Safe.of_done (h'.truthful hd) h'
      · exact safe_rollback hd h'

theorem safe_build {preexisting : HostAppData} (hd : InPlace d) (h : Untouched σ ∧ Claimed d σ) :
    Safe reverting (fun σ => Truthful σ.2 σ.1) (Outcome d) (build d preexisting) σ := by
  refine Safe.allOps_bind (plain_provision d) (fun o x σ σ' ho hx h => clean_step h hx ho.calm)
    (fun σ h => h.2.truthful hd) h (fun _ σ h => ?_) (fun e σ h => Failed.of_clean h e)
  refine Safe.perform (h.2.truthful hd) fun res σ' hx => safe_gateOrRollback hd ⟨?_, ?_⟩
  · rintro host script ⟨y, hy⟩
    rw [hx.2] at hy
    rcases List.mem_append.mp hy with hy | hy
    · exact absurd ⟨y, hy⟩ (h.1 host script)
    · cases List.mem_singleton.mp hy
      exact ⟨rfl, rfl⟩
  · obtain ⟨row, hrow, hown⟩ := h.2.row
    refine ⟨row, ?_, hown⟩
    rw [show σ'.1 = σ.1 from hx.1.1]
    exact hrow

theorem safe_mutateHost (hd : InPlace d) (h : Untouched σ ∧ Claimed d σ) :
    Safe reverting (fun σ => Truthful σ.2 σ.1) (Outcome d) (mutateHost d) σ := by
  refine Safe.allOps_bind (calm_ensureRecord d) (fun o x σ σ' ho hx h => clean_step h hx ho)
    (fun σ h => h.2.truthful hd) h (fun record σ h => ?_) (fun e σ h => Failed.of_clean h e)
  refine Safe.allOps_bind (plain_existingData d) (fun o x σ σ' ho hx h => clean_step h hx ho.calm)
    (fun σ h => h.2.truthful hd) h (fun preexisting σ h => ?_) (fun e σ h => Failed.of_clean h e)
  have hclean : Safe reverting (fun σ => Truthful σ.2 σ.1) (Outcome d)
      (withDnsCleanup record (build d preexisting)) σ := by
    refine Safe.tryCatch ((safe_build hd h).mono fun r σ _ hr => ?_)
    cases r with
    | ok smoke => exact hr
    | error e =>
        exact Safe.returns_bind (calm_discardDnsRecord record) (returns_discardDnsRecord record)
          (fun o x σ σ' ho hx h => Failed.calm h hx ho) (fun σ h => Failed.truthful hd h) hr
          fun _ σ h => Safe.of_done (Failed.truthful hd h) h
  refine Safe.bind (hclean.mono fun r σ hI hr => ?_)
  cases r with
  | ok smoke => exact Safe.of_done hI hr
  | error e => exact hr

theorem own_row : Own d d.row := ⟨rfl, rfl⟩

theorem own_installing : Own d (installing d.row) := ⟨rfl, rfl⟩

theorem own_routed (state : AppIngressState) : Own d (routedRow d.row state) := ⟨rfl, rfl⟩

/-- A settled deploy may write or delete any row. -/
theorem safe_revert {row : AppInstall} {prev : Option AppInstall} (h : Settled σ) :
    Safe reverting (fun σ => Truthful σ.2 σ.1) (fun _ σ => Settled σ) (revertInstall row prev) σ := by
  refine Safe.of_allOps (P := fun o => ∀ host script, o ≠ .runScript host (.deploy script)) ?_
    (fun o x σ σ' ho hx h => Settled.step h hx ho) (fun σ h => h.truthful) h
  cases prev with
  | none => exact .perform_bind nofun fun _ => allOps_lift _
  | some prev => exact .perform_bind nofun fun _ => allOps_lift _

/-- The half that touches the host, under the claim of the row. -/
theorem safe_withLedgerRevert {prev : Option AppInstall} (hd : InPlace d)
    (h : Untouched σ ∧ Claimed d σ) :
    Safe reverting (fun σ => Truthful σ.2 σ.1) (fun r σ => ∀ a, r = .ok a → Claimed d σ)
      (withLedgerRevert d.row prev (mutateHost d)) σ := by
  refine Safe.tryCatch ((safe_mutateHost hd h).mono fun r σ hI hr => ?_)
  cases r with
  | ok a => exact fun _ _ => hr
  | error e =>
      cases e with
      | leftRunning message => exact Safe.of_done hI nofun
      | failed message =>
          refine Safe.bind ((safe_revert hr).mono fun r σ hI hr => ?_)
          cases r with
          | ok u => exact Safe.of_done hI nofun
          | error e => exact nofun

theorem safe_attach {dns : Option EnsuredRecord} (hd : InPlace d) (h : Claimed d σ) :
    Safe reverting (fun σ => Truthful σ.2 σ.1) (fun _ σ => Claimed d σ) (attach d dns) σ := by
  unfold attach
  split
  · exact Safe.of_done (h.truthful hd) h
  · refine Safe.allOps_bind (plain_attachRoute _ _ _ _ _) (fun o x σ σ' ho hx h => Claimed.calm h hx ho.calm)
      (fun σ h => h.truthful hd) h (fun attached σ₁ h₁ => ?_) fun _ _ h => h
    refine safe_saveInstall (h₁.truthful hd) (fun σ₂ hx => ?_) fun e σ₂ hx => ?_
    · have h₂ := h₁.save (own_routed attached.state) hx
      exact Safe.of_done (h₂.truthful hd) h₂
    · have h₂ := h₁.save (own_routed attached.state) hx
      exact ⟨h₂.truthful hd, h₂⟩

/-- From the claim of its row on a deploy is truthful. -/
theorem keeps_runDeploy {dns : Option String} (hd : InPlace d) (h : Untouched σ) :
    Keeps reverting (fun σ => Truthful σ.2 σ.1) (runDeploy d dns) σ := by
  have hcalm : ∀ o x σ σ', Plain o → reverting o σ x σ' → Claimed d σ → Claimed d σ' :=
    fun o x σ σ' ho hx h => Claimed.calm h hx ho.calm
  have huntouched {row : AppInstall} {x : Except String Unit} {σ' : AppsWorld × AppTrace}
      (hx : reverting (.saveInstall row) σ x σ') : Untouched σ' :=
    fun host script hsent => h host script (hsent.of_step hx nofun)
  refine safe_saveInstall (Settled.truthful (.inl h)) (fun σ₁ hx => ?_)
    fun e σ₁ hx => ⟨Settled.truthful (.inl (huntouched hx)), trivial⟩
  have hclaimed : Claimed d σ₁ := by
    refine ⟨fun host script hsent => absurd hsent (huntouched hx host script), installing d.row, ?_,
      own_installing⟩
    rw [Written.of_ok hx.1.1, AppsWorld.row_save]
    exact if_pos rfl
  refine Keeps.seq (safe_withLedgerRevert hd ⟨huntouched hx, hclaimed⟩) fun (smoke, record) σ₂ _ h₂ => ?_
  refine safe_saveInstall (h₂.truthful hd) (fun σ₃ hx => ?_)
    fun e σ₃ hx => ⟨(h₂.save own_row hx).truthful hd, trivial⟩
  have h₃ := h₂.save own_row hx
  refine Safe.allOps_bind (plain_appendAudit _) hcalm (fun σ h => h.truthful hd) h₃ (fun _ σ₄ h₄ => ?_)
    fun _ _ _ => trivial
  refine Safe.bind ((safe_attach hd h₄).mono fun r σ₅ _ h₅ => ?_)
  cases r with
  | error e => trivial
  | ok attached =>
      exact Safe.allOps_bind (plain_runPostInstall _ _ _ _ _) hcalm (fun σ h => h.truthful hd) h₅
        (fun _ σ₆ h₆ => Safe.of_done (h₆.truthful hd) trivial) fun _ _ _ => trivial

end Deploy

/-- Every moment of a deploy is truthful. -/
theorem keeps_deploy {env : AppEnv} {source : DeploySource} {hostName : String} {opts : DeployOptions}
    (h : Untouched σ) :
    Keeps reverting (fun σ => Truthful σ.2 σ.1) (deploy env source hostName opts) σ := by
  refine safe_deploy (w := Prod.fst) (J := Untouched) (fun _ _ _ _ hx => hx.1.1) (fun o x σ σ' ho hx h host script hsent =>
      h host script (hsent.of_step hx ho.calm.2)) (fun σ h => Settled.truthful (.inl h)) h
    (fun d dns σ' h' hready => ?_) (fun _ _ _ _ => trivial) fun _ _ _ => trivial
  obtain ⟨plan, siblings, -, -, -, hdecided⟩ := hready.decided
  exact keeps_runDeploy hdecided.bound_spec.2 h'.2

/-! ## A removal -/

section Removal

variable {s : AppsWorld} {purge : Bool}

theorem RemovalTruthful.of_rows (h : σ.1.rows = s.rows) : RemovalTruthful s purge σ.2 σ.1 := by
  intro row hrow _
  refine .inl ?_
  unfold AppsWorld.row at hrow ⊢
  rw [h]
  exact hrow

/-- Calm operations leave the rows. -/
theorem rows_step (o : AppOp) (x : o.Answer) (σ σ' : AppsWorld × AppTrace) (ho : Calm o)
    (hx : reverting o σ x σ') (h : σ.1.rows = s.rows) : σ'.1.rows = s.rows :=
  (rows_eq ho.1 hx.1.1).trans h

/-- The rows after one was deleted, if it was. -/
theorem RemovalTruthful.drop (key : String × String) {x : Except String Unit}
    (hx : reverting (.deleteInstall key.1 key.2) σ x σ') (h : σ.1.rows = s.rows)
    (hkey : (s.host key.1).isSome →
      ∃ row' : AppInstall, row'.key = key ∧ Removed σ.2 (Apps.removeApp row'.toAppInstallV1 purge)) :
    RemovalTruthful s purge σ'.2 σ'.1 := by
  intro row hrow hhost
  have hbefore : σ.1.row row.key = some row := by
    unfold AppsWorld.row at hrow ⊢
    rw [h]
    exact hrow
  rcases Written.cases hx.1.1 with hs | hs
  · rw [hs, AppsWorld.row_drop]
    by_cases hsame : key = row.key
    · obtain ⟨row', hrow', host, y, hy, hok⟩ := hkey (by rw [hsame]; exact hhost)
      refine .inr ⟨row', hrow'.trans hsame, host, y, ?_, hok⟩
      rw [hx.2]
      exact List.mem_append_left _ hy
    · rw [if_neg hsame]
      exact .inl hbefore
  · rw [hs]
    exact .inl hbefore

/-- Every moment of a removal is truthful. -/
theorem keeps_removeApp {name : String} {dryRun : Bool} {onHost : Option String} (h : σ.1 = s) :
    Keeps reverting (fun σ => RemovalTruthful s purge σ.2 σ.1) (VopsApps.removeApp name purge dryRun onHost)
      σ := by
  have hI : ∀ σ : AppsWorld × AppTrace, σ.1.rows = s.rows → RemovalTruthful s purge σ.2 σ.1 :=
    fun σ h => .of_rows h
  have hcalm {α β : Type} {p : AppProg α} {f : α → AppProg β} (hp : AllOps Calm p) {σ}
      (hσ : σ.1.rows = s.rows)
      (hf : ∀ a σ', σ'.1.rows = s.rows → Keeps reverting (fun σ => RemovalTruthful s purge σ.2 σ.1) (f a) σ') :
      Keeps reverting (fun σ => RemovalTruthful s purge σ.2 σ.1) (p >>= f) σ :=
    Safe.allOps_bind hp rows_step hI hσ hf fun _ _ _ => trivial
  have hplain {α β : Type} {p : AppProg α} {f : α → AppProg β} (hp : AllOps Plain p) {σ}
      (hσ : σ.1.rows = s.rows)
      (hf : ∀ a σ', σ'.1.rows = s.rows → Keeps reverting (fun σ => RemovalTruthful s purge σ.2 σ.1) (f a) σ') :
      Keeps reverting (fun σ => RemovalTruthful s purge σ.2 σ.1) (p >>= f) σ :=
    hcalm (hp.mono fun _ => Plain.calm) hσ hf
  have hdelete {row : AppInstall} {event : String} {σ : AppsWorld × AppTrace} (hσ : σ.1.rows = s.rows)
      (hkey : (s.host row.host).isSome →
        ∃ row' : AppInstall, row'.key = row.key ∧ Removed σ.2 (Apps.removeApp row'.toAppInstallV1 purge)) :
      Keeps reverting (fun σ => RemovalTruthful s purge σ.2 σ.1)
        (do
          lift (← op (.deleteInstall row.host row.name))
          appendAudit event
          pure true) σ := by
    refine Safe.perform (hI _ hσ) fun x σ' hx => ?_
    have hdrop := RemovalTruthful.drop row.key hx hσ hkey
    cases x with
    | error e => exact Safe.of_done hdrop trivial
    | ok u =>
        refine Safe.allOps_bind (p := appendAudit event) (J := fun σ => RemovalTruthful s purge σ.2 σ.1)
          (plain_appendAudit _) ?_ (fun _ h => h) hdrop (fun _ σ h => Safe.of_done h trivial)
          fun _ _ _ => trivial
        intro o x σ σ' ho hx h row hrow hhost
        rw [eq_of_plain ho hx.1.1]
        refine (h row hrow hhost).imp_right fun ⟨row', hrow', host, y, hy, hok⟩ => ⟨row', hrow', host, y, ?_, hok⟩
        rw [hx.2]
        exact List.mem_append_left _ hy
  refine safe_resolveInstall (w := Prod.fst) (J := fun σ => σ.1.rows = s.rows) (fun _ _ _ _ hx => hx.1.1)
    (fun o x σ σ' ho hx h => rows_step o x σ σ' ho.calm hx h) hI ⟨h, congrArg AppsWorld.rows h⟩
    (fun row σ₁ h₁ hmem hname => ?_) fun _ _ _ => trivial
  refine Safe.perform (hI _ h₁.2) fun host σ₂ hx => ?_
  have h₂ := rows_step _ host _ _ (Plain.calm trivial) hx h₁.2
  have hhost : host = s.host row.host := by
    rw [← h₁.1]
    exact hx.1.1.1
  cases host with
  | none =>
      by_cases hdry : dryRun = true
      · simp only [forgetOrphan, hdry, if_true]
        exact Safe.of_done (hI _ h₂) trivial
      · simp only [forgetOrphan, hdry]
        exact hdelete h₂ fun hsome => absurd hsome (by rw [← hhost]; simp)
  | some host =>
      refine hplain (plain_assertHostWritable _) h₂ fun _ σ₃ h₃ => ?_
      by_cases hdry : dryRun = true
      · rw [if_pos hdry]
        exact Safe.of_done (hI _ h₃) trivial
      · rw [if_neg hdry]
        refine hcalm (calm_cleanupForRemoval _ _) h₃ fun _ σ₄ h₄ =>
          hplain (plain_resolveSshTarget _) h₄ fun _ σ₅ h₅ => ?_
        refine Safe.perform (hI _ h₅) fun res σ₆ hx => ?_
        have h₆ := rows_step _ res _ _ ⟨trivial, nofun⟩ hx h₅
        refine hdelete h₆ fun _ => ⟨row, rfl, host, res, ?_, hx.1.2⟩
        rw [hx.2]
        exact List.mem_append_right _ (List.mem_singleton_self _)

end Removal

/-! ## Every run -/

/-- Every moment of every deploy and of every removal is truthful where what removes an app or puts a host
back reports success. -/
theorem ledger_truthful (env : AppEnv) :
    (∀ (source : DeploySource) (hostName : String) (opts : DeployOptions) (s : AppsWorld) (t : AppTrace)
      (p : AppProg DeployAnswer) (s' : AppsWorld),
      Steps (given surroundings RevertsSucceed) (deploy env source hostName opts) s t p s' →
        Truthful t s') ∧
    ∀ (name : String) (purge dryRun : Bool) (onHost : Option String) (s : AppsWorld) (t : AppTrace)
      (p : AppProg Bool) (s' : AppsWorld),
      Steps (given surroundings RevertsSucceed) (VopsApps.removeApp name purge dryRun onHost) s t p s' →
        RemovalTruthful s purge t s' := by
  refine ⟨fun source hostName opts s t p s' h => ?_, fun name purge dryRun onHost s t p s' h => ?_⟩
  · refine (keeps_deploy (σ := (s, [])) ?_).steps (h.traced [])
    rintro host script ⟨x, hx⟩
    cases hx
  · exact (keeps_removeApp (σ := (s, [])) rfl).steps (h.traced [])

/-! ## An app that is lost -/

/-- The units of a deploy do not start, and nothing else fails. -/
def stuck : (script : RemoteScript) → ScriptResult script.Output
  | .deploy _ => ⟨1, false, "", .error "exit 1"⟩
  | script => working script

/-- The connection is gone where an app is removed or a host put back. -/
def unreachable : (script : RemoteScript) → ScriptResult script.Output
  | .rollback _ => ⟨255, false, "Connection closed by remote host", ()⟩
  | .remove _ => ⟨255, false, "Connection closed by remote host", ()⟩
  | script => stuck script

/-- What removes an app or puts a host back fails. -/
def RevertsFail : (o : AppOp) → AppsWorld → o.Answer → Prop
  | .runScript _ (.rollback _), _, x => x.succeeded = false
  | .runScript _ (.remove _), _, x => x.succeeded = false
  | _, _, _ => True

instance (o : AppOp) (s : AppsWorld) (x : o.Answer) : Decidable (RevertsSucceed o s x) := by
  unfold RevertsSucceed
  split <;> infer_instance

instance (o : AppOp) (s : AppsWorld) (x : o.Answer) : Decidable (RevertsFail o s x) := by
  unfold RevertsFail
  split <;> infer_instance

/-- The first deploy of the wiki. -/
def wikiFirst : AppProg DeployAnswer := deploy wikiEnv ⟨some "wiki", none, none⟩ "web1" plainOptions

/-- The wiki is removed. -/
def wikiRemoval : AppProg Bool := VopsApps.removeApp "wiki" false false none

/-- The program ends without the row of the wiki. -/
def endsWithout {α : Type} (scripts : (script : RemoteScript) → ScriptResult script.Output) (p : AppProg α)
    (rows : List AppInstall) : Bool :=
  ((Async.run (answering scripts) p (wikiWorld rows)).2.row ("web1", "wiki")).isNone

/-- A deploy that is rolled back, and a removal, of which the host is told. -/
theorem wiki_truthful :
    (∃ t r s', Steps surroundings wikiFirst (wikiWorld []) t (.done r) s' ∧
      Truthful t s' ∧ (s'.row ("web1", "wiki")).isNone) ∧
    ∃ t r s', Steps surroundings wikiRemoval (wikiWorld [wikiRow .loopback]) t (.done r) s' ∧
      RemovalTruthful (wikiWorld [wikiRow .loopback]) false t s' ∧ (s'.row ("web1", "wiki")).isNone := by
  obtain ⟨t, ht⟩ := steps_answering (C := RevertsSucceed) stuck (p := wikiFirst)
    (s := wikiWorld []) (by decide +kernel)
  obtain ⟨t', ht'⟩ := steps_answering (C := RevertsSucceed) stuck (p := wikiRemoval)
    (s := wikiWorld [wikiRow .loopback]) (by decide +kernel)
  have h : endsWithout stuck wikiFirst [] = true ∧
      endsWithout stuck wikiRemoval [wikiRow .loopback] = true := by decide +kernel
  exact ⟨⟨_, _, _, ht.mono fun _ _ _ _ hx => hx.1, (ledger_truthful wikiEnv).1 _ _ _ _ _ _ _ ht, h.1⟩,
    _, _, _, ht'.mono fun _ _ _ _ hx => hx.1, (ledger_truthful wikiEnv).2 _ _ _ _ _ _ _ _ ht', h.2⟩

/-- The row is deleted although the host could not be told. -/
theorem wiki_lost : ∃ t r s', Steps surroundings wikiRemoval (wikiWorld [wikiRow .loopback]) t (.done r) s' ∧
    ¬RemovalTruthful (wikiWorld [wikiRow .loopback]) false t s' := by
  obtain ⟨t, ht⟩ := steps_answering (C := RevertsFail) unreachable (p := wikiRemoval)
    (s := wikiWorld [wikiRow .loopback]) (by decide +kernel)
  have hgone : endsWithout unreachable wikiRemoval [wikiRow .loopback] = true := by decide +kernel
  refine ⟨t, _, _, ht.mono fun _ _ _ _ hx => hx.1, fun h => ?_⟩
  rcases h (wikiRow .loopback) rfl rfl with hrow | ⟨row', -, host, x, hmem, hok⟩
  · rw [endsWithout, show ("web1", "wiki") = (wikiRow .loopback).key from rfl, hrow] at hgone
    cases hgone
  · have hfailed := Steps.answers (D := fun e => ∀ host script (x : ScriptResult Unit),
      e = ⟨.runScript host (.remove script), x⟩ → x.succeeded = false) ?_ ht _ hmem host _ x rfl
    · rw [hok] at hfailed
      cases hfailed
    · rintro o s x h host script y ⟨⟩
      exact h

end Vops.Apps
