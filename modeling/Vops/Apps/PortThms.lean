import Vops.Apps.InstallLedger
import Vops.Lib.Async
import Mathlib.Data.List.Perm.Subperm
import Mathlib.Data.List.Forall2

/-!
# Host ports

* `exposedPorts`, `keptPorts` — the ports of a plan that are bound, and the host ports that the previous
  install had for them and that are still allowed.
* `HandedOut` — ports that were allocated one after the other.
* `planHostDeploy_ports` — the host ports of a plan are the kept ones and ports handed out.
* `PortsClean` — no host port is bound twice or taken from another install.
* `LedgerSound` — what the ledger keeps over any deploys and removals.
* `doubled_again` — a component with two exposed ports of one container port, deployed twice.
* `host_ports` — a plan is bound cleanly exactly when the kept ports are pairwise distinct and not those
  of others; two installs of one host never record the same host port.
-/

namespace Vops.Apps

variable {ctx : BindCtx} {used used' : List ℤ} {plan plan' : AppPlan} {hp : HostDeployPlan}

/-- The exposed ports of a plan, with their components, in the order in which they are bound. -/
def exposedPorts (comps : List AppComponentPlan) : List (String × AppPortPlan) :=
  comps.flatMap fun c => (c.ports.filter AppPortPlan.expose).map fun p => (c.name, p)

/-- The host port that an exposed port keeps. -/
def keptFor (ctx : BindCtx) (e : String × AppPortPlan) : Option ℤ := keptPort e.1 e.2 ctx

/-- The host ports that are kept. -/
def keptPorts (ctx : BindCtx) (comps : List AppComponentPlan) : List ℤ :=
  (exposedPorts comps).filterMap (keptFor ctx)

/-! ## Allocation -/

/-- The ports `new` were handed out, one after the other, where `used` were used before. -/
structure HandedOut (coexistence : Bool) (used new used' : List ℤ) : Prop where
  nodup : new.Nodup
  unused : ∀ p ∈ new, p ∉ used
  high : coexistence = true → ∀ p ∈ new, 1024 ≤ p
  mem_used : ∀ p, p ∈ used' ↔ p ∈ new ∨ p ∈ used

theorem HandedOut.nil (coexistence : Bool) (used : List ℤ) : HandedOut coexistence used [] used where
  nodup := List.nodup_nil
  unused := by simp
  high := by simp
  mem_used := by simp

theorem HandedOut.append {coexistence : Bool} {new new' used'' : List ℤ}
    (h : HandedOut coexistence used new used') (h' : HandedOut coexistence used' new' used'') :
    HandedOut coexistence used (new ++ new') used'' where
  nodup := List.nodup_append.mpr ⟨h.nodup, h'.nodup, fun p hp q hq hpq =>
    h'.unused q hq ((h.mem_used q).mpr (.inl (hpq ▸ hp)))⟩
  unused := by
    intro p hp hused
    rcases List.mem_append.mp hp with hp | hp
    · exact h.unused p hp hused
    · exact h'.unused p hp ((h.mem_used p).mpr (.inr hused))
  high := fun hco => List.forall_mem_append.mpr ⟨h.high hco, h'.high hco⟩
  mem_used := by
    intro p
    rw [h'.mem_used, h.mem_used, List.mem_append]
    tauto

/-- An allocated port was free, and is used from then on. -/
theorem handedOut_allocatePort {containerPort p : ℤ} {coexistence forceHigh : Bool}
    (h : allocatePort containerPort used coexistence forceHigh = .ok (p, used')) :
    HandedOut coexistence used [p] used' := by
  have hmem : ∀ q, q ∈ p :: used ↔ q ∈ [p] ∨ q ∈ used := by simp
  unfold allocatePort at h
  dsimp only at h
  by_cases hprefer : forceHigh = false ∧ (if coexistence then (1024 : ℤ) else 1) ≤ containerPort ∧
      containerPort ∉ used
  · rw [if_pos hprefer] at h
    cases h
    refine ⟨List.nodup_cons.mpr ⟨List.not_mem_nil, List.nodup_nil⟩, by simpa using hprefer.2.2, ?_, hmem⟩
    rintro rfl
    simpa using hprefer.2.1
  · rw [if_neg hprefer] at h
    cases hfind : allocRange.find? fun p => decide (p ∉ used) with
    | none =>
        rw [hfind] at h
        cases h
    | some q =>
        rw [hfind] at h
        cases h
        have hfree : p ∉ used := by simpa using List.find?_some hfind
        refine ⟨List.nodup_cons.mpr ⟨List.not_mem_nil, List.nodup_nil⟩, by simpa using hfree,
          fun _ => ?_, hmem⟩
        obtain ⟨n, -, hn⟩ := List.mem_map.mp (List.mem_of_find?_eq_some hfind)
        have hn' : (20000 : ℤ) + n = p := hn
        simp only [List.mem_singleton, forall_eq]
        omega

/-! ## Binding -/

/-- The host port of an exposed port is the kept one, or was unused. -/
def Placed (ctx : BindCtx) (used : List ℤ) (e : String × AppPortPlan) (port : ℤ) : Prop :=
  keptFor ctx e = some port ∨ keptFor ctx e = none ∧ port ∉ used

/-- The host port of a binding. -/
def BoundPort.port (b : BoundPort) : ℤ := b.endpoint.port

/-- What is bound for some exposed ports: the kept ports, and ports that were handed out. -/
structure Binds (ctx : BindCtx) (es : List (String × AppPortPlan)) (used ports used' : List ℤ) : Prop where
  placed : List.Forall₂ (Placed ctx used) es ports
  perm : ∃ new, HandedOut ctx.coexistence used new used' ∧
    ports.Perm (es.filterMap (keptFor ctx) ++ new)

theorem Binds.nil (ctx : BindCtx) (used : List ℤ) : Binds ctx [] used [] used :=
  ⟨.nil, [], .nil _ _, List.Perm.refl _⟩

/-- Ports that are placed stay placed with fewer ports used. -/
theorem Placed.mono {e : String × AppPortPlan} {port : ℤ} (h : Placed ctx used' e port)
    (hused : ∀ p ∈ used, p ∈ used') : Placed ctx used e port :=
  h.imp_right fun h => ⟨h.1, fun hmem => h.2 (hused port hmem)⟩

theorem Binds.append {es es' : List (String × AppPortPlan)} {ports ports' used'' : List ℤ}
    (h : Binds ctx es used ports used') (h' : Binds ctx es' used' ports' used'') :
    Binds ctx (es ++ es') used (ports ++ ports') used'' := by
  obtain ⟨hplaced, new, hnew, hperm⟩ := h
  obtain ⟨hplaced', new', hnew', hperm'⟩ := h'
  refine ⟨List.rel_append hplaced (hplaced'.imp fun _ _ hp => hp.mono fun p hp =>
    (hnew.mem_used p).mpr (.inr hp)), new ++ new', hnew.append hnew', ?_⟩
  rw [List.filterMap_append]
  refine (hperm.append hperm').trans ?_
  simp only [List.append_assoc]
  exact (List.perm_append_left_iff _).mpr (List.perm_append_comm_assoc _ _ _)

/-- One exposed port is bound. -/
theorem binds_bindExposedPort {component : String} {p : AppPortPlan} {b : BoundPort}
    (h : bindExposedPort component p ctx used = .ok (b, used')) :
    Binds ctx [(component, p)] used [b.port] used' ∧ b.published.host = b.port := by
  obtain ⟨⟨host, used''⟩, hhost, hb⟩ := Async.except_bind_eq_ok.mp h
  cases hb
  refine ⟨?_, rfl⟩
  show Binds ctx [(component, p)] used [host] used'
  unfold hostFor at hhost
  cases hkept : keptPort component p ctx with
  | some port =>
      rw [hkept] at hhost
      cases hhost
      refine ⟨.cons (.inl hkept) .nil, [], .nil _ _, ?_⟩
      rw [List.filterMap_cons_some (show keptFor ctx (component, p) = some host from hkept)]
      exact List.Perm.refl _
  | none =>
      rw [hkept] at hhost
      have hnew := handedOut_allocatePort hhost
      refine ⟨.cons (.inr ⟨hkept, hnew.unused host (List.mem_singleton_self _)⟩) .nil, [host], hnew, ?_⟩
      rw [List.filterMap_cons_none (show keptFor ctx (component, p) = none from hkept)]
      exact List.Perm.refl _

/-- The exposed ports of a component are bound. -/
theorem binds_bindComponent {component : String} {ports : List AppPortPlan} {bs : List BoundPort}
    (h : bindComponent component ctx ports used = .ok (bs, used')) :
    Binds ctx ((ports.filter AppPortPlan.expose).map fun p => (component, p)) used
      (bs.map BoundPort.port) used' ∧
      bs.map (fun b => b.published.host) = bs.map BoundPort.port := by
  induction ports generalizing used bs with
  | nil =>
      cases h
      exact ⟨.nil _ _, rfl⟩
  | cons p ports ih =>
      unfold bindComponent at h
      by_cases hexpose : p.expose = true
      · rw [if_pos hexpose] at h
        obtain ⟨⟨b, used₁⟩, hb, h⟩ := Async.except_bind_eq_ok.mp h
        obtain ⟨⟨rest, used₂⟩, hrest, h⟩ := Async.except_bind_eq_ok.mp h
        cases h
        obtain ⟨hfirst, hhost⟩ := binds_bindExposedPort hb
        obtain ⟨hmore, hhosts⟩ := ih hrest
        rw [List.filter_cons_of_pos hexpose]
        refine ⟨hfirst.append hmore, ?_⟩
        rw [List.map_cons, List.map_cons, hhost, hhosts]
      · rw [if_neg hexpose] at h
        rw [List.filter_cons_of_neg hexpose]
        exact ih h

/-- The exposed ports of all components are bound; what they publish is recorded by component. -/
theorem binds_bindPorts {comps : List AppComponentPlan} {ports ports' : Record (List PublishedPort)}
    {endpoints endpoints' : List AppEndpoint}
    (h : bindPorts ctx comps used ports endpoints = .ok (ports', endpoints')) :
    ∃ (blocks : List (String × List BoundPort)) (used' : List ℤ),
      ports' = ports.assign (blocks.map fun b => (b.1, b.2.map BoundPort.published)) ∧
      endpoints' = endpoints ++ blocks.flatMap (fun b => b.2.map BoundPort.endpoint) ∧
      Binds ctx (exposedPorts comps) used (blocks.flatMap fun b => b.2.map BoundPort.port) used' ∧
      blocks.flatMap (fun b => b.2.map fun b => b.published.host) =
        blocks.flatMap fun b => b.2.map BoundPort.port := by
  induction comps generalizing used ports endpoints with
  | nil =>
      cases h
      exact ⟨[], used, rfl, (List.append_nil _).symm, .nil _ _, rfl⟩
  | cons comp comps ih =>
      unfold bindPorts at h
      obtain ⟨⟨bs, used₁⟩, hbs, h⟩ := Async.except_bind_eq_ok.mp h
      obtain ⟨hfirst, hhost⟩ := binds_bindComponent hbs
      obtain ⟨blocks, used₂, hports, hendpoints, hmore, hhosts⟩ := ih h
      refine ⟨(comp.name, bs) :: blocks, used₂, hports, ?_, hfirst.append hmore, ?_⟩
      · rw [hendpoints, List.flatMap_cons, List.append_assoc]
      · rw [List.flatMap_cons, List.flatMap_cons, hhost, hhosts]

/-! ## What is published -/

/-- The host ports of a record. -/
def publishedHosts (ports : Record (List PublishedPort)) : List ℤ :=
  ports.entries.flatMap fun e => e.2.map PublishedPort.host

/-- What was set last is there once, and nothing else is new. -/
theorem subperm_flatMap_upsert {α β κ : Type} [DecidableEq κ] (f : α → List β) (key : α → κ) (row : α)
    (rows : List α) : List.Subperm ((Table.upsert key row rows).flatMap f) (rows.flatMap f ++ f row) := by
  induction rows with
  | nil => simp [Table.upsert, List.Subperm.refl]
  | cons r rows ih =>
      unfold Table.upsert
      split
      · rw [List.flatMap_cons, List.flatMap_cons, List.append_assoc]
        have hperm : (f row ++ rows.flatMap f).Perm (rows.flatMap f ++ f row) := List.perm_append_comm
        exact hperm.subperm.trans (List.sublist_append_right _ _).subperm
      · rw [List.flatMap_cons, List.flatMap_cons, List.append_assoc]
        exact (List.subperm_append_left _).mpr ih

theorem subperm_assign (r : Record (List PublishedPort)) (entries : List (String × List PublishedPort)) :
    List.Subperm (publishedHosts (r.assign entries))
      (publishedHosts r ++ entries.flatMap fun e => e.2.map PublishedPort.host) := by
  induction entries generalizing r with
  | nil =>
      rw [List.flatMap_nil, List.append_nil]
      exact List.Subperm.refl _
  | cons e entries ih =>
      refine (ih (r.set e.1 e.2)).trans ?_
      rw [List.flatMap_cons, ← List.append_assoc]
      exact (List.subperm_append_right _).mpr (subperm_flatMap_upsert _ _ _ _)

/-! ## One deploy -/

section Deploy

variable {facts : HostFacts} {hostAddress : String} {ingress : Option IngressBinding}
  {publish : PublishIntent} {reservations : Option PortReservations}

/-- The host ports of a plan are bound under its reservations; what it publishes is among them, once. -/
theorem planHostDeploy_ports
    (h : planHostDeploy plan facts hostAddress ingress publish reservations = .ok (plan', hp)) :
    ∃ used', Binds (bindCtx facts hostAddress ingress publish reservations)
        (exposedPorts plan.components) (usedPorts facts ingress reservations (ownOf reservations))
        (hp.endpoints.map AppEndpoint.port) used' ∧
      List.Subperm (publishedHosts hp.ports) (hp.endpoints.map AppEndpoint.port) := by
  obtain ⟨⟨ports, endpoints⟩, hbind, h⟩ := Async.except_bind_eq_ok.mp h
  cases h
  obtain ⟨blocks, used', rfl, rfl, hbinds, hhosts⟩ := binds_bindPorts hbind
  generalize hes : ([] : List AppEndpoint) ++ blocks.flatMap (fun b => b.2.map BoundPort.endpoint) =
    endpoints
  have hports : endpoints.map AppEndpoint.port = blocks.flatMap fun b => b.2.map BoundPort.port := by
    rw [← hes, List.nil_append, List.map_flatMap]
    simp only [List.map_map]
    rfl
  refine ⟨used', ?_, ?_⟩
  · show Binds _ _ _ (endpoints.map AppEndpoint.port) _
    rw [hports]
    exact hbinds
  · show List.Subperm (publishedHosts _) (endpoints.map AppEndpoint.port)
    rw [hports, ← hhosts]
    refine (subperm_assign _ _).trans (List.Perm.subperm ?_)
    rw [List.flatMap_map]
    simp only [List.map_map, publishedHosts, Record.entries_empty, List.flatMap_nil, List.nil_append]
    exact List.Perm.refl _

/-- A kept port is one that the previous install recorded. -/
theorem mem_own_of_kept {e : String × AppPortPlan} {port : ℤ} (h : keptFor ctx e = some port) :
    port ∈ ctx.own.map Prod.snd ∧ (ctx.ingress.isSome = true → port ≠ 80 ∧ port ≠ 443) ∧
      (ctx.coexistence = true → 1024 ≤ port) := by
  unfold keptFor keptPort at h
  cases hget : Table.get Prod.fst (portKey e.1 e.2.container) ctx.own with
  | none =>
      rw [hget] at h
      cases h
  | some row =>
      rw [hget] at h
      dsimp only at h
      split_ifs at h with hingress hlow
      cases h
      refine ⟨List.mem_map_of_mem (Table.mem_of_get hget), fun hsome => ?_, fun hco => ?_⟩
      · exact ⟨fun h80 => hingress ⟨hsome, .inl h80⟩, fun h443 => hingress ⟨hsome, .inr h443⟩⟩
      · by_contra hlt
        exact hlow ⟨hco, by omega⟩

/-- No host port is bound twice or taken from another install, and those that are not kept are free;
none is one that the ingress or k3s needs. -/
structure PortsClean (plan : AppPlan) (ctx : BindCtx) (listening others : List ℤ) (hp : HostDeployPlan) :
    Prop where
  distinct : (hp.endpoints.map AppEndpoint.port).Nodup
  published : (publishedHosts hp.ports).Nodup
  apart : ∀ p ∈ hp.endpoints.map AppEndpoint.port, p ∉ others
  free : List.Forall₂ (fun e port => keptFor ctx e = none → port ∉ listening)
    (exposedPorts plan.components) (hp.endpoints.map AppEndpoint.port)
  ingress : ctx.ingress.isSome = true → ∀ p ∈ hp.endpoints.map AppEndpoint.port, p ≠ 80 ∧ p ≠ 443
  coexistence : ctx.coexistence = true → ∀ p ∈ hp.endpoints.map AppEndpoint.port, 1024 ≤ p

/-- The kept ports are pairwise distinct, and none is recorded for another install. -/
def KeptApart (plan : AppPlan) (ctx : BindCtx) (others : List ℤ) : Prop :=
  (keptPorts ctx plan.components).Nodup ∧ ∀ p ∈ keptPorts ctx plan.components, p ∉ others

/-- What another install records is used. -/
def othersOf (reservations : Option PortReservations) : List ℤ :=
  (reservations.map PortReservations.others).getD []

/-- A plan is bound cleanly exactly when its kept ports are apart. -/
theorem portsClean_iff
    (h : planHostDeploy plan facts hostAddress ingress publish reservations = .ok (plan', hp)) :
    PortsClean plan (bindCtx facts hostAddress ingress publish reservations) facts.listeningPorts
        (othersOf reservations) hp ↔
      KeptApart plan (bindCtx facts hostAddress ingress publish reservations)
        (othersOf reservations) := by
  obtain ⟨used', ⟨hplaced, new, hnew, hperm⟩, hsub⟩ := planHostDeploy_ports h
  change (hp.endpoints.map AppEndpoint.port).Perm (keptPorts _ plan.components ++ new) at hperm
  generalize hctx : bindCtx facts hostAddress ingress publish reservations = ctx at *
  have hown : ctx.own = ownOf reservations := by rw [← hctx]; rfl
  have hused : ∀ p, p ∈ usedPorts facts ingress reservations (ownOf reservations) ↔
      ingress.isSome = true ∧ (p = 80 ∨ p = 443) ∨ p ∈ ctx.own.map Prod.snd ∨
        p ∈ othersOf reservations ∨ p ∈ facts.listeningPorts := by
    intro p
    rw [hown]
    unfold usedPorts othersOf
    cases ingress <;> simp [or_assoc]
  have hingress : ctx.ingress = ingress := by rw [← hctx]; rfl
  have hkept : ∀ p ∈ keptPorts ctx plan.components, p ∈ ctx.own.map Prod.snd ∧
      (ctx.ingress.isSome = true → p ≠ 80 ∧ p ≠ 443) ∧ (ctx.coexistence = true → 1024 ≤ p) := by
    intro p hp
    obtain ⟨e, -, he⟩ := List.mem_filterMap.mp hp
    exact mem_own_of_kept he
  -- Every bound port is kept or was handed out.
  have hcases : ∀ p ∈ hp.endpoints.map AppEndpoint.port,
      p ∈ keptPorts ctx plan.components ∨ p ∈ new := fun p hp =>
    List.mem_append.mp (hperm.mem_iff.mp hp)
  constructor
  · intro hclean
    have hnodup := hperm.nodup_iff.mp hclean.distinct
    exact ⟨(List.nodup_append.mp hnodup).1, fun p hp =>
      hclean.apart p (hperm.mem_iff.mpr (List.mem_append_left _ hp))⟩
  · rintro ⟨hnodup, hothers⟩
    have hdistinct : (hp.endpoints.map AppEndpoint.port).Nodup := by
      refine hperm.nodup_iff.mpr (List.nodup_append.mpr ⟨hnodup, hnew.nodup, ?_⟩)
      rintro p hp q hq rfl
      exact hnew.unused p hq ((hused p).mpr (.inr (.inl (hkept p hp).1)))
    refine ⟨hdistinct, ?_, ?_, ?_, ?_, ?_⟩
    · obtain ⟨l, hl, hsublist⟩ := hsub
      exact hl.nodup_iff.mp (hsublist.nodup hdistinct)
    · intro p hp
      rcases hcases p hp with hk | hn
      · exact hothers p hk
      · exact fun hmem => hnew.unused p hn ((hused p).mpr (.inr (.inr (.inl hmem))))
    · refine hplaced.imp fun e port hport hnone => ?_
      rcases hport with hsome | ⟨-, hfree⟩
      · cases hnone.symm.trans hsome
      · exact fun hmem => hfree ((hused port).mpr (.inr (.inr (.inr hmem))))
    · intro hsome p hp
      rcases hcases p hp with hk | hn
      · exact (hkept p hk).2.1 hsome
      · rw [hingress] at hsome
        have hfree := hnew.unused p hn
        exact ⟨fun h80 => hfree ((hused p).mpr (.inl ⟨hsome, .inl h80⟩)),
          fun h443 => hfree ((hused p).mpr (.inl ⟨hsome, .inr h443⟩))⟩
    · intro hco p hp
      rcases hcases p hp with hk | hn
      · exact (hkept p hk).2.2 hco
      · exact hnew.high hco p hn

end Deploy

/-! ## The ledger -/

/-- What holds of a ledger: one row for each app, and no endpoint shares its host port with one of another
app; what the components publish is at an endpoint. -/
structure LedgerSound (ledger : Ledger) : Prop where
  keyed : Table.Keyed AppInstallV1.name ledger
  deployed : ∀ i ∈ ledger, i.status = .deployed
  recorded : ∀ i ∈ ledger, ∀ c ∈ i.components, ∀ p ∈ c.published,
    p.host ∈ i.endpoints.map AppEndpoint.port
  apart : ∀ i ∈ ledger, ∀ j ∈ ledger, i.name ≠ j.name →
    ∀ port ∈ i.endpoints.map AppEndpoint.port, port ∉ j.endpoints.map AppEndpoint.port

/-- An entry of a record was there or was set. -/
theorem mem_assign {β : Type} {r : Record β} {entries : List (String × β)} {e : String × β}
    (h : e ∈ (r.assign entries).entries) : e ∈ r.entries ∨ e ∈ entries := by
  induction entries generalizing r with
  | nil => exact .inl h
  | cons e' entries ih =>
      rcases ih h with h | h
      · exact (Table.mem_upsert h).elim (fun heq => .inr (heq ▸ List.mem_cons_self)) .inl
      · exact .inr (List.mem_cons_of_mem _ h)

/-- What a record answers is in one of its entries. -/
theorem mem_of_get? {β : Type} {r : Record (List β)} {key : String} {x : β}
    (h : x ∈ (r.get? key).getD []) : ∃ e ∈ r.entries, x ∈ e.2 := by
  unfold Record.get? at h
  cases hget : Table.get Prod.fst key r.entries with
  | none =>
      rw [hget] at h
      cases h
  | some e =>
      rw [hget] at h
      exact ⟨e, Table.mem_of_get hget, h⟩

/-- The ports an app owns are those its row records. -/
theorem own_of_ledger {ledger : Ledger} {name : String} {port : ℤ}
    (h : port ∈ (ownOf (some (portReservations ledger name))).map Prod.snd) :
    ∃ i, getInstall ledger name = some i ∧
      ∃ c ∈ i.components, ∃ p ∈ c.published, p.host = port := by
  obtain ⟨⟨key, port⟩, hmem, rfl⟩ := List.mem_map.mp h
  have hmem := (mem_assign hmem).resolve_left List.not_mem_nil
  obtain ⟨e, he, hp⟩ := List.mem_flatMap.mp hmem
  obtain ⟨p, hp, heq⟩ := List.mem_map.mp hp
  have he := (mem_assign he).resolve_left List.not_mem_nil
  cases hi : getInstall ledger name with
  | none =>
      rw [hi] at he
      cases he
  | some i =>
      rw [hi] at he
      obtain ⟨c, hc, rfl⟩ := List.mem_map.mp he
      exact ⟨i, rfl, c, hc, p, hp, (Prod.ext_iff.mp heq).2⟩

/-- The rows of the other apps are in the reservations. -/
theorem others_of_ledger {ledger : Ledger} (h : LedgerSound ledger) {name : String} {i : AppInstallV1}
    (hi : i ∈ ledger) (hname : i.name ≠ name) {port : ℤ}
    (hport : port ∈ i.endpoints.map AppEndpoint.port) :
    port ∈ othersOf (some (portReservations ledger name)) := by
  refine List.mem_flatMap.mpr ⟨i, List.mem_filter.mpr ⟨hi, ?_⟩, hport⟩
  rw [h.deployed i hi]
  simpa using hname

/-- A deploy keeps what holds of the ledger. -/
theorem LedgerSound.deploy {ledger : Ledger} (h : LedgerSound ledger) {facts : HostFacts}
    {hostAddress : String} {ingress : Option IngressBinding} {publish : PublishIntent}
    (hplan : planHostDeploy plan facts hostAddress ingress publish
      (some (portReservations ledger plan.name)) = .ok (plan', hp)) :
    LedgerSound (Table.upsert AppInstallV1.name (toInstall plan' hp) ledger) := by
  obtain ⟨used', ⟨-, new, hnew, hperm⟩, hsub⟩ := planHostDeploy_ports hplan
  have hname : plan'.name = plan.name := by
    obtain ⟨_, -, h⟩ := Async.except_bind_eq_ok.mp hplan
    cases h
    rfl
  -- The ports of the plan are not those of another app.
  have hnew : ∀ i ∈ ledger, i.name ≠ plan.name → ∀ port ∈ hp.endpoints.map AppEndpoint.port,
      port ∉ i.endpoints.map AppEndpoint.port := by
    intro i hi hne port hport hi'
    rcases List.mem_append.mp (hperm.mem_iff.mp hport) with hkept | hn
    · -- A kept port is one of the app's own row.
      obtain ⟨e, -, he⟩ := List.mem_filterMap.mp hkept
      obtain ⟨own, hown, c, hc, p, hp, rfl⟩ := own_of_ledger (mem_own_of_kept he).1
      have hkey : own.name = plan.name := Table.key_of_get hown
      have hmem : own ∈ ledger := Table.mem_of_get hown
      exact h.apart own hmem i hi (by rw [hkey]; exact Ne.symm hne) p.host
        (h.recorded own hmem c hc p hp) hi'
    · have hothers := others_of_ledger h hi hne hi'
      exact hnew.unused port hn (List.mem_append_left _ (List.mem_append_right _ hothers))
  refine ⟨h.keyed.upsert, ?_, ?_, ?_⟩
  · intro i hi
    exact (Table.mem_upsert hi).elim (fun heq => heq ▸ rfl) (h.deployed i)
  · intro i hi
    rcases Table.mem_upsert hi with rfl | hold
    · intro c hc p hmem
      obtain ⟨comp, -, rfl⟩ := List.mem_map.mp hc
      refine hsub.subset ?_
      obtain ⟨e, he, hpe⟩ := mem_of_get? hmem
      exact List.mem_flatMap.mpr ⟨e, he, List.mem_map_of_mem hpe⟩
    · exact h.recorded i hold
  · intro i hi j hj hne port hport hport'
    rcases Table.mem_upsert hi with rfl | hi
    · rcases Table.mem_upsert hj with rfl | hj
      · exact hne rfl
      · exact hnew j hj (fun heq => hne (hname.trans heq.symm)) port hport hport'
    · rcases Table.mem_upsert hj with rfl | hj
      · exact hnew i hi (fun heq => hne (heq.trans hname.symm)) port hport' hport
      · exact h.apart i hi j hj hne port hport hport'

/-- Every step keeps what holds of the ledger. -/
theorem LedgerSound.step {ledger : Ledger} (h : LedgerSound ledger) (step : LedgerStep) :
    LedgerSound (step.run ledger) := by
  cases step with
  | deploy plan facts hostAddress ingress publish =>
      unfold LedgerStep.run
      dsimp only
      cases hplan : planHostDeploy plan facts hostAddress ingress publish
          (some (portReservations ledger plan.name)) with
      | error _ => exact h
      | ok r => exact h.deploy hplan
  | remove name =>
      have hmem : ∀ i ∈ LedgerStep.run ledger (.remove name), i ∈ ledger := fun i hi =>
        (List.mem_filter.mp hi).1
      exact ⟨h.keyed.sublist ((List.filter_sublist).map _), fun i hi => h.deployed i (hmem i hi),
        fun i hi => h.recorded i (hmem i hi),
        fun i hi j hj => h.apart i (hmem i hi) j (hmem j hj)⟩

theorem ledgerSound_runLedger (steps : List LedgerStep) : LedgerSound (runLedger steps) := by
  have hstart : LedgerSound [] := ⟨List.nodup_nil, by simp, by simp, by simp⟩
  have hrun : ∀ ledger, LedgerSound ledger → LedgerSound (steps.foldl LedgerStep.run ledger) := by
    induction steps with
    | nil => exact fun _ h => h
    | cons step steps ih => exact fun ledger h => ih _ (h.step step)
  exact hrun [] hstart

/-- A row records no host port but those of its endpoints. -/
theorem LedgerSound.mem_hostPorts {ledger : Ledger} (h : LedgerSound ledger) {i : AppInstallV1}
    (hi : i ∈ ledger) {port : ℤ} (hport : port ∈ i.hostPorts) :
    port ∈ i.endpoints.map AppEndpoint.port := by
  rcases List.mem_append.mp hport with hendpoint | hpublished
  · exact hendpoint
  · obtain ⟨c, hc, hmem⟩ := List.mem_flatMap.mp hpublished
    obtain ⟨p, hp, rfl⟩ := List.mem_map.mp hmem
    exact h.recorded i hi c hc p hp

/-- The host ports of a plan are bound cleanly exactly when those it keeps are pairwise distinct and not
recorded for others; after any deploys and removals, no two installs record the same host port. -/
theorem host_ports (steps : List LedgerStep) :
    (∀ (plan : AppPlan) (facts : HostFacts) (hostAddress : String) (ingress : Option IngressBinding)
      (publish : PublishIntent) (reservations : Option PortReservations) (plan' : AppPlan)
      (hp : HostDeployPlan),
      planHostDeploy plan facts hostAddress ingress publish reservations = .ok (plan', hp) →
      (PortsClean plan (bindCtx facts hostAddress ingress publish reservations) facts.listeningPorts
          (othersOf reservations) hp ↔
        KeptApart plan (bindCtx facts hostAddress ingress publish reservations)
          (othersOf reservations))) ∧
    Table.Keyed AppInstallV1.name (runLedger steps) ∧
      ∀ i ∈ runLedger steps, ∀ j ∈ runLedger steps, i.name ≠ j.name →
        ∀ port ∈ i.hostPorts, port ∉ j.hostPorts := by
  refine ⟨fun _ _ _ _ _ _ _ _ h => portsClean_iff h, ?_⟩
  have h := ledgerSound_runLedger steps
  exact ⟨h.keyed, fun i hi j hj hne port hport hport' =>
    h.apart i hi j hj hne port (h.mem_hostPorts hi hport) (h.mem_hostPorts hj hport')⟩

/-! ## Two ports with one container port -/

/-- A component that exposes one container port twice. -/
def doubledComponent : AppComponentPlan where
  name := "app"
  container := "vops-wiki-app"
  image := "docker.io/wiki:1"
  env := []
  secrets := []
  ports := [⟨8080, true, .http⟩, ⟨8080, true, .tcp⟩]
  volumes := []
  cpu := none
  memory := none
  health := none
  dependsOn := []
  command := none

/-- An app of that component. -/
def doubledPlan : AppPlan := ⟨"wiki", none, [doubledComponent], "app", false, []⟩

/-- A host with nothing on it but SSH. -/
def bareFacts : HostFacts := ⟨false, false, [22]⟩

/-- The first deploy of the app, and what the ledger then holds for it. -/
def doubledLedger : Ledger := runLedger [.deploy doubledPlan bareFacts "203.0.113.5" none .loopback]

/-- The host ports of a deploy. -/
def plannedPorts (r : Except String (AppPlan × HostDeployPlan)) : List ℤ :=
  match r with
  | .ok (_, hp) => hp.endpoints.map AppEndpoint.port
  | .error _ => []

/-- The app is deployed again. -/
def doubledAgain : Except String (AppPlan × HostDeployPlan) :=
  planHostDeploy doubledPlan bareFacts "203.0.113.5" none .loopback
    (some (portReservations doubledLedger "wiki"))

/-- The first deploy takes two ports. -/
theorem doubled_first : ∃ plan' hp,
    planHostDeploy doubledPlan bareFacts "203.0.113.5" none .loopback none = .ok (plan', hp) ∧
      PortsClean doubledPlan (bindCtx bareFacts "203.0.113.5" none .loopback none) [22] [] hp := by
  have hports : plannedPorts (planHostDeploy doubledPlan bareFacts "203.0.113.5" none .loopback none) =
      [8080, 20000] := by decide +kernel
  cases h : planHostDeploy doubledPlan bareFacts "203.0.113.5" none .loopback none with
  | error message =>
      rw [h] at hports
      cases hports
  | ok r =>
      have hkept : keptPorts (bindCtx bareFacts "203.0.113.5" none .loopback none)
          doubledPlan.components = [] := by decide +kernel
      refine ⟨r.1, r.2, rfl, ((host_ports []).1 _ _ _ _ _ _ _ _ h).mpr ⟨?_, ?_⟩⟩
      · rw [hkept]
        exact List.nodup_nil
      · simp [hkept]

/-- The second deploy keeps one of them, for both. -/
theorem doubledLedger_ports : doubledLedger.map AppInstallV1.hostPorts = [[8080, 20000, 8080, 20000]] ∧
    plannedPorts doubledAgain = [20000, 20000] := by
  decide +kernel

/-- The second deploy binds one host port twice. -/
theorem doubled_again : ∃ plan' hp, doubledAgain = .ok (plan', hp) ∧
    ¬PortsClean doubledPlan (bindCtx bareFacts "203.0.113.5" none .loopback
      (some (portReservations doubledLedger "wiki"))) [22] [] hp := by
  have hports := doubledLedger_ports.2
  cases h : doubledAgain with
  | error message =>
      rw [h] at hports
      cases hports
  | ok r =>
      rw [h] at hports
      refine ⟨r.1, r.2, rfl, fun hclean => ?_⟩
      have hdistinct := hclean.distinct
      have heq : r.2.endpoints.map AppEndpoint.port = [20000, 20000] := hports
      rw [heq] at hdistinct
      exact absurd hdistinct (by decide)

end Vops.Apps
