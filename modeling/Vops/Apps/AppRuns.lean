import Vops.Apps.AppsWorld
import Vops.Apps.GateThms

/-!
# What the programs of the apps service ask for

* `Plain` — the operations that write neither the ledger nor a zone, and send no script that changes an
  app; `LedgerQuiet`, `DnsQuiet` — those that do not write the ledger, or a zone.
* `plain_*`, `ledgerQuiet_*`, `dnsQuiet_*` — the programs that ask for nothing else.
* `resolveInstall_spec`, `showHost_spec` — what is read.
-/

namespace Vops.Apps

open Async (AllOps Safe Surroundings Trace given traced)
open AppProg VopsIngress VopsApps

/-! ## Operations -/

/-- The script changes the units of an app. -/
def RemoteScript.ChangesApp : RemoteScript → Prop
  | deploy _ | rollback _ | remove _ => True
  | _ => False

/-- The operation does not write the ledger. -/
def LedgerQuiet : AppOp → Prop
  | .saveInstall _ | .deleteInstall _ _ => False
  | _ => True

/-- The operation does not write a zone. -/
def DnsQuiet : AppOp → Prop
  | .createRecord _ _ _ _ | .deleteRecord _ _ _ => False
  | _ => True

/-- The operation writes neither, and sends no script that changes an app. -/
def Plain : AppOp → Prop
  | .saveInstall _ | .deleteInstall _ _ | .createRecord _ _ _ _ | .deleteRecord _ _ _ => False
  | .runScript _ script => ¬script.ChangesApp
  | _ => True

theorem Plain.ledgerQuiet {o : AppOp} (h : Plain o) : LedgerQuiet o := by
  cases o <;> first | exact trivial | exact h

theorem Plain.dnsQuiet {o : AppOp} (h : Plain o) : DnsQuiet o := by
  cases o <;> first | exact trivial | exact h

/-! ## The state -/

section State

variable {s s' : AppsWorld} {o : AppOp} {x : o.Answer}

/-- An operation that writes nothing leaves the state as it is. -/
theorem eq_of_quiet (h : LedgerQuiet o) (h' : DnsQuiet o) (hx : surroundings o s x s') : s' = s := by
  cases o with
  | getHost | getInstall | findInstalls | listInstalls | listZones | listRecords => exact hx.2
  | saveInstall | deleteInstall => exact h.elim
  | createRecord | deleteRecord => exact h'.elim
  | readOnly | assertReady | resolveSshTarget | runScript | noRollback | acmeEmail | appendAudit
  | probeHttp | resolvesAuthoritative | probeHttps | sleep => exact hx

theorem eq_of_plain (h : Plain o) (hx : surroundings o s x s') : s' = s :=
  eq_of_quiet h.ledgerQuiet h.dnsQuiet hx

/-- What a provider answers to a record that is to be created. -/
theorem created_cases {provider zoneId name value : String} {x : Except String DnsRecordLike}
    (hx : surroundings (.createRecord provider zoneId name value) s x s') :
    s' = s ∨ ∃ r, s.fresh provider zoneId r.recordId ∧ s' = s.addRecord provider zoneId r := by
  cases x with
  | ok r => exact .inr ⟨r, hx.1, hx.2⟩
  | error e => exact hx

theorem Written.cases {x : Except String Unit} {after : AppsWorld} (h : Written x s after s') :
    s' = after ∨ s' = s := h.imp_right And.right

theorem Written.of_ok {after : AppsWorld} (h : Written (.ok ()) s after s') : s' = after := by
  rcases h with h | ⟨⟨e, he⟩, -⟩
  · exact h
  · cases he

/-- The ledger is only written by its operations. -/
theorem rows_eq (h : LedgerQuiet o) (hx : surroundings o s x s') : s'.rows = s.rows := by
  by_cases hdns : DnsQuiet o
  · rw [eq_of_quiet h hdns hx]
  · cases o with
    | createRecord =>
        rcases created_cases hx with rfl | ⟨r, -, rfl⟩ <;> rfl
    | deleteRecord =>
        rcases Written.cases hx with rfl | rfl <;> rfl
    | _ => exact absurd trivial hdns

/-- The row of an app is only changed by a write of it. -/
theorem row_cases (key : String × String) (hx : surroundings o s x s') :
    s'.row key = s.row key ∨ (∃ row, o = .saveInstall row ∧ row.key = key ∧ s'.row key = some row) ∨
      o = .deleteInstall key.1 key.2 ∧ s'.row key = none := by
  by_cases h : LedgerQuiet o
  · left
    unfold AppsWorld.row
    rw [rows_eq h hx]
  · cases o with
    | saveInstall row =>
        rcases Written.cases hx with rfl | rfl
        · rw [AppsWorld.row_save]
          by_cases hkey : row.key = key
          · exact .inr (.inl ⟨row, rfl, hkey, if_pos hkey⟩)
          · exact .inl (if_neg hkey)
        · exact .inl rfl
    | deleteInstall host name =>
        rcases Written.cases hx with rfl | rfl
        · rw [AppsWorld.row_drop]
          by_cases hkey : (host, name) = key
          · subst hkey
            exact .inr (.inr ⟨rfl, if_pos rfl⟩)
          · exact .inl (if_neg hkey)
        · exact .inl rfl
    | _ => exact absurd trivial h

end State

/-! ## What the programs ask for -/

theorem allOps_lift {α : Type} {P : AppOp → Prop} (x : Except String α) : AllOps P (lift x) := by
  cases x <;> trivial

theorem allOps_require {P : AppOp → Prop} (condition : Bool) (message : String) :
    AllOps P (require condition message) := by
  cases condition <;> trivial

theorem plain_showHost (name : String) : AllOps Plain (showHost name) := by
  refine .perform_bind trivial fun host => ?_
  cases host <;> trivial

theorem plain_assertHostWritable (host : DeployHost) : AllOps Plain (assertHostWritable host) :=
  .perform_bind trivial fun _ => allOps_require _ _

theorem plain_assertReady (name : String) : AllOps Plain (assertReady name) :=
  .perform_bind trivial fun _ => allOps_lift _

theorem plain_resolveSshTarget (host : DeployHost) : AllOps Plain (resolveSshTarget host) :=
  .perform_bind trivial fun _ => allOps_lift _

theorem plain_appendAudit (event : String) : AllOps Plain (appendAudit event) :=
  .perform_bind trivial fun _ => allOps_lift _

theorem plain_findZone (fqdn : String) (providers : List String) : AllOps Plain (findZone fqdn providers) := by
  induction providers with
  | nil => trivial
  | cons provider providers ih =>
      refine .perform_bind trivial fun zones => ?_
      cases zones with
      | error e => exact ih
      | ok zones =>
          dsimp only
          cases pickZone zones fqdn with
          | none => exact ih
          | some zone => trivial

theorem plain_planIn (m : DnsZoneMatch) (fqdn ip : String) : AllOps Plain (planIn m fqdn ip) :=
  .perform_bind trivial fun _ => .bind (allOps_lift _) fun _ => trivial

theorem plain_previewARecord (env : AppEnv) (fqdn ip : String) :
    AllOps Plain (previewARecord env fqdn ip) := by
  refine .bind (plain_findZone _ _) fun m => ?_
  cases m with
  | none => trivial
  | some m => exact .bind (plain_planIn _ _ _) fun _ => trivial

theorem plain_preflightDns (env : AppEnv) (host : DeployHost) (hostname : String) (force report : Bool) :
    AllOps Plain (preflightDns env host hostname force report) := by
  unfold preflightDns
  split
  · trivial
  · refine .bind (plain_previewARecord _ _ _) fun plan => ?_
    cases plan with
    | none => trivial
    | some plan =>
        cases plan with
        | create | reuse => trivial
        | conflict => cases force <;> cases report <;> trivial

theorem plain_proxyFor (host : DeployHost) : AllOps Plain (proxyFor host) :=
  .bind (.perform_bind not_false fun _ => trivial) fun _ => trivial

theorem plain_status (hostName : String) : AllOps Plain (VopsIngress.status hostName) :=
  .bind (plain_showHost _) fun _ => .bind (plain_resolveSshTarget _) fun _ =>
    .bind (plain_proxyFor _) fun _ => .perform_bind not_false fun _ => trivial

theorem plain_up (hostName : String) (email : Option String) (proxy : Option ProxyKind) :
    AllOps Plain (up hostName email proxy) := by
  refine .bind (plain_showHost _) fun host => .bind (plain_assertHostWritable _) fun _ =>
    .bind (plain_assertReady _) fun _ => .bind (plain_resolveSshTarget _) fun _ =>
    .perform_bind trivial fun acme => .bind (allOps_require _ _) fun _ => ?_
  refine .perform_bind not_false fun pre => .bind (allOps_require _ _) fun _ =>
    .bind (allOps_lift _) fun _ => .bind (.perform_bind not_false fun _ => trivial) fun existing => ?_
  exact .perform_bind not_false fun out => .bind (allOps_require _ _) fun _ => plain_appendAudit _

theorem plain_ensureIngressUp (host : DeployHost) (email : Option String) :
    AllOps Plain (ensureIngressUp host email) := by
  refine .bind (plain_status _) fun st => ?_
  split
  · trivial
  · exact plain_up _ _ _

theorem plain_poll {α : Type} {probe : AppProg α} (hprobe : AllOps Plain probe) (isDone : α → Bool)
    (sleepsMs : List ℕ) : AllOps Plain (poll probe isDone sleepsMs) := by
  induction sleepsMs with
  | nil => exact hprobe
  | cons ms sleepsMs ih =>
      refine .bind hprobe fun last => ?_
      split
      · trivial
      · exact .perform_bind trivial fun _ => ih

theorem plain_waitReachable (hostname ip : String) (origin : DnsOrigin) (zoneHint : Option String) :
    AllOps Plain (waitReachable hostname ip origin zoneHint) := by
  refine .bind (plain_poll ?_ _ _) fun _ => .bind (plain_poll ?_ _ _) fun _ => trivial
  · exact .of_perform trivial
  · exact .of_perform trivial

theorem plain_certRound (host : DeployHost) (proxy : ProxyKind) (hostname : String) (i : ℕ) :
    AllOps Plain (certRound host proxy hostname i) := by
  refine .perform_bind trivial fun (served : Bool) => ?_
  split
  · trivial
  · split
    · refine .perform_bind not_false fun cp => .bind ?_ fun again => trivial
      unfold servedAgain
      split
      · exact .of_perform trivial
      · trivial
    · trivial

theorem plain_pollCert (host : DeployHost) (proxy : ProxyKind) (hostname : String) (rounds : List ℕ) :
    AllOps Plain (pollCert host proxy hostname rounds) := by
  induction rounds with
  | nil => trivial
  | cons i rounds ih =>
      refine .bind (plain_certRound _ _ _ _) fun result => ?_
      cases result with
      | some result => trivial
      | none => exact .perform_bind trivial fun _ => ih

theorem plain_writeRoute (host : DeployHost) (proxy : ProxyKind) (route : RouteWrite) :
    AllOps Plain (writeRoute host proxy route) :=
  .bind (allOps_lift _) fun _ => .perform_bind not_false fun _ => allOps_require _ _

theorem plain_ensureGateSecret (host : DeployHost) (secret : Option (String × String)) :
    AllOps Plain (ensureGateSecret host secret) := by
  cases secret with
  | none => trivial
  | some secret => exact .perform_bind not_false fun _ => allOps_require _ _

theorem plain_attachTls (host : DeployHost) (proxy : ProxyKind) (route : Bool → RouteWrite)
    (base : AppIngressState) (origin : DnsOrigin) : AllOps Plain (attachTls host proxy route base origin) := by
  refine .bind (plain_waitReachable _ _ _ _) fun (dns, http) => ?_
  dsimp only
  split
  · trivial
  · refine .bind (plain_writeRoute _ _ _) fun _ => .bind (plain_pollCert _ _ _ _) fun cert => ?_
    split
    · trivial
    · cases cert.hardError with
      | none => trivial
      | some e => exact .bind (plain_writeRoute _ _ _) fun _ => trivial

theorem plain_attachRoute (host : DeployHost) (row : AppInstall) (r : BindingResolution)
    (gate : Option IngressGate) (dns : Option EnsuredRecord) :
    AllOps Plain (attachRoute host row r gate dns) := by
  refine .bind (plain_resolveSshTarget _) fun _ => .bind (plain_proxyFor _) fun proxy =>
    .bind (allOps_lift _) fun entries => ?_
  dsimp only
  split
  · trivial
  · refine .bind (plain_ensureGateSecret _ _) fun _ => .bind (plain_writeRoute _ _ _) fun _ => ?_
    split
    · exact plain_attachTls _ _ _ _ _
    · trivial

theorem plain_detachRoute (host : DeployHost) (app : String) : AllOps Plain (detachRoute host app) :=
  .bind (plain_resolveSshTarget _) fun _ => .bind (plain_proxyFor _) fun _ =>
    .perform_bind not_false fun _ => trivial

theorem plain_preflight (name : String) : AllOps Plain (preflight name) :=
  .bind (plain_showHost _) fun _ => .bind (plain_resolveSshTarget _) fun _ =>
    .perform_bind not_false fun _ => trivial

theorem plain_checkDns (env : AppEnv) (d : DeployDecision) (opts : DeployOptions) :
    AllOps Plain (checkDns env d opts) := by
  unfold checkDns
  split
  · exact plain_preflightDns _ _ _ _ _
  · trivial

theorem plain_pullImages (host : DeployHost) (images : List String) (registry : Option RegistryLogin) :
    AllOps Plain (pullImages host images registry) :=
  .perform_bind not_false fun _ => .bind (allOps_require _ _) fun _ => allOps_require _ _

theorem plain_provision (d : DeployStart) : AllOps Plain (provision d) := by
  refine .bind ?_ fun _ => plain_pullImages _ _ _
  unfold ensureIngress
  split
  · exact plain_ensureIngressUp _ _
  · trivial

theorem plain_runSmoke (host : DeployHost) (plan : FullAppPlan) (hp : HostDeployPlan) :
    AllOps Plain (runSmoke host plan hp) := by
  unfold runSmoke
  dsimp only
  split
  · trivial
  · trivial
  · split
    · exact .perform_bind not_false fun _ => trivial
    · exact .perform_bind not_false fun _ => trivial

theorem plain_gatherDiag (host : DeployHost) (plan : FullAppPlan) : AllOps Plain (gatherDiag host plan) :=
  .perform_bind not_false fun _ => trivial

theorem plain_existingData (d : DeployStart) : AllOps Plain (existingData d) := by
  unfold existingData
  split
  · trivial
  · exact .perform_bind not_false fun _ => trivial

theorem plain_runPostInstall (env : AppEnv) (host : DeployHost) (plan : FullAppPlan) (hp : HostDeployPlan)
    (fqdn : Option String) : AllOps Plain (runPostInstall env host plan hp fqdn) := by
  unfold runPostInstall
  split
  · trivial
  · exact .perform_bind not_false fun _ => .bind (plain_runSmoke _ _ _) fun _ => trivial

/-! ## Programs that write zones, and not the ledger -/

/-- The operation neither writes the ledger nor deploys. -/
def Calm (o : AppOp) : Prop := LedgerQuiet o ∧ ∀ host script, o ≠ .runScript host (.deploy script)

theorem Plain.calm {o : AppOp} (h : Plain o) : Calm o := by
  refine ⟨h.ledgerQuiet, ?_⟩
  rintro host script rfl
  exact h trivial

theorem calm_carryOut (m : DnsZoneMatch) (fqdn ip : String) (force : Bool) (plan : DnsPlan) :
    AllOps Calm (carryOut m fqdn ip force plan) := by
  have hstale (stale : List DnsRecordLike) : AllOps Calm (deleteStale m stale) := by
    induction stale with
    | nil => trivial
    | cons r stale ih => exact .perform_bind ⟨trivial, nofun⟩ fun _ => .bind (allOps_lift _) fun _ => ih
  have hreplace (stale : List DnsRecordLike) : AllOps Calm (replaceRecord m fqdn ip stale) :=
    .bind (hstale _) fun _ => .perform_bind ⟨trivial, nofun⟩ fun _ => .bind (allOps_lift _) fun _ => trivial
  cases plan with
  | create => exact hreplace _
  | reuse => trivial
  | conflict reason stale occupied =>
      cases force
      · trivial
      · exact hreplace _

theorem calm_ensureRecord (d : DeployStart) : AllOps Calm (ensureRecord d) := by
  unfold ensureRecord
  split
  · unfold ensureDnsRecord
    split
    · trivial
    · refine .bind ((plain_findZone _ _).mono fun _ => Plain.calm) fun m => ?_
      cases m with
      | none => trivial
      | some m =>
          exact .bind ((plain_planIn _ _ _).mono fun _ => Plain.calm) fun plan =>
            .bind (calm_carryOut _ _ _ _ _) fun _ => trivial
  · trivial

theorem calm_deleteARecord (dns : IngressDnsRecord) : AllOps Calm (deleteARecord dns) :=
  .perform_bind ⟨trivial, nofun⟩ fun _ => trivial

theorem calm_discardDnsRecord (dns : Option EnsuredRecord) : AllOps Calm (discardDnsRecord dns) := by
  unfold discardDnsRecord
  split
  · exact calm_deleteARecord _
  · trivial

theorem calm_cleanupForRemoval (host : DeployHost) (row : AppInstall) :
    AllOps Calm (cleanupForRemoval host row) := by
  unfold cleanupForRemoval
  split
  · trivial
  · refine .bind ((plain_detachRoute _ _).mono fun _ => Plain.calm) fun _ => ?_
    unfold deleteRecorded
    split
    · exact calm_deleteARecord _
    · trivial

theorem calm_rollbackDeploy (host : DeployHost) (input : RollbackInput) :
    AllOps Calm (VopsApps.rollbackDeploy host input) :=
  .perform_bind ⟨trivial, nofun⟩ fun _ => trivial

/-! ## The rows that a deploy writes -/

/-- The operation writes no row but those of a deploy that has attached nothing: its own, or the one there
was before. -/
def Unrouted (d : DeployStart) : AppOp → Prop
  | .saveInstall row => row.key = d.row.key ∧ row.ingress = none ∨ d.prev = some row
  | .deleteInstall host name => (host, name) = d.row.key
  | _ => True

theorem LedgerQuiet.unrouted {d : DeployStart} {o : AppOp} (h : LedgerQuiet o) : Unrouted d o := by
  cases o <;> first | exact trivial | exact h.elim

theorem ledgerQuiet_gateOrRollback (host : DeployHost) (input : GateInput)
    (res : ScriptResult (Except String Unit)) : AllOps LedgerQuiet (gateOrRollback host input res) := by
  have hback : AllOps LedgerQuiet (VopsApps.rollbackDeploy host input.toRollbackInput) :=
    (calm_rollbackDeploy _ _).mono fun _ h => h.1
  unfold gateOrRollback
  split
  · exact .bind hback fun _ => trivial
  · refine .bind ((plain_runSmoke _ _ _).mono fun _ => Plain.ledgerQuiet) fun smoke => ?_
    split
    · trivial
    · refine .bind ((plain_gatherDiag _ _).mono fun _ => Plain.ledgerQuiet) fun _ =>
        .perform_bind trivial fun (noRollback : Bool) => ?_
      split
      · trivial
      · exact .bind hback fun _ => trivial

theorem ledgerQuiet_build (d : DeployStart) (preexisting : HostAppData) :
    AllOps LedgerQuiet (build d preexisting) :=
  .bind ((plain_provision d).mono fun _ => Plain.ledgerQuiet) fun _ =>
    .perform_bind trivial fun _ => ledgerQuiet_gateOrRollback _ _ _

theorem ledgerQuiet_mutateHost (d : DeployStart) : AllOps LedgerQuiet (mutateHost d) := by
  refine .bind ((calm_ensureRecord d).mono fun _ h => h.1) fun record =>
    .bind ((plain_existingData d).mono fun _ => Plain.ledgerQuiet) fun _ => .bind ?_ fun _ => trivial
  exact .tryCatch (ledgerQuiet_build _ _) fun _ =>
    .bind ((calm_discardDnsRecord record).mono fun _ h => h.1) fun _ => trivial

theorem unrouted_withLedgerRevert (d : DeployStart) :
    AllOps (Unrouted d) (withLedgerRevert d.row d.prev (mutateHost d)) := by
  refine .tryCatch ((ledgerQuiet_mutateHost d).mono fun _ => LedgerQuiet.unrouted) fun e => ?_
  cases e with
  | leftRunning message => trivial
  | failed message =>
      refine .bind ?_ fun _ => trivial
      cases hprev : d.prev with
      | none => exact .perform_bind rfl fun _ => allOps_lift _
      | some prev => exact .perform_bind (.inr hprev) fun _ => allOps_lift _

/-! ## What is recorded of a route -/

/-- What `attachRoute` records. -/
structure Attached (components : List InstallComponent) (r : BindingResolution)
    (gate : Option IngressGate) (dns : Option EnsuredRecord) (state : AppIngressState) : Prop where
  hostname : state.hostname = r.hostname
  exposeDirect : state.exposeDirect = r.exposeDirect
  dns : state.dns = dns.map EnsuredRecord.record
  auth : state.auth = gate.map IngressGate.state
  ports : ∃ entries, r.routes.mapM (resolveRoute components) = .ok entries ∧
    ∀ port, port ∈ ingressHostPorts (some state) ↔ port ∈ entries.map RouteEntry.hostPort

theorem yields_lift {α : Type} (x : Except String α) : Async.Yields (fun a => x = .ok a) (lift x) := by
  cases x with
  | ok a => rfl
  | error e => trivial

/-- The TLS half only decides whether the route is served over TLS. -/
theorem yields_attachTls (host : DeployHost) (proxy : ProxyKind) (route : Bool → RouteWrite)
    (base : AppIngressState) (origin : DnsOrigin) :
    Async.Yields (fun a => ∃ tls, a.state = { base with tls := tls })
      (attachTls host proxy route base origin) := by
  refine .bind (.any _) fun (dns, http) _ => ?_
  dsimp only
  split
  · exact ⟨_, rfl⟩
  · refine .bind (.any _) fun _ _ => .bind (.any _) fun cert _ => ?_
    split
    · exact ⟨_, rfl⟩
    · cases cert.hardError with
      | none => exact ⟨_, rfl⟩
      | some e => exact .bind (.any _) fun _ _ => ⟨_, rfl⟩

theorem map_hostPort_zipWith {routes : List RoutePort} {entries : List RouteEntry}
    (hlength : entries.length = routes.length) :
    (routes.zipWith ingressRoute entries).map AppIngressRoute.hostPort =
      entries.map RouteEntry.hostPort := by
  induction entries generalizing routes with
  | nil => rw [List.zipWith_nil_right, List.map_nil, List.map_nil]
  | cons e entries ih =>
      cases routes with
      | nil => cases hlength
      | cons r routes => exact congrArg (e.hostPort :: ·) (ih (Nat.succ.inj hlength))

theorem rootRoute_mem {routes : List AppIngressRoute} {root : AppIngressRoute}
    (h : rootRoute routes = some root) : root ∈ routes := by
  unfold rootRoute at h
  cases hfind : routes.find? fun r => r.path == "/" with
  | some r =>
      rw [hfind] at h
      cases h
      exact List.mem_of_find?_eq_some hfind
  | none =>
      rw [hfind] at h
      exact List.mem_of_mem_head? h

/-- The ports that are recorded are those of the routes. -/
theorem mem_ingressHostPorts {state : AppIngressState} {root : AppIngressRoute}
    {routes : List AppIngressRoute} (hroot : root ∈ routes) (hport : state.hostPort = root.hostPort)
    (hroutes : state.routes = routes.filter (· ≠ root)) (port : ℤ) :
    port ∈ ingressHostPorts (some state) ↔ port ∈ routes.map AppIngressRoute.hostPort := by
  simp only [ingressHostPorts, hport, hroutes, List.mem_cons, List.mem_map, List.mem_filter]
  constructor
  · rintro (rfl | ⟨x, ⟨hx, -⟩, rfl⟩)
    · exact ⟨root, hroot, rfl⟩
    · exact ⟨x, hx, rfl⟩
  · rintro ⟨x, hx, rfl⟩
    by_cases h : x = root
    · exact .inl (congrArg _ h)
    · exact .inr ⟨x, ⟨hx, by simpa using h⟩, rfl⟩

theorem yields_attachRoute (host : DeployHost) (row : AppInstall) (r : BindingResolution)
    (gate : Option IngressGate) (dns : Option EnsuredRecord) :
    Async.Yields (fun a => Attached row.components r gate dns a.state)
      (attachRoute host row r gate dns) := by
  refine .bind (.any _) fun _ _ => .bind (.any _) fun proxy _ =>
    .bind (yields_lift _) fun entries hentries => ?_
  dsimp only
  split
  · trivial
  · next root hroot =>
      have hbase (tls : Bool) : Attached row.components r gate dns
          { ingressState proxy row.name r root (r.routes.zipWith ingressRoute entries) gate dns with
            tls := tls } := by
        refine ⟨rfl, rfl, rfl, rfl, entries, hentries, fun port => ?_⟩
        rw [mem_ingressHostPorts (rootRoute_mem hroot) rfl rfl,
          map_hostPort_zipWith (Async.except_mapM_eq_ok.mp hentries).length_eq.symm]
      refine .bind (.any _) fun _ _ => .bind (.any _) fun _ _ => ?_
      split
      · refine .mono (yields_attachTls _ _ _ _ _) fun a ⟨tls, ha⟩ => ?_
        rw [ha]
        exact hbase tls
      · exact hbase false

/-! ## The row of a decision -/

section Decision

variable (d : DeployDecision)

@[simp] theorem install_name : d.install.name = d.bound.name := by
  unfold DeployDecision.install
  cases d.gate <;> rfl

@[simp] theorem install_units : d.install.units = d.hp.units := by
  unfold DeployDecision.install
  cases d.gate <;> rfl

@[simp] theorem install_host : d.install.host = d.host.name := rfl

@[simp] theorem install_ingress : d.install.ingress = none := rfl

@[simp] theorem install_publish : d.install.publish = some d.publish := rfl

end Decision

section Decided

variable {crypt : Crypt} {plan : FullAppPlan} {facts : HostFacts} {host : DeployHost} {opts : DeployOptions}
  {prev : Option AppInstall} {reservations : PortReservations} {d : DeployDecision}

theorem Decided.bound_spec (h : Decided crypt plan facts host opts prev reservations d) :
    d.bound.name = plan.name ∧ d.hp.unitDir = appUnitDir d.bound.name := by
  obtain ⟨p, hp, hplan, -⟩ := h.prepared
  obtain ⟨u, -, hp⟩ := Async.except_bind_eq_ok.mp hp
  cases hp
  have hname : d.plan.name = plan.name := by rw [hplan]; rfl
  have hbound := h.bound
  obtain ⟨⟨ports, endpoints⟩, -, hbound⟩ := Async.except_bind_eq_ok.mp hbound
  injection hbound with hbound
  injection hbound with hb hhp
  refine ⟨?_, ?_⟩
  · rw [← hb]
    exact hname
  · rw [← hhp, ← hb]

/-- The row of a decision is that of the app on the host. -/
theorem Decided.key_eq (h : Decided crypt plan facts host opts prev reservations d) :
    d.install.key = (host.name, plan.name) := by
  refine Prod.ext ?_ ?_
  · exact congrArg DeployHost.name h.target
  · exact (install_name d).trans h.bound_spec.1

end Decided

/-! ## What a deploy has read when it decides -/

/-- How a deploy comes to touch a host: it is no dry run, and it has decided on what was read. -/
structure Ready (env : AppEnv) (source : DeploySource) (hostName : String) (opts : DeployOptions)
    (s : AppsWorld) (d : DeployStart) : Prop where
  env_eq : d.env = env
  opts_eq : d.opts = opts
  real : opts.dryRun = false
  found : s.host hostName = some d.host
  decided : ∃ plan siblings, env.loadAppPlan source opts.name = .ok plan ∧
    siblings.Perm (s.rows.filter fun row => row.host = d.host.name) ∧
    d.prev = s.row (d.host.name, plan.name) ∧
    Decided env.crypt plan d.facts.toHostFacts d.host opts d.prev
      (reservationsOf siblings plan.name d.prev) d.decision

section Deploy

/- The surroundings, which may keep more than the world. -/
variable {S : Type} {R : Surroundings AppOp AppOp.Answer S} {w : S → AppsWorld} {I J : S → Prop} {σ : S}

/-- The rule for a row that is written. -/
theorem safe_saveInstall {α : Type} {Q : Except AppError α → S → Prop} {row : AppInstall}
    {f : Unit → AppProg α} (hI : I σ)
    (hok : ∀ σ', R (.saveInstall row) σ (.ok ()) σ' → Safe R I Q (f ()) σ')
    (herr : ∀ e σ', R (.saveInstall row) σ (.error e) σ' → I σ' ∧ Q (.error (.failed e)) σ') :
    Safe R I Q (saveInstall row >>= f) σ := by
  refine ⟨hI, fun x σ' hx => ?_⟩
  cases x with
  | ok u => exact hok σ' hx
  | error e => exact herr e σ' hx

/-- The world as it was, and what plain operations keep. -/
def Reading (w : S → AppsWorld) (J : S → Prop) (s : AppsWorld) (σ : S) : Prop := w σ = s ∧ J σ

theorem Reading.step {s : AppsWorld} (hR : ∀ o σ x σ', R o σ x σ' → surroundings o (w σ) x (w σ'))
    (hkeep : ∀ o x σ σ', Plain o → R o σ x σ' → J σ → J σ') :
    ∀ o x σ σ', Plain o → R o σ x σ' → Reading w J s σ → Reading w J s σ' :=
  fun o x σ σ' ho hx h => ⟨(eq_of_plain ho (hR _ _ _ _ hx)).trans h.1, hkeep o x σ σ' ho hx h.2⟩

/-- A host that is shown is in the inventory. -/
theorem safe_showHost {s : AppsWorld} {α : Type} {name : String} {f : DeployHost → AppProg α}
    {Q : Except AppError α → S → Prop}
    (hR : ∀ o σ x σ', R o σ x σ' → surroundings o (w σ) x (w σ'))
    (hkeep : ∀ o x σ σ', Plain o → R o σ x σ' → J σ → J σ')
    (hI : ∀ σ, J σ → I σ) (hs : Reading w J s σ)
    (hf : ∀ host σ', Reading w J s σ' → s.host name = some host →
      Safe R I Q (f host) σ')
    (herr : ∀ e σ', J σ' → Q (.error e) σ') :
    Safe R I Q (showHost name >>= f) σ := by
  refine ⟨hI σ hs.2, fun x σ' hx => ?_⟩
  have hread := Reading.step hR hkeep _ x σ σ' trivial hx hs
  have hfound : x = (w σ).host name := (hR _ _ _ _ hx).1
  rw [hs.1] at hfound
  cases x with
  | none => exact Safe.of_done (hI σ' hread.2) (herr _ σ' hread.2)
  | some host => exact hf host σ' hread hfound.symm

/-- Until a deploy touches the host it only reads: what plain operations keep, and what holds from the claim
of the row on, hold of the whole deploy. -/
theorem safe_deploy {Q : Except AppError DeployAnswer → S → Prop}
    {env : AppEnv} {source : DeploySource} {hostName : String} {opts : DeployOptions}
    (hR : ∀ o σ x σ', R o σ x σ' → surroundings o (w σ) x (w σ'))
    (hkeep : ∀ o x σ σ', Plain o → R o σ x σ' → J σ → J σ')
    (hI : ∀ σ, J σ → I σ) (hs : J σ)
    (hrun : ∀ d dns σ', Reading w J (w σ) σ' → Ready env source hostName opts (w σ) d →
      Safe R I Q (runDeploy d dns) σ')
    (hplan : ∀ decision dns σ', J σ' → Q (.ok (.plan decision dns)) σ')
    (herr : ∀ e σ', J σ' → Q (.error e) σ') :
    Safe R I Q (deploy env source hostName opts) σ := by
  have hread := Reading.step (s := w σ) hR hkeep
  have hI' : ∀ σ', Reading w J (w σ) σ' → I σ' := fun σ' h => hI σ' h.2
  have herr' : ∀ e σ', Reading w J (w σ) σ' → Q (.error e) σ' := fun e σ' h => herr e σ' h.2
  have hplain {α : Type} {p : AppProg α} {f : α → AppProg DeployAnswer} (hp : AllOps Plain p) {σ' }
      (hσ' : Reading w J (w σ) σ')
      (hf : ∀ a σ'', Reading w J (w σ) σ'' → Safe R I Q (f a) σ'') :
      Safe R I Q (p >>= f) σ' :=
    Safe.allOps_bind hp hread hI' hσ' hf herr'
  unfold deploy readHost
  simp only [bind_assoc, pure_bind]
  refine safe_showHost hR hkeep hI ⟨rfl, hs⟩ (fun host σ₁ h₁ hhost => ?_) herr
  refine hplain (plain_assertHostWritable _) h₁ fun _ σ₂ h₂ => hplain (plain_assertReady _) h₂ fun _ σ₃ h₃ =>
    hplain (plain_resolveSshTarget _) h₃ fun _ σ₄ h₄ => hplain (plain_preflight _) h₄ fun facts σ₅ h₅ =>
    hplain (allOps_require _ _) h₅ fun _ σ₆ h₆ => ?_
  cases hplan' : env.loadAppPlan source opts.name with
  | error e => exact Safe.of_done (hI' _ h₆) (herr' _ _ h₆)
  | ok plan =>
      refine Safe.perform (hI' _ h₆) fun prev σ₇ hx => ?_
      have h₇ := hread _ prev _ _ trivial hx h₆
      have hprev := (hR _ _ _ _ hx).1
      rw [h₆.1] at hprev
      cases prev with
      | error e => exact Safe.of_done (hI' _ h₇) (herr' _ _ h₇)
      | ok prev =>
          refine Safe.perform (hI' _ h₇) fun siblings σ₈ hx => ?_
          have h₈ := hread _ siblings _ _ trivial hx h₇
          have hsiblings := (hR _ _ _ _ hx).1
          rw [h₇.1] at hsiblings
          cases siblings with
          | error e => exact Safe.of_done (hI' _ h₈) (herr' _ _ h₈)
          | ok siblings =>
              simp only [lift, pure_bind]
              cases hdecide : decideDeploy env.crypt plan facts.toHostFacts host opts prev
                (reservationsOf siblings plan.name prev) with
              | error e => exact Safe.of_done (hI' _ h₈) (herr' _ _ h₈)
              | ok decision =>
                  refine hplain (plain_checkDns _ _ _) h₈ fun dns σ₉ h₉ => ?_
                  have hdecided := decideDeploy_spec hdecide
                  have htarget := hdecided.target
                  by_cases hdry : opts.dryRun = true
                  · rw [if_pos hdry]
                    exact Safe.of_done (hI' _ h₉) (hplan _ _ _ h₉.2)
                  · rw [if_neg hdry]
                    refine hrun _ _ _ h₉ ⟨rfl, rfl, by simpa using hdry, ?_, plan, siblings, hplan', ?_, ?_, ?_⟩
                    · exact hhost.trans (congrArg some htarget.symm)
                    · subst htarget
                      exact hsiblings _ rfl
                    · subst htarget
                      exact hprev _ rfl
                    · subst htarget
                      exact hdecided

theorem pickInstall_mem {name : String} {host : Option String} {found : List AppInstall} {row : AppInstall}
    (h : pickInstall name host found = .ok row) : row ∈ found := by
  unfold pickInstall at h
  dsimp only at h
  split at h
  · cases h
  · cases h
    exact List.mem_singleton_self _
  · cases h
  · split at h
    · next hfind =>
        cases h
        exact List.mem_of_find?_eq_some hfind
    · cases h

/-- An install that is resolved is in the ledger. -/
theorem safe_resolveInstall {s : AppsWorld} {α : Type} {name : String} {onHost : Option String}
    {f : AppInstall → AppProg α} {Q : Except AppError α → S → Prop}
    (hR : ∀ o σ x σ', R o σ x σ' → surroundings o (w σ) x (w σ'))
    (hkeep : ∀ o x σ σ', Plain o → R o σ x σ' → J σ → J σ')
    (hI : ∀ σ, J σ → I σ) (hs : Reading w J s σ)
    (hf : ∀ row σ', Reading w J s σ' → row ∈ s.rows → row.name = name →
      Safe R I Q (f row) σ')
    (herr : ∀ e σ', J σ' → Q (.error e) σ') :
    Safe R I Q (resolveInstall name onHost >>= f) σ := by
  unfold resolveInstall
  simp only [bind_assoc]
  refine Safe.perform (hI _ hs.2) fun found σ' hx => ?_
  have hread := Reading.step hR hkeep _ found _ _ trivial hx hs
  have hfound := (hR _ _ _ _ hx).1
  rw [hs.1] at hfound
  cases found with
  | error e => exact Safe.of_done (hI _ hread.2) (herr _ _ hread.2)
  | ok found =>
      simp only [lift, pure_bind]
      cases hpick : pickInstall name onHost found with
      | error e => exact Safe.of_done (hI _ hread.2) (herr _ _ hread.2)
      | ok row =>
          have hmem := List.mem_filter.mp ((hfound found rfl).subset (pickInstall_mem hpick))
          exact hf row σ' hread hmem.1 (by simpa using hmem.2)

/-- An expose is a deploy of the recorded app, with the domain that is given or recorded. -/
theorem safe_expose {Q : Except AppError DeployAnswer → S → Prop}
    {env : AppEnv} {name : String} {o : IngressDeployOptions} {onHost : Option String}
    (hR : ∀ o σ x σ', R o σ x σ' → surroundings o (w σ) x (w σ'))
    (hkeep : ∀ o x σ σ', Plain o → R o σ x σ' → J σ → J σ')
    (hI : ∀ σ, J σ → I σ) (hs : J σ)
    (hdeploy : ∀ row domain σ', Reading w J (w σ) σ' → row ∈ (w σ).rows → row.name = name →
      truthyText (o.domain.orElse fun _ => row.ingress.map AppIngressState.hostname) = some domain →
      Safe R I Q
        (deploy env ⟨some row.appId, none, none⟩ row.host (exposeOptions row o domain false)) σ')
    (herr : ∀ e σ', J σ' → Q (.error e) σ') :
    Safe R I Q (expose env name o onHost) σ := by
  refine safe_resolveInstall hR hkeep hI ⟨rfl, hs⟩ (fun row σ₁ h₁ hmem hname => ?_) herr
  refine Safe.allOps_bind (allOps_require (P := Plain) _ _) (Reading.step hR hkeep) (fun σ' h => hI _ h.2) h₁
    (fun _ σ₂ h₂ => ?_) (fun e σ' h => herr _ _ h.2)
  split
  · exact Safe.of_done (hI _ h₂.2) (herr _ _ h₂.2)
  · next domain hdomain => exact hdeploy row domain σ₂ h₂ hmem hname hdomain

end Deploy

/-! ## A wiki, and the host for it -/

/-- The app is the wiki, whatever is asked for. -/
def wikiEnv : AppEnv where
  crypt := ⟨"generated", fun _ => "$2b$12$" ++ String.ofList (List.replicate 53 'x')⟩
  loadAppPlan := fun _ _ => .ok gatedWiki
  inCatalog := fun _ => true
  postInstall := fun _ _ => []
  supportedProviders := []

/-- No flags. -/
def plainOptions : DeployOptions := ⟨none, .empty, false, none, none, none⟩

/-- One host, with some rows. -/
def wikiWorld (rows : List AppInstall) : AppsWorld where
  hosts := [⟨"web1", "203.0.113.7"⟩]
  rows := rows
  zones := fun _ => []
  records := fun _ _ => []

end Vops.Apps
