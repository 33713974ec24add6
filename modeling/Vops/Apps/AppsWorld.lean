import Vops.Apps.VopsApps
import Vops.Lib.Sessions

/-!
# The surroundings of the apps service

* `AppsWorld` — the inventory, the install ledger and the zones of the DNS providers.
* `surroundings` — what can be answered: a script can end in any way and print anything, a read or a write
  can fail, and a write that fails may have been done.
* `AppCommand`, `AppCommand.program` — the operations; `Sessions` — operations one after the other, each
  of which may be stopped at any moment.
* `answering` — surroundings that answer every operation.
-/

namespace Vops.Apps

open Async (Trace Surroundings)

/-! ## The world -/

/-- The key of a row. -/
def AppInstall.key (row : AppInstall) : String × String := (row.host, row.name)

/-- The inventory, the ledger, and the zones and records of every provider. -/
structure AppsWorld where
  hosts : List DeployHost
  rows : List AppInstall
  zones : String → List DnsZoneInfo
  records : String → String → List DnsRecordLike

namespace AppsWorld

variable (s : AppsWorld)

/-- `hosts.get` -/
def host (name : String) : Option DeployHost := s.hosts.find? fun h => h.name == name

/-- The row of an app on a host. -/
def row (key : String × String) : Option AppInstall := Table.get AppInstall.key key s.rows

/-- A row is written. -/
def save (row : AppInstall) : AppsWorld := { s with rows := Table.upsert AppInstall.key row s.rows }

/-- A row is deleted. -/
def drop (key : String × String) : AppsWorld :=
  { s with rows := s.rows.filter fun row => row.key ≠ key }

/-- The records of a zone. -/
def setRecords (provider zoneId : String) (records : List DnsRecordLike) : AppsWorld :=
  { s with records := fun p z => if p = provider ∧ z = zoneId then records else s.records p z }

/-- A record is added to a zone. -/
def addRecord (provider zoneId : String) (r : DnsRecordLike) : AppsWorld :=
  s.setRecords provider zoneId (s.records provider zoneId ++ [r])

/-- A record is taken out of a zone. -/
def takeRecord (provider zoneId recordId : String) : AppsWorld :=
  s.setRecords provider zoneId ((s.records provider zoneId).filter fun r => r.recordId ≠ recordId)

/-- No record of the zone has that id. -/
def fresh (provider zoneId recordId : String) : Prop :=
  ∀ r ∈ s.records provider zoneId, r.recordId ≠ recordId

@[simp] theorem row_save (row : AppInstall) (key : String × String) :
    (s.save row).row key = if row.key = key then some row else s.row key := Table.get_upsert

@[simp] theorem row_drop (key key' : String × String) :
    (s.drop key).row key' = if key = key' then none else s.row key' := Table.get_filter_ne

end AppsWorld

/-! ## What can be answered -/

/-- A write was done, or it failed and may have been done. -/
def Written (x : Except String Unit) (s after s' : AppsWorld) : Prop :=
  s' = after ∨ (∃ e, x = .error e) ∧ s' = s

/-- A read answers `value`, or it fails. -/
def ReadAs {β : Type} (x : Except String β) (value : β → Prop) : Prop := ∀ b, x = .ok b → value b

/-- What can be answered. -/
def surroundings : Surroundings AppOp AppOp.Answer AppsWorld
  | .getHost name, s, x, s' => x = s.host name ∧ s' = s
  | .getInstall host name, s, x, s' => ReadAs x (· = s.row (host, name)) ∧ s' = s
  | .findInstalls name, s, x, s' =>
      ReadAs x (fun rows => rows.Perm (s.rows.filter fun row => row.name = name)) ∧ s' = s
  | .listInstalls host, s, x, s' =>
      ReadAs x (fun rows => rows.Perm (s.rows.filter fun row => row.host = host)) ∧ s' = s
  | .saveInstall row, s, x, s' => Written x s (s.save row) s'
  | .deleteInstall host name, s, x, s' => Written x s (s.drop (host, name)) s'
  | .listZones provider, s, x, s' => ReadAs x (· = s.zones provider) ∧ s' = s
  | .listRecords provider zoneId, s, x, s' => ReadAs x (· = s.records provider zoneId) ∧ s' = s
  | .createRecord provider zoneId _ _, s, x, s' =>
      match (x : Except String DnsRecordLike) with
      | .ok r => s.fresh provider zoneId r.recordId ∧ s' = s.addRecord provider zoneId r
      | .error _ => s' = s ∨ ∃ r, s.fresh provider zoneId r.recordId ∧ s' = s.addRecord provider zoneId r
  | .deleteRecord provider zoneId recordId, s, x, s' =>
      Written x s (s.takeRecord provider zoneId recordId) s'
  | _, s, _, s' => s' = s

/-! ## Operations -/

/-- The operations. -/
inductive AppCommand
  | deploy (source : DeploySource) (host : String) (opts : DeployOptions)
  | expose (name : String) (opts : IngressDeployOptions) (host : Option String)
  | unexpose (name : String) (host : Option String)
  | remove (name : String) (purge dryRun : Bool) (host : Option String)
  | down (host : String) (purge force : Bool)

/-- The program of an operation, less what it answers. -/
def AppCommand.program (env : AppEnv) : AppCommand → AppProg Unit
  | deploy source host opts => do
      let _ ← VopsApps.deploy env source host opts
  | expose name opts host => do
      let _ ← VopsApps.expose env name opts host
  | unexpose name host => do
      let _ ← VopsApps.unexposeApp name host
  | remove name purge dryRun host => do
      let _ ← VopsApps.removeApp name purge dryRun host
  | down host purge force => VopsIngress.down host purge force

/-- Between two operations only the inventory changes. -/
def InventoryEdit (s s' : AppsWorld) : Prop := s' = { s with hosts := s'.hosts }

theorem InventoryEdit.refl (s : AppsWorld) : InventoryEdit s s := rfl

/-! ## Surroundings that answer -/

/-- Every script does what it is for. -/
def working : (script : RemoteScript) → ScriptResult script.Output
  | .preflight => ⟨0, false, "", ⟨⟨false, false, [22]⟩, some "5.4.2", some "/usr/libexec/podman/quadlet"⟩⟩
  | .dataProbe _ _ => ⟨0, false, "", "@@existing\n@@done\n".toList⟩
  | .pull _ _ => ⟨0, false, "", ⟨true, []⟩⟩
  | .deploy _ => ⟨0, false, "", .ok ()⟩
  | .smokeHttp _ _ _ _ => ⟨0, false, "", ⟨true, "HTTP 200"⟩⟩
  | .smokeTcp _ _ => ⟨0, false, "", ⟨true, "TCP open"⟩⟩
  | .diag _ _ => ⟨0, false, "", ""⟩
  | .rollback _ => ⟨0, false, "", ()⟩
  | .remove _ => ⟨0, false, "", ()⟩
  | .rebind _ => ⟨0, false, "", ()⟩
  | .postInstall _ _ => ⟨0, false, "", ⟨[], []⟩⟩
  | .proxyRead => ⟨0, false, "", some .caddy⟩
  | .ingressPrecheck => ⟨0, false, "", ⟨true, none, none, some "5.4.2", false⟩⟩
  | .ingressInstall _ _ _ => ⟨0, false, "", ⟨true, true, "", ""⟩⟩
  | .ingressStatus _ => ⟨0, false, "", ⟨true, some "vops-ingress", 200, []⟩⟩
  | .ingressDown _ => ⟨0, false, "", ()⟩
  | .routeWrite _ _ => ⟨0, false, "", ⟨.wrote, ""⟩⟩
  | .routeRemove _ _ => ⟨0, false, "", ()⟩
  | .certProbe _ _ => ⟨0, false, "", ⟨true, none⟩⟩
  | .ingressAuthSecret _ _ => ⟨0, false, "", true⟩

/-- An id that is longer than those of the records. -/
def freshId (records : List DnsRecordLike) : String :=
  String.ofList ('r' :: (records.map fun r => r.recordId.toList).flatten)

theorem freshId_fresh (s : AppsWorld) (provider zoneId : String) :
    s.fresh provider zoneId (freshId (s.records provider zoneId)) := by
  intro r hr heq
  have hlist := congrArg String.toList heq
  rw [freshId, String.toList_ofList] at hlist
  have hle := (List.sublist_flatten_of_mem (List.mem_map_of_mem (f := fun r => r.recordId.toList) hr)).length_le
  rw [hlist] at hle
  exact absurd hle (by simp)

/-- Nothing fails, but for what the scripts print. -/
def answering (scripts : (script : RemoteScript) → ScriptResult script.Output) :
    Async.Handler AppOp AppOp.Answer AppsWorld
  | .getHost name, s => (s.host name, s)
  | .readOnly, s => (false, s)
  | .assertReady _, s => (.ok (), s)
  | .resolveSshTarget _, s => (.ok (), s)
  | .runScript _ script, s => (scripts script, s)
  | .noRollback, s => (false, s)
  | .acmeEmail, s => (none, s)
  | .getInstall host name, s => (.ok (s.row (host, name)), s)
  | .findInstalls name, s => (.ok (s.rows.filter fun row => row.name = name), s)
  | .listInstalls host, s => (.ok (s.rows.filter fun row => row.host = host), s)
  | .saveInstall row, s => (.ok (), s.save row)
  | .deleteInstall host name, s => (.ok (), s.drop (host, name))
  | .appendAudit _, s => (.ok (), s)
  | .listZones provider, s => (.ok (s.zones provider), s)
  | .listRecords provider zoneId, s => (.ok (s.records provider zoneId), s)
  | .createRecord provider zoneId name value, s =>
      let r : DnsRecordLike := ⟨freshId (s.records provider zoneId), "A", name, value⟩
      (.ok r, s.addRecord provider zoneId r)
  | .deleteRecord provider zoneId recordId, s => (.ok (), s.takeRecord provider zoneId recordId)
  | .probeHttp _ _, s => (⟨true, none⟩, s)
  | .resolvesAuthoritative _ ip _, s => (⟨true, [ip], none⟩, s)
  | .probeHttps _ _, s => (true, s)
  | .sleep _, s => ((), s)

theorem surroundings_answering (scripts : (script : RemoteScript) → ScriptResult script.Output) (o : AppOp)
    (s : AppsWorld) : surroundings o s (answering scripts o s).1 (answering scripts o s).2 := by
  have hread {β : Type} (b : β) : ReadAs (.ok b) (· = b) := fun _ h => (Except.ok.inj h).symm
  have hperm (rows : List AppInstall) : ReadAs (.ok rows) (·.Perm rows) := fun _ h =>
    Except.ok.inj h ▸ List.Perm.refl rows
  cases o with
  | getHost => exact ⟨rfl, rfl⟩
  | getInstall | listZones | listRecords => exact ⟨hread _, rfl⟩
  | findInstalls | listInstalls => exact ⟨hperm _, rfl⟩
  | saveInstall | deleteInstall | deleteRecord => exact .inl rfl
  | createRecord provider zoneId name value => exact ⟨freshId_fresh s provider zoneId, rfl⟩
  | readOnly | assertReady | resolveSshTarget | runScript | noRollback | acmeEmail | appendAudit
  | probeHttp | resolvesAuthoritative | probeHttps | sleep => exact rfl

/-- What a handler answers is a run. -/
theorem steps_answering {α : Type} {C : (o : AppOp) → AppsWorld → o.Answer → Prop}
    (scripts : (script : RemoteScript) → ScriptResult script.Output) {p : AppProg α} {s : AppsWorld}
    (h : Async.Checked (answering scripts) C p s) : ∃ t, Async.Steps (Async.given surroundings C) p s t
      (.done (Async.run (answering scripts) p s).1) (Async.run (answering scripts) p s).2 :=
  Async.Steps.of_checked (surroundings_answering scripts) h

end Vops.Apps
