import Vops.Apps.AppRollback
import Vops.Apps.DeployDecision

/-!
# What the apps service asks for (`apps/vops-apps.service.ts`, `lib/ssh-exec.ts`, `lib/store/local-store.ts`)

* `RemoteScript`, `RemoteScript.Output` — the scripts that are run on a host, and what is read of what
  they print; `ScriptResult` — how a script ended, which is a result and never an exception.
* `AppOp`, `AppOp.Answer` — the operations: the inventory, the ledger, the scripts, the DNS providers and
  the probes from this machine.
* `AppProg`, `AppEnv` — the programs over them, and what they are given besides.

The text of a script is kept where a proof reads it: those of a deploy, a rollback and a removal.
-/

/-!
## What would happen to DNS (`apps/ingress-dns-plan.ts`, `apps/ingress-hostname.ts`)

* `DnsRecordLike`, `DnsZoneInfo` — what a provider lists.
* `pickZone`, `recordName` — the zone that owns a hostname, and the name of the record in it.
* `planARecord` — to create a record, to reuse the one that says what is wanted, or a conflict.
-/

namespace Vops.Apps

/-! ## Zones -/

/-- `DnsZoneInfo` -/
structure DnsZoneInfo where
  zoneId : String
  name : String
deriving DecidableEq

/-- `DnsRecordLike` -/
structure DnsRecordLike where
  recordId : String
  type : String
  name : String
  value : String
deriving DecidableEq

/-- `name.replace(/\.$/, '')` -/
def withoutDot (name : String) : String :=
  if name.toList.getLast? = some '.' then String.ofList name.toList.dropLast else name

/-- A name as it is compared: without its dot, in lower case. -/
def bareName (name : String) : String := toLowerCase (withoutDot name)

/-- The zone owns the host. -/
def owns (zone host : String) : Bool :=
  host == zone || ('.' :: zone.toList).isSuffixOf host.toList

/-- The zone is a longer match than the best one so far. -/
def isLonger (best : Option DnsZoneInfo) (zone : DnsZoneInfo) : Bool :=
  best.all fun b => (withoutDot b.name).length < (bareName zone.name).length

/-- `pickZone` -/
def pickZone (zones : List DnsZoneInfo) (fqdn : String) : Option DnsZoneInfo :=
  zones.foldl (fun best zone =>
    if owns (bareName zone.name) (bareName fqdn) && isLonger best zone then some zone else best) none

/-- `recordName` -/
def recordName (fqdn zoneName : String) : String :=
  let host := bareName fqdn
  let zone := bareName zoneName
  if host = zone then "@" else String.ofList (host.toList.take (host.length - zone.length - 1))

/-- `sameName` -/
def sameName (recorded relative fqdn : String) : Bool :=
  bareName recorded == toLowerCase relative || bareName recorded == bareName fqdn

/-! ## The plan -/

/-- `DnsConflictReason` -/
inductive DnsConflictReason
  | pointsElsewhere | cnamePresent
deriving DecidableEq

/-- `DnsPlan`, less what only its messages show. -/
inductive DnsPlan
  | create
  | reuse (existing : DnsRecordLike)
  | conflict (reason : DnsConflictReason) (stale : List DnsRecordLike) (occupied : List (String × String))
deriving DecidableEq

/-- The record has that type. -/
def DnsRecordLike.isType (type : String) (r : DnsRecordLike) : Bool := r.type.toUpper == type

/-- `planARecord` -/
def planARecord (records : List DnsRecordLike) (name fqdn ip : String) : DnsPlan :=
  let here := records.filter fun r => sameName r.name name fqdn
  let cname := here.filter (DnsRecordLike.isType "CNAME")
  let a := here.filter (DnsRecordLike.isType "A")
  let occupied := (a ++ cname).map fun r => (r.type.toUpper, r.value)
  if cname ≠ [] then .conflict .cnamePresent [] occupied
  else
    -- One other value is a conflict: with two addresses the name would answer with either.
    match a.filter fun r => jsTrim r.value ≠ ip, a with
    | other :: others, _ => .conflict .pointsElsewhere (other :: others) occupied
    | [], mine :: _ => .reuse mine
    | [], [] => .create

/-- `DnsPlan.stale` -/
def DnsPlan.stale : DnsPlan → List DnsRecordLike
  | conflict _ stale _ => stale
  | _ => []

/-- `describe`, the message of a `DnsConflictError`. -/
def describeConflict (fqdn : String) (reason : DnsConflictReason) (occupied : List (String × String)) :
    String :=
  let shown := ", ".intercalate (occupied.map fun o => o.1 ++ " " ++ o.2)
  match reason with
  | .cnamePresent =>
      s!"{fqdn} already has a CNAME ({shown}). DNS does not allow an A record beside one — use a " ++
        "different hostname, or remove the CNAME yourself."
  | .pointsElsewhere =>
      s!"{fqdn} already points elsewhere ({shown}). vops will not repoint a name it did not create — use " ++
        "a different hostname, or re-run with --force-dns if you are sure."

end Vops.Apps

namespace Vops.Apps

open AuthorizedKeys (Text)

/-! ## Scripts -/

/-- `ProxyKind` -/
inductive ProxyKind
  | traefik | caddy
deriving DecidableEq

/-- `DEFAULT_PROXY` -/
def DEFAULT_PROXY : ProxyKind := .caddy

/-- The post-install step of a plan, with its command resolved. -/
structure PostInstallRun where
  name : String
  container : String
  command : List String
deriving DecidableEq

/-- `ProxyRouteRenderInput`, with the routes as they were resolved. -/
structure RouteWrite where
  app : String
  hostname : String
  tls : Bool
  staging : Bool
  certResolver : String
  routes : List RouteEntry
  auth : Option RouteAuth

/-- The scripts. A deploy, what puts a failed one back, and what binds the ports of an install anew are
told apart, although all three start units. -/
inductive RemoteScript
  | preflight
  | dataProbe (volumes secrets : List String)
  | pull (images : List String) (registry : Option RegistryLogin)
  | deploy (script : HostScript)
  | smokeHttp (port : ℤ) (path : String) (expect window : ℤ)
  | smokeTcp (port window : ℤ)
  | diag (app container : String)
  | rollback (script : HostScript)
  | remove (script : HostScript)
  | rebind (script : HostScript)
  | postInstall (runs : List PostInstallRun) (services : List String)
  | proxyRead
  | ingressPrecheck
  | ingressInstall (proxy : ProxyKind) (email : String) (selinux : Bool)
  | ingressStatus (proxy : ProxyKind)
  | ingressDown (purge : Bool)
  | routeWrite (proxy : ProxyKind) (route : RouteWrite)
  | routeRemove (proxy : ProxyKind) (app : String)
  | certProbe (proxy : ProxyKind) (hostname : String)
  | ingressAuthSecret (name plaintext : String)

/-- `HostFacts`, with what a deploy needs to be possible at all. -/
structure PreflightFacts extends HostFacts where
  podmanVersion : Option String
  quadletGenerator : Option String
deriving DecidableEq

/-- What `parsePullOutput` reads. -/
structure PullOutcome where
  ran : Bool
  failed : List String
deriving DecidableEq

/-- `SmokeOutcome` -/
structure SmokeOutcome where
  ok : Bool
  detail : String
deriving DecidableEq

/-- What `parsePostInstallOutput` reads. -/
structure PostInstallOutcome where
  failed : List (String × String)
  notActive : List String
deriving DecidableEq

/-- `IngressPrecheck` -/
structure IngressPrecheck where
  active : Bool
  port80 : Option String
  port443 : Option String
  podmanVersion : Option String
  selinux : Bool
deriving DecidableEq

/-- `IngressInstallOutcome` -/
structure IngressInstallOutcome where
  active : Bool
  health : Bool
  pull : String
  diag : String
deriving DecidableEq

/-- `IngressStatusInfo` -/
structure IngressStatusInfo where
  active : Bool
  container : Option String
  health : ℤ
  routes : List String
deriving DecidableEq

/-- `RouteWriteKind` -/
inductive RouteWriteKind
  | wrote | rejected | reloadFailed | unknown
deriving DecidableEq

/-- `RouteWriteOutcome` -/
structure RouteWriteOutcome where
  kind : RouteWriteKind
  detail : String
deriving DecidableEq

/-- `CertProbe` -/
structure CertProbe where
  issued : Bool
  hardError : Option String
deriving DecidableEq

/-- What is read of the output of a script; a deploy has succeeded or names its error. -/
@[reducible] def RemoteScript.Output : RemoteScript → Type
  | preflight => PreflightFacts
  | dataProbe _ _ => Text
  | pull _ _ => PullOutcome
  | deploy _ => Except String Unit
  | smokeHttp _ _ _ _ => SmokeOutcome
  | smokeTcp _ _ => SmokeOutcome
  | diag _ _ => String
  | rollback _ => Unit
  | remove _ => Unit
  | rebind _ => Unit
  | postInstall _ _ => PostInstallOutcome
  | proxyRead => Option ProxyKind
  | ingressPrecheck => IngressPrecheck
  | ingressInstall _ _ _ => IngressInstallOutcome
  | ingressStatus _ => IngressStatusInfo
  | ingressDown _ => Unit
  | routeWrite _ _ => RouteWriteOutcome
  | routeRemove _ _ => Unit
  | certProbe _ _ => CertProbe
  | ingressAuthSecret _ _ => Bool

/-- `ExecResult`: the exit code, whether the output was cut off, and what is read. -/
structure ScriptResult (β : Type) where
  code : ℤ
  truncated : Bool
  stderr : String
  output : β

/-- The script reports success. -/
def ScriptResult.succeeded {β : Type} (r : ScriptResult β) : Bool := r.code == 0 && !r.truncated

/-! ## Operations -/

/-- `HttpProbe` -/
structure HttpProbe where
  reachable : Bool
  error : Option String
deriving DecidableEq

/-- `AuthResolve` -/
structure AuthResolve where
  resolved : Bool
  addrs : List String
  reason : Option String
deriving DecidableEq

/-- The operations of the apps service. -/
inductive AppOp
  | getHost (name : String)
  | readOnly
  | assertReady (name : String)
  | resolveSshTarget (host : DeployHost)
  | runScript (host : DeployHost) (script : RemoteScript)
  | noRollback
  | acmeEmail
  | getInstall (host name : String)
  | findInstalls (name : String)
  | listInstalls (host : String)
  | saveInstall (row : AppInstall)
  | deleteInstall (host name : String)
  | appendAudit (event : String)
  | listZones (provider : String)
  | listRecords (provider zoneId : String)
  | createRecord (provider zoneId name value : String)
  | deleteRecord (provider zoneId recordId : String)
  | probeHttp (hostname ip : String)
  | resolvesAuthoritative (hostname ip : String) (zoneHint : Option String)
  | probeHttps (hostname ip : String)
  | sleep (ms : ℕ)

/-- What they are answered; `Except String` where they can throw. A provider without a configured service
lists no zones and deletes nothing. -/
@[reducible] def AppOp.Answer : AppOp → Type
  | getHost _ => Option DeployHost
  | readOnly => Bool
  | assertReady _ => Except String Unit
  | resolveSshTarget _ => Except String Unit
  | runScript _ script => ScriptResult script.Output
  | noRollback => Bool
  | acmeEmail => Option String
  | getInstall _ _ => Except String (Option AppInstall)
  | findInstalls _ => Except String (List AppInstall)
  | listInstalls _ => Except String (List AppInstall)
  | saveInstall _ => Except String Unit
  | deleteInstall _ _ => Except String Unit
  | appendAudit _ => Except String Unit
  | listZones _ => Except String (List DnsZoneInfo)
  | listRecords _ _ => Except String (List DnsRecordLike)
  | createRecord _ _ _ _ => Except String DnsRecordLike
  | deleteRecord _ _ _ => Except String Unit
  | probeHttp _ _ => HttpProbe
  | resolvesAuthoritative _ _ _ => AuthResolve
  | probeHttps _ _ => Bool
  | sleep _ => Unit

/-- The errors: `AppLeftRunningError`, and every other one. -/
inductive AppError
  | failed (message : String)
  | leftRunning (message : String)
deriving DecidableEq

/-- The programs. -/
abbrev AppProg := Async AppOp AppOp.Answer AppError

namespace AppProg

/-- One operation, awaited. -/
def op (o : AppOp) : AppProg o.Answer := Async.perform o

/-- What was computed, or its error. -/
def lift {α : Type} : Except String α → AppProg α
  | .ok a => pure a
  | .error e => throw (.failed e)

/-- The program goes on where the condition holds. -/
def require (condition : Bool) (message : String) : AppProg Unit :=
  if condition then pure () else throw (.failed message)

end AppProg

/-! ## Parameters -/

/-- `AppSource` -/
structure DeploySource where
  catalog : Option String
  file : Option String
  image : Option String
deriving DecidableEq

/-- What the service is given: the sources of secrets, how a manifest is loaded (`loadAppPlan`) and
whether the catalog has an entry, the post-install steps of a plan, and the DNS providers. -/
structure AppEnv where
  crypt : Crypt
  loadAppPlan : DeploySource → Option String → Except String FullAppPlan
  inCatalog : String → Bool
  postInstall : FullAppPlan → Option String → List PostInstallRun
  supportedProviders : List String

end Vops.Apps
