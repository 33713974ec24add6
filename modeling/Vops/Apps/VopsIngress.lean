import Vops.Apps.AppOps

/-!
# The ingress of a host (`apps/vops-ingress.service.ts`, `apps/ingress-dns.ts`, `apps/ingress-reach.ts`)

* `findZone`, `previewARecord`, `ensureARecord`, `deleteARecord` — the record of a hostname.
* `status`, `up`, `down` — the ingress itself.
* `preflightDns`, `ensureDnsRecord`, `discardDnsRecord` — DNS around a deploy.
* `attachRoute`, `detachRoute`, `cleanupForRemoval`, `detachInstall` — the route of an app.
-/

namespace Vops.Apps.VopsIngress

open AppProg

/-! ## Hosts -/

/-- `hosts.show` -/
def showHost (name : String) : AppProg DeployHost := do
  match ← op (.getHost name) with
  | some host => pure host
  | none => throw (.failed s!"Host '{name}' not found.")

/-- `assertHostWritable`, of a host that was found. -/
def assertHostWritable (host : DeployHost) : AppProg Unit := do
  let readOnly ← op .readOnly
  let name := host.name
  require (!readOnly) s!"Refusing to modify '{name}': VOPS_READONLY=1 is set (read-only mode)."

/-- `conn.assertReady` -/
def assertReady (name : String) : AppProg Unit := do lift (← op (.assertReady name))

/-- `resolveSshTarget` -/
def resolveSshTarget (host : DeployHost) : AppProg Unit := do lift (← op (.resolveSshTarget host))

/-- `ssh.runScript` -/
def runScript (host : DeployHost) (script : RemoteScript) : AppProg (ScriptResult script.Output) :=
  op (.runScript host script)

/-- `store.appendAudit` -/
def appendAudit (event : String) : AppProg Unit := do lift (← op (.appendAudit event))

/-- `store.saveInstall` -/
def saveInstall (row : AppInstall) : AppProg Unit := do lift (← op (.saveInstall row))

/-! ## The record of a hostname -/

/-- `DnsZoneMatch` -/
structure DnsZoneMatch where
  provider : String
  zoneId : String
  zoneName : String
  name : String
deriving DecidableEq

/-- `DnsEnsureAction` -/
inductive DnsEnsureAction
  | created | reused | repointed
deriving DecidableEq

/-- `EnsuredRecord` -/
structure EnsuredRecord where
  record : IngressDnsRecord
  action : DnsEnsureAction
deriving DecidableEq

/-- `findZone`, among some providers: one that cannot list its zones is passed over. -/
def findZone (fqdn : String) : List String → AppProg (Option DnsZoneMatch)
  | [] => pure none
  | provider :: providers => do
      match ← op (.listZones provider) with
      | .error _ => findZone fqdn providers
      | .ok zones =>
          match pickZone zones fqdn with
          | none => findZone fqdn providers
          | some zone => pure (some ⟨provider, zone.zoneId, zone.name, recordName fqdn zone.name⟩)

/-- What `planARecord` says of the records that the zone now has. -/
def planIn (m : DnsZoneMatch) (fqdn ip : String) : AppProg DnsPlan := do
  let records ← lift (← op (.listRecords m.provider m.zoneId))
  pure (planARecord records m.name fqdn ip)

/-- `previewARecord` -/
def previewARecord (env : AppEnv) (fqdn ip : String) : AppProg (Option DnsPlan) := do
  match ← findZone fqdn env.supportedProviders with
  | none => pure none
  | some m => return some (← planIn m fqdn ip)

/-- `record` -/
def recordOf (m : DnsZoneMatch) (fqdn recordId : String) : IngressDnsRecord :=
  ⟨m.provider, m.zoneId, m.zoneName, recordId, fqdn⟩

/-- The stale records are deleted, one after the other. -/
def deleteStale (m : DnsZoneMatch) : List DnsRecordLike → AppProg Unit
  | [] => pure ()
  | stale :: rest => do
      lift (← op (.deleteRecord m.provider m.zoneId stale.recordId))
      deleteStale m rest

/-- The record is created where the stale ones were. -/
def replaceRecord (m : DnsZoneMatch) (fqdn ip : String) (stale : List DnsRecordLike) :
    AppProg EnsuredRecord := do
  deleteStale m stale
  let created ← lift (← op (.createRecord m.provider m.zoneId m.name ip))
  return ⟨recordOf m fqdn created.recordId, if stale = [] then .created else .repointed⟩

/-- What is done about a plan. -/
def carryOut (m : DnsZoneMatch) (fqdn ip : String) (force : Bool) : DnsPlan → AppProg EnsuredRecord
  | .reuse existing => pure ⟨recordOf m fqdn existing.recordId, .reused⟩
  | .create => replaceRecord m fqdn ip []
  | .conflict reason stale occupied =>
      if force then replaceRecord m fqdn ip stale
      else throw (.failed (describeConflict fqdn reason occupied))

/-- `ensureARecord` -/
def ensureARecord (env : AppEnv) (fqdn ip : String) (force : Bool) : AppProg (Option EnsuredRecord) := do
  match ← findZone fqdn env.supportedProviders with
  | none => pure none
  | some m => return some (← carryOut m fqdn ip force (← planIn m fqdn ip))

/-- `deleteARecord`: an error is passed over. -/
def deleteARecord (dns : IngressDnsRecord) : AppProg Unit := do
  let _ ← op (.deleteRecord dns.provider dns.zoneId dns.recordId)
  pure ()

/-! ## DNS around a deploy -/

/-- `preflightDns` -/
def preflightDns (env : AppEnv) (host : DeployHost) (hostname : String) (force report : Bool) :
    AppProg (Option String) := do
  if isSslip hostname then pure none
  else
    let address := host.address
    match ← previewARecord env hostname address with
    | none => pure (some (s!"{hostname} is not in a DNS zone vops can write to — point an A record at " ++
        s!"{address} yourself before the certificate can be issued."))
    | some (.conflict reason _ occupied) =>
        if force then
          pure (some s!"{hostname} already points elsewhere — --force-dns will repoint it.")
        else if report then pure (some (describeConflict hostname reason occupied))
        else throw (.failed (describeConflict hostname reason occupied))
    | some (.reuse _) => pure (some (s!"{hostname} already points at {address} — the existing record is " ++
        "reused, not duplicated."))
    | some .create => pure none

/-- `ensureDnsRecord` -/
def ensureDnsRecord (env : AppEnv) (host : DeployHost) (hostname : String) (forceDns : Bool) :
    AppProg (Option EnsuredRecord) :=
  if isSslip hostname then pure none else ensureARecord env hostname host.address forceDns

/-- `discardDnsRecord`: only what this run created. -/
def discardDnsRecord : Option EnsuredRecord → AppProg Unit
  | some ⟨record, .created⟩ => deleteARecord record
  | _ => pure ()

/-! ## The ingress -/

/-- `readProxyKind` -/
def readProxyKind (host : DeployHost) : AppProg (Option ProxyKind) :=
  return (← runScript host .proxyRead).output

/-- `proxyFor` -/
def proxyFor (host : DeployHost) : AppProg ProxyKind :=
  return (← readProxyKind host).getD .traefik

/-- `status` -/
def status (hostName : String) : AppProg IngressStatusInfo := do
  let host ← showHost hostName
  resolveSshTarget host
  let proxy ← proxyFor host
  return (← runScript host (.ingressStatus proxy)).output

/-- `assertPortsFree` -/
def assertPortsFree (pre : IngressPrecheck) (host : String) : Except String Unit :=
  match pre.active, pre.port80.orElse fun _ => pre.port443 with
  | false, some clash =>
      let which := "/".intercalate ((if pre.port80.isSome then ["80"] else []) ++
        if pre.port443.isSome then ["443"] else [])
      let isK3s := (TextSearch.indexOf "traefik".toList (clash.toList.map Char.toLower)).isSome ||
        (TextSearch.indexOf "k3s".toList (clash.toList.map Char.toLower)).isSome
      let hint := if isK3s then " This looks like a k3s ingress — vops ingress targets non-k3s hosts; use " ++
        "the k3s ingress here." else ""
      .error s!"Port {which} on '{host}' is held by '{clash}'.{hint} Free it or choose another host."
  | _, _ => .ok ()

/-- `up` -/
def up (hostName : String) (email : Option String) (proxy : Option ProxyKind) : AppProg Unit := do
  let host ← showHost hostName
  assertHostWritable host
  assertReady hostName
  resolveSshTarget host
  let acme ← op .acmeEmail
  let address := (email.orElse fun _ => acme).getD ""
  require (address != "") ("An ACME account email is required. Pass --email you@example.com (or set " ++
    "VOPS_ACME_EMAIL).")
  let pre ← runScript host .ingressPrecheck
  let name := host.name
  require (truthyText pre.output.podmanVersion).isSome
    s!"Podman is not installed. Run `vops app setup {name}` first."
  lift (assertPortsFree pre.output name)
  let existing ← readProxyKind host
  let kind := (proxy.orElse fun _ => existing).getD DEFAULT_PROXY
  let out ← runScript host (.ingressInstall kind address pre.output.selinux)
  let active := out.output.active
  let health := out.output.health
  let pull := out.output.pull
  let diag := if out.output.diag = "" then jsTrim out.stderr else out.output.diag
  require (active && health)
    s!"Ingress failed to start (active={active} health={health}, pull={pull}).\n{diag}"
  appendAudit "ingress.up"

/-! ## Waiting for the certificate -/

/-- `DnsOrigin`: none for a zone that vops cannot write. -/
abbrev DnsOrigin := Option DnsEnsureAction

/-- `SHORT` -/
def SHORT : List ℕ := [3000, 3000, 3000, 3000, 3000]

/-- `PROPAGATING` -/
def PROPAGATING : List ℕ := [3000, 3000, 5000, 8000, 13000, 20000, 20000, 20000, 20000]

/-- `reachBudget`, of the DNS attempts. -/
def dnsSleepsMs (origin : DnsOrigin) : List ℕ :=
  if origin = some .created ∨ origin = some .repointed then PROPAGATING else SHORT

/-- `pointsElsewhere` -/
def pointsElsewhere (dns : AuthResolve) : Bool := !dns.resolved && dns.addrs != []

/-- `poll`: one attempt more than there are sleeps. -/
def poll {α : Type} (probe : AppProg α) (isDone : α → Bool) : List ℕ → AppProg α
  | [] => probe
  | ms :: sleepsMs => do
      let last ← probe
      if isDone last then pure last
      else do
        op (.sleep ms)
        poll probe isDone sleepsMs

/-- `waitReachable` -/
def waitReachable (hostname ip : String) (origin : DnsOrigin) (zoneHint : Option String) :
    AppProg (AuthResolve × HttpProbe) := do
  let dns ← poll (op (.resolvesAuthoritative hostname ip zoneHint))
    (fun r => r.resolved || pointsElsewhere r) (dnsSleepsMs origin)
  let http ← poll (op (.probeHttp hostname ip)) HttpProbe.reachable SHORT
  return (dns, http)

/-- `CertPollResult` -/
structure CertPollResult where
  ok : Bool
  hardError : Option String
deriving DecidableEq

/-- `CERT_POLL_ATTEMPTS` -/
def CERT_POLL_ATTEMPTS : ℕ := 20

/-- `CERT_POLL_SLEEP_MS` -/
def CERT_POLL_SLEEP_MS : ℕ := 3000

/-- A certificate that was issued is asked for again. -/
def servedAgain (host : DeployHost) (hostname : String) (issued : Bool) : AppProg Bool :=
  if issued then op (.probeHttps hostname host.address) else pure false

/-- One round of `pollCert`: the host is asked in every other one. -/
def certRound (host : DeployHost) (proxy : ProxyKind) (hostname : String) (i : ℕ) :
    AppProg (Option CertPollResult) := do
  let served ← op (.probeHttps hostname host.address)
  if served then pure (some ⟨true, none⟩)
  else if i % 2 = 1 then do
    let cp ← runScript host (.certProbe proxy hostname)
    let again ← servedAgain host hostname cp.output.issued
    pure (if again then some ⟨true, none⟩ else (truthyText cp.output.hardError).map fun e => ⟨false, some e⟩)
  else pure none

/-- `pollCert`, in some rounds. -/
def pollCert (host : DeployHost) (proxy : ProxyKind) (hostname : String) :
    List ℕ → AppProg CertPollResult
  | [] => pure ⟨false, none⟩
  | i :: rounds => do
      match ← certRound host proxy hostname i with
      | some result => pure result
      | none =>
          op (.sleep CERT_POLL_SLEEP_MS)
          pollCert host proxy hostname rounds

/-- `dnsReason` -/
def dnsReason (hostname ip : String) (origin : DnsOrigin) (dns : AuthResolve) : String :=
  let why := (dns.reason.map fun r => " (" ++ r ++ ")").getD ""
  if pointsElsewhere dns then
    let addrs := ", ".intercalate dns.addrs
    s!"{hostname} resolves to {addrs} at its authoritative nameservers, not {ip}"
  else if origin = none then
    s!"{hostname} is in no DNS zone vops can write to and does not resolve yet{why} — publish an A record " ++
      s!"{hostname} → {ip} yourself"
  else s!"the A record vops wrote for {hostname} has not converged at its authoritative nameservers yet{why}"

/-- `notReadyNote` -/
def notReadyNote (hostname ip app : String) (origin : DnsOrigin) (dns : AuthResolve) (http : HttpProbe) :
    String :=
  let error := http.error.getD "no response"
  let reasons := (if dns.resolved then [] else [dnsReason hostname ip origin dns]) ++
    if http.reachable then []
    else [s!":80 is unreachable at {ip} ({error}) — the certificate check needs inbound :80,443"]
  let shown := "; ".intercalate reasons
  s!"Not ready for TLS, left on plain HTTP: {shown}. Retry with `vops app expose {app} --yes` once fixed."

/-! ## The route of an app -/

/-- `routeFile` -/
def routeFile (proxy : ProxyKind) (app : String) : String :=
  match proxy with
  | .traefik => s!"/etc/vops/ingress/dynamic/{app}.yml"
  | .caddy => s!"/etc/vops/ingress/caddy/{app}.caddy"

/-- `routeWriteMessage` -/
def routeWriteMessage (app : String) (proxy : ProxyKind) (failure : RouteWriteOutcome) (stderr : String) :
    String :=
  let name := match proxy with
    | .traefik => "traefik"
    | .caddy => "caddy"
  let rerun := s!"Rerun `vops app expose {app} --yes` once the cause is fixed."
  let raw := jsTrim (if failure.detail = "" then stderr else failure.detail)
  let lines := raw.toList.splitOn '\n'
  let shown := " / ".intercalate ((lines.drop (lines.length - 5)).map String.ofList)
  let why := if raw = "" then "" else s!" {name} said: {shown}."
  match failure.kind with
  | .rejected => s!"{name} refused the ingress config for '{app}': the route fragment was removed, so " ++
      s!"'{app}' is NOT publicly routed.{why} {rerun}"
  | .reloadFailed => s!"{name} validated the ingress config for '{app}' but the reload failed, so " ++
      s!"'{app}' may not be publicly routed.{why} {rerun}"
  | _ => s!"The ingress route write for '{app}' reported no result — it timed out or the connection died, " ++
      s!"so the {name} reload may never have run and '{app}' may not be publicly routed.{why} {rerun}"

/-- `writeRoute`: a write that cannot be shown to have reloaded the proxy is a failure. -/
def writeRoute (host : DeployHost) (proxy : ProxyKind) (route : RouteWrite) : AppProg Unit := do
  lift (route.auth.elim (.ok ()) assertRouteAuth)
  let res ← runScript host (.routeWrite proxy route)
  require (res.output.kind == .wrote) (routeWriteMessage route.app proxy res.output res.stderr)

/-- `ensureGateSecret` -/
def ensureGateSecret (host : DeployHost) : Option (String × String) → AppProg Unit
  | none => pure ()
  | some (name, plaintext) => do
      let res ← runScript host (.ingressAuthSecret name plaintext)
      require res.output (s!"Could not create the ingress auth secret '{name}' — aborting before exposing " ++
        "the app ungated.")

/-- A route with its host port. -/
def ingressRoute (r : RoutePort) (e : RouteEntry) : AppIngressRoute :=
  ⟨r.component, r.containerPort, e.hostPort, e.path, e.stripPrefix⟩

/-- The route of the whole app, else the first one. -/
def rootRoute (routes : List AppIngressRoute) : Option AppIngressRoute :=
  (routes.find? fun r => r.path == "/").orElse fun _ => routes.head?

/-- What is recorded of a route that is attached, before TLS. -/
def ingressState (proxy : ProxyKind) (app : String) (r : BindingResolution) (root : AppIngressRoute)
    (routes : List AppIngressRoute) (gate : Option IngressGate) (dns : Option EnsuredRecord) :
    AppIngressState where
  hostname := r.hostname
  tls := false
  staging := r.staging
  component := root.component
  hostPort := root.hostPort
  routes := routes.filter (· ≠ root)
  exposeDirect := r.exposeDirect
  certResolver := if r.staging then "le-staging" else "le"
  routeFile := routeFile proxy app
  dns := dns.map EnsuredRecord.record
  auth := gate.map IngressGate.state

/-- `AttachResult`, less its flags. -/
structure AttachResult where
  state : AppIngressState
  note : String

/-- The TLS half of `attachRoute`, over a route that answers on plain HTTP. -/
def attachTls (host : DeployHost) (proxy : ProxyKind) (route : Bool → RouteWrite) (base : AppIngressState)
    (origin : DnsOrigin) : AppProg AttachResult := do
  let hostname := base.hostname
  let app := (route false).app
  let (dns, http) ← waitReachable hostname host.address origin (base.dns.map IngressDnsRecord.zoneName)
  if !dns.resolved || !http.reachable then
    pure ⟨base, notReadyNote hostname host.address app origin dns http⟩
  else do
    writeRoute host proxy (route true)
    let cert ← pollCert host proxy hostname (List.range CERT_POLL_ATTEMPTS)
    let stage := if base.staging then "staging" else "production"
    if cert.ok then pure ⟨{ base with tls := true }, s!"TLS active ({stage} cert)"⟩
    else match cert.hardError with
      | some e => do
          -- The TLS route would redirect to a certificate that no browser trusts.
          writeRoute host proxy (route false)
          let caveat := if origin = some .repointed then " The name was repointed in this run — " ++
            "validators caching its previous address will need that record’s old TTL to expire." else ""
          pure ⟨base, s!"ACME failed ({e}) — reverted to plain HTTP so {app} stays reachable.{caveat} " ++
            s!"Fix the cause and rerun `vops app expose {app} --yes`."⟩
      | none =>
          let name := host.name
          pure ⟨{ base with tls := true }, s!"TLS requested ({stage}); certificate still issuing — check " ++
            s!"`vops ingress status {name}`."⟩

/-- `attachRoute` -/
def attachRoute (host : DeployHost) (row : AppInstall) (r : BindingResolution) (gate : Option IngressGate)
    (dns : Option EnsuredRecord) : AppProg AttachResult := do
  resolveSshTarget host
  let proxy ← proxyFor host
  let entries ← lift (r.routes.mapM (resolveRoute row.components))
  let routes := r.routes.zipWith ingressRoute entries
  match rootRoute routes with
  | none => throw (.failed "Cannot read properties of undefined (reading 'component')")
  | some root => do
      let route (tls : Bool) : RouteWrite := {
        app := row.name
        hostname := r.hostname
        tls := tls
        staging := r.staging
        certResolver := if r.staging then "le-staging" else "le"
        routes := entries
        auth := gate.map IngressGate.routeAuth }
      ensureGateSecret host (gate.bind IngressGate.secret)
      writeRoute host proxy (route false)
      let base := ingressState proxy row.name r root routes gate dns
      if r.tls then attachTls host proxy route base (dns.map EnsuredRecord.action)
      else pure ⟨base, "plain HTTP (tls disabled)"⟩

/-- `detachRoute` -/
def detachRoute (host : DeployHost) (app : String) : AppProg Unit := do
  resolveSshTarget host
  let proxy ← proxyFor host
  let _ ← runScript host (.routeRemove proxy app)
  pure ()

/-- The recorded DNS record of an install is deleted. -/
def deleteRecorded (ingress : AppIngressState) : AppProg Unit :=
  match ingress.dns with
  | some dns => deleteARecord dns
  | none => pure ()

/-- `cleanupForRemoval` -/
def cleanupForRemoval (host : DeployHost) (row : AppInstall) : AppProg Unit :=
  match row.ingress with
  | none => pure ()
  | some ingress => do
      detachRoute host row.name
      deleteRecorded ingress

/-- `detachInstall` -/
def detachInstall (row : AppInstall) : AppProg Unit := do
  let host ← showHost row.host
  detachRoute host row.name
  row.ingress.elim (pure ()) deleteRecorded
  saveInstall { row with ingress := none }

/-- An install that is still there is detached. -/
def detachFound : Option AppInstall → AppProg Unit
  | some row => detachInstall row
  | none => pure ()

/-- The installs that are still routed are detached, one after the other. -/
def detachAll (host : String) : List AppInstall → AppProg Unit
  | [] => pure ()
  | summary :: rest => do
      let row ← lift (← op (.getInstall host summary.name))
      detachFound row
      detachAll host rest

/-- `down` -/
def down (hostName : String) (purge force : Bool) : AppProg Unit := do
  let host ← showHost hostName
  assertHostWritable host
  let rows ← lift (← op (.listInstalls host.name))
  let routed := rows.filter fun i => i.ingress.isSome
  let names := ", ".intercalate (routed.map fun i => i.name)
  let count := routed.length
  require (routed.isEmpty || force) (s!"{count} app(s) still routed through ingress ({names}). Detach them " ++
    "or pass --force.")
  detachAll host.name routed
  resolveSshTarget host
  let _ ← runScript host (.ingressDown purge)
  appendAudit "ingress.down"

end Vops.Apps.VopsIngress
