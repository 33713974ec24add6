import Vops.Apps.VopsIngress

/-!
# The apps service (`apps/vops-apps.service.ts`, `apps/app-lifecycle.ts`, `apps/app-rollback.ts`)

* `preflight`, `runSmoke`, `pullImages`, `runPostInstall` — the steps of a deploy that read their answer.
* `gateOrRollback`, `rollbackDeploy` — the units are up and answer, or the host is put back.
* `beginInstall`, `revertInstall`, `withLedgerRevert` — the ledger around a deploy
  (`apps/install-ledger.ts`).
* `deploy`, `expose`, `unexposeApp`, `removeApp` — the operations.
* `flipBind`, `rebindEndpoints`, `applyIngressScheme` — what they make of units and endpoints
  (`apps/app-deploy-support.ts`).
-/

namespace Vops.Apps.VopsApps

open AppProg VopsIngress
open AuthorizedKeys (Text)

/-! ## Readiness -/

/-- `supportsPod` -/
def supportsPod (version : String) : Bool :=
  5 ≤ digitsValue 10 ((version.toList.takeWhile Char.isDigit).map fun c => c.toNat - 48)

/-- `readiness` -/
def readiness (f : PreflightFacts) : List String :=
  let bootstrap := " Run `vops app setup <host>` to install podman 5."
  match truthyText f.podmanVersion with
  | none => ["podman is not installed." ++ bootstrap]
  | some version =>
      (if supportsPod version then []
        else [s!"podman {version} is too old (need ≥5.0 for pods)." ++ bootstrap]) ++
      if (truthyText f.quadletGenerator).isSome then []
      else ["the Quadlet systemd generator was not found on PATH."]

/-- `preflight` -/
def preflight (name : String) : AppProg PreflightFacts := do
  let host ← showHost name
  resolveSshTarget host
  return (← runScript host .preflight).output

/-! ## The steps of a deploy -/

/-- `registryHostOf` -/
def registryHostOf (image : String) : Option String :=
  let first := image.toList.takeWhile (· ≠ '/')
  if first = [] ∨ first = image.toList then none
  else if '.' ∈ first ∨ ':' ∈ first ∨ first = "localhost".toList then some (String.ofList first)
  else none

/-- `resolveRegistryLogin` -/
def resolveRegistryLogin (plan : FullAppPlan) (creds : Option (String × String)) : Option RegistryLogin :=
  match creds with
  | none => none
  | some (user, token) =>
      if user = "" ∨ token = "" then none
      else
        let primary := (plan.components.find? fun c => c.name == plan.primary).orElse fun _ =>
          plan.components.head?
        (registryHostOf ((primary.map FullComponentPlan.image).getD "")).map fun host => ⟨host, user, token⟩

/-- `pullImages`: the error, if there is one. -/
def pullImages (host : DeployHost) (images : List String) (registry : Option RegistryLogin) :
    AppProg Unit := do
  let res ← runScript host (.pull images registry)
  let name := host.name
  let stderr := jsTrim res.stderr
  require res.output.ran (jsTrim s!"Image pull did not complete on {name}. {stderr}")
  let failed := ", ".intercalate res.output.failed
  require res.output.failed.isEmpty (s!"Image pull failed: {failed} — check the tag exists and the host can " ++
    "reach the registry.")

/-- `startupWindow`, in seconds. -/
def startupWindow (st : Option SmokeTestPlan) : ℤ :=
  let asked := max ((st.bind SmokeTestPlan.timeoutSeconds).getD 0) ((st.bind SmokeTestPlan.retries).getD 0 * 5)
  min 600 (max 120 asked)

/-- `httpPrimary` -/
def httpPrimary (plan : FullAppPlan) : Bool :=
  ((plan.components.find? fun c => c.name == plan.primary).map fun c =>
    c.ports.any fun p => p.1.isHttp).getD false

/-- The smoke test asks over HTTP. -/
def smokesHttp (plan : FullAppPlan) : Bool :=
  match plan.smokeTest with
  | some st => st.type == .http
  | none => httpPrimary plan

/-- `runSmoke` -/
def runSmoke (host : DeployHost) (plan : FullAppPlan) (hp : HostDeployPlan) : AppProg SmokeOutcome :=
  let st := plan.smokeTest
  match st, ((hp.ports.get? plan.primary).getD []).head? with
  | some ⟨.skip, _, _, _, _, reason⟩, _ =>
      let why := reason.getD "no smoke test"
      pure ⟨true, s!"skipped ({why})"⟩
  | _, none => pure ⟨true, "no exposed port to probe"⟩
  | _, some published =>
      if smokesHttp plan then do
        let path := (st.bind SmokeTestPlan.path).getD "/"
        let expect := (st.bind SmokeTestPlan.expectedStatus).getD 200
        let res ← runScript host (.smokeHttp published.host path expect (startupWindow st))
        return res.output
      else do
        let res ← runScript host (.smokeTcp published.host (startupWindow st))
        return res.output

/-- `gatherDiag`; a smoke test only fails where there is a component. -/
def gatherDiag (host : DeployHost) (plan : FullAppPlan) : AppProg String := do
  let primary := (plan.components.find? fun c => c.name == plan.primary).orElse fun _ =>
    plan.components.head?
  let container := (primary.map fun c => containerName plan.name c.name).getD ""
  return jsTrim (← runScript host (.diag plan.name container)).output

/-- `probeAppData` -/
def probeAppData (host : DeployHost) (hp : HostDeployPlan) : AppProg HostAppData :=
  return parseDataProbe (← runScript host (.dataProbe hp.volumes hp.secretNames)).output

/-- `detailSuffix` -/
def detailSuffix (detail : String) : String :=
  let first := jsTrim (String.ofList ((detail.toList.splitOn '\n').head?.getD []))
  if first = "" then "" else ": " ++ first

/-- `runPostInstall`: the warnings, and the detail of the second smoke test. -/
def runPostInstall (env : AppEnv) (host : DeployHost) (plan : FullAppPlan) (hp : HostDeployPlan)
    (fqdn : Option String) : AppProg (List String × Option String) :=
  match env.postInstall plan fqdn with
  | [] => pure ([], none)
  | run :: runs => do
      let res ← runScript host (.postInstall (run :: runs) hp.services)
      let smoke ← runSmoke host plan hp
      let failed := res.output.failed.map fun f => "post-install step '" ++ f.1 ++ "' failed" ++ detailSuffix f.2
      let down := res.output.notActive.map fun s => s ++ " did not come back after the post-install restart"
      let silent := if smoke.ok then [] else
        ["the app did not answer after the post-install restart (" ++ smoke.detail ++ ")"]
      return (failed ++ down ++ silent, some smoke.detail)

/-! ## Rollback -/

/-- `reusedDataNote` -/
def reusedDataNote (pre : HostAppData) : String :=
  if pre.volumes = [] ∧ pre.secrets = [] then ""
  else
    let what := ", ".intercalate (pre.volumes.map ("volume " ++ ·) ++ pre.secrets.map ("secret " ++ ·))
    let commands := " && ".intercalate
      ((if pre.volumes = [] then [] else ["podman volume rm " ++ " ".intercalate pre.volumes]) ++
        if pre.secrets = [] then [] else ["podman secret rm " ++ " ".intercalate pre.secrets])
    s!"This install reused app data that was already on the host and was not created by it: {what}. " ++
      "A datadir left by an earlier install carries that install's credentials, so the app can fail on " ++
      "every retry with no other sign of why. To start from a clean datadir, run on the host: " ++
      s!"sudo sh -c '{commands}' — that DELETES the data."

/-- `appended` -/
def appended (note : String) : String := if note = "" then "" else "\n" ++ note

/-- What a rollback is given: `RollbackInput`, with the plan that the messages name. -/
structure GateInput extends RollbackInput where
  full : FullAppPlan

/-- `rollbackDeploy` -/
def rollbackDeploy (host : DeployHost) (input : RollbackInput) : AppProg Unit := do
  let _ ← runScript host (.rollback (Apps.rollbackDeploy input))
  pure ()

/-- `gateOrRollback` -/
def gateOrRollback (host : DeployHost) (input : GateInput) (res : ScriptResult (Except String Unit)) :
    AppProg SmokeOutcome :=
  let reused := appended (reusedDataNote input.preexisting)
  match res.output with
  | .error error => do
      rollbackDeploy host input.toRollbackInput
      let stderr := jsTrim res.stderr
      throw (.failed (jsTrim s!"Deploy failed ({error}). {stderr} Rolled back.{reused}"))
  | .ok () => do
      let smoke ← runSmoke host input.full input.hp
      if smoke.ok then pure smoke
      else do
        let diag ← gatherDiag host input.full
        let detail := smoke.detail
        let noRollback ← op .noRollback
        if noRollback then
          throw (.leftRunning
            s!"Smoke test failed ({detail}). Left running (VOPS_APP_NO_ROLLBACK).{reused}\n{diag}")
        else do
          rollbackDeploy host input.toRollbackInput
          throw (.failed s!"Smoke test failed ({detail}). Rolled back.{reused}\n{diag}")

/-! ## The ledger around a deploy -/

/-- `redeployBaseline` -/
def redeployBaseline (prev : Option AppInstall) : Option AppInstall :=
  prev.filter fun row => row.status == .deployed

/-- `{ ...install, status: 'installing' }` -/
def installing (row : AppInstall) : AppInstall := { row with status := .installing }

/-- `beginInstall` -/
def beginInstall (row : AppInstall) : AppProg Unit := saveInstall (installing row)

/-- `revertInstall` -/
def revertInstall (row : AppInstall) : Option AppInstall → AppProg Unit
  | some prev => saveInstall prev
  | none => do lift (← op (.deleteInstall row.host row.name))

/-- `withLedgerRevert` -/
def withLedgerRevert {α : Type} (row : AppInstall) (prev : Option AppInstall) (run : AppProg α) :
    AppProg α :=
  tryCatch run fun e =>
    match e with
    | .leftRunning _ => throw e
    | .failed _ => do
        revertInstall row prev
        throw e

/-- `withDnsCleanup` -/
def withDnsCleanup {α : Type} (dns : Option EnsuredRecord) (run : AppProg α) : AppProg α :=
  tryCatch run fun e => do
    discardDnsRecord dns
    throw e

/-! ## A deploy -/

/-- `portReservations`, of the rows that are listed. -/
def reservationsOf (siblings : List AppInstall) (appName : String) (prev : Option AppInstall) :
    PortReservations where
  own := Record.ofEntries (((prev.map fun row => row.components).getD []).map fun c => (c.name, c.published))
  others := (siblings.filter fun i => i.name != appName && i.status != .removed).flatMap fun i =>
    i.endpoints.map AppEndpoint.port

/-- `ensureIngressUp` -/
def ensureIngressUp (host : DeployHost) (email : Option String) : AppProg Unit := do
  let st ← VopsIngress.status host.name
  if st.active && st.health == 200 then pure () else up host.name email none

/-- `secretReuseWarnings` -/
def secretReuseWarnings (plan : FullAppPlan) (set : Overrides) (prev : Option AppInstall) : List String :=
  let reused := set.keys.filter fun key => plan.secrets.any fun s => s.target == key
  if prev.isNone || reused.isEmpty then []
  else
    let names := ", ".intercalate reused
    [s!"{names} already exists from a prior install — the new value is ignored (podman never replaces a " ++
      "secret). Remove with `--purge` then reinstall to change it."]

/-- `applyIngressScheme` -/
def applyIngressScheme (endpoints : List AppEndpoint) (ingress : AppIngressState) : List AppEndpoint :=
  let served := if ingress.tls then "https://" else "http://"
  let stale := if ingress.tls then "http://" else "https://"
  endpoints.map fun e =>
    if e.reach = .ingress ∧ stale.toList.isPrefixOf e.url.toList then
      { e with url := served ++ String.ofList (e.url.toList.drop stale.length) }
    else e

/-- What a deploy answers: `DeployPlanView` or `DeployResult`. -/
inductive DeployAnswer
  | plan (decision : DeployDecision) (dns : Option String)
  | done (row : AppInstall) (smoke : String) (note : Option String) (warnings : List String)

/-- What is known when the host is about to be touched. -/
structure DeployStart where
  env : AppEnv
  opts : DeployOptions
  facts : PreflightFacts
  prev : Option AppInstall
  decision : DeployDecision

namespace DeployStart

variable (d : DeployStart)

/-- `host` -/
def host : DeployHost := d.decision.host

/-- `install` -/
def row : AppInstall := d.decision.install

/-- `opts.ingress?.email` -/
def email : Option String := d.opts.ingress.bind IngressDeployOptions.email

/-- `registry` -/
def registry : Option RegistryLogin := resolveRegistryLogin d.decision.plan d.opts.registry

/-- `quadletGenerator` -/
def generator : String := d.facts.quadletGenerator.getD ""

/-- What `rollbackDeploy` is given. -/
def gateInput (preexisting : HostAppData) : GateInput where
  plan := d.decision.bound
  hp := d.decision.hp
  prev := (redeployBaseline d.prev).map AppInstall.toAppInstallV1
  generator := d.generator
  preexisting := preexisting
  full := d.decision.plan

end DeployStart

/-- `ensureDnsRecord`, where there is a domain. -/
def ensureRecord (d : DeployStart) : AppProg (Option EnsuredRecord) :=
  match d.decision.resolution with
  | some r => ensureDnsRecord d.env d.host r.hostname d.opts.binding.forceDns
  | none => pure none

/-- The data that was there before: only what a first install could strand is asked for. -/
def existingData (d : DeployStart) : AppProg HostAppData :=
  match redeployBaseline d.prev with
  | some _ => pure UNPROBED_DATA
  | none => probeAppData d.host d.decision.hp

/-- The ingress, where there is a domain. -/
def ensureIngress (d : DeployStart) : AppProg Unit :=
  match d.decision.resolution with
  | some _ => ensureIngressUp d.host d.email
  | none => pure ()

/-- The ingress and the images are there before a unit starts. -/
def provision (d : DeployStart) : AppProg Unit := do
  ensureIngress d
  pullImages d.host (d.decision.plan.components.map FullComponentPlan.image) d.registry

/-- The app is built. -/
def build (d : DeployStart) (preexisting : HostAppData) : AppProg SmokeOutcome := do
  provision d
  let res ← runScript d.host (.deploy (buildDeployScript (deployInput d.decision.hp d.generator d.registry)))
  gateOrRollback d.host (d.gateInput preexisting) res

/-- The half of a deploy that touches the host: the record goes in first. -/
def mutateHost (d : DeployStart) : AppProg (SmokeOutcome × Option EnsuredRecord) := do
  let record ← ensureRecord d
  let preexisting ← existingData d
  let smoke ← withDnsCleanup record (build d preexisting)
  return (smoke, record)

/-- The row of an install that is routed. -/
def routedRow (row : AppInstall) (state : AppIngressState) : AppInstall :=
  { row with ingress := some state, endpoints := applyIngressScheme row.endpoints state }

/-- The route is attached and recorded. -/
def attach (d : DeployStart) (dns : Option EnsuredRecord) : AppProg (AppInstall × Option AttachResult) :=
  match d.decision.resolution with
  | none => pure (d.row, none)
  | some r => do
      let attached ← attachRoute d.host d.row r d.decision.gate dns
      saveInstall (routedRow d.row attached.state)
      return (routedRow d.row attached.state, some attached)

/-- A deploy from the claim of its row on. -/
def runDeploy (d : DeployStart) (dnsWarning : Option String) : AppProg DeployAnswer := do
  beginInstall d.row
  let (smoke, dns) ← withLedgerRevert d.row d.prev (mutateHost d)
  saveInstall d.row
  appendAudit "app.deploy"
  let (row, attached) ← attach d dns
  let (warnings, detail) ← runPostInstall d.env d.host d.decision.plan d.decision.hp
    (attached.map fun a => a.state.hostname)
  let publish := resolvePublishIntent d.opts.publicly d.prev
  return .done row (detail.getD smoke.detail) (attached.map AttachResult.note)
    (d.decision.plan.warnings ++ secretReuseWarnings d.decision.plan d.opts.set d.prev ++
      publish.2.toList ++ warnings ++ dnsWarning.toList)

/-- `checkDns` -/
def checkDns (env : AppEnv) (d : DeployDecision) (opts : DeployOptions) : AppProg (Option String) :=
  match d.resolution with
  | some r => preflightDns env d.host r.hostname opts.binding.forceDns opts.dryRun
  | none => pure none

/-- What a deploy reads of a host before it decides. -/
def readHost (hostName : String) : AppProg (DeployHost × PreflightFacts) := do
  let host ← showHost hostName
  assertHostWritable host
  assertReady hostName
  resolveSshTarget host
  let facts ← preflight hostName
  let issues := " ".intercalate (readiness facts)
  require (readiness facts).isEmpty s!"Host '{hostName}' is not ready for apps: {issues}"
  return (host, facts)

/-- `deploy` -/
def deploy (env : AppEnv) (source : DeploySource) (hostName : String) (opts : DeployOptions) :
    AppProg DeployAnswer := do
  let (host, facts) ← readHost hostName
  let plan ← lift (env.loadAppPlan source opts.name)
  let prev ← lift (← op (.getInstall host.name plan.name))
  let siblings ← lift (← op (.listInstalls host.name))
  let decision ← lift (decideDeploy env.crypt plan facts.toHostFacts host opts prev
    (reservationsOf siblings plan.name prev))
  let dnsWarning ← checkDns env decision opts
  if opts.dryRun then pure (.plan decision dnsWarning)
  else runDeploy ⟨env, opts, facts, prev, decision⟩ dnsWarning

/-! ## Installs -/

/-- `pickInstall` -/
def pickInstall (name : String) (host : Option String) (found : List AppInstall) :
    Except String AppInstall :=
  let hosts := ", ".intercalate (found.map fun i => i.host)
  match found, truthyText host with
  | [], _ => .error s!"No app install named '{name}'."
  | [row], none => .ok row
  | rows, none =>
      let count := rows.length
      .error s!"'{name}' is installed on {count} hosts ({hosts}) — vops will not guess which one you mean."
  | rows, some host =>
      match rows.find? fun i => i.host == host with
      | some row => .ok row
      | none => .error s!"No app install named '{name}' on host '{host}'."

/-- `resolveInstall` -/
def resolveInstall (name : String) (host : Option String) : AppProg AppInstall := do
  lift (pickInstall name host (← lift (← op (.findInstalls name))))

/-! ## Expose and unexpose -/

/-- `expose` -/
def expose (env : AppEnv) (name : String) (o : IngressDeployOptions) (host : Option String) :
    AppProg DeployAnswer := do
  let row ← resolveInstall name host
  let on := row.host
  require (env.inCatalog row.appId) (s!"'{name}' was not deployed from the catalog — re-run `vops app deploy " ++
    s!"-f <flui.yaml> --host {on} --domain <host> --yes` to expose it.")
  match truthyText (o.domain.orElse fun _ => row.ingress.map AppIngressState.hostname) with
  | none => throw (.failed "Pass --domain <host> (or --domain auto for an sslip.io demo host).")
  | some domain => deploy env ⟨some row.appId, none, none⟩ row.host (exposeOptions row o domain false)

/-- `ingressHostPorts` -/
def ingressHostPorts (ingress : Option AppIngressState) : List ℤ :=
  match ingress with
  | none => []
  | some i => i.hostPort :: i.routes.map AppIngressRoute.hostPort

/-- `text.replace(word, other)`: the first occurrence. -/
def replaceFirst (word other : List Char) (text : List Char) : List Char :=
  match TextSearch.indexOf word text with
  | none => text
  | some i => text.take i ++ other ++ text.drop (i + word.length)

/-- The bind of a host port in a unit is flipped. -/
def flipPort (text : List Char) (host : ℤ) : List Char :=
  replaceFirst ("PublishPort=127.0.0.1:" ++ toString host ++ ":").toList
    ("PublishPort=0.0.0.0:" ++ toString host ++ ":").toList text

/-- `flipBind`, of one unit. -/
def flipUnit (hostPorts : List ℤ) (content : String) : String :=
  String.ofList (hostPorts.foldl flipPort content.toList)

/-- `flipBind` -/
def flipBind (units : Record String) (hostPorts : List ℤ) : Record String :=
  Record.ofEntries (units.entries.map fun e => (e.1, flipUnit hostPorts e.2))

/-- `rebindEndpoints` -/
def rebindEndpoints (row : AppInstall) (hostAddress : String) (reach : Reach) : List AppEndpoint :=
  row.endpoints.map fun e =>
    let port := e.port
    if port ∈ ingressHostPorts row.ingress then
      ⟨e.component, port, s!"http://{hostAddress}:{port}", reach⟩
    else e

/-- The install whose route was dropped, for a host at that address. -/
def unexposed (row : AppInstall) (address : String) : AppInstall :=
  if row.publish = some .publicly then
    { row with
      units := flipBind row.units (ingressHostPorts row.ingress)
      endpoints := rebindEndpoints row address .publicly
      ingress := none }
  else
    { row with
      endpoints := rebindEndpoints row LOOPBACK_BIND .loopback
      ingress := none }

/-- `unexposeApp` -/
def unexposeApp (name : String) (onHost : Option String) : AppProg (List AppEndpoint) := do
  let row ← resolveInstall name onHost
  let host ← showHost row.host
  assertHostWritable host
  require row.ingress.isSome s!"'{name}' is not exposed via ingress."
  assertReady row.host
  resolveSshTarget host
  let next := unexposed row host.address
  let facts ← preflight row.host
  let _ ← runScript host (.rebind (buildDeployScript
    (restoreInput { row.toAppInstallV1 with units := next.units } (facts.quadletGenerator.getD ""))))
  cleanupForRemoval host row
  saveInstall next
  appendAudit "app.unexpose"
  return next.endpoints

/-! ## Removal -/

/-- `forgetOrphan` -/
def forgetOrphan (row : AppInstall) (dryRun : Bool) : AppProg Bool :=
  if dryRun then pure false
  else do
    lift (← op (.deleteInstall row.host row.name))
    appendAudit "app.forget"
    pure true

/-- `removeApp`: the install was removed or forgotten. -/
def removeApp (name : String) (purge dryRun : Bool) (onHost : Option String) : AppProg Bool := do
  let row ← resolveInstall name onHost
  match ← op (.getHost row.host) with
  | none => forgetOrphan row dryRun
  | some host => do
      assertHostWritable host
      if dryRun then pure false
      else do
        cleanupForRemoval host row
        resolveSshTarget host
        let _ ← runScript host (.remove (Apps.removeApp row.toAppInstallV1 purge))
        lift (← op (.deleteInstall row.host row.name))
        appendAudit "app.remove"
        pure true

end Vops.Apps.VopsApps
