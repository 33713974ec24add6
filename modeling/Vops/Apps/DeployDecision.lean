import Vops.Apps.IngressRender
import Vops.Apps.InstallLedger

/-!
# What a deploy decides (`apps/ingress-auth.ts`, `apps/app-deploy-view.ts`, `apps/vops-apps.service.ts`)

* `AppIngressState`, `AppInstall` — a row of the ledger, with its ingress, credentials and publish intent.
* `resolveDeployGate` — the login gate.
* `resolvePublishIntent` — where the ports are bound.
* `decideDeploy` — everything that is decided before the host is touched.
* `DeployDecision.install`, `DeployDecision.routes` — the row that is claimed, the routes that are attached.

The password generator and `bcrypt` are parameters.
-/

/-!
## The plan of a deploy (`apps/app-deploy-support.ts`, `resolveBinding` of `apps/vops-ingress.service.ts`)

* `FullAppPlan` — a plan with all that a deploy reads, and `FullAppPlan.bound`, what is bound to the host.
* `applyOverrides`, `assertSecretsSatisfied`, `pruneUnsetOptional`, `refreshAccessValues` — its inputs.
* `resolveHostname`, `resolveBinding` — the hostname and the routes.

Post-install steps are left out.
-/

namespace Vops.Apps

open AuthorizedKeys (trim)

/-! ## Plans -/

/-- `AppEnvPlain` -/
structure FullEnvPlain extends AppEnvPlain where
  required : Bool
  group : Option String
deriving DecidableEq

/-- `AppSecretPlan` -/
structure FullSecretPlan extends AppSecretPlan where
  optional : Bool
  group : Option String
deriving DecidableEq

/-- `AppComponentPlan`; its container is named after it. -/
structure FullComponentPlan where
  name : String
  image : String
  env : List FullEnvPlain
  secrets : List FullSecretPlan
  ports : List (AppPortPlan × Option PortRoutePlan)
  volumes : List AppVolumePlan
  cpu : Option String
  memory : Option String
  health : Option AppHealthPlan
  dependsOn : List String
  command : Option (List String)

/-- `AppDomainPlan.certChallenge` -/
inductive CertChallenge
  | http01 | dns01
deriving DecidableEq

/-- `AppDomainPlan.provider` -/
inductive CertProvider
  | letsEncrypt | letsEncryptStaging
deriving DecidableEq

/-- `AppDomainPlan` -/
structure AppDomainPlan where
  tls : Bool
  certChallenge : CertChallenge
  provider : CertProvider
deriving DecidableEq

/-- `AppAccessMode` -/
inductive AppAccessMode
  | credentials | firstVisit | none
deriving DecidableEq

/-- `AppAccessPart`: a value, with the variable that it came from, or the name of a secret. -/
inductive AppAccessPart
  | value (value : String) (envName : Option String)
  | userSet (secret : String)
  | generated (secret : String)
deriving DecidableEq

/-- `AppAccessPlan` -/
structure AppAccessPlan where
  mode : AppAccessMode
  path : String
  username : Option AppAccessPart
  password : Option AppAccessPart
  note : Option String
deriving DecidableEq

/-- `AppAuthMode` -/
inductive AppAuthMode
  | oidc | proxy | native | none
deriving DecidableEq

/-- `AppExposure` -/
inductive AppExposure
  | publicly | internal
deriving DecidableEq

/-- `SmokeTestPlan.type` -/
inductive SmokeTestType
  | http | tcp | script | skip
deriving DecidableEq

/-- `SmokeTestPlan` -/
structure SmokeTestPlan where
  type : SmokeTestType
  path : Option String
  expectedStatus : Option ℤ
  timeoutSeconds : Option ℤ
  retries : Option ℤ
  reason : Option String
deriving DecidableEq

/-- `AppPlan` -/
structure FullAppPlan where
  name : String
  appId : String
  pod : Option String
  components : List FullComponentPlan
  primary : String
  smokeTest : Option SmokeTestPlan
  domain : Option AppDomainPlan
  needsAppDomain : Bool
  access : Option AppAccessPlan
  authMode : Option AppAuthMode
  exposure : Option AppExposure
  warnings : List String

/-- What is bound to the host of a component. -/
def FullComponentPlan.bound (app : String) (c : FullComponentPlan) : AppComponentPlan where
  name := c.name
  container := containerName app c.name
  image := c.image
  env := c.env.map FullEnvPlain.toAppEnvPlain
  secrets := c.secrets.map FullSecretPlan.toAppSecretPlan
  ports := c.ports.map Prod.fst
  volumes := c.volumes
  cpu := c.cpu
  memory := c.memory
  health := c.health
  dependsOn := c.dependsOn
  command := c.command

/-- What is bound to the host of a plan. -/
def FullAppPlan.bound (plan : FullAppPlan) : AppPlan where
  name := plan.name
  pod := plan.pod
  components := plan.components.map (FullComponentPlan.bound plan.name)
  primary := plan.primary
  needsAppDomain := plan.needsAppDomain
  warnings := plan.warnings

/-! ## Inputs -/

/-- `opts.set` -/
abbrev Overrides := Record String

/-- A variable under `--set`; a name that every object inherits is not one of `set`. -/
def FullEnvPlain.override (set : Overrides) (e : FullEnvPlain) : FullEnvPlain :=
  { e with value := (set.get? e.name).getD e.value }

/-- A secret under `--set`: a generated one stays as it is. -/
def FullSecretPlan.override (set : Overrides) (s : FullSecretPlan) : FullSecretPlan :=
  match set.get? s.target, s.generate with
  | some v, none => { s with value := some v }
  | _, _ => s

/-- `applyOverrides` -/
def applyOverrides (plan : FullAppPlan) (set : Overrides) : FullAppPlan :=
  { plan with components := plan.components.map fun comp =>
    { comp with
      secrets := comp.secrets.map (FullSecretPlan.override set)
      env := comp.env.map (FullEnvPlain.override set) } }

/-- The secrets of a plan. -/
def FullAppPlan.secrets (plan : FullAppPlan) : List FullSecretPlan :=
  plan.components.flatMap FullComponentPlan.secrets

/-- The plain variables of a plan. -/
def FullAppPlan.env (plan : FullAppPlan) : List FullEnvPlain :=
  plan.components.flatMap FullComponentPlan.env

/-- `!!s.value` -/
def FullSecretPlan.filled (s : FullSecretPlan) : Bool := (truthyText s.value).isSome

/-- A secret that is generated or has a value. -/
def FullSecretPlan.provided (s : FullSecretPlan) : Bool := s.generate.isSome || s.filled

/-- A secret of that name is generated or has a value, in some component. -/
def FullAppPlan.provides (plan : FullAppPlan) (name : String) : Bool :=
  plan.secrets.any fun s => s.provided && s.name == name

/-- `pruneUnsetOptional` -/
def pruneUnsetOptional (plan : FullAppPlan) : FullAppPlan :=
  let drop := (plan.secrets.filter fun s => s.optional && !plan.provides s.name).map fun s => s.name
  { plan with components := plan.components.map fun comp =>
    { comp with secrets := comp.secrets.filter fun s => s.name ∉ drop } }

/-- A secret that must be given and is not. -/
def FullAppPlan.missesSecret (plan : FullAppPlan) (s : FullSecretPlan) : Bool :=
  !s.provided && !s.optional && !plan.provides s.name

/-- A plain variable that must be given and is not. -/
def FullEnvPlain.missing (e : FullEnvPlain) : Bool := e.required && e.value == ""

/-- The names of the inputs that are missing. -/
def FullAppPlan.missingInputs (plan : FullAppPlan) : List String :=
  unique (((plan.secrets.filter plan.missesSecret).map fun s => s.target) ++
    (plan.env.filter FullEnvPlain.missing).map fun e => e.name)

/-- The members of the input groups: the group, the key, and whether it has a value. -/
def FullAppPlan.groupMembers (plan : FullAppPlan) : List (String × String × Bool) :=
  plan.secrets.filterMap (fun s => (truthyText s.group).map fun g => (g, s.target, s.filled)) ++
    plan.env.filterMap fun e => (truthyText e.group).map fun g => (g, e.name, e.value != "")

/-- The input groups of which no member has a value. -/
def FullAppPlan.unfilledGroups (plan : FullAppPlan) : List String :=
  (unique (plan.groupMembers.map Prod.fst)).filter fun g =>
    plan.groupMembers.all fun m => !(m.1 == g && m.2.2)

/-- `--set` for some names. -/
def setFlags (separator : String) (names : List String) : String :=
  separator.intercalate (names.map fun t => "--set " ++ t ++ "=…")

/-- `assertGroupsSatisfied` -/
def assertGroupsSatisfied (plan : FullAppPlan) : Except String Unit :=
  match plan.unfilledGroups with
  | [] => .ok ()
  | group :: _ =>
      let keys := unique ((plan.groupMembers.filter fun m => m.1 == group).map fun m => m.2.1)
      .error ("Missing required input group \"" ++ group ++ "\": provide at least one of " ++
        setFlags " | " keys)

/-- `assertSecretsSatisfied` -/
def assertSecretsSatisfied (plan : FullAppPlan) : Except String Unit :=
  if plan.missingInputs ≠ [] then
    .error ("Missing required inputs: pass " ++ setFlags " " plan.missingInputs)
  else assertGroupsSatisfied plan

/-- The variable that a part of the credentials is read from. -/
def AppAccessPart.source (plan : FullAppPlan) : AppAccessPart → Option FullEnvPlain
  | value _ envName => (truthyText envName).bind fun name => plan.env.find? fun e => e.name == name
  | _ => none

/-- A part of the credentials, with the value that its variable now has. -/
def refreshPart (plan : FullAppPlan) (part : AppAccessPart) : AppAccessPart :=
  match part, part.source plan with
  | .value _ envName, some e => .value e.value envName
  | part, _ => part

/-- `refreshAccessValues` -/
def refreshAccessValues (plan : FullAppPlan) : FullAppPlan :=
  { plan with access := plan.access.map fun a =>
    { a with
      username := a.username.map (refreshPart plan)
      password := a.password.map (refreshPart plan) } }

/-- A dry run does not ask for the inputs. -/
def checkInputs (plan : FullAppPlan) (dryRun : Bool) : Except String Unit :=
  if dryRun then .ok () else assertSecretsSatisfied plan

/-- What a deploy makes of the plan of its manifest. -/
def preparePlan (plan : FullAppPlan) (set : Overrides) (dryRun : Bool) :
    Except String FullAppPlan := do
  checkInputs (applyOverrides plan set) dryRun
  return refreshAccessValues (pruneUnsetOptional (applyOverrides plan set))

/-! ## Binding -/

/-- `VopsHost` -/
structure DeployHost where
  name : String
  address : String
deriving DecidableEq

/-- `BindingOptions` -/
structure BindingOptions where
  domain : Option String
  tls : Option Bool
  staging : Bool
  exposeDirect : Bool
  forceDns : Bool
deriving DecidableEq

/-- `BindingResolution`, with the routes of its binding. -/
structure BindingResolution where
  hostname : String
  tls : Bool
  exposeDirect : Bool
  routes : List RoutePort
  staging : Bool
  sslip : Bool
  warnings : List String

/-- `resolution.binding` -/
def BindingResolution.binding (r : BindingResolution) : IngressBinding where
  hostname := r.hostname
  tls := r.tls
  exposeDirect := r.exposeDirect
  routes := r.routes.map fun p => ⟨p.component, p.containerPort, p.path⟩

/-- `text.toLowerCase()` -/
def toLowerCase (text : String) : String := String.ofList (text.toList.flatMap lowerChar)

/-- One to three digits, at most 255. -/
def isOctet (text : List Char) : Bool :=
  text ≠ [] && text.length ≤ 3 && text.all Char.isDigit &&
    digitsValue 10 (text.map fun c => c.toNat - 48) ≤ 255

/-- `sslipHostname` -/
def sslipHostname (ip installName : String) : Except String String :=
  let octets := (trim ip.toList).splitOn '.'
  if octets.length = 4 ∧ octets.all isOctet then
    let base := "-".intercalate (octets.map String.ofList) ++ ".sslip.io"
    if installName = "" then .ok base
    else (sanitize installName).map fun name => name ++ "." ++ base
  else .error s!"Cannot derive an sslip.io hostname from '{ip}' (need an IPv4 address)."

/-- `isSslip` -/
def isSslip (hostname : String) : Bool :=
  let text := hostname.toList.map Char.toLower
  ".sslip.io".toList.isSuffixOf text || ".nip.io".toList.isSuffixOf text

/-- `[a-z0-9]([a-z0-9-]{0,61}[a-z0-9])?` -/
def isHostLabel (label : List Char) : Bool :=
  1 ≤ label.length && label.length ≤ 63 && label.all (fun c => isAsciiAlnum c || c == '-') &&
    label.head?.all isAsciiAlnum && label.getLast?.all isAsciiAlnum

/-- `isValidFqdn` -/
def isValidFqdn (text : String) : Bool :=
  let labels := text.toList.splitOn '.'
  let tld := labels.getLast?.getD []
  2 ≤ labels.length && text.length ≤ 253 && labels.dropLast.all isHostLabel &&
    2 ≤ tld.length && tld.length ≤ 63 && tld.all Char.isAlpha

/-- `assertValidHostname` -/
def assertValidHostname (text : String) : Except String String :=
  let h := toLowerCase (jsTrim text)
  if isValidFqdn h then .ok h
  else .error s!"Invalid domain '{text}'. Expected a hostname like app.example.com."

/-- `resolveHostname`: the hostname, and the warnings. -/
def resolveHostname (domain : String) (host : DeployHost) (installName : String) :
    Except String (String × List String) :=
  if domain = "auto" then do
    let name ← sslipHostname host.address installName
    return (name, [s!"No --domain given → using {name} (sslip.io demo domain)."])
  else (assertValidHostname domain).map fun h => (h, [])

/-- The components of a plan, with the routes of their ports. -/
def FullAppPlan.routed (plan : FullAppPlan) : List RoutedComponent :=
  plan.components.map fun c => ⟨c.name, c.ports⟩

/-- A domain needs a route. -/
def assertRouted (app : String) (routes : List RoutePort) : Except String Unit :=
  if routes = [] then .error s!"'{app}' exposes no HTTP port to route — a domain needs an HTTP endpoint."
  else .ok ()

/-- `resolveBinding`: none without a domain. -/
def resolveBinding (plan : FullAppPlan) (host : DeployHost) (opts : BindingOptions) :
    Except String (Option BindingResolution) :=
  match truthyText opts.domain with
  | none => .ok none
  | some domain => do
      let routes ← routedPorts plan.name plan.primary plan.routed
      assertRouted plan.name routes
      let (hostname, warnings) ← resolveHostname domain host plan.name
      let tls := (opts.tls.orElse fun _ => plan.domain.map AppDomainPlan.tls).getD true
      let staging := opts.staging ||
        plan.domain.map AppDomainPlan.provider == some .letsEncryptStaging
      return some {
        hostname := hostname
        tls := tls
        exposeDirect := opts.exposeDirect
        routes := routes
        staging := staging
        sslip := isSslip hostname
        warnings := warnings ++
          (if plan.domain.map AppDomainPlan.certChallenge == some .dns01 then
            ["certChallenge dns-01 is not supported — using http-01 (no wildcard)."] else []) ++
          (if isSslip hostname && tls && !staging then
            ["sslip.io shares one Let’s Encrypt rate-limit bucket — certificates are best-effort. " ++
              "Use --domain <your-domain> for reliable TLS."] else []) }

/-- `internalExposureWarnings` -/
def internalExposureWarnings (plan : FullAppPlan) (hostname : Option String) : List String :=
  match hostname with
  | none => []
  | some hostname =>
      if plan.exposure = some .internal then
        let name := plan.name
        [s!"{name}: its manifest declares `exposure: internal` — the app is meant to be reached only from " ++
          s!"the host. vops does NOT enforce that: {hostname} is being published anyway, so the app answers " ++
          "from the internet and its hostname appears in public certificate transparency logs. The " ++
          "declaration is advisory. To keep it host-local, deploy without --domain and reach it over " ++
          s!"`ssh -L`, or run `vops app unexpose {name}` to drop the route."]
      else []

end Vops.Apps

namespace Vops.Apps

/-! ## Rows -/

/-- `AppIngressAuthState` -/
structure AppIngressAuthState where
  user : String
  secret : String
  hash : String
deriving DecidableEq

/-- `IngressDnsRecord` -/
structure IngressDnsRecord where
  provider : String
  zoneId : String
  zoneName : String
  recordId : String
  name : String
deriving DecidableEq

/-- `AppIngressRoute` -/
structure AppIngressRoute where
  component : String
  containerPort : ℤ
  hostPort : ℤ
  path : String
  stripPrefix : Bool
deriving DecidableEq

/-- `AppIngressState` -/
structure AppIngressState where
  hostname : String
  tls : Bool
  staging : Bool
  component : String
  hostPort : ℤ
  routes : List AppIngressRoute
  exposeDirect : Bool
  certResolver : String
  routeFile : String
  dns : Option IngressDnsRecord
  auth : Option AppIngressAuthState
deriving DecidableEq

/-- `AppInstallV1` -/
structure AppInstall extends AppInstallV1 where
  host : String
  appId : String
  ingress : Option AppIngressState
  access : Option AppAccessPlan
  publish : Option PublishIntent

/-! ## The login gate -/

/-- `IngressAuthMode` -/
inductive IngressAuthMode
  | none | basic
deriving DecidableEq

/-- `IngressAuthIntent` -/
structure IngressAuthIntent where
  mode : IngressAuthMode
  user : Option String
  pass : Option String
deriving DecidableEq

/-- `IngressGate` -/
structure IngressGate where
  routeAuth : RouteAuth
  secret : Option (String × String)
  state : AppIngressAuthState
  generated : Bool
deriving DecidableEq

/-- `crypto.randomBytes` as a password, and `bcrypt.hashSync`. -/
structure Crypt where
  password : String
  hashSync : String → String

/-- `ResolveGateInput` -/
structure ResolveGateInput where
  hasIngress : Bool
  accessMode : Option AppAccessMode
  authMode : Option AppAuthMode
  intent : Option IngressAuthIntent
  prevAuth : Option AppIngressAuthState
deriving DecidableEq

/-- `ingressAuthSecretName` -/
def ingressAuthSecretName (app : String) : String := s!"vops-{app}-ingress-auth"

/-- `checkedUser` -/
def checkedUser (user : Option String) (fallback : String) : Except String String :=
  let u := jsTrim (user.getD fallback)
  if isAuthUser u then .ok u
  else .error s!"Invalid --auth-user '{u}' — allowed: letters, digits, and . _ - (max 32)."

/-- `resolveIngressAuth`, of the mode `basic` -/
def resolveIngressAuth (crypt : Crypt) (app : String) (intent : IngressAuthIntent) :
    Except String IngressGate := do
  let user ← checkedUser intent.user "admin"
  let plaintext := (truthyText intent.pass).getD crypt.password
  let hash := crypt.hashSync plaintext
  let secret := ingressAuthSecretName app
  return ⟨⟨user, hash⟩, some (secret, plaintext), ⟨user, secret, hash⟩, (truthyText intent.pass).isNone⟩

/-- `keptGate` -/
def keptGate (i : ResolveGateInput) (intent : IngressAuthIntent) :
    Except String (Option IngressGate) :=
  match i.prevAuth with
  | none => .ok none
  | some prev =>
      if (truthyText intent.pass).isSome then .ok none
      else (checkedUser intent.user prev.user).map fun user =>
        some ⟨⟨user, prev.hash⟩, none, { prev with user := user }, false⟩

/-- `nakedReason` -/
def nakedReason (i : ResolveGateInput) : Option String :=
  if i.accessMode = some .firstVisit then
    some ("it hands admin to the first visitor of its public URL, and certificate transparency logs " ++
      "publish that hostname within seconds")
  else if i.authMode = some .none ∧ i.accessMode ≠ some .credentials then
    some ("it has no login of its own — anyone who reaches its public URL is inside it, and certificate " ++
      "transparency logs publish that hostname within seconds")
  else none

/-- `WAYS_OUT` -/
def WAYS_OUT : String :=
  "Re-run with --auth basic to put a login gate in front, --auth none to expose it with no login at all, " ++
    "or drop --domain to keep it on the host."

/-- `assertAuthChoice` -/
def assertAuthChoice (app : String) (i : ResolveGateInput) : Except String Unit :=
  match nakedReason i with
  | none => .ok ()
  | some reason => .error s!"Refusing to expose '{app}' on a public domain: {reason}. {WAYS_OUT}"

/-- `resolveDeployGate` -/
def resolveDeployGate (crypt : Crypt) (app : String) (i : ResolveGateInput) :
    Except String (Option IngressGate) :=
  match i.intent with
  | some intent =>
      match intent.mode with
      | .basic =>
          if !i.hasIngress then
            .error ("--auth basic gates the ingress — add --domain (or --domain auto) so there is " ++
              "something to gate.")
          else do
            match ← keptGate i intent with
            | some kept => return some kept
            | none => return some (← resolveIngressAuth crypt app intent)
      | .none => .ok none
  | none =>
      if i.hasIngress then
        match i.prevAuth with
        | some prev => .ok (some ⟨⟨prev.user, prev.hash⟩, none, prev, false⟩)
        | none => (assertAuthChoice app i).map fun _ => none
      else .ok none

/-! ## The publish intent -/

/-- `hasPublicBind` -/
def hasPublicBind (install : AppInstall) : Bool :=
  install.components.any fun c => c.published.any fun p => p.bind == PUBLISH_BIND

/-- `resolvePublishIntent`: the intent, and a warning. -/
def resolvePublishIntent (explicit : Option Bool) (prev : Option AppInstall) :
    PublishIntent × Option String :=
  match explicit with
  | some true => (.publicly, none)
  | some false => (.loopback, none)
  | none =>
      match prev with
      | none => (.loopback, none)
      | some prev =>
          match prev.publish with
          | some publish => (publish, none)
          | none =>
              if hasPublicBind prev then
                let name := prev.name
                (.publicly, some (s!"{name} keeps its public 0.0.0.0 binding (reachable from any network the " ++
                  "host is on, bypassing the host firewall). Redeploy with `--no-public` to make it " ++
                  "local-only."))
              else (.loopback, none)

/-! ## A deploy -/

/-- `IngressDeployOptions` -/
structure IngressDeployOptions extends BindingOptions where
  email : Option String
  auth : Option IngressAuthIntent
deriving DecidableEq

/-- `DeployOptions`; `publicly` is `public`. -/
structure DeployOptions where
  name : Option String
  set : Overrides
  dryRun : Bool
  ingress : Option IngressDeployOptions
  publicly : Option Bool
  registry : Option (String × String)

/-- `opts.ingress ?? {}` -/
def DeployOptions.binding (opts : DeployOptions) : BindingOptions :=
  (opts.ingress.map IngressDeployOptions.toBindingOptions).getD ⟨none, none, false, false, false⟩

/-- `opts.ingress?.auth` -/
def DeployOptions.auth (opts : DeployOptions) : Option IngressAuthIntent :=
  opts.ingress.bind IngressDeployOptions.auth

/-- What `expose` asks a deploy for. -/
def exposeOptions (row : AppInstall) (o : IngressDeployOptions) (domain : String) (dryRun : Bool) :
    DeployOptions :=
  ⟨some row.name, .empty, dryRun, some { o with domain := some domain }, none, none⟩

/-- What a deploy has decided. -/
structure DeployDecision where
  host : DeployHost
  plan : FullAppPlan
  resolution : Option BindingResolution
  gate : Option IngressGate
  publish : PublishIntent
  bound : AppPlan
  hp : HostDeployPlan

/-- `resolveGate` -/
def resolveGate (crypt : Crypt) (plan : FullAppPlan) (resolution : Option BindingResolution)
    (intent : Option IngressAuthIntent) (prev : Option AppInstall) :
    Except String (Option IngressGate) :=
  resolveDeployGate crypt plan.name {
    hasIngress := resolution.isSome
    accessMode := plan.access.map AppAccessPlan.mode
    authMode := plan.authMode
    intent := intent
    prevAuth := (prev.bind AppInstall.ingress).bind AppIngressState.auth }

/-- What `deploy` decides about a plan on a host, given the previous install and the reserved ports. -/
def decideDeploy (crypt : Crypt) (plan : FullAppPlan) (facts : HostFacts) (host : DeployHost)
    (opts : DeployOptions) (prev : Option AppInstall) (reservations : PortReservations) :
    Except String DeployDecision := do
  let plan ← preparePlan plan opts.set opts.dryRun
  let resolution ← resolveBinding plan host opts.binding
  let hostname := resolution.map BindingResolution.hostname
  let plan := { plan with warnings := plan.warnings ++ internalExposureWarnings plan hostname }
  let gate ← resolveGate crypt plan resolution opts.auth prev
  let publish := (resolvePublishIntent opts.publicly prev).1
  let (bound, hp) ← planHostDeploy plan.bound facts host.address
    (resolution.map BindingResolution.binding) publish (some reservations)
  return ⟨host, plan, resolution, gate, publish, bound, hp⟩

/-- `toInstall`, with the publish intent and the secret of the gate. -/
def DeployDecision.install (d : DeployDecision) : AppInstall where
  toAppInstallV1 :=
    let row := toInstall d.bound d.hp
    match d.gate with
    | some gate => { row with secrets := unique (row.secrets ++ [gate.state.secret]) }
    | none => row
  host := d.host.name
  appId := d.plan.appId
  ingress := none
  access := d.plan.access
  publish := some d.publish

/-- `resolveRoutes`: the routes of the binding, with their host ports. -/
def DeployDecision.routes (d : DeployDecision) (r : BindingResolution) :
    Except String (List RouteEntry) :=
  r.routes.mapM (resolveRoute d.install.components)

end Vops.Apps
