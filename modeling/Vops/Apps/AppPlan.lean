import Vops.Apps.QuadletRender
import Vops.Lib.Rewrite

/-!
# Binding an app to a host (`apps/app-plan.ts`, `allocatePort` of `apps/app-parse.ts`)

* `allocatePort` — a free host port; the set of used ports is threaded through.
* `keptPort`, `bindExposedPort`, `bindPorts` — the host port of every exposed port.
* `substituteAppDomain` — the tokens of the environment, once the ports are known.
* `orderServices` — the start order.
* `planHostDeploy` — all of it.
-/

namespace Vops.Apps

/-! ## Allocation -/

/-- `ALLOC_BASE` -/
def ALLOC_BASE : ℤ := 20000

/-- The ports from `ALLOC_BASE` to `ALLOC_TOP`. -/
def allocRange : List ℤ := (List.range 1000).map fun n : ℕ => ALLOC_BASE + (n : ℤ)

/-- `allocatePort`: the port, and the used ports with it. -/
def allocatePort (containerPort : ℤ) (used : List ℤ) (coexistence forceHigh : Bool) :
    Except String (ℤ × List ℤ) :=
  let lowest : ℤ := if coexistence then 1024 else 1
  if forceHigh = false ∧ lowest ≤ containerPort ∧ containerPort ∉ used then
    .ok (containerPort, containerPort :: used)
  else
    match allocRange.find? fun p => decide (p ∉ used) with
    | some p => .ok (p, p :: used)
    | none => .error "No free host port available in the allocation range."

/-! ## Exposed ports -/

/-- `PUBLISH_BIND` -/
def PUBLISH_BIND : String := "0.0.0.0"

/-- `LOOPBACK_BIND` -/
def LOOPBACK_BIND : String := "127.0.0.1"

/-- `portKey` -/
def portKey (component : String) (containerPort : ℤ) : String := s!"{component}#{containerPort}"

/-- `ownPorts`: of two ports with one key the last one counts. -/
def ownPorts (previous : Record (List PublishedPort)) : List (String × ℤ) :=
  (Record.ofEntries (previous.entries.flatMap fun e =>
    e.2.map fun p => (portKey e.1 p.container, p.host))).entries

/-- `BindCtx`, less the set of used ports. -/
structure BindCtx where
  coexistence : Bool
  hostAddress : String
  ingress : Option IngressBinding
  publish : PublishIntent
  own : List (String × ℤ)

/-- `keptPort` -/
def keptPort (component : String) (p : AppPortPlan) (ctx : BindCtx) : Option ℤ :=
  match Table.get Prod.fst (portKey component p.container) ctx.own with
  | none => none
  | some (_, port) =>
      if ctx.ingress.isSome ∧ (port = 80 ∨ port = 443) then none
      else if ctx.coexistence ∧ port < 1024 then none
      else some port

/-- `routeFor` -/
def routeFor (component : String) (p : AppPortPlan) (ingress : Option IngressBinding) :
    Option IngressRoute :=
  ingress.bind fun ingress =>
    ingress.routes.find? fun r => r.component == component && r.containerPort == p.container

/-- `reachFor` -/
def reachFor (routed isPublic : Bool) : Reach :=
  if routed then .ingress else if isPublic then .publicly else .loopback

/-- `endpointUrl` -/
def endpointUrl (route : Option IngressRoute) (p : AppPortPlan) (host : ℤ) (ctx : BindCtx)
    (isPublic : Bool) : String :=
  match route, ctx.ingress with
  | some route, some ingress =>
      let scheme := if ingress.tls then "https" else "http"
      let path := if route.path = "/" then "" else route.path
      let hostname := ingress.hostname
      s!"{scheme}://{hostname}{path}"
  | _, _ =>
      let scheme := match p.protocol with
        | .http => "http"
        | .tcp => "tcp"
      let address := if isPublic then ctx.hostAddress else LOOPBACK_BIND
      s!"{scheme}://{address}:{host}"

/-- The binding of an exposed port. -/
structure BoundPort where
  published : PublishedPort
  endpoint : AppEndpoint

/-- The kept host port, else an allocated one. -/
def hostFor (component : String) (p : AppPortPlan) (ctx : BindCtx) (used : List ℤ) :
    Except String (ℤ × List ℤ) :=
  match keptPort component p ctx with
  | some port => .ok (port, used)
  | none => allocatePort p.container used ctx.coexistence (routeFor component p ctx.ingress).isSome

/-- `bindExposedPort` -/
def bindExposedPort (component : String) (p : AppPortPlan) (ctx : BindCtx) (used : List ℤ) :
    Except String (BoundPort × List ℤ) := do
  let (host, used) ← hostFor component p ctx used
  let route := routeFor component p ctx.ingress
  let routed := route.isSome
  let direct := routed && (ctx.ingress.map IngressBinding.exposeDirect).getD false
  let isPublic := ctx.publish == .publicly || direct
  return (⟨⟨host, p.container, if isPublic then PUBLISH_BIND else LOOPBACK_BIND⟩,
    ⟨component, host, endpointUrl route p host ctx isPublic, reachFor routed isPublic⟩⟩, used)

/-- The exposed ports of a component, one after the other. -/
def bindComponent (component : String) (ctx : BindCtx) :
    List AppPortPlan → List ℤ → Except String (List BoundPort × List ℤ)
  | [], used => .ok ([], used)
  | p :: ports, used =>
      if p.expose then do
        let (bound, used) ← bindExposedPort component p ctx used
        let (rest, used) ← bindComponent component ctx ports used
        return (bound :: rest, used)
      else bindComponent component ctx ports used

/-- The components of a plan, one after the other: their ports and the endpoints. -/
def bindPorts (ctx : BindCtx) :
    List AppComponentPlan → List ℤ → Record (List PublishedPort) → List AppEndpoint →
      Except String (Record (List PublishedPort) × List AppEndpoint)
  | [], _, ports, endpoints => .ok (ports, endpoints)
  | comp :: comps, used, ports, endpoints => do
      let (bound, used) ← bindComponent comp.name ctx comp.ports used
      bindPorts ctx comps used (ports.set comp.name (bound.map BoundPort.published))
        (endpoints ++ bound.map BoundPort.endpoint)

/-! ## Tokens of the environment -/

/-- The length of `\x7b\x7b\s\x7b0,8\x7dword\s\x7b0,8\x7d\x7d\x7d` at the start of a text. -/
def matchToken (word text : List Char) : Option ℕ :=
  if "\x7b\x7b".toList.isPrefixOf text then
    let rest := text.drop 2
    let before := min 8 (rest.takeWhile isJsSpace).length
    let rest := rest.drop before
    if word.isPrefixOf rest then
      let rest := rest.drop word.length
      let behind := min 8 (rest.takeWhile isJsSpace).length
      if "\x7d\x7d".toList.isPrefixOf (rest.drop behind) then
        some (2 + before + word.length + behind + 2)
      else none
    else none
  else none

/-- `APP_DOMAIN_URL_TOKEN`: the scheme in front of the token, if any, is a part of the match. -/
def matchDomainToken (scheme authority : List Char) (_ : Option Char) (text : List Char) :
    Option (ℕ × List Char) :=
  let behind (written : String) : Option (ℕ × List Char) :=
    if written.toList.isPrefixOf text then
      (matchToken "app.domain".toList (text.drop written.toList.length)).map fun n =>
        (written.toList.length + n, scheme ++ "://".toList ++ authority)
    else none
  ((behind "https://").orElse fun _ => behind "http://").orElse fun _ =>
    (matchToken "app.domain".toList text).map fun n => (n, authority)

/-- `APP_SCHEME_TOKEN` -/
def matchSchemeToken (scheme : List Char) (_ : Option Char) (text : List Char) :
    Option (ℕ × List Char) :=
  (matchToken "app.scheme".toList text).map fun n => (n, scheme)

/-- An environment value with its tokens resolved. -/
def resolveTokens (scheme authority value : String) : String :=
  let domains := replaceAll (matchDomainToken scheme.toList authority.toList) 0 none value.toList
  String.ofList (replaceAll (matchSchemeToken scheme.toList) 0 none domains)

/-- `loopbackAuthority` -/
def loopbackAuthority (plan : AppPlan) (ports : Record (List PublishedPort)) : String :=
  let primary := plan.components.find? fun c => c.name == plan.primary
  let http := primary.bind fun c => c.ports.find? fun p => p.expose && p.protocol == .http
  let published := (ports.get? plan.primary).getD []
  let pub := (published.find? fun p => some p.container == http.map AppPortPlan.container).orElse
    fun _ => published.head?
  match pub with
  | some pub =>
      let host := pub.host
      s!"{LOOPBACK_BIND}:{host}"
  | none => LOOPBACK_BIND

/-- `substituteAppDomain` -/
def substituteAppDomain (plan : AppPlan) (ingress : Option IngressBinding)
    (ports : Record (List PublishedPort)) : AppPlan :=
  let scheme := if (ingress.map IngressBinding.tls).getD false then "https" else "http"
  let authority := (ingress.map IngressBinding.hostname).getD (loopbackAuthority plan ports)
  let name := plan.name
  let note := s!"No --domain given → {name} is configured for http://{authority} (loopback only). " ++
    s!"Run `vops app expose {name} --domain <host>` to give it a public hostname."
  { plan with
    components := plan.components.map fun comp =>
      { comp with env := comp.env.map fun e => { e with value := resolveTokens scheme authority e.value } }
    warnings :=
      if ingress.isNone && plan.needsAppDomain then
        plan.warnings ++ [note]
      else plan.warnings }

/-! ## Services -/

/-- `appUnitDir` -/
def appUnitDir (app : String) : String := s!"/etc/containers/systemd/vops/{app}"

/-- `prereqServiceNames` -/
def prereqServiceNames (pod : Option String) (volumes : List String) : List String :=
  volumes.map (· ++ "-volume.service") ++ ((truthyText pod).map (· ++ "-pod.service")).toList

/-- The rounds of `orderServices`: the components whose dependencies are all placed, or all that remain. -/
def orderRounds : ℕ → List (String × List String) → List String
  | 0, _ => []
  | fuel + 1, remaining =>
      if remaining = [] then []
      else
        let ready := remaining.filter fun e => e.2.all fun d => !(remaining.map Prod.fst).contains d
        let batch := (if ready = [] then remaining else ready).map Prod.fst
        batch ++ orderRounds fuel (remaining.filter fun e => !batch.contains e.1)

/-- `orderServices` -/
def orderServices (plan : AppPlan) : List String :=
  let remaining := (Record.ofEntries (plan.components.map fun c => (c.name, c.dependsOn))).entries
  (orderRounds remaining.length remaining).filterMap fun name =>
    (plan.components.find? fun c => c.name == name).map fun c => c.container ++ ".service"

/-! ## `planHostDeploy` -/

/-- The ports that are used before any is bound. -/
def usedPorts (facts : HostFacts) (ingress : Option IngressBinding)
    (reservations : Option PortReservations) (own : List (String × ℤ)) : List ℤ :=
  (if ingress.isSome then [80, 443] else []) ++ own.map Prod.snd ++
    (reservations.map PortReservations.others).getD [] ++ facts.listeningPorts

/-- `reservations?.own`, by its keys. -/
def ownOf (reservations : Option PortReservations) : List (String × ℤ) :=
  ownPorts ((reservations.map PortReservations.own).getD .empty)

/-- What the ports of a plan are bound under. -/
def bindCtx (facts : HostFacts) (hostAddress : String) (ingress : Option IngressBinding)
    (publish : PublishIntent) (reservations : Option PortReservations) : BindCtx :=
  ⟨facts.k3s, hostAddress, ingress, publish, ownOf reservations⟩

/-- `planHostDeploy`; the plan comes back with its tokens resolved. -/
def planHostDeploy (plan : AppPlan) (facts : HostFacts) (hostAddress : String)
    (ingress : Option IngressBinding) (publish : PublishIntent)
    (reservations : Option PortReservations) : Except String (AppPlan × HostDeployPlan) := do
  let ctx := bindCtx facts hostAddress ingress publish reservations
  let (ports, endpoints) ← bindPorts ctx plan.components
    (usedPorts facts ingress reservations ctx.own) .empty []
  let plan := substituteAppDomain plan ingress ports
  let rendered := renderDeploy plan ⟨facts.selinux, ports⟩
  let volumes := plan.components.flatMap fun c => c.volumes.map AppVolumePlan.volume
  return (plan, ⟨appUnitDir plan.name, facts.k3s, ports, rendered.units, rendered.healthUnits,
    rendered.secrets, orderServices plan, prereqServiceNames rendered.pod volumes, volumes, rendered.pod,
    endpoints⟩)

end Vops.Apps
