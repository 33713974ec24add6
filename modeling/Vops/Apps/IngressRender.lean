import Vops.Apps.SpecNormalize
import Vops.Lib.Async
import Mathlib.Data.List.MinMax

/-!
# The two ingress renderers (`apps/ingress-render.ts`, `apps/caddy-render.ts`)

* `RouteAuth`, `assertRouteAuth` — the login gate of a route.
* `TraefikConfig`, `renderRoute` — routers, services and middlewares under their names.
* `CaddySite`, `renderCaddyRoute` — a site and its handles, in their order.
* `TraefikConfig.lines`, `CaddySite.lines` — the files that are written.
* `TraefikConfig.serve`, `CaddySite.serve` — where the proxies send a request.

Traefik takes the matching router with the longest rule and refuses a file in which a name comes twice;
Caddy takes the first matching handle, and compares paths without regard to case.
-/

/-!
## The routes of an app (`apps/ingress-hostname.ts`, `normalizeRoutePath` of `apps/spec-normalize.ts`)

* `NormalPath`, `normalizeRoutePath` — a path with a slash in front and none behind.
* `PortRoutePlan`, `RoutePort`, `RouteEntry` — a route of a port, of an app, and with its host port; each has
  a normal path.
* `routedPorts` — the ports that the ingress fronts, at distinct paths.
* `AppRoutes`, `attachedRoutes` — the routes that are attached: at least one, at distinct paths.
-/

namespace Vops.Apps

open AuthorizedKeys (trim)

/-! ## Paths -/

/-- A path is `/`, or it has a slash in front and none behind. -/
def NormalPath (path : String) : Prop :=
  path = "/" ∨ path.toList.head? = some '/' ∧ path.toList.getLast? ≠ some '/'

/-- A text with a slash in front, less the slashes behind it. -/
def slashed (text : List Char) : String :=
  String.ofList ('/' :: (if text.head? = some '/' then text.tail else text).rdropWhile (· = '/'))

/-- `normalizeRoutePath` -/
def normalizeRoutePath (path : Option String) : String :=
  let p := trim (path.getD "/").toList
  if p = [] ∨ p = ['/'] then "/" else slashed p

theorem slashed_normal (text : List Char) : NormalPath (slashed text) := by
  unfold slashed
  set rest := (if text.head? = some '/' then text.tail else text).rdropWhile (· = '/') with hrest
  by_cases hnil : rest = []
  · exact .inl (by rw [hnil])
  · refine .inr ⟨by simp, ?_⟩
    intro hlast
    rw [String.toList_ofList, List.getLast?_cons_of_ne_nil hnil, List.getLast?_eq_getLast_of_ne_nil hnil,
      Option.some_inj] at hlast
    have hnot := List.rdropWhile_last_not (· = '/') _ hnil
    exact hnot (by simpa using hlast)

theorem normalizeRoutePath_normal (path : Option String) : NormalPath (normalizeRoutePath path) := by
  unfold normalizeRoutePath
  simp only
  split
  · exact .inl rfl
  · exact slashed_normal _

/-! ## Routes -/

/-- `PortRoutePlan` -/
structure PortRoutePlan where
  path : String
  stripPrefix : Bool
  normal : NormalPath path

/-- `toRoute`, of a route without a subdomain. -/
def toRoute (path : Option String) (stripPrefix : Bool) : PortRoutePlan :=
  ⟨normalizeRoutePath path, stripPrefix, normalizeRoutePath_normal path⟩

/-- A component, with the routes of its ports. -/
structure RoutedComponent where
  name : String
  ports : List (AppPortPlan × Option PortRoutePlan)

/-- `RoutePort` -/
structure RoutePort where
  component : String
  containerPort : ℤ
  path : String
  stripPrefix : Bool
  normal : NormalPath path

/-- A port that answers HTTP to the outside. -/
def AppPortPlan.isHttp (p : AppPortPlan) : Bool := p.expose && p.protocol == .http

/-- The component that is the primary one, and its first HTTP port, by their positions. -/
def primaryHttp (primary : String) (components : List RoutedComponent) : Option (ℕ × ℕ) := do
  let i ← components.findIdx? fun c => c.name == primary
  let c ← components[i]?
  let j ← c.ports.findIdx? fun p => p.1.isHttp
  return (i, j)

/-- The route of a port, if the ingress fronts it. -/
def routePort (component : String) (isPrimary : Bool) (p : AppPortPlan × Option PortRoutePlan) :
    Option RoutePort :=
  if p.1.isHttp then
    match p.2 with
    | some route => some ⟨component, p.1.container, route.path, route.stripPrefix, route.normal⟩
    | none => if isPrimary then some ⟨component, p.1.container, "/", false, .inl rfl⟩ else none
  else none

/-- Some path comes twice. -/
def assertDistinct (app : String) : List RoutePort → List String → Except String Unit
  | [], _ => .ok ()
  | r :: routes, seen =>
      if r.path ∈ seen then
        let path := r.path
        .error s!"App '{app}' has two ingress routes at '{path}'."
      else assertDistinct app routes (r.path :: seen)

/-- `assertUniqueRoutes` -/
def assertUniqueRoutes (app : String) (routes : List RoutePort) : Except String Unit := do
  assertDistinct app routes []
  if 1 < routes.countP fun r => r.path == "/" then
    .error s!"App '{app}' declares more than one root ('/') ingress route."

/-- `routedPorts` -/
def routedPorts (app primary : String) (components : List RoutedComponent) :
    Except String (List RoutePort) := do
  let routes := components.zipIdx.flatMap fun (c, i) => c.ports.zipIdx.filterMap fun (p, j) =>
    routePort c.name (primaryHttp primary components == some (i, j)) p
  assertUniqueRoutes app routes
  return routes

/-- `RouteEntry` -/
structure RouteEntry where
  hostPort : ℤ
  path : String
  stripPrefix : Bool
  normal : NormalPath path

/-- `resolveRoutes`, of one route: the host port that is published for it. -/
def resolveRoute (components : List InstallComponent) (r : RoutePort) : Except String RouteEntry :=
  let published := (components.find? fun c => c.name == r.component).bind fun c =>
    c.published.find? fun p => p.container == r.containerPort
  match published with
  | some p => .ok ⟨p.host, r.path, r.stripPrefix, r.normal⟩
  | none =>
      let port := r.containerPort
      let component := r.component
      .error s!"No published port {port} on component '{component}' to route."

/-- The routes that are attached: at least one, and no two at one path. -/
structure AppRoutes where
  entries : List RouteEntry
  nonempty : entries ≠ []
  distinct : (entries.map RouteEntry.path).Nodup

/-- The routes of an app as they are rendered: those of `resolveBinding`, with their host ports. -/
def routeEntries (app primary : String) (components : List RoutedComponent)
    (installed : List InstallComponent) : Except String (List RouteEntry) := do
  let routes ← routedPorts app primary components
  if routes = [] then .error s!"'{app}' exposes no HTTP port to route — a domain needs an HTTP endpoint."
  else routes.mapM (resolveRoute installed)

/-- Paths that come once, and none of those seen before. -/
theorem distinct_of_assertDistinct {app : String} {routes : List RoutePort} {seen : List String}
    (h : assertDistinct app routes seen = .ok ()) :
    (routes.map RoutePort.path).Nodup ∧ ∀ r ∈ routes, r.path ∉ seen := by
  induction routes generalizing seen with
  | nil => exact ⟨List.nodup_nil, by simp⟩
  | cons r routes ih =>
      unfold assertDistinct at h
      split at h
      · cases h
      · rename_i hr
        obtain ⟨hnodup, hseen⟩ := ih h
        refine ⟨List.nodup_cons.mpr ⟨fun hmem => ?_, hnodup⟩, List.forall_mem_cons.mpr ⟨hr, fun r' hr' hmem =>
          hseen r' hr' (List.mem_cons_of_mem _ hmem)⟩⟩
        obtain ⟨r', hr', heq⟩ := List.mem_map.mp hmem
        exact hseen r' hr' (heq ▸ List.mem_cons_self)

theorem path_of_resolveRoute {installed : List InstallComponent} {r : RoutePort} {e : RouteEntry}
    (h : resolveRoute installed r = .ok e) : e.path = r.path := by
  unfold resolveRoute at h
  simp only at h
  split at h
  · cases h
    rfl
  · cases h

/-- What is rendered for an app are routes at distinct paths. -/
theorem routeEntries_routes {app primary : String} {components : List RoutedComponent}
    {installed : List InstallComponent} {entries : List RouteEntry}
    (h : routeEntries app primary components installed = .ok entries) :
    ∃ routes : AppRoutes, routes.entries = entries := by
  obtain ⟨ports, hports, h⟩ := Async.except_bind_eq_ok.mp h
  obtain ⟨u, hunique, hports⟩ := Async.except_bind_eq_ok.mp hports
  obtain ⟨u', hdistinct, -⟩ := Async.except_bind_eq_ok.mp hunique
  cases hports
  split at h
  · cases h
  · rename_i hne
    have hall := Async.except_mapM_eq_ok.mp h
    have hpaths := List.forall₂_map_left_iff.mpr (List.forall₂_map_right_iff.mpr
      (hall.flip.imp fun e r => path_of_resolveRoute))
    rw [List.forall₂_eq_eq_eq] at hpaths
    refine ⟨⟨entries, ?_, ?_⟩, rfl⟩
    · rintro rfl
      exact hne (List.forall₂_nil_right_iff.mp hall)
    · rw [hpaths]
      exact (distinct_of_assertDistinct hdistinct).1

end Vops.Apps

namespace Vops.Apps

/-! ## Login gates -/

/-- `RouteAuth` -/
structure RouteAuth where
  user : String
  hash : String
deriving DecidableEq

/-- `[A-Za-z0-9]` -/
def isAsciiAlnum (c : Char) : Bool := c.isAlpha || c.isDigit

/-- `AUTH_USER_RE` -/
def isAuthUser (user : String) : Bool :=
  1 ≤ user.length && user.length ≤ 32 &&
    user.toList.all fun c => isAsciiAlnum c || c == '.' || c == '_' || c == '-'

/-- `AUTH_HASH_RE` -/
def isAuthHash (hash : String) : Bool :=
  match hash.toList with
  | '$' :: '2' :: v :: '$' :: c₁ :: c₂ :: '$' :: rest =>
      (v == 'a' || v == 'b' || v == 'y') && c₁.isDigit && c₂.isDigit && rest.length == 53 &&
        rest.all fun c => isAsciiAlnum c || c == '.' || c == '/'
  | _ => false

/-- `assertRouteAuth` -/
def assertRouteAuth (a : RouteAuth) : Except String Unit :=
  if !isAuthUser a.user then
    let user := a.user
    .error s!"Unsafe basic-auth user '{user}'."
  else if !isAuthHash a.hash then .error "Malformed basic-auth hash."
  else .ok ()

/-- What both renderers are given; `staging` is Caddy's, `certResolver` Traefik's. -/
structure ProxyRouteRenderInput where
  app : String
  hostname : String
  tls : Bool
  staging : Bool
  certResolver : String
  routes : AppRoutes
  auth : Option RouteAuth

/-- The gate of a render, if any, is checked. -/
def ProxyRouteRenderInput.check (o : ProxyRouteRenderInput) : Except String Unit :=
  match o.auth with
  | some a => assertRouteAuth a
  | none => .ok ()

/-! ## Traefik -/

/-- `routeName` -/
def routeName (app path : String) : String :=
  if path = "/" then "vops-" ++ app
  else "vops-" ++ app ++ "-" ++
    "-".intercalate (((path.toList.splitOn '/').filter (· ≠ [])).map String.ofList)

/-- A router; its path is none for the root. -/
structure TraefikRouter where
  name : String
  host : String
  path : Option String
  entryPoint : String
  service : String
  middlewares : List String
  certResolver : Option String

/-- `routeRule` -/
def TraefikRouter.rule (r : TraefikRouter) : String :=
  match r.path with
  | none => "Host(`" ++ r.host ++ "`)"
  | some path => "Host(`" ++ r.host ++ "`) && PathPrefix(`" ++ path ++ "`)"

/-- A middleware. -/
inductive TraefikMiddleware
  | stripPrefix (path : String)
  | redirectScheme
  | basicAuth (auth : RouteAuth)

/-- A dynamic configuration. -/
structure TraefikConfig where
  routers : List TraefikRouter
  services : List (String × ℤ)
  middlewares : List (String × TraefikMiddleware)

/-- The entry point on which the app is served. -/
def ProxyRouteRenderInput.entry (o : ProxyRouteRenderInput) : String :=
  if o.tls then "websecure" else "web"

/-- `authMw` -/
def authMiddleware (app : String) : String := "vops-" ++ app ++ "-auth"

/-- The prefix of the route is stripped. -/
def RouteEntry.strips (r : RouteEntry) : Bool := r.stripPrefix && r.path != "/"

/-- The router of a route. -/
def routeRouter (o : ProxyRouteRenderInput) (r : RouteEntry) : TraefikRouter where
  name := routeName o.app r.path
  host := o.hostname
  path := if r.path = "/" then none else some r.path
  entryPoint := o.entry
  service := routeName o.app r.path
  middlewares := (if r.strips then [routeName o.app r.path ++ "-strip"] else []) ++
    (o.auth.map fun _ => authMiddleware o.app).toList
  certResolver := if o.tls then some o.certResolver else none

/-- The router that leads from HTTP to HTTPS; its service is that of the first route. -/
def redirectRouter (o : ProxyRouteRenderInput) : TraefikRouter where
  name := "vops-" ++ o.app ++ "-http"
  host := o.hostname
  path := none
  entryPoint := "web"
  service := (o.routes.entries.head?.map fun r => routeName o.app r.path).getD ""
  middlewares := ["vops-https-redirect"]
  certResolver := none

/-- `renderRoute` -/
def renderRoute (o : ProxyRouteRenderInput) : Except String TraefikConfig := do
  o.check
  return {
    routers := o.routes.entries.map (routeRouter o) ++ (if o.tls then [redirectRouter o] else [])
    services := o.routes.entries.map fun r => (routeName o.app r.path, r.hostPort)
    middlewares :=
      ((o.routes.entries.filter RouteEntry.strips).map fun r =>
        (routeName o.app r.path ++ "-strip", .stripPrefix r.path)) ++
      (if o.tls then [("vops-https-redirect", .redirectScheme)] else []) ++
      (o.auth.map fun a => (authMiddleware o.app, .basicAuth a)).toList }

/-! ## Caddy -/

/-- `LE_STAGING_DIR` -/
def LE_STAGING_DIR : String := "https://acme-staging-v02.api.letsencrypt.org/directory"

/-- A handle; its path is none for the root. -/
structure CaddyHandle where
  path : Option String
  strip : Bool
  hostPort : ℤ

/-- A site. -/
structure CaddySite where
  site : String
  staging : Bool
  auth : Option RouteAuth
  handles : List CaddyHandle

/-- `routeHandle` -/
def routeHandle (r : RouteEntry) : CaddyHandle := ⟨some r.path, r.stripPrefix, r.hostPort⟩

/-- `rootHandle` -/
def rootHandle (r : RouteEntry) : CaddyHandle := ⟨none, false, r.hostPort⟩

/-- `renderCaddyRoute` -/
def renderCaddyRoute (o : ProxyRouteRenderInput) : Except String CaddySite := do
  o.check
  return {
    site := if o.tls then o.hostname else "http://" ++ o.hostname
    staging := o.tls && o.staging
    auth := o.auth
    handles := (o.routes.entries.filter fun r => r.path != "/").map routeHandle ++
      ((o.routes.entries.find? fun r => r.path == "/").map rootHandle).toList }

/-! ## The files -/

/-- `yamlStr` -/
def yamlStr (v : String) : String :=
  "\"" ++ String.join (v.toList.map fun c =>
    if c = '\\' then "\\\\" else if c = '"' then "\\\"" else c.toString) ++ "\""

/-- The lines of a router. -/
def TraefikRouter.lines (r : TraefikRouter) : List String :=
  ["    " ++ r.name ++ ":", "      rule: " ++ yamlStr r.rule,
    "      entryPoints: [" ++ r.entryPoint ++ "]", "      service: " ++ r.service] ++
  (if r.middlewares = [] then []
    else ["      middlewares: [" ++ ", ".intercalate r.middlewares ++ "]"]) ++
  (match r.certResolver with
    | some resolver => ["      tls:", "        certResolver: " ++ resolver]
    | none => [])

/-- The lines of a middleware. -/
def TraefikMiddleware.lines : String × TraefikMiddleware → List String
  | (name, stripPrefix path) =>
      ["    " ++ name ++ ":", "      stripPrefix:", "        prefixes: [" ++ path ++ "]"]
  | (name, redirectScheme) =>
      ["    " ++ name ++ ":", "      redirectScheme:", "        scheme: https", "        permanent: true"]
  | (name, basicAuth a) =>
      ["    " ++ name ++ ":", "      basicAuth:", "        users:",
        "          - " ++ yamlStr (a.user ++ ":" ++ a.hash)]

/-- The lines of a configuration. -/
def TraefikConfig.lines (cfg : TraefikConfig) : List String :=
  ["http:", "  routers:"] ++ cfg.routers.flatMap TraefikRouter.lines ++ ["  services:"] ++
    cfg.services.flatMap (fun s =>
      let port := s.2
      ["    " ++ s.1 ++ ":", "      loadBalancer:", "        servers:",
        "          - url: " ++ yamlStr s!"http://127.0.0.1:{port}"]) ++
    (if cfg.middlewares.isEmpty then []
      else "  middlewares:" :: cfg.middlewares.flatMap TraefikMiddleware.lines) ++ [""]

/-- The lines of a handle. -/
def CaddyHandle.lines (h : CaddyHandle) : List String :=
  let port := h.hostPort
  let opening := match h.path with
    | some path => (if h.strip then "    handle_path " else "    handle ") ++ path ++ "/* \x7b"
    | none => "    handle \x7b"
  [opening, s!"        reverse_proxy 127.0.0.1:{port}", "    \x7d"]

/-- The lines of a site. -/
def CaddySite.lines (s : CaddySite) : List String :=
  [s.site ++ " \x7b"] ++
    (if s.staging then ["    tls \x7b", "        ca " ++ LE_STAGING_DIR, "    \x7d"] else []) ++
    (match s.auth with
      | some a => ["    basic_auth \x7b", "        " ++ a.user ++ " " ++ a.hash, "    \x7d"]
      | none => []) ++
    s.handles.flatMap CaddyHandle.lines ++ ["\x7d", ""]

/-! ## Requests -/

/-- Where a request is sent: the backend port, the prefix that is taken off its path, and the login that it
has to show. -/
structure Served where
  backend : Option ℤ
  stripped : Option String
  gate : Option RouteAuth
deriving DecidableEq

/-- The file has no name twice. -/
def TraefikConfig.Loads (cfg : TraefikConfig) : Prop :=
  Table.Keyed TraefikRouter.name cfg.routers ∧ Table.Keyed Prod.fst cfg.services ∧
    Table.Keyed Prod.fst cfg.middlewares

instance (cfg : TraefikConfig) : Decidable cfg.Loads :=
  inferInstanceAs (Decidable ((cfg.routers.map TraefikRouter.name).Nodup ∧
    (cfg.services.map Prod.fst).Nodup ∧ (cfg.middlewares.map Prod.fst).Nodup))

/-- `Host() && PathPrefix()` -/
def TraefikRouter.takes (r : TraefikRouter) (entry host path : String) : Bool :=
  r.entryPoint == entry && r.host == host && r.path.all fun p => p.toList.isPrefixOf path.toList

/-- The prefix that a middleware takes off. -/
def TraefikMiddleware.strip? : TraefikMiddleware → Option String
  | stripPrefix path => some path
  | _ => none

/-- The login that a middleware asks for. -/
def TraefikMiddleware.auth? : TraefikMiddleware → Option RouteAuth
  | basicAuth auth => some auth
  | _ => none

/-- The router of a request: the one with the longest rule. -/
def TraefikConfig.route (cfg : TraefikConfig) (entry host path : String) : Option TraefikRouter :=
  (cfg.routers.filter fun r => r.takes entry host path).argmax fun r => r.rule.length

/-- What a router does with a request. -/
def TraefikConfig.through (cfg : TraefikConfig) (r : TraefikRouter) : Served :=
  let middlewares := r.middlewares.filterMap fun name => (Table.get Prod.fst name cfg.middlewares).map Prod.snd
  ⟨(Table.get Prod.fst r.service cfg.services).map Prod.snd,
    middlewares.findSome? TraefikMiddleware.strip?, middlewares.findSome? TraefikMiddleware.auth?⟩

/-- A request to Traefik; a file that does not load routes nothing. -/
def TraefikConfig.serve (cfg : TraefikConfig) (entry host path : String) : Served :=
  if cfg.Loads then
    match cfg.route entry host path with
    | some r => cfg.through r
    | none => ⟨none, none, none⟩
  else ⟨none, none, none⟩

/-- A path matcher with `/*` behind its path. -/
def CaddyHandle.takes (h : CaddyHandle) (path : String) : Bool :=
  h.path.all fun p => (p.toList ++ ['/']).map Char.toLower |>.isPrefixOf (path.toList.map Char.toLower)

/-- A request to the site: the gate comes first, then the first matching handle. -/
def CaddySite.serve (s : CaddySite) (path : String) : Served :=
  match s.handles.find? fun h => h.takes path with
  | some h => ⟨some h.hostPort, if h.strip then h.path else none, s.auth⟩
  | none => ⟨none, none, s.auth⟩

end Vops.Apps
