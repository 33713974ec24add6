import Vops.Apps.IngressRender
import Mathlib.Data.List.Nodup
import Mathlib.Data.List.Pairwise

/-!
# The names of the routes on a host (`renderRoute` of `apps/ingress-render.ts`)

* `ExposedApps` — what is rendered for the apps of a host, which have names of their own.
* `TraefikApart` — no two routers, services or middlewares have one name.
* `routeWords`, `routeEnds` — the words between the hyphens of a name, behind those of the app.
* `WordsApart` — no app's name goes on where another one's ends, with the words of one of its
  routes.
* `traefik_apart_iff` — the names are apart exactly when these words are.
-/

/-!
## The two ingress renderers route alike where there is one backend

* `OneBackend` — every path route leads to the port of the root route and strips nothing, and the routers
  have names of their own.
* `loads_iff`, `through_routeRouter`, `route_spec` — what Traefik makes of a configuration.
* `caddy_serve_cases` — what Caddy makes of a site.
* `shop_split` — a path route with a port of its own, and a request for its very path.
* `routed_alike_iff` — every request is routed alike exactly when there is one backend.
-/

namespace Vops.Apps

variable {o : ProxyRouteRenderInput} {cfg : TraefikConfig} {site : CaddySite} {r : RouteEntry}

/-! ## The condition -/

/-- The names of the routers. -/
def routerNames (o : ProxyRouteRenderInput) : List String :=
  (o.routes.entries.map fun r => routeName o.app r.path) ++ (if o.tls then ["vops-" ++ o.app ++ "-http"] else [])

/-- There is a root route, every path route leads to its port and strips nothing, and no two routers have
one name. -/
def OneBackend (o : ProxyRouteRenderInput) : Prop :=
  (∃ root ∈ o.routes.entries, root.path = "/" ∧
    ∀ r ∈ o.routes.entries, r.path ≠ "/" → r.hostPort = root.hostPort ∧ r.stripPrefix = false) ∧
  (routerNames o).Nodup

/-! ## Routes -/

/-- Two routes of an app at one path are one. -/
theorem AppRoutes.eq_of_path {routes : AppRoutes} {r r' : RouteEntry} (hr : r ∈ routes.entries)
    (hr' : r' ∈ routes.entries) (h : r.path = r'.path) : r = r' :=
  List.inj_on_of_nodup_map routes.distinct hr hr' h

/-! ## Traefik -/

/-- Names with different last characters differ. -/
theorem append_ne_append {x y a b : String} (h : a.toList.getLast? ≠ b.toList.getLast?)
    (ha : a.toList ≠ []) (hb : b.toList ≠ []) : x ++ a ≠ y ++ b := by
  intro heq
  have hlast := congrArg (fun s : String => s.toList.getLast?) heq
  simp only [String.toList_append, List.getLast?_append_of_ne_nil _ ha,
    List.getLast?_append_of_ne_nil _ hb] at hlast
  exact h hlast

/-- What a render returns. -/
theorem renderRoute_eq (h : renderRoute o = .ok cfg) :
    cfg.routers = o.routes.entries.map (routeRouter o) ++ (if o.tls then [redirectRouter o] else []) ∧
    cfg.services = o.routes.entries.map (fun r => (routeName o.app r.path, r.hostPort)) ∧
    cfg.middlewares =
      ((o.routes.entries.filter RouteEntry.strips).map fun r =>
        (routeName o.app r.path ++ "-strip", .stripPrefix r.path)) ++
      (if o.tls then [("vops-https-redirect", .redirectScheme)] else []) ++
      (o.auth.map fun a => (authMiddleware o.app, .basicAuth a)).toList := by
  obtain ⟨u, -, h⟩ := Async.except_bind_eq_ok.mp h
  cases h
  exact ⟨rfl, rfl, rfl⟩

/-- The names of the middlewares are distinct where those of the routers are. -/
theorem middlewares_keyed (h : renderRoute o = .ok cfg)
    (hnames : (o.routes.entries.map fun r => routeName o.app r.path).Nodup) :
    Table.Keyed Prod.fst cfg.middlewares := by
  obtain ⟨-, -, hmiddlewares⟩ := renderRoute_eq h
  rw [hmiddlewares, Table.Keyed, List.map_append, List.map_append, List.map_map]
  have hstrip : ((o.routes.entries.filter RouteEntry.strips).map
      (Prod.fst ∘ fun r => (routeName o.app r.path ++ "-strip", TraefikMiddleware.stripPrefix r.path))).Nodup := by
    refine List.pairwise_map.mpr (((List.pairwise_map.mp hnames).sublist List.filter_sublist).imp ?_)
    intro r r' hne heq
    refine hne (String.toList_injective ?_)
    have := congrArg String.toList heq
    simp only [Function.comp_apply, String.toList_append] at this
    exact List.append_cancel_right this
  have hredirect : "vops-https-redirect" = "vops-https-redirec" ++ "t" := rfl
  refine List.nodup_append.mpr ⟨List.nodup_append.mpr ⟨hstrip, ?_, ?_⟩, ?_, ?_⟩
  · split <;> simp
  · intro a ha b hb
    obtain ⟨r, -, rfl⟩ := List.mem_map.mp ha
    split at hb
    · obtain rfl := List.mem_singleton.mp hb
      exact hredirect ▸ append_ne_append (by decide) (by decide) (by decide)
    · cases hb
  · cases o.auth <;> simp
  · intro a ha b hb
    cases hauth : o.auth with
    | none =>
        rw [hauth] at hb
        cases hb
    | some g =>
        rw [hauth] at hb
        obtain rfl := List.mem_singleton.mp hb
        rcases List.mem_append.mp ha with ha | ha
        · obtain ⟨r, -, rfl⟩ := List.mem_map.mp ha
          exact append_ne_append (by decide) (by decide) (by decide)
        · split at ha
          · obtain rfl := List.mem_singleton.mp ha
            exact hredirect ▸ append_ne_append (by decide) (by decide) (by decide)
          · cases ha

/-- The file loads exactly when no two routers have one name. -/
theorem loads_iff (h : renderRoute o = .ok cfg) : cfg.Loads ↔ (routerNames o).Nodup := by
  obtain ⟨hrouters, hservices, -⟩ := renderRoute_eq h
  have hnames : cfg.routers.map TraefikRouter.name = routerNames o := by
    rw [hrouters, routerNames, List.map_append, List.map_map]
    refine congrArg (_ ++ ·) ?_
    split <;> rfl
  constructor
  · exact fun hloads => hnames ▸ hloads.1
  · intro hnodup
    have hentries := (List.nodup_append.mp hnodup).1
    refine ⟨?_, ?_, middlewares_keyed h hentries⟩
    · rw [Table.Keyed, hnames]
      exact hnodup
    · rw [hservices, Table.Keyed, List.map_map]
      exact hentries

/-- What the router of a route does. -/
theorem through_routeRouter (h : renderRoute o = .ok cfg) (hloads : cfg.Loads)
    (hr : r ∈ o.routes.entries) : cfg.through (routeRouter o r) =
      ⟨some r.hostPort, if r.strips then some r.path else none, o.auth⟩ := by
  obtain ⟨-, hservices, hmiddlewares⟩ := renderRoute_eq h
  obtain ⟨-, hservice, hmiddleware⟩ := hloads
  have hbackend : Table.get Prod.fst (routeName o.app r.path) cfg.services =
      some (routeName o.app r.path, r.hostPort) :=
    hservice.get_eq (hservices ▸ List.mem_map_of_mem hr)
  have hstrip : r.strips = true →
      Table.get Prod.fst (routeName o.app r.path ++ "-strip") cfg.middlewares =
        some (routeName o.app r.path ++ "-strip", .stripPrefix r.path) := by
    intro hs
    refine hmiddleware.get_eq (r := (_, .stripPrefix r.path)) ?_
    rw [hmiddlewares]
    exact List.mem_append_left _ (List.mem_append_left _
      (List.mem_map_of_mem (List.mem_filter.mpr ⟨hr, hs⟩)))
  have hgate : ∀ a, o.auth = some a →
      Table.get Prod.fst (authMiddleware o.app) cfg.middlewares =
        some (authMiddleware o.app, .basicAuth a) := by
    intro a ha
    refine hmiddleware.get_eq (r := (_, .basicAuth a)) ?_
    rw [hmiddlewares, ha]
    exact List.mem_append_right _ (List.mem_singleton_self _)
  unfold TraefikConfig.through routeRouter
  simp only [hbackend, Option.map_some]
  cases hs : r.strips with
  | true =>
      cases ha : o.auth with
      | none => simp [hstrip hs, TraefikMiddleware.strip?, TraefikMiddleware.auth?]
      | some a =>
          simp [hstrip hs, hgate a ha, List.findSome?, TraefikMiddleware.strip?, TraefikMiddleware.auth?]
  | false =>
      cases ha : o.auth with
      | none => simp
      | some a => simp [hgate a ha, TraefikMiddleware.strip?, TraefikMiddleware.auth?]

/-- The route is for a request: it is the root, or its path starts that of the request. -/
def RouteEntry.Takes (r : RouteEntry) (path : String) : Prop :=
  r.path = "/" ∨ r.path.toList <+: path.toList

theorem takes_routeRouter {path : String} :
    (routeRouter o r).takes o.entry o.hostname path = true ↔ r.Takes path := by
  unfold TraefikRouter.takes routeRouter RouteEntry.Takes
  by_cases hroot : r.path = "/"
  · simp [hroot]
  · simp [hroot]

/-- The rule of a path is longer than that of the root, and longer for a longer path. -/
theorem rule_length : (routeRouter o r).rule.length =
    8 + o.hostname.length + (if r.path = "/" then 0 else 18 + r.path.length) := by
  have hopen : "Host(`".length = 6 := rfl
  have hclose : "`)".length = 2 := rfl
  have hprefix : "`) && PathPrefix(`".length = 18 := rfl
  unfold routeRouter TraefikRouter.rule
  by_cases hroot : r.path = "/"
  · simp [hroot, String.length_append]
    omega
  · simp [hroot, String.length_append]
    omega

/-- A request that some route is for goes to one of the longest. -/
theorem route_spec (h : renderRoute o = .ok cfg) {path : String}
    (hsome : ∃ r ∈ o.routes.entries, r.Takes path) :
    ∃ r ∈ o.routes.entries, cfg.route o.entry o.hostname path = some (routeRouter o r) ∧ r.Takes path ∧
      ∀ r' ∈ o.routes.entries, r'.Takes path →
        (routeRouter o r').rule.length ≤ (routeRouter o r).rule.length := by
  obtain ⟨hrouters, -, -⟩ := renderRoute_eq h
  -- the redirect listens elsewhere
  have hmem : ∀ x, x ∈ cfg.routers.filter (fun x => x.takes o.entry o.hostname path) ↔
      ∃ r ∈ o.routes.entries, r.Takes path ∧ x = routeRouter o r := by
    intro x
    rw [List.mem_filter, hrouters, List.mem_append, List.mem_map]
    constructor
    · rintro ⟨⟨r, hr, rfl⟩ | hredirect, htakes⟩
      · exact ⟨r, hr, takes_routeRouter.mp htakes, rfl⟩
      · split at hredirect
        · rename_i htls
          obtain rfl := List.mem_singleton.mp hredirect
          simp [TraefikRouter.takes, redirectRouter, ProxyRouteRenderInput.entry, htls] at htakes
        · cases hredirect
    · rintro ⟨r, hr, htakes, rfl⟩
      exact ⟨.inl ⟨r, hr, rfl⟩, takes_routeRouter.mpr htakes⟩
  obtain ⟨r₀, hr₀, htakes₀⟩ := hsome
  cases hroute : cfg.route o.entry o.hostname path with
  | none =>
      have hnil := List.argmax_eq_none.mp hroute
      exact absurd ((hmem _).mpr ⟨r₀, hr₀, htakes₀, rfl⟩) (hnil ▸ List.not_mem_nil)
  | some x =>
      obtain ⟨r, hr, htakes, rfl⟩ := (hmem x).mp (List.argmax_mem hroute)
      exact ⟨r, hr, rfl, htakes, fun r' hr' htakes' =>
        List.le_of_mem_argmax (f := fun x : TraefikRouter => x.rule.length)
          ((hmem _).mpr ⟨r', hr', htakes', rfl⟩) hroute⟩

/-- Where Traefik sends a request that some route is for. -/
theorem traefik_serve (h : renderRoute o = .ok cfg) (hloads : cfg.Loads) {path : String}
    (hsome : ∃ r ∈ o.routes.entries, r.Takes path) :
    ∃ r ∈ o.routes.entries, r.Takes path ∧
      (∀ r' ∈ o.routes.entries, r'.Takes path →
        (routeRouter o r').rule.length ≤ (routeRouter o r).rule.length) ∧
      cfg.serve o.entry o.hostname path =
        ⟨some r.hostPort, if r.strips then some r.path else none, o.auth⟩ := by
  obtain ⟨r, hr, hroute, htakes, hmax⟩ := route_spec h hsome
  refine ⟨r, hr, htakes, hmax, ?_⟩
  unfold TraefikConfig.serve
  rw [if_pos hloads, hroute]
  exact through_routeRouter h hloads hr

/-- A request for the very path of a route goes to that route. -/
theorem traefik_serve_path (h : renderRoute o = .ok cfg) (hloads : cfg.Loads)
    (hr : r ∈ o.routes.entries) (hpath : r.path ≠ "/") :
    cfg.serve o.entry o.hostname r.path =
      ⟨some r.hostPort, if r.strips then some r.path else none, o.auth⟩ := by
  obtain ⟨r', hr', htakes, hmax, hserve⟩ := traefik_serve h hloads ⟨r, hr, .inr List.prefix_rfl⟩
  have hlength := hmax r hr (.inr List.prefix_rfl)
  rw [rule_length, rule_length, if_neg hpath] at hlength
  by_cases hroot : r'.path = "/"
  · rw [if_pos hroot] at hlength
    omega
  · rw [if_neg hroot] at hlength
    -- of two prefixes of one path that are as long, both are that path
    have hpre := htakes.resolve_left hroot
    have hle : r.path.toList.length ≤ r'.path.toList.length := by
      simpa [String.length_toList] using (by omega : r.path.length ≤ r'.path.length)
    have heq : r'.path = r.path := String.toList_injective (hpre.eq_of_length_le hle)
    rw [AppRoutes.eq_of_path hr' hr heq] at hserve
    exact hserve

/-! ## Caddy -/

/-- What a render returns. -/
theorem renderCaddyRoute_eq (h : renderCaddyRoute o = .ok site) :
    site.auth = o.auth ∧
    site.handles = (o.routes.entries.filter fun r => r.path != "/").map routeHandle ++
      ((o.routes.entries.find? fun r => r.path == "/").map rootHandle).toList := by
  obtain ⟨u, -, h⟩ := Async.except_bind_eq_ok.mp h
  cases h
  exact ⟨rfl, rfl⟩

/-- A handle is that of a path route, or that of the root. -/
theorem mem_handles (h : renderCaddyRoute o = .ok site) {x : CaddyHandle} (hx : x ∈ site.handles) :
    ∃ r ∈ o.routes.entries, (r.path ≠ "/" ∧ x = routeHandle r) ∨ (r.path = "/" ∧ x = rootHandle r) := by
  rw [(renderCaddyRoute_eq h).2, List.mem_append, List.mem_map] at hx
  rcases hx with ⟨r, hr, rfl⟩ | hx
  · obtain ⟨hmem, hpath⟩ := List.mem_filter.mp hr
    exact ⟨r, hmem, .inl ⟨by simpa using hpath, rfl⟩⟩
  · obtain ⟨r, hfind, rfl⟩ := Option.map_eq_some_iff.mp (Option.mem_toList.mp hx)
    exact ⟨r, List.mem_of_find?_eq_some hfind, .inr ⟨by simpa using List.find?_some hfind, rfl⟩⟩

/-- Where Caddy sends a request: to a path route whose path with a slash starts that of the request, to the
root, or nowhere. -/
theorem caddy_serve_cases (h : renderCaddyRoute o = .ok site) (path : String) :
    (∃ r ∈ o.routes.entries, r.path ≠ "/" ∧ r.path.toList.length < path.toList.length ∧
      site.serve path = ⟨some r.hostPort, if r.stripPrefix then some r.path else none, o.auth⟩) ∨
    (∃ r ∈ o.routes.entries, r.path = "/" ∧ site.serve path = ⟨some r.hostPort, none, o.auth⟩) ∨
    (site.serve path = ⟨none, none, o.auth⟩ ∧ ∀ x ∈ site.handles, x.takes path = false) := by
  have hauth := (renderCaddyRoute_eq h).1
  unfold CaddySite.serve
  rw [hauth]
  cases hfind : site.handles.find? fun x => x.takes path with
  | none => exact .inr (.inr ⟨rfl, by simpa using List.find?_eq_none.mp hfind⟩)
  | some x =>
      obtain ⟨r, hr, ⟨hpath, rfl⟩ | ⟨hpath, rfl⟩⟩ := mem_handles h (List.mem_of_find?_eq_some hfind)
      · refine .inl ⟨r, hr, hpath, ?_, rfl⟩
        have htakes : (routeHandle r).takes path = true :=
          List.find?_some (p := fun x : CaddyHandle => x.takes path) hfind
        have hpre : (r.path.toList ++ ['/']).map Char.toLower <+: path.toList.map Char.toLower := by
          simpa [CaddyHandle.takes, routeHandle] using htakes
        have hlength := hpre.length_le
        simp only [List.length_map, List.length_append, List.length_singleton] at hlength
        exact hlength
      · exact .inr (.inl ⟨r, hr, hpath, rfl⟩)

/-- A request below the path of a route goes somewhere. -/
theorem caddy_serves (h : renderCaddyRoute o = .ok site) (hr : r ∈ o.routes.entries) :
    ∃ path, (site.serve path).backend ≠ none := by
  refine ⟨r.path ++ "/", fun hnone => ?_⟩
  rcases caddy_serve_cases h (r.path ++ "/") with ⟨_, _, _, _, hs⟩ | ⟨_, _, _, hs⟩ | ⟨hs, hall⟩
  · rw [hs] at hnone
    cases hnone
  · rw [hs] at hnone
    cases hnone
  · by_cases hpath : r.path = "/"
    · cases hfind : o.routes.entries.find? fun r => r.path == "/" with
      | none => exact absurd hpath (by simpa using List.find?_eq_none.mp hfind r hr)
      | some root =>
          have hmem : rootHandle root ∈ site.handles := by
            rw [(renderCaddyRoute_eq h).2, hfind]
            exact List.mem_append_right _ (List.mem_singleton_self _)
          cases hall _ hmem
    · have hmem : routeHandle r ∈ site.handles := by
        rw [(renderCaddyRoute_eq h).2]
        exact List.mem_append_left _ (List.mem_map_of_mem (List.mem_filter.mpr ⟨hr, by simpa using hpath⟩))
      have hnot := hall _ hmem
      simp only [CaddyHandle.takes, routeHandle, Option.all_some, String.toList_append] at hnot
      exact Bool.false_ne_true (hnot.symm.trans (List.isPrefixOf_iff_prefix.mpr List.prefix_rfl))

/-! ## Both -/

/-- Both proxies do the same with every request to the app. -/
def RoutedAlike (o : ProxyRouteRenderInput) (cfg : TraefikConfig) (site : CaddySite) : Prop :=
  ∀ path, cfg.serve o.entry o.hostname path = site.serve path

/-- With one backend, every request goes to it. -/
theorem OneBackend.routedAlike (h : renderRoute o = .ok cfg) (h' : renderCaddyRoute o = .ok site)
    (hone : OneBackend o) : RoutedAlike o cfg site := by
  obtain ⟨⟨root, hroot, hpath, hothers⟩, hnames⟩ := hone
  have hloads := (loads_iff h).mpr hnames
  have hport : ∀ r ∈ o.routes.entries, r.hostPort = root.hostPort := by
    intro r hr
    by_cases hr' : r.path = "/"
    · rw [AppRoutes.eq_of_path hr hroot (hr'.trans hpath.symm)]
    · exact (hothers r hr hr').1
  intro path
  have htakes : root.Takes path := .inl hpath
  obtain ⟨r, hr, -, -, hserve⟩ := traefik_serve h hloads ⟨root, hroot, htakes⟩
  have hstrips : r.strips = false := by
    by_cases hr' : r.path = "/"
    · simp [RouteEntry.strips, hr']
    · simp [RouteEntry.strips, (hothers r hr hr').2]
  rw [hserve, hport r hr, hstrips]
  rcases caddy_serve_cases h' path with ⟨q, hq, hne, -, hs⟩ | ⟨q, hq, -, hs⟩ | ⟨-, hall⟩
  · rw [hs, hport q hq, (hothers q hq hne).2]
    rfl
  · rw [hs, hport q hq]
    rfl
  · cases hfind : o.routes.entries.find? fun r => r.path == "/" with
    | none => exact absurd hpath (by simpa using List.find?_eq_none.mp hfind root hroot)
    | some q =>
        have hmem : rootHandle q ∈ site.handles := by
          rw [(renderCaddyRoute_eq h').2, hfind]
          exact List.mem_append_right _ (List.mem_singleton_self _)
        cases hall _ hmem

/-- Where the proxies agree, every path route leads to the port of a root route and strips nothing: by
induction on the length of its path. -/
theorem RoutedAlike.to_root (h : renderRoute o = .ok cfg) (h' : renderCaddyRoute o = .ok site)
    (halike : RoutedAlike o cfg site) (hloads : cfg.Loads) (n : ℕ) (r : RouteEntry)
    (hr : r ∈ o.routes.entries) (hpath : r.path ≠ "/") (hn : r.path.toList.length = n) :
    r.stripPrefix = false ∧
      ∃ root ∈ o.routes.entries, root.path = "/" ∧ r.hostPort = root.hostPort := by
  induction n using Nat.strong_induction_on generalizing r with
  | _ n ih =>
      have hsame := halike r.path
      rw [traefik_serve_path h hloads hr hpath] at hsame
      have hstrips : r.strips = r.stripPrefix := by simp [RouteEntry.strips, hpath]
      rw [hstrips] at hsame
      rcases caddy_serve_cases h' r.path with ⟨q, hq, hne, hlt, hs⟩ | ⟨q, hq, hroot, hs⟩ | ⟨hs, -⟩
      · obtain ⟨hqstrip, root, hmem, hroot, hport⟩ := ih _ (hn ▸ hlt) q hq hne rfl
        rw [hs, hqstrip] at hsame
        obtain ⟨hbackend, hstripped⟩ : some r.hostPort = some q.hostPort ∧
            (if r.stripPrefix then some r.path else none) = none := by simpa using hsame
        exact ⟨by simpa using hstripped, root, hmem, hroot, (Option.some.inj hbackend).trans hport⟩
      · rw [hs] at hsame
        obtain ⟨hbackend, hstripped⟩ : some r.hostPort = some q.hostPort ∧
            (if r.stripPrefix then some r.path else none) = none := by simpa using hsame
        exact ⟨by simpa using hstripped, q, hq, hroot, Option.some.inj hbackend⟩
      · rw [hs] at hsame
        cases hsame

/-- Of every set of routes of an app, rendered for Traefik and for Caddy: every request is sent to the same
backend port, with the same prefix stripped and behind the same gate, exactly when there is a root route,
every path route leads to its port and strips nothing, and no two routers have one name. -/
theorem routed_alike_iff (h : renderRoute o = .ok cfg) (h' : renderCaddyRoute o = .ok site) :
    RoutedAlike o cfg site ↔ OneBackend o := by
  refine ⟨fun halike => ?_, OneBackend.routedAlike h h'⟩
  obtain ⟨first, hfirst⟩ := List.exists_mem_of_ne_nil _ o.routes.nonempty
  have hloads : cfg.Loads := by
    by_contra hnot
    obtain ⟨path, hserves⟩ := caddy_serves h' hfirst
    rw [← halike path] at hserves
    unfold TraefikConfig.serve at hserves
    rw [if_neg hnot] at hserves
    exact hserves rfl
  have hto := fun r hr hpath => halike.to_root h h' hloads _ r hr hpath rfl
  have hroot : ∃ root ∈ o.routes.entries, root.path = "/" := by
    by_cases hpath : first.path = "/"
    · exact ⟨first, hfirst, hpath⟩
    · obtain ⟨-, root, hmem, hroot, -⟩ := hto first hfirst hpath
      exact ⟨root, hmem, hroot⟩
  obtain ⟨root, hmem, hroot⟩ := hroot
  refine ⟨⟨root, hmem, hroot, fun r hr hpath => ?_⟩, (loads_iff h).mp hloads⟩
  obtain ⟨hstrip, root', hmem', hroot', hport⟩ := hto r hr hpath
  exact ⟨by rw [hport, AppRoutes.eq_of_path hmem' hmem (hroot'.trans hroot.symm)], hstrip⟩

/-! ## Two apps -/

/-- A route at a path as it is declared. -/
def routeAt (hostPort : ℤ) (path : String) (stripPrefix : Bool) : RouteEntry :=
  ⟨hostPort, normalizeRoutePath (some path), stripPrefix, normalizeRoutePath_normal _⟩

/-- A page with its documentation on the same port. -/
def wikiRoutes : AppRoutes where
  entries := [routeAt 20000 "/" false, routeAt 20000 "/docs/" false]
  nonempty := by simp
  distinct := by decide

/-- A page with two versions of an API on ports of their own. -/
def shopRoutes : AppRoutes where
  entries := [routeAt 20001 "/" false, routeAt 20002 "/api" true, routeAt 20003 "/api/v2" true]
  nonempty := by simp
  distinct := by decide

/-- The routes of an app, without TLS and without a gate. -/
def plainInput (app : String) (routes : AppRoutes) : ProxyRouteRenderInput :=
  ⟨app, app ++ ".example.com", false, false, "le", routes, none⟩

/-- The page is routed alike. -/
theorem wiki_alike : ∃ cfg site, renderRoute (plainInput "wiki" wikiRoutes) = .ok cfg ∧
    renderCaddyRoute (plainInput "wiki" wikiRoutes) = .ok site ∧
    RoutedAlike (plainInput "wiki" wikiRoutes) cfg site := by
  refine ⟨_, _, rfl, rfl, (routed_alike_iff rfl rfl).mpr ⟨?_, by decide +kernel⟩⟩
  refine ⟨_, List.mem_cons_self, by decide +kernel, fun r hr _ => ?_⟩
  simp only [plainInput, wikiRoutes, List.mem_cons, List.not_mem_nil, or_false] at hr
  rcases hr with rfl | rfl <;> exact ⟨rfl, rfl⟩

/-- Where the two proxies send a request to an app. -/
def backends (o : ProxyRouteRenderInput) (path : String) : Option (Option ℤ × Option ℤ) :=
  match renderRoute o, renderCaddyRoute o with
  | .ok cfg, .ok site => some ((cfg.serve o.entry o.hostname path).backend, (site.serve path).backend)
  | _, _ => none

theorem shop_backends : backends (plainInput "shop" shopRoutes) "/api" = some (some 20002, some 20001) ∧
    backends (plainInput "shop" shopRoutes) "/api/v2/cart" = some (some 20003, some 20002) := by
  decide

/-- A request for the path of the API goes to the API or to the page; one for its second version, to the
second or to the first. -/
theorem shop_split : ∃ cfg site, renderRoute (plainInput "shop" shopRoutes) = .ok cfg ∧
    renderCaddyRoute (plainInput "shop" shopRoutes) = .ok site ∧
    (cfg.serve "web" "shop.example.com" "/api").backend = some 20002 ∧
    (site.serve "/api").backend = some 20001 ∧
    (cfg.serve "web" "shop.example.com" "/api/v2/cart").backend = some 20003 ∧
    (site.serve "/api/v2/cart").backend = some 20002 ∧
    ¬RoutedAlike (plainInput "shop" shopRoutes) cfg site := by
  obtain ⟨hbare, hnested⟩ := shop_backends
  obtain ⟨h₁, h₂⟩ := Prod.mk.inj (Option.some.inj hbare)
  obtain ⟨h₃, h₄⟩ := Prod.mk.inj (Option.some.inj hnested)
  refine ⟨_, _, rfl, rfl, h₁, h₂, h₃, h₄, fun halike => ?_⟩
  have hsame := congrArg Served.backend (halike "/api")
  exact absurd (h₁.symm.trans (hsame.trans h₂)) (by decide)

end Vops.Apps

namespace Vops.Apps

/-- What is rendered for the apps of a host: no two of them have one name. -/
structure ExposedApps where
  inputs : List ProxyRouteRenderInput
  distinct : (inputs.map ProxyRouteRenderInput.app).Nodup

/-- The names of the middlewares, less the one that all apps share. -/
def TraefikConfig.ownMiddlewares (cfg : TraefikConfig) : List String :=
  (cfg.middlewares.map Prod.fst).filter (· ≠ "vops-https-redirect")

/-- No two routers, services or middlewares of the files have one name. -/
structure TraefikApart (cfgs : List TraefikConfig) : Prop where
  routers : (cfgs.flatMap fun cfg => cfg.routers.map TraefikRouter.name).Nodup
  services : (cfgs.flatMap fun cfg => cfg.services.map Prod.fst).Nodup
  middlewares : (cfgs.flatMap TraefikConfig.ownMiddlewares).Nodup

/-! ## Words -/

/-- The words of a text, between its hyphens. -/
def words (text : String) : List (List Char) := text.toList.splitOn '-'

/-- The words that a path adds to the name of its app. -/
def routeWords (path : String) : List (List Char) :=
  if path = "/" then []
  else words ("-".intercalate (((path.toList.splitOn '/').filter (· ≠ [])).map String.ofList))

/-- The words behind the name of the app, for each of its routers. -/
def routeEnds (o : ProxyRouteRenderInput) : List (List (List Char)) :=
  (o.routes.entries.map fun r => routeWords r.path) ++ (if o.tls then [words "http"] else [])

/-- No two routers of an app have the same words, and where the name of an app goes on behind
another one, no route of the other one has the words that are between, with those of a route of the
app. -/
structure WordsApart (apps : ExposedApps) : Prop where
  within : ∀ o ∈ apps.inputs, (routeEnds o).Nodup
  between : ∀ o ∈ apps.inputs, ∀ o' ∈ apps.inputs, ∀ more, more ≠ [] →
    words o'.app = words o.app ++ more → ∀ e ∈ routeEnds o', more ++ e ∉ routeEnds o

theorem words_injective : Function.Injective words := by
  intro a b h
  have hjoin := congrArg (List.intercalate ['-']) h
  rwa [words, words, List.intercalate_splitOn, List.intercalate_splitOn, String.toList_inj] at hjoin

theorem words_append (a b : String) : words (a ++ "-" ++ b) = words a ++ words b := by
  rw [words, String.toList_append, String.toList_append, List.append_assoc]
  exact List.splitOn_append_cons_self _ _

theorem words_vops (app : String) : words ("vops-" ++ app) = "vops".toList :: words app := by
  have h := words_append "vops" app
  exact h

/-- The words of the name of a route. -/
theorem words_routeName (app path : String) :
    words (routeName app path) = "vops".toList :: (words app ++ routeWords path) := by
  rw [routeName, routeWords]
  split
  · rw [List.append_nil, words_vops]
  · rw [words_append, words_vops, List.cons_append]

/-- The words of the names of the routers. -/
theorem words_routerNames (o : ProxyRouteRenderInput) : (routerNames o).map words =
    (routeEnds o).map fun e => "vops".toList :: (words o.app ++ e) := by
  have hhttp : words ("vops-" ++ o.app ++ "-http") = "vops".toList ::
    (words o.app ++ words "http") := by
    have h := words_append ("vops-" ++ o.app) "http"
    rw [words_vops, List.cons_append] at h
    have htext : "vops-" ++ o.app ++ "-http" = "vops-" ++ o.app ++ "-" ++ "http" := by
      simp [← String.toList_inj]
    rw [htext, h]
  rw [routerNames, routeEnds, List.map_append, List.map_append, List.map_map, List.map_map]
  congr 1
  · exact List.map_congr_left fun r _ => words_routeName o.app r.path
  · split
    · rw [List.map_singleton, List.map_singleton, hhttp]
    · rfl

/-! ## Routers -/

variable {apps : ExposedApps}

theorem ExposedApps.eq_of_app {o o' : ProxyRouteRenderInput} (h : o ∈ apps.inputs)
    (h' : o' ∈ apps.inputs) (happ : words o.app = words o'.app) : o = o' :=
  List.inj_on_of_nodup_map apps.distinct h h' (words_injective happ)

/-- The names of the routers are apart exactly when their words are. -/
theorem routers_iff (apps : ExposedApps) :
    (apps.inputs.flatMap routerNames).Nodup ↔ WordsApart apps := by
  have hwords : (apps.inputs.flatMap routerNames).Nodup ↔
      (apps.inputs.flatMap fun o => (routeEnds o).map fun e =>
        "vops".toList :: (words o.app ++ e)).Nodup := by
    rw [← List.nodup_map_iff words_injective, List.map_flatMap]
    simp only [words_routerNames]
  have hinputs : apps.inputs.Nodup := List.Nodup.of_map _ apps.distinct
  have hends (o : ProxyRouteRenderInput) : Function.Injective fun e : List (List Char) =>
      "vops".toList :: (words o.app ++ e) := by
    intro e e' h
    exact List.append_cancel_left (List.cons.inj h).2
  rw [hwords, List.nodup_flatMap]
  constructor
  · rintro ⟨hwithin, hbetween⟩
    refine ⟨fun o ho => (List.nodup_map_iff (hends o)).mp (hwithin o ho), ?_⟩
    intro o ho o' ho' more hmore happ e he hclash
    have hne : o ≠ o' := by
      rintro rfl
      exact hmore (List.self_eq_append_right.mp happ)
    have hsymm : Std.Symm (Function.onFun List.Disjoint fun o : ProxyRouteRenderInput =>
        (routeEnds o).map fun e => "vops".toList :: (words o.app ++ e)) :=
          ⟨fun _ _ h _ hx hx' => h hx' hx⟩
    have hdisjoint := hbetween.forall ho ho' hne
    refine hdisjoint (List.mem_map_of_mem hclash) ?_
    rw [← List.append_assoc, ← happ]
    exact List.mem_map_of_mem (f := fun e => "vops".toList :: (words o'.app ++ e)) he
  · intro h
    refine ⟨fun o ho => (h.within o ho).map (hends o), ?_⟩
    refine hinputs.pairwise_of_forall_ne fun o ho o' ho' hne x hx hx' => ?_
    obtain ⟨e, he, rfl⟩ := List.mem_map.mp hx
    obtain ⟨e', he', heq⟩ := List.mem_map.mp hx'
    rcases List.append_eq_append_iff.mp (List.cons.inj heq).2 with ⟨more, happ, hend⟩ |
      ⟨more, happ, hend⟩
    · by_cases hmore : more = []
      · rw [hmore, List.append_nil] at happ
        exact hne (ExposedApps.eq_of_app ho ho' happ)
      · exact h.between o' ho' o ho more hmore happ e he (hend ▸ he')
    · by_cases hmore : more = []
      · rw [hmore, List.append_nil] at happ
        exact hne (ExposedApps.eq_of_app ho ho' happ.symm)
      · exact h.between o ho o' ho' more hmore happ e' he' (hend ▸ he)

/-! ## Services and middlewares -/

theorem nodup_flatMap_of_sublist {α β : Type} {f g : α → List β} {l : List α}
    (h : ∀ x ∈ l, (g x).Sublist (f x)) (hf : (l.flatMap f).Nodup) : (l.flatMap g).Nodup := by
  refine hf.sublist ?_
  induction l with
  | nil => exact List.Sublist.refl _
  | cons x l ih =>
      rw [List.flatMap_cons, List.flatMap_cons] at *
      obtain ⟨hx, hl⟩ := List.forall_mem_cons.mp h
      exact hx.append (ih hl (List.nodup_append.mp hf).2.1)

/-- The own middlewares of an app: one for each path that is stripped, and its gate. -/
theorem mem_ownMiddlewares {o : ProxyRouteRenderInput} {cfg : TraefikConfig}
    (h : renderRoute o = .ok cfg) {name : String} (hname : name ∈ cfg.ownMiddlewares) :
    (∃ r ∈ o.routes.entries, name = routeName o.app r.path ++ "-strip") ∨
      name = authMiddleware o.app := by
  obtain ⟨-, -, hmiddlewares⟩ := renderRoute_eq h
  obtain ⟨hmem, hown⟩ := List.mem_filter.mp hname
  rw [hmiddlewares, List.map_append, List.map_append, List.map_map, List.mem_append,
    List.mem_append] at hmem
  obtain (hstrip | hredirect) | hauth := hmem
  · obtain ⟨r, hr, rfl⟩ := List.mem_map.mp hstrip
    exact .inl ⟨r, List.mem_of_mem_filter hr, rfl⟩
  · have hshared : name = "vops-https-redirect" := by
      split at hredirect
      · simpa using hredirect
      · cases hredirect
    rw [hshared] at hown
    exact absurd hown (by decide)
  · obtain ⟨m, hm, rfl⟩ := List.mem_map.mp hauth
    obtain ⟨a, -, rfl⟩ := Option.map_eq_some_iff.mp (Option.mem_toList.mp hm)
    exact .inr rfl

/-- The names of the services are among those of the routers. -/
theorem services_sublist {o : ProxyRouteRenderInput} {cfg : TraefikConfig}
    (h : renderRoute o = .ok cfg) : (cfg.services.map Prod.fst).Sublist (routerNames o) := by
  obtain ⟨-, hservices, -⟩ := renderRoute_eq h
  rw [hservices, List.map_map, routerNames]
  exact List.sublist_append_left _ _

theorem routers_eq {o : ProxyRouteRenderInput} {cfg : TraefikConfig} (h : renderRoute o = .ok cfg) :
    cfg.routers.map TraefikRouter.name = routerNames o := by
  obtain ⟨hrouters, -, -⟩ := renderRoute_eq h
  rw [hrouters, List.map_append, List.map_map, routerNames]
  split <;> rfl

/-- Two apps have no middleware in common where they have no router in common. -/
theorem disjoint_ownMiddlewares {o o' : ProxyRouteRenderInput} {cfg cfg' : TraefikConfig}
    (h : renderRoute o = .ok cfg) (h' : renderRoute o' = .ok cfg') (happ : o.app ≠ o'.app)
    (hrouters : (routerNames o).Disjoint (routerNames o')) :
    cfg.ownMiddlewares.Disjoint cfg'.ownMiddlewares := by
  intro name hname hname'
  rcases mem_ownMiddlewares h hname with ⟨r, hr, rfl⟩ | rfl
  · rcases mem_ownMiddlewares h' hname' with ⟨r', hr', heq⟩ | heq
    · have hsame : routeName o.app r.path = routeName o'.app r'.path := by
        simpa [← String.toList_inj] using heq
      refine hrouters (a := routeName o.app r.path) ?_ ?_
      · exact List.mem_append_left _ (List.mem_map_of_mem hr)
      · rw [hsame]
        exact List.mem_append_left _ (List.mem_map_of_mem hr')
    · exact absurd heq (append_ne_append (by decide) (by decide) (by decide))
  · rcases mem_ownMiddlewares h' hname' with ⟨r', hr', heq⟩ | heq
    · exact absurd heq (append_ne_append (by decide) (by decide) (by decide))
    · refine happ ?_
      simpa [authMiddleware, ← String.toList_inj] using heq

/-! ## Exactly when they are apart -/

/-- The names of the routers, services and middlewares of the apps of a host are apart exactly when
the words of the routes are. -/
theorem traefik_apart_iff (apps : ExposedApps) (cfg : ProxyRouteRenderInput → TraefikConfig)
    (hcfg : ∀ o ∈ apps.inputs, renderRoute o = .ok (cfg o)) :
    TraefikApart (apps.inputs.map cfg) ↔ WordsApart apps := by
  have hrouters : ((apps.inputs.map cfg).flatMap fun c => c.routers.map TraefikRouter.name) =
      apps.inputs.flatMap routerNames := by
    rw [List.flatMap_map]
    exact List.flatMap_congr fun o ho => routers_eq (hcfg o ho)
  constructor
  · intro h
    rw [← routers_iff, ← hrouters]
    exact h.routers
  · intro h
    rw [← routers_iff] at h
    refine ⟨hrouters ▸ h, ?_, ?_⟩
    · rw [List.flatMap_map]
      exact nodup_flatMap_of_sublist (fun o ho => services_sublist (hcfg o ho)) h
    · rw [List.flatMap_map, List.nodup_flatMap]
      obtain ⟨hwithin, hbetween⟩ := List.nodup_flatMap.mp h
      constructor
      · intro o ho
        refine (middlewares_keyed (hcfg o ho) ?_).filter _
        exact (hwithin o ho).sublist (List.sublist_append_left _ _)
      · have happs := List.pairwise_map.mp apps.distinct
        refine (happs.and hbetween).imp_of_mem fun ho ho' hboth => ?_
        exact disjoint_ownMiddlewares (hcfg _ ho) (hcfg _ ho') hboth.1 hboth.2

/-- What is rendered, or nothing. -/
def renderedRoute (o : ProxyRouteRenderInput) : TraefikConfig :=
  (renderRoute o).toOption.getD ⟨[], [], []⟩

theorem renderedRoute_plain (app : String) (routes : AppRoutes) :
    renderRoute (plainInput app routes) = .ok (renderedRoute (plainInput app routes)) := rfl

/-- A wiki and a shop. -/
def wikiAndShop : ExposedApps where
  inputs := [plainInput "wiki" wikiRoutes, plainInput "shop" shopRoutes]
  distinct := by decide

theorem traefik_apart_wiki :
    TraefikApart (wikiAndShop.inputs.map renderedRoute) ↔ WordsApart wikiAndShop :=
  traefik_apart_iff wikiAndShop renderedRoute (by
    intro o ho
    simp only [wikiAndShop, List.mem_cons, List.not_mem_nil, or_false] at ho
    rcases ho with rfl | rfl <;> exact renderedRoute_plain _ _)

/-- One root route. -/
def rootOnly : AppRoutes where
  entries := [routeAt 20004 "/" false]
  nonempty := by simp
  distinct := by decide

/-- A wiki with its documentation, and another app whose name goes on with the word of that path. -/
def wikiAndDocs : ExposedApps where
  inputs := [plainInput "wiki" wikiRoutes, plainInput "wiki-docs" rootOnly]
  distinct := by decide

theorem docs_names : ((wikiAndDocs.inputs.map renderedRoute).flatMap fun cfg =>
    cfg.services.map Prod.fst) = ["vops-wiki", "vops-wiki-docs", "vops-wiki-docs"] := by
  decide

/-- The path of the one app and the root of the other have one name. -/
theorem docs_replaced : ¬TraefikApart (wikiAndDocs.inputs.map renderedRoute) := by
  intro h
  have hservices := h.services
  rw [docs_names] at hservices
  exact absurd hservices (by decide)

end Vops.Apps
