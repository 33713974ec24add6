import Vops.Apps.BindThms
import Vops.Apps.DeployDecision

/-!
# The login gate cannot be walked around

* `decideDeploy_spec` — how a decision comes about.
* `BackendsLoopback` — the backends of the routes are published on the loopback address, and on no other.
* `PublishesPublicly` — `--public`, or what a previous install published.
* `backends_loopback_iff` — behind a gate the backends are so exactly when nothing is published publicly.
* `wiki_direct` — a gated app that was installed with `--public` before.
-/

namespace Vops.Apps

variable {crypt : Crypt} {plan : FullAppPlan} {facts : HostFacts} {host : DeployHost}
  {opts : DeployOptions} {prev : Option AppInstall} {reservations : PortReservations}
  {d : DeployDecision}

/-! ## Decisions -/

/-- How a decision comes about. -/
structure Decided (crypt : Crypt) (plan : FullAppPlan) (facts : HostFacts) (host : DeployHost)
    (opts : DeployOptions) (prev : Option AppInstall) (reservations : PortReservations)
    (d : DeployDecision) : Prop where
  target : d.host = host
  prepared : ∃ p, preparePlan plan opts.set opts.dryRun = .ok p ∧
    d.plan = { p with warnings := d.plan.warnings } ∧
    resolveBinding p host opts.binding = .ok d.resolution
  gate : resolveGate crypt d.plan d.resolution opts.auth prev = .ok d.gate
  publish : d.publish = (resolvePublishIntent opts.publicly prev).1
  bound : planHostDeploy d.plan.bound facts host.address
    (d.resolution.map BindingResolution.binding) d.publish (some reservations) = .ok (d.bound, d.hp)

theorem decideDeploy_spec
    (h : decideDeploy crypt plan facts host opts prev reservations = .ok d) :
    Decided crypt plan facts host opts prev reservations d := by
  obtain ⟨p, hp, h⟩ := Async.except_bind_eq_ok.mp h
  obtain ⟨resolution, hresolution, h⟩ := Async.except_bind_eq_ok.mp h
  obtain ⟨gate, hgate, h⟩ := Async.except_bind_eq_ok.mp h
  obtain ⟨⟨bound, hp'⟩, hbound, h⟩ := Async.except_bind_eq_ok.mp h
  cases h
  exact ⟨rfl, ⟨p, hp, rfl, hresolution⟩, hgate, rfl, hbound⟩

@[simp] theorem install_components : d.install.components = (toInstall d.bound d.hp).components := by
  unfold DeployDecision.install
  cases d.gate with
  | none => rfl
  | some gate => rfl

theorem containersNamed_bound (plan : FullAppPlan) : ContainersNamed plan.bound := by
  intro c hc
  obtain ⟨comp, -, rfl⟩ := List.mem_map.mp hc
  rfl

theorem ContainersNamed.substitute {plan : AppPlan} (h : ContainersNamed plan)
    (ingress : Option IngressBinding) (ports : Record (List PublishedPort)) :
    ContainersNamed (substituteAppDomain plan ingress ports) := by
  intro c hc
  obtain ⟨comp, hcomp, rfl⟩ := List.mem_map.mp hc
  exact h comp hcomp

/-- A binding has at least one route. -/
theorem routes_ne_nil {p : FullAppPlan} {host : DeployHost} {opts : BindingOptions}
    {r : BindingResolution} (h : resolveBinding p host opts = .ok (some r)) : r.routes ≠ [] := by
  unfold resolveBinding at h
  split at h
  · cases h
  · obtain ⟨routes, -, h⟩ := Async.except_bind_eq_ok.mp h
    obtain ⟨u, hrouted, h⟩ := Async.except_bind_eq_ok.mp h
    obtain ⟨⟨hostname, warnings⟩, -, h⟩ := Async.except_bind_eq_ok.mp h
    cases h
    rintro rfl
    cases hrouted

/-- The host port of a route is one that is published for a component. -/
theorem published_of_resolveRoute {components : List InstallComponent} {route : RoutePort}
    {entry : RouteEntry} (h : resolveRoute components route = .ok entry) :
    ∃ c ∈ components, c.name = route.component ∧
      ∃ p ∈ c.published, p.container = route.containerPort ∧ p.host = entry.hostPort := by
  unfold resolveRoute at h
  simp only at h
  split at h
  · rename_i p hp
    cases h
    obtain ⟨c, hc, hp⟩ := Option.bind_eq_some_iff.mp hp
    refine ⟨c, List.mem_of_find?_eq_some hc, ?_, p, List.mem_of_find?_eq_some hp, ?_, rfl⟩
    · simpa using List.find?_some hc
    · simpa using List.find?_some hp
  · cases h

/-! ## Backends -/

/-- The routes are attached behind a login gate, and direct access is not kept. -/
structure GatedAttach (d : DeployDecision) (r : BindingResolution) (routes : List RouteEntry) : Prop where
  resolution : d.resolution = some r
  gated : d.gate.isSome
  hidden : r.exposeDirect = false
  attached : d.routes r = .ok routes

/-- The backend of every route is published on the loopback address in a unit, and on no other address. -/
def BackendsLoopback (hp : HostDeployPlan) (routes : List RouteEntry) : Prop :=
  ∀ r ∈ routes, LOOPBACK_BIND ∈ bindsOf hp.units r.hostPort ∧
    ∀ e ∈ hp.ports.entries, ∀ p ∈ e.2, p.host = r.hostPort → p.bind = LOOPBACK_BIND

/-- Ports are published publicly: as it is asked for or, where nothing is said, as the previous install has
it on record or has bound them. -/
def PublishesPublicly (explicit : Option Bool) (prev : Option AppInstall) : Prop :=
  explicit = some true ∨ explicit = none ∧ ∃ i, prev = some i ∧
    (i.publish = some .publicly ∨ i.publish = none ∧ hasPublicBind i = true)

theorem publish_publicly_iff {explicit : Option Bool} :
    (resolvePublishIntent explicit prev).1 = .publicly ↔ PublishesPublicly explicit prev := by
  unfold resolvePublishIntent PublishesPublicly
  cases explicit with
  | some choice => cases choice <;> simp
  | none =>
      cases prev with
      | none => simp
      | some i =>
          cases hpublish : i.publish with
          | some publish => cases publish <;> simp [hpublish]
          | none => cases hbind : hasPublicBind i <;> simp [hpublish, hbind]

/-- Without direct access, the publish intent alone decides on which address a port is published. -/
theorem bindAddress_eq {facts : HostFacts} {address : String} {r : BindingResolution}
    {publish : PublishIntent} (h : r.exposeDirect = false) (component : String) (q : AppPortPlan) :
    bindAddress (bindCtx facts address (some r.binding) publish (some reservations)) component q =
      if publish = .publicly then PUBLISH_BIND else LOOPBACK_BIND := by
  have hpublic : isPublicPort (bindCtx facts address (some r.binding) publish (some reservations))
      component q = (publish == .publicly) := by
    unfold isPublicPort
    have hdirect : (some r.binding).map IngressBinding.exposeDirect = some false := congrArg some h
    rw [show (bindCtx facts address (some r.binding) publish (some reservations)).ingress =
      some r.binding from rfl, hdirect]
    simp [bindCtx]
  unfold bindAddress
  rw [hpublic]
  cases publish <;> rfl

/-- Every published port of a decision without direct access is on the address of the intent. -/
theorem Decided.bind_of_published (h : Decided crypt plan facts host opts prev reservations d)
    {r : BindingResolution} (hr : d.resolution = some r) (hhidden : r.exposeDirect = false)
    {e : String × List PublishedPort} (he : e ∈ d.hp.ports.entries) {p : PublishedPort} (hp : p ∈ e.2) :
    p.bind = if d.publish = .publicly then PUBLISH_BIND else LOOPBACK_BIND := by
  have hbound := h.bound
  rw [hr] at hbound
  obtain ⟨blocks, hblocks, hports, -, -, -⟩ := bound_planHostDeploy hbound
  rw [hports] at he
  obtain ⟨comp, -, q, -, b, -, -, has, rfl, -⟩ := boundAs_of_mem hblocks he hp
  rw [has.bind]
  exact bindAddress_eq hhidden _ _

/-- The backend of a route is published for its component, and a unit binds it. -/
theorem Decided.backend_bound (h : Decided crypt plan facts host opts prev reservations d)
    {r : BindingResolution} (hr : d.resolution = some r) (hhidden : r.exposeDirect = false)
    {routes : List RouteEntry} (hroutes : d.routes r = .ok routes) {route : RouteEntry}
    (hroute : route ∈ routes) :
    ∃ e ∈ d.hp.ports.entries, ∃ p ∈ e.2, p.host = route.hostPort ∧
      p.bind ∈ bindsOf d.hp.units route.hostPort := by
  obtain ⟨port, -, hresolve⟩ := exists_of_mem_mapM hroutes hroute
  obtain ⟨c, hc, -, p, hp, -, hhost⟩ := published_of_resolveRoute hresolve
  rw [install_components] at hc
  obtain ⟨comp, hcomp, rfl⟩ := List.mem_map.mp hc
  obtain ⟨e, he, hpe⟩ := mem_of_get? hp
  refine ⟨e, he, p, hpe, hhost, ?_⟩
  obtain ⟨blocks, hblocks, hports, -, hplan, hunits⟩ := bound_planHostDeploy h.bound
  rw [hunits, ← hhost]
  have hnamed : ContainersNamed d.bound := by
    rw [hplan]
    exact (containersNamed_bound d.plan).substitute _ _
  refine mem_bindsOf_renderDeploy hnamed (fun e he p hp => ?_) hcomp hp
  have hbind := h.bind_of_published hr hhidden he hp
  rw [hbind]
  split
  · unfold PlainBind PUBLISH_BIND
    decide
  · unfold PlainBind LOOPBACK_BIND
    decide

/-- Where an ingress is attached behind a login gate and direct access is not kept, its backends are
published on the loopback address only exactly when nothing is published publicly. -/
theorem backends_loopback_iff {r : BindingResolution} {routes : List RouteEntry}
    (h : decideDeploy crypt plan facts host opts prev reservations = .ok d)
    (hattach : GatedAttach d r routes) :
    BackendsLoopback d.hp routes ↔ ¬PublishesPublicly opts.publicly prev := by
  have hdecided := decideDeploy_spec h
  obtain ⟨hr, -, hhidden, hroutes⟩ := hattach
  rw [← publish_publicly_iff, ← hdecided.publish]
  constructor
  · intro hloopback hpublic
    obtain ⟨p, -, -, hresolution⟩ := hdecided.prepared
    rw [hr] at hresolution
    obtain ⟨port, rest, hcons⟩ := List.exists_cons_of_ne_nil (routes_ne_nil hresolution)
    obtain ⟨route, hroute, -⟩ := exists_of_mem_source hroutes (hcons ▸ List.mem_cons_self)
    obtain ⟨e, he, q, hq, hhost, -⟩ := hdecided.backend_bound hr hhidden hroutes hroute
    have hbind := hdecided.bind_of_published hr hhidden he hq
    rw [if_pos hpublic, (hloopback route hroute).2 e he q hq hhost] at hbind
    exact absurd hbind (by decide)
  · intro hprivate route hroute
    obtain ⟨e, he, q, hq, hhost, hmem⟩ := hdecided.backend_bound hr hhidden hroutes hroute
    have hall (e : String × List PublishedPort) (he : e ∈ d.hp.ports.entries) (p : PublishedPort)
        (hp : p ∈ e.2) : p.bind = LOOPBACK_BIND := by
      have hbind := hdecided.bind_of_published hr hhidden he hp
      rwa [if_neg hprivate] at hbind
    exact ⟨hall e he q hq ▸ hmem, fun e he p hp _ => hall e he p hp⟩

/-! ## A gated app -/

/-- An app with one page. -/
def wikiComponent : FullComponentPlan where
  name := "app"
  image := "docker.io/wiki:1"
  env := []
  secrets := []
  ports := [(⟨8080, true, .http⟩, none)]
  volumes := []
  cpu := none
  memory := none
  health := none
  dependsOn := []
  command := none

/-- The plan of the app. -/
def gatedWiki : FullAppPlan where
  name := "wiki"
  appId := "wiki"
  pod := none
  components := [wikiComponent]
  primary := "app"
  smokeTest := none
  domain := none
  needsAppDomain := false
  access := none
  authMode := none
  exposure := none
  warnings := []

/-- `--domain wiki.example.com --auth basic --auth-pass secret` -/
def gatedOptions : DeployOptions where
  name := none
  set := .empty
  dryRun := false
  ingress := some ⟨⟨some "wiki.example.com", none, false, false, false⟩, none,
    some ⟨.basic, none, some "secret"⟩⟩
  publicly := none
  registry := none

/-- The app as it was installed before, with what it was asked to publish. -/
def wikiRow (publish : PublishIntent) : AppInstall where
  name := "wiki"
  pod := none
  primary := "app"
  components := [⟨"app", "vops-wiki-app", "docker.io/wiki:1", []⟩]
  units := .empty
  secrets := []
  volumes := []
  endpoints := []
  status := .deployed
  host := "web1"
  appId := "wiki"
  ingress := none
  access := none
  publish := some publish

/-- The app is put behind a gate. -/
def gatedDeploy (prev : Option AppInstall) : Except String DeployDecision :=
  decideDeploy ⟨"generated", fun password => "$2b$12$" ++ password⟩ gatedWiki ⟨false, false, [22]⟩
    ⟨"web1", "203.0.113.7"⟩ gatedOptions prev ⟨.empty, []⟩

/-- What a deploy attaches behind a gate, and what it publishes. -/
def gatedPorts (x : Except String DeployDecision) : Option (List ℤ × List PublishedPort) :=
  match x with
  | .error _ => none
  | .ok d =>
      match d.resolution with
      | none => none
      | some r =>
          match d.routes r with
          | .error _ => none
          | .ok routes =>
              if d.gate.isSome ∧ r.exposeDirect = false then
                some (routes.map RouteEntry.hostPort, d.hp.ports.entries.flatMap Prod.snd)
              else none

theorem gatedPorts_spec {x : Except String DeployDecision} {ports : List ℤ}
    {published : List PublishedPort} (h : gatedPorts x = some (ports, published)) :
    ∃ d r routes, x = .ok d ∧ GatedAttach d r routes ∧ routes.map RouteEntry.hostPort = ports ∧
      d.hp.ports.entries.flatMap Prod.snd = published := by
  unfold gatedPorts at h
  split at h
  · cases h
  · rename_i d
    split at h
    · cases h
    · rename_i r hr
      split at h
      · cases h
      · rename_i routes hroutes
        split at h
        · rename_i hgate
          cases h
          exact ⟨d, r, routes, rfl, ⟨hr, hgate.1, hgate.2, hroutes⟩, rfl, rfl⟩
        · cases h

theorem gatedDeploy_ports :
    gatedPorts (gatedDeploy none) = some ([20000], [⟨20000, 8080, "127.0.0.1"⟩]) ∧
      gatedPorts (gatedDeploy (some (wikiRow .publicly))) =
        some ([20000], [⟨20000, 8080, "0.0.0.0"⟩]) := by
  decide +kernel

/-- A first install keeps its backend to itself. -/
theorem wiki_gated : ∃ d r routes, gatedDeploy none = .ok d ∧ GatedAttach d r routes ∧
    BackendsLoopback d.hp routes := by
  obtain ⟨d, r, routes, hd, hattach, -⟩ := gatedPorts_spec gatedDeploy_ports.1
  refine ⟨d, r, routes, hd, hattach, (backends_loopback_iff hd hattach).mpr ?_⟩
  rintro (hexplicit | ⟨-, i, hprev, -⟩)
  · cases hexplicit
  · cases hprev

/-- An app that was installed with `--public` is published on every address behind its gate. -/
theorem wiki_direct : ∃ d r routes, gatedDeploy (some (wikiRow .publicly)) = .ok d ∧
    GatedAttach d r routes ∧ ¬BackendsLoopback d.hp routes := by
  obtain ⟨d, r, routes, hd, hattach, hports, hpublished⟩ := gatedPorts_spec gatedDeploy_ports.2
  refine ⟨d, r, routes, hd, hattach, fun hloopback => ?_⟩
  obtain ⟨route, hroute, hhost⟩ := List.mem_map.mp (hports.symm ▸ List.mem_singleton_self (20000 : ℤ))
  have hp : (⟨20000, 8080, "0.0.0.0"⟩ : PublishedPort) ∈ d.hp.ports.entries.flatMap Prod.snd :=
    hpublished.symm ▸ List.mem_singleton_self _
  obtain ⟨e, he, hp⟩ := List.mem_flatMap.mp hp
  exact absurd ((hloopback route hroute).2 e he _ hp hhost.symm) (by decide)

end Vops.Apps
