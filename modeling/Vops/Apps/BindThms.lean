import Vops.Apps.NameThms
import Vops.Apps.PortThms
import Vops.Apps.QuadletRender
import Vops.Lib.Numerals

/-!
# What is bound for the exposed ports, and what the units publish

* `bindAddress`, `BoundAs` — the address, the endpoint and the published port of an exposed port.
* `bound_planHostDeploy` — all exposed ports of a plan are bound so.
* `mem_bindsOf_renderDeploy` — the units publish every published port on its address.
-/

/-!
## The `PublishPort=` lines of unit files

* `bindFor` — the address to which a line binds a host port.
* `lineBinds`, `bindsOf` — the addresses of the lines of a text, and of the files of a record.
* `lineBinds_joinLines`, `lineBinds_publish` — the lines of a file are those of its pieces.
* `publishedLines` — the lines that are rendered for some ports.
-/

namespace Vops.Apps

open Numerals

/-! ## Lines -/

/-- The address to which a line binds a host port, if it is a `PublishPort=` line for it. -/
def bindFor (host : ℤ) (line : List Char) : Option String :=
  if "PublishPort=".toList.isPrefixOf line then
    let rest := line.drop "PublishPort=".toList.length
    let bind := rest.takeWhile (· ≠ ':')
    if (':' :: (toString host).toList ++ [':']).isPrefixOf (rest.drop bind.length) then
      some (String.ofList bind)
    else none
  else none

/-- The addresses to which the lines of a text bind a host port. -/
def lineBinds (host : ℤ) (text : String) : List String :=
  (text.toList.splitOn '\n').filterMap (bindFor host)

/-- The addresses to which the files of a record bind a host port. -/
def bindsOf (units : Record String) (host : ℤ) : List String :=
  units.entries.flatMap fun e => lineBinds host e.2

theorem lineBinds_joinLines (host : ℤ) {pieces : List String} (h : pieces ≠ []) :
    lineBinds host (joinLines pieces) = pieces.flatMap (lineBinds host) := by
  unfold joinLines
  induction pieces with
  | nil => exact absurd rfl h
  | cons piece pieces ih =>
      cases pieces with
      | nil => simp
      | cons piece' pieces =>
          have hih := ih (List.cons_ne_nil _ _)
          rw [String.intercalate_cons_cons, List.flatMap_cons, ← hih]
          unfold lineBinds
          rw [String.toList_append, String.toList_append, List.append_assoc]
          rw [show "\n".toList = ['\n'] from rfl, List.singleton_append, List.splitOn_append_cons_self,
            List.filterMap_append]

/-- A text without line breaks is one line. -/
theorem lineBinds_of_notMem {host : ℤ} {text : String} (h : '\n' ∉ text.toList) :
    lineBinds host text = (bindFor host text.toList).toList := by
  unfold lineBinds
  rw [List.splitOn_eq_singleton h, List.filterMap_cons]
  cases bindFor host text.toList with
  | none => rfl
  | some bind => rfl

/-- An address that can be written into a line. -/
def PlainBind (bind : String) : Prop := ∀ c ∈ bind.toList, c ≠ ':' ∧ c ≠ '\n'

theorem publish_toList (p : PublishedPort) : (publish p).toList = "PublishPort=".toList ++
    (p.bind.toList ++ (':' :: (toString p.host).toList ++ (':' :: (toString p.container).toList))) := by
  simp only [publish, String.toList_append, toString, List.append_assoc]
  rfl

theorem takeWhile_colon {text rest : List Char} (h : ∀ c ∈ text, c ≠ ':') :
    (text ++ ':' :: rest).takeWhile (· ≠ ':') = text := by
  rw [List.takeWhile_append_of_pos fun c hc => by simpa using h c hc, List.takeWhile_cons_of_neg (by simp),
    List.append_nil]

theorem ne_colon_of_toString {n : ℤ} : ∀ c ∈ (toString n).toList, c ≠ ':' := by
  rintro c hc rfl
  rcases char_of_toString hc with hc | hc
  · exact absurd hc (by decide)
  · exact absurd hc (by decide)

theorem bindFor_publish (host : ℤ) {p : PublishedPort} (h : PlainBind p.bind) :
    bindFor host (publish p).toList = if p.host = host then some p.bind else none := by
  have hbind : ∀ c ∈ p.bind.toList, c ≠ ':' := fun c hc => (h c hc).1
  unfold bindFor
  rw [publish_toList, if_pos (List.isPrefixOf_iff_prefix.mpr (List.prefix_append _ _)), List.drop_left]
  simp only [List.cons_append, takeWhile_colon hbind, List.drop_left, String.ofList_toList]
  -- The digits up to the next colon are those of the host port.
  have hdigits : List.isPrefixOf (':' :: ((toString host).toList ++ [':']))
      (':' :: ((toString p.host).toList ++ ':' :: (toString p.container).toList)) = true ↔
        p.host = host := by
    rw [List.isPrefixOf_iff_prefix, List.cons_prefix_cons]
    constructor
    · rintro ⟨-, rest, hrest⟩
      rw [List.append_assoc, List.singleton_append] at hrest
      have htake := congrArg (List.takeWhile (· ≠ ':')) hrest
      rw [takeWhile_colon ne_colon_of_toString, takeWhile_colon ne_colon_of_toString] at htake
      exact (toString_int_injective (String.toList_inj.mp htake)).symm
    · rintro rfl
      refine ⟨rfl, (toString p.container).toList, ?_⟩
      rw [List.append_assoc, List.singleton_append]
  by_cases hhost : p.host = host
  · rw [if_pos (hdigits.mpr hhost), if_pos hhost]
  · rw [if_neg (fun hprefix => hhost (hdigits.mp hprefix)), if_neg hhost]

theorem newline_notMem_publish {p : PublishedPort} (h : PlainBind p.bind) :
    '\n' ∉ (publish p).toList := by
  have hnumber {n : ℤ} : '\n' ∉ (toString n).toList := by
    intro hc
    rcases char_of_toString hc with hc | hc
    · exact absurd hc (by decide)
    · exact absurd hc (by decide)
  rw [publish_toList]
  simp only [List.mem_append, List.mem_cons, not_or]
  exact ⟨by decide, fun hc => (h _ hc).2 rfl, ⟨by decide, hnumber⟩, by decide, hnumber⟩

theorem lineBinds_publish (host : ℤ) {p : PublishedPort} (h : PlainBind p.bind) :
    lineBinds host (publish p) = if p.host = host then [p.bind] else [] := by
  rw [lineBinds_of_notMem (newline_notMem_publish h), bindFor_publish host h]
  split
  · rfl
  · rfl

/-- The lines that are rendered for some ports. -/
theorem lineBinds_publishes (host : ℤ) {ports : List PublishedPort} (h : ∀ p ∈ ports, PlainBind p.bind) :
    (ports.map publish).flatMap (lineBinds host) =
      (ports.filter fun p => p.host = host).map PublishedPort.bind := by
  induction ports with
  | nil => rfl
  | cons p ports ih =>
      obtain ⟨hp, hports⟩ := List.forall_mem_cons.mp h
      rw [List.map_cons, List.flatMap_cons, lineBinds_publish host hp, ih hports]
      by_cases hhost : p.host = host
      · rw [if_pos hhost, List.filter_cons_of_pos (by simpa using hhost)]
        rfl
      · rw [if_neg hhost, List.filter_cons_of_neg (by simpa using hhost)]
        rfl

/-! ## Rendered units -/

/-- What binds a host port among some published ports. -/
def bindsAmong (host : ℤ) (ports : List PublishedPort) : List String :=
  (ports.filter fun p => p.host = host).map PublishedPort.bind

/-- The same context without any published port. -/
def RenderContext.silent (ctx : RenderContext) : RenderContext := { ctx with ports := .empty }

@[simp] theorem published_silent (ctx : RenderContext) (component : String) :
    ctx.silent.published component = [] := rfl

/-- The published ports of a context can be written into lines. -/
def RenderContext.Plain (ctx : RenderContext) : Prop :=
  ∀ e ∈ ctx.ports.entries, ∀ p ∈ e.2, PlainBind p.bind

theorem RenderContext.Plain.published {ctx : RenderContext} (h : ctx.Plain) {component : String}
    {p : PublishedPort} (hp : p ∈ ctx.published component) : PlainBind p.bind := by
  unfold RenderContext.published Record.get? at hp
  cases hget : Table.get Prod.fst component ctx.ports.entries with
  | none =>
      rw [hget] at hp
      cases hp
  | some e =>
      rw [hget] at hp
      exact h e (Table.mem_of_get hget) p hp

/-- The ports that are published in the file of a component: all of them are in the file of the pod if
there is one. -/
def containerPorts (plan : AppPlan) (comp : AppComponentPlan) (ctx : RenderContext) :
    List PublishedPort :=
  match truthyText plan.pod with
  | some _ => []
  | none => ctx.published comp.name

/-- The ports that are published in the file of a pod. -/
def podPorts (plan : AppPlan) (ctx : RenderContext) : List PublishedPort :=
  plan.components.flatMap fun c => ctx.published c.name

/-- A file binds what some ports ask for, besides what its other lines do. -/
def Adds (host : ℤ) (ports : List PublishedPort) (text silent : String) : Prop :=
  ∃ before behind, lineBinds host silent = before ++ behind ∧
    lineBinds host text = before ++ (bindsAmong host ports ++ behind)

theorem adds_of_pieces (host : ℤ) {ports : List PublishedPort} {before behind : List String}
    (hbefore : before ≠ []) (h : ∀ p ∈ ports, PlainBind p.bind) :
    Adds host ports (joinLines (before ++ (ports.map publish ++ behind)))
      (joinLines (before ++ behind)) := by
  have hne (rest : List String) : before ++ rest ≠ [] := List.append_ne_nil_of_left_ne_nil hbefore rest
  refine ⟨before.flatMap (lineBinds host), behind.flatMap (lineBinds host), ?_, ?_⟩
  · rw [lineBinds_joinLines host (hne _), List.flatMap_append]
  · rw [lineBinds_joinLines host (hne _), List.flatMap_append, List.flatMap_append,
      lineBinds_publishes host h]
    rfl

theorem Adds.mem {host : ℤ} {ports : List PublishedPort} {text silent : String}
    (h : Adds host ports text silent) {p : PublishedPort} (hp : p ∈ ports) (hhost : p.host = host) :
    p.bind ∈ lineBinds host text := by
  obtain ⟨before, behind, -, htext⟩ := h
  rw [htext]
  refine List.mem_append_right _ (List.mem_append_left _ (List.mem_map_of_mem ?_))
  exact List.mem_filter.mpr ⟨hp, by simpa using hhost⟩

theorem adds_renderPod (host : ℤ) (plan : AppPlan) (pod : String) {ctx : RenderContext}
    (h : ctx.Plain) :
    Adds host (podPorts plan ctx) (renderPod plan pod ctx) (renderPod plan pod ctx.silent) := by
  have hpieces (ctx : RenderContext) : renderPod plan pod ctx =
      joinLines ((renderSection "Unit" [s!"Description=vops pod {pod}"] ++ ["[Pod]", s!"PodName={pod}"]) ++
        ((podPorts plan ctx).map publish ++ ([""] ++ renderSection "Install" ["WantedBy=default.target"]))) := by
    unfold renderPod podPorts
    rw [List.map_flatMap]
    simp only [renderSection, List.append_assoc, List.cons_append, List.nil_append]
    rfl
  have hnone : (podPorts plan ctx.silent).map publish = [] := by
    simp [podPorts]
  rw [hpieces ctx, hpieces ctx.silent, hnone, List.nil_append]
  refine adds_of_pieces host (by simp [renderSection]) fun p hp => ?_
  obtain ⟨c, -, hp⟩ := List.mem_flatMap.mp hp
  exact h.published hp

theorem adds_renderContainer (host : ℤ) (plan : AppPlan) (comp : AppComponentPlan)
    {ctx : RenderContext} (h : ctx.Plain) :
    Adds host (containerPorts plan comp ctx) (renderContainer plan comp ctx)
      (renderContainer plan comp ctx.silent) := by
  let before := renderSection "Unit" (("Description=vops app " ++ plan.name ++ " / " ++ comp.name) ::
    afterDeps plan comp) ++ ["[Container]", "ContainerName=" ++ comp.container, "Image=" ++ comp.image] ++
    ((truthyText plan.pod).map fun pod => s!"Pod={pod}.pod").toList
  let behind := comp.env.map (fun e => "Environment=" ++ e.name ++ "=" ++ e.value) ++
    comp.secrets.map (fun s => "Secret=source=" ++ s.name ++ ",type=env,target=" ++ s.target) ++
    comp.volumes.map (fun v => "Volume=" ++ v.volume ++ ".volume:" ++ v.mountPath ++
      if ctx.selinux then ":Z" else "") ++
    (comp.command.map execLines).getD [] ++ healthLines comp ++ podmanArgs comp ++ [""] ++
    renderSection "Service" ["Restart=always", "RestartSec=5", s!"TimeoutStartSec={START_TIMEOUT_SEC}"] ++
    renderSection "Install" ["WantedBy=default.target"]
  have hpieces (ports : Record (List PublishedPort)) :
      renderContainer plan comp { ctx with ports := ports } =
        joinLines (before ++ ((containerPorts plan comp { ctx with ports := ports }).map publish ++
          behind)) := by
    unfold renderContainer containerPorts
    cases hpod : truthyText plan.pod with
    | none =>
        simp only [before, behind, hpod, renderSection, List.append_assoc, List.cons_append, List.nil_append,
          Option.map_none, Option.toList_none]
        rfl
    | some pod =>
        simp only [before, behind, hpod, renderSection, List.append_assoc, List.cons_append, List.nil_append,
          Option.map_some, Option.toList_some, List.map_nil]
        rfl
  have hnone : (containerPorts plan comp ctx.silent).map publish = [] := by
    unfold containerPorts
    cases truthyText plan.pod with
    | none => simp
    | some pod => rfl
  have hloud := hpieces ctx.ports
  have hsilent := hpieces .empty
  change renderContainer plan comp ctx.silent = joinLines (before ++
    ((containerPorts plan comp ctx.silent).map publish ++ behind)) at hsilent
  change renderContainer plan comp ctx = joinLines (before ++
    ((containerPorts plan comp ctx).map publish ++ behind)) at hloud
  rw [hnone, List.nil_append] at hsilent
  rw [hloud, hsilent]
  refine adds_of_pieces host (by simp [before, renderSection]) fun p hp => ?_
  unfold containerPorts at hp
  split at hp
  · cases hp
  · exact h.published hp

end Vops.Apps

namespace Vops.Apps

variable {ctx : BindCtx} {used used' : List ℤ} {plan plan' : AppPlan} {hp : HostDeployPlan}

/-! ## Exposed ports -/

/-- The port is bound on the public address. -/
def isPublicPort (ctx : BindCtx) (component : String) (q : AppPortPlan) : Bool :=
  ctx.publish == .publicly ||
    (routeFor component q ctx.ingress).isSome && (ctx.ingress.map IngressBinding.exposeDirect).getD false

/-- The address on which an exposed port is bound. -/
def bindAddress (ctx : BindCtx) (component : String) (q : AppPortPlan) : String :=
  if isPublicPort ctx component q then PUBLISH_BIND else LOOPBACK_BIND

/-- What is bound for an exposed port of a component. -/
structure BoundAs (ctx : BindCtx) (component : String) (q : AppPortPlan) (b : BoundPort) : Prop where
  container : b.published.container = q.container
  bind : b.published.bind = bindAddress ctx component q
  host : b.published.host = b.endpoint.port
  owner : b.endpoint.component = component
  reach : b.endpoint.reach =
    reachFor (routeFor component q ctx.ingress).isSome (isPublicPort ctx component q)

theorem boundAs_bindExposedPort {component : String} {q : AppPortPlan} {b : BoundPort}
    (h : bindExposedPort component q ctx used = .ok (b, used')) : BoundAs ctx component q b := by
  obtain ⟨⟨host, used''⟩, -, hb⟩ := Async.except_bind_eq_ok.mp h
  cases hb
  exact ⟨rfl, rfl, rfl, rfl, rfl⟩

theorem boundAs_bindComponent {component : String} {ports : List AppPortPlan} {bs : List BoundPort}
    (h : bindComponent component ctx ports used = .ok (bs, used')) :
    List.Forall₂ (BoundAs ctx component) (ports.filter AppPortPlan.expose) bs := by
  induction ports generalizing used bs with
  | nil =>
      cases h
      exact .nil
  | cons q ports ih =>
      unfold bindComponent at h
      by_cases hexpose : q.expose = true
      · rw [if_pos hexpose] at h
        obtain ⟨⟨b, used₁⟩, hb, h⟩ := Async.except_bind_eq_ok.mp h
        obtain ⟨⟨rest, used₂⟩, hrest, h⟩ := Async.except_bind_eq_ok.mp h
        cases h
        rw [List.filter_cons_of_pos hexpose]
        exact .cons (boundAs_bindExposedPort hb) (ih hrest)
      · rw [if_neg hexpose] at h
        rw [List.filter_cons_of_neg hexpose]
        exact ih h

/-- What is bound for a component. -/
structure BoundComponent (ctx : BindCtx) (comp : AppComponentPlan) (block : String × List BoundPort) :
    Prop where
  name : block.1 = comp.name
  ports : List.Forall₂ (BoundAs ctx comp.name) (comp.ports.filter AppPortPlan.expose) block.2

/-- What the blocks of some components publish. -/
def publishedOf (blocks : List (String × List BoundPort)) : List (String × List PublishedPort) :=
  blocks.map fun b => (b.1, b.2.map BoundPort.published)

/-- The endpoints of the blocks of some components. -/
def endpointsOf (blocks : List (String × List BoundPort)) : List AppEndpoint :=
  blocks.flatMap fun b => b.2.map BoundPort.endpoint

theorem bound_bindPorts {comps : List AppComponentPlan} {ports ports' : Record (List PublishedPort)}
    {endpoints endpoints' : List AppEndpoint}
    (h : bindPorts ctx comps used ports endpoints = .ok (ports', endpoints')) :
    ∃ blocks, List.Forall₂ (BoundComponent ctx) comps blocks ∧
      ports' = ports.assign (publishedOf blocks) ∧ endpoints' = endpoints ++ endpointsOf blocks := by
  induction comps generalizing used ports endpoints with
  | nil =>
      cases h
      exact ⟨[], .nil, rfl, (List.append_nil _).symm⟩
  | cons comp comps ih =>
      unfold bindPorts at h
      obtain ⟨⟨bs, used₁⟩, hbs, h⟩ := Async.except_bind_eq_ok.mp h
      obtain ⟨blocks, hblocks, hports, hendpoints⟩ := ih h
      refine ⟨(comp.name, bs) :: blocks, .cons ⟨rfl, boundAs_bindComponent hbs⟩ hblocks, hports, ?_⟩
      rw [hendpoints, List.append_assoc]
      rfl

section Deploy

variable {facts : HostFacts} {hostAddress : String} {ingress : Option IngressBinding}
  {publish : PublishIntent} {reservations : Option PortReservations}

/-- The exposed ports of a plan are bound, and the units are rendered from what is published. -/
theorem bound_planHostDeploy
    (h : planHostDeploy plan facts hostAddress ingress publish reservations = .ok (plan', hp)) :
    ∃ blocks,
      List.Forall₂ (BoundComponent (bindCtx facts hostAddress ingress publish reservations))
        plan.components blocks ∧
      hp.ports = Record.ofEntries (publishedOf blocks) ∧ hp.endpoints = endpointsOf blocks ∧
      plan' = substituteAppDomain plan ingress hp.ports ∧
      hp.units = (renderDeploy plan' ⟨facts.selinux, hp.ports⟩).units := by
  obtain ⟨⟨ports, endpoints⟩, hbind, h⟩ := Async.except_bind_eq_ok.mp h
  cases h
  obtain ⟨blocks, hblocks, rfl, rfl⟩ := bound_bindPorts hbind
  exact ⟨blocks, hblocks, rfl, rfl, rfl, rfl⟩

end Deploy

theorem exists_left_of_mem {α β : Type} {R : α → β → Prop} {as : List α} {bs : List β} {b : β}
    (h : List.Forall₂ R as bs) (hb : b ∈ bs) : ∃ a ∈ as, R a b := by
  obtain ⟨i, hi, rfl⟩ := List.mem_iff_getElem.mp hb
  exact ⟨_, List.getElem_mem (h.length_eq ▸ hi), h.get (h.length_eq ▸ hi) hi⟩

/-- What is published is published for an exposed port. -/
theorem boundAs_of_mem {comps : List AppComponentPlan} {blocks : List (String × List BoundPort)}
    (h : List.Forall₂ (BoundComponent ctx) comps blocks) {e : String × List PublishedPort}
    (he : e ∈ (Record.ofEntries (publishedOf blocks)).entries) {p : PublishedPort} (hp : p ∈ e.2) :
    ∃ comp ∈ comps, ∃ q ∈ comp.ports, ∃ b, e.1 = comp.name ∧ q.expose = true ∧
      BoundAs ctx comp.name q b ∧ b.published = p ∧ b.endpoint ∈ endpointsOf blocks := by
  obtain ⟨block, hblock, rfl⟩ := List.mem_map.mp ((mem_assign he).resolve_left List.not_mem_nil)
  obtain ⟨b, hb, rfl⟩ := List.mem_map.mp hp
  obtain ⟨comp, hcomp, hbound⟩ := exists_left_of_mem h hblock
  obtain ⟨q, hq, has⟩ := exists_left_of_mem hbound.ports hb
  obtain ⟨hq, hexpose⟩ := List.mem_filter.mp hq
  exact ⟨comp, hcomp, q, hq, b, hbound.name, hexpose, has, rfl,
    List.mem_flatMap.mpr ⟨block, hblock, List.mem_map_of_mem hb⟩⟩

/-! ## The units of a plan -/

/-- Every container is named after its component. -/
def ContainersNamed (plan : AppPlan) : Prop :=
  ∀ c ∈ plan.components, c.container = containerName plan.name c.name

theorem containerName_inj {app l l' : String} (h : containerName app l = containerName app l') :
    l = l' := by
  have hlist := congrArg String.toList h
  simp only [containerName, String.toList_append] at hlist
  exact String.toList_inj.mp (List.append_cancel_left hlist)

/-- Files of different kinds have different names. -/
theorem unitName_ne {name name' kind kind' : String}
    (h : kind.toList.getLast? ≠ kind'.toList.getLast?) (hkind : kind.toList ≠ [])
    (hkind' : kind'.toList ≠ []) : name ++ kind ≠ name' ++ kind' := by
  intro heq
  have hlast := congrArg (fun s : String => s.toList.getLast?) heq
  simp only [String.toList_append, List.getLast?_append_of_ne_nil _ hkind,
    List.getLast?_append_of_ne_nil _ hkind'] at hlast
  exact h hlast

theorem container_ne_volume (name name' : String) : name ++ ".container" ≠ name' ++ ".volume" :=
  unitName_ne (by decide) (by decide) (by decide)

theorem container_ne_pod (name name' : String) : name ++ ".container" ≠ name' ++ ".pod" :=
  unitName_ne (by decide) (by decide) (by decide)

theorem pod_ne_volume (name name' : String) : name ++ ".pod" ≠ name' ++ ".volume" :=
  unitName_ne (by decide) (by decide) (by decide)

theorem append_right_cancel {name name' kind : String} (h : name ++ kind = name' ++ kind) :
    name = name' := by
  have hlist := congrArg String.toList h
  rw [String.toList_append, String.toList_append] at hlist
  exact String.toList_inj.mp (List.append_cancel_right hlist)

/-- The files of a plan, in the order in which they are put in. -/
def unitEntries (plan : AppPlan) (ctx : RenderContext) : List (String × String) :=
  podUnits plan ctx ++ plan.components.flatMap (componentUnits plan ctx)

theorem mem_unitEntries {plan : AppPlan} {ctx : RenderContext} {e : String × String} :
    e ∈ unitEntries plan ctx ↔
      (∃ pod, truthyText plan.pod = some pod ∧ e = (pod ++ ".pod", renderPod plan pod ctx)) ∨
      ∃ c ∈ plan.components, (∃ v ∈ c.volumes, e = (v.volume ++ ".volume", renderVolume v.volume)) ∨
        e = (c.container ++ ".container", renderContainer plan c ctx) := by
  unfold unitEntries
  rw [List.mem_append, List.mem_flatMap]
  refine or_congr ?_ (exists_congr fun c => and_congr_right fun _ => ?_)
  · unfold podUnits
    cases truthyText plan.pod with
    | none => simp
    | some pod =>
        constructor
        · intro h
          exact ⟨pod, rfl, List.mem_singleton.mp h⟩
        · rintro ⟨_, hpod, rfl⟩
          cases hpod
          exact List.mem_singleton_self _
  · unfold componentUnits
    rw [List.mem_append, List.mem_map, List.mem_singleton]
    refine or_congr_left (exists_congr fun v => and_congr_right fun _ => ?_)
    exact ⟨Eq.symm, Eq.symm⟩

/-- Some text is kept for every name. -/
theorem Record.exists_entry {β : Type} {entries : List (String × β)} {r : Record β} {key : String}
    (h : key ∈ r.entries.map Prod.fst ∨ key ∈ entries.map Prod.fst) :
    ∃ value, (key, value) ∈ (r.assign entries).entries := by
  induction entries generalizing r with
  | nil =>
      obtain ⟨e, he, rfl⟩ := List.mem_map.mp (h.resolve_right List.not_mem_nil)
      exact ⟨e.2, he⟩
  | cons e entries ih =>
      refine ih ?_
      rw [Record.entries_set]
      have hself : (e.1, e.2) ∈ Table.upsert Prod.fst (e.1, e.2) r.entries := Table.mem_upsert_self
      have hkey : e.1 ∈ (Table.upsert Prod.fst (e.1, e.2) r.entries).map Prod.fst :=
        List.mem_map_of_mem hself
      rcases h with h | h
      · obtain ⟨e', he', rfl⟩ := List.mem_map.mp h
        by_cases heq : e'.1 = e.1
        · exact .inl (heq ▸ hkey)
        · exact .inl (List.mem_map_of_mem (Table.mem_upsert_of_mem he' heq))
      · rcases List.mem_cons.mp h with rfl | h
        · exact .inl hkey
        · exact .inr h

/-- The file that is kept under the name of a file is one of the files of that name. -/
theorem exists_unit {plan : AppPlan} {ctx : RenderContext} {e : String × String}
    (h : e ∈ unitEntries plan ctx) :
    ∃ text, (e.1, text) ∈ (renderDeploy plan ctx).units.entries ∧ (e.1, text) ∈ unitEntries plan ctx := by
  obtain ⟨text, htext⟩ := Record.exists_entry (r := .empty) (.inr (List.mem_map_of_mem h))
  exact ⟨text, htext, (mem_assign htext).resolve_left List.not_mem_nil⟩

/-- The units publish every published port of a component, on its address. -/
theorem mem_bindsOf_renderDeploy {plan : AppPlan} {ctx : RenderContext} (hnamed : ContainersNamed plan)
    (hplain : ctx.Plain) {comp : AppComponentPlan} (hcomp : comp ∈ plan.components)
    {p : PublishedPort} (hp : p ∈ ctx.published comp.name) :
    p.bind ∈ bindsOf (renderDeploy plan ctx).units p.host := by
  cases hpod : truthyText plan.pod with
  | some pod =>
      obtain ⟨text, htext, hmem⟩ := exists_unit (mem_unitEntries.mpr (.inl ⟨pod, hpod, rfl⟩))
      have hrendered : text = renderPod plan pod ctx := by
        rcases mem_unitEntries.mp hmem with ⟨pod', hpod', heq⟩ | ⟨c, -, ⟨v, -, heq⟩ | heq⟩
        · cases hpod.symm.trans hpod'
          exact (Prod.ext_iff.mp heq).2
        · exact absurd (Prod.ext_iff.mp heq).1 (pod_ne_volume _ _)
        · exact absurd (Prod.ext_iff.mp heq).1.symm (container_ne_pod _ _)
      refine List.mem_flatMap.mpr ⟨_, htext, ?_⟩
      rw [hrendered]
      exact (adds_renderPod p.host plan pod hplain).mem
        (List.mem_flatMap.mpr ⟨comp, hcomp, hp⟩) rfl
  | none =>
      obtain ⟨text, htext, hmem⟩ := exists_unit (mem_unitEntries.mpr (.inr ⟨comp, hcomp, .inr rfl⟩))
      rcases mem_unitEntries.mp hmem with ⟨pod', hpod', -⟩ | ⟨c, hc, ⟨v, -, heq⟩ | heq⟩
      · cases hpod.symm.trans hpod'
      · exact absurd (Prod.ext_iff.mp heq).1 (container_ne_volume _ _)
      · obtain ⟨hname, hrendered⟩ := Prod.ext_iff.mp heq
        have hsame : c.name = comp.name := by
          have hcontainer := append_right_cancel hname
          rw [hnamed comp hcomp, hnamed c hc] at hcontainer
          exact (containerName_inj hcontainer).symm
        refine List.mem_flatMap.mpr ⟨_, htext, ?_⟩
        rw [show text = renderContainer plan c ctx from hrendered]
        refine (adds_renderContainer p.host plan c hplain).mem ?_ rfl
        unfold containerPorts
        rw [hpod, hsame]
        exact hp

end Vops.Apps
