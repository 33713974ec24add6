import Vops.Apps.InputThms
import Vops.Apps.ReferenceThms

/-!
# Shown credentials

* `resolveAccess`, `accessView` — the `access` block of a manifest (`apps/spec-normalize.ts`), and the view
  that a deploy returns (`apps/app-deploy-support.ts`).
* `CatalogAccessValue.referred` — the component that a part of the block refers to.
* `AppAccessPart.DeployedIn` — a part is what the unit of a component gives a variable.
* `AccessDeployed` — so is each part that a deploy stores and returns.
* `Conveyed`, `access_deployed_iff` — the inputs for which it is.
* `gallery_deployed`, `gallery_undeployed` — the name of an administrator that two components have.
-/

namespace Vops.Apps

open Async (exists_of_map)

/-! ## The access block -/

/-- `CatalogAccessValue` -/
structure CatalogAccessValue where
  value : Option String
  fromEnv : Option String
  component : Option String

/-- `CatalogAccess` -/
structure CatalogAccess where
  mode : Option AppAccessMode
  path : Option String
  username : Option CatalogAccessValue
  password : Option CatalogAccessValue
  note : Option String

/-- What a component has of a variable: a secret, else a plain value. -/
def FullComponentPlan.accessPart (name : String) (c : FullComponentPlan) : Option AppAccessPart :=
  match c.secrets.find? fun s => s.target == name with
  | some sec => some (if sec.generate.isSome then .generated sec.name else .userSet sec.name)
  | none => (c.env.find? fun e => e.name == name).map fun e => .value e.value (some e.name)

/-- `resolveAccessPart` -/
def resolveAccessPart (v : Option CatalogAccessValue) (plan : FullAppPlan) : Option AppAccessPart :=
  v.bind fun v =>
    match v.value with
    | some value => some (.value value none)
    | none => (truthyText v.fromEnv).bind fun name =>
        let comps : List FullComponentPlan := match truthyText v.component with
          | some component => plan.components.filter fun c => c.name == component
          | none => plan.components
        comps.findSome? (FullComponentPlan.accessPart name)

/-- `resolveAccess`; the manifest's entry point is a path too. -/
def resolveAccess (access : Option CatalogAccess) (entrypointPath : Option String) (plan : FullAppPlan) :
    Option AppAccessPlan :=
  access.map fun access =>
    let mode := access.mode.getD .credentials
    let path := (access.path.orElse fun _ => entrypointPath).getD "/"
    if mode ≠ .credentials then ⟨mode, path, none, none, access.note⟩
    else ⟨mode, path, resolveAccessPart access.username plan, resolveAccessPart access.password plan,
      access.note⟩

/-- `AppAccessView` -/
structure AppAccessView extends AppAccessPlan where
  url : Option String

/-- `stripTrailingSlashes` -/
def stripTrailingSlashes (text : String) : String := String.ofList (text.toList.rdropWhile (· = '/'))

/-- `accessView` -/
def accessView (access : Option AppAccessPlan) (endpoints : List AppEndpoint) (primary : String)
    (ingress : Option (String × Bool)) : Option AppAccessView :=
  access.map fun access =>
    let base := match ingress with
      | some (hostname, tls) => some ((if tls then "https" else "http") ++ "://" ++ hostname)
      | none => ((endpoints.find? fun e => e.component == primary).orElse fun _ => endpoints.head?).map
          AppEndpoint.url
    let path := if access.path = "/" then "" else access.path
    ⟨access, (truthyText base).map fun base => stripTrailingSlashes base ++ path⟩

/-! ## What is deployed -/

/-- The variable that a part is read from. -/
def CatalogAccessValue.envName (v : CatalogAccessValue) : Option String :=
  match v.value with
  | some _ => none
  | none => truthyText v.fromEnv

/-- The component has the variable. -/
def FullComponentPlan.has (c : FullComponentPlan) (name : String) : Bool :=
  (c.secrets.any fun s => s.target == name) || c.env.any fun e => e.name == name

/-- The component that a part refers to: the one that it names, or the first that has the variable. -/
def CatalogAccessValue.referred (v : CatalogAccessValue) (plan : FullAppPlan) (name : String) :
    Option FullComponentPlan :=
  plan.components.find? fun c => (truthyText v.component).all (fun component => c.name == component) && c.has name

/-- The value that the `Environment=` lines of a unit give a variable: the last one counts. -/
def environmentValue (comp : AppComponentPlan) (name : String) : Option String :=
  ((environmentLines comp).filterMap fun
    | .environment n value => if n = name then some value else none
    | .secret .. => none).getLast?

/-- The secret that the `Secret=` lines of a unit inject for a variable. -/
def injectedSecret (comp : AppComponentPlan) (name : String) : Option String :=
  ((secretLines comp).filterMap fun
    | .secret source target => if target = name then some source else none
    | .environment .. => none).getLast?

/-- The unit of a component gives the variable what a part shows. -/
def AppAccessPart.DeployedIn (name : String) (comp : AppComponentPlan) : AppAccessPart → Prop
  | value text _ => environmentValue comp name = some text
  | userSet secret | generated secret => injectedSecret comp name = some secret

/-- A part is what is deployed in the component that it refers to. -/
def PartDeployed (plan : FullAppPlan) (d : DeployDecision) (v : CatalogAccessValue) (part : AppAccessPart) :
    Prop :=
  ∀ name, v.envName = some name → ∀ t ∈ plan.components.zip d.bound.components,
    v.referred plan name = some t.1 → part.DeployedIn name t.2

/-- The parts of the credentials are what is deployed. -/
structure PartsDeployed (plan : FullAppPlan) (d : DeployDecision) (access : CatalogAccess)
    (shown : AppAccessPlan) : Prop where
  username : ∀ v ∈ access.username, ∀ part ∈ shown.username, PartDeployed plan d v part
  password : ∀ v ∈ access.password, ∀ part ∈ shown.password, PartDeployed plan d v part

/-- The credentials that a deploy stores, and those that it returns for any endpoints and ingress, are what
is deployed. -/
structure AccessDeployed (plan : FullAppPlan) (d : DeployDecision) (access : CatalogAccess) : Prop where
  stored : ∀ shown ∈ d.install.access, PartsDeployed plan d access shown
  returned : ∀ endpoints ingress, ∀ view ∈ accessView d.plan.access endpoints d.plan.primary ingress,
    PartsDeployed plan d access view.toAppAccessPlan

/-- A variable of a plan under `--set`. -/
def setValue (set : Overrides) (e : FullEnvPlain) : String := (set.get? e.name).getD e.value

/-- The secret of a component for a variable is injected: of those that are not dropped the last has its
name. -/
def Injects (plan : FullAppPlan) (set : Overrides) (c : FullComponentPlan) (name : String)
    (s : FullSecretPlan) : Prop :=
  ((c.secrets.filter fun s => s.name ∉ droppedSecrets (applyOverrides plan set)).filter
    fun s => s.target = name).getLast?.map (fun s => s.name) = some s.name

/-- What a part refers to is settled: a secret is injected; and the first plain variable of the name in the
whole plan has the value that the component's own has once its tokens are resolved. -/
def Conveyed (plan : FullAppPlan) (set : Overrides) (resolve : String → String) (v : CatalogAccessValue) : Prop :=
  ∀ name, v.envName = some name → ∀ c, v.referred plan name = some c →
    match c.secrets.find? fun s => s.target == name with
    | some s => Injects plan set c name s
    | none => ∀ first, (plan.env.find? fun e => e.name == name) = some first →
        ∀ own, (c.env.filter fun e => e.name = name).getLast? = some own →
          setValue set first = resolve (setValue set own)

/-! ## The two lookups -/

section Lookup

variable {plan : FullAppPlan} {v : CatalogAccessValue} {name : String}

theorem accessPart_isSome (name : String) (c : FullComponentPlan) : (c.accessPart name).isSome = c.has name := by
  unfold FullComponentPlan.accessPart FullComponentPlan.has
  cases hsecret : c.secrets.find? fun s => s.target == name with
  | some s =>
      have hany : (c.secrets.any fun s => s.target == name) = true := by
        rw [List.any_eq_true]
        exact ⟨s, List.mem_of_find?_eq_some hsecret, by simpa using List.find?_some hsecret⟩
      rw [hany]
      rfl
  | none =>
      have hany : (c.secrets.any fun s => s.target == name) = false := by
        rw [List.any_eq_false]
        exact List.find?_eq_none.mp hsecret
      rw [hany, Option.isSome_map, Bool.false_or]
      exact List.isSome_find? ..

theorem findSome?_eq_bind {α β : Type} (f : α → Option β) (l : List α) :
    l.findSome? f = (l.find? fun a => (f a).isSome).bind f := by
  induction l with
  | nil => rfl
  | cons a l ih =>
      rw [List.findSome?_cons, List.find?_cons]
      cases hfa : f a with
      | none => simpa using ih
      | some b => simp [hfa]

/-- A part that is read from a variable is what the component that it refers to has of it. -/
theorem resolveAccessPart_eq (hname : v.envName = some name) :
    resolveAccessPart (some v) plan = (v.referred plan name).bind (FullComponentPlan.accessPart name) := by
  unfold CatalogAccessValue.envName at hname
  unfold resolveAccessPart CatalogAccessValue.referred
  rw [Option.bind_some]
  cases hvalue : v.value with
  | some value => simp [hvalue] at hname
  | none =>
      simp only [hvalue] at hname ⊢
      rw [hname, Option.bind_some]
      have hhas : (fun c => (FullComponentPlan.accessPart name c).isSome) = fun c => c.has name :=
        funext (accessPart_isSome name)
      cases hcomponent : truthyText v.component with
      | none =>
          simp only [Option.all_none, Bool.true_and]
          rw [findSome?_eq_bind, hhas]
      | some component =>
          simp only [Option.all_some]
          rw [findSome?_eq_bind, hhas, List.find?_filter]
          simp only [Bool.decide_and, Bool.decide_eq_true]

end Lookup

/-! ## The unit of the component -/

section Deployed

variable {crypt : Crypt} {plan : FullAppPlan} {facts : HostFacts} {host : DeployHost} {opts : DeployOptions}
  {prev : Option AppInstall} {reservations : PortReservations} {d : DeployDecision}
  {f : FullComponentPlan → AppComponentPlan}

theorem filterMap_ite {α β : Type} (P : α → Prop) [DecidablePred P] (g : α → β) (l : List α) :
    (l.filterMap fun a => if P a then some (g a) else none) = (l.filter fun a => P a).map g := by
  induction l with
  | nil => rfl
  | cons a l ih => by_cases ha : P a <;> simp [ha, ih]

theorem environmentValue_eq {c : FullComponentPlan} {comp : AppComponentPlan} {set : Overrides}
    {resolve : String → String}
    (h : environmentLines comp = c.env.map fun e => .environment e.name (resolve (setValue set e)))
    (name : String) : environmentValue comp name =
      (c.env.filter fun e => e.name = name).getLast?.map fun e => resolve (setValue set e) := by
  unfold environmentValue
  rw [h, List.filterMap_map, ← List.getLast?_map, ← filterMap_ite]
  rfl

theorem injectedSecret_eq {comp : AppComponentPlan} {secrets : List FullSecretPlan}
    (h : secretLines comp = secrets.map fun s => .secret s.name s.target) (name : String) :
    injectedSecret comp name = (secrets.filter fun s => s.target = name).getLast?.map fun s => s.name := by
  unfold injectedSecret
  rw [h, List.filterMap_map, ← List.getLast?_map, ← filterMap_ite]
  rfl

theorem zip_map_self {α β : Type} (g : α → β) (l : List α) : l.zip (l.map g) = l.map fun a => (a, g a) := by
  induction l with
  | nil => rfl
  | cons a l ih => simp only [List.map_cons, List.zip_cons_cons, ih]

/-- The first plain variable of a name, where some component has one. -/
theorem exists_first {c : FullComponentPlan} (hc : c ∈ plan.components) {e : FullEnvPlain} (he : e ∈ c.env) :
    ∃ first, (plan.env.find? fun e' => e'.name == e.name) = some first ∧ first.name = e.name := by
  have hmem : e ∈ plan.env := List.mem_flatMap.mpr ⟨c, hc, he⟩
  obtain ⟨first, hfirst⟩ : ∃ first, (plan.env.find? fun e' => e'.name == e.name) = some first :=
    Option.isSome_iff_exists.mp (List.find?_isSome.mpr ⟨e, hmem, by simp⟩)
  exact ⟨first, hfirst, by simpa using List.find?_some hfirst⟩

/-- What a deploy shows of a part is deployed exactly when what the part refers to is settled. -/
theorem partDeployed_iff (h : Decided crypt plan facts host opts prev reservations d) {v : CatalogAccessValue}
    {part : AppAccessPart} (hpart : resolveAccessPart (some v) plan = some part) :
    PartDeployed plan d v (reportedPart plan opts.set part) ↔ Conveyed plan opts.set d.resolve v := by
  obtain ⟨f, hf, hlines⟩ := h.component_lines
  unfold PartDeployed Conveyed
  rw [hf, zip_map_self]
  simp only [List.forall_mem_map]
  refine forall₂_congr fun name hname => ?_
  have hmem {c : FullComponentPlan} (hc : v.referred plan name = some c) : c ∈ plan.components :=
    List.mem_of_find?_eq_some hc
  have hone (P : FullComponentPlan → Prop) :
      (∀ c ∈ plan.components, v.referred plan name = some c → P c) ↔
        ∀ c, v.referred plan name = some c → P c :=
    ⟨fun hall c hc => hall c (hmem hc) hc, fun hall c _ hc => hall c hc⟩
  rw [hone fun c => (reportedPart plan opts.set part).DeployedIn name (f c)]
  refine forall₂_congr fun c hc => ?_
  rw [resolveAccessPart_eq hname, hc, Option.bind_some] at hpart
  unfold FullComponentPlan.accessPart at hpart
  cases hsecret : c.secrets.find? fun s => s.target == name with
  | some s =>
      rw [hsecret] at hpart
      have hinjected := injectedSecret_eq (hlines c).2 name
      unfold Injects
      rw [← hinjected]
      obtain rfl := Option.some.inj hpart
      by_cases hgenerate : s.generate.isSome
      · rw [if_pos hgenerate]
        exact Iff.rfl
      · rw [if_neg hgenerate]
        exact Iff.rfl
  | none =>
      rw [hsecret] at hpart
      obtain ⟨e, he, rfl⟩ := Option.map_eq_some_iff.mp hpart
      have hname' : e.name = name := by simpa using List.find?_some he
      have heMem : e ∈ c.env := List.mem_of_find?_eq_some he
      obtain ⟨first, hfirst, hfirstName⟩ := exists_first (hmem hc) heMem
      obtain ⟨own, hown⟩ : ∃ own, (c.env.filter fun e => e.name = name).getLast? = some own := by
        refine Option.ne_none_iff_exists'.mp fun hnone => ?_
        have hfilter := List.filter_eq_nil_iff.mp (List.getLast?_eq_none_iff.mp hnone) e heMem
        simp [hname'] at hfilter
      have htruthy : truthyText (some e.name) = some e.name := by
        rw [hname']
        unfold CatalogAccessValue.envName at hname
        split at hname
        · cases hname
        · exact (Option.filter_eq_some_iff.mp hname).2 |> fun hne => by simpa [truthyText] using hne
      have hsource : (AppAccessPart.value e.value (some e.name)).source plan = some first := by
        simp only [AppAccessPart.source, htruthy, Option.bind_some, hfirst]
      have hreported : reportedPart plan opts.set (.value e.value (some e.name)) =
          .value (setValue opts.set first) (some e.name) := by
        unfold reportedPart
        rw [hsource]
        rfl
      rw [hname'] at hfirst
      simp only [hreported, AppAccessPart.DeployedIn, environmentValue_eq (hlines c).1 name, hown, hfirst,
        Option.map_some, Option.some.injEq, forall_eq']
      exact eq_comm

/-- A part of the block, whatever is shown of it. -/
theorem shown_iff (h : Decided crypt plan facts host opts prev reservations d) (v : Option CatalogAccessValue) :
    (∀ v' ∈ v, ∀ part ∈ (resolveAccessPart v plan).map (reportedPart plan opts.set), PartDeployed plan d v' part) ↔
      ∀ v', v = some v' → Conveyed plan opts.set d.resolve v' := by
  refine forall₂_congr fun v' hv => ?_
  obtain rfl : v = some v' := hv
  cases hpart : resolveAccessPart (some v') plan with
  | some part =>
      rw [← partDeployed_iff h hpart]
      simp
  | none =>
      refine iff_of_true (by simp) fun name hname c hc => ?_
      rw [resolveAccessPart_eq hname, hc, Option.bind_some] at hpart
      unfold CatalogAccessValue.referred at hc
      have hfound := List.find?_some hc
      rw [Bool.and_eq_true, ← accessPart_isSome, hpart] at hfound
      cases hfound.2

/-- The view has the parts of the plan. -/
theorem toAppAccessPlan_accessView {access : Option AppAccessPlan} {endpoints : List AppEndpoint}
    {primary : String} {ingress : Option (String × Bool)} {view : AppAccessView}
    (h : accessView access endpoints primary ingress = some view) : access = some view.toAppAccessPlan := by
  obtain ⟨a, rfl, rfl⟩ := Option.map_eq_some_iff.mp h
  rfl

theorem accessDeployed_iff_stored {access : CatalogAccess} : AccessDeployed plan d access ↔
    ∀ shown ∈ d.install.access, PartsDeployed plan d access shown := by
  refine ⟨AccessDeployed.stored, fun hstored => ⟨hstored, fun endpoints ingress view hview => ?_⟩⟩
  exact hstored _ (toAppAccessPlan_accessView hview)

/-- The credentials that a deploy shows are those that it deploys exactly when what they refer to is
settled. -/
theorem access_deployed_iff {access : CatalogAccess} {entrypointPath : Option String}
    (h : decideDeploy crypt plan facts host opts prev reservations = .ok d)
    (haccess : plan.access = resolveAccess (some access) entrypointPath plan) :
    AccessDeployed plan d access ↔ (access.mode.getD .credentials = .credentials →
      ∀ v, access.username = some v ∨ access.password = some v → Conveyed plan opts.set d.resolve v) := by
  have hdecided := decideDeploy_spec h
  have husername := shown_iff hdecided access.username
  have hpassword := shown_iff hdecided access.password
  rw [accessDeployed_iff_stored, hdecided.access_eq, haccess]
  unfold resolveAccess
  by_cases hmode : access.mode.getD .credentials = .credentials
  · simp only [Option.map_some, hmode, ne_eq, not_true_eq_false, if_false, Option.mem_def, Option.some.injEq,
      forall_eq', forall_const]
    constructor
    · rintro ⟨huser, hpass⟩ v (hv | hv)
      · exact husername.mp huser v hv
      · exact hpassword.mp hpass v hv
    · intro hall
      exact ⟨husername.mpr fun v hv => hall v (.inl hv), hpassword.mpr fun v hv => hall v (.inr hv)⟩
  · refine iff_of_true ?_ fun hcredentials => absurd hcredentials hmode
    intro shown hshown
    simp only [Option.map_some, ne_eq, hmode, not_false_eq_true, if_true, Option.mem_def, Option.some.injEq] at hshown
    subst hshown
    exact ⟨by simp, by simp⟩

end Deployed

/-! ## A gallery whose database has an administrator too -/

/-- A component with one port, or none, and its environment. -/
def galleryComponent (env : List (String × String)) (ports : List AppPortPlan) : CatalogComponent :=
  { plainComponent env with ports := ports }

/-- The database comes first. -/
def gallerySpec (admin : String) : CatalogSpec :=
  .composed [] [⟨"db", none, galleryComponent [("ADMIN_USER", "root")] []⟩,
    ⟨"web", none, galleryComponent [("ADMIN_USER", admin)] [⟨8080, true, .http⟩]⟩]

/-- Users sign in as the administrator of the web component. -/
def galleryAccess : CatalogAccess where
  mode := none
  path := none
  username := some ⟨none, some "ADMIN_USER", some "web"⟩
  password := none
  note := none

/-- The component of the gallery's plan. -/
def galleryPart (name user : String) (ports : List (AppPortPlan × Option PortRoutePlan)) : FullComponentPlan :=
  ⟨name, "forum:1", [⟨⟨"ADMIN_USER", user⟩, false, none⟩], [], ports, [], none, none, none, [], none⟩

/-- What the manifest asks for, with what a deploy reads. -/
def galleryPlan (admin : String) : FullAppPlan :=
  let plan : FullAppPlan := {
    name := "gallery"
    appId := "gallery"
    pod := some "vops-gallery"
    components := [galleryPart "db" "root" [], galleryPart "web" admin [(⟨8080, true, .http⟩, none)]]
    primary := "web"
    smokeTest := none
    domain := none
    needsAppDomain := false
    access := none
    authMode := none
    exposure := none
    warnings := [] }
  { plan with access := resolveAccess (some galleryAccess) none plan }

/-- A deploy of the gallery, without `--set`. -/
def galleryDeploy (admin : String) : Except String DeployDecision :=
  decideDeploy ⟨"generated", id⟩ (galleryPlan admin) ⟨false, false, [22]⟩ ⟨"web1", "203.0.113.7"⟩
    (setOptions .empty) none ⟨.empty, []⟩

theorem normalize_gallery : (AppSource.catalog "gallery" (gallerySpec "curator") none).normalize =
    .ok (galleryPlan "curator").bound := by
  obtain ⟨plan, hplan, hbound⟩ : ∃ plan, (AppSource.catalog "gallery" (gallerySpec "curator") none).normalize =
      .ok plan ∧ plan = (galleryPlan "curator").bound := exists_of_map (f := id) (by decide)
  rw [hplan, hbound]

/-- What is settled about the administrator. -/
theorem settled_gallery (admin : String) (resolve : String → String) :
    Conveyed (galleryPlan admin) .empty resolve ⟨none, some "ADMIN_USER", some "web"⟩ ↔ "root" = resolve admin := by
  have hname : (CatalogAccessValue.mk none (some "ADMIN_USER") (some "web")).envName = some "ADMIN_USER" := by decide
  have hreferred : (CatalogAccessValue.mk none (some "ADMIN_USER") (some "web")).referred (galleryPlan admin)
      "ADMIN_USER" = some (galleryPart "web" admin [(⟨8080, true, .http⟩, none)]) := rfl
  constructor
  · intro h
    exact h _ hname _ hreferred _ rfl _ rfl
  · intro h name hname' c hc
    obtain rfl := Option.some.inj (hname.symm.trans hname')
    obtain rfl := Option.some.inj (hreferred.symm.trans hc)
    intro first hfirst own hown
    have hroot : (galleryPlan admin).env.find? (fun e => e.name == "ADMIN_USER") =
        some ⟨⟨"ADMIN_USER", "root"⟩, false, none⟩ := rfl
    have hadmin : ([⟨⟨"ADMIN_USER", admin⟩, false, none⟩] : List FullEnvPlain).getLast? = some own := hown
    obtain rfl := Option.some.inj (hroot.symm.trans hfirst)
    obtain rfl := Option.some.inj hadmin
    exact h

/-- With one name for both, it is shown as it is deployed. -/
theorem gallery_deployed : ∃ d, galleryDeploy "root" = .ok d ∧
    AccessDeployed (galleryPlan "root") d galleryAccess := by
  obtain ⟨d, hd, -⟩ : ∃ d, galleryDeploy "root" = .ok d ∧ (fun _ => true) d = true :=
    exists_of_map (by decide +kernel)
  refine ⟨d, hd, (access_deployed_iff hd rfl).mpr fun _ v hv => ?_⟩
  obtain rfl : v = ⟨none, some "ADMIN_USER", some "web"⟩ := by
    rcases hv with hv | hv
    · exact (Option.some.inj hv).symm
    · cases hv
  exact (settled_gallery "root" d.resolve).mpr (resolveTokens_of_none (by decide) _ _).symm

/-- Shown is the administrator of the database, and not that of the web component. -/
theorem gallery_undeployed :
    (AppSource.catalog "gallery" (gallerySpec "curator") none).normalize = .ok (galleryPlan "curator").bound ∧
    ∃ d, galleryDeploy "curator" = .ok d ∧
      d.install.access.bind AppAccessPlan.username = some (.value "root" (some "ADMIN_USER")) ∧
      d.bound.components.map (fun c => environmentValue c "ADMIN_USER") = [some "root", some "curator"] ∧
      ¬AccessDeployed (galleryPlan "curator") d galleryAccess := by
  refine ⟨normalize_gallery, ?_⟩
  obtain ⟨d, hd, hvalues⟩ : ∃ d, galleryDeploy "curator" = .ok d ∧
      (d.install.access.bind AppAccessPlan.username, d.bound.components.map fun c => environmentValue c "ADMIN_USER") =
        (some (.value "root" (some "ADMIN_USER")), [some "root", some "curator"]) :=
    exists_of_map (by decide +kernel)
  obtain ⟨hshown, hlines⟩ := Prod.mk.inj hvalues
  refine ⟨d, hd, hshown, hlines, fun h => ?_⟩
  have hdecided := decideDeploy_spec hd
  have hsettled := (shown_iff hdecided galleryAccess.username).mp (fun v hv part hpart => ?_) _ rfl
  · have hsame := (settled_gallery "curator" d.resolve).mp hsettled
    have hcurator : d.resolve "curator" = "curator" := resolveTokens_of_none (by decide) _ _
    rw [hcurator] at hsame
    exact absurd hsame (by decide)
  · have hstored : d.install.access = _ := hdecided.access_eq
    exact (h.stored _ hstored).username v hv part hpart

end Vops.Apps
