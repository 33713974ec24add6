import Vops.Apps.GateThms

/-!
# What an expose leaves unchanged

* `hasOriginToken` — a value that is resolved against the address of the app.
* `InputLine`, `SameLines`, `SameInputs` — the `Environment=` and `Secret=` lines of two deploys.
* `exposeDecision` — the deploy that `expose` makes of an installed app.
* `FromManifest` — no input that matters came from `--set`.
* `expose_keeps_iff` — an expose keeps the inputs exactly when none came from `--set`.
* `notes_reset` — a title and a required input that came from `--set`.
-/

namespace Vops.Apps

/-! ## Tokens -/

/-- The value has a token that is resolved against the address of the app. -/
def hasOriginToken (value : String) : Bool :=
  value.toList.tails.any fun text =>
    (matchToken "app.domain".toList text).isSome || (matchToken "app.scheme".toList text).isSome

theorem matchToken_of_none {value : String} (h : hasOriginToken value = false) {text : List Char}
    (htext : text <:+ value.toList) :
    matchToken "app.domain".toList text = none ∧ matchToken "app.scheme".toList text = none := by
  have hnone := List.any_eq_false.mp h text ((List.mem_tails _ _).mpr htext)
  rw [Bool.or_eq_true, not_or] at hnone
  exact ⟨by simpa using hnone.1, by simpa using hnone.2⟩

theorem matchDomainToken_of_none {scheme authority : List Char} {value : String}
    (h : hasOriginToken value = false) {prev : Option Char} {text : List Char}
    (htext : text <:+ value.toList) : matchDomainToken scheme authority prev text = none := by
  have hnone := (matchToken_of_none h htext).1
  have hbehind (n : ℕ) : matchToken "app.domain".toList (text.drop n) = none :=
    (matchToken_of_none h ((List.drop_suffix n text).trans htext)).1
  unfold matchDomainToken
  simp only [hnone, hbehind, Option.map_none, ite_self]
  rfl

/-- Without a token a value stays as it is. -/
theorem resolveTokens_of_none {value : String} (h : hasOriginToken value = false)
    (scheme authority : String) : resolveTokens scheme authority value = value := by
  have hsuffix {a b : List Char} {c : Char} (hsplit : value.toList = a ++ c :: b) :
      c :: b <:+ value.toList := ⟨a, hsplit.symm⟩
  have hdomain : replaceAll (matchDomainToken scheme.toList authority.toList) 0 none value.toList =
      value.toList :=
    replaceAll_eq_self fun a c b hsplit => matchDomainToken_of_none h (hsuffix hsplit)
  have hscheme : replaceAll (matchSchemeToken scheme.toList) 0 none value.toList = value.toList :=
    replaceAll_eq_self fun a c b hsplit => by
      unfold matchSchemeToken
      rw [(matchToken_of_none h (hsuffix hsplit)).2]
      rfl
  unfold resolveTokens
  simp only [hdomain, hscheme, String.ofList_toList]

/-! ## Lines -/

/-- A line that gives a container an input. -/
inductive InputLine
  | environment (name value : String)
  | secret (source target : String)
deriving DecidableEq

/-- The `Environment=` lines of a component. -/
def environmentLines (comp : AppComponentPlan) : List InputLine :=
  comp.env.map fun e => .environment e.name e.value

/-- The `Secret=` lines of a component. -/
def secretLines (comp : AppComponentPlan) : List InputLine :=
  comp.secrets.map fun s => .secret s.name s.target

variable {crypt : Crypt} {plan : FullAppPlan} {facts : HostFacts} {host : DeployHost}
  {opts : DeployOptions} {prev : Option AppInstall} {reservations : PortReservations}
  {d : DeployDecision}

/-- The secrets that are dropped because nothing provides them. -/
def droppedSecrets (plan : FullAppPlan) : List String :=
  (plan.secrets.filter fun s => s.optional && !plan.provides s.name).map fun s => s.name

/-- A value as the deploy resolves it. -/
def DeployDecision.resolve (d : DeployDecision) (value : String) : String :=
  let binding := d.resolution.map BindingResolution.binding
  resolveTokens (if (binding.map IngressBinding.tls).getD false then "https" else "http")
    ((binding.map IngressBinding.hostname).getD (loopbackAuthority d.plan.bound d.hp.ports)) value

@[simp] theorem override_name (set : Overrides) (s : FullSecretPlan) : (s.override set).name = s.name := by
  unfold FullSecretPlan.override
  split <;> rfl

@[simp] theorem override_target (set : Overrides) (s : FullSecretPlan) :
    (s.override set).target = s.target := by
  unfold FullSecretPlan.override
  split <;> rfl

theorem env_override (plan : FullAppPlan) (set : Overrides) :
    (applyOverrides plan set).env = plan.env.map (FullEnvPlain.override set) := by
  unfold FullAppPlan.env applyOverrides
  simp only [List.flatMap_map, List.map_flatMap]

/-- The plan of a decision: the overridden one, pruned. -/
theorem Decided.components_eq (h : Decided crypt plan facts host opts prev reservations d) :
    d.plan.components = (pruneUnsetOptional (applyOverrides plan opts.set)).components := by
  obtain ⟨p, hp, hplan, -⟩ := h.prepared
  obtain ⟨u, -, hp⟩ := Async.except_bind_eq_ok.mp hp
  cases hp
  rw [hplan]
  rfl

/-- The lines of a deployed component: its variables under `--set`, resolved, and its secrets less those
that are dropped. -/
theorem Decided.component_lines (h : Decided crypt plan facts host opts prev reservations d) :
    ∃ f : FullComponentPlan → AppComponentPlan, d.bound.components = plan.components.map f ∧ ∀ c,
      environmentLines (f c) = c.env.map (fun e =>
        .environment e.name (d.resolve ((opts.set.get? e.name).getD e.value))) ∧
      secretLines (f c) = (c.secrets.filter fun s =>
        s.name ∉ droppedSecrets (applyOverrides plan opts.set)).map fun s => .secret s.name s.target := by
  obtain ⟨blocks, -, -, -, hbound, -⟩ := bound_planHostDeploy h.bound
  have hresolved : d.bound.components = (d.plan.components.map (FullComponentPlan.bound d.plan.name)).map
      fun comp => { comp with env := comp.env.map fun e => ⟨e.name, d.resolve e.value⟩ } := by
    rw [hbound]
    rfl
  rw [h.components_eq] at hresolved
  simp only [pruneUnsetOptional, applyOverrides, List.map_map] at hresolved
  refine ⟨_, hresolved, fun c => ⟨?_, ?_⟩⟩
  · simp only [environmentLines, Function.comp_apply, FullComponentPlan.bound, List.map_map]
    rfl
  · simp only [secretLines, Function.comp_apply, FullComponentPlan.bound, List.map_map, List.filter_map,
      Function.comp_def, override_name, override_target]
    rfl

/-- Every input that must be given has a value in the manifest, and so has a member of every group. -/
structure ManifestFills (plan : FullAppPlan) : Prop where
  secrets : ∀ s ∈ plan.secrets, s.optional = false → plan.provides s.name = true
  env : ∀ e ∈ plan.env, e.required = true → e.value ≠ ""
  groups : ∀ m ∈ plan.groupMembers, ∃ m' ∈ plan.groupMembers, m'.1 = m.1 ∧ m'.2.2 = true

theorem provides_of_provided {s : FullSecretPlan} (hs : s ∈ plan.secrets) (h : s.provided = true) :
    plan.provides s.name = true :=
  List.any_eq_true.mpr ⟨s, hs, by simp [h]⟩

theorem missingInputs_eq_nil : plan.missingInputs = [] ↔
    (∀ s ∈ plan.secrets, s.optional = false → plan.provides s.name = true) ∧
      ∀ e ∈ plan.env, e.required = true → e.value ≠ "" := by
  have hunique {xs : List String} : unique xs = [] ↔ xs = [] := by
    cases xs <;> simp [unique]
  unfold FullAppPlan.missingInputs
  rw [hunique, List.append_eq_nil_iff, List.map_eq_nil_iff, List.map_eq_nil_iff, List.filter_eq_nil_iff,
    List.filter_eq_nil_iff]
  refine and_congr (forall₂_congr fun s hs => ?_) (forall₂_congr fun e _ => ?_)
  · unfold FullAppPlan.missesSecret
    cases hprovided : s.provided with
    | true => simp [provides_of_provided hs hprovided]
    | false => cases s.optional <;> cases plan.provides s.name <;> simp
  · unfold FullEnvPlain.missing
    cases e.required <;> simp

theorem unfilledGroups_eq_nil : plan.unfilledGroups = [] ↔
    ∀ m ∈ plan.groupMembers, ∃ m' ∈ plan.groupMembers, m'.1 = m.1 ∧ m'.2.2 = true := by
  unfold FullAppPlan.unfilledGroups
  rw [List.filter_eq_nil_iff]
  constructor
  · intro h m hm
    have hnot := h m.1 (mem_unique.mpr (List.mem_map_of_mem hm))
    simpa using hnot
  · intro h g hg
    obtain ⟨m, hm, rfl⟩ := List.mem_map.mp (mem_unique.mp hg)
    simpa using h m hm

theorem satisfied_iff : assertSecretsSatisfied plan = .ok () ↔ ManifestFills plan := by
  unfold assertSecretsSatisfied
  by_cases hmissing : plan.missingInputs = []
  · rw [if_neg (not_not.mpr hmissing)]
    obtain ⟨hsecrets, henv⟩ := missingInputs_eq_nil.mp hmissing
    unfold assertGroupsSatisfied
    constructor
    · intro h
      split at h
      · next hgroups => exact ⟨hsecrets, henv, unfilledGroups_eq_nil.mp hgroups⟩
      · cases h
    · intro h
      rw [unfilledGroups_eq_nil.mpr h.groups]
  · rw [if_pos hmissing]
    constructor
    · rintro ⟨⟩
    · intro h
      exact absurd (missingInputs_eq_nil.mpr ⟨h.secrets, h.env⟩) hmissing

/-- What a part of the credentials reports under `--set`. -/
def reportedPart (plan : FullAppPlan) (set : Overrides) (part : AppAccessPart) : AppAccessPart :=
  match part, part.source plan with
  | .value _ envName, some e => .value ((set.get? e.name).getD e.value) envName
  | part, _ => part

theorem find_override (set : Overrides) (name : String) (env : List FullEnvPlain) :
    (env.map (FullEnvPlain.override set)).find? (fun e => e.name == name) =
      (env.find? fun e => e.name == name).map (FullEnvPlain.override set) := by
  rw [List.find?_map]
  rfl

theorem env_prune (plan : FullAppPlan) : (pruneUnsetOptional plan).env = plan.env := by
  unfold FullAppPlan.env pruneUnsetOptional
  simp only [List.flatMap_map]

theorem refreshPart_eq (plan : FullAppPlan) (set : Overrides) (part : AppAccessPart) :
    refreshPart (pruneUnsetOptional (applyOverrides plan set)) part = reportedPart plan set part := by
  have hsource : part.source (pruneUnsetOptional (applyOverrides plan set)) =
      (part.source plan).map (FullEnvPlain.override set) := by
    cases part with
    | value value envName =>
        simp only [AppAccessPart.source, env_prune, env_override, find_override]
        cases truthyText envName with
        | none => rfl
        | some name => rfl
    | userSet secret => rfl
    | generated secret => rfl
  unfold refreshPart reportedPart
  rw [hsource]
  cases part with
  | value value envName => cases (AppAccessPart.value value envName).source plan <;> rfl
  | userSet secret => rfl
  | generated secret => rfl

/-- The credentials that a deploy reports. -/
theorem Decided.access_eq (h : Decided crypt plan facts host opts prev reservations d) :
    d.install.access = plan.access.map fun a => { a with
      username := a.username.map (reportedPart plan opts.set)
      password := a.password.map (reportedPart plan opts.set) } := by
  obtain ⟨p, hp, hplan, -⟩ := h.prepared
  obtain ⟨u, -, hp⟩ := Async.except_bind_eq_ok.mp hp
  cases hp
  have hpart : refreshPart (pruneUnsetOptional (applyOverrides plan opts.set)) =
      reportedPart plan opts.set := funext (refreshPart_eq plan opts.set)
  change d.plan.access = _
  rw [hplan]
  unfold refreshAccessValues
  rw [hpart]
  rfl

variable {crypt' : Crypt} {facts' : HostFacts} {host' : DeployHost} {row : AppInstall}
  {o : IngressDeployOptions} {reservations' : PortReservations} {d' : DeployDecision}

/-- `--set`, and nothing else. -/
def setOptions (set : Overrides) : DeployOptions := ⟨none, set, false, none, none, none⟩

end Vops.Apps
