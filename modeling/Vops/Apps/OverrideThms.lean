import Vops.Apps.InputThms
import Vops.Apps.ReferenceThms

/-!
# What `--set` reaches

* `carriedText` — a text of a manifest whose references carry what `--set` gives the variables.
* `Reaches`, `AppSource.OverridesReach` — the texts that were made of references carry the overrides.
* `Unaffected`, `OwnNames` — no reference goes to a variable that `--set` changes; or could change alone.
* `unaffected_reaches`, `ownNames_of_reaches` — the two directions; `overrides_reach_iff`.
* `forum_reached`, `forum_unreached` — an address that is set, and one whose host is set.
-/

namespace Vops.Apps

open Async (except_bind_eq_ok except_mapM_eq_ok exists_of_map)

section Lists

variable {α β : Type} {R S : α → β → Prop} {as : List α} {bs : List β}

theorem forall₂_imp_mem (h : List.Forall₂ R as bs) (himp : ∀ a b, a ∈ as → R a b → S a b) :
    List.Forall₂ S as bs := by
  induction h with
  | nil => exact .nil
  | cons hab _ ih =>
      exact .cons (himp _ _ List.mem_cons_self hab)
        (ih fun a b ha => himp a b (List.mem_cons_of_mem _ ha))

theorem exists_of_forall₂ (h : List.Forall₂ R as bs) {a : α} (ha : a ∈ as) : ∃ b ∈ bs, R a b := by
  induction h with
  | nil => cases ha
  | @cons a' b as bs hab _ ih =>
      rcases List.mem_cons.mp ha with rfl | ha
      · exact ⟨b, List.mem_cons_self, hab⟩
      · obtain ⟨b, hb, hR⟩ := ih ha
        exact ⟨b, List.mem_cons_of_mem _ hb, hR⟩

theorem eq_map_of_forall₂ {f : α → β} (h : List.Forall₂ (fun a b => f a = b) as bs) :
    as.map f = bs := by
  induction h with
  | nil => rfl
  | cons hab _ ih => rw [List.map_cons, hab, ih]

end Lists

/-! ## The components under `--set` -/

/-- A secret under `--set`. -/
def AppSecretPlan.override (set : Overrides) (s : AppSecretPlan) : AppSecretPlan :=
  match set.get? s.target, s.generate with
  | some v, none => { s with value := some v }
  | _, _ => s

/-- A variable under `--set`. -/
def AppEnvPlain.override (set : Overrides) (e : AppEnvPlain) : AppEnvPlain :=
  ⟨e.name, (set.get? e.name).getD e.value⟩

/-- A component under `--set`. -/
def AppComponentPlan.override (set : Overrides) (c : AppComponentPlan) : AppComponentPlan :=
  { c with env := c.env.map (AppEnvPlain.override set), secrets := c.secrets.map (AppSecretPlan.override set) }

theorem components_applyOverrides (plan : FullAppPlan) (set : Overrides) :
    (applyOverrides plan set).bound.components =
      plan.bound.components.map (AppComponentPlan.override set) := by
  have hsecret (s : FullSecretPlan) :
      (s.override set).toAppSecretPlan = s.toAppSecretPlan.override set := by
    obtain ⟨⟨name, target, generate, value⟩, optional, group⟩ := s
    unfold FullSecretPlan.override AppSecretPlan.override
    dsimp only
    cases set.get? target with
    | none => rfl
    | some v =>
        cases generate with
        | none => rfl
        | some g => rfl
  have henv (e : FullEnvPlain) : (e.override set).toAppEnvPlain = e.toAppEnvPlain.override set := rfl
  unfold applyOverrides FullAppPlan.bound
  simp only [List.map_map]
  refine List.map_congr_left fun c _ => ?_
  simp only [Function.comp_apply, FullComponentPlan.bound, AppComponentPlan.override, List.map_map,
    Function.comp_def, hsecret, henv]

/-- A placed variable under `--set`. -/
def overridePlaced (set : Overrides) : AppSecretPlan ⊕ AppEnvPlain → AppSecretPlan ⊕ AppEnvPlain :=
  Sum.map (AppSecretPlan.override set) (AppEnvPlain.override set)

theorem filterMap_overridePlaced (set : Overrides) (placed : List (AppSecretPlan ⊕ AppEnvPlain)) :
    (placed.map (overridePlaced set)).filterMap Sum.getRight? =
        (placed.filterMap Sum.getRight?).map (AppEnvPlain.override set) ∧
      (placed.map (overridePlaced set)).filterMap Sum.getLeft? =
        (placed.filterMap Sum.getLeft?).map (AppSecretPlan.override set) := by
  induction placed with
  | nil => exact ⟨rfl, rfl⟩
  | cons p placed ih =>
      obtain ⟨hright, hleft⟩ := ih
      cases p with
      | inl s => exact ⟨hright, congrArg _ hleft⟩
      | inr e => exact ⟨congrArg _ hright, hleft⟩

@[simp] theorem target_override (set : Overrides) (s : AppSecretPlan) :
    (s.override set).target = s.target := by
  unfold AppSecretPlan.override
  split <;> rfl

/-- What `--set` does not name stays. -/
theorem AppSecretPlan.override_of_none {set : Overrides} {s : AppSecretPlan}
    (h : set.get? s.target = none) : s.override set = s := by
  unfold AppSecretPlan.override
  rw [h]

theorem AppEnvPlain.override_of_none {set : Overrides} {e : AppEnvPlain} (h : set.get? e.name = none) :
    e.override set = e := by
  unfold AppEnvPlain.override
  rw [h]
  rfl

theorem placedText_override {set : Overrides} {p : AppSecretPlan ⊕ AppEnvPlain}
    (h : set.get? (p.elim AppSecretPlan.target AppEnvPlain.name) = none) :
    placedText (overridePlaced set p) = placedText p := by
  cases p with
  | inl s => exact congrArg AppSecretPlan.value (AppSecretPlan.override_of_none h)
  | inr e => exact congrArg (fun e => some (AppEnvPlain.value e)) (AppEnvPlain.override_of_none h)

@[simp] theorem name_overridePlaced (set : Overrides) (p : AppSecretPlan ⊕ AppEnvPlain) :
    (overridePlaced set p).elim AppSecretPlan.target AppEnvPlain.name =
      p.elim AppSecretPlan.target AppEnvPlain.name := by
  cases p with
  | inl s => exact target_override set s
  | inr e => rfl

/-! ## What references carry -/

/-- What a reference carries: what `--set` gives the variable, where it is a plain one that the component
receives, and its text in the manifest otherwise. -/
def carriedValue (raws : List RawComponent) (plan : AppPlan) (set : Overrides) (comp : String)
    (key : Option String) : List Char :=
  (key.bind fun k => if (plan.plainValue comp k).isSome then set.get? k else none).elim
    (textOf (refValue raws comp key)) String.toList

/-- A text of a component, its references replaced by what they carry. -/
def carriedText (app : String) (raws : List RawComponent) (plan : AppPlan) (set : Overrides)
    (logical text : String) : String :=
  String.ofList (substitute selfToken (fun key => carriedValue raws plan set logical (some key))
    (substitute crossToken (fun r => carriedValue raws plan set r.1 r.2) (replaceAppId app text).toList))

/-- The value of a variable is made of references. -/
def RawComponent.interpolates (r : RawComponent) (raws : List RawComponent) (e : CatalogEnvVar) : Bool :=
  (e.ownSecret "").isNone && ((wholeRef r.logical e.raw).bind fun v => secretOf raws v.1 v.2).isNone

/-- The command of a component's health check. -/
def RawComponent.healthCommand (r : RawComponent) : List String :=
  (r.src.health.bind AppHealthPlan.command).getD []

/-- The variables that a text refers to. -/
def variablesOf (app : String) (raws : List RawComponent) (logical text : String) :
    List (String × String) :=
  ((crossRefs app text).filterMap fun r => r.2.map fun key => (r.1, key)) ++
    (selfRefs app raws text).map fun key => (logical, key)

/-- The texts that a component is deployed with carry the overrides. A variable that `--set` names has what
it gives. -/
structure Reaches (app : String) (raws : List RawComponent) (plan : AppPlan) (set : Overrides)
    (r : RawComponent) (c : AppComponentPlan) : Prop where
  env : ∃ placed, c.env = placed.filterMap Sum.getRight? ∧ c.secrets = placed.filterMap Sum.getLeft? ∧
    List.Forall₂ (fun e p => p.elim AppSecretPlan.target AppEnvPlain.name = e.name ∧
      (r.interpolates raws e = true → set.get? e.name = none →
        placedText p = some (carriedText app raws plan set r.logical e.raw))) r.src.env placed
  health : (c.health.bind AppHealthPlan.command).getD [] =
    r.healthCommand.map (carriedText app raws plan set r.logical)

/-- No reference carries anything else than its text in the manifest, but in the value of a variable that
`--set` names. -/
structure Unaffected (app : String) (raws : List RawComponent) (plan : AppPlan) (set : Overrides)
    (r : RawComponent) : Prop where
  env : ∀ e ∈ r.src.env, r.interpolates raws e = true → set.get? e.name = none →
    ∀ v ∈ variablesOf app raws r.logical e.raw,
      carriedValue raws plan set v.1 (some v.2) = textOf (refValue raws v.1 (some v.2))
  health : ∀ text ∈ r.healthCommand, ∀ v ∈ variablesOf app raws r.logical text,
    carriedValue raws plan set v.1 (some v.2) = textOf (refValue raws v.1 (some v.2))

/-- A plain variable is referred to in the value of a variable of its own name only. -/
structure OwnNames (app : String) (raws : List RawComponent) (plan : AppPlan) (r : RawComponent) : Prop where
  env : ∀ e ∈ r.src.env, r.interpolates raws e = true → ∀ v ∈ variablesOf app raws r.logical e.raw,
    (plan.plainValue v.1 v.2).isSome = true → v.2 = e.name
  health : ∀ text ∈ r.healthCommand, ∀ v ∈ variablesOf app raws r.logical text,
    plan.plainValue v.1 v.2 = none

section Carried

variable {app logical text out : String} {raws : List RawComponent} {plan : AppPlan} {set : Overrides}
  {r : RawComponent} {c : AppComponentPlan}

/-- A text that refers to nothing that `--set` changes carries what it says. -/
theorem carriedText_of_unchanged (h : resolveString app logical text raws = .ok out)
    (hsame : ∀ v ∈ variablesOf app raws logical text,
      carriedValue raws plan set v.1 (some v.2) = textOf (refValue raws v.1 (some v.2))) :
    carriedText app raws plan set logical text = out := by
  obtain ⟨-, hself, -⟩ := resolveString_spec h
  obtain ⟨-, hout⟩ := resolveSelf_eq_ok.mp hself
  have hcross : substitute crossToken (fun r => carriedValue raws plan set r.1 r.2)
      (replaceAppId app text).toList = crossed app raws text := by
    refine substitute_congr fun ref href => ?_
    obtain ⟨comp, key⟩ := ref
    cases key with
    | none => rfl
    | some key =>
        exact hsame (comp, key) (List.mem_append_left _ (List.mem_filterMap.mpr ⟨_, href, rfl⟩))
  have hselves : substitute selfToken (fun key => carriedValue raws plan set logical (some key))
      (crossed app raws text) = out.toList := by
    rw [hout]
    exact substitute_congr fun key hkey =>
      hsame (logical, key) (List.mem_append_right _ (List.mem_map_of_mem hkey))
  unfold carriedText
  rw [hcross, hselves, String.ofList_toList]

theorem interpolates_place {e : CatalogEnvVar} {p : AppSecretPlan ⊕ AppEnvPlain}
    (h : placeEnv app r.logical raws e = .ok p) (hinterpolates : r.interpolates raws e = true) :
    ∃ v, resolveString app r.logical e.raw raws = .ok v ∧ placedText p = some v := by
  unfold RawComponent.interpolates at hinterpolates
  simp only [Bool.and_eq_true, Option.isNone_iff_eq_none] at hinterpolates
  obtain ⟨own, -, ⟨s, hs, -⟩ | ⟨-, ⟨shared, hshared, -⟩ | ⟨-, v, hv, rfl⟩⟩⟩ := placeEnv_spec h
  · rw [ownSecret_none_iff.mp hinterpolates.1 own] at hs
    cases hs
  · rw [hinterpolates.2] at hshared
    cases hshared
  · refine ⟨v, hv, ?_⟩
    split <;> rfl

/-- The health command of a component, resolved. -/
theorem health_resolved (h : resolveComponent app raws r = .ok c) :
    List.Forall₂ (fun text out => resolveString app r.logical text raws = .ok out) r.healthCommand
      ((c.health.bind AppHealthPlan.command).getD []) := by
  obtain ⟨placed, -, h⟩ := except_bind_eq_ok.mp h
  obtain ⟨volumes, -, h⟩ := except_bind_eq_ok.mp h
  obtain ⟨health, hhealth, h⟩ := except_bind_eq_ok.mp h
  cases h
  unfold RawComponent.healthCommand
  dsimp only
  cases hh : r.src.health with
  | none =>
      rw [hh] at hhealth
      cases hhealth
      exact .nil
  | some check =>
      rw [hh] at hhealth
      unfold resolveHealth at hhealth
      cases hc : check.command with
      | none =>
          simp only [hc] at hhealth
          cases hhealth
          rw [Option.bind_some, hc]
          exact .nil
      | some command =>
          simp only [hc] at hhealth
          obtain ⟨resolved, hresolved, hhealth⟩ := except_bind_eq_ok.mp hhealth
          cases hhealth
          rw [Option.bind_some, hc]
          exact except_mapM_eq_ok.mp hresolved

/-- Where no reference is affected, the overrides reach every text. -/
theorem unaffected_reaches (h : resolveComponent app raws r = .ok c)
    (hunaffected : Unaffected app raws plan set r) : Reaches app raws plan set r (c.override set) := by
  obtain ⟨-, ⟨placed, hplaced, henv, hsecrets⟩, -⟩ := resolveComponent_placed h
  obtain ⟨hright, hleft⟩ := filterMap_overridePlaced set placed
  have hreached : List.Forall₂ (fun e p => p.elim AppSecretPlan.target AppEnvPlain.name = e.name ∧
      (r.interpolates raws e = true → set.get? e.name = none →
        placedText p = some (carriedText app raws plan set r.logical e.raw))) r.src.env
      (placed.map (overridePlaced set)) := by
    refine List.forall₂_map_right_iff.mpr (forall₂_imp_mem hplaced fun e p he hp => ⟨?_, ?_⟩)
    · rw [name_overridePlaced, placeEnv_name hp]
    · intro hinterpolates hset
      obtain ⟨v, hv, htext⟩ := interpolates_place hp hinterpolates
      rw [← placeEnv_name hp] at hset
      rw [placedText_override hset, htext, carriedText_of_unchanged hv]
      rw [placeEnv_name hp] at hset
      exact hunaffected.env e he hinterpolates hset
  refine ⟨⟨placed.map (overridePlaced set), ?_, ?_, hreached⟩, ?_⟩
  · rw [hright, ← henv]
    rfl
  · rw [hleft, ← hsecrets]
    rfl
  · change (c.health.bind AppHealthPlan.command).getD [] = _
    have hsame := forall₂_imp_mem (health_resolved h)
      fun text out htext hout => carriedText_of_unchanged hout (hunaffected.health text htext)
    exact (eq_map_of_forall₂ hsame).symm

/-! ## An override that is seen -/

/-- `--set key=` some slashes, which stand in no reference. -/
def slashes (key : String) (n : ℕ) : Overrides :=
  Record.ofEntries [(key, String.ofList (List.replicate n '/'))]

theorem slashes_get? (key : String) (n : ℕ) (other : String) :
    (slashes key n).get? other = if key = other then some (String.ofList (List.replicate n '/')) else none := by
  unfold slashes
  rw [Record.ofEntries, Record.get?_assign]
  by_cases h : key = other
  · simp [h]
  · simp [h, Record.get?, Record.empty]

theorem carriedValue_slashes {comp key : String} (n : ℕ) (h : (plan.plainValue comp key).isSome = true) :
    carriedValue raws plan (slashes key n) comp (some key) = List.replicate n '/' := by
  simp [carriedValue, h, slashes_get?]

theorem carriedValue_slashes_ne {comp key : String} {n : ℕ} {other : String}
    (h : other = key → plan.plainValue comp other = none) :
    carriedValue raws plan (slashes key n) comp (some other) = textOf (refValue raws comp (some other)) := by
  unfold carriedValue
  rw [Option.bind_some, slashes_get?]
  by_cases hkey : other = key
  · rw [h hkey]
    rfl
  · rw [if_neg (Ne.symm hkey), ite_self]
    rfl

/-- A text that refers to the variable is seen to. -/
theorem count_carriedText {comp key : String} (n : ℕ)
    (hv : (comp, key) ∈ variablesOf app raws logical text) (hplain : (plan.plainValue comp key).isSome = true) :
    n ≤ (carriedText app raws plan (slashes key n) logical text).toList.count '/' := by
  have hreplicate (xs : List Char) (h : List.replicate n '/' <:+: xs) : n ≤ xs.count '/' := by
    have hcount := h.sublist.count_le '/'
    rwa [List.count_replicate_self] at hcount
  rw [carriedText, String.toList_ofList]
  have hcross {comp : String} (hplain : (plan.plainValue comp key).isSome = true)
      (hmem : (comp, some key) ∈ crossRefs app text) :
      n ≤ (substitute selfToken (fun k => carriedValue raws plan (slashes key n) logical (some k))
        (substitute crossToken (fun r => carriedValue raws plan (slashes key n) r.1 r.2)
          (replaceAppId app text).toList)).count '/' := by
    refine le_trans (hreplicate _ ?_) (count_le_substitute slash_notMem_selfToken _)
    have hinfix := infix_of_mem_found (f := fun r => carriedValue raws plan (slashes key n) r.1 r.2) hmem
    rwa [carriedValue_slashes n hplain] at hinfix
  by_cases hall : ∀ comp, (comp, some key) ∈ crossRefs app text → plan.plainValue comp key = none
  · -- what is crossed is as it was, and the variable is the component's own
    have hsame : substitute crossToken (fun r => carriedValue raws plan (slashes key n) r.1 r.2)
        (replaceAppId app text).toList = crossed app raws text := by
      refine substitute_congr fun ref href => ?_
      obtain ⟨comp, other⟩ := ref
      cases other with
      | none => rfl
      | some other =>
          refine carriedValue_slashes_ne fun hother => ?_
          subst hother
          exact hall comp href
    rcases List.mem_append.mp hv with hv | hv
    · obtain ⟨⟨comp', other⟩, href, heq⟩ := List.mem_filterMap.mp hv
      obtain ⟨other, rfl, heq⟩ := Option.map_eq_some_iff.mp heq
      cases heq
      rw [hall _ href] at hplain
      cases hplain
    · obtain ⟨other, href, heq⟩ := List.mem_map.mp hv
      cases heq
      rw [hsame]
      refine hreplicate _ ?_
      have hinfix := infix_of_mem_found
        (f := fun k => carriedValue raws plan (slashes key n) logical (some k)) href
      rwa [carriedValue_slashes n hplain] at hinfix
  · obtain ⟨comp', hall⟩ := not_forall.mp hall
    obtain ⟨hmem, hsome⟩ := Classical.not_imp.mp hall
    exact hcross (Option.isSome_iff_ne_none.mpr hsome) hmem

/-- The texts that a component is deployed with. -/
def AppComponentPlan.deployedTexts (c : AppComponentPlan) : List String :=
  c.env.map AppEnvPlain.value ++ c.secrets.filterMap AppSecretPlan.value ++
    (c.health.bind AppHealthPlan.command).getD []

/-- How many slashes these have. -/
def AppComponentPlan.slashCount (c : AppComponentPlan) : ℕ :=
  ((c.deployedTexts.map String.toList).flatten).count '/'

theorem count_le_slashCount (h : text ∈ c.deployedTexts) : text.toList.count '/' ≤ c.slashCount :=
  (List.sublist_flatten_of_mem (List.mem_map_of_mem h)).count_le '/'

/-- What `--set` does not name is deployed as it was planned. -/
theorem placedText_mem {placed : List (AppSecretPlan ⊕ AppEnvPlain)} {p : AppSecretPlan ⊕ AppEnvPlain}
    (henv : (c.override set).env = placed.filterMap Sum.getRight?)
    (hsecrets : (c.override set).secrets = placed.filterMap Sum.getLeft?) (hp : p ∈ placed)
    (hset : set.get? (p.elim AppSecretPlan.target AppEnvPlain.name) = none)
    (htext : placedText p = some text) : text ∈ c.deployedTexts := by
  cases p with
  | inl s =>
      have hs : s ∈ (c.override set).secrets := hsecrets ▸ List.mem_filterMap.mpr ⟨.inl s, hp, rfl⟩
      obtain ⟨s', hs', rfl⟩ := List.mem_map.mp hs
      rw [Sum.elim_inl, target_override] at hset
      rw [AppSecretPlan.override_of_none hset] at htext
      exact List.mem_append_left _ (List.mem_append_right _ (List.mem_filterMap.mpr ⟨s', hs', htext⟩))
  | inr e =>
      have he : e ∈ (c.override set).env := henv ▸ List.mem_filterMap.mpr ⟨.inr e, hp, rfl⟩
      obtain ⟨e', he', rfl⟩ := List.mem_map.mp he
      have hsame : e'.override set = e' := AppEnvPlain.override_of_none hset
      rw [hsame] at htext
      cases htext
      exact List.mem_append_left _ (List.mem_append_left _ (List.mem_map_of_mem he'))

/-- If every override reaches every text, a plain variable is referred to in the value of a variable of its
own name only. -/
theorem ownNames_of_reaches (hreaches : ∀ set, Reaches app raws plan set r (c.override set)) :
    OwnNames app raws plan r := by
  constructor
  · intro e he hinterpolates v hv hplain
    by_contra hname
    obtain ⟨⟨placed, henv, hsecrets, hplaced⟩, -⟩ := hreaches (slashes v.2 (c.slashCount + 1))
    obtain ⟨p, hp, hpname, htext⟩ := exists_of_forall₂ hplaced he
    have hset : (slashes v.2 (c.slashCount + 1)).get? e.name = none := by
      rw [slashes_get?, if_neg hname]
    have hmem := placedText_mem henv hsecrets hp (hpname.symm ▸ hset) (htext hinterpolates hset)
    exact absurd (count_carriedText (c.slashCount + 1) hv hplain)
      (Nat.not_le.mpr (Nat.lt_succ_of_le (count_le_slashCount hmem)))
  · intro text htext v hv
    by_contra hplain
    obtain ⟨-, hhealth⟩ := hreaches (slashes v.2 (c.slashCount + 1))
    have hmem : carriedText app raws plan (slashes v.2 (c.slashCount + 1)) r.logical text ∈
        c.deployedTexts := by
      refine List.mem_append_right _ ?_
      change _ ∈ ((c.override (slashes v.2 (c.slashCount + 1))).health.bind AppHealthPlan.command).getD []
      rw [hhealth]
      exact List.mem_map_of_mem htext
    exact absurd (count_carriedText (c.slashCount + 1) hv (Option.isSome_iff_ne_none.mpr hplain))
      (Nat.not_le.mpr (Nat.lt_succ_of_le (count_le_slashCount hmem)))

/-- What is referred to in no other variable's value is affected by no override. -/
theorem OwnNames.unaffected (h : OwnNames app raws plan r) (set : Overrides) :
    Unaffected app raws plan set r := by
  have hvalue {comp key : String} (hkey : plan.plainValue comp key = none ∨ set.get? key = none) :
      carriedValue raws plan set comp (some key) = textOf (refValue raws comp (some key)) := by
    unfold carriedValue
    rw [Option.bind_some]
    rcases hkey with hkey | hkey
    · rw [hkey]
      rfl
    · rw [hkey, ite_self]
      rfl
  constructor
  · intro e he hinterpolates hset v hv
    refine hvalue ?_
    cases hplain : plan.plainValue v.1 v.2 with
    | none => exact .inl rfl
    | some value =>
        rw [h.env e he hinterpolates v hv (by rw [hplain]; rfl)]
        exact .inr hset
  · intro text htext v hv
    exact hvalue (.inl (h.health text htext v hv))

end Carried

/-! ## Manifests -/

/-- The texts of a deployed app that were made of references carry the overrides. An application manifest
has no reference that is replaced. -/
def AppSource.OverridesReach (plan : AppPlan) (set : Overrides) (deployed : AppPlan) : AppSource → Prop
  | catalog _ spec _ => ∀ raws, spec.sources.mapM (fun s => rawComponent plan.name s.1 s.2) = .ok raws →
      List.Forall₂ (Reaches plan.name raws plan set) raws deployed.components
  | application .. => True

/-- No reference goes to a variable that `--set` changes, but from the value of one that it names. -/
def AppSource.Unaffected (plan : AppPlan) (set : Overrides) : AppSource → Prop
  | catalog _ spec _ => ∀ raws, spec.sources.mapM (fun s => rawComponent plan.name s.1 s.2) = .ok raws →
      ∀ r ∈ raws, Apps.Unaffected plan.name raws plan set r
  | application .. => True

/-- Plain variables are referred to in the values of variables of the same name only. -/
def AppSource.OwnNames (plan : AppPlan) : AppSource → Prop
  | catalog _ spec _ => ∀ raws, spec.sources.mapM (fun s => rawComponent plan.name s.1 s.2) = .ok raws →
      ∀ r ∈ raws, Apps.OwnNames plan.name raws plan r
  | application .. => True

/-- The overrides reach every use where no reference is affected; and whatever they are, if and only if
plain variables are referred to in the values of variables of the same name only. -/
theorem overrides_reach_iff {source : AppSource} {full : FullAppPlan}
    (h : source.normalize = .ok full.bound) :
    (∀ set, source.Unaffected full.bound set →
        source.OverridesReach full.bound set (applyOverrides full set).bound) ∧
      ((∀ set, source.OverridesReach full.bound set (applyOverrides full set).bound) ↔
        source.OwnNames full.bound) := by
  cases source with
  | application => exact ⟨fun _ _ => trivial, fun _ => trivial, fun _ _ => trivial⟩
  | catalog appId spec installName =>
      have hplan := buildPlan_of_normalize h
      have hreach (set : Overrides)
          (hunaffected : (AppSource.catalog appId spec installName).Unaffected full.bound set) :
          (AppSource.catalog appId spec installName).OverridesReach full.bound set
            (applyOverrides full set).bound := by
        intro raws hraws
        rw [components_applyOverrides]
        exact List.forall₂_map_right_iff.mpr (forall₂_imp_mem (resolves_buildPlan hraws hplan).2
          fun r c hr hc => unaffected_reaches hc (hunaffected raws hraws r hr))
      refine ⟨hreach, fun hall raws hraws r hr => ?_, fun hown set => hreach set ?_⟩
      · obtain ⟨i, hi, rfl⟩ := List.mem_iff_getElem.mp hr
        have hlength := (resolves_buildPlan hraws hplan).2.length_eq
        refine ownNames_of_reaches (c := full.bound.components[i]) fun set => ?_
        have hset := hall set raws hraws
        rw [components_applyOverrides, List.forall₂_map_right_iff] at hset
        exact hset.get hi (hlength ▸ hi)
      · exact fun raws hraws r hr => (hown raws hraws r hr).unaffected set

/-! ## An address that is made of a host -/

/-- The plan of the forum. -/
def forumPlan : FullAppPlan where
  name := "forum"
  appId := "forum"
  pod := none
  components := [⟨"app", "forum:1",
    [⟨⟨"HOST", "forum.example.com"⟩, false, none⟩,
      ⟨⟨"URL", "https://forum.example.com/forum"⟩, false, none⟩], [], [], [], none, none, none, [], none⟩]
  primary := "app"
  smokeTest := none
  domain := none
  needsAppDomain := false
  access := none
  authMode := none
  exposure := none
  warnings := []

/-- The manifest of the forum. -/
def forumSpec : CatalogSpec :=
  .standalone (plainComponent
    [("HOST", "forum.example.com"),
      ("URL", "https://{{env.HOST}}/{{app.id}}")])

/-- Its component, indexed. -/
def forumRaws : List RawComponent :=
  (forumSpec.sources.mapM fun s => rawComponent "forum" s.1 s.2).toOption.getD []

theorem normalize_forum : forumSource.normalize = .ok forumPlan.bound := by
  obtain ⟨plan, hplan, hbound⟩ : ∃ plan, forumSource.normalize = .ok plan ∧ plan = forumPlan.bound :=
    exists_of_map (f := id) (by decide)
  rw [hplan, hbound]

theorem forumRaws_iff {raws : List RawComponent} :
    (forumSpec.sources.mapM fun s => rawComponent "forum" s.1 s.2) = .ok raws ↔ raws = forumRaws := by
  have hraws {raws : List RawComponent}
      (h : (forumSpec.sources.mapM fun s => rawComponent "forum" s.1 s.2) = .ok raws) :
      raws = forumRaws :=
    congrArg (fun x : Except String (List RawComponent) => x.toOption.getD []) h.symm
  refine ⟨hraws, ?_⟩
  rintro rfl
  obtain ⟨raws, h, -⟩ := exists_of_map
    (x := forumSpec.sources.mapM fun s => rawComponent "forum" s.1 s.2) (f := List.length) (b := 1)
    (by decide)
  rw [h, hraws h]

/-- The address is set as a whole. -/
theorem forum_reached : forumSource.OverridesReach forumPlan.bound
    (.ofEntries [("URL", "https://shop.example.org/")])
    (applyOverrides forumPlan (.ofEntries [("URL", "https://shop.example.org/")])).bound := by
  refine (overrides_reach_iff normalize_forum).1 _ fun raws hraws r hr => ?_
  obtain rfl := forumRaws_iff.mp hraws
  have hall : ∀ r ∈ forumRaws, r.healthCommand = [] ∧ ∀ e ∈ r.src.env, e.name = "URL" ∨
      variablesOf "forum" forumRaws r.logical e.raw = [] := by
    decide +kernel
  obtain ⟨hhealth, henv⟩ := hall r hr
  constructor
  · intro e he _ hset v hv
    rcases henv e he with hname | hnone
    · rw [hname] at hset
      exact absurd hset (by decide +kernel)
    · rw [show variablesOf forumPlan.bound.name forumRaws r.logical e.raw = [] from hnone] at hv
      cases hv
  · intro text htext
    rw [hhealth] at htext
    cases htext

/-- The host is set, and the address keeps the old one. -/
theorem forum_unreached : forumSource.normalize = .ok forumPlan.bound ∧
    ¬forumSource.OverridesReach forumPlan.bound (.ofEntries [("HOST", "shop.example.org")])
      (applyOverrides forumPlan (.ofEntries [("HOST", "shop.example.org")])).bound := by
  refine ⟨normalize_forum, fun h => ?_⟩
  have hreach := h forumRaws (forumRaws_iff.mpr rfl)
  rw [components_applyOverrides, List.forall₂_map_right_iff] at hreach
  have hkept : ∀ r ∈ forumRaws, ∀ c ∈ forumPlan.bound.components, ∃ e ∈ r.src.env,
      r.interpolates forumRaws e = true ∧
        (Record.ofEntries [("HOST", "shop.example.org")]).get? e.name = none ∧
          carriedText "forum" forumRaws forumPlan.bound (.ofEntries [("HOST", "shop.example.org")]) r.logical
            e.raw ∉ c.deployedTexts := by
    decide +kernel
  obtain ⟨r, hr⟩ := List.exists_mem_of_ne_nil forumRaws
    (List.ne_nil_of_length_pos (by decide +kernel))
  obtain ⟨c, hc, ⟨placed, henv, hsecrets, hplaced⟩, -⟩ := exists_of_forall₂ hreach hr
  obtain ⟨e, he, hinterpolates, hset, hnot⟩ := hkept r hr c hc
  obtain ⟨p, hp, hname, htext⟩ := exists_of_forall₂ hplaced he
  exact hnot (placedText_mem henv hsecrets hp (hname.symm ▸ hset) (htext hinterpolates hset))

end Vops.Apps
