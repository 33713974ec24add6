import Mathlib.Data.List.Nodup
import Vops.Apps.InputThms

/-!
# The secrets that are injected

* `keepOwned`, `get_foldl_keepOwned` — of the entries of one name, the first with a rule or a value is kept.
* `Injected` — every `Secret=` line names a secret that is made, of the material of its owner.
* `Undisputed` — the first entry of a name with a rule or a value has the material of every owner.
* `secrets_injected` — the inputs being given, the secrets are injected exactly where they are undisputed.
* `wiki_uninjected` — a reference that `--set` gives a value, behind the owner that it leaves empty.
-/

namespace Vops.Apps

/-! ## The entry that is kept -/

/-- The step of `dedupeSecrets`. -/
def keepOwned (byName : List AppSecretPlan) (s : AppSecretPlan) : List AppSecretPlan :=
  match Table.get AppSecretPlan.name s.name byName with
  | some existing => if existing.owned then byName else Table.upsert AppSecretPlan.name s byName
  | none => Table.upsert AppSecretPlan.name s byName

theorem dedupeSecrets_eq (plan : AppPlan) :
    dedupeSecrets plan = (plan.components.flatMap AppComponentPlan.secrets).foldl keepOwned [] := rfl

section Keep

variable {entries byName : List AppSecretPlan} {s first : AppSecretPlan} {name : String}

theorem keepOwned_of_owned {existing : AppSecretPlan}
    (h : Table.get AppSecretPlan.name s.name byName = some existing) (howned : existing.owned = true) :
    keepOwned byName s = byName := by
  unfold keepOwned
  rw [h]
  exact if_pos howned

theorem keepOwned_of_not {byName : List AppSecretPlan}
    (h : ∀ existing, Table.get AppSecretPlan.name s.name byName = some existing → existing.owned = false) :
    keepOwned byName s = Table.upsert AppSecretPlan.name s byName := by
  unfold keepOwned
  split
  · next existing hget =>
      rw [h existing hget]
      exact if_neg Bool.false_ne_true
  · rfl

/-- An entry of another name changes nothing. -/
theorem get_keepOwned_of_ne (h : s.name ≠ name) :
    Table.get AppSecretPlan.name name (keepOwned byName s) = Table.get AppSecretPlan.name name byName := by
  unfold keepOwned
  split
  · split
    · rfl
    · exact Table.get_upsert_of_ne h
  · exact Table.get_upsert_of_ne h

theorem keyed_foldl_keepOwned (h : Table.Keyed AppSecretPlan.name byName) :
    Table.Keyed AppSecretPlan.name (entries.foldl keepOwned byName) := by
  induction entries generalizing byName with
  | nil => exact h
  | cons s entries ih =>
      refine ih ?_
      unfold keepOwned
      split
      · split
        · exact h
        · exact h.upsert
      · exact h.upsert

/-- An entry with a rule or a value stays. -/
theorem get_foldl_of_owned (h : Table.get AppSecretPlan.name name byName = some first)
    (howned : first.owned = true) :
    Table.get AppSecretPlan.name name (entries.foldl keepOwned byName) = some first := by
  induction entries generalizing byName with
  | nil => exact h
  | cons s entries ih =>
      refine ih ?_
      by_cases hname : s.name = name
      · rw [keepOwned_of_owned (by rw [hname]; exact h) howned]
        exact h
      · rw [get_keepOwned_of_ne hname]
        exact h

/-- The first entry of a name with a rule or a value is the one that is kept. -/
theorem get_foldl_keepOwned
    (hnone : ∀ existing, Table.get AppSecretPlan.name name byName = some existing → existing.owned = false)
    (h : entries.find? (fun s => s.name == name && s.owned) = some first) :
    Table.get AppSecretPlan.name name (entries.foldl keepOwned byName) = some first := by
  induction entries generalizing byName with
  | nil => cases h
  | cons s entries ih =>
      rw [List.foldl_cons]
      by_cases hname : s.name = name
      · have hstep : keepOwned byName s = Table.upsert AppSecretPlan.name s byName :=
          keepOwned_of_not (by rw [hname]; exact hnone)
        have hget : Table.get AppSecretPlan.name name (keepOwned byName s) = some s := by
          rw [hstep, Table.get_upsert, if_pos hname]
        cases howned : s.owned with
        | true =>
            rw [List.find?_cons_of_pos (by simp [hname, howned])] at h
            cases h
            exact get_foldl_of_owned hget howned
        | false =>
            rw [List.find?_cons_of_neg (by simp [howned])] at h
            refine ih (fun existing hexisting => ?_) h
            rw [hget] at hexisting
            cases hexisting
            exact howned
      · rw [List.find?_cons_of_neg (by simp [hname])] at h
        refine ih (fun existing hexisting => ?_) h
        rw [get_keepOwned_of_ne hname] at hexisting
        exact hnone existing hexisting

end Keep

/-! ## What is injected -/

/-- A rule or a value. -/
def AppSecretPlan.material (s : AppSecretPlan) : Option (ℕ × SecretFormat) × Option String :=
  (s.generate, s.value)

/-- Every secret of a `Secret=` line is made, once, of a rule or a value, and of what each of its owners
has. An owner has a rule or a value in the manifest already. -/
def Injected (plan : FullAppPlan) (set : Overrides) (ctx : RenderContext) : Prop :=
  let pruned := pruneUnsetOptional (applyOverrides plan set)
  let made := (renderDeploy pruned.bound ctx).secrets
  ∀ comp ∈ pruned.bound.components, ∀ source target, .secret source target ∈ secretLines comp →
    (made.map AppSecretPlan.name).count source = 1 ∧
    ∃ kept ∈ made, kept.name = source ∧ (kept.generate.isSome ∨ (truthyText kept.value).isSome) ∧
      ∀ owner ∈ plan.secrets, owner.name = source → owner.owned = true →
        (owner.override set).material = kept.material

/-- The first entry of a name that has a rule or a value. -/
def FullAppPlan.firstOwned (plan : FullAppPlan) (name : String) : Option FullSecretPlan :=
  plan.secrets.find? fun s => s.name == name && s.owned

/-- Of the entries of a name that is not dropped, the first with a rule or a value, under `--set`, is not
empty, and has what each owner has. -/
def Undisputed (plan : FullAppPlan) (set : Overrides) : Prop :=
  ∀ s ∈ (applyOverrides plan set).secrets, s.name ∉ droppedSecrets (applyOverrides plan set) →
    ∀ first, (applyOverrides plan set).firstOwned s.name = some first → first.provided = true ∧
      ∀ owner ∈ plan.secrets, owner.name = s.name → owner.owned = true →
        (owner.override set).material = first.material

section Injection

variable {plan : FullAppPlan} {set : Overrides} {ctx : RenderContext}

theorem secrets_bound (plan : FullAppPlan) : plan.bound.components.flatMap AppComponentPlan.secrets =
    plan.secrets.map FullSecretPlan.toAppSecretPlan := by
  unfold FullAppPlan.bound FullAppPlan.secrets
  rw [List.flatMap_map, List.map_flatMap]
  rfl

theorem secrets_prune (plan : FullAppPlan) :
    (pruneUnsetOptional plan).secrets = plan.secrets.filter fun s => s.name ∉ droppedSecrets plan := by
  unfold FullAppPlan.secrets pruneUnsetOptional
  rw [List.flatMap_map, List.filter_flatMap]
  rfl

/-- The lines name what is not dropped. -/
theorem exists_secretLine_iff {source : String} :
    (∃ comp ∈ (pruneUnsetOptional plan).bound.components, ∃ target,
      .secret source target ∈ secretLines comp) ↔
    ∃ s ∈ plan.secrets, s.name = source ∧ s.name ∉ droppedSecrets plan := by
  have hsecrets := (secrets_bound (pruneUnsetOptional plan)).trans
    (congrArg (List.map FullSecretPlan.toAppSecretPlan) (secrets_prune plan))
  constructor
  · rintro ⟨comp, hcomp, target, hline⟩
    obtain ⟨s, hs, heq⟩ := List.mem_map.mp hline
    obtain ⟨hname, -⟩ := InputLine.secret.inj heq
    have hmem := List.mem_flatMap_of_mem hcomp hs
    rw [hsecrets] at hmem
    obtain ⟨t, ht, rfl⟩ := List.mem_map.mp hmem
    obtain ⟨ht, hkept⟩ := List.mem_filter.mp ht
    exact ⟨t, ht, hname, by simpa using hkept⟩
  · rintro ⟨s, hs, rfl, hkept⟩
    have hmem : s.toAppSecretPlan ∈
        (pruneUnsetOptional plan).bound.components.flatMap AppComponentPlan.secrets := by
      rw [hsecrets]
      exact List.mem_map_of_mem (List.mem_filter.mpr ⟨hs, by simpa using hkept⟩)
    obtain ⟨comp, hcomp, hs⟩ := List.mem_flatMap.mp hmem
    exact ⟨comp, hcomp, s.target, List.mem_map_of_mem hs⟩

theorem FullSecretPlan.owned_of_provided {s : FullSecretPlan} (h : s.provided = true) : s.owned = true := by
  unfold FullSecretPlan.provided FullSecretPlan.filled at h
  unfold AppSecretPlan.owned
  cases hgenerate : s.generate with
  | some rule => rfl
  | none =>
      cases hvalue : s.value with
      | some value => rfl
      | none => simp [hgenerate, hvalue, truthyText] at h

/-- What `dedupeSecrets` keeps of a name that is not dropped. -/
theorem get_dedupe {name : String} {first : FullSecretPlan} (hname : name ∉ droppedSecrets plan)
    (hfirst : plan.firstOwned name = some first) :
    Table.get AppSecretPlan.name name (dedupeSecrets (pruneUnsetOptional plan).bound) =
      some first.toAppSecretPlan := by
  rw [dedupeSecrets_eq, secrets_bound, secrets_prune]
  refine get_foldl_keepOwned (by simp) ?_
  rw [List.find?_map, List.find?_filter]
  have hpred : (fun s : FullSecretPlan => decide (decide (s.name ∉ droppedSecrets plan) = true ∧
      ((fun s : AppSecretPlan => s.name == name && s.owned) ∘ FullSecretPlan.toAppSecretPlan) s = true)) =
      fun s => s.name == name && s.owned := by
    funext s
    by_cases hs : s.name = name
    · simp [hs, hname]
    · simp [hs]
  rw [hpred]
  unfold FullAppPlan.firstOwned at hfirst
  rw [hfirst]
  rfl

/-- Where the inputs are given, each name that is not dropped has an entry with a rule or a value. -/
theorem exists_firstOwned (h : ManifestFills plan) {s : FullSecretPlan} (hs : s ∈ plan.secrets)
    (hkept : s.name ∉ droppedSecrets plan) : ∃ first, plan.firstOwned s.name = some first := by
  have hprovides : plan.provides s.name = true := by
    cases hoptional : s.optional with
    | false => exact h.secrets s hs hoptional
    | true =>
        by_contra hnot
        refine hkept (List.mem_map_of_mem (List.mem_filter.mpr ⟨hs, ?_⟩))
        simpa [hoptional] using hnot
  obtain ⟨t, ht, hprovided⟩ := List.any_eq_true.mp hprovides
  rw [Bool.and_eq_true] at hprovided
  refine Option.isSome_iff_exists.mp (List.find?_isSome.mpr ⟨t, ht, ?_⟩)
  rw [Bool.and_eq_true]
  exact ⟨hprovided.2, FullSecretPlan.owned_of_provided hprovided.1⟩

/-- Where the inputs are given, the secrets are injected exactly if they are undisputed. -/
theorem secrets_injected (plan : FullAppPlan) (set : Overrides) (ctx : RenderContext)
    (h : assertSecretsSatisfied (applyOverrides plan set) = .ok ()) :
    Injected plan set ctx ↔ Undisputed plan set := by
  have hfills := satisfied_iff.mp h
  have hkeyed : Table.Keyed AppSecretPlan.name
      (dedupeSecrets (pruneUnsetOptional (applyOverrides plan set)).bound) :=
    keyed_foldl_keepOwned List.nodup_nil
  have hprovided {s : FullSecretPlan} : s.provided = true ↔
      s.generate.isSome = true ∨ (truthyText s.value).isSome = true := by
    rw [FullSecretPlan.provided, FullSecretPlan.filled, Bool.or_eq_true]
  constructor
  · intro hinjected s hs hkept first hfirst
    obtain ⟨comp, hcomp, target, hline⟩ := exists_secretLine_iff.mpr ⟨s, hs, rfl, hkept⟩
    obtain ⟨-, kept, hmade, hname, hmaterial, howner⟩ := hinjected comp hcomp s.name target hline
    have hget := hkeyed.get_eq hmade
    rw [hname, get_dedupe hkept hfirst] at hget
    cases hget
    exact ⟨hprovided.mpr hmaterial, howner⟩
  · intro hundisputed comp hcomp source target hline
    obtain ⟨s, hs, rfl, hkept⟩ := exists_secretLine_iff.mp ⟨comp, hcomp, target, hline⟩
    obtain ⟨first, hfirst⟩ := exists_firstOwned hfills hs hkept
    obtain ⟨hmaterial, howner⟩ := hundisputed s hs hkept first hfirst
    have hget := get_dedupe hkept hfirst
    have hmade := Table.mem_of_get hget
    refine ⟨List.count_eq_one_of_mem hkeyed ?_, first.toAppSecretPlan, hmade, Table.key_of_get hget,
      hprovided.mp hmaterial, howner⟩
    rw [← Table.key_of_get hget]
    exact List.mem_map_of_mem hmade

end Injection

/-! ## A wiki whose database has a password -/

/-- The database asks for its password. -/
def databaseSource : CatalogComponent where
  env := [⟨"POSTGRES_PASSWORD", none, false, some (.userInput ⟨true, none⟩)⟩]
  volumes := []
  image := "docker.io/library/postgres:17"
  ports := []
  cpu := none
  memory := none
  health := none
  dependsOn := []
  command := none

/-- The wiki refers to it. -/
def referringSource : CatalogComponent :=
  { databaseSource with
    env := [⟨"DB_PASS", some "\x7b\x7bcomponents.db.env.POSTGRES_PASSWORD\x7d\x7d", false, none⟩]
    image := "docker.io/library/wiki:3"
    ports := [⟨8080, true, .http⟩] }

def referringSpec : CatalogSpec :=
  .composed [] [⟨"db", none, databaseSource⟩, ⟨"wiki", none, referringSource⟩]

/-- A component of the plan: one secret. -/
def secretComponent (name image : String) (ports : List AppPortPlan) (secret : FullSecretPlan) :
    FullComponentPlan where
  name := name
  image := image
  env := []
  secrets := [secret]
  ports := ports.map fun p => (p, none)
  volumes := []
  cpu := none
  memory := none
  health := none
  dependsOn := []
  command := none

/-- The plan of the wiki. -/
def referringPlan : FullAppPlan :=
  { gatedWiki with
    name := "wiki"
    appId := "wiki"
    pod := some "vops-wiki"
    components := [
      secretComponent "db" "docker.io/library/postgres:17" []
        ⟨⟨"vops-wiki-db-postgres-password", "POSTGRES_PASSWORD", none, some ""⟩, false, none⟩,
      secretComponent "wiki" "docker.io/library/wiki:3" [⟨8080, true, .http⟩]
        ⟨⟨"vops-wiki-db-postgres-password", "DB_PASS", none, none⟩, false, none⟩]
    primary := "wiki"
    needsAppDomain := false
    warnings := [] }

theorem normalize_referring :
    (normalizeManifest "wiki" referringSpec none).toOption = some referringPlan.bound := by
  decide

/-- Given under the name of its owner, the password is injected. -/
theorem wiki_injected :
    Injected referringPlan (.ofEntries [("POSTGRES_PASSWORD", "hunter2")]) ⟨false, .empty⟩ := by
  refine (secrets_injected referringPlan (.ofEntries [("POSTGRES_PASSWORD", "hunter2")]) ⟨false, .empty⟩
    (by decide +kernel)).mpr fun s hs _ first hfirst => ?_
  have hname : ∀ s ∈ (applyOverrides referringPlan (.ofEntries [("POSTGRES_PASSWORD", "hunter2")])).secrets,
      s.name = "vops-wiki-db-postgres-password" := by
    decide +kernel
  have hget : (applyOverrides referringPlan (.ofEntries [("POSTGRES_PASSWORD", "hunter2")])).firstOwned
      "vops-wiki-db-postgres-password" = some ⟨⟨"vops-wiki-db-postgres-password", "POSTGRES_PASSWORD", none,
        some "hunter2"⟩, false, none⟩ := by
    decide +kernel
  rw [hname s hs, hget] at hfirst
  rw [hname s hs]
  cases hfirst
  exact ⟨by decide +kernel, by decide +kernel⟩

/-- Given under the name of the reference, it is asked for no more, and made empty. -/
theorem wiki_uninjected :
    (normalizeManifest "wiki" referringSpec none).toOption = some referringPlan.bound ∧
    assertSecretsSatisfied (applyOverrides referringPlan (.ofEntries [("DB_PASS", "hunter2")])) = .ok () ∧
    ¬Injected referringPlan (.ofEntries [("DB_PASS", "hunter2")]) ⟨false, .empty⟩ := by
  refine ⟨normalize_referring, by decide +kernel, fun h => ?_⟩
  have hline : ∃ comp ∈ (pruneUnsetOptional (applyOverrides referringPlan
      (.ofEntries [("DB_PASS", "hunter2")]))).bound.components,
      .secret "vops-wiki-db-postgres-password" "DB_PASS" ∈ secretLines comp := by
    decide +kernel
  have hmade : ∀ kept ∈ (renderDeploy (pruneUnsetOptional (applyOverrides referringPlan
      (.ofEntries [("DB_PASS", "hunter2")]))).bound ⟨false, .empty⟩).secrets,
      ¬(kept.generate.isSome = true ∨ (truthyText kept.value).isSome = true) := by
    decide +kernel
  obtain ⟨comp, hcomp, hline⟩ := hline
  obtain ⟨-, kept, hkept, -, hmaterial, -⟩ := h comp hcomp _ _ hline
  exact hmade kept hkept hmaterial

end Vops.Apps
