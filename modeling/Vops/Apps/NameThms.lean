import Vops.Apps.ApplicationNormalize
import Vops.Apps.DataGuardThms
import Vops.Lib.Async
import Vops.Lib.Separated

/-!
# The names of the objects on a host

* `AcceptedApp` — a manifest that a normalizer accepts, with its plan.
* `AcceptedApp.names_spec` — what the containers, secrets and volumes of a plan are named after.
* `NamesApart` — no two of some apps share a container, a secret or a volume, and none is removed with
  another.
* `NoClash`, `names_apart_iff` — that is so exactly when no hyphen of a name can be read as the separator
  of another, and no two keys of a component are sanitized to one.
-/

namespace Vops.Apps

open Async Separated

/-! ## Records and secrets -/

/-- What is found in a record was there or is one of the assigned entries. -/
theorem Record.mem_of_get?_assign {β : Type} {r : Record β} {entries : List (String × β)} {key : String}
    {value : β} (h : (r.assign entries).get? key = some value) :
    r.get? key = some value ∨ (key, value) ∈ entries := by
  induction entries generalizing r with
  | nil => exact .inl h
  | cons e entries ih =>
      rcases ih h with hset | hmem
      · unfold Record.get? at hset ⊢
        rw [Record.entries_set, Table.get_upsert] at hset
        split at hset
        · next hkey =>
            obtain rfl := Option.some.inj hset
            exact .inr (List.mem_cons.mpr (.inl (Prod.ext hkey.symm rfl)))
        · exact .inl hset
      · exact .inr (List.mem_cons_of_mem _ hmem)

theorem Record.mem_of_get?_ofEntries {β : Type} {entries : List (String × β)} {key : String} {value : β}
    (h : (Record.ofEntries entries).get? key = some value) : (key, value) ∈ entries := by
  rcases Record.mem_of_get?_assign h with hempty | hmem
  · cases hempty
  · exact hmem

/-! ## Fallible maps -/

section Maps

variable {α β ε : Type} {f : α → Except ε β} {as : List α} {bs : List β} {a : α} {b : β}

theorem except_map_eq_ok {f : α → β} {x : Except ε α} : x.map f = .ok b ↔ ∃ a, x = .ok a ∧ f a = b := by
  cases x with
  | ok a => simp [Except.map]
  | error e => simp [Except.map]

theorem exists_of_mem_mapM (h : as.mapM f = .ok bs) (hb : b ∈ bs) : ∃ a ∈ as, f a = .ok b := by
  induction except_mapM_eq_ok.mp h with
  | nil => cases hb
  | @cons a b' as bs hab hrest ih =>
      rcases List.mem_cons.mp hb with rfl | hb
      · exact ⟨a, List.mem_cons_self, hab⟩
      · obtain ⟨a', ha', hab'⟩ := ih (except_mapM_eq_ok.mpr hrest) hb
        exact ⟨a', List.mem_cons_of_mem _ ha', hab'⟩

theorem exists_of_mem_source (h : as.mapM f = .ok bs) (ha : a ∈ as) : ∃ b ∈ bs, f a = .ok b := by
  induction except_mapM_eq_ok.mp h with
  | nil => cases ha
  | @cons a' b as bs hab hrest ih =>
      rcases List.mem_cons.mp ha with rfl | ha
      · exact ⟨b, List.mem_cons_self, hab⟩
      · obtain ⟨b', hb', hab'⟩ := ih (except_mapM_eq_ok.mpr hrest) ha
        exact ⟨b', List.mem_cons_of_mem _ hb', hab'⟩

end Maps

/-! ## Names of variables and volumes -/

/-- The name of a secret or a volume, of the name of a component and a key. -/
def keyName (app : String) (k : String × String) : String :=
  "vops-" ++ app ++ "-" ++ k.1 ++ "-" ++ slug k.2

theorem sanitize_eq_ok {id name : String} : sanitize id = .ok name ↔ slug id ≠ "" ∧ slug id = name := by
  unfold sanitize
  split
  · next h => simp [h]
  · next h => simp [h]

theorem secretName_eq_ok {app logical envName name : String} :
    secretName app logical envName = .ok name ↔ slug envName ≠ "" ∧ keyName app (logical, envName) = name := by
  unfold secretName
  cases h : sanitize envName with
  | error message =>
      constructor
      · rintro ⟨⟩
      · rintro ⟨hne, -⟩
        cases h.symm.trans (sanitize_eq_ok.mpr ⟨hne, rfl⟩)
  | ok key =>
      obtain ⟨hne, rfl⟩ := sanitize_eq_ok.mp h
      constructor
      · rintro ⟨⟩
        exact ⟨hne, rfl⟩
      · rintro ⟨-, rfl⟩
        rfl

theorem toVolume_eq_ok {app logical : String} {v : CatalogVolume} {plan : AppVolumePlan} :
    toVolume app logical v = .ok plan ↔
      slug v.name ≠ "" ∧ ⟨keyName app (logical, v.name), v.mountPath⟩ = plan := by
  unfold toVolume
  cases h : sanitize v.name with
  | error message =>
      constructor
      · rintro ⟨⟩
      · rintro ⟨hne, -⟩
        cases h.symm.trans (sanitize_eq_ok.mpr ⟨hne, rfl⟩)
  | ok key =>
      obtain ⟨hne, rfl⟩ := sanitize_eq_ok.mp h
      constructor
      · rintro ⟨⟩
        exact ⟨hne, rfl⟩
      · rintro ⟨-, rfl⟩
        rfl

theorem secretName_of_slug {app : String} {k : String × String} (h : slug k.2 ≠ "") :
    secretName app k.1 k.2 = .ok (keyName app k) := by
  cases k
  exact secretName_eq_ok.mpr ⟨h, rfl⟩

theorem toVolume_of_slug {app m : String} {k : String × String} (h : slug k.2 ≠ "") :
    toVolume app k.1 ⟨k.2, m⟩ = .ok ⟨keyName app k, m⟩ := by
  cases k
  exact toVolume_eq_ok.mpr ⟨h, rfl⟩

/-! ## The catalog normalizer -/

section Catalog

variable {app logical name : String} {src : CatalogComponent} {raw : RawComponent}
  {raws : List RawComponent} {e : CatalogEnvVar} {secret : AppSecretPlan}

theorem name_of_ownSecret (h : e.ownSecret name = some secret) : secret.name = name := by
  unfold CatalogEnvVar.ownSecret at h
  split at h
  · cases h
    rfl
  · cases h
    rfl
  · split at h
    · cases h
      rfl
    · cases h
  · cases h

/-- The secret that a variable is known under has its own name. -/
theorem indexEnv_secret (h : indexEnv app logical e = .ok (.secret secret)) :
    secretName app logical e.name = .ok secret.name := by
  unfold indexEnv at h
  cases hname : secretName app logical e.name with
  | error message =>
      rw [hname] at h
      cases h
  | ok name =>
      rw [hname] at h
      have href := Except.ok.inj h
      dsimp only at href
      cases hown : e.ownSecret name with
      | some own =>
          rw [hown] at href
          cases href
          rw [name_of_ownSecret hown]
      | none =>
          rw [hown] at href
          dsimp only at href
          split at href
          · cases href
            rfl
          · cases href

/-- What a raw component is: its names, and the secrets of its variables. -/
theorem rawComponent_spec (h : rawComponent app logical src = .ok raw) :
    raw.logical = logical ∧ raw.container = containerName app logical ∧ raw.src = src ∧
      (∀ e ∈ src.env, slug e.name ≠ "") ∧
      ∀ key secret, raw.index.get? key = some (.secret secret) →
        ∃ e ∈ src.env, secretName app logical e.name = .ok secret.name := by
  obtain ⟨refs, hrefs, h⟩ := except_bind_eq_ok.mp h
  cases h
  refine ⟨rfl, rfl, rfl, fun e he => ?_, fun key secret hget => ?_⟩
  · obtain ⟨ref, -, href⟩ := exists_of_mem_source hrefs he
    unfold indexEnv at href
    cases hname : secretName app logical e.name with
    | error message =>
        rw [hname] at href
        cases href
    | ok name => exact (secretName_eq_ok.mp hname).1
  · have hmem := Record.mem_of_get?_ofEntries hget
    obtain ⟨e, he, hindex⟩ := exists_of_mem_mapM hrefs (List.of_mem_zip hmem).2
    exact ⟨e, he, indexEnv_secret hindex⟩

/-- A referenced secret is one of the raw components'. -/
theorem secretOf_spec {comp key : String} (h : secretOf raws comp key = some secret) :
    ∃ raw ∈ raws, raw.index.get? key = some (.secret secret) := by
  unfold secretOf at h
  split at h
  · next s hget =>
      cases h
      obtain ⟨raw, hraw, hkey⟩ := Option.bind_eq_some_iff.mp hget
      exact ⟨raw, List.mem_reverse.mp (List.mem_of_find?_eq_some hraw), hkey⟩
  · cases h

/-- A secret that is placed has the name of its variable, or of one that it refers to. -/
theorem placeEnv_secret (h : placeEnv app logical raws e = .ok (.inl secret)) :
    secretName app logical e.name = .ok secret.name ∨
      ∃ raw ∈ raws, ∃ key shared, raw.index.get? key = some (.secret shared) ∧ shared.name = secret.name := by
  obtain ⟨own, hown, h⟩ := except_bind_eq_ok.mp h
  cases hsecret : e.ownSecret own with
  | some s =>
      rw [hsecret] at h
      cases h
      rw [name_of_ownSecret hsecret]
      exact .inl hown
  | none =>
      rw [hsecret] at h
      dsimp only at h
      split at h
      · next shared hshared =>
          cases h
          refine .inr ?_
          rw [Option.orElse_eq_or, Option.or_eq_some_iff] at hshared
          rcases hshared with htemplate | ⟨-, hself⟩
          · obtain ⟨r, -, hr⟩ := Option.bind_eq_some_iff.mp htemplate
            obtain ⟨raw, hraw, hget⟩ := secretOf_spec hr
            exact ⟨raw, hraw, r.2, shared, hget, rfl⟩
          · obtain ⟨key, -, hkey⟩ := Option.bind_eq_some_iff.mp hself
            obtain ⟨raw, hraw, hget⟩ := secretOf_spec hkey
            exact ⟨raw, hraw, key, shared, hget, rfl⟩
      · obtain ⟨resolved, -, h⟩ := except_bind_eq_ok.mp h
        split at h
        · cases h
          exact .inl hown
        · cases h

/-- The names of a component of a plan: its own container and volumes, and secrets of the raw
components. -/
theorem resolveComponent_spec {c : AppComponentPlan} (h : resolveComponent app raws raw = .ok c) :
    c.container = raw.container ∧ (∀ v ∈ raw.src.volumes, slug v.name ≠ "") ∧
      (∀ v ∈ c.volumes, ∃ w ∈ raw.src.volumes, v.volume = keyName app (raw.logical, w.name)) ∧
      ∀ s ∈ c.secrets, (∃ e ∈ raw.src.env, secretName app raw.logical e.name = .ok s.name) ∨
        ∃ other ∈ raws, ∃ key shared, other.index.get? key = some (.secret shared) ∧
          shared.name = s.name := by
  obtain ⟨placed, hplaced, h⟩ := except_bind_eq_ok.mp h
  obtain ⟨volumes, hvolumes, h⟩ := except_bind_eq_ok.mp h
  obtain ⟨health, -, h⟩ := except_bind_eq_ok.mp h
  cases h
  refine ⟨rfl, fun v hv => ?_, fun v hv => ?_, fun s hs => ?_⟩
  · obtain ⟨plan, -, hplan⟩ := exists_of_mem_source hvolumes hv
    exact (toVolume_eq_ok.mp hplan).1
  · obtain ⟨w, hw, hplan⟩ := exists_of_mem_mapM hvolumes hv
    obtain ⟨-, rfl⟩ := toVolume_eq_ok.mp hplan
    exact ⟨w, hw, rfl⟩
  · obtain ⟨p, hp, hleft⟩ := List.mem_filterMap.mp hs
    obtain ⟨e, he, hplace⟩ := exists_of_mem_mapM hplaced hp
    cases p with
    | inl s' =>
        cases hleft
        exact (placeEnv_secret hplace).imp (fun hname => ⟨e, he, hname⟩) id
    | inr plain => cases hleft

end Catalog

/-! ## Accepted apps -/

/-- What the normalizers read. -/
inductive AppSource
  | catalog (appId : String) (spec : CatalogSpec) (installName : Option String)
  | application (appId : String) (deploy : ApplicationDeploy) (image : String)
      (installName : Option String) (limits blocks : List String)

/-- The plan of either normalizer. -/
def AppSource.normalize : AppSource → Except String AppPlan
  | catalog appId spec installName => normalizeManifest appId spec installName
  | application appId deploy image installName limits blocks =>
      normalizeApplication appId deploy image installName limits blocks

/-- The components, each with the names of its variables and of its volumes. -/
def AppSource.components : AppSource → List (String × List String × List String)
  | catalog _ spec _ => spec.sources.map fun s =>
      (s.1, s.2.env.map CatalogEnvVar.name, s.2.volumes.map CatalogVolume.name)
  | application _ deploy _ _ _ _ =>
      [(COMPONENT, deploy.env.map ApplicationEnvEntry.key, deploy.volumes.map CatalogVolume.name)]

/-- A manifest that is accepted, and its plan. -/
structure AcceptedApp where
  source : AppSource
  plan : AppPlan
  accepted : source.normalize = .ok plan

namespace AcceptedApp

/-- The name of the install. -/
def name (a : AcceptedApp) : String := a.plan.name

/-- The names of its components. -/
def logicals (a : AcceptedApp) : List String := a.source.components.map Prod.fst

/-- Its variables, each with its component. -/
def envKeys (a : AcceptedApp) : List (String × String) :=
  a.source.components.flatMap fun c => c.2.1.map fun key => (c.1, key)

/-- Its volumes, each with its component. -/
def volumeKeys (a : AcceptedApp) : List (String × String) :=
  a.source.components.flatMap fun c => c.2.2.map fun key => (c.1, key)

end AcceptedApp

/-- The names of a plan are made of the components and keys of its source. -/
structure NamedAfter (source : AppSource) (plan : AppPlan) : Prop where
  envs : ∀ c ∈ source.components, ∀ key ∈ c.2.1, slug key ≠ ""
  mounts : ∀ c ∈ source.components, ∀ key ∈ c.2.2, slug key ≠ ""
  containers : ∀ c ∈ plan.components, ∃ d ∈ source.components, c.container = containerName plan.name d.1
  secrets : ∀ c ∈ plan.components, ∀ s ∈ c.secrets, ∃ d ∈ source.components, ∃ key ∈ d.2.1,
    s.name = keyName plan.name (d.1, key)
  volumes : ∀ c ∈ plan.components, ∀ v ∈ c.volumes, ∃ d ∈ source.components, ∃ key ∈ d.2.2,
    v.volume = keyName plan.name (d.1, key)

theorem normalizeManifest_spec {appId : String} {spec : CatalogSpec} {installName : Option String}
    {plan : AppPlan} (h : normalizeManifest appId spec installName = .ok plan) :
    NamedAfter (.catalog appId spec installName) plan := by
  obtain ⟨name, -, h⟩ := except_bind_eq_ok.mp h
  obtain ⟨raws, hraws, h⟩ := except_bind_eq_ok.mp h
  obtain ⟨components, hcomponents, h⟩ := except_bind_eq_ok.mp h
  obtain ⟨primary, -, h⟩ := except_bind_eq_ok.mp h
  cases h
  -- every variable of a component is one of the source's
  have hof : ∀ raw ∈ raws, ∃ s ∈ spec.sources, raw.logical = s.1 ∧ raw.src = s.2 ∧
      rawComponent name s.1 s.2 = .ok raw := by
    intro raw hraw
    obtain ⟨s, hs, hraw⟩ := exists_of_mem_mapM hraws hraw
    obtain ⟨hlogical, -, hsrc, -, -⟩ := rawComponent_spec hraw
    exact ⟨s, hs, hlogical, hsrc, hraw⟩
  have hsource {s : String × CatalogComponent} (hs : s ∈ spec.sources) :=
    List.mem_map_of_mem (f := fun s : String × CatalogComponent =>
      (s.1, s.2.env.map CatalogEnvVar.name, s.2.volumes.map CatalogVolume.name)) hs
  refine ⟨?_, ?_, ?_, ?_, ?_⟩
  · intro c hc key hkey
    obtain ⟨s, hs, rfl⟩ := List.mem_map.mp hc
    obtain ⟨e, he, rfl⟩ := List.mem_map.mp hkey
    obtain ⟨raw, -, hraw⟩ := exists_of_mem_source hraws hs
    exact (rawComponent_spec hraw).2.2.2.1 e he
  · intro c hc key hkey
    obtain ⟨s, hs, rfl⟩ := List.mem_map.mp hc
    obtain ⟨v, hv, rfl⟩ := List.mem_map.mp hkey
    obtain ⟨raw, hmem, hraw⟩ := exists_of_mem_source hraws hs
    obtain ⟨plan, -, hplan⟩ := exists_of_mem_source hcomponents hmem
    refine (resolveComponent_spec hplan).2.1 v ?_
    rwa [(rawComponent_spec hraw).2.2.1]
  · intro c hc
    obtain ⟨raw, hraw, hc⟩ := exists_of_mem_mapM hcomponents hc
    obtain ⟨s, hs, -, -, hraw⟩ := hof raw hraw
    exact ⟨_, hsource hs, (resolveComponent_spec hc).1.trans (rawComponent_spec hraw).2.1⟩
  · intro c hc secret hsecret
    obtain ⟨raw, hraw, hc⟩ := exists_of_mem_mapM hcomponents hc
    rcases (resolveComponent_spec hc).2.2.2 secret hsecret with ⟨e, he, hname⟩ | hshared
    · obtain ⟨s, hs, hlogical, hsrc, -⟩ := hof raw hraw
      rw [hsrc] at he
      rw [hlogical] at hname
      exact ⟨_, hsource hs, e.name, List.mem_map_of_mem he, (secretName_eq_ok.mp hname).2.symm⟩
    · obtain ⟨other, hother, key, shared, hget, hname⟩ := hshared
      obtain ⟨s, hs, -, -, hraw⟩ := hof other hother
      obtain ⟨e, he, hshared⟩ := (rawComponent_spec hraw).2.2.2.2 key shared hget
      rw [hname] at hshared
      exact ⟨_, hsource hs, e.name, List.mem_map_of_mem he, (secretName_eq_ok.mp hshared).2.symm⟩
  · intro c hc v hv
    obtain ⟨raw, hraw, hc⟩ := exists_of_mem_mapM hcomponents hc
    obtain ⟨s, hs, hlogical, hsrc, -⟩ := hof raw hraw
    obtain ⟨w, hw, hname⟩ := (resolveComponent_spec hc).2.2.1 v hv
    rw [hsrc] at hw
    rw [hlogical] at hname
    exact ⟨_, hsource hs, w.name, List.mem_map_of_mem hw, hname⟩

/-- A variable of an application manifest is placed in a secret of its own name. -/
theorem placeApplicationEnv_secret {app : String} {entry : ApplicationEnvEntry} {secret : AppSecretPlan}
    {r : Option (AppSecretPlan ⊕ AppEnvPlain) × List String} (h : placeApplicationEnv app entry = .ok r)
    (hr : r.1 = some (.inl secret)) : secret.name = keyName app (COMPONENT, entry.key) := by
  obtain ⟨own, hown, h⟩ := except_bind_eq_ok.mp h
  obtain ⟨-, rfl⟩ := secretName_eq_ok.mp hown
  have hplaced {vf : ApplicationEnvValueFrom} {name : String}
      (hp : placeValueFrom name entry vf = some (.inl secret)) : secret.name = name := by
    unfold placeValueFrom at hp
    split at hp
    · cases hp
      rfl
    · split at hp
      · cases hp
        rfl
      · obtain ⟨ui, -, hui⟩ := Option.map_eq_some_iff.mp hp
        unfold userInputEnv at hui
        split at hui
        · cases hui
          rfl
        · cases hui
  dsimp only at h
  split at h
  · cases h
    cases hr
  · split at h
    · cases h
    · split at h
      · next placed hvf =>
          cases h
          obtain ⟨vf, -, hp⟩ := Option.bind_eq_some_iff.mp hvf
          exact hplaced (hp.trans hr)
      · split at h
        · cases h
          cases hr
          rfl
        · split at h
          · cases h
            cases hr
          · cases h
            cases hr

theorem normalizeApplication_spec {appId image : String} {deploy : ApplicationDeploy}
    {installName : Option String} {limits blocks : List String} {plan : AppPlan}
    (h : normalizeApplication appId deploy image installName limits blocks = .ok plan) :
    NamedAfter (.application appId deploy image installName limits blocks) plan := by
  obtain ⟨name, -, h⟩ := except_bind_eq_ok.mp h
  split at h
  · cases h
  · obtain ⟨placed, hplaced, h⟩ := except_bind_eq_ok.mp h
    obtain ⟨volumes, hvolumes, h⟩ := except_bind_eq_ok.mp h
    cases h
    refine ⟨?_, ?_, ?_, ?_, ?_⟩
    · intro c hc key hkey
      obtain rfl := List.mem_singleton.mp hc
      obtain ⟨e, he, rfl⟩ := List.mem_map.mp hkey
      obtain ⟨p, -, hp⟩ := exists_of_mem_source hplaced he
      obtain ⟨own, hown, -⟩ := except_bind_eq_ok.mp hp
      exact (secretName_eq_ok.mp hown).1
    · intro c hc key hkey
      obtain rfl := List.mem_singleton.mp hc
      obtain ⟨v, hv, rfl⟩ := List.mem_map.mp hkey
      obtain ⟨p, -, hp⟩ := exists_of_mem_source hvolumes hv
      exact (toVolume_eq_ok.mp hp).1
    · intro c hc
      obtain rfl := List.mem_singleton.mp hc
      exact ⟨_, List.mem_singleton_self _, rfl⟩
    · intro c hc secret hsecret
      obtain rfl := List.mem_singleton.mp hc
      obtain ⟨p, hp, hleft⟩ := List.mem_filterMap.mp hsecret
      obtain ⟨q, hq, hfirst⟩ := List.mem_filterMap.mp hp
      obtain ⟨e, he, hplace⟩ := exists_of_mem_mapM hplaced hq
      cases p with
      | inl secret' =>
          cases hleft
          exact ⟨_, List.mem_singleton_self _, e.key, List.mem_map_of_mem he,
            placeApplicationEnv_secret hplace hfirst⟩
      | inr plain => cases hleft
    · intro c hc v hv
      obtain rfl := List.mem_singleton.mp hc
      obtain ⟨w, hw, hplan⟩ := exists_of_mem_mapM hvolumes hv
      obtain ⟨-, rfl⟩ := toVolume_eq_ok.mp hplan
      exact ⟨_, List.mem_singleton_self _, w.name, List.mem_map_of_mem hw, rfl⟩

theorem AppSource.normalize_spec {source : AppSource} {plan : AppPlan} (h : source.normalize = .ok plan) :
    NamedAfter source plan := by
  cases source with
  | catalog appId spec installName => exact normalizeManifest_spec h
  | application appId deploy image installName limits blocks => exact normalizeApplication_spec h

/-! ## Installs -/

/-- The row that a deploy of a plan records. -/
def Installs (plan : AppPlan) (install : AppInstallV1) : Prop :=
  ∃ facts hostAddress ingress publish reservations plan' hp,
    planHostDeploy plan facts hostAddress ingress publish reservations = .ok (plan', hp) ∧
      install = toInstall plan' hp

/-- A fold whose steps take over nothing but the element at hand takes over nothing else. -/
theorem mem_of_mem_foldl {α : Type} {f : List α → α → List α}
    (hf : ∀ acc a x, x ∈ f acc a → x ∈ acc ∨ x = a) {as acc : List α} {x : α}
    (h : x ∈ as.foldl f acc) : x ∈ acc ∨ x ∈ as := by
  induction as generalizing acc with
  | nil => exact .inl h
  | cons a as ih =>
      rcases ih h with hstep | hrest
      · rcases hf acc a x hstep with hacc | rfl
        · exact .inl hacc
        · exact .inr List.mem_cons_self
      · exact .inr (List.mem_cons_of_mem _ hrest)

/-- The secrets of a plan are those of its components. -/
theorem mem_dedupeSecrets {plan : AppPlan} {secret : AppSecretPlan} (h : secret ∈ dedupeSecrets plan) :
    ∃ c ∈ plan.components, secret ∈ c.secrets := by
  unfold dedupeSecrets at h
  refine (mem_of_mem_foldl ?_ h).elim (fun hnil => absurd hnil List.not_mem_nil) List.mem_flatMap.mp
  intro byName s x hx
  have hupsert (hmem : x ∈ Table.upsert AppSecretPlan.name s byName) : x ∈ byName ∨ x = s :=
    (Table.mem_upsert hmem).symm
  split at hx
  · split at hx
    · exact .inl hx
    · exact hupsert hx
  · exact hupsert hx

/-- The names of a row are made of the components and keys of the source. -/
structure InstallNamed (source : AppSource) (name : String) (install : AppInstallV1) : Prop where
  containers : ∀ c ∈ install.components, ∃ d ∈ source.components, c.container = containerName name d.1
  secrets : ∀ s ∈ install.secrets, ∃ d ∈ source.components, ∃ key ∈ d.2.1, s = keyName name (d.1, key)
  volumes : ∀ v ∈ install.volumes, ∃ d ∈ source.components, ∃ key ∈ d.2.2, v = keyName name (d.1, key)

theorem NamedAfter.installs {source : AppSource} {plan : AppPlan} {install : AppInstallV1}
    (h : NamedAfter source plan) (hinstalls : Installs plan install) :
    InstallNamed source plan.name install := by
  obtain ⟨facts, hostAddress, ingress, publish, reservations, plan', hp, hdeploy, rfl⟩ := hinstalls
  obtain ⟨⟨ports, endpoints⟩, -, hdeploy⟩ := except_bind_eq_ok.mp hdeploy
  cases hdeploy
  refine ⟨fun c hc => ?_, fun s hs => ?_, fun v hv => ?_⟩
  · obtain ⟨resolved, hresolved, rfl⟩ := List.mem_map.mp hc
    obtain ⟨planned, hplanned, rfl⟩ := List.mem_map.mp hresolved
    exact h.containers planned hplanned
  · obtain ⟨secret, hsecret, rfl⟩ := List.mem_map.mp hs
    obtain ⟨c', hc', hmem⟩ := mem_dedupeSecrets hsecret
    obtain ⟨c, hc, rfl⟩ := List.mem_map.mp hc'
    exact h.secrets c hc secret hmem
  · obtain ⟨c', hc', hmem⟩ := List.mem_flatMap.mp hv
    obtain ⟨c, hc, rfl⟩ := List.mem_map.mp hc'
    obtain ⟨volume, hvolume, rfl⟩ := List.mem_map.mp hmem
    exact h.volumes c hc volume hvolume

/-- The container that a command removes. -/
def HostCommand.removedContainer : HostCommand → Option String
  | removeContainer container => some container
  | _ => none

/-- The containers that a script names to remove. -/
def removedContainers (script : HostScript) : List String :=
  script.filterMap HostCommand.removedContainer

/-- The remove script names the containers that were listed. -/
theorem removedContainers_buildRemoveScript (i : RemoveScriptInput) :
    removedContainers (buildRemoveScript i) = i.containers := by
  cases hpod : truthyText i.pod <;> cases hpurge : i.purge <;>
    simp [removedContainers, buildRemoveScript, hpurge, hpod, healthTeardown, List.filterMap_flatMap,
      List.filterMap_cons, Function.comp_def, HostCommand.removedContainer]

/-! ## Names that are apart -/

/-- The names of the objects of some apps on one host. -/
structure NamesApart (apps : List AcceptedApp) : Prop where
  containers : ∀ a ∈ apps, ∀ b ∈ apps, ∀ l ∈ a.logicals, ∀ l' ∈ b.logicals, (a.name, l) ≠ (b.name, l') →
    containerName a.name l ≠ containerName b.name l'
  secrets : ∀ a ∈ apps, ∀ b ∈ apps, ∀ k ∈ a.envKeys, ∀ k' ∈ b.envKeys, (a.name, k) ≠ (b.name, k') →
    secretName a.name k.1 k.2 ≠ secretName b.name k'.1 k'.2
  volumes : ∀ a ∈ apps, ∀ b ∈ apps, ∀ k ∈ a.volumeKeys, ∀ k' ∈ b.volumeKeys, (a.name, k) ≠ (b.name, k') →
    ∀ m m', (toVolume a.name k.1 ⟨k.2, m⟩).map AppVolumePlan.volume ≠
      (toVolume b.name k'.1 ⟨k'.2, m'⟩).map AppVolumePlan.volume
  removals : ∀ a ∈ apps, ∀ b ∈ apps, a.name ≠ b.name → ∀ i j, Installs a.plan i → Installs b.plan j →
    (∀ c ∈ removedContainers (removeApp i true), c ∉ j.components.map InstallComponent.container) ∧
      (∀ s ∈ removedSecrets (removeApp i true), s ∉ j.secrets) ∧
        ∀ v ∈ removedVolumes (removeApp i true), v ∉ j.volumes

/-- Some keys of the apps: no two of one component are sanitized to one, and none holds a hyphen that
could as well be the separator in front of another app's key. -/
structure KeysApart (keys : AcceptedApp → List (String × String)) (apps : List AcceptedApp) : Prop where
  folded : ∀ a ∈ apps, ∀ b ∈ apps, ∀ k ∈ keys a, ∀ k' ∈ keys b, a.name = b.name → k.1 = k'.1 →
    k.2 ≠ k'.2 → slug k.2 ≠ slug k'.2
  shifted : ∀ a ∈ apps, ∀ b ∈ apps, ∀ k ∈ keys a, ∀ k' ∈ keys b, ∀ x,
    (slug k.2).toList = x ++ '-' :: (slug k'.2).toList →
      ¬SameCut '-' a.name.toList (k.1.toList ++ '-' :: x) b.name.toList k'.1.toList

/-- No install name goes on where another ends, with a hyphen and the beginning of one of its components,
and the keys are apart. -/
structure NoClash (apps : List AcceptedApp) : Prop where
  cuts : ∀ a ∈ apps, ∀ b ∈ apps, ∀ l ∈ a.logicals, ∀ l' ∈ b.logicals,
    ¬Moves '-' a.name.toList l.toList b.name.toList l'.toList
  envs : KeysApart AcceptedApp.envKeys apps
  volumes : KeysApart AcceptedApp.volumeKeys apps

theorem containerName_eq_iff {app l app' l' : String} : containerName app l = containerName app' l' ↔
    SameCut '-' app.toList l.toList app'.toList l'.toList := by
  have htext (app l : String) : (containerName app l).toList =
      "vops-".toList ++ (app.toList ++ '-' :: l.toList) := by
    simp only [containerName, String.toList_append, List.append_assoc]
    rfl
  rw [← String.toList_inj, htext, htext, List.append_cancel_left_eq, join_eq_iff]

theorem keyName_eq_iff {app app' : String} {k k' : String × String} : keyName app k = keyName app' k' ↔
    SameCuts '-' app.toList k.1.toList (slug k.2).toList app'.toList k'.1.toList (slug k'.2).toList := by
  have htext (app : String) (k : String × String) : (keyName app k).toList =
      "vops-".toList ++ (app.toList ++ '-' :: (k.1.toList ++ '-' :: (slug k.2).toList)) := by
    simp only [keyName, String.toList_append, List.append_assoc]
    rfl
  rw [← String.toList_inj, htext, htext, List.append_cancel_left_eq, joins_eq_iff]

/-! ## Exactly when they are apart -/

section Apart

variable {apps : List AcceptedApp} {keys : AcceptedApp → List (String × String)}

theorem AcceptedApp.named (a : AcceptedApp) : NamedAfter a.source a.plan :=
  AppSource.normalize_spec a.accepted

theorem AcceptedApp.slug_envKey {a : AcceptedApp} {k : String × String} (hk : k ∈ a.envKeys) :
    slug k.2 ≠ "" ∧ k.1 ∈ a.logicals := by
  obtain ⟨c, hc, hk⟩ := List.mem_flatMap.mp hk
  obtain ⟨key, hkey, rfl⟩ := List.mem_map.mp hk
  exact ⟨a.named.envs c hc key hkey, List.mem_map_of_mem hc⟩

theorem AcceptedApp.slug_volumeKey {a : AcceptedApp} {k : String × String} (hk : k ∈ a.volumeKeys) :
    slug k.2 ≠ "" ∧ k.1 ∈ a.logicals := by
  obtain ⟨c, hc, hk⟩ := List.mem_flatMap.mp hk
  obtain ⟨key, hkey, rfl⟩ := List.mem_map.mp hk
  exact ⟨a.named.mounts c hc key hkey, List.mem_map_of_mem hc⟩

/-- Two install names of which one goes on where the other ends are not the same. -/
theorem ne_of_moves {u v u' v' : List Char} (h : Moves '-' u v u' v') : u ≠ u' := by
  obtain ⟨x, rfl, -⟩ := h
  simp

/-- The names of the containers are distinct when no name goes on where another ends. -/
theorem containers_iff : (∀ a ∈ apps, ∀ b ∈ apps, ∀ l ∈ a.logicals, ∀ l' ∈ b.logicals,
    (a.name, l) ≠ (b.name, l') → containerName a.name l ≠ containerName b.name l') ↔
      ∀ a ∈ apps, ∀ b ∈ apps, ∀ l ∈ a.logicals, ∀ l' ∈ b.logicals,
        ¬Moves '-' a.name.toList l.toList b.name.toList l'.toList := by
  constructor
  · intro h a ha b hb l hl l' hl' hmoves
    refine h a ha b hb l hl l' hl' (fun heq => ?_) (containerName_eq_iff.mpr (.inr (.inl hmoves)))
    exact ne_of_moves hmoves (congrArg String.toList (Prod.ext_iff.mp heq).1)
  · intro h a ha b hb l hl l' hl' hne heq
    rcases containerName_eq_iff.mp heq with ⟨hname, hlogical⟩ | hmoves | hmoves
    · exact hne (Prod.ext (String.toList_inj.mp hname) (String.toList_inj.mp hlogical))
    · exact h a ha b hb l hl l' hl' hmoves
    · exact h b hb a ha l' hl' l hl hmoves

/-- The names of some keys are distinct when the keys are apart. -/
theorem keys_iff (hlogical : ∀ a ∈ apps, ∀ k ∈ keys a, k.1 ∈ a.logicals)
    (hcuts : ∀ a ∈ apps, ∀ b ∈ apps, ∀ l ∈ a.logicals, ∀ l' ∈ b.logicals,
      ¬Moves '-' a.name.toList l.toList b.name.toList l'.toList) :
    (∀ a ∈ apps, ∀ b ∈ apps, ∀ k ∈ keys a, ∀ k' ∈ keys b, (a.name, k) ≠ (b.name, k') →
      keyName a.name k ≠ keyName b.name k') ↔ KeysApart keys apps := by
  constructor
  · intro h
    constructor
    · intro a ha b hb k hk k' hk' hname hcomponent hne hslug
      refine h a ha b hb k hk k' hk' (fun heq => hne ?_) ?_
      · exact congrArg Prod.snd (Prod.ext_iff.mp heq).2
      · unfold keyName
        rw [hname, hcomponent, hslug]
    · intro a ha b hb k hk k' hk' x hx hcut
      refine h a ha b hb k hk k' hk' (fun heq => ?_)
        (keyName_eq_iff.mpr (.inr (.inl ⟨x, hx, hcut⟩)))
      -- a key is no proper end of itself
      have hkey : k = k' := (Prod.ext_iff.mp heq).2
      have hlength := congrArg List.length hx
      rw [hkey, List.length_append, List.length_cons] at hlength
      omega
  · intro h a ha b hb k hk k' hk' hne heq
    rcases keyName_eq_iff.mp heq with ⟨hcut, hslug⟩ | ⟨x, hx, hcut⟩ | ⟨x, hx, hcut⟩
    · rcases hcut with ⟨hname, hcomponent⟩ | hmoves | hmoves
      · have hname := String.toList_inj.mp hname
        have hcomponent := String.toList_inj.mp hcomponent
        by_cases hkey : k.2 = k'.2
        · exact hne (Prod.ext hname (Prod.ext hcomponent hkey))
        · exact h.folded a ha b hb k hk k' hk' hname hcomponent hkey (String.toList_inj.mp hslug)
      · exact hcuts a ha b hb _ (hlogical a ha k hk) _ (hlogical b hb k' hk') hmoves
      · exact hcuts b hb a ha _ (hlogical b hb k' hk') _ (hlogical a ha k hk) hmoves
    · exact h.shifted a ha b hb k hk k' hk' x hx hcut
    · refine h.shifted b hb a ha k' hk' k hk x hx (join_eq_iff.mp ?_)
      exact (join_eq_iff.mpr hcut).symm

/-- What a row names belongs to the app that it was recorded for. -/
theorem removals_of_apart (hcontainers : ∀ a ∈ apps, ∀ b ∈ apps, ∀ l ∈ a.logicals, ∀ l' ∈ b.logicals,
      (a.name, l) ≠ (b.name, l') → containerName a.name l ≠ containerName b.name l')
    (henvs : ∀ a ∈ apps, ∀ b ∈ apps, ∀ k ∈ a.envKeys, ∀ k' ∈ b.envKeys, (a.name, k) ≠ (b.name, k') →
      keyName a.name k ≠ keyName b.name k')
    (hvolumes : ∀ a ∈ apps, ∀ b ∈ apps, ∀ k ∈ a.volumeKeys, ∀ k' ∈ b.volumeKeys,
      (a.name, k) ≠ (b.name, k') → keyName a.name k ≠ keyName b.name k')
    {a b : AcceptedApp} (ha : a ∈ apps) (hb : b ∈ apps) (hne : a.name ≠ b.name) {i j : AppInstallV1}
    (hi : Installs a.plan i) (hj : Installs b.plan j) :
    (∀ c ∈ removedContainers (removeApp i true), c ∉ j.components.map InstallComponent.container) ∧
      (∀ s ∈ removedSecrets (removeApp i true), s ∉ j.secrets) ∧
        ∀ v ∈ removedVolumes (removeApp i true), v ∉ j.volumes := by
  have hi := a.named.installs hi
  have hj := b.named.installs hj
  have hpair {γ : Type} {x y : γ} : (a.name, x) ≠ (b.name, y) := fun heq => hne (Prod.ext_iff.mp heq).1
  have hmem {c : String × List String × List String} {key : String} {source : AppSource}
      (f : String × List String × List String → List String)
      (hc : c ∈ source.components) (hkey : key ∈ f c) :
      (c.1, key) ∈ source.components.flatMap fun c => (f c).map fun key => (c.1, key) :=
    List.mem_flatMap.mpr ⟨c, hc, List.mem_map_of_mem hkey⟩
  unfold removeApp
  refine ⟨fun c hc hother => ?_, fun s hs hother => ?_, fun v hv hother => ?_⟩
  · rw [removedContainers_buildRemoveScript] at hc
    obtain ⟨mine, hmine, rfl⟩ := List.mem_map.mp hc
    obtain ⟨theirs, htheirs, heq⟩ := List.mem_map.mp hother
    obtain ⟨d, hd, hname⟩ := hi.containers mine hmine
    obtain ⟨d', hd', hname'⟩ := hj.containers theirs htheirs
    exact hcontainers a ha b hb d.1 (List.mem_map_of_mem hd) d'.1 (List.mem_map_of_mem hd') hpair
      (hname.symm.trans (heq.symm.trans hname'))
  · rw [(removed_buildRemoveScript _ rfl).2] at hs
    obtain ⟨d, hd, key, hkey, rfl⟩ := hi.secrets s hs
    obtain ⟨d', hd', key', hkey', heq⟩ := hj.secrets _ hother
    exact henvs a ha b hb _ (hmem (fun c => c.2.1) hd hkey) _ (hmem (fun c => c.2.1) hd' hkey') hpair heq
  · rw [(removed_buildRemoveScript _ rfl).1] at hv
    obtain ⟨d, hd, key, hkey, rfl⟩ := hi.volumes v hv
    obtain ⟨d', hd', key', hkey', heq⟩ := hj.volumes _ hother
    exact hvolumes a ha b hb _ (hmem (fun c => c.2.2) hd hkey) _ (hmem (fun c => c.2.2) hd' hkey') hpair heq

/-- The objects of some apps have names of their own, and none is removed with another app, exactly when
no hyphen of an install name, a component or a key can be read as the separator of another and no two
keys of a component are sanitized to one. -/
theorem names_apart_iff (apps : List AcceptedApp) : NamesApart apps ↔ NoClash apps := by
  have hsecret {a : AcceptedApp} {k : String × String} (hk : k ∈ a.envKeys) :
      secretName a.name k.1 k.2 = .ok (keyName a.name k) :=
    secretName_of_slug (AcceptedApp.slug_envKey hk).1
  have hvolume {a : AcceptedApp} {k : String × String} (hk : k ∈ a.volumeKeys) (m : String) :
      (toVolume a.name k.1 ⟨k.2, m⟩).map AppVolumePlan.volume = .ok (keyName a.name k) := by
    rw [toVolume_of_slug (AcceptedApp.slug_volumeKey hk).1]
    rfl
  constructor
  · intro h
    have hcuts := containers_iff.mp h.containers
    refine ⟨hcuts, (keys_iff (fun a _ k hk => (AcceptedApp.slug_envKey hk).2) hcuts).mp ?_,
      (keys_iff (fun a _ k hk => (AcceptedApp.slug_volumeKey hk).2) hcuts).mp ?_⟩
    · intro a ha b hb k hk k' hk' hne heq
      refine h.secrets a ha b hb k hk k' hk' hne ?_
      rw [hsecret hk, hsecret hk', heq]
    · intro a ha b hb k hk k' hk' hne heq
      refine h.volumes a ha b hb k hk k' hk' hne "" "" ?_
      rw [hvolume hk, hvolume hk', heq]
  · intro h
    have hcontainers := containers_iff.mpr h.cuts
    have henvs := (keys_iff (fun a _ k hk => (AcceptedApp.slug_envKey hk).2) h.cuts).mpr h.envs
    have hvolumes := (keys_iff (fun a _ k hk => (AcceptedApp.slug_volumeKey hk).2) h.cuts).mpr h.volumes
    refine ⟨hcontainers, ?_, ?_, ?_⟩
    · intro a ha b hb k hk k' hk' hne heq
      rw [hsecret hk, hsecret hk'] at heq
      exact henvs a ha b hb k hk k' hk' hne (Except.ok.inj heq)
    · intro a ha b hb k hk k' hk' hne m m' heq
      rw [hvolume hk, hvolume hk'] at heq
      exact hvolumes a ha b hb k hk k' hk' hne (Except.ok.inj heq)
    · intro a ha b hb hne i j hi hj
      exact removals_of_apart hcontainers henvs hvolumes ha hb hne hi hj

end Apart

/-! ## A shop and its cache -/

/-- An app of two components, one of them without anything but a name. -/
def shopSource (install component : String) (envs : List String) : AppSource :=
  let empty : CatalogComponent := ⟨[], [], "shop:1", [], none, none, none, [], none⟩
  .catalog install (.composed [] [⟨"web", none, empty⟩, ⟨component, none, { empty with
    env := envs.map fun name => ⟨name, none, false, some (.generate 24 none)⟩ }⟩]) none

/-- A manifest, accepted. -/
def AppSource.accept (source : AppSource) (h : source.normalize.isOk = true) : AcceptedApp :=
  match hplan : source.normalize with
  | .ok plan => ⟨source, plan, hplan⟩
  | .error _ => absurd h (by rw [hplan]; exact Bool.false_ne_true)

/-- Two passwords of one component. -/
def shopApp : AcceptedApp :=
  (shopSource "shop" "db-cache" ["DB_PASS", "DB__PASS"]).accept (by decide)

/-- The cache of another install. -/
def shopDbApp : AcceptedApp := (shopSource "shop-db" "cache" []).accept (by decide)

/-- The two passwords share a secret, and the two installs a container. -/
theorem shop_clash : ¬NamesApart [shopApp] ∧ ¬NamesApart [shopApp, shopDbApp] := by
  constructor
  · intro h
    refine h.secrets shopApp List.mem_cons_self shopApp List.mem_cons_self ("db-cache", "DB_PASS")
      (by decide +kernel) ("db-cache", "DB__PASS") (by decide +kernel) (by decide +kernel) ?_
    rw [secretName_of_slug (by decide +kernel), secretName_of_slug (by decide +kernel)]
    exact congrArg Except.ok (by decide +kernel)
  · intro h
    exact h.containers shopApp (by simp) shopDbApp (by simp) "db-cache" (by decide +kernel) "cache"
      (by decide +kernel) (by decide +kernel) (by decide +kernel)

end Vops.Apps
