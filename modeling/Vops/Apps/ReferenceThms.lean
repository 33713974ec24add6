import Vops.Apps.TemplateTokens

/-!
# What a reference in a manifest stands for

* `crossed`, `resolveSelf`, `Resolved` — the replacements of `resolveString`, and what they leave.
* `Resolves.receives` — what a component receives for a variable that is indexed as plain.
* `Faithful`, `NotHandedOn` — a reference stands for what is received; the manifests where it does.
* `references_faithful_iff`, `forum_faithful`, `forum_regions`.
-/

namespace Vops.Apps

open AuthorizedKeys (trim)
open Async (except_bind_eq_ok except_mapM_eq_ok exists_of_map)

/-! ## What is resolved -/

/-- The references of a text to variables and hosts of components. -/
def crossRefs (app value : String) : List (String × Option String) :=
  found crossToken (replaceAppId app value).toList

/-- The text behind the second replacement. -/
def crossed (app : String) (raws : List RawComponent) (value : String) : List Char :=
  substitute crossToken (fun r => textOf (refValue raws r.1 r.2)) (replaceAppId app value).toList

/-- The references of that text to variables of the same component. -/
def selfRefs (app : String) (raws : List RawComponent) (value : String) : List String :=
  found selfToken (crossed app raws value)

/-- What the third replacement makes of a text. -/
def resolveSelf (raws : List RawComponent) (logical : String) (text : List Char) :
    Except String (List Char) :=
  replaceAllM selfToken (fun key => refValue raws logical (some key)) 0 text

/-- Nothing but the deferred tokens is left. -/
def Resolved (text : List Char) : Prop :=
  TextSearch.indexOf "\x7b\x7b".toList (replaceAll matchDeferred 0 none text) = none

section Resolve

variable {app logical value out : String} {raws : List RawComponent} {lead : Char} {x t : List Char}

theorem resolveString_spec (h : resolveString app logical value raws = .ok out) :
    (∀ r ∈ crossRefs app value, ∃ t, refValue raws r.1 r.2 = .ok t) ∧
      resolveSelf raws logical (crossed app raws value) = .ok out.toList ∧ Resolved out.toList := by
  obtain ⟨text, htext, h⟩ := except_bind_eq_ok.mp h
  obtain ⟨hrefs, rfl⟩ := replaceAllM_eq_ok.mp htext
  obtain ⟨text, htext, h⟩ := except_bind_eq_ok.mp h
  split at h
  · cases h
  · next hleft =>
      cases h
      rw [String.toList_ofList]
      exact ⟨hrefs, htext, by simpa [Resolved] using hleft⟩

theorem resolveSelf_eq_ok : resolveSelf raws logical t = .ok x ↔
    (∀ key ∈ found selfToken t, ∃ v, refValue raws logical (some key) = .ok v) ∧
      x = substitute selfToken (fun key => textOf (refValue raws logical (some key))) t :=
  replaceAllM_eq_ok

/-- What is left over does not begin like a token of a reference. -/
theorem Resolved.no_token (h : Resolved t) (hx : Leads lead x) (hlead : lead ≠ 'a') :
    ¬x <:+: t := by
  intro hin
  obtain ⟨a, b, hab⟩ :=
    hx.infix_substitute reads_origin (by decide) (by simpa using hlead) hin fun _ => []
  obtain ⟨y, rfl, -, -⟩ := hx
  unfold Resolved at h
  rw [replaceDeferred_eq] at h
  refine TextSearch.indexOf_eq_none_iff.mp h a.length ?_ ⟨y ++ b, ?_⟩
  · change a.length ≤ (substitute (matchBraces _) _ t).length
    rw [← hab]
    simp
  · change _ = (substitute (matchBraces _) _ t).drop _
    rw [← hab, List.append_assoc, List.drop_left]
    rfl

/-- A token that is no reference to the same component passes the third replacement. -/
theorem Leads.kept_resolveSelf (hx : Leads lead x) (hlead : lead ≠ 'e') (ht : x <:+: t)
    {text : List Char} (h : resolveSelf raws logical t = .ok text) : x <:+: text := by
  obtain ⟨-, rfl⟩ := resolveSelf_eq_ok.mp h
  exact hx.infix_substitute (reads_envKey _) (by decide) (by simpa using hlead) ht _

theorem Leads.kept_appId (hx : Leads lead x) (hlead : lead ≠ 'a') (hvalue : x <:+: value.toList) :
    x <:+: (replaceAppId app value).toList := by
  rw [replaceAppId_eq]
  exact hx.infix_substitute reads_appId (by decide) (by simpa using hlead) hvalue _

theorem trim_part (text : List Char) : trim text <:+: text :=
  (List.rdropWhile_prefix _ _).isInfix.trans (List.dropWhile_suffix _).isInfix

theorem of_whole {β : Type} {m : List Char → Option (ℕ × β)} {b : β} (h : whole m x = some b) :
    m x = some (x.length, b) := by
  obtain ⟨⟨n, b'⟩, hm, h⟩ := Option.bind_eq_some_iff.mp h
  dsimp only at h
  split at h
  · next hlen =>
      cases h
      rw [hm, ← hlen]
  · cases h

/-- A text without references to components. -/
def NoCross (text : List Char) : Prop := ∀ x, Leads 'c' x → ¬x <:+: text

theorem NoCross.found_nil (h : NoCross t) : found crossToken t = [] := by
  by_contra hne
  obtain ⟨r, hr⟩ := List.exists_mem_of_ne_nil _ hne
  obtain ⟨x, hin, hx⟩ := crossToken_bracketed.mem_found_iff.mp hr
  obtain ⟨lead, hmem, hlead⟩ := leads_of_whole (reads_component reads_hostOrEnv) (by decide) hx
  obtain rfl : lead = 'c' := by simpa using hmem
  exact h x hlead hin

theorem refValue_eq_ok {comp key v : String} : refValue raws comp (some key) = .ok v ↔
    ∃ target, byLogical raws comp = some target ∧ target.index.get? key = some (.plain v) := by
  unfold refValue
  cases hcomp : byLogical raws comp with
  | none => simp
  | some target =>
      dsimp only
      split
      · next hget => simp [hget]
      · next w hget => simp [hget]
      · next w hget => simp [hget]

/-- A plain variable without references to components receives what the third replacement makes of
its value. -/
theorem placeEnv_plain {e : CatalogEnvVar} {p : AppSecretPlan ⊕ AppEnvPlain}
    (h : placeEnv app logical raws e = .ok p) (hown : ∀ name, e.ownSecret name = none)
    (hsecret : e.secret = false) (hcross : NoCross (replaceAppId app e.raw).toList)
    (hself : ∀ key ∈ found selfToken (replaceAppId app e.raw).toList,
      ∃ t, refValue raws logical (some key) = .ok t) :
    ∃ v, p = .inr ⟨e.name, v⟩ ∧ Resolved v.toList ∧
      resolveSelf raws logical (replaceAppId app e.raw).toList = .ok v.toList := by
  obtain ⟨own, -, h⟩ := except_bind_eq_ok.mp h
  rw [hown own] at h
  have htemplate : wholeSecretTemplate raws e.raw = none := by
    by_contra hsome
    obtain ⟨s, hs⟩ := Option.ne_none_iff_exists'.mp hsome
    obtain ⟨r, hr, -⟩ := Option.bind_eq_some_iff.mp hs
    obtain ⟨lead, hmem, hlead⟩ :=
      leads_of_whole (reads_component (reads_envKey none)) (by decide) (of_whole hr)
    obtain rfl : lead = 'c' := by simpa using hmem
    exact hcross _ hlead (hlead.kept_appId (by decide) (trim_part _))
  have hwhole : wholeSelfSecret raws logical e.raw = none := by
    by_contra hsome
    obtain ⟨s, hs⟩ := Option.ne_none_iff_exists'.mp hsome
    obtain ⟨key, hkey, hs⟩ := Option.bind_eq_some_iff.mp hs
    obtain ⟨lead, hmem, hlead⟩ := leads_of_whole (reads_envKey _) (by decide) (of_whole hkey)
    obtain rfl : lead = 'e' := by simpa using hmem
    obtain ⟨t, ht⟩ := hself key (selfToken_bracketed.mem_found_iff.mpr
      ⟨_, hlead.kept_appId (by decide) (trim_part _), of_whole hkey⟩)
    obtain ⟨target, htarget, hget⟩ := refValue_eq_ok.mp ht
    simp [secretOf, htarget, hget] at hs
  rw [htemplate, hwhole] at h
  obtain ⟨v, hv, h⟩ := except_bind_eq_ok.mp h
  rw [hsecret] at h
  cases h
  obtain ⟨-, hresolve, hleft⟩ := resolveString_spec hv
  refine ⟨v, rfl, hleft, ?_⟩
  rwa [crossed, substitute_of_found_nil hcross.found_nil] at hresolve

end Resolve

/-! ## What a component receives -/

/-- The component of a name: of two, the last. -/
def AppPlan.component (plan : AppPlan) (name : String) : Option AppComponentPlan :=
  plan.components.reverse.find? fun c => c.name == name

/-- The plain text that a component receives for a variable. -/
def AppComponentPlan.plainValue (c : AppComponentPlan) (key : String) : Option String :=
  (c.env.reverse.find? fun e => e.name == key).map AppEnvPlain.value

/-- The name of the secret that a component receives for a variable. -/
def AppComponentPlan.injected (c : AppComponentPlan) (key : String) : Option String :=
  (c.secrets.reverse.find? fun s => s.target == key).map AppSecretPlan.name

section Lists

variable {α β γ : Type} {R : α → β → Prop} {as : List α} {bs : List β} {p : α → Bool} {q : β → Bool}

theorem find?_of_forall₂ (h : List.Forall₂ R as bs) (hpq : ∀ a b, R a b → p a = q b) {a : α}
    (ha : as.find? p = some a) : ∃ b, bs.find? q = some b ∧ R a b := by
  induction h with
  | nil => cases ha
  | @cons a' b' as bs hab _ ih =>
      rw [List.find?_cons, ← hpq a' b' hab]
      rw [List.find?_cons] at ha
      cases hp : p a' with
      | true =>
          rw [hp] at ha
          cases ha
          exact ⟨b', rfl, hab⟩
      | false =>
          rw [hp] at ha
          exact ih ha

/-- The first entry of a name is found among the entries of one kind, when it is of that kind. -/
theorem find?_filterMap_of_forall₂ (sel : β → Option γ) (r : γ → Bool) (h : List.Forall₂ R as bs)
    (hpr : ∀ a b c, R a b → sel b = some c → r c = p a) {a : α} (ha : as.find? p = some a) :
    ∃ b, R a b ∧ ∀ c, sel b = some c → (bs.filterMap sel).find? r = some c := by
  induction h with
  | nil => cases ha
  | @cons a' b' as bs hab _ ih =>
      rw [List.find?_cons] at ha
      cases hp : p a' with
      | true =>
          rw [hp] at ha
          cases ha
          refine ⟨b', hab, fun c hc => ?_⟩
          rw [List.filterMap_cons_some hc, List.find?_cons, hpr a b' c hab hc, hp]
      | false =>
          rw [hp] at ha
          obtain ⟨b, hR, hb⟩ := ih ha
          refine ⟨b, hR, fun c hc => ?_⟩
          cases hb' : sel b' with
          | none => rw [List.filterMap_cons_none hb', hb c hc]
          | some c' =>
              rw [List.filterMap_cons_some hb', List.find?_cons, hpr a' b' c' hab hb', hp, hb c hc]

end Lists

theorem Record.get?_assign {β : Type} (r : Record β) (entries : List (String × β)) (key : String) :
    (r.assign entries).get? key =
      ((entries.reverse.find? fun e => e.1 == key).map Prod.snd).or (r.get? key) := by
  induction entries generalizing r with
  | nil => rfl
  | cons e entries ih =>
      have hset : (r.set e.1 e.2).get? key = if e.1 = key then some e.2 else r.get? key := by
        unfold Record.get?
        rw [Record.entries_set, Table.get_upsert]
        split <;> rfl
      change ((r.set e.1 e.2).assign entries).get? key = _
      rw [ih, hset, List.reverse_cons, List.find?_append]
      cases entries.reverse.find? fun e => e.1 == key with
      | some found => rfl
      | none =>
          by_cases hkey : e.1 = key
          · simp [hkey]
          · simp [hkey]

section Raw

variable {app logical key : String} {src : CatalogComponent} {raw : RawComponent}
  {e : CatalogEnvVar}

theorem zip_names {envs : List CatalogEnvVar} {refs : List EnvRef}
    (h : List.Forall₂ (fun e ref => indexEnv app logical e = .ok ref) envs refs) :
    List.Forall₂ (fun entry e => entry.1 = e.name ∧ indexEnv app logical e = .ok entry.2)
      ((envs.map CatalogEnvVar.name).zip refs) envs := by
  induction h with
  | nil => exact .nil
  | cons he _ ih => exact .cons ⟨rfl, he⟩ ih

/-- A variable of a component in its index: the last of that name. -/
theorem index_spec {ref : EnvRef} (h : rawComponent app logical src = .ok raw)
    (hget : raw.index.get? key = some ref) :
    ∃ e, raw.src.env.reverse.find? (fun e => e.name == key) = some e ∧
      indexEnv app raw.logical e = .ok ref := by
  obtain ⟨refs, hrefs, h⟩ := except_bind_eq_ok.mp h
  cases h
  have hzip := zip_names (except_mapM_eq_ok.mp hrefs)
  change (Record.empty.assign _).get? key = _ at hget
  rw [Record.get?_assign] at hget
  have hempty : (Record.empty : Record EnvRef).get? key = none := rfl
  rw [hempty, Option.or_none] at hget
  obtain ⟨entry, hentry, rfl⟩ := Option.map_eq_some_iff.mp hget
  obtain ⟨e, he, -, hindex⟩ := find?_of_forall₂ (q := fun e : CatalogEnvVar => e.name == key)
    (List.forall₂_reverse_iff.mpr hzip) (fun entry e h => by rw [h.1]) hentry
  exact ⟨e, he, hindex⟩

/-- A variable is indexed as plain when it is no secret at all. -/
theorem indexEnv_plain {v : String} (h : indexEnv app logical e = .ok (.plain v)) :
    (∀ name, e.ownSecret name = none) ∧ e.secret = false ∧ v = replaceAppId app e.raw := by
  obtain ⟨name, -, href⟩ := except_map_eq_ok.mp h
  cases hown : e.ownSecret name with
  | some s =>
      rw [hown] at href
      cases href
  | none =>
      rw [hown] at href
      dsimp only at href
      split at href
      · cases href
      · next hsecret =>
          cases href
          refine ⟨fun name' => ?_, by simpa using hsecret, rfl⟩
          revert hown
          unfold CatalogEnvVar.ownSecret
          split <;> simp

/-- A variable that is indexed as a secret, and is none from elsewhere, is declared one. -/
theorem indexEnv_flag {s : AppSecretPlan} (h : indexEnv app logical e = .ok (.secret s))
    (hown : ∀ name, e.ownSecret name = none) : e.secret = true := by
  obtain ⟨name, -, href⟩ := except_map_eq_ok.mp h
  rw [hown name] at href
  by_contra hsecret
  rw [Bool.not_eq_true] at hsecret
  rw [hsecret] at href
  cases href

theorem secretOf_eq_some {raws : List RawComponent} {comp : String} {s : AppSecretPlan}
    (h : secretOf raws comp key = some s) :
    ∃ target, byLogical raws comp = some target ∧ target.index.get? key = some (.secret s) := by
  unfold secretOf at h
  split at h
  · next s' hget =>
      cases h
      exact Option.bind_eq_some_iff.mp hget
  · cases h

end Raw

/-! ## The claim and its condition -/

/-- The variable that a whole value refers to. -/
def wholeRef (logical raw : String) : Option (String × String) :=
  (whole (matchBraces (readComponent (readEnvKey none))) (trim raw.toList)).orElse fun _ =>
    (whole selfToken (trim raw.toList)).map fun key => (logical, key)

/-- The texts of a component in which references are replaced: the values of its variables, as far
as they are no secrets from elsewhere and no whole references to one, and its health command. -/
def RawComponent.texts (r : RawComponent) (raws : List RawComponent) : List String :=
  (r.src.env.filter fun e => (e.ownSecret "").isNone &&
    ((wholeRef r.logical e.raw).bind fun v => secretOf raws v.1 v.2).isNone).map
      CatalogEnvVar.raw ++ (r.src.health.bind AppHealthPlan.command).getD []

/-- The plain text that a component of a plan receives for a variable. -/
def AppPlan.plainValue (plan : AppPlan) (comp key : String) : Option String :=
  (plan.component comp).bind fun c => c.plainValue key

/-- The name of the secret that a component of a plan receives for a variable. -/
def AppPlan.injected (plan : AppPlan) (comp key : String) : Option String :=
  (plan.component comp).bind fun c => c.injected key

/-- A reference stands for what the component that it names receives. -/
structure Faithful (app : String) (raws : List RawComponent) (plan : AppPlan) : Prop where
  /-- What replaces a reference to a component's variable is, when all is replaced, the text that
  the component receives; in the text of another component it is so from the start. -/
  cross : ∀ r ∈ raws, ∀ text ∈ r.texts raws, ∀ comp key, (comp, some key) ∈ crossRefs app text →
    ∃ t v, refValue raws comp (some key) = .ok t ∧ plan.plainValue comp key = some v ∧
      resolveSelf raws r.logical t.toList = .ok v.toList ∧ (comp ≠ r.logical → t = v)
  /-- What replaces a reference to a component's own variable is the text that it receives. -/
  self : ∀ r ∈ raws, ∀ text ∈ r.texts raws, ∀ key ∈ selfRefs app raws text,
    ∃ v, refValue raws r.logical (some key) = .ok v ∧ plan.plainValue r.logical key = some v
  /-- A whole value that refers to a secret is injected the secret that the component receives. -/
  secret : ∀ r ∈ raws, ∀ e ∈ r.src.env, (∀ name, e.ownSecret name = none) → ∀ comp key,
    wholeRef r.logical e.raw = some (comp, key) → ∀ s, secretOf raws comp key = some s →
      ∃ p, placeEnv app r.logical raws e = .ok (.inl p) ∧ p.target = e.name ∧
        plan.injected comp key = some p.name

/-- No reference goes to a variable whose own value goes on elsewhere. -/
structure NotHandedOn (app : String) (raws : List RawComponent) : Prop where
  /-- A plain value that another component refers to has no reference to its own component. -/
  plain : ∀ r ∈ raws, ∀ text ∈ r.texts raws, ∀ comp key, (comp, some key) ∈ crossRefs app text →
    comp ≠ r.logical → ∀ target, byLogical raws comp = some target →
      ∀ value, target.index.get? key = some (.plain value) → found selfToken value.toList = []
  /-- A secret that is referred to is not, as a whole, a reference to another secret. -/
  secret : ∀ r ∈ raws, ∀ e ∈ r.src.env, (∀ name, e.ownSecret name = none) → ∀ comp key,
    wholeRef r.logical e.raw = some (comp, key) → ∀ s, secretOf raws comp key = some s →
      ∀ target, byLogical raws comp = some target → ∀ e',
        target.src.env.reverse.find? (fun e => e.name == key) = some e' →
          (∀ name, e'.ownSecret name = none) → ∀ v, wholeRef comp e'.raw = some v →
            ∀ shared, secretOf raws v.1 v.2 = some shared → shared.name = s.name

section Accepted

variable {app : String} {sources : List (String × CatalogComponent)} {raws : List RawComponent}
  {plan : AppPlan}

/-- The injected secret is that of the whole reference. -/
theorem wholeSecret_eq (logical raw : String) :
    ((wholeSecretTemplate raws raw).orElse fun _ => wholeSelfSecret raws logical raw) =
      (wholeRef logical raw).bind fun v => secretOf raws v.1 v.2 := by
  unfold wholeSecretTemplate wholeSelfSecret wholeRef
  cases hcross : whole (matchBraces (readComponent (readEnvKey none))) (trim raw.toList) with
  | none =>
      change (whole selfToken (trim raw.toList)).bind _ =
        ((whole selfToken (trim raw.toList)).map fun key => (logical, key)).bind _
      cases whole selfToken (trim raw.toList) <;> rfl
  | some r =>
      -- a text that is one kind of token is not the other
      have hself : whole (matchBraces (readEnvKey (some 64))) (trim raw.toList) = none := by
        obtain ⟨lead, hmem, hlead⟩ :=
          leads_of_whole (reads_component (reads_envKey none)) (by decide) (of_whole hcross)
        obtain rfl : lead = 'c' := by simpa using hmem
        have hunread := unread_of_leads (reads_envKey (some 64)) (by decide) hlead (by decide) []
        rw [List.append_nil] at hunread
        simp [whole, hunread]
      rw [hself]
      change (secretOf raws r.1 r.2).orElse (fun _ => none) = secretOf raws r.1 r.2
      cases secretOf raws r.1 r.2 <;> rfl

/-- The three ways in which a variable is placed. -/
theorem placeEnv_spec {logical : String} {e : CatalogEnvVar} {p : AppSecretPlan ⊕ AppEnvPlain}
    (h : placeEnv app logical raws e = .ok p) : ∃ own, secretName app logical e.name = .ok own ∧
      ((∃ s, e.ownSecret own = some s ∧ p = .inl s) ∨
        e.ownSecret own = none ∧
          ((∃ shared, ((wholeRef logical e.raw).bind fun v => secretOf raws v.1 v.2) = some shared ∧
              p = .inl ⟨shared.name, e.name, none, none⟩) ∨
            ((wholeRef logical e.raw).bind fun v => secretOf raws v.1 v.2) = none ∧
              ∃ v, resolveString app logical e.raw raws = .ok v ∧
                p = if e.secret then .inl ⟨own, e.name, none, some v⟩ else .inr ⟨e.name, v⟩)) := by
  obtain ⟨own, hname, h⟩ := except_bind_eq_ok.mp h
  refine ⟨own, hname, ?_⟩
  cases hown : e.ownSecret own with
  | some s =>
      rw [hown] at h
      cases h
      exact .inl ⟨s, rfl, rfl⟩
  | none =>
      rw [hown] at h
      dsimp only at h
      rw [wholeSecret_eq] at h
      refine .inr ⟨rfl, ?_⟩
      cases hshared : (wholeRef logical e.raw).bind fun v => secretOf raws v.1 v.2 with
      | some shared =>
          rw [hshared] at h
          cases h
          exact .inl ⟨shared, rfl, rfl⟩
      | none =>
          rw [hshared] at h
          obtain ⟨v, hv, h⟩ := except_bind_eq_ok.mp h
          cases h
          exact .inr ⟨rfl, v, hv, rfl⟩

theorem ownSecret_target {e : CatalogEnvVar} {name : String} {s : AppSecretPlan}
    (h : e.ownSecret name = some s) : s.target = e.name := by
  revert h
  unfold CatalogEnvVar.ownSecret
  split
  · rintro ⟨⟩
    rfl
  · rintro ⟨⟩
    rfl
  · split
    · rintro ⟨⟩
      rfl
    · rintro ⟨⟩
  · rintro ⟨⟩

theorem ownSecret_none_iff {e : CatalogEnvVar} {name : String} :
    e.ownSecret name = none ↔ ∀ name, e.ownSecret name = none := by
  refine ⟨fun h name' => ?_, fun h => h name⟩
  revert h
  unfold CatalogEnvVar.ownSecret
  split <;> simp

/-- A variable is placed under its own name. -/
theorem placeEnv_name {logical : String} {e : CatalogEnvVar} {p : AppSecretPlan ⊕ AppEnvPlain}
    (h : placeEnv app logical raws e = .ok p) :
    p.elim AppSecretPlan.target AppEnvPlain.name = e.name := by
  obtain ⟨own, -, ⟨s, hs, rfl⟩ | ⟨-, ⟨shared, -, rfl⟩ | ⟨-, v, -, rfl⟩⟩⟩ := placeEnv_spec h
  · exact ownSecret_target hs
  · rfl
  · split <;> rfl

/-- What a component of the plan is made of. -/
theorem resolveComponent_placed {r : RawComponent} {c : AppComponentPlan}
    (h : resolveComponent app raws r = .ok c) : c.name = r.logical ∧
      (∃ placed, List.Forall₂ (fun e p => placeEnv app r.logical raws e = .ok p) r.src.env placed ∧
        c.env = placed.filterMap Sum.getRight? ∧ c.secrets = placed.filterMap Sum.getLeft?) ∧
      ∀ text ∈ r.texts raws, ∃ v, resolveString app r.logical text raws = .ok v := by
  obtain ⟨placed, hplaced, h⟩ := except_bind_eq_ok.mp h
  obtain ⟨volumes, -, h⟩ := except_bind_eq_ok.mp h
  obtain ⟨health, hhealth, h⟩ := except_bind_eq_ok.mp h
  cases h
  refine ⟨rfl, ⟨placed, except_mapM_eq_ok.mp hplaced, rfl, rfl⟩, fun text htext => ?_⟩
  rcases List.mem_append.mp htext with henv | hcommand
  · obtain ⟨e, he, rfl⟩ := List.mem_map.mp henv
    obtain ⟨he, hcond⟩ := List.mem_filter.mp he
    simp only [Bool.and_eq_true, Option.isNone_iff_eq_none] at hcond
    obtain ⟨p, -, hp⟩ := exists_of_mem_source hplaced he
    obtain ⟨own, -, ⟨s, hs, -⟩ | ⟨-, ⟨shared, hshared, -⟩ | ⟨-, v, hv, -⟩⟩⟩ := placeEnv_spec hp
    · rw [ownSecret_none_iff.mp hcond.1 own] at hs
      cases hs
    · rw [hcond.2] at hshared
      cases hshared
    · exact ⟨v, hv⟩
  · cases hh : r.src.health with
    | none =>
        rw [hh] at hcommand
        cases hcommand
    | some plan =>
        rw [hh] at hcommand hhealth
        change text ∈ plan.command.getD [] at hcommand
        unfold resolveHealth at hhealth
        cases hc : plan.command with
        | none =>
            rw [hc] at hcommand
            cases hcommand
        | some command =>
            rw [hc] at hcommand
            simp only [hc] at hhealth
            obtain ⟨resolved, hresolved, -⟩ := except_bind_eq_ok.mp hhealth
            obtain ⟨v, -, hv⟩ := exists_of_mem_source hresolved hcommand
            exact ⟨v, hv⟩

theorem plainValue_of_last {r : RawComponent} {c : AppComponentPlan} {key : String}
    {e : CatalogEnvVar} (h : resolveComponent app raws r = .ok c)
    (he : r.src.env.reverse.find? (fun e => e.name == key) = some e) :
    ∃ p, placeEnv app r.logical raws e = .ok p ∧
      (∀ x, p = .inr x → c.plainValue key = some x.value) ∧
        ∀ s, p = .inl s → c.injected key = some s.name := by
  obtain ⟨-, ⟨placed, hplaced, henv, hsecrets⟩, -⟩ := resolveComponent_placed h
  have hreverse := List.forall₂_reverse_iff.mpr hplaced
  obtain ⟨p, hp, hright⟩ := find?_filterMap_of_forall₂ Sum.getRight? (fun x => x.name == key)
    hreverse (fun e p x hp hx => by
      obtain rfl := Sum.getRight?_eq_some_iff.mp hx
      rw [← placeEnv_name hp]
      rfl) he
  obtain ⟨p', hp', hleft⟩ := find?_filterMap_of_forall₂ Sum.getLeft? (fun s => s.target == key)
    hreverse (fun e p s hp hs => by
      obtain rfl := Sum.getLeft?_eq_some_iff.mp hs
      rw [← placeEnv_name hp]
      rfl) he
  obtain rfl : p = p' := Except.ok.inj (hp.symm.trans hp')
  refine ⟨p, hp, fun x hx => ?_, fun s hs => ?_⟩
  · subst hx
    rw [AppComponentPlan.plainValue, henv, ← List.filterMap_reverse, hright x rfl]
    rfl
  · subst hs
    rw [AppComponentPlan.injected, hsecrets, ← List.filterMap_reverse, hleft s rfl]
    rfl

/-- The plan has the components of the manifest. -/
def Resolves (app : String) (sources : List (String × CatalogComponent)) (raws : List RawComponent)
    (plan : AppPlan) : Prop :=
  List.Forall₂ (fun s r => rawComponent app s.1 s.2 = .ok r) sources raws ∧
    List.Forall₂ (fun r c => resolveComponent app raws r = .ok c) raws plan.components

theorem resolves_buildPlan
    (hraws : sources.mapM (fun s => rawComponent app s.1 s.2) = .ok raws)
    (h : buildPlan app sources = .ok plan) : Resolves app sources raws plan := by
  obtain ⟨raws', hraws', h⟩ := except_bind_eq_ok.mp h
  obtain rfl : raws = raws' := Except.ok.inj (hraws.symm.trans hraws')
  obtain ⟨components, hcomponents, h⟩ := except_bind_eq_ok.mp h
  obtain ⟨primary, -, h⟩ := except_bind_eq_ok.mp h
  cases h
  exact ⟨except_mapM_eq_ok.mp hraws, except_mapM_eq_ok.mp hcomponents⟩

/-- The plan of a catalog manifest is built under its own name. -/
theorem buildPlan_of_normalize {appId : String} {spec : CatalogSpec} {installName : Option String}
    (h : normalizeManifest appId spec installName = .ok plan) :
    buildPlan plan.name spec.sources = .ok plan := by
  obtain ⟨name, -, hplan⟩ := except_bind_eq_ok.mp h
  obtain rfl : plan.name = name := by
    obtain ⟨raws, -, hrest⟩ := except_bind_eq_ok.mp hplan
    obtain ⟨components, -, hrest⟩ := except_bind_eq_ok.mp hrest
    obtain ⟨primary, -, hrest⟩ := except_bind_eq_ok.mp hrest
    cases hrest
    rfl
  exact hplan

variable {comp key t v : String} {target : RawComponent}

theorem Resolves.component_eq (h : Resolves app sources raws plan)
    (htarget : byLogical raws comp = some target) : target.logical = comp ∧
      (∃ src, rawComponent app comp src = .ok target) ∧
        ∃ c, plan.component comp = some c ∧ resolveComponent app raws target = .ok c := by
  have hlogical : target.logical = comp := by simpa using List.find?_some htarget
  have hmem := List.mem_reverse.mp (List.mem_of_find?_eq_some htarget)
  refine ⟨hlogical, ?_, ?_⟩
  · obtain ⟨s, -, hs⟩ := exists_of_mem_mapM (except_mapM_eq_ok.mpr h.1) hmem
    have hname := (rawComponent_spec hs).1
    rw [hlogical] at hname
    exact ⟨s.2, hname ▸ hs⟩
  · exact find?_of_forall₂ (List.forall₂_reverse_iff.mpr h.2)
      (fun r c hr => by rw [(resolveComponent_placed hr).1]) htarget

/-- A variable that is indexed as plain is received, all that it refers to in its own component
replaced. -/
theorem Resolves.receives (h : Resolves app sources raws plan)
    (htarget : byLogical raws comp = some target) (hget : target.index.get? key = some (.plain t))
    (hcross : NoCross t.toList)
    (hself : ∀ k ∈ found selfToken t.toList, ∃ w, refValue raws comp (some k) = .ok w) :
    ∃ v, plan.plainValue comp key = some v ∧ resolveSelf raws comp t.toList = .ok v.toList := by
  obtain ⟨rfl, ⟨src, hsrc⟩, c, hc, hresolve⟩ := h.component_eq htarget
  obtain ⟨e, he, hindex⟩ := index_spec hsrc hget
  obtain ⟨hown, hsecret, rfl⟩ := indexEnv_plain hindex
  obtain ⟨p, hp, hplain, -⟩ := plainValue_of_last hresolve he
  obtain ⟨v, rfl, -, hv⟩ := placeEnv_plain hp hown hsecret hcross hself
  refine ⟨v, ?_, hv⟩
  rw [AppPlan.plainValue, hc]
  exact hplain _ rfl

/-- What a component receives as plain text is resolved. -/
theorem Resolves.resolved (h : Resolves app sources raws plan)
    (hv : plan.plainValue comp key = some v) : Resolved v.toList := by
  obtain ⟨c, hc, hplain⟩ := Option.bind_eq_some_iff.mp hv
  obtain ⟨x, hx, rfl⟩ := Option.map_eq_some_iff.mp hplain
  have hc := List.mem_reverse.mp (List.mem_of_find?_eq_some hc)
  have hx := List.mem_reverse.mp (List.mem_of_find?_eq_some hx)
  obtain ⟨r, -, hr⟩ := exists_of_mem_mapM (except_mapM_eq_ok.mpr h.2) hc
  obtain ⟨-, ⟨placed, hplaced, henv, -⟩, -⟩ := resolveComponent_placed hr
  rw [henv] at hx
  obtain ⟨p, hp, hright⟩ := List.mem_filterMap.mp hx
  obtain rfl := Sum.getRight?_eq_some_iff.mp hright
  obtain ⟨e, -, he⟩ := exists_of_mem_mapM (except_mapM_eq_ok.mpr hplaced) hp
  obtain ⟨own, -, ⟨s, -, hs⟩ | ⟨-, ⟨shared, -, hs⟩ | ⟨-, w, hw, hs⟩⟩⟩ := placeEnv_spec he
  · cases hs
  · cases hs
  · split at hs
    · cases hs
    · cases hs
      exact (resolveString_spec hw).2.2

/-- The text that replaces a reference to a component has no reference to a component. -/
theorem noCross_of_crossRef {r : RawComponent} {text out : String}
    (h : resolveString app r.logical text raws = .ok out)
    (hmem : (comp, some key) ∈ crossRefs app text) (ht : refValue raws comp (some key) = .ok t) :
    NoCross t.toList ∧
      ∀ k ∈ found selfToken t.toList, ∃ w, refValue raws r.logical (some k) = .ok w := by
  obtain ⟨-, hself, hleft⟩ := resolveString_spec h
  have hin : t.toList <:+: crossed app raws text := by
    have hvalue : textOf (refValue raws comp (some key)) = t.toList := by
      rw [ht]
      rfl
    have hfound : (comp, some key) ∈ found crossToken (replaceAppId app text).toList := hmem
    have hinfix := infix_of_mem_found (f := fun r => textOf (refValue raws r.1 r.2)) hfound
    rwa [hvalue] at hinfix
  refine ⟨fun x hx hxt => ?_, fun k hk => ?_⟩
  · exact hleft.no_token hx (by decide) (hx.kept_resolveSelf (by decide) (hxt.trans hin) hself)
  · have hoccurs := (selfToken_bracketed.mem_found_iff.mp hk).mono hin
    exact (resolveSelf_eq_ok.mp hself).1 k (selfToken_bracketed.mem_found_iff.mpr hoccurs)

/-- Resolved text has no reference to a variable of the same component. -/
theorem Resolved.found_nil {text part : List Char} (h : Resolved text) (hpart : part <:+: text) :
    found selfToken part = [] := by
  by_contra hne
  obtain ⟨k, hk⟩ := List.exists_mem_of_ne_nil _ hne
  obtain ⟨x, hin, hx⟩ := selfToken_bracketed.mem_found_iff.mp hk
  obtain ⟨lead, hmem, hlead⟩ := leads_of_whole (reads_envKey _) (by decide) hx
  obtain rfl : lead = 'e' := by simpa using hmem
  exact h.no_token hlead (by decide) (hin.trans hpart)

theorem resolveSelf_of_found_nil {logical : String} {text : List Char}
    (h : found selfToken text = []) : resolveSelf raws logical text = .ok text := by
  rw [resolveSelf_eq_ok, substitute_of_found_nil h, h]
  exact ⟨by simp, rfl⟩

theorem Resolves.resolve_text (h : Resolves app sources raws plan) {r : RawComponent}
    (hr : r ∈ raws) {text : String} (htext : text ∈ r.texts raws) :
    ∃ out, resolveString app r.logical text raws = .ok out := by
  obtain ⟨c, -, hc⟩ := exists_of_mem_source (except_mapM_eq_ok.mpr h.2) hr
  exact (resolveComponent_placed hc).2.2 text htext

theorem Resolves.place (h : Resolves app sources raws plan) {r : RawComponent} (hr : r ∈ raws)
    {e : CatalogEnvVar} (he : e ∈ r.src.env) : ∃ p, placeEnv app r.logical raws e = .ok p := by
  obtain ⟨c, -, hc⟩ := exists_of_mem_source (except_mapM_eq_ok.mpr h.2) hr
  obtain ⟨-, ⟨placed, hplaced, -⟩, -⟩ := resolveComponent_placed hc
  obtain ⟨p, -, hp⟩ := exists_of_mem_source (except_mapM_eq_ok.mpr hplaced) he
  exact ⟨p, hp⟩

/-- A whole reference to a secret is injected that secret. -/
theorem placeEnv_whole {logical : String} {e : CatalogEnvVar} {p : AppSecretPlan ⊕ AppEnvPlain}
    {s : AppSecretPlan} (hp : placeEnv app logical raws e = .ok p)
    (hown : ∀ name, e.ownSecret name = none) (hwhole : wholeRef logical e.raw = some (comp, key))
    (hs : secretOf raws comp key = some s) : p = .inl ⟨s.name, e.name, none, none⟩ := by
  have hbind : ((wholeRef logical e.raw).bind fun v => secretOf raws v.1 v.2) = some s := by
    rw [hwhole]
    exact hs
  obtain ⟨own, -, ⟨s', hs', -⟩ | ⟨-, ⟨shared, hshared, rfl⟩ | ⟨hnone, -⟩⟩⟩ := placeEnv_spec hp
  · rw [hown own] at hs'
    cases hs'
  · obtain rfl := Option.some.inj (hbind.symm.trans hshared)
    rfl
  · rw [hbind] at hnone
    cases hnone

theorem Faithful.notHandedOn (h : Resolves app sources raws plan) (hf : Faithful app raws plan) :
    NotHandedOn app raws where
  plain r hr text htext comp key hmem hne target htarget value hget := by
    obtain ⟨t, v, ht, hv, -, htv⟩ := hf.cross r hr text htext comp key hmem
    obtain rfl := htv hne
    obtain ⟨target', htarget', hget'⟩ := refValue_eq_ok.mp ht
    obtain rfl := Option.some.inj (htarget.symm.trans htarget')
    cases hget.symm.trans hget'
    exact (h.resolved hv).found_nil List.infix_rfl
  secret r hr e he hown comp key hwhole s hs target htarget e' he' hown' v hv shared hshared := by
    obtain ⟨p, hp, -, hinjected⟩ := hf.secret r hr e he hown comp key hwhole s hs
    cases placeEnv_whole hp hown hwhole hs
    obtain ⟨rfl, -, c, hc, hresolve⟩ := h.component_eq htarget
    obtain ⟨p', hp', -, hinject⟩ := plainValue_of_last hresolve he'
    obtain rfl := placeEnv_whole hp' hown' hv hshared
    rw [AppPlan.injected, hc] at hinjected
    exact Option.some.inj ((hinject _ rfl).symm.trans hinjected)

theorem NotHandedOn.faithful (h : Resolves app sources raws plan) (hn : NotHandedOn app raws) :
    Faithful app raws plan where
  cross r hr text htext comp key hmem := by
    obtain ⟨out, hout⟩ := h.resolve_text hr htext
    obtain ⟨t, ht⟩ := (resolveString_spec hout).1 _ hmem
    obtain ⟨target, htarget, hget⟩ := refValue_eq_ok.mp ht
    obtain ⟨hcross, hself⟩ := noCross_of_crossRef hout hmem ht
    by_cases hcomp : comp = r.logical
    · subst hcomp
      obtain ⟨v, hv, hresolve⟩ := h.receives htarget hget hcross hself
      exact ⟨t, v, ht, hv, hresolve, fun hne => absurd rfl hne⟩
    · have hnil := hn.plain r hr text htext comp key hmem hcomp target htarget t hget
      obtain ⟨v, hv, hresolve⟩ := h.receives htarget hget hcross (by simp [hnil])
      rw [resolveSelf_of_found_nil hnil] at hresolve
      obtain rfl : t = v := String.toList_inj.mp (Except.ok.inj hresolve)
      exact ⟨t, t, ht, hv, resolveSelf_of_found_nil hnil, fun _ => rfl⟩
  self r hr text htext key hmem := by
    obtain ⟨out, hout⟩ := h.resolve_text hr htext
    obtain ⟨-, hself, hleft⟩ := resolveString_spec hout
    obtain ⟨hvalues, htext⟩ := resolveSelf_eq_ok.mp hself
    obtain ⟨v, hv⟩ := hvalues key hmem
    have hin : v.toList <:+: out.toList := by
      have hvalue : textOf (refValue raws r.logical (some key)) = v.toList := by
        rw [hv]
        rfl
      have hfound : key ∈ found selfToken (crossed app raws text) := hmem
      have hinfix := infix_of_mem_found
        (f := fun k => textOf (refValue raws r.logical (some k))) hfound
      rwa [hvalue, ← htext] at hinfix
    have hcross : NoCross v.toList := fun x hx hxv => hleft.no_token hx (by decide) (hxv.trans hin)
    have hnil : found selfToken v.toList = [] := hleft.found_nil hin
    obtain ⟨target, htarget, hget⟩ := refValue_eq_ok.mp hv
    obtain ⟨w, hw, hresolve⟩ := h.receives htarget hget hcross (by simp [hnil])
    rw [resolveSelf_of_found_nil hnil] at hresolve
    obtain rfl : v = w := String.toList_inj.mp (Except.ok.inj hresolve)
    exact ⟨v, hv, hw⟩
  secret r hr e he hown comp key hwhole s hs := by
    obtain ⟨p, hp⟩ := h.place hr he
    obtain rfl := placeEnv_whole hp hown hwhole hs
    refine ⟨_, hp, rfl, ?_⟩
    obtain ⟨target, htarget, hget⟩ := secretOf_eq_some hs
    obtain ⟨rfl, ⟨src, hsrc⟩, c, hc, hresolve⟩ := h.component_eq htarget
    obtain ⟨e', he', hindex⟩ := index_spec hsrc hget
    obtain ⟨p', hp', -, hinject⟩ := plainValue_of_last hresolve he'
    obtain ⟨s', rfl, hname⟩ : ∃ s', p' = .inl s' ∧ s'.name = s.name := by
      obtain ⟨own, hown', hkind⟩ := placeEnv_spec hp'
      have hsname : own = s.name := Except.ok.inj (hown'.symm.trans (indexEnv_secret hindex))
      rcases hkind with ⟨s', hs', rfl⟩ | ⟨hnone, ⟨shared, hshared, rfl⟩ | ⟨-, w, -, rfl⟩⟩
      · exact ⟨s', rfl, (name_of_ownSecret hs').trans hsname⟩
      · obtain ⟨v, hv, hshared⟩ := Option.bind_eq_some_iff.mp hshared
        exact ⟨_, rfl, hn.secret r hr e he hown _ key hwhole s hs target htarget e' he'
          (ownSecret_none_iff.mp hnone) v hv shared hshared⟩
      · rw [indexEnv_flag hindex (ownSecret_none_iff.mp hnone)]
        exact ⟨_, rfl, hsname⟩
    rw [AppPlan.injected, hc]
    exact (hinject _ rfl).trans (congrArg some hname)

end Accepted

/-! ## Manifests -/

/-- The text of a variable of an application manifest, when it is taken as it is written. -/
def ApplicationEnvEntry.text (entry : ApplicationEnvEntry) : Option String :=
  if entry.buildOnly then none
  else
    match entry.valueFrom with
    | none => entry.value
    | some vf =>
        if vf.generate.isSome || vf.secretRef then none
        else
          match vf.userInput with
          | none => entry.value
          | some ui =>
              if ui.sensitive then none else some ((ui.default.orElse fun _ => entry.value).getD "")

/-- A text without references to variables. -/
def NoReference (text : String) : Prop :=
  (∀ comp key, (comp, some key) ∉ found crossToken text.toList) ∧ found selfToken text.toList = []

/-- Each reference of an accepted manifest stands for what the component that it names receives. An
application manifest has one component; of its texts, none is left with a reference. -/
def AppSource.Faithful (plan : AppPlan) : AppSource → Prop
  | catalog _ spec _ => ∀ raws,
      spec.sources.mapM (fun s => rawComponent plan.name s.1 s.2) = .ok raws →
        Apps.Faithful plan.name raws plan
  | application .. => ∀ c ∈ plan.components,
      (∀ e ∈ c.env, NoReference e.value) ∧ ∀ s ∈ c.secrets, ∀ v, s.value = some v → NoReference v

/-- No reference goes to a variable whose own value goes on elsewhere, and an application manifest
has no reference. -/
def AppSource.NotHandedOn (name : String) : AppSource → Prop
  | catalog _ spec _ => ∀ raws, spec.sources.mapM (fun s => rawComponent name s.1 s.2) = .ok raws →
      Apps.NotHandedOn name raws
  | application _ deploy .. => ∀ entry ∈ deploy.env, ∀ v, entry.text = some v → NoReference v

theorem noReference_empty : NoReference "" := ⟨fun _ _ h => (by cases h), rfl⟩

/-- The text that a variable is placed with. -/
def placedText : AppSecretPlan ⊕ AppEnvPlain → Option String
  | .inl s => s.value
  | .inr e => some e.value

section ApplicationText

variable {app name : String} {entry : ApplicationEnvEntry}

/-- The text of an entry whose origin places nothing. -/
theorem text_of_unplaced (hbuild : entry.buildOnly = false)
    (h : entry.valueFrom.bind (placeValueFrom name entry) = none) : entry.text = entry.value := by
  unfold ApplicationEnvEntry.text
  rw [hbuild]
  cases hvf : entry.valueFrom with
  | none => rfl
  | some vf =>
      rw [hvf] at h
      change placeValueFrom name entry vf = none at h
      unfold placeValueFrom at h
      cases hgen : vf.generate with
      | some g =>
          rw [hgen] at h
          cases h
      | none =>
          rw [hgen] at h
          cases href : vf.secretRef with
          | true =>
              rw [href] at h
              cases h
          | false =>
              rw [href] at h
              have hui : vf.userInput = none := by simpa using h
              simp [hgen, href, hui]

/-- The text of an entry that is placed by its origin. -/
theorem text_of_placed (hbuild : entry.buildOnly = false) {p : AppSecretPlan ⊕ AppEnvPlain}
    (h : entry.valueFrom.bind (placeValueFrom name entry) = some p) (v : String) :
    (entry.text = some v → placedText p = some v) ∧
      (placedText p = some v → entry.text = some v ∨ v = "") := by
  unfold ApplicationEnvEntry.text
  rw [hbuild]
  obtain ⟨vf, hvf, hplace⟩ := Option.bind_eq_some_iff.mp h
  rw [hvf]
  unfold placeValueFrom at hplace
  cases hgen : vf.generate with
  | some g =>
      rw [hgen] at hplace
      cases hplace
      simp [hgen, placedText]
  | none =>
      rw [hgen] at hplace
      cases href : vf.secretRef with
      | true =>
          rw [href] at hplace
          cases hplace
          simp [hgen, href, placedText, eq_comm]
      | false =>
          rw [href] at hplace
          obtain ⟨ui, hui, rfl⟩ := Option.map_eq_some_iff.mp hplace
          cases hs : ui.sensitive with
          | true => simp [hgen, href, hui, hs, userInputEnv, placedText, eq_comm]
          | false =>
              simp only [hgen, href, hui, hs, userInputEnv, placedText]
              exact ⟨id, .inl⟩

/-- The text of an entry is placed as it is, and no other text is. -/
theorem placeApplicationEnv_text {r : Option (AppSecretPlan ⊕ AppEnvPlain) × List String}
    (h : placeApplicationEnv app entry = .ok r) :
    (∀ v, entry.text = some v → ∃ p, r.1 = some p ∧ placedText p = some v) ∧
      ∀ p, r.1 = some p → ∀ v, placedText p = some v → entry.text = some v ∨ v = "" := by
  obtain ⟨name, -, h⟩ := except_bind_eq_ok.mp h
  dsimp only at h
  split at h
  · next hbuild =>
      cases h
      simp [ApplicationEnvEntry.text, hbuild]
  · next hbuild =>
      rw [Bool.not_eq_true] at hbuild
      split at h
      · cases h
      · cases hplaced : entry.valueFrom.bind (placeValueFrom name entry) with
        | some p =>
            rw [hplaced] at h
            cases h
            refine ⟨fun v hv => ⟨p, rfl, (text_of_placed hbuild hplaced v).1 hv⟩, ?_⟩
            rintro p' ⟨⟩ v hv
            exact (text_of_placed hbuild hplaced v).2 hv
        | none =>
            rw [hplaced] at h
            rw [text_of_unplaced hbuild hplaced]
            dsimp only at h
            split at h
            · cases h
              cases entry.value <;> simp [placedText, eq_comm]
            · cases hv : entry.value with
              | none =>
                  rw [hv] at h
                  cases h
                  simp
              | some value =>
                  rw [hv] at h
                  cases h
                  simp [placedText]

end ApplicationText

/-- The references of an accepted manifest stand for what the components receive, if and only if
none of them goes to a variable whose own value goes on elsewhere. -/
theorem references_faithful_iff {source : AppSource} {plan : AppPlan}
    (h : source.normalize = .ok plan) :
    source.Faithful plan ↔ source.NotHandedOn plan.name := by
  cases source with
  | catalog appId spec installName =>
      have hplan := buildPlan_of_normalize h
      constructor
      · intro hf raws hraws
        exact (hf raws hraws).notHandedOn (resolves_buildPlan hraws hplan)
      · intro hn raws hraws
        exact (hn raws hraws).faithful (resolves_buildPlan hraws hplan)
  | application appId deploy image installName limits blocks =>
      obtain ⟨name, -, h⟩ := except_bind_eq_ok.mp h
      split at h
      · cases h
      · obtain ⟨placed, hplaced, h⟩ := except_bind_eq_ok.mp h
        obtain ⟨volumes, -, h⟩ := except_bind_eq_ok.mp h
        cases h
        constructor
        · intro hf entry hentry v hv
          obtain ⟨henv, hsecrets⟩ := hf _ (List.mem_singleton_self _)
          obtain ⟨r, hr, hplace⟩ := exists_of_mem_source hplaced hentry
          obtain ⟨p, hp, hv⟩ := (placeApplicationEnv_text hplace).1 v hv
          have hmem : p ∈ placed.filterMap Prod.fst := List.mem_filterMap.mpr ⟨r, hr, hp⟩
          cases p with
          | inl s => exact hsecrets s (List.mem_filterMap.mpr ⟨.inl s, hmem, rfl⟩) v hv
          | inr e =>
              cases hv
              exact henv e (List.mem_filterMap.mpr ⟨.inr e, hmem, rfl⟩)
        · intro hn c hc
          obtain rfl := List.mem_singleton.mp hc
          have htext {p : AppSecretPlan ⊕ AppEnvPlain} (hp : p ∈ placed.filterMap Prod.fst)
              (v : String) (hv : placedText p = some v) : NoReference v := by
            obtain ⟨r, hr, hfst⟩ := List.mem_filterMap.mp hp
            obtain ⟨entry, hentry, hplace⟩ := exists_of_mem_mapM hplaced hr
            rcases (placeApplicationEnv_text hplace).2 p hfst v hv with hv | rfl
            · exact hn entry hentry v hv
            · exact noReference_empty
          refine ⟨fun e he => ?_, fun s hs v hv => ?_⟩
          · obtain ⟨p, hp, hright⟩ := List.mem_filterMap.mp he
            obtain rfl := Sum.getRight?_eq_some_iff.mp hright
            exact htext hp e.value rfl
          · obtain ⟨p, hp, hleft⟩ := List.mem_filterMap.mp hs
            obtain rfl := Sum.getLeft?_eq_some_iff.mp hleft
            exact htext hp v hv

/-! ## A forum and its database -/

/-- A component with plain variables. -/
def plainComponent (env : List (String × String)) : CatalogComponent :=
  ⟨env.map fun e => ⟨e.1, some e.2, false, none⟩, [], "forum:1", [], none, none, none, [], none⟩

/-- A forum whose address is made of its host. -/
def forumSource : AppSource :=
  .catalog "forum" (.standalone (plainComponent
    [("HOST", "forum.example.com"),
      ("URL", "https://\x7b\x7benv.HOST\x7d\x7d/\x7b\x7bapp.id\x7d\x7d")])) none

/-- The database's name is made of its own region; the forum, in another one, refers to it. -/
def regionsSpec : CatalogSpec :=
  .composed []
    [⟨"db", none, plainComponent [("REGION", "one"), ("NAME", "\x7b\x7benv.REGION\x7d\x7d-db")]⟩,
      ⟨"web", none, plainComponent
        [("REGION", "two"), ("DB", "\x7b\x7bcomponents.db.env.NAME\x7d\x7d")]⟩]

theorem forum_faithful : ∃ plan, forumSource.normalize = .ok plan ∧
    plan.plainValue "app" "URL" = some "https://forum.example.com/forum" ∧
      forumSource.Faithful plan := by
  obtain ⟨plan, hplan, hurl⟩ : ∃ plan, forumSource.normalize = .ok plan ∧
      plan.plainValue "app" "URL" = some "https://forum.example.com/forum" :=
    exists_of_map (by decide +kernel)
  refine ⟨plan, hplan, hurl, (references_faithful_iff hplan).mpr fun raws hraws => ?_⟩
  -- the one component refers to no other, and no variable refers to a secret
  have hone : ∀ r ∈ raws, r.logical = "app" ∧ ∀ e ∈ r.src.env, wholeRef "app" e.raw = none := by
    intro r hr
    obtain ⟨s, hs, hsrc⟩ := exists_of_mem_mapM hraws hr
    obtain rfl := List.mem_singleton.mp hs
    obtain ⟨hlogical, -, hsource, -⟩ := rawComponent_spec hsrc
    rw [hlogical, hsource]
    exact ⟨rfl, by decide +kernel⟩
  constructor
  · intro r hr text _ comp key _ hne target htarget
    have hlogical : target.logical = comp := by simpa using List.find?_some htarget
    have hmem := List.mem_reverse.mp (List.mem_of_find?_eq_some htarget)
    exact absurd (hlogical.symm.trans ((hone _ hmem).1.trans (hone r hr).1.symm)) hne
  · intro r hr e he _ comp key hwhole
    rw [(hone r hr).1, (hone r hr).2 e he] at hwhole
    cases hwhole

/-- The forum is given the name of a database in its own region, which no database has. -/
theorem forum_regions : ∃ plan, (AppSource.catalog "forum" regionsSpec none).normalize = .ok plan ∧
    plan.plainValue "db" "NAME" = some "one-db" ∧ plan.plainValue "web" "DB" = some "two-db" ∧
      ¬(AppSource.catalog "forum" regionsSpec none).Faithful plan := by
  obtain ⟨plan, hplan, hvalues⟩ : ∃ plan,
      (AppSource.catalog "forum" regionsSpec none).normalize = .ok plan ∧
      (plan.name, plan.plainValue "db" "NAME", plan.plainValue "web" "DB") =
        ("forum", some "one-db", some "two-db") := exists_of_map (by decide +kernel)
  simp only [Prod.mk.injEq] at hvalues
  obtain ⟨hname, hdb, hweb⟩ := hvalues
  refine ⟨plan, hplan, hdb, hweb, fun hf => ?_⟩
  obtain ⟨raws, hraws, hfacts⟩ : ∃ raws, (regionsSpec.sources.mapM fun s =>
      rawComponent "forum" s.1 s.2) = .ok raws ∧
        (raws.map fun r => (r.logical, r.texts raws), (refValue raws "db" (some "NAME")).toOption) =
          ([("db", ["one", "\x7b\x7benv.REGION\x7d\x7d-db"]),
            ("web", ["two", "\x7b\x7bcomponents.db.env.NAME\x7d\x7d"])],
              some "\x7b\x7benv.REGION\x7d\x7d-db") := exists_of_map (by decide +kernel)
  obtain ⟨htexts, hvalue⟩ := Prod.mk.inj hfacts
  obtain ⟨r, hr, hweb⟩ : ∃ r ∈ raws, (r.logical, r.texts raws) =
      ("web", ["two", "\x7b\x7bcomponents.db.env.NAME\x7d\x7d"]) :=
    List.mem_map.mp (htexts ▸ by simp)
  obtain ⟨hlogical, hr'⟩ := Prod.mk.inj hweb
  rw [← hname] at hraws
  obtain ⟨t, v, ht, hv, -, htv⟩ := (hf raws hraws).cross r hr
    "\x7b\x7bcomponents.db.env.NAME\x7d\x7d" (by simp [hr']) "db" "NAME" (by rw [hname]; decide +kernel)
  obtain rfl := htv (by rw [hlogical]; decide)
  rw [ht] at hvalue
  exact absurd ((hdb.symm.trans hv).trans hvalue) (by decide)

end Vops.Apps
