import Vops.Apps.NameThms
import Vops.AgentControl.RedactionThms
import Vops.Lib.Tokens

/-!
# The tokens of a manifest's texts

* `Reads` — the expressions between the braces; `matchBraces_bracketed`, what a token of them is.
* `crossToken`, `selfToken`, `wordToken` — the tokens of the replacements and the deferred ones.
* `replaceAppId_eq`, `replaceDeferred_eq`, `replaceAllM_eq_ok` — the replacements as substitutions.
* `slash_notMem_selfToken` — a character that no token has.
-/

namespace Vops.Apps

open Async (except_bind_eq_ok)

/-! ## The tokens -/

/-- An expression begins with one of the characters, and is read alike in front of anything but a
letter or digit. -/
def Reads {β : Type} (leads : List Char) (inner : List Char → Option (ℕ × β)) : Prop :=
  ∀ s n b, inner s = some (n, b) → ∃ w tail, s = w ++ tail ∧ n = w.length ∧
    (∃ lead ∈ leads, w.head? = some lead) ∧ '\x7b' ∉ w ∧
    ∀ tail', (∀ c, tail'.head? = some c → isWordChar c = false) →
      inner (w ++ tail') = some (w.length, b)

/-- Two braces, and `lead` is the first character behind them that is not a space. -/
def Leads (lead : Char) (x : List Char) : Prop :=
  ∃ y, x = '\x7b' :: '\x7b' :: y ∧ '\x7b' ∉ y ∧ (y.dropWhile isJsSpace).head? = some lead

theorem isBearerChar_of_isWordChar {c : Char} (h : isWordChar c = true) :
    isBearerChar c = true := by
  simp only [isWordChar, isBearerChar, Bool.or_eq_true] at h ⊢
  tauto

theorem isWordChar_of_space {c : Char} (h : isJsSpace c = true) : isWordChar c = false := by
  by_contra hword
  rw [isJsSpace_of_isBearerChar (isBearerChar_of_isWordChar (by simpa using hword))] at h
  cases h

/-- At most eight spaces, and what stands behind them. -/
theorem spaces_split (t : List Char) : ∃ sp t', t = sp ++ t' ∧ sp.length ≤ 8 ∧
    sp.all isJsSpace = true ∧ min 8 (t.takeWhile isJsSpace).length = sp.length := by
  refine ⟨(t.takeWhile isJsSpace).take 8, (t.takeWhile isJsSpace).drop 8 ++ t.dropWhile isJsSpace,
    ?_, ?_, ?_, ?_⟩
  · rw [← List.append_assoc, List.take_append_drop, List.takeWhile_append_dropWhile]
  · exact List.length_take_le 8 _
  · exact List.all_eq_true.mpr fun c hc => List.mem_takeWhile_imp (List.mem_of_mem_take hc)
  · rw [List.length_take]

theorem brace_notMem {p : Char → Bool} (hp : p '\x7b' = false) {w : List Char}
    (hw : w.all p = true) : '\x7b' ∉ w := by
  intro h
  rw [List.all_eq_true.mp hw _ h] at hp
  cases hp

theorem head_dropWhile_append {p : Char → Bool} {u v : List Char} {d : Char}
    (h : (u.dropWhile p).head? = some d) : ((u ++ v).dropWhile p).head? = some d := by
  rw [List.dropWhile_append]
  split
  · next hempty =>
      rw [List.isEmpty_iff.mp hempty] at h
      cases h
  · rw [List.head?_append, h]
    rfl

section Braces

variable {β : Type} {lead : Char} {leads : List Char} {inner : List Char → Option (ℕ × β)}
  {w sp sp' rest : List Char} {b : β}

/-- Behind the opening braces: spaces, the expression, spaces and the closing braces. -/
theorem matchBraces_open (t : List Char) : matchBraces inner ('\x7b' :: '\x7b' :: t) =
    (inner (t.drop (min 8 (t.takeWhile isJsSpace).length))).bind fun r =>
      let u := t.drop (min 8 (t.takeWhile isJsSpace).length + r.1)
      let behind := min 8 (u.takeWhile isJsSpace).length
      if ['\x7d', '\x7d'].isPrefixOf (u.drop behind) then
        some (2 + min 8 (t.takeWhile isJsSpace).length + r.1 + behind + 2, r.2)
      else none := by
  unfold matchBraces
  rw [if_pos (show "\x7b\x7b".toList.isPrefixOf ('\x7b' :: '\x7b' :: t) = true from rfl)]
  have hdrop (n : ℕ) : ('\x7b' :: '\x7b' :: t).drop (2 + n) = t.drop n := by
    rw [← List.drop_drop]
    rfl
  simp only [List.drop_succ_cons, List.drop_zero, Nat.add_assoc, hdrop]
  cases inner (t.drop (min 8 (t.takeWhile isJsSpace).length)) with
  | none => rfl
  | some r => rfl

/-- A token is read: the braces, at most eight spaces on either side, and the expression. -/
theorem matchBraces_token (hsp : sp.all isJsSpace = true) (hlen : sp.length ≤ 8)
    (hsp' : sp'.all isJsSpace = true) (hlen' : sp'.length ≤ 8) (hw : w.head? = some lead)
    (hlead : isJsSpace lead = false)
    (hinner : inner (w ++ (sp' ++ ('\x7d' :: '\x7d' :: rest))) = some (w.length, b)) :
    matchBraces inner ('\x7b' :: '\x7b' :: (sp ++ w ++ sp' ++ ['\x7d', '\x7d']) ++ rest) =
      some (('\x7b' :: '\x7b' :: (sp ++ w ++ sp' ++ ['\x7d', '\x7d'])).length, b) := by
  have hhead (c : Char) (hc : (w ++ (sp' ++ ('\x7d' :: '\x7d' :: rest))).head? = some c) :
      isJsSpace c = false := by
    rw [List.head?_append, hw] at hc
    cases hc
    exact hlead
  have hclose (c : Char) (hc : ('\x7d' :: '\x7d' :: rest).head? = some c) :
      isJsSpace c = false := by
    cases hc
    decide
  have htext : '\x7b' :: '\x7b' :: (sp ++ w ++ sp' ++ ['\x7d', '\x7d']) ++ rest =
      '\x7b' :: '\x7b' :: (sp ++ (w ++ (sp' ++ ('\x7d' :: '\x7d' :: rest)))) := by simp
  have hdrop : (sp ++ (w ++ (sp' ++ ('\x7d' :: '\x7d' :: rest)))).drop (sp.length + w.length) =
      sp' ++ ('\x7d' :: '\x7d' :: rest) := by
    rw [← List.drop_drop, List.drop_left, List.drop_left]
  rw [htext, matchBraces_open, (takeWhile_dropWhile_append hsp hhead).1, Nat.min_eq_right hlen,
    List.drop_left, hinner, Option.bind_some]
  dsimp only
  rw [hdrop, (takeWhile_dropWhile_append hsp' hclose).1, Nat.min_eq_right hlen', List.drop_left,
    if_pos (show ['\x7d', '\x7d'].isPrefixOf ('\x7d' :: '\x7d' :: rest) = true from rfl)]
  simp only [List.length_cons, List.length_append, List.length_nil, Option.some.injEq,
    Prod.mk.injEq, and_true]
  omega

/-- What is read is a token. -/
theorem matchBraces_spec (hinner : Reads leads inner) (hleads : ∀ c ∈ leads, isJsSpace c = false)
    {s : List Char} {n : ℕ} (h : matchBraces inner s = some (n, b)) :
    ∃ x rest, s = x ++ rest ∧ n = x.length ∧ (∃ lead ∈ leads, Leads lead x) ∧
      ∀ rest', matchBraces inner (x ++ rest') = some (x.length, b) := by
  obtain ⟨t, rfl⟩ : ∃ t, s = '\x7b' :: '\x7b' :: t := by
    unfold matchBraces at h
    split at h
    · next hpre =>
        obtain ⟨t, rfl⟩ := List.isPrefixOf_iff_prefix.mp hpre
        exact ⟨t, rfl⟩
    · cases h
  obtain ⟨sp, t, rfl, hlen, hsp, hbefore⟩ := spaces_split t
  rw [matchBraces_open, hbefore, List.drop_left] at h
  obtain ⟨⟨k, b'⟩, hread, hrest⟩ := Option.bind_eq_some_iff.mp h
  obtain ⟨w, tail, rfl, rfl, ⟨lead, hmem, hw⟩, hbrace, hagain⟩ := hinner _ _ _ hread
  dsimp only at hrest
  rw [← List.drop_drop, List.drop_left, List.drop_left] at hrest
  obtain ⟨sp', tail, rfl, hlen', hsp', hbehind⟩ := spaces_split tail
  rw [hbehind, List.drop_left] at hrest
  split at hrest
  · next hclose =>
      obtain ⟨rest, rfl⟩ := List.isPrefixOf_iff_prefix.mp hclose
      cases hrest
      have hhead (c : Char) (hc : (w ++ (sp' ++ ['\x7d', '\x7d'])).head? = some c) :
          isJsSpace c = false := by
        rw [List.head?_append, hw] at hc
        cases hc
        exact hleads lead hmem
      refine ⟨'\x7b' :: '\x7b' :: (sp ++ w ++ sp' ++ ['\x7d', '\x7d']), rest, by simp, ?_,
        ⟨lead, hmem, _, rfl, ?_, ?_⟩, fun rest' => ?_⟩
      · simp only [List.length_cons, List.length_append, List.length_nil]
        omega
      · have hspace : isJsSpace '\x7b' = false := by decide
        simp [brace_notMem hspace hsp, brace_notMem hspace hsp', hbrace]
      · rw [List.append_assoc, List.append_assoc, (takeWhile_dropWhile_append hsp hhead).2,
          List.head?_append, hw]
        rfl
      · refine matchBraces_token hsp hlen hsp' hlen' hw (hleads lead hmem) (hagain _ fun c hc => ?_)
        cases sp' with
        | nil =>
            cases hc
            decide
        | cons d sp' =>
            cases hc
            exact isWordChar_of_space (List.all_eq_true.mp hsp' _ List.mem_cons_self)
  · cases hrest

theorem matchBraces_bracketed (hinner : Reads leads inner)
    (hleads : ∀ c ∈ leads, isJsSpace c = false) : Bracketed '\x7b' (matchBraces inner) where
  shape h := by
    obtain ⟨x, rest, rfl, rfl, ⟨lead, -, y, rfl, hbrace, hhead⟩, hread⟩ :=
      matchBraces_spec hinner hleads h
    refine ⟨y, rest, rfl, rfl, ?_, hbrace, hread⟩
    rintro rfl
    cases hhead

/-- A token that begins in another way is not read. -/
theorem unread_of_leads (hinner : Reads leads inner) (hleads : ∀ c ∈ leads, isJsSpace c = false) 
    {x : List Char} (hx : Leads lead x) (hne : lead ∉ leads) : Unread (matchBraces inner) x := by
  intro rest
  by_contra hsome
  obtain ⟨⟨n, b⟩, hread⟩ := Option.ne_none_iff_exists'.mp hsome
  obtain ⟨x', rest', hsplit, -, ⟨lead', hmem, y', rfl, -, hhead'⟩, -⟩ :=
    matchBraces_spec hinner hleads hread
  obtain ⟨y, rfl, -, hhead⟩ := hx
  have heq : y ++ rest = y' ++ rest' := by simpa using hsplit
  have hfirst := head_dropWhile_append (v := rest) hhead
  rw [heq, head_dropWhile_append hhead'] at hfirst
  exact hne (Option.some.inj hfirst ▸ hmem)

/-- Such a token stays in the text. -/
theorem Leads.infix_substitute (hinner : Reads leads inner)
    (hleads : ∀ c ∈ leads, isJsSpace c = false) {x s : List Char} (hx : Leads lead x)
    (hne : lead ∉ leads) (hs : x <:+: s) (f : β → List Char) :
    x <:+: substitute (matchBraces inner) f s := by
  have hunread := unread_of_leads hinner hleads hx hne
  obtain ⟨y, rfl, hbrace, hhead⟩ := hx
  refine (matchBraces_bracketed hinner hleads).infix_substitute (fun hnil => ?_) hbrace hunread hs
  rw [hnil] at hhead
  cases hhead

/-- A whole text that is read is a token. -/
theorem leads_of_whole (hinner : Reads leads inner) (hleads : ∀ c ∈ leads, isJsSpace c = false)
    {x : List Char} (h : matchBraces inner x = some (x.length, b)) :
    ∃ lead ∈ leads, Leads lead x := by
  obtain ⟨x', rest, rfl, hlen, hlead, -⟩ := matchBraces_spec hinner hleads h
  obtain rfl : rest = [] := by simpa using hlen
  rwa [List.append_nil]

end Braces

/-! ## The expressions -/

/-- One of some words, in the order in which they are tried. -/
def readWord (words : List (List Char)) (text : List Char) : Option (ℕ × Unit) :=
  (words.find? fun word => word.isPrefixOf text).map fun word => (word.length, ())

theorem reads_word {leads : List Char} {words : List (List Char)}
    (hlead : ∀ w ∈ words, (∃ lead ∈ leads, w.head? = some lead) ∧ '\x7b' ∉ w)
    (hread : ∀ w ∈ words, ∀ tail, readWord words (w ++ tail) = some (w.length, ())) :
    Reads leads (readWord words) := by
  intro s n b h
  obtain ⟨w, hfind, h⟩ := Option.map_eq_some_iff.mp h
  cases h
  have hmem := List.mem_of_find?_eq_some hfind
  have hpre := List.find?_some hfind
  obtain ⟨tail, rfl⟩ := List.isPrefixOf_iff_prefix.mp hpre
  exact ⟨w, tail, rfl, rfl, (hlead w hmem).1, (hlead w hmem).2, fun tail' _ => hread w hmem tail'⟩

theorem reads_envKey (most : Option ℕ) : Reads ['e'] (readEnvKey most) := by
  intro s n b h
  unfold readEnvKey at h
  dsimp only at h
  split at h
  · next hcond =>
      obtain ⟨hpre, hkey, hmost⟩ := hcond
      obtain ⟨t, rfl⟩ := List.isPrefixOf_iff_prefix.mp hpre
      cases h
      have hall : (t.takeWhile isWordChar).all isWordChar = true := List.all_takeWhile
      refine ⟨"env.".toList ++ t.takeWhile isWordChar, t.dropWhile isWordChar, ?_, ?_,
        ⟨'e', List.mem_cons_self, rfl⟩, ?_, fun tail' htail' => ?_⟩
      · rw [List.append_assoc, List.takeWhile_append_dropWhile]
      · rw [List.length_append]
        rfl
      · rw [List.mem_append, not_or]
        exact ⟨by decide, brace_notMem (by decide) hall⟩
      · have hagain : (("env.".toList ++ t.takeWhile isWordChar ++ tail').drop 4).takeWhile
            isWordChar = t.takeWhile isWordChar := (takeWhile_dropWhile_append hall htail').1
        unfold readEnvKey
        dsimp only
        rw [hagain, if_pos ⟨by rw [List.append_assoc]; rfl, hkey, hmost⟩, List.length_append]
        rfl
  · cases h

theorem reads_hostOrEnv : Reads ['h', 'e'] readHostOrEnv := by
  intro s n b h
  unfold readHostOrEnv at h
  split at h
  · next hpre =>
      obtain ⟨t, rfl⟩ := List.isPrefixOf_iff_prefix.mp hpre
      cases h
      exact ⟨"host".toList, t, rfl, rfl, ⟨'h', by simp, rfl⟩, by decide, fun tail' _ => rfl⟩
  · obtain ⟨⟨k, key⟩, hread, h⟩ := Option.map_eq_some_iff.mp h
    cases h
    obtain ⟨w, tail, rfl, rfl, ⟨lead, hmem, hlead⟩, hbrace, hagain⟩ := reads_envKey none _ _ _ hread
    obtain rfl : lead = 'e' := by simpa using hmem
    refine ⟨w, tail, rfl, rfl, ⟨'e', by simp, hlead⟩, hbrace, fun tail' htail' => ?_⟩
    unfold readHostOrEnv
    rw [if_neg, hagain tail' htail']
    · rfl
    · intro hpre
      obtain ⟨t, ht⟩ := List.isPrefixOf_iff_prefix.mp hpre
      have hhead := congrArg List.head? ht
      rw [List.head?_append, List.head?_append, hlead] at hhead
      cases hhead

/-- `[\w-]` -/
def isNameChar (c : Char) : Bool := isWordChar c || c == '-'

theorem readComponent_eq {β : Type} {inner : List Char → Option (ℕ × β)} {s comp : List Char}
    (h : (s.drop 11).takeWhile isNameChar = comp) : readComponent inner s =
      if "components.".toList.isPrefixOf s ∧ comp ≠ [] ∧
        (s.drop (11 + comp.length)).head? = some '.'
      then (inner (s.drop (11 + comp.length + 1))).map fun r =>
        (11 + comp.length + 1 + r.1, String.ofList comp, r.2)
      else none := by
  subst h
  rfl

/-- The name of a component is read up to the dot. -/
theorem readComponent_append {β : Type} {inner : List Char → Option (ℕ × β)} {comp t : List Char}
    (hne : comp ≠ []) (hcomp : comp.all isNameChar = true) :
    readComponent inner ("components.".toList ++ (comp ++ '.' :: t)) =
      (inner t).map fun r => (11 + comp.length + 1 + r.1, String.ofList comp, r.2) := by
  have hbehind : ("components.".toList ++ (comp ++ '.' :: t)).drop (11 + comp.length) =
      '.' :: t := by
    rw [← List.drop_drop]
    exact List.drop_left
  have hnext : ("components.".toList ++ (comp ++ '.' :: t)).drop (11 + comp.length + 1) = t := by
    rw [← List.drop_drop, hbehind]
    rfl
  have htake : (("components.".toList ++ (comp ++ '.' :: t)).drop 11).takeWhile isNameChar = comp :=
    (takeWhile_dropWhile_append hcomp fun c hc => by
      cases hc
      decide).1
  rw [readComponent_eq htake, if_pos ⟨rfl, hne, by rw [hbehind]; rfl⟩, hnext]

theorem reads_component {β : Type} {leads : List Char} {inner : List Char → Option (ℕ × β)}
    (hinner : Reads leads inner) : Reads ['c'] (readComponent inner) := by
  intro s n b h
  rw [readComponent_eq rfl] at h
  split at h
  · next hcond =>
      obtain ⟨hpre, hne, hdot⟩ := hcond
      obtain ⟨t, rfl⟩ := List.isPrefixOf_iff_prefix.mp hpre
      obtain ⟨comp, u, hcomp, hu, rfl⟩ : ∃ comp u, comp.all isNameChar = true ∧
          (∀ c, u.head? = some c → isNameChar c = false) ∧ t = comp ++ u :=
        ⟨t.takeWhile isNameChar, t.dropWhile isNameChar, List.all_takeWhile, head_dropWhile,
          List.takeWhile_append_dropWhile.symm⟩
      have htake : (("components.".toList ++ (comp ++ u)).drop 11).takeWhile isNameChar = comp :=
        (takeWhile_dropWhile_append hcomp hu).1
      have hbehind : ("components.".toList ++ (comp ++ u)).drop (11 + comp.length) = u := by
        rw [← List.drop_drop]
        exact List.drop_left
      rw [htake] at hne h hdot
      rw [hbehind] at hdot
      obtain ⟨c, u, rfl⟩ := List.exists_cons_of_ne_nil fun hnil : u = [] => by
        rw [hnil] at hdot
        cases hdot
      obtain rfl : c = '.' := by simpa using hdot
      rw [← List.drop_drop, hbehind] at h
      obtain ⟨⟨k, b'⟩, hread, h⟩ := Option.map_eq_some_iff.mp h
      cases h
      obtain ⟨w, tail, hw, rfl, -, hbrace, hagain⟩ := hinner _ _ _ hread
      obtain rfl : u = w ++ tail := hw
      have hlen : ("components.".toList ++ (comp ++ '.' :: w)).length =
          11 + comp.length + 1 + w.length := by
        simp only [List.length_append, List.length_cons]
        change 11 + _ = _
        omega
      refine ⟨"components.".toList ++ (comp ++ '.' :: w), tail, by simp, hlen.symm,
        ⟨'c', List.mem_cons_self, rfl⟩, ?_, fun tail' htail' => ?_⟩
      · simp only [List.mem_append, List.mem_cons, not_or]
        exact ⟨by decide, brace_notMem (by decide) hcomp, by decide, hbrace⟩
      · have htext : "components.".toList ++ (comp ++ '.' :: w) ++ tail' =
            "components.".toList ++ (comp ++ '.' :: (w ++ tail')) := by simp
        rw [htext, readComponent_append hne hcomp, hagain tail' htail', hlen]
        rfl
  · cases h

/-! ## The three replacements -/

/-- `\x7b\x7bcomponents.A.host\x7d\x7d` and `\x7b\x7bcomponents.A.env.X\x7d\x7d` -/
def crossToken : List Char → Option (ℕ × String × Option String) :=
  matchBraces (readComponent readHostOrEnv)

/-- `\x7b\x7benv.X\x7d\x7d` -/
def selfToken : List Char → Option (ℕ × String) := matchBraces (readEnvKey (some 64))

/-- The token of one of the words `app.id`, `app.domain`, `app.scheme`. -/
def wordToken (words : List String) : List Char → Option (ℕ × Unit) :=
  matchBraces (readWord (words.map String.toList))

theorem crossToken_bracketed : Bracketed '\x7b' crossToken :=
  matchBraces_bracketed (reads_component reads_hostOrEnv) (by decide)

theorem selfToken_bracketed : Bracketed '\x7b' selfToken :=
  matchBraces_bracketed (reads_envKey _) (by decide)

theorem reads_appId : Reads ['a'] (readWord (["app.id"].map String.toList)) := by
  refine reads_word (by simp) fun w hw tail => ?_
  obtain rfl : w = "app.id".toList := by simpa using hw
  rfl

theorem reads_origin : Reads ['a'] (readWord (["app.domain", "app.scheme"].map String.toList)) := by
  refine reads_word (by simp) fun w hw tail => ?_
  rcases List.mem_cons.mp hw with rfl | hw
  · rfl
  · obtain rfl : w = "app.scheme".toList := by simpa using hw
    rfl

theorem matchToken_eq (word text : List Char) :
    (matchToken word text).map (fun n => (n, ())) = matchBraces (readWord [word]) text := by
  by_cases hpre : "\x7b\x7b".toList.isPrefixOf text = true
  · obtain ⟨t, rfl⟩ := List.isPrefixOf_iff_prefix.mp hpre
    change _ = matchBraces (readWord [word]) ('\x7b' :: '\x7b' :: t)
    rw [matchBraces_open]
    unfold matchToken readWord
    rw [if_pos hpre]
    have hdrop : ("\x7b\x7b".toList ++ t).drop 2 = t := rfl
    simp only [hdrop, List.find?_singleton]
    split
    · simp only [Option.map_some, Option.bind_some, List.drop_drop]
      split
      · next hclose => exact (if_pos hclose).symm
      · next hclose => exact (if_neg hclose).symm
    · simp
  · unfold matchToken matchBraces
    rw [if_neg hpre, if_neg hpre]
    rfl

theorem replaceAppId_eq (app value : String) : (replaceAppId app value).toList =
    substitute (wordToken ["app.id"]) (fun _ => app.toList) value.toList := by
  unfold replaceAppId substitute
  rw [String.toList_ofList, ← replaceAll_eq_substitute 0 none]
  congr 1
  funext _ text
  change _ = (matchBraces (readWord ["app.id".toList]) text).map _
  rw [← matchToken_eq, Option.map_map]
  rfl

/-- One of two words, of which at most one can stand at the start of a text. -/
theorem matchToken_orElse {d e : List Char}
    (hapart : ∀ u, d.isPrefixOf u = true → e.isPrefixOf u = false) (text : List Char) :
    ((matchToken d text).orElse fun _ => matchToken e text) =
      (matchBraces (readWord [d, e]) text).map Prod.fst := by
  have hmap (word : List Char) : matchToken word text =
      (matchBraces (readWord [word]) text).map Prod.fst := by
    rw [← matchToken_eq, Option.map_map]
    cases matchToken word text <;> rfl
  rw [hmap, hmap]
  by_cases hpre : "\x7b\x7b".toList.isPrefixOf text = true
  · obtain ⟨t, rfl⟩ := List.isPrefixOf_iff_prefix.mp hpre
    change ((matchBraces _ ('\x7b' :: '\x7b' :: t)).map _ |>.orElse fun _ =>
      (matchBraces _ ('\x7b' :: '\x7b' :: t)).map _) = (matchBraces _ ('\x7b' :: '\x7b' :: t)).map _
    simp only [matchBraces_open]
    generalize t.drop (min 8 (t.takeWhile isJsSpace).length) = u
    by_cases hd : d.isPrefixOf u = true
    · have hboth : readWord [d, e] u = readWord [d] u := by simp [readWord, hd]
      have hnone : readWord [e] u = none := by simp [readWord, hapart u hd]
      rw [hboth, hnone, Option.orElse_eq_or]
      exact Option.or_none
    · have hboth : readWord [d, e] u = readWord [e] u := by simp [readWord, List.find?_cons, hd]
      have hnone : readWord [d] u = none := by simp [readWord, hd]
      rw [hboth, hnone]
      rfl
  · have hnone {β : Type} (inner : List Char → Option (ℕ × β)) : matchBraces inner text = none := by
      rw [matchBraces, if_neg hpre]
    rw [hnone, hnone, hnone]
    rfl

theorem replaceDeferred_eq (s : List Char) : replaceAll matchDeferred 0 none s =
    substitute (wordToken ["app.domain", "app.scheme"]) (fun _ => []) s := by
  unfold substitute
  rw [← replaceAll_eq_substitute 0 none]
  congr 1
  funext _ text
  unfold matchDeferred
  rw [matchToken_orElse fun u hu => ?_, Option.map_map]
  · rfl
  · obtain ⟨v, rfl⟩ := List.isPrefixOf_iff_prefix.mp hu
    rfl

/-- The text that a replacer returned. -/
def textOf (x : Except String String) : List Char := (x.toOption.getD "").toList

/-- The replacer answers for each token, and its answers are put in their places. -/
theorem replaceAllM_spec {β : Type} {m : List Char → Option (ℕ × β)}
    {value : β → Except String String} {n : ℕ} {s out : List Char} :
    replaceAllM m value n s = .ok out ↔
      (∀ b, .inr b ∈ pieces m n s → ∃ t, value b = .ok t) ∧
        out = (pieces m n s).flatMap (Sum.elim (fun c => [c]) fun b => textOf (value b)) := by
  induction s generalizing n out with
  | nil => simp [replaceAllM, pieces, eq_comm]
  | cons c s ih =>
      cases n with
      | succ n => exact ih
      | zero =>
          cases hc : m (c :: s) with
          | none =>
              rw [replaceAllM, hc, pieces_cons c hc]
              constructor
              · intro h
                obtain ⟨rest, hrest, rfl⟩ := except_map_eq_ok.mp h
                obtain ⟨hvalues, rfl⟩ := ih.mp hrest
                exact ⟨fun b hb => hvalues b (by simpa using hb), rfl⟩
              · rintro ⟨hvalues, rfl⟩
                have hrest := ih.mpr ⟨fun b hb => hvalues b (List.mem_cons_of_mem _ hb), rfl⟩
                exact except_map_eq_ok.mpr ⟨_, hrest, rfl⟩
          | some r =>
              obtain ⟨k, b⟩ := r
              rw [replaceAllM, hc, pieces, hc]
              constructor
              · intro h
                obtain ⟨t, ht, h⟩ := except_bind_eq_ok.mp h
                obtain ⟨rest, hrest, h⟩ := except_bind_eq_ok.mp h
                cases h
                obtain ⟨hvalues, rfl⟩ := ih.mp hrest
                refine ⟨fun b' hb' => ?_, by simp [textOf, ht, Except.toOption]⟩
                rcases List.mem_cons.mp hb' with heq | hb'
                · cases heq
                  exact ⟨t, ht⟩
                · exact hvalues b' hb'
              · rintro ⟨hvalues, rfl⟩
                obtain ⟨t, ht⟩ := hvalues b List.mem_cons_self
                have hrest := ih.mpr ⟨fun b hb => hvalues b (List.mem_cons_of_mem _ hb), rfl⟩
                refine except_bind_eq_ok.mpr ⟨t, ht, except_bind_eq_ok.mpr ⟨_, hrest, ?_⟩⟩
                simp [textOf, ht, Except.toOption, pure, Except.pure]

theorem replaceAllM_eq_ok {β : Type} {m : List Char → Option (ℕ × β)}
    {value : β → Except String String} {s out : List Char} : replaceAllM m value 0 s = .ok out ↔
      (∀ b ∈ found m s, ∃ t, value b = .ok t) ∧
        out = substitute m (fun b => textOf (value b)) s := by
  rw [replaceAllM_spec]
  simp only [mem_found, substitute]

/-! ## Slashes -/

/-- A character that is neither a brace nor a space stands in a token only within the expression. -/
theorem notMem_matchBraces {β : Type} {inner : List Char → Option (ℕ × β)} {c : Char}
    (hinner : ∀ {s n b}, inner s = some (n, b) → c ∉ s.take n) (hspace : isJsSpace c = false)
    (hopen : c ≠ '\x7b') (hclose : c ≠ '\x7d') {s : List Char} {n : ℕ} {b : β}
    (h : matchBraces inner s = some (n, b)) : 0 < n ∧ c ∉ s.take n := by
  obtain ⟨t, rfl⟩ : ∃ t, s = '\x7b' :: '\x7b' :: t := by
    unfold matchBraces at h
    split at h
    · next hpre =>
        obtain ⟨t, rfl⟩ := List.isPrefixOf_iff_prefix.mp hpre
        exact ⟨t, rfl⟩
    · cases h
  obtain ⟨sp, t, rfl, -, hsp, hbefore⟩ := spaces_split t
  rw [matchBraces_open, hbefore, List.drop_left] at h
  obtain ⟨⟨k, b'⟩, hread, hrest⟩ := Option.bind_eq_some_iff.mp h
  dsimp only at hrest
  rw [← List.drop_drop, List.drop_left] at hrest
  obtain ⟨sp', tail, htail, -, hsp', hbehind⟩ := spaces_split (t.drop k)
  rw [hbehind, htail, List.drop_left] at hrest
  split at hrest
  · next hends =>
      obtain ⟨rest, rfl⟩ := List.isPrefixOf_iff_prefix.mp hends
      cases hrest
      have hlength : (t.take k).length = k := by
        refine List.length_take_of_le (Nat.le_of_lt ?_)
        by_contra hle
        rw [List.drop_eq_nil_of_le (Nat.not_lt.mp hle)] at htail
        simp at htail
      have hnotSpace {x : List Char} (hx : x.all isJsSpace = true) : c ∉ x := by
        intro hmem
        rw [List.all_eq_true.mp hx c hmem] at hspace
        cases hspace
      refine ⟨by omega, ?_⟩
      have hsplit : '\x7b' :: '\x7b' :: (sp ++ t) =
          ('\x7b' :: '\x7b' :: (sp ++ (t.take k ++ (sp' ++ ['\x7d', '\x7d'])))) ++ rest := by
        have ht : t = t.take k ++ (sp' ++ (['\x7d', '\x7d'] ++ rest)) := by
          rw [← htail, List.take_append_drop]
        conv_lhs => rw [ht]
        simp
      rw [hsplit, List.take_left' (by simp [hlength]; omega)]
      simp only [List.mem_cons, List.mem_append, List.not_mem_nil, or_false, not_or]
      exact ⟨hopen, hopen, hnotSpace hsp, hinner hread, hnotSpace hsp', hclose, hclose⟩
  · cases hrest

theorem notMem_readEnvKey {c : Char} (hword : isWordChar c = false) (henv : c ∉ "env.".toList)
    {most : Option ℕ} {s : List Char} {n : ℕ} {b : String} (h : readEnvKey most s = some (n, b)) :
    c ∉ s.take n := by
  unfold readEnvKey at h
  dsimp only at h
  split at h
  · next hcond =>
      cases h
      obtain ⟨t, rfl⟩ := List.isPrefixOf_iff_prefix.mp hcond.1
      have hdrop : ("env.".toList ++ t).drop 4 = t := rfl
      rw [hdrop, show 4 = "env.".toList.length from rfl, List.take_append, List.take_of_length_le (by simp),
        Nat.add_sub_cancel_left, List.mem_append, not_or]
      refine ⟨henv, fun hmem => ?_⟩
      have hmem' : c ∈ t.takeWhile isWordChar := by
        have hpre := List.takeWhile_prefix isWordChar (l := t)
        rwa [← List.prefix_iff_eq_take.mp hpre] at hmem
      rw [List.mem_takeWhile_imp hmem'] at hword
      cases hword
  · cases h

/-- No reference to a variable of the same component has a slash in it. -/
theorem slash_notMem_selfToken {s : List Char} {n : ℕ} {key : String} (h : selfToken s = some (n, key)) :
    0 < n ∧ '/' ∉ s.take n :=
  notMem_matchBraces (fun h => notMem_readEnvKey (by decide) (by decide) h) (by decide) (by decide)
    (by decide) h

end Vops.Apps
