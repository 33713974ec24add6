import Vops.Lib.Json
import Vops.Lib.TextLines
import Mathlib.Data.List.Forall2
import Mathlib.Data.List.Sort

/-!
# Deterministic JSON texts

* `quote` — `JSON.stringify` of a string; `readChars` reads one back (`readChars_quoted`).
* `stableChars` — the text of a value with the keys of every object in order. The order is any
  comparison of keys, the text of a finite number any `NumberText`; `NaN` and the infinities are
  written as `null`.
* `Json.Same` — the same value up to the order of keys.
* `same_of_stableChars` — values with the same text are the same value up to the order of keys, once
  every number that is not finite is read as `null`.

Nothing here mentions a particular record.
-/

/-! ## Strings -/

/-- The escape of a character inside a string. -/
def escapeChar (c : Char) : List Char :=
  if c = '"' then ['\\', '"']
  else if c = '\\' then ['\\', '\\']
  else if c = '\n' then ['\\', 'n']
  else if c = '\r' then ['\\', 'r']
  else if c = '\t' then ['\\', 't']
  else if c = '\x08' then ['\\', 'b']
  else if c = '\x0c' then ['\\', 'f']
  else if c.toNat < 32 then
    ['\\', 'u', '0', '0', Nat.digitChar (c.toNat / 16), Nat.digitChar (c.toNat % 16)]
  else [c]

/-- The escapes of these characters, with the closing quotation mark. -/
def quoted (s : List Char) : List Char := s.flatMap escapeChar ++ ['"']

/-- `JSON.stringify` of a string. -/
def quote (s : String) : List Char := '"' :: quoted s.toList

/-- The character of a short escape. -/
def unescapeChar (c : Char) : Char :=
  if c = 'n' then '\n' else if c = 'r' then '\r' else if c = 't' then '\t'
  else if c = 'b' then '\x08' else if c = 'f' then '\x0c' else c

/-- The value of a hexadecimal digit. -/
def hexValue (c : Char) : ℕ := if c.isDigit then c.toNat - 48 else c.toNat - 87

/-- Read the characters of a string up to its closing quotation mark. -/
def readChars : List Char → Option (List Char × List Char)
  | [] => none
  | '"' :: rest => some ([], rest)
  | '\\' :: 'u' :: '0' :: '0' :: hi :: lo :: rest =>
      (readChars rest).map fun (s, rest) => (Char.ofNat (hexValue hi * 16 + hexValue lo) :: s, rest)
  | '\\' :: c :: rest => (readChars rest).map fun (s, rest) => (unescapeChar c :: s, rest)
  | c :: rest => (readChars rest).map fun (s, rest) => (c :: s, rest)

/-- A control character is read back from its four digits. -/
theorem hexValue_control : ∀ n < 32,
    hexValue (Nat.digitChar (n / 16)) * 16 + hexValue (Nat.digitChar (n % 16)) = n := by decide

/-- What was quoted is read back, with whatever follows. -/
theorem readChars_quoted (s rest : List Char) : readChars (quoted s ++ rest) = some (s, rest) := by
  induction s with
  | nil => rfl
  | cons c s ih =>
      have hcons : quoted (c :: s) ++ rest = escapeChar c ++ (quoted s ++ rest) := by simp [quoted]
      rw [hcons]
      unfold escapeChar
      by_cases h1 : c = '"'
      · subst h1
        simp [readChars, ih, unescapeChar]
      by_cases h2 : c = '\\'
      · subst h2
        simp [readChars, ih, unescapeChar]
      by_cases h3 : c = '\n'
      · subst h3
        simp [readChars, ih, unescapeChar]
      by_cases h4 : c = '\r'
      · subst h4
        simp [readChars, ih, unescapeChar]
      by_cases h5 : c = '\t'
      · subst h5
        simp [readChars, ih, unescapeChar]
      by_cases h6 : c = '\x08'
      · subst h6
        simp [readChars, ih, unescapeChar]
      by_cases h7 : c = '\x0c'
      · subst h7
        simp [readChars, ih, unescapeChar]
      by_cases h8 : c.toNat < 32
      · simp [h1, h2, h3, h4, h5, h6, h7, h8, readChars, ih, hexValue_control c.toNat h8]
      · simp [h1, h2, h3, h4, h5, h6, h7, h8, readChars, ih]

/-- A quoted string is not a prefix of another one. -/
theorem quote_append_inj {s t : String} {r r' : List Char} (h : quote s ++ r = quote t ++ r') :
    s = t ∧ r = r' := by
  have hread := congrArg readChars (List.cons.inj h).2
  change readChars (quoted s.toList ++ r) = readChars (quoted t.toList ++ r') at hread
  rw [readChars_quoted, readChars_quoted] at hread
  obtain ⟨hs, hr⟩ := Prod.mk.inj (Option.some.inj hread)
  exact ⟨String.ext_iff.mpr hs, hr⟩

/-! ## Induction over values -/

/-- Induction over the values, with the elements of an array and the values of an object. -/
@[elab_as_elim]
theorem Json.inductionOn {P : Json → Prop} (null : P .null) (bool : ∀ b, P (.bool b))
    (num : ∀ n, P (.num n)) (str : ∀ s, P (.str s)) (arr : ∀ xs, (∀ x ∈ xs, P x) → P (.arr xs))
    (obj : ∀ fields : List (String × Json), (∀ f ∈ fields, P f.2) → P (.obj fields)) (v : Json) :
    P v := by
  match v with
  | .null => exact null
  | .bool b => exact bool b
  | .num n => exact num n
  | .str s => exact str s
  | .arr xs => exact arr xs fun x hx => Json.inductionOn null bool num str arr obj x
  | .obj fields => exact obj fields fun f hf => Json.inductionOn null bool num str arr obj f.2
termination_by sizeOf v
decreasing_by
  · have := List.sizeOf_lt_of_mem hx
    simp only [Json.arr.sizeOf_spec]
    omega
  · have := List.sizeOf_lt_of_mem hf
    have hpair : sizeOf f.2 < sizeOf f := by
      cases f
      simp only [Prod.mk.sizeOf_spec]
      omega
    simp only [Json.obj.sizeOf_spec]
    omega

theorem map_values_keys (g : Json → Json) (fields : List (String × Json)) :
    (fields.map fun f => (f.1, g f.2)).map Prod.fst = fields.map Prod.fst := by
  rw [List.map_map]
  rfl

theorem map_values_values (g : Json → Json) (fields : List (String × Json)) :
    (fields.map fun f => (f.1, g f.2)).map Prod.snd = (fields.map Prod.snd).map g := by
  rw [List.map_map, List.map_map]
  rfl

theorem Json.reparseElements_eq (xs : List Json) : reparseElements xs = xs.map reparse := by
  induction xs with
  | nil => rfl
  | cons x xs ih => rw [reparseElements, ih, List.map_cons]

theorem Json.reparseFields_eq (fields : List (String × Json)) :
    reparseFields fields = fields.map fun f => (f.1, reparse f.2) := by
  induction fields with
  | nil => rfl
  | cons f fields ih => rw [reparseFields, ih, List.map_cons]

/-- With different keys, a property is a field. -/
theorem Json.get?_eq_some_iff {fields : List (String × Json)} {key : String} {v : Json}
    (h : (fields.map Prod.fst).Nodup) : get? (.obj fields) key = some v ↔ (key, v) ∈ fields := by
  induction fields with
  | nil => simp [get?]
  | cons f fields ih =>
      obtain ⟨k, u⟩ := f
      rw [List.map_cons, List.nodup_cons] at h
      have hget : get? (.obj ((k, u) :: fields)) key =
          if k = key then some u else get? (.obj fields) key := by
        by_cases hk : k = key <;> simp [get?, hk]
      rw [hget, List.mem_cons, ← ih h.2]
      by_cases hk : k = key
      · subst hk
        have hnone : get? (.obj fields) k ≠ some v := by
          intro hv
          exact h.1 (List.mem_map.mpr ⟨_, (ih h.2).mp hv, rfl⟩)
        simp [hnone, eq_comm]
      · simp [hk, Ne.symm hk]

/-! ## The same value up to the order of keys -/

/-- The values are the same up to the order of the keys of their objects. -/
inductive Json.Same : Json → Json → Prop
  | null : Json.Same .null .null
  | bool (b : Bool) : Json.Same (.bool b) (.bool b)
  | num (n : JsNum) : Json.Same (.num n) (.num n)
  | str (s : String) : Json.Same (.str s) (.str s)
  | arr {xs ys : List Json} : List.Forall₂ Json.Same xs ys → Json.Same (.arr xs) (.arr ys)
  | obj {fields fields' other other' : List (String × Json)} : fields.Perm fields' →
      fields'.map Prod.fst = other'.map Prod.fst →
      List.Forall₂ Json.Same (fields'.map Prod.snd) (other'.map Prod.snd) → other'.Perm other →
      Json.Same (.obj fields) (.obj other)

/-- Fields that agree one by one have the same keys, and values that agree. -/
theorem keys_values_of_forall₂ {R : Json → Json → Prop} {fields other : List (String × Json)}
    (h : List.Forall₂ (fun f g => f.1 = g.1 ∧ R f.2 g.2) fields other) :
    fields.map Prod.fst = other.map Prod.fst ∧
      List.Forall₂ R (fields.map Prod.snd) (other.map Prod.snd) := by
  induction h with
  | nil => exact ⟨rfl, .nil⟩
  | cons hfg _ ih =>
      rw [List.map_cons, List.map_cons, List.map_cons, List.map_cons, hfg.1, ih.1]
      exact ⟨rfl, .cons hfg.2 ih.2⟩

/-! ## Texts of values -/

/-- Texts with commas between them. -/
def commas : List (List Char) → List Char
  | [] => []
  | [x] => x
  | x :: y :: xs => x ++ ',' :: commas (y :: xs)

/-- A field, its value already written. -/
def fieldText (f : String × List Char) : List Char := quote f.1 ++ ':' :: f.2

mutual

/-- The text of a value, the keys of every object in the order `le`. -/
def stableChars (numText : ℚ → String) (le : String → String → Bool) : Json → List Char
  | .null => "null".toList
  | .bool b => if b then "true".toList else "false".toList
  | .num (.fin q) => (numText q).toList
  | .num _ => "null".toList
  | .str s => quote s
  | .arr xs => '[' :: (commas (stableElements numText le xs) ++ [']'])
  | .obj fields =>
      '{' :: (commas (((stableFields numText le fields).insertionSort
        fun f g => le f.1 g.1 = true).map fieldText) ++ ['}'])

def stableElements (numText : ℚ → String) (le : String → String → Bool) :
    List Json → List (List Char)
  | [] => []
  | x :: xs => stableChars numText le x :: stableElements numText le xs

def stableFields (numText : ℚ → String) (le : String → String → Bool) :
    List (String × Json) → List (String × List Char)
  | [] => []
  | (key, v) :: fields => (key, stableChars numText le v) :: stableFields numText le fields

end

-- The equations of the mutual definitions are made once, not by each theorem below.
section Equations

attribute [local simp] stableChars stableElements stableFields

end Equations

/-! ## Reading a text back -/

/-- The characters of the text of a finite number. -/
def isNumberChar (c : Char) : Bool := c.isDigit || c == '+' || c == '-' || c == '.' || c == 'e'

/-- How finite numbers are written: different numbers differently, in the characters of numbers. -/
structure NumberText (numText : ℚ → String) : Prop where
  injective : Function.Injective numText
  ne_empty : ∀ q, (numText q).toList ≠ []
  chars : ∀ q, ∀ c ∈ (numText q).toList, isNumberChar c = true

/-- What may follow a value inside another one. -/
def isDelimiter (c : Char) : Bool := c == ',' || c == ']' || c == '}'

/-- The text is at its end, or goes on behind a value. -/
def Delimited (r : List Char) : Prop := ∀ c ∈ r.head?, isDelimiter c = true

theorem delimited_nil : Delimited [] := by
  intro c hc
  cases hc

theorem delimited_cons {c : Char} {r : List Char} (hc : isDelimiter c = true) :
    Delimited (c :: r) := by
  intro d hd
  cases hd
  exact hc

/-- No character of a number is a delimiter. -/
theorem not_isNumberChar_of_isDelimiter {c : Char} (hc : isDelimiter c = true) :
    isNumberChar c = false := by
  simp only [isDelimiter, Bool.or_eq_true, beq_iff_eq] at hc
  rcases hc with (rfl | rfl) | rfl <;> decide

/-- Two runs of characters that satisfy `p`, each followed by one that does not. -/
theorem append_inj_of_all {p : Char → Bool} {a b r r' : List Char} (ha : ∀ c ∈ a, p c = true)
    (hb : ∀ c ∈ b, p c = true) (hr : ∀ c ∈ r.head?, p c = false)
    (hr' : ∀ c ∈ r'.head?, p c = false) (h : a ++ r = b ++ r') : a = b ∧ r = r' := by
  induction a generalizing b with
  | nil =>
      cases b with
      | nil => exact ⟨rfl, h⟩
      | cons d b =>
          obtain rfl : r = d :: (b ++ r') := h
          have hd : p d = false := hr d rfl
          simp [hd] at hb
  | cons c a ih =>
      cases b with
      | nil =>
          obtain rfl : c :: (a ++ r) = r' := h
          have hc : p c = false := hr' c rfl
          simp [hc] at ha
      | cons d b =>
          obtain ⟨rfl, htail⟩ := List.cons.inj h
          obtain ⟨rfl, hrest⟩ := ih (fun c hc => ha c (List.mem_cons_of_mem _ hc))
            (fun c hc => hb c (List.mem_cons_of_mem _ hc)) htail
          exact ⟨rfl, hrest⟩

/-- What is between the commas is read back, up to `R`, when each part is. -/
theorem commas_inj {α β : Type} (R : α → β → Prop) (text : α → List Char) (text' : β → List Char)
    (close : Char) {as : List α} {bs : List β} {r r' : List Char} (hclose : isDelimiter close = true)
    (hcomma : close ≠ ',')
    (hread : ∀ a ∈ as, ∀ b ∈ bs, ∀ r r', Delimited r → Delimited r' →
      text a ++ r = text' b ++ r' → R a b ∧ r = r')
    (hstart : ∀ a ∈ as, ∃ c t, text a = c :: t ∧ c ≠ close)
    (hstart' : ∀ b ∈ bs, ∃ c t, text' b = c :: t ∧ c ≠ close)
    (h : commas (as.map text) ++ close :: r = commas (bs.map text') ++ close :: r') :
    List.Forall₂ R as bs ∧ r = r' := by
  have hsep : ∀ r, Delimited (',' :: r) := fun r => delimited_cons rfl
  have hend : ∀ r, Delimited (close :: r) := fun r => delimited_cons hclose
  -- the first part of a list never begins with the closing bracket
  have hfirst : ∀ (x : List Char) (xs : List (List Char)) (r : List Char),
      (∃ c t, x = c :: t ∧ c ≠ close) → ∀ r', close :: r' ≠ commas (x :: xs) ++ close :: r := by
    rintro x xs r ⟨c, t, rfl, hc⟩ r' heq
    cases xs <;> exact hc (List.cons.inj heq).1.symm
  induction as generalizing bs with
  | nil =>
      cases bs with
      | nil => exact ⟨.nil, (List.cons.inj h).2⟩
      | cons b bs => exact absurd h (hfirst _ _ _ (hstart' b List.mem_cons_self) _)
  | cons a as ih =>
      cases bs with
      | nil => exact absurd h.symm (hfirst _ _ _ (hstart a List.mem_cons_self) _)
      | cons b bs =>
          have hab := hread a List.mem_cons_self b List.mem_cons_self
          cases as with
          | nil =>
              cases bs with
              | nil =>
                  obtain ⟨hR, hrest⟩ := hab _ _ (hend r) (hend r') h
                  exact ⟨.cons hR .nil, (List.cons.inj hrest).2⟩
              | cons b' bs =>
                  have h' : text a ++ close :: r =
                      text' b ++ ',' :: (commas ((b' :: bs).map text') ++ close :: r') := by
                    simpa [commas] using h
                  exact absurd (List.cons.inj (hab _ _ (hend r) (hsep _) h').2).1 hcomma
          | cons a' as =>
              have hleft : commas ((a :: a' :: as).map text) ++ close :: r =
                  text a ++ ',' :: (commas ((a' :: as).map text) ++ close :: r) := by
                simp [commas]
              rw [hleft] at h
              cases bs with
              | nil => exact absurd (List.cons.inj (hab _ _ (hsep _) (hend r') h).2).1.symm hcomma
              | cons b' bs =>
                  have h' : text a ++ ',' :: (commas ((a' :: as).map text) ++ close :: r) =
                      text' b ++ ',' :: (commas ((b' :: bs).map text') ++ close :: r') := by
                    simpa [commas] using h
                  obtain ⟨hR, hrest⟩ := hab _ _ (hsep _) (hsep _) h'
                  obtain ⟨hall, hr⟩ := ih
                    (fun a ha b hb => hread a (List.mem_cons_of_mem _ ha) b
                      (List.mem_cons_of_mem _ hb))
                    (fun a ha => hstart a (List.mem_cons_of_mem _ ha))
                    (fun b hb => hstart' b (List.mem_cons_of_mem _ hb)) (List.cons.inj hrest).2
                  exact ⟨.cons hR hall, hr⟩

/-- The first character of a text tells the kind of its value; numbers are the rest. -/
def headKind (c : Char) : ℕ :=
  if c = 'n' then 0 else if c = 't' then 1 else if c = 'f' then 2 else if c = '"' then 3
  else if c = '[' then 4 else if c = '{' then 5 else 6

/-- The kind of a value, as `headKind` sees it. -/
def valueKind : Json → ℕ
  | .null => 0
  | .bool b => if b then 1 else 2
  | .num (.fin _) => 6
  | .num _ => 0
  | .str _ => 3
  | .arr _ => 4
  | .obj _ => 5

theorem headKind_of_isNumberChar {c : Char} (hc : isNumberChar c = true) : headKind c = 6 := by
  unfold headKind
  split_ifs with h1 h2 h3 h4 h5 h6
  all_goals first
    | rfl
    | subst_vars
      exact absurd hc (by decide)

section Injective

variable {numText : ℚ → String} {le : String → String → Bool}

/-- A value of the first kind is written `null` and read back as `null`. -/
theorem unset_of_valueKind {v : Json} (hv : valueKind v = 0) :
    v.reparse = .null ∧ stableChars numText le v = "null".toList := by
  cases v with
  | null => exact ⟨rfl, rfl⟩
  | num n =>
      cases n with
      | fin q => cases hv
      | _ => exact ⟨rfl, rfl⟩
  | bool b => cases b <;> cases hv
  | _ => cases hv

theorem stableElements_eq (xs : List Json) :
    stableElements numText le xs = xs.map (stableChars numText le) := by
  induction xs with
  | nil => rfl
  | cons x xs ih => rw [stableElements, ih, List.map_cons]

/-- The fields of an object in the order in which they are written. -/
def sortedFields (le : String → String → Bool) (fields : List (String × Json)) :
    List (String × Json) := fields.insertionSort fun f g => le f.1 g.1 = true

/-- A field as it is written. -/
def fieldChars (numText : ℚ → String) (le : String → String → Bool) (f : String × Json) :
    List Char := fieldText (f.1, stableChars numText le f.2)

theorem fieldChars_start (f : String × Json) {close : Char} (hclose : close ≠ '"') :
    ∃ c t, fieldChars numText le f = c :: t ∧ c ≠ close :=
  ⟨'"', quoted f.1.toList ++ ':' :: stableChars numText le f.2, rfl, hclose.symm⟩

theorem mem_sortedFields {fields : List (String × Json)} (f : String × Json) :
    f ∈ sortedFields le fields ↔ f ∈ fields := List.mem_insertionSort _

theorem sortedFields_map (g : Json → Json) (fields : List (String × Json)) :
    sortedFields le (fields.map fun f => (f.1, g f.2)) =
      (sortedFields le fields).map fun f => (f.1, g f.2) := by
  rw [sortedFields, sortedFields]
  exact (List.map_insertionSort (fun f f' : String × Json => le f.1 f'.1 = true)
    (fun f f' : String × Json => le f.1 f'.1 = true) (fun f => (f.1, g f.2)) fields
    fun _ _ _ _ => Iff.rfl).symm

theorem stableChars_str_inj {s t : String}
    (h : stableChars numText le (.str s) = stableChars numText le (.str t)) : s = t :=
  (@quote_append_inj s t [] [] (by rw [← stableChars, ← stableChars, h])).1

theorem stableFields_eq (fields : List (String × Json)) :
    stableFields numText le fields = fields.map fun f => (f.1, stableChars numText le f.2) := by
  induction fields with
  | nil => rfl
  | cons f fields ih => rw [stableFields, ih, List.map_cons]

theorem stableChars_obj (fields : List (String × Json)) :
    stableChars numText le (.obj fields) = '\x7b' ::
      (commas ((sortedFields le fields).map (fieldChars numText le)) ++ ['\x7d']) := by
  have hsort : (stableFields numText le fields).insertionSort (fun f g => le f.1 g.1 = true) =
      (sortedFields le fields).map fun f => (f.1, stableChars numText le f.2) := by
    rw [stableFields_eq, sortedFields]
    exact (List.map_insertionSort (fun f f' : String × Json => le f.1 f'.1 = true)
      (fun f f' : String × List Char => le f.1 f'.1 = true)
      (fun f => (f.1, stableChars numText le f.2)) fields fun _ _ _ _ => Iff.rfl).symm
  rw [stableChars, hsort, List.map_map]
  rfl

/-- The text of an array keeps when the texts of its elements do. -/
theorem stableChars_arr_map (g : Json → Json) (xs : List Json)
    (h : ∀ x ∈ xs, stableChars numText le (g x) = stableChars numText le x) :
    stableChars numText le (.arr (xs.map g)) = stableChars numText le (.arr xs) := by
  have hmap : ∀ x ∈ xs, (stableChars numText le ∘ g) x = stableChars numText le x := h
  rw [stableChars, stableChars, stableElements_eq, stableElements_eq, List.map_map,
    List.map_congr_left hmap]

/-- The text of an object keeps when the texts of its values do. -/
theorem stableChars_obj_map (g : Json → Json) (fields : List (String × Json))
    (h : ∀ f ∈ fields, stableChars numText le (g f.2) = stableChars numText le f.2) :
    stableChars numText le (.obj (fields.map fun f => (f.1, g f.2))) =
      stableChars numText le (.obj fields) := by
  have hmap : ∀ f ∈ sortedFields le fields,
      (fieldChars numText le ∘ fun f => (f.1, g f.2)) f = fieldChars numText le f := by
    intro f hf
    rw [Function.comp_apply, fieldChars, fieldChars, h f ((mem_sortedFields f).mp hf)]
  rw [stableChars_obj, stableChars_obj, sortedFields_map, List.map_map, List.map_congr_left hmap]

variable (hn : NumberText numText)
include hn

/-- The first character of the text of a value. -/
theorem stableChars_head (v : Json) :
    ∃ c t, stableChars numText le v = c :: t ∧ headKind c = valueKind v ∧ isDelimiter c = false := by
  cases v with
  | null => exact ⟨'n', _, rfl, rfl, rfl⟩
  | bool b => cases b <;> exact ⟨_, _, rfl, rfl, rfl⟩
  | num n =>
      cases n with
      | fin q =>
          obtain ⟨c, t, hq⟩ := List.exists_cons_of_ne_nil (hn.ne_empty q)
          have hc : isNumberChar c = true := hn.chars q c (hq ▸ List.mem_cons_self)
          refine ⟨c, t, by rw [stableChars, hq], headKind_of_isNumberChar hc, ?_⟩
          by_contra hdelim
          rw [Bool.not_eq_false] at hdelim
          rw [not_isNumberChar_of_isDelimiter hdelim] at hc
          cases hc
      | _ => exact ⟨'n', _, rfl, rfl, rfl⟩
  | str s => exact ⟨'"', _, rfl, rfl, rfl⟩
  | arr xs => exact ⟨'[', _, rfl, rfl, rfl⟩
  | obj fields => exact ⟨'\x7b', _, rfl, rfl, rfl⟩

theorem stableChars_start (v : Json) {close : Char} (hclose : isDelimiter close = true) :
    ∃ c t, stableChars numText le v = c :: t ∧ c ≠ close := by
  obtain ⟨c, t, hct, -, hc⟩ := @stableChars_head numText le hn v
  refine ⟨c, t, hct, ?_⟩
  rintro rfl
  rw [hc] at hclose
  cases hclose

/-- Values with the same text are of one kind. -/
theorem valueKind_eq {v w : Json} {r r' : List Char}
    (h : stableChars numText le v ++ r = stableChars numText le w ++ r') :
    valueKind v = valueKind w := by
  obtain ⟨c, t, hv, hkind, -⟩ := @stableChars_head numText le hn v
  obtain ⟨d, u, hw, hkind', -⟩ := @stableChars_head numText le hn w
  rw [hv, hw] at h
  rw [← hkind, ← hkind', (List.cons.inj h).1]

/-- What the texts determine: the value, once the numbers that are not finite are `null`. -/
theorem same_of_append (v : Json) : ∀ (w : Json) (r r' : List Char), Delimited r → Delimited r' →
    stableChars numText le v ++ r = stableChars numText le w ++ r' →
      Json.Same v.reparse w.reparse ∧ r = r' := by
  have hnull : ∀ v w r r', valueKind v = 0 →
      stableChars numText le v ++ r = stableChars numText le w ++ r' →
        Json.Same v.reparse w.reparse ∧ r = r' := by
    intro v w r r' hv h
    have hw : valueKind w = 0 := (valueKind_eq hn h).symm.trans hv
    obtain ⟨hv', hvt⟩ := @unset_of_valueKind numText le _ hv
    obtain ⟨hw', hwt⟩ := @unset_of_valueKind numText le _ hw
    rw [hvt, hwt] at h
    rw [hv', hw']
    exact ⟨.null, List.append_cancel_left h⟩
  induction v using Json.inductionOn with
  | null => exact fun w r r' _ _ h => hnull _ w r r' rfl h
  | bool b =>
      intro w r r' _ _ h
      have hk := valueKind_eq hn h
      cases w with
      | bool b' =>
          obtain rfl : b = b' := by cases b <;> cases b' <;> simp [valueKind] at hk <;> rfl
          exact ⟨.bool b, List.append_cancel_left h⟩
      | num n => cases b <;> cases n <;> simp [valueKind] at hk
      | _ => cases b <;> simp [valueKind] at hk
  | num n =>
      intro w r r' hr hr' h
      cases n with
      | fin q =>
          have hk := valueKind_eq hn h
          cases w with
          | num m =>
              cases m with
              | fin q' =>
                  have hstop : ∀ {r : List Char}, Delimited r →
                      ∀ c ∈ r.head?, isNumberChar c = false :=
                    fun hr c hc => not_isNumberChar_of_isDelimiter (hr c hc)
                  obtain ⟨htext, hrest⟩ :=
                    append_inj_of_all (hn.chars q) (hn.chars q') (hstop hr) (hstop hr') h
                  obtain rfl : q = q' := hn.injective (String.ext_iff.mpr htext)
                  exact ⟨.num (.fin q), hrest⟩
              | _ => simp [valueKind] at hk
          | bool b => cases b <;> simp [valueKind] at hk
          | _ => simp [valueKind] at hk
      | _ => exact hnull _ w r r' rfl h
  | str s =>
      intro w r r' _ _ h
      have hk := valueKind_eq hn h
      cases w with
      | str t =>
          obtain ⟨rfl, hrest⟩ := quote_append_inj h
          exact ⟨.str s, hrest⟩
      | bool b => cases b <;> simp [valueKind] at hk
      | num n => cases n <;> simp [valueKind] at hk
      | _ => simp [valueKind] at hk
  | arr xs ih =>
      intro w r r' _ _ h
      have hk := valueKind_eq hn h
      cases w with
      | arr ys =>
          rw [stableChars, stableChars, stableElements_eq, stableElements_eq, List.cons_append,
            List.cons_append, List.append_assoc, List.append_assoc] at h
          obtain ⟨hall, hrest⟩ := commas_inj (fun x y => Json.Same x.reparse y.reparse) _ _ ']' rfl
            (by decide) (fun x hx y _ r r' hr hr' h => ih x hx y r r' hr hr' h)
            (fun x _ => stableChars_start hn x rfl) (fun y _ => stableChars_start hn y rfl) (List.cons.inj h).2
          refine ⟨?_, hrest⟩
          rw [Json.reparse, Json.reparse, Json.reparseElements_eq, Json.reparseElements_eq]
          exact .arr (List.forall₂_map_left_iff.mpr (List.forall₂_map_right_iff.mpr hall))
      | bool b => cases b <;> simp [valueKind] at hk
      | num n => cases n <;> simp [valueKind] at hk
      | _ => simp [valueKind] at hk
  | obj fields ih =>
      intro w r r' _ _ h
      have hk := valueKind_eq hn h
      cases w with
      | obj other =>
          rw [stableChars_obj, stableChars_obj, List.cons_append, List.cons_append,
            List.append_assoc, List.append_assoc] at h
          have hperm : ∀ fields : List (String × Json), (sortedFields le fields).Perm fields :=
            fun fields => List.perm_insertionSort _ _
          obtain ⟨hall, hrest⟩ := commas_inj
            (fun f g => f.1 = g.1 ∧ Json.Same f.2.reparse g.2.reparse) (fieldChars numText le)
            (fieldChars numText le) '\x7d' rfl (by decide)
            (fun f hf g _ r r' hr hr' h => by
              rw [fieldChars, fieldChars, fieldText, fieldText, List.append_assoc,
                List.append_assoc] at h
              obtain ⟨hkey, hvalue⟩ := quote_append_inj h
              obtain ⟨hsame, hrest⟩ := ih f ((hperm fields).mem_iff.mp hf) g.2 r r' hr hr'
                (List.cons.inj hvalue).2
              exact ⟨⟨hkey, hsame⟩, hrest⟩)
            (fun f _ => fieldChars_start f (by decide)) (fun g _ => fieldChars_start g (by decide))
            (List.cons.inj h).2
          obtain ⟨hkeys, hvalues⟩ := keys_values_of_forall₂
            (R := fun v w => Json.Same v.reparse w.reparse) hall
          refine ⟨?_, hrest⟩
          rw [Json.reparse, Json.reparse, Json.reparseFields_eq, Json.reparseFields_eq]
          refine .obj ((hperm fields).symm.map _) ?_ ?_ ((hperm other).map _)
          · rwa [map_values_keys, map_values_keys]
          · rw [map_values_values, map_values_values]
            exact List.forall₂_map_left_iff.mpr (List.forall₂_map_right_iff.mpr hvalues)
      | bool b => cases b <;> simp [valueKind] at hk
      | num n => cases n <;> simp [valueKind] at hk
      | _ => simp [valueKind] at hk

/-- Values with the same text are the same up to the order of keys, once the numbers that are not
finite are `null`. -/
theorem same_of_stableChars {v w : Json} (h : stableChars numText le v = stableChars numText le w) :
    Json.Same v.reparse w.reparse :=
  (same_of_append hn v w [] [] delimited_nil delimited_nil (by rw [h])).1

/-- A text is not a prefix of another one, but for what may follow a value. -/
theorem stableChars_append_inj {v w : Json} {r r' : List Char} (hr : Delimited r)
    (hr' : Delimited r') (h : stableChars numText le v ++ r = stableChars numText le w ++ r') :
    stableChars numText le v = stableChars numText le w ∧ r = r' := by
  obtain rfl := (same_of_append hn v w r r' hr hr' h).2
  exact ⟨List.append_cancel_right h, rfl⟩

/-- The text of an array keeps when, and only when, the texts of its elements do. -/
theorem stableChars_arr_map_iff (g : Json → Json) (xs : List Json) :
    stableChars numText le (.arr (xs.map g)) = stableChars numText le (.arr xs) ↔
      ∀ x ∈ xs, stableChars numText le (g x) = stableChars numText le x := by
  refine ⟨fun h => ?_, stableChars_arr_map g xs⟩
  rw [stableChars, stableChars, stableElements_eq, stableElements_eq, List.map_map] at h
  obtain ⟨hall, -⟩ := commas_inj
    (fun x y => stableChars numText le (g x) = stableChars numText le y)
    (stableChars numText le ∘ g) (stableChars numText le) ']' rfl (by decide)
    (fun x _ y _ r r' hr hr' h => stableChars_append_inj hn hr hr' h)
    (fun x _ => stableChars_start hn (g x) rfl) (fun y _ => stableChars_start hn y rfl)
    (List.cons.inj h).2
  exact List.forall₂_same.mp hall

/-- A written field is not a prefix of another one. -/
theorem fieldChars_append_inj {f f' : String × Json} {r r' : List Char} (hr : Delimited r)
    (hr' : Delimited r') (h : fieldChars numText le f ++ r = fieldChars numText le f' ++ r') :
    stableChars numText le f.2 = stableChars numText le f'.2 ∧ r = r' := by
  rw [fieldChars, fieldChars, fieldText, fieldText, List.append_assoc, List.append_assoc] at h
  exact stableChars_append_inj hn hr hr' (List.cons.inj (quote_append_inj h).2).2

/-- The text of an object keeps when, and only when, the texts of its values do. -/
theorem stableChars_obj_map_iff (g : Json → Json) (fields : List (String × Json)) :
    stableChars numText le (.obj (fields.map fun f => (f.1, g f.2))) =
        stableChars numText le (.obj fields) ↔
      ∀ f ∈ fields, stableChars numText le (g f.2) = stableChars numText le f.2 := by
  refine ⟨fun h => ?_, stableChars_obj_map g fields⟩
  have hcomp : (fieldChars numText le ∘ fun f : String × Json => (f.1, g f.2)) =
      fun f : String × Json => fieldChars numText le (f.1, g f.2) := rfl
  rw [stableChars_obj, stableChars_obj, sortedFields_map, List.map_map, hcomp] at h
  obtain ⟨hall, -⟩ := commas_inj
    (fun f f' => stableChars numText le (g f.2) = stableChars numText le f'.2)
    (fun f : String × Json => fieldChars numText le (f.1, g f.2)) (fieldChars numText le) '\x7d' rfl
    (by decide) (fun f _ f' _ r r' hr hr' h => fieldChars_append_inj hn hr hr' h)
    (fun f _ => fieldChars_start (f.1, g f.2) (by decide))
    (fun f _ => fieldChars_start f (by decide)) (List.cons.inj h).2
  exact fun f hf => List.forall₂_same.mp hall f ((mem_sortedFields f).mpr hf)

end Injective

/-! ## Values that are written alike -/

namespace Json

/-- The value is written `null`. -/
def unset : Json → Bool
  | null => true
  | num (.fin _) => false
  | num _ => true
  | _ => false

mutual

/-- The value with `u` in the place of every value that is written `null`. -/
def fillUnset (u : Json) : Json → Json
  | null => u
  | num (.fin q) => num (.fin q)
  | num _ => u
  | arr xs => arr (fillElements u xs)
  | obj fields => obj (fillFields u fields)
  | v => v

def fillElements (u : Json) : List Json → List Json
  | [] => []
  | x :: xs => fillUnset u x :: fillElements u xs

def fillFields (u : Json) : List (String × Json) → List (String × Json)
  | [] => []
  | (key, v) :: fields => (key, fillUnset u v) :: fillFields u fields

end

mutual

/-- A value inside this one, or this one, satisfies `p`. -/
def any (p : Json → Bool) : Json → Bool
  | arr xs => p (arr xs) || anyElement p xs
  | obj fields => p (obj fields) || anyField p fields
  | v => p v

def anyElement (p : Json → Bool) : List Json → Bool
  | [] => false
  | x :: xs => any p x || anyElement p xs

def anyField (p : Json → Bool) : List (String × Json) → Bool
  | [] => false
  | (_, v) :: fields => any p v || anyField p fields

end

-- As above: the equations are made once.
section Equations

attribute [local simp] fillUnset fillElements fillFields any anyElement anyField

end Equations

theorem fillElements_eq (u : Json) (xs : List Json) : fillElements u xs = xs.map (fillUnset u) := by
  induction xs with
  | nil => rfl
  | cons x xs ih => rw [fillElements, ih, List.map_cons]

theorem fillFields_eq (u : Json) (fields : List (String × Json)) :
    fillFields u fields = fields.map fun f => (f.1, fillUnset u f.2) := by
  induction fields with
  | nil => rfl
  | cons f fields ih => rw [fillFields, ih, List.map_cons]

theorem anyElement_eq (p : Json → Bool) (xs : List Json) : anyElement p xs = xs.any (any p) := by
  induction xs with
  | nil => rfl
  | cons x xs ih => rw [anyElement, ih, List.any_cons]

theorem anyField_eq (p : Json → Bool) (fields : List (String × Json)) :
    anyField p fields = (fields.map Prod.snd).any (any p) := by
  induction fields with
  | nil => rfl
  | cons f fields ih => rw [anyField, ih, List.map_cons, List.any_cons]

/-- Serialisation puts `null` in these places. -/
theorem reparse_eq_fillUnset (v : Json) : v.reparse = fillUnset .null v := by
  induction v using Json.inductionOn with
  | num n => cases n <;> rfl
  | arr xs ih =>
      rw [reparse, fillUnset, reparseElements_eq, fillElements_eq, List.map_congr_left ih]
  | obj fields ih =>
      rw [reparse, fillUnset, reparseFields_eq, fillFields_eq,
        List.map_congr_left fun f hf => by rw [ih f hf]]
  | _ => rfl

variable {numText : ℚ → String} {le : String → String → Bool} {u v w : Json} {p : Json → Bool}

theorem stableChars_of_unset (hv : v.unset = true) : stableChars numText le v = "null".toList := by
  cases v with
  | null => rfl
  | num n =>
      cases n with
      | fin q => cases hv
      | _ => rfl
  | _ => cases hv

/-- The text stays the same when what is written `null` is replaced by what is written `null`. -/
theorem stableChars_fillUnset (hu : u.unset = true) (v : Json) :
    stableChars numText le (fillUnset u v) = stableChars numText le v := by
  induction v using Json.inductionOn with
  | null => exact stableChars_of_unset hu
  | num n =>
      cases n with
      | fin q => rfl
      | _ => exact stableChars_of_unset hu
  | arr xs ih =>
      rw [fillUnset, fillElements_eq]
      exact stableChars_arr_map _ xs ih
  | obj fields ih =>
      rw [fillUnset, fillFields_eq]
      exact stableChars_obj_map _ fields ih
  | _ => rfl

/-- A value that holds nothing written `null` has nothing to replace. -/
theorem fillUnset_of_plain (hv : v.any unset = false) : fillUnset u v = v := by
  induction v using Json.inductionOn with
  | null => cases hv
  | num n =>
      cases n with
      | fin q => rfl
      | _ => cases hv
  | arr xs ih =>
      simp only [any, unset, Bool.false_or, anyElement_eq, List.any_eq_false] at hv
      rw [fillUnset, fillElements_eq, List.map_congr_left fun x hx => ih x hx (by simpa using hv x hx),
        List.map_id']
  | obj fields ih =>
      simp only [any, unset, Bool.false_or, anyField_eq, List.any_eq_false, List.mem_map,
        forall_exists_index, and_imp, forall_apply_eq_imp_iff₂] at hv
      rw [fillUnset, fillFields_eq,
        List.map_congr_left fun f hf => by rw [ih f hf (by simpa using hv f hf)], List.map_id']
  | _ => rfl

/-- What replaces is not found where it does not satisfy `p`, when `p` speaks of what is written
`null`. -/
theorem any_fillUnset (hp : ∀ v, p v = true → v.unset = true) (hu : u.any p = false) :
    (fillUnset u v).any p = false := by
  have hnot : ∀ v : Json, v.unset = false → p v = false := by
    intro v hv
    by_contra h
    rw [Bool.not_eq_false] at h
    rw [hp v h] at hv
    cases hv
  induction v using Json.inductionOn with
  | null => exact hu
  | num n =>
      cases n with
      | fin q => exact hnot _ rfl
      | _ => exact hu
  | arr xs ih =>
      rw [fillUnset, any, hnot _ rfl, anyElement_eq, fillElements_eq]
      simpa using ih
  | obj fields ih =>
      rw [fillUnset, any, hnot _ rfl, anyField_eq, fillFields_eq, map_values_values]
      simpa using fun key v hv => ih (key, v) hv
  | bool b => exact hnot _ rfl
  | str s => exact hnot _ rfl

/-- Whether anything is written `null` does not change when such values are replaced by such. -/
theorem any_unset_fillUnset (hu : u.unset = true) : (fillUnset u v).any unset = v.any unset := by
  have hany : u.any unset = true := by
    cases u <;> first | exact hu | cases hu
  induction v using Json.inductionOn with
  | null => exact hany
  | num n =>
      cases n with
      | fin q => rfl
      | _ => exact hany
  | arr xs ih =>
      rw [fillUnset, any, any, anyElement_eq, anyElement_eq, fillElements_eq, List.any_map]
      have hxs : xs.any (any unset ∘ fillUnset u) = xs.any (any unset) := by
        rw [Bool.eq_iff_iff, List.any_eq_true, List.any_eq_true]
        exact exists_congr fun x => and_congr_right fun hx => by rw [Function.comp_apply, ih x hx]
      rw [hxs]
      rfl
  | obj fields ih =>
      rw [fillUnset, any, any, anyField_eq, anyField_eq, fillFields_eq, List.any_map, List.any_map,
        List.any_map]
      have hfields : fields.any ((any unset ∘ Prod.snd) ∘ fun f => (f.1, fillUnset u f.2)) =
          fields.any (any unset ∘ Prod.snd) := by
        rw [Bool.eq_iff_iff, List.any_eq_true, List.any_eq_true]
        exact exists_congr fun f => and_congr_right fun hf => by
          simp only [Function.comp_apply, ih f hf]
      rw [hfields]
      rfl
  | _ => rfl

theorem any_of_forall₂ {R : Json → Json → Prop} {q : Json → Bool} {vs ws : List Json}
    (h : List.Forall₂ R vs ws) (hq : ∀ v ∈ vs, ∀ w, R v w → q v = q w) : vs.any q = ws.any q := by
  induction h with
  | nil => rfl
  | cons hvw _ ih =>
      rw [List.any_cons, List.any_cons, hq _ List.mem_cons_self _ hvw,
        ih fun v hv => hq v (List.mem_cons_of_mem _ hv)]

/-- The same value holds the same. -/
theorem Same.any_eq (hp : ∀ v w, Same v w → p v = p w) : ∀ w, Same v w → v.any p = w.any p := by
  induction v using Json.inductionOn with
  | arr xs ih =>
      intro w h
      have hhead := hp _ _ h
      cases h with
      | @arr _ ys h =>
          rw [any, any, anyElement_eq, anyElement_eq, hhead, any_of_forall₂ h ih]
  | obj fields ih =>
      intro w h
      have hhead := hp _ _ h
      cases h with
      | @obj _ fields' other other' hperm _ hvalues hperm' =>
          have hmem : ∀ v ∈ fields'.map Prod.snd, ∀ w, Same v w → v.any p = w.any p := by
            intro v hv
            obtain ⟨f, hf, rfl⟩ := List.mem_map.mp hv
            exact ih f (hperm.mem_iff.mpr hf)
          rw [any, any, anyField_eq, anyField_eq, hhead, (hperm.map Prod.snd).any_eq,
            any_of_forall₂ hvalues hmem, (hperm'.map Prod.snd).any_eq]
  | _ =>
      intro w h
      cases h
      rfl

theorem any_or (p q : Json → Bool) (v : Json) :
    v.any (fun v => p v || q v) = (v.any p || v.any q) := by
  induction v using Json.inductionOn with
  | arr xs ih =>
      have hxs : xs.any (any fun v => p v || q v) = (xs.any (any p) || xs.any (any q)) := by
        rw [Bool.eq_iff_iff, Bool.or_eq_true, List.any_eq_true, List.any_eq_true, List.any_eq_true,
          ← exists_or]
        refine exists_congr fun x => ?_
        rw [← and_or_left, ← Bool.or_eq_true]
        exact and_congr_right fun hx => by rw [ih x hx]
      simp only [any, anyElement_eq, hxs]
      ac_rfl
  | obj fields ih =>
      have hfields : (fields.map Prod.snd).any (any fun v => p v || q v) =
          ((fields.map Prod.snd).any (any p) || (fields.map Prod.snd).any (any q)) := by
        rw [Bool.eq_iff_iff, Bool.or_eq_true, List.any_eq_true, List.any_eq_true, List.any_eq_true,
          ← exists_or]
        refine exists_congr fun x => ?_
        rw [← and_or_left, ← Bool.or_eq_true]
        refine and_congr_right fun hx => ?_
        obtain ⟨f, hf, rfl⟩ := List.mem_map.mp hx
        rw [ih f hf]
      simp only [any, anyField_eq, hfields]
      ac_rfl
  | _ => rfl

/-- The value is `null`. -/
def isNull : Json → Bool
  | null => true
  | _ => false

/-- The value is a number that is not finite. -/
def isInfinite : Json → Bool
  | num (.fin _) => false
  | num _ => true
  | _ => false

theorem unset_eq : unset = fun v => isNull v || isInfinite v := by
  funext v
  cases v with
  | num n => cases n <;> rfl
  | _ => rfl

/-- What is written `null` can be replaced so that the value is not the same any more: every `null` by
an infinity, or every number that is not finite by `null`. -/
theorem exists_not_same (hv : v.any unset = true) :
    ∃ u : Json, u.unset = true ∧ ¬ Same v (fillUnset u v) := by
  rw [unset_eq, any_or, Bool.or_eq_true] at hv
  rcases hv with hv | hv
  · refine ⟨.num .posInf, rfl, fun hsame => ?_⟩
    have hgone : (fillUnset (.num .posInf) v).any isNull = false :=
      any_fillUnset (fun v hv => by rw [unset_eq]; simp [hv]) rfl
    rw [hsame.any_eq (fun v w h => by cases h <;> rfl), hgone] at hv
    cases hv
  · refine ⟨.null, rfl, fun hsame => ?_⟩
    have hgone : (fillUnset .null v).any isInfinite = false :=
      any_fillUnset (fun v hv => by rw [unset_eq]; simp [hv]) rfl
    rw [hsame.any_eq (fun v w h => by cases h <;> rfl), hgone] at hv
    cases hv

/-- Values with the same text, the first of which holds nothing written `null`, are the same. -/
theorem same_of_plain (hn : NumberText numText) (hv : v.any unset = false)
    (h : stableChars numText le v = stableChars numText le w) : Same v w := by
  have hsame := same_of_stableChars hn h
  rw [reparse_eq_fillUnset, reparse_eq_fillUnset, fillUnset_of_plain hv] at hsame
  have hw : w.any unset = false := by
    rw [← any_unset_fillUnset (u := .null) rfl, ← hsame.any_eq (fun v w h => by cases h <;> rfl), hv]
  rwa [fillUnset_of_plain hw] at hsame

/-! ## Properties -/

theorem get?_map (g : Json → Json) (fields : List (String × Json)) (key : String) :
    get? (.obj (fields.map fun f => (f.1, g f.2))) key = (get? (.obj fields) key).map g := by
  induction fields with
  | nil => rfl
  | cons f fields ih =>
      by_cases hk : f.1 = key
      · simp [get?, hk]
      · simpa [get?, hk] using ih

theorem Same.refl (v : Json) : Same v v := by
  induction v using Json.inductionOn with
  | null => exact .null
  | bool b => exact .bool b
  | num n => exact .num n
  | str s => exact .str s
  | arr xs ih => exact .arr (List.forall₂_same.mpr ih)
  | obj fields ih =>
      refine .obj .rfl rfl (List.forall₂_same.mpr fun v hv => ?_) .rfl
      obtain ⟨f, hf, rfl⟩ := List.mem_map.mp hv
      exact ih f hf

/-- Of two lists with the same keys and values that agree, each field of one has a field of the
other. -/
theorem exists_field {R : Json → Json → Prop} {fields other : List (String × Json)} {f : String × Json}
    (hkeys : fields.map Prod.fst = other.map Prod.fst)
    (hvalues : List.Forall₂ R (fields.map Prod.snd) (other.map Prod.snd)) (hf : f ∈ fields) :
    ∃ w, R f.2 w ∧ (f.1, w) ∈ other := by
  induction fields generalizing other with
  | nil => cases hf
  | cons f' fields ih =>
      cases other with
      | nil => cases hkeys
      | cons g other =>
          rw [List.map_cons, List.map_cons, List.cons.injEq] at hkeys
          rw [List.map_cons, List.map_cons, List.forall₂_cons] at hvalues
          rcases List.mem_cons.mp hf with rfl | hf
          · exact ⟨g.2, hvalues.1, by rw [hkeys.1]; exact List.mem_cons_self⟩
          · obtain ⟨w, hw, hmem⟩ := ih hkeys.2 hvalues.2 hf
            exact ⟨w, hw, List.mem_cons_of_mem _ hmem⟩

/-- Objects that are the same have the same properties. -/
theorem Same.get?_rel {fields other : List (String × Json)} (h : Same (.obj fields) (.obj other))
    (hn : (fields.map Prod.fst).Nodup) (hn' : (other.map Prod.fst).Nodup) (key : String) :
    Option.Rel Same (get? (.obj fields) key) (get? (.obj other) key) := by
  cases h with
  | @obj _ fields' _ other' hperm hkeys hvalues hperm' =>
      cases hv : get? (.obj fields) key with
      | some v =>
          have hmem := hperm.mem_iff.mp ((get?_eq_some_iff hn).mp hv)
          obtain ⟨w, hsame, hw⟩ := exists_field hkeys hvalues hmem
          rw [(get?_eq_some_iff hn').mpr (hperm'.mem_iff.mp hw)]
          exact .some hsame
      | none =>
          cases hw : get? (.obj other) key with
          | none => exact .none
          | some w =>
              have hmem := hperm'.mem_iff.mpr ((get?_eq_some_iff hn').mp hw)
              obtain ⟨v, -, hv'⟩ := exists_field (R := fun w v => Same v w) hkeys.symm
                hvalues.flip hmem
              rw [(get?_eq_some_iff hn).mpr (hperm.mem_iff.mpr hv')] at hv
              cases hv

end Json
