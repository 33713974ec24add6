import Vops.AgentControl.Digest
import Vops.Lib.JsonRead

/-!
# The text of a plan (`stableStringify` of `agent-api/plan-store.ts`)

* `JsValue` — a value as a program holds it: members of objects may be undefined.
* `JsValue.defined` — the value without them; `stableText` — `stableStringify`; `stringify` —
  `JSON.stringify`.
* `NumberReader` — how the texts of numbers are read.
* `spellingReader` — a reader of the numbers that are spelled out.
* `stableText_eq` — the text is the one of what is defined.
* `stableText_canonical` — values have one text exactly when they are the same up to the order of
  keys and to what is undefined; and a value that is written and read back has the same text.
-/

namespace Vops.PlanStore

/-! ## Values -/

/-- A value whose objects may have undefined members. -/
inductive JsValue
  | null
  | bool (b : Bool)
  | num (q : ℚ)
  | str (s : String)
  | arr (xs : List JsValue)
  | obj (fields : List (String × Option JsValue))

mutual

/-- The value without the members that are undefined. -/
def JsValue.defined : JsValue → Json
  | .null => .null
  | .bool b => .bool b
  | .num q => .num (.fin q)
  | .str s => .str s
  | .arr xs => .arr (definedElements xs)
  | .obj fields => .obj (definedMembers fields)

def JsValue.definedElements : List JsValue → List Json
  | [] => []
  | x :: xs => x.defined :: definedElements xs

def JsValue.definedMembers : List (String × Option JsValue) → List (String × Json)
  | [] => []
  | (_, none) :: fields => definedMembers fields
  | (key, some v) :: fields => (key, v.defined) :: definedMembers fields

end

mutual

/-- `stableStringify(value)`: the members that are not undefined, by the order of their keys. -/
def stableText (numText : ℚ → String) (localeLe : String → String → Bool) : JsValue → List Char
  | .null => "null".toList
  | .bool b => if b then "true".toList else "false".toList
  | .num q => (numText q).toList
  | .str s => quote s
  | .arr xs => '[' :: (commas (stableElementTexts numText localeLe xs) ++ [']'])
  | .obj fields =>
      '\x7b' :: (commas (((stableMembers numText localeLe fields).insertionSort
        fun f g => localeLe f.1 g.1 = true).map fieldText) ++ ['\x7d'])

def stableElementTexts (numText : ℚ → String) (localeLe : String → String → Bool) :
    List JsValue → List (List Char)
  | [] => []
  | x :: xs => stableText numText localeLe x :: stableElementTexts numText localeLe xs

def stableMembers (numText : ℚ → String) (localeLe : String → String → Bool) :
    List (String × Option JsValue) → List (String × List Char)
  | [] => []
  | (_, none) :: fields => stableMembers numText localeLe fields
  | (key, some v) :: fields =>
      (key, stableText numText localeLe v) :: stableMembers numText localeLe fields

end

/-- No object has two members of one key. -/
inductive JsValue.DistinctKeys : JsValue → Prop
  | null : DistinctKeys .null
  | bool (b : Bool) : DistinctKeys (.bool b)
  | num (q : ℚ) : DistinctKeys (.num q)
  | str (s : String) : DistinctKeys (.str s)
  | arr {xs : List JsValue} (h : ∀ x ∈ xs, DistinctKeys x) : DistinctKeys (.arr xs)
  | obj {fields : List (String × Option JsValue)}
      (h : ∀ f ∈ fields, ∀ v ∈ f.2, DistinctKeys v) (hkeys : Table.Keyed Prod.fst fields) :
      DistinctKeys (.obj fields)

/-- Induction over the values, with the members that are defined. -/
@[elab_as_elim]
theorem JsValue.inductionOn {P : JsValue → Prop} (null : P .null) (bool : ∀ b, P (.bool b))
    (num : ∀ q, P (.num q)) (str : ∀ s, P (.str s)) (arr : ∀ xs, (∀ x ∈ xs, P x) → P (.arr xs))
    (obj : ∀ fields : List (String × Option JsValue), (∀ f ∈ fields, ∀ v ∈ f.2, P v) →
      P (.obj fields)) (u : JsValue) : P u := by
  match u with
  | .null => exact null
  | .bool b => exact bool b
  | .num q => exact num q
  | .str s => exact str s
  | .arr xs => exact arr xs fun x hx => JsValue.inductionOn null bool num str arr obj x
  | .obj fields =>
      exact obj fields fun f hf v hv => JsValue.inductionOn null bool num str arr obj v
termination_by sizeOf u
decreasing_by
  · have hlt := List.sizeOf_lt_of_mem hx
    simp only [JsValue.arr.sizeOf_spec]
    omega
  · have hlt := List.sizeOf_lt_of_mem hf
    obtain ⟨key, member⟩ := f
    obtain rfl : member = some v := hv
    simp only [JsValue.obj.sizeOf_spec, Prod.mk.sizeOf_spec, Option.some.sizeOf_spec] at hlt ⊢
    omega

/-! ## What is defined -/

theorem definedElements_eq (xs : List JsValue) :
    JsValue.definedElements xs = xs.map JsValue.defined := by
  induction xs with
  | nil => rfl
  | cons x xs ih => rw [JsValue.definedElements, ih, List.map_cons]

/-- A member, where it is defined. -/
def definedMember (f : String × Option JsValue) : Option (String × Json) :=
  f.2.map fun v => (f.1, v.defined)

theorem filterMap_definedMember_none (key : String) (fields : List (String × Option JsValue)) :
    ((key, none) :: fields).filterMap definedMember = fields.filterMap definedMember := rfl

theorem filterMap_definedMember_some (key : String) (v : JsValue)
    (fields : List (String × Option JsValue)) :
    ((key, some v) :: fields).filterMap definedMember =
      (key, v.defined) :: fields.filterMap definedMember := rfl

theorem definedMembers_eq (fields : List (String × Option JsValue)) :
    JsValue.definedMembers fields = fields.filterMap definedMember := by
  induction fields with
  | nil => rfl
  | cons f fields ih =>
      obtain ⟨key, member⟩ := f
      cases member with
      | none => rw [JsValue.definedMembers, ih, filterMap_definedMember_none]
      | some v => rw [JsValue.definedMembers, ih, filterMap_definedMember_some]

theorem mem_definedMembers {fields : List (String × Option JsValue)} {g : String × Json}
    (h : g ∈ JsValue.definedMembers fields) :
    ∃ f ∈ fields, ∃ v ∈ f.2, g = (f.1, v.defined) := by
  rw [definedMembers_eq] at h
  obtain ⟨f, hf, hg⟩ := List.mem_filterMap.mp h
  obtain ⟨v, hv, rfl⟩ := Option.map_eq_some_iff.mp hg
  exact ⟨f, hf, v, hv, rfl⟩

/-- The keys of the members that are defined. -/
theorem keys_definedMembers (fields : List (String × Option JsValue)) :
    ((JsValue.definedMembers fields).map Prod.fst).Sublist (fields.map Prod.fst) := by
  rw [definedMembers_eq]
  induction fields with
  | nil => exact List.Sublist.refl _
  | cons f fields ih =>
      obtain ⟨key, member⟩ := f
      cases member with
      | none =>
          rw [filterMap_definedMember_none]
          exact ih.cons key
      | some v =>
          rw [filterMap_definedMember_some]
          exact ih.cons_cons key

theorem distinctKeys_defined {u : JsValue} (hu : u.DistinctKeys) : u.defined.DistinctKeys := by
  induction u using JsValue.inductionOn with
  | null => exact .null
  | bool b => exact .bool b
  | num q => exact .num _
  | str s => exact .str s
  | arr xs ih =>
      cases hu with
      | arr h =>
          refine .arr fun y hy => ?_
          rw [definedElements_eq] at hy
          obtain ⟨x, hx, rfl⟩ := List.mem_map.mp hy
          exact ih x hx (h x hx)
  | obj fields ih =>
      cases hu with
      | obj h hkeys =>
          refine .obj (fun g hg => ?_) (hkeys.sublist (keys_definedMembers fields))
          obtain ⟨f, hf, v, hv, rfl⟩ := mem_definedMembers hg
          exact ih f hf v hv (h f hf v hv)

/-- Its numbers are finite. -/
theorem reparse_defined (u : JsValue) : u.defined.reparse = u.defined := by
  induction u using JsValue.inductionOn with
  | null => rfl
  | bool b => rfl
  | num q => rfl
  | str s => rfl
  | arr xs ih =>
      have hsame : ∀ y ∈ JsValue.definedElements xs, y.reparse = id y := by
        intro y hy
        rw [definedElements_eq] at hy
        obtain ⟨x, hx, rfl⟩ := List.mem_map.mp hy
        exact ih x hx
      rw [JsValue.defined, Json.reparse, Json.reparseElements_eq, List.map_congr_left hsame,
        List.map_id]
  | obj fields ih =>
      have hsame : ∀ g ∈ JsValue.definedMembers fields, (g.1, g.2.reparse) = id g := by
        intro g hg
        obtain ⟨f, hf, v, hv, rfl⟩ := mem_definedMembers hg
        exact Prod.ext rfl (ih f hf v hv)
      rw [JsValue.defined, Json.reparse, Json.reparseFields_eq, List.map_congr_left hsame,
        List.map_id]

section Text

variable {numText : ℚ → String} {localeLe : String → String → Bool}

theorem stableElementTexts_eq (xs : List JsValue) :
    stableElementTexts numText localeLe xs = xs.map (stableText numText localeLe) := by
  induction xs with
  | nil => rfl
  | cons x xs ih => rw [stableElementTexts, ih, List.map_cons]

/-- The text is the one of what is defined. -/
theorem stableText_eq (u : JsValue) :
    stableText numText localeLe u = stableChars numText localeLe u.defined := by
  induction u using JsValue.inductionOn with
  | null => rfl
  | bool b => rfl
  | num q => rfl
  | str s => rfl
  | arr xs ih =>
      have htexts : xs.map (stableText numText localeLe) =
          (xs.map JsValue.defined).map (stableChars numText localeLe) := by
        rw [List.map_map]
        exact List.map_congr_left ih
      rw [stableText, JsValue.defined, stableChars, stableElements_eq, definedElements_eq,
        stableElementTexts_eq, htexts]
  | obj fields ih =>
      have hmembers : stableMembers numText localeLe fields =
          stableFields numText localeLe (JsValue.definedMembers fields) := by
        induction fields with
        | nil => rfl
        | cons f fields ihf =>
            obtain ⟨hfirst, hrest⟩ := List.forall_mem_cons.mp ih
            obtain ⟨key, member⟩ := f
            cases member with
            | none => rw [stableMembers, JsValue.definedMembers, ihf hrest]
            | some v =>
                rw [stableMembers, JsValue.definedMembers, stableFields, ihf hrest, hfirst v rfl]
      rw [stableText, JsValue.defined, stableChars, hmembers]

end Text

/-! ## Writing and reading -/

/-- How the texts of numbers are read: what was written is read back. -/
structure NumberReader (numText : ℚ → String) where
  read : List Char → Option JsNum
  read_text : ∀ q, read (numText q).toList = some (.fin q)

variable {numText : ℚ → String}

/-- The numbers of the texts of values. -/
def numberFormat (hn : NumberText numText) (reader : NumberReader numText) : NumberFormat where
  IsNumber _ := True
  write q := (numText q).toList
  read := reader.read
  write_ne_nil q _ := hn.ne_empty q
  write_chars q _ := hn.chars q
  read_write q _ := reader.read_text q

/-- `JSON.stringify(u)` -/
def stringify (hn : NumberText numText) (reader : NumberReader numText) (u : JsValue) : List Char :=
  jsonText (numberFormat hn reader) u.defined

theorem written_defined (fmt : NumberFormat) (hfmt : ∀ q, fmt.IsNumber q) (u : JsValue) :
    u.defined.Written fmt := by
  induction u using JsValue.inductionOn with
  | null => exact .null
  | bool b => exact .bool b
  | num q => exact .num (hfmt q)
  | str s => exact .str s
  | arr xs ih =>
      refine .arr fun y hy => ?_
      rw [definedElements_eq] at hy
      obtain ⟨x, hx, rfl⟩ := List.mem_map.mp hy
      exact ih x hx
  | obj fields ih =>
      refine .obj fun g hg => ?_
      obtain ⟨f, hf, v, hv, rfl⟩ := mem_definedMembers hg
      exact ih f hf v hv

/-! ## Numbers that are spelled out -/

/-- A number without its sign, as it is spelled. -/
def readFraction (cs : List Char) : ℚ :=
  match cs.dropWhile Char.isDigit with
  | [] => Nat.ofDigitChars 10 (cs.takeWhile Char.isDigit) 0
  | _ :: digits =>
      Nat.ofDigitChars 10 (cs.takeWhile Char.isDigit) 0 / Nat.ofDigitChars 10 digits 0

/-- The number that is spelled so. -/
def readSpelled : List Char → ℚ
  | '-' :: cs => -readFraction cs
  | cs => readFraction cs

theorem readFraction_spelled (n d : ℕ) :
    readFraction (Nat.toDigits 10 n ++ denominatorChars d) = n / d := by
  have hdigits : ∀ c ∈ Nat.toDigits 10 n, Char.isDigit c = true := isDigit_of_mem_toDigits
  have hn : Nat.ofDigitChars 10 (Nat.toDigits 10 n) 0 = n := by
    simp
  by_cases hd : d = 1
  · simp [readFraction, denominatorChars, hd, List.takeWhile_eq_self_iff.mpr hdigits,
      List.dropWhile_eq_nil_iff.mpr hdigits]
  · simp [readFraction, denominatorChars, hd, List.takeWhile_append_of_pos hdigits,
      List.dropWhile_append_of_pos hdigits]

theorem readSpelled_spelledNumber (q : ℚ) : readSpelled (spelledNumber q).toList = q := by
  have hq : ((q.num.natAbs : ℕ) : ℚ) / q.den = |q| := by
    rw [Rat.abs_def, Rat.divInt_eq_div, Int.cast_natCast, Int.cast_natCast]
  rw [spelledNumber, String.toList_ofList]
  by_cases hneg : q.num < 0
  · rw [if_pos hneg, List.singleton_append, readSpelled, readFraction_spelled, hq,
      abs_of_neg (Rat.num_neg.mp hneg), neg_neg]
  · have hdigits : readSpelled (Nat.toDigits 10 q.num.natAbs ++ denominatorChars q.den) =
        readFraction (Nat.toDigits 10 q.num.natAbs ++ denominatorChars q.den) := by
      rw [readSpelled]
      intro cs hcs
      exact minus_ne_digits hcs.symm
    rw [if_neg hneg, List.nil_append, hdigits, readFraction_spelled, hq,
      abs_of_nonneg (Rat.num_nonneg.mp (not_lt.mp hneg))]

/-- A reader of the numbers that are spelled out. -/
def spellingReader : NumberReader Env.spelling.numText where
  read cs := some (.fin (readSpelled cs))
  read_text q := by rw [show Env.spelling.numText q = spelledNumber q from rfl,
    readSpelled_spelledNumber]

/-- The order of the characters. -/
def codeLe (a b : String) : Bool := decide (a ≤ b)

theorem keyOrder_codeLe : KeyOrder codeLe where
  total a b := by simpa [codeLe] using String.le_total a b
  trans a b c hab hbc := by
    simp only [codeLe, decide_eq_true_eq] at hab hbc ⊢
    exact String.le_trans hab hbc
  antisymm a b hab hba := by
    simp only [codeLe, decide_eq_true_eq] at hab hba
    exact String.le_antisymm hab hba

/-! ## One text -/

/-- Values have one text exactly when they are the same up to the order of keys and to the members
that are undefined; and a value that is written and read back has the same text. -/
theorem stableText_canonical (hn : NumberText numText) (reader : NumberReader numText)
    {localeLe : String → String → Bool} (hle : KeyOrder localeLe) {u v : JsValue}
    (hu : u.DistinctKeys) (hv : v.DistinctKeys) :
    (stableText numText localeLe u = stableText numText localeLe v ↔
      Json.Same u.defined v.defined) ∧
    ∃ w, jsonParse (numberFormat hn reader) (stringify hn reader u) = some w ∧
      stableChars numText localeLe w = stableText numText localeLe u := by
  have hdistinct := distinctKeys_defined hu
  refine ⟨?_, u.defined, ?_, (stableText_eq u).symm⟩
  · rw [stableText_eq, stableText_eq]
    exact stableChars_iff hn hle hdistinct (distinctKeys_defined hv) (reparse_defined u)
      (reparse_defined v)
  · rw [jsonParse, stringify, readText_jsonText (written_defined _ (fun _ => True.intro) u),
      Option.map_some, Json.merged_of_distinctKeys hdistinct]

/-- A target with its id and its name. -/
def sampleTarget : JsValue := .obj [("id", some (.num 3)), ("name", some (.str "db"))]

/-- The same target, the name first and a note that is undefined. -/
def sampleTurned : JsValue :=
  .obj [("name", some (.str "db")), ("note", none), ("id", some (.num 3))]

theorem distinctKeys_sampleTarget : sampleTarget.DistinctKeys := by
  refine .obj (fun f hf v hv => ?_) (by rw [Table.Keyed]; decide)
  simp only [List.mem_cons, List.not_mem_nil, or_false] at hf
  obtain rfl | rfl := hf <;> cases hv
  · exact .num 3
  · exact .str "db"

theorem distinctKeys_sampleTurned : sampleTurned.DistinctKeys := by
  refine .obj (fun f hf v hv => ?_) (by rw [Table.Keyed]; decide)
  simp only [List.mem_cons, List.not_mem_nil, or_false] at hf
  obtain rfl | rfl | rfl := hf <;> cases hv
  · exact .str "db"
  · exact .num 3

theorem stableText_canonical_turned :
    (stableText Env.spelling.numText codeLe sampleTarget =
        stableText Env.spelling.numText codeLe sampleTurned ↔
      Json.Same sampleTarget.defined sampleTurned.defined) ∧
    ∃ w, jsonParse (numberFormat numberText_spelling spellingReader)
        (stringify numberText_spelling spellingReader sampleTarget) = some w ∧
      stableChars Env.spelling.numText codeLe w =
        stableText Env.spelling.numText codeLe sampleTarget :=
  stableText_canonical numberText_spelling spellingReader keyOrder_codeLe distinctKeys_sampleTarget
    distinctKeys_sampleTurned

end Vops.PlanStore
