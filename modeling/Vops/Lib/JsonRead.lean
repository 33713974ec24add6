import Vops.Lib.JsonText
import Vops.Lib.Table

/-!
# Writing and reading JSON texts

* `NumberFormat` — how numbers are written and read.
* `jsonText` — `JSON.stringify`, the keys of an object in their order.
* `JsonReader.step`, `readText` — a text is read character by character, with a stack of the values
  that are not yet closed; `jsonParse` — `JSON.parse`: of two fields with one key the last counts.
* `readText_jsonText`, `jsonParse_jsonText` — what was written is read back.
* `Json.Shape` — the same value up to its strings; `Json.Shape.keysTell`, `Json.Shape.of_merged`.

Strings are sequences of Unicode characters: the escapes of surrogates are not read as such.
-/

/-! ## Numbers -/

/-- The characters of the numbers of a text. -/
def isNumeral (c : Char) : Bool := isNumberChar c || c == 'E'

/-- How numbers are written and read: what is written of a number of the format is read back. -/
structure NumberFormat where
  /-- The values of the numbers. -/
  IsNumber : ℚ → Prop
  write : ℚ → List Char
  read : List Char → Option JsNum
  write_ne_nil : ∀ q, IsNumber q → write q ≠ []
  write_chars : ∀ q, IsNumber q → ∀ c ∈ write q, isNumberChar c = true
  read_write : ∀ q, IsNumber q → read (write q) = some (.fin q)

variable (fmt : NumberFormat)

/-! ## Writing -/

mutual

/-- `JSON.stringify(v)` -/
def jsonText : Json → List Char
  | .null => "null".toList
  | .bool b => if b then "true".toList else "false".toList
  | .num (.fin q) => fmt.write q
  | .num _ => "null".toList
  | .str s => quote s
  | .arr xs => '[' :: (commas (elementTexts xs) ++ [']'])
  | .obj fields => '\x7b' :: (commas (fieldTexts fields) ++ ['\x7d'])

def elementTexts : List Json → List (List Char)
  | [] => []
  | x :: xs => jsonText x :: elementTexts xs

def fieldTexts : List (String × Json) → List (List Char)
  | [] => []
  | (key, v) :: fields => fieldText (key, jsonText v) :: fieldTexts fields

end

theorem elementTexts_eq (xs : List Json) : elementTexts fmt xs = xs.map (jsonText fmt) := by
  induction xs with
  | nil => rfl
  | cons x xs ih => rw [elementTexts, ih, List.map_cons]

theorem fieldTexts_eq (fields : List (String × Json)) :
    fieldTexts fmt fields = fields.map fun f => fieldText (f.1, jsonText fmt f.2) := by
  induction fields with
  | nil => rfl
  | cons f fields ih => rw [fieldTexts, ih, List.map_cons]

/-! ## Reading -/

namespace JsonReader

/-- What a string is: a value, or the key of the next field of an object. -/
inductive Role
  | value
  | key (fields : List (String × Json))

/-- A value that is not yet closed. -/
inductive Frame
  | arr (xs : List Json)
  | obj (fields : List (String × Json)) (key : String)

/-- The values that are written as a word. -/
inductive Word
  | true | false | null

def Word.text : Word → List Char
  | .true => "true".toList
  | .false => "false".toList
  | .null => "null".toList

def Word.value : Word → Json
  | .true => .bool Bool.true
  | .false => .bool Bool.false
  | .null => .null

/-- What comes next; `close` where the bracket may be closed at once. -/
inductive Mode
  | value (close : Bool)
  | key (close : Bool) (fields : List (String × Json))
  | colon (fields : List (String × Json)) (key : String)
  | done (v : Json)
  | string (role : Role) (acc : List Char)
  | escape (role : Role) (acc : List Char)
  | hex (role : Role) (acc : List Char) (left code : ℕ)
  | word (w : Word) (read : ℕ)
  | number (acc : List Char)

/-- A reader: what comes next, and the values that are open. -/
abbrev State := Mode × List Frame

/-- White space between the tokens. -/
def isSpace (c : Char) : Bool := c == ' ' || c == '\t' || c == '\n' || c == '\r'

/-- A character behind a value. -/
def close (v : Json) (stack : List Frame) (c : Char) : Option State :=
  if isSpace c then some (.done v, stack)
  else if c = ',' then
    match stack with
    | .arr xs :: stack => some (.value false, .arr (xs ++ [v]) :: stack)
    | .obj fields key :: stack => some (.key false (fields ++ [(key, v)]), stack)
    | [] => none
  else if c = ']' then
    match stack with
    | .arr xs :: stack => some (.done (.arr (xs ++ [v])), stack)
    | _ => none
  else if c = '\x7d' then
    match stack with
    | .obj fields key :: stack => some (.done (.obj (fields ++ [(key, v)])), stack)
    | _ => none
  else none

/-- The first character of a value. -/
def begin (stack : List Frame) (c : Char) : Option State :=
  if c = '"' then some (.string .value [], stack)
  else if c = '[' then some (.value true, .arr [] :: stack)
  else if c = '\x7b' then some (.key true [], stack)
  else if c = 't' then some (.word .true 1, stack)
  else if c = 'f' then some (.word .false 1, stack)
  else if c = 'n' then some (.word .null 1, stack)
  else if isNumeral c then some (.number [c], stack)
  else none

/-- The end of a string. -/
def endString (acc : List Char) : Role → Mode
  | .value => .done (.str (String.ofList acc))
  | .key fields => .colon fields (String.ofList acc)

/-- A hexadecimal digit. -/
def isHex (c : Char) : Bool :=
  c.isDigit || 'a' ≤ c && c ≤ 'f' || 'A' ≤ c && c ≤ 'F'

/-- The value of a hexadecimal digit, of either case. -/
def hexDigit (c : Char) : ℕ :=
  if c.isDigit then c.toNat - 48 else if 'a' ≤ c then c.toNat - 87 else c.toNat - 55

/-- The characters of the short escapes. -/
def isShort (c : Char) : Bool :=
  c == '"' || c == '\\' || c == '/' || c == 'b' || c == 'f' || c == 'n' || c == 'r' || c == 't'

/-- One more character of the text. -/
def step : State → Char → Option State
  | (.value closes, stack), c =>
      if isSpace c then some (.value closes, stack)
      else if closes ∧ c = ']' then
        match stack with
        | .arr [] :: stack => some (.done (.arr []), stack)
        | _ => none
      else begin stack c
  | (.key closes fields, stack), c =>
      if isSpace c then some (.key closes fields, stack)
      else if closes ∧ c = '\x7d' then some (.done (.obj []), stack)
      else if c = '"' then some (.string (.key fields) [], stack)
      else none
  | (.colon fields key, stack), c =>
      if isSpace c then some (.colon fields key, stack)
      else if c = ':' then some (.value false, .obj fields key :: stack)
      else none
  | (.done v, stack), c => close v stack c
  | (.string role acc, stack), c =>
      if c = '"' then some (endString acc role, stack)
      else if c = '\\' then some (.escape role acc, stack)
      else if c.toNat < 32 then none
      else some (.string role (acc ++ [c]), stack)
  | (.escape role acc, stack), c =>
      if c = 'u' then some (.hex role acc 3 0, stack)
      else if isShort c then some (.string role (acc ++ [unescapeChar c]), stack)
      else none
  | (.hex role acc left code, stack), c =>
      if isHex c then
        match left with
        | 0 => some (.string role (acc ++ [Char.ofNat (code * 16 + hexDigit c)]), stack)
        | left + 1 => some (.hex role acc left (code * 16 + hexDigit c), stack)
      else none
  | (.word w read, stack), c =>
      if w.text[read]? = some c then
        if read + 1 = w.text.length then some (.done w.value, stack)
        else some (.word w (read + 1), stack)
      else none
  | (.number acc, stack), c =>
      if isNumeral c then some (.number (acc ++ [c]), stack)
      else (fmt.read acc).bind fun n => close (.num n) stack c

/-- The value at the end of the text. -/
def finish : State → Option Json
  | (.done v, []) => some v
  | (.number acc, []) => (fmt.read acc).map .num
  | _ => none

/-- Read some more of the text. -/
def run (st : State) (cs : List Char) : Option State := cs.foldlM (step fmt) st

end JsonReader

/-- The value of a text, with the fields of every object as they stand. -/
def readText (cs : List Char) : Option Json :=
  (JsonReader.run fmt (.value false, []) cs).bind (JsonReader.finish fmt)

mutual

/-- The value with one field for each key: the last one counts, in the place of the first. -/
def Json.merged : Json → Json
  | .arr xs => .arr (mergedElements xs)
  | .obj fields => .obj ((mergedFields fields).foldl (fun out f => Table.upsert Prod.fst f out) [])
  | v => v

def Json.mergedElements : List Json → List Json
  | [] => []
  | x :: xs => x.merged :: mergedElements xs

def Json.mergedFields : List (String × Json) → List (String × Json)
  | [] => []
  | (key, v) :: fields => (key, v.merged) :: mergedFields fields

end

/-- `JSON.parse(text)`; `none` where it throws. -/
def jsonParse (cs : List Char) : Option Json := (readText fmt cs).map Json.merged

/-- Every number of the value is one of the format. -/
inductive Json.Written : Json → Prop
  | null : Json.Written .null
  | bool (b : Bool) : Json.Written (.bool b)
  | num {q : ℚ} (h : fmt.IsNumber q) : Json.Written (.num (.fin q))
  | str (s : String) : Json.Written (.str s)
  | arr {xs : List Json} (h : ∀ x ∈ xs, Json.Written x) : Json.Written (.arr xs)
  | obj {fields : List (String × Json)} (h : ∀ f ∈ fields, Json.Written f.2) :
      Json.Written (.obj fields)

/-- The keys of every object are different. -/
inductive Json.DistinctKeys : Json → Prop
  | null : Json.DistinctKeys .null
  | bool (b : Bool) : Json.DistinctKeys (.bool b)
  | num (n : JsNum) : Json.DistinctKeys (.num n)
  | str (s : String) : Json.DistinctKeys (.str s)
  | arr {xs : List Json} (h : ∀ x ∈ xs, Json.DistinctKeys x) : Json.DistinctKeys (.arr xs)
  | obj {fields : List (String × Json)} (h : ∀ f ∈ fields, Json.DistinctKeys f.2)
      (hkeys : Table.Keyed Prod.fst fields) : Json.DistinctKeys (.obj fields)

/-! ## What was written is read back -/

namespace JsonReader

variable {fmt} {st st' : State} {stack : List Frame} {role : Role} {acc : List Char}

theorem run_nil : run fmt st [] = some st := rfl

theorem run_cons {c : Char} {cs : List Char} :
    run fmt st (c :: cs) = (step fmt st c).bind fun st => run fmt st cs := by
  simp only [run, List.foldlM_cons]
  rfl

theorem run_append {cs ds : List Char} :
    run fmt st (cs ++ ds) = (run fmt st cs).bind fun st => run fmt st ds := by
  simp only [run, List.foldlM_append]
  rfl

/-- A control character is read from the digits of its escape. -/
theorem hexDigit_control : ∀ n < 32, isHex (Nat.digitChar (n / 16)) = true ∧
    isHex (Nat.digitChar (n % 16)) = true ∧
      hexDigit (Nat.digitChar (n / 16)) * 16 + hexDigit (Nat.digitChar (n % 16)) = n := by
  decide

/-- One character of a string. -/
theorem run_escapeChar (c : Char) :
    run fmt (.string role acc, stack) (escapeChar c) =
      some (.string role (acc ++ [c]), stack) := by
  unfold escapeChar
  by_cases h1 : c = '"'
  · subst h1
    rfl
  by_cases h2 : c = '\\'
  · subst h2
    rfl
  by_cases h3 : c = '\n'
  · subst h3
    rfl
  by_cases h4 : c = '\r'
  · subst h4
    rfl
  by_cases h5 : c = '\t'
  · subst h5
    rfl
  by_cases h6 : c = '\x08'
  · subst h6
    rfl
  by_cases h7 : c = '\x0c'
  · subst h7
    rfl
  by_cases h8 : c.toNat < 32
  · obtain ⟨hhi, hlo, hcode⟩ := hexDigit_control c.toNat h8
    have hzero : isHex '0' = true := by decide
    have hdigit : hexDigit '0' = 0 := by decide
    simp [h1, h2, h3, h4, h5, h6, h7, h8, run_cons, run_nil, step, hhi, hlo, hzero, hdigit, hcode]
  · simp [h1, h2, h3, h4, h5, h6, h7, h8, run_cons, run_nil, step]

/-- The characters of a string, with its closing quotation mark. -/
theorem run_quoted (s : List Char) :
    run fmt (.string role acc, stack) (quoted s) = some (endString (acc ++ s) role, stack) := by
  induction s generalizing acc with
  | nil => simp [quoted, run_cons, run_nil, step]
  | cons c s ih =>
      have hcons : quoted (c :: s) = escapeChar c ++ quoted s := by simp [quoted]
      rw [hcons, run_append, run_escapeChar, Option.bind_some, ih, List.append_assoc,
        List.singleton_append]

/-- The reader has read a value: what follows it closes it. -/
structure AtEnd (fmt : NumberFormat) (v : Json) (stack : List Frame) (st : State) : Prop where
  step : ∀ c, isNumeral c = false → step fmt st c = close v stack c
  finish : stack = [] → finish fmt st = some v

theorem atEnd_done (v : Json) (stack : List Frame) : AtEnd fmt v stack (.done v, stack) := by
  refine ⟨fun _ _ => rfl, ?_⟩
  rintro rfl
  rfl

theorem atEnd_number {n : JsNum} {acc : List Char} (h : fmt.read acc = some n)
    (stack : List Frame) : AtEnd fmt (.num n) stack (.number acc, stack) := by
  refine ⟨fun c hc => ?_, ?_⟩
  · simp [JsonReader.step, hc, h]
  · rintro rfl
    simp [JsonReader.finish, h]

/-- The text of the value is read as the value. -/
def ReadsBack (fmt : NumberFormat) (v : Json) : Prop :=
  ∀ closes stack, ∃ st, run fmt (.value closes, stack) (jsonText fmt v) = some st ∧
    AtEnd fmt v stack st

/-- A run of the characters of numbers. -/
theorem run_numerals {cs : List Char} (h : ∀ c ∈ cs, isNumberChar c = true) :
    run fmt (.number acc, stack) cs = some (.number (acc ++ cs), stack) := by
  induction cs generalizing acc with
  | nil => simp [run_nil]
  | cons c cs ih =>
      obtain ⟨hc, hcs⟩ := List.forall_mem_cons.mp h
      rw [run_cons, step, if_pos (by simp [isNumeral, hc]), Option.bind_some, ih hcs,
        List.append_assoc, List.singleton_append]

theorem readsBack_num {q : ℚ} (hq : fmt.IsNumber q) : ReadsBack fmt (.num (.fin q)) := by
  intro closes stack
  obtain ⟨c, cs, hcs⟩ := List.exists_cons_of_ne_nil (fmt.write_ne_nil q hq)
  have hchars := fmt.write_chars q hq
  have hread := fmt.read_write q hq
  rw [hcs] at hchars hread
  obtain ⟨hc, hrest⟩ := List.forall_mem_cons.mp hchars
  refine ⟨(.number (c :: cs), stack), ?_, atEnd_number hread stack⟩
  have hne (d : Char) (hd : isNumberChar d = false) : c ≠ d := by
    rintro rfl
    rw [hc] at hd
    cases hd
  have hbegin : step fmt (.value closes, stack) c = some (.number [c], stack) := by
    simp [step, begin, isSpace, isNumeral, hc, hne ' ' rfl, hne '\t' rfl, hne '\n' rfl,
      hne '\r' rfl, hne ']' rfl, hne '"' rfl, hne '[' rfl, hne '\x7b' rfl, hne 't' rfl,
      hne 'f' rfl, hne 'n' rfl]
  rw [jsonText, hcs, run_cons, hbegin, Option.bind_some, run_numerals hrest, List.singleton_append]

/-- The elements of an array, with its closing bracket. -/
theorem run_elements {xs : List Json} (h : ∀ x ∈ xs, ReadsBack fmt x) {closes : Bool}
    {ys : List Json} (hempty : xs = [] → closes = true ∧ ys = []) :
    run fmt (.value closes, .arr ys :: stack) (commas (xs.map (jsonText fmt)) ++ [']']) =
      some (.done (.arr (ys ++ xs)), stack) := by
  induction xs generalizing closes ys with
  | nil =>
      obtain ⟨rfl, rfl⟩ := hempty rfl
      rfl
  | cons x xs ih =>
      obtain ⟨hx, hxs⟩ := List.forall_mem_cons.mp h
      obtain ⟨st, hst, hend⟩ := hx closes (.arr ys :: stack)
      cases xs with
      | nil =>
          rw [List.map_cons, List.map_nil, commas, run_append, hst, Option.bind_some, run_cons,
            hend.step ']' rfl]
          rfl
      | cons y xs =>
          have hrest := @ih hxs false (ys ++ [x]) fun h => by cases h
          rw [List.map_cons, List.map_cons, commas, List.append_assoc, run_append, hst,
            Option.bind_some, List.cons_append, run_cons, hend.step ',' rfl]
          rw [List.append_assoc, List.singleton_append] at hrest
          exact hrest

/-- The fields of an object, with its closing bracket. -/
theorem run_fields {fields : List (String × Json)} (h : ∀ f ∈ fields, ReadsBack fmt f.2)
    {closes : Bool} {out : List (String × Json)} (hempty : fields = [] → closes = true ∧ out = []) :
    run fmt (.key closes out, stack)
        (commas (fields.map fun f => fieldText (f.1, jsonText fmt f.2)) ++ ['\x7d']) =
      some (.done (.obj (out ++ fields)), stack) := by
  induction fields generalizing closes out with
  | nil =>
      obtain ⟨rfl, rfl⟩ := hempty rfl
      rfl
  | cons f fields ih =>
      obtain ⟨hf, hfields⟩ := List.forall_mem_cons.mp h
      obtain ⟨st, hst, hend⟩ := hf false (.obj out f.1 :: stack)
      have hfirst : run fmt (.key closes out, stack) (fieldText (f.1, jsonText fmt f.2)) =
          some st := by
        have hquote : step fmt (.key closes out, stack) '"' =
            some (.string (.key out) [], stack) := by simp [step, isSpace]
        have hcolon : step fmt (.colon out f.1, stack) ':' =
            some (.value false, .obj out f.1 :: stack) := by simp [step, isSpace]
        rw [fieldText, quote, List.cons_append, run_cons, hquote, Option.bind_some, run_append,
          run_quoted, Option.bind_some, List.nil_append, endString, String.ofList_toList, run_cons,
          hcolon, Option.bind_some, hst]
      cases fields with
      | nil =>
          rw [List.map_cons, List.map_nil, commas, run_append, hfirst, Option.bind_some, run_cons,
            hend.step '\x7d' rfl]
          rfl
      | cons g fields =>
          have hrest := @ih hfields false (out ++ [f]) fun h => by cases h
          rw [List.map_cons, List.map_cons, commas, List.append_assoc, run_append, hfirst,
            Option.bind_some, List.cons_append, run_cons, hend.step ',' rfl]
          rw [List.append_assoc, List.singleton_append] at hrest
          exact hrest

/-- A string, as a value. -/
theorem readsBack_str (t : String) : ReadsBack fmt (.str t) := by
  intro closes stack
  have hquote : step fmt (.value closes, stack) '"' = some (.string .value [], stack) := by
    simp [step, begin, isSpace]
  refine ⟨_, ?_, atEnd_done _ _⟩
  rw [jsonText, quote, run_cons, hquote, Option.bind_some, run_quoted, List.nil_append, endString,
    String.ofList_toList]

/-- A word, as a value. -/
theorem run_word (w : Word) (closes : Bool) :
    run fmt (.value closes, stack) w.text = some (.done w.value, stack) := by
  cases w with
  | true =>
      have hbegin : step fmt (.value closes, stack) 't' = some (.word .true 1, stack) := by
        simp [step, begin, isSpace]
      exact (run_cons (c := 't')).trans (by rw [hbegin]; rfl)
  | false =>
      have hbegin : step fmt (.value closes, stack) 'f' = some (.word .false 1, stack) := by
        simp [step, begin, isSpace]
      exact (run_cons (c := 'f')).trans (by rw [hbegin]; rfl)
  | null =>
      have hbegin : step fmt (.value closes, stack) 'n' = some (.word .null 1, stack) := by
        simp [step, begin, isSpace]
      exact (run_cons (c := 'n')).trans (by rw [hbegin]; rfl)

/-- The text of a value whose numbers are those of the format is read as the value. -/
theorem readsBack {v : Json} (hv : v.Written fmt) : ReadsBack fmt v := by
  induction v using Json.inductionOn with
  | null => exact fun closes stack => ⟨_, run_word .null closes, atEnd_done _ _⟩
  | bool b =>
      cases b with
      | false => exact fun closes stack => ⟨_, run_word .false closes, atEnd_done _ _⟩
      | true => exact fun closes stack => ⟨_, run_word .true closes, atEnd_done _ _⟩
  | num n =>
      cases hv with
      | num hq => exact readsBack_num hq
  | str t => exact readsBack_str t
  | arr xs ih =>
      intro closes stack
      cases hv with
      | arr hxs =>
          have hopen : step fmt (.value closes, stack) '[' =
              some (.value true, .arr [] :: stack) := by simp [step, begin, isSpace]
          refine ⟨_, ?_, atEnd_done _ _⟩
          rw [jsonText, run_cons, hopen, Option.bind_some, elementTexts_eq,
            run_elements (fun x hx => ih x hx (hxs x hx)) fun _ => ⟨rfl, rfl⟩, List.nil_append]
  | obj fields ih =>
      intro closes stack
      cases hv with
      | obj hfields =>
          have hopen : step fmt (.value closes, stack) '\x7b' = some (.key true [], stack) := by
            simp [step, begin, isSpace]
          refine ⟨_, ?_, atEnd_done _ _⟩
          rw [jsonText, run_cons, hopen, Option.bind_some, fieldTexts_eq,
            run_fields (fun f hf => ih f hf (hfields f hf)) fun _ => ⟨rfl, rfl⟩, List.nil_append]

end JsonReader

/-- What was written is read back. -/
theorem readText_jsonText {fmt : NumberFormat} {v : Json} (hv : v.Written fmt) :
    readText fmt (jsonText fmt v) = some v := by
  obtain ⟨st, hst, hend⟩ := JsonReader.readsBack hv false []
  rw [readText, hst, Option.bind_some]
  exact hend.finish rfl

/-! ### One field for each key -/

theorem Json.mergedElements_eq (xs : List Json) : mergedElements xs = xs.map merged := by
  induction xs with
  | nil => rfl
  | cons x xs ih => rw [mergedElements, ih, List.map_cons]

theorem Json.mergedFields_eq (fields : List (String × Json)) :
    mergedFields fields = fields.map fun f => (f.1, f.2.merged) := by
  induction fields with
  | nil => rfl
  | cons f fields ih => rw [mergedFields, ih, List.map_cons]

/-- Where the keys are different, nothing is merged. -/
theorem Json.merged_of_distinctKeys {v : Json} (hv : v.DistinctKeys) : v.merged = v := by
  induction v using Json.inductionOn with
  | null => rfl
  | bool b => rfl
  | num n => rfl
  | str t => rfl
  | arr xs ih =>
      cases hv with
      | arr h =>
          rw [merged, mergedElements_eq]
          have hsame : xs.map merged = xs.map id :=
            List.map_congr_left fun x hx => ih x hx (h x hx)
          rw [hsame, List.map_id]
  | obj fields ih =>
      cases hv with
      | obj h hkeys =>
          have hsame : fields.map (fun f => (f.1, f.2.merged)) = fields.map id :=
            List.map_congr_left fun f hf => Prod.ext rfl (ih f hf (h f hf))
          rw [merged, mergedFields_eq, hsame, List.map_id, Table.upserts_of_keyed hkeys,
            List.nil_append]

/-! ### The shape of a value -/

/-- Elements that are related in two ways. -/
theorem forall₂_both {α β : Type} {R S : α → β → Prop} {xs : List α} {ys : List β}
    (h : List.Forall₂ R xs ys) (h' : List.Forall₂ S xs ys) :
    List.Forall₂ (fun x y => R x y ∧ S x y) xs ys := by
  induction h with
  | nil => exact .nil
  | cons hxy _ ih =>
      cases h' with
      | cons hxy' h' => exact .cons ⟨hxy, hxy'⟩ (ih h')

/-- Elements that are related in one way, and therefore in another. -/
theorem forall₂_imp_of_mem {α β : Type} {R S : α → β → Prop} {xs : List α} {ys : List β}
    (h : List.Forall₂ R xs ys) (hS : ∀ x ∈ xs, ∀ y, R x y → S x y) : List.Forall₂ S xs ys := by
  induction h with
  | nil => exact .nil
  | cons hxy _ ih =>
      exact .cons (hS _ List.mem_cons_self _ hxy)
        (ih fun x hx => hS x (List.mem_cons_of_mem _ hx))

/-!
## Values that are the same have the same text

* `KeyOrder` — a strict order of keys.
* `sorted_of_perm` — fields with different keys have one order.
* `stableChars_of_same` — values that are the same up to the order of keys have the same text;
  `stableChars_iff` — and no others, among those that hold finite numbers only.
-/

/-- The comparison puts different keys into one order. -/
structure KeyOrder (le : String → String → Bool) : Prop where
  total : ∀ a b, le a b = true ∨ le b a = true
  trans : ∀ a b c, le a b = true → le b c = true → le a c = true
  antisymm : ∀ a b, le a b = true → le b a = true → a = b

variable {numText : ℚ → String} {le : String → String → Bool}

/-- Fields with different keys are sorted into one list, however they stood before. -/
theorem sorted_of_perm {α : Type} (hle : KeyOrder le) {fields other : List (String × α)}
    (hperm : fields.Perm other) (hkeys : (fields.map Prod.fst).Nodup) :
    fields.insertionSort (fun f g => le f.1 g.1 = true) =
      other.insertionSort fun f g => le f.1 g.1 = true := by
  have htotal : Std.Total fun f g : String × α => le f.1 g.1 = true :=
    ⟨fun f g => hle.total f.1 g.1⟩
  have htrans : IsTrans (String × α) fun f g => le f.1 g.1 = true :=
    ⟨fun f g h => hle.trans f.1 g.1 h.1⟩
  have hsorted (l : List (String × α)) :
      (l.insertionSort fun f g => le f.1 g.1 = true).Pairwise fun f g => le f.1 g.1 = true :=
    List.pairwise_insertionSort _ l
  refine List.Perm.eq_of_pairwise (fun f g hf hg hfg hgf => ?_) (hsorted fields) (hsorted other)
    ((List.perm_insertionSort _ fields).trans (hperm.trans (List.perm_insertionSort _ other).symm))
  rw [List.mem_insertionSort] at hf hg
  exact List.inj_on_of_nodup_map hkeys hf (hperm.mem_iff.mpr hg) (hle.antisymm f.1 g.1 hfg hgf)

theorem stableFields_keys (fields : List (String × Json)) :
    (stableFields numText le fields).map Prod.fst = fields.map Prod.fst := by
  rw [stableFields_eq, List.map_map]
  rfl

/-- Fields whose keys agree and whose values have the same texts are written alike. -/
theorem stableFields_congr {fields other : List (String × Json)}
    (hkeys : fields.map Prod.fst = other.map Prod.fst)
    (hvalues : List.Forall₂ (fun v w => stableChars numText le v = stableChars numText le w)
      (fields.map Prod.snd) (other.map Prod.snd)) :
    stableFields numText le fields = stableFields numText le other := by
  rw [stableFields_eq, stableFields_eq]
  induction fields generalizing other with
  | nil =>
      cases other with
      | nil => rfl
      | cons g other => cases hkeys
  | cons f fields ih =>
      cases other with
      | nil => cases hkeys
      | cons g other =>
          obtain ⟨hkey, hrest⟩ := List.cons.inj hkeys
          cases hvalues with
          | cons hvalue hmore =>
              rw [List.map_cons, List.map_cons, ih hrest hmore, hkey, hvalue]

/-- Values that are the same up to the order of keys have the same text. -/
theorem stableChars_of_same (hle : KeyOrder le) {v w : Json} (h : Json.Same v w)
    (hv : v.DistinctKeys) (hw : w.DistinctKeys) :
    stableChars numText le v = stableChars numText le w := by
  induction v using Json.inductionOn generalizing w with
  | null =>
      cases h
      rfl
  | bool b =>
      cases h
      rfl
  | num n =>
      cases h
      rfl
  | str s =>
      cases h
      rfl
  | arr xs ih =>
      cases h with
      | @arr _ ys h =>
          cases hv with
          | arr hv =>
              cases hw with
              | arr hw =>
                  have hall : List.Forall₂
                      (fun v w => stableChars numText le v = stableChars numText le w) xs ys := by
                    have hdistinct : List.Forall₂ (fun _ y : Json => y.DistinctKeys) xs ys :=
                      (List.forall₂_iff_zip.mpr ⟨h.length_eq, fun hmem =>
                        hw _ (List.of_mem_zip hmem).2⟩)
                    exact forall₂_imp_of_mem (forall₂_both h hdistinct)
                      fun x hx y hxy => ih x hx hxy.1 (hv x hx) hxy.2
                  have htexts :
                      xs.map (stableChars numText le) = ys.map (stableChars numText le) := by
                    rw [← List.forall₂_eq_eq_eq, List.forall₂_map_left_iff,
                      List.forall₂_map_right_iff]
                    exact hall
                  rw [stableChars, stableChars, stableElements_eq, stableElements_eq, htexts]
  | obj fields ih =>
      cases h with
      | @obj _ fields' other other' hperm hkeys h hperm' =>
          cases hv with
          | obj hv hvkeys =>
              cases hw with
              | obj hw hwkeys =>
                  have hsame :
                      stableFields numText le fields' = stableFields numText le other' := by
                    refine stableFields_congr hkeys ?_
                    have hdistinct : List.Forall₂ (fun _ y : Json => y.DistinctKeys)
                        (fields'.map Prod.snd) (other'.map Prod.snd) := by
                      refine List.forall₂_iff_zip.mpr ⟨h.length_eq, fun hmem => ?_⟩
                      obtain ⟨g, hg, rfl⟩ := List.mem_map.mp (List.of_mem_zip hmem).2
                      exact hw g (hperm'.mem_iff.mp hg)
                    refine forall₂_imp_of_mem (forall₂_both h hdistinct) fun x hx y hxy => ?_
                    obtain ⟨f, hf, rfl⟩ := List.mem_map.mp hx
                    have hmem := hperm.mem_iff.mpr hf
                    exact ih f hmem hxy.1 (hv f hmem) hxy.2
                  have hsort {fs gs : List (String × Json)} (hp : fs.Perm gs)
                      (hk : (fs.map Prod.fst).Nodup) :
                      (stableFields numText le fs).insertionSort (fun f g => le f.1 g.1 = true) =
                        (stableFields numText le gs).insertionSort
                          fun f g => le f.1 g.1 = true := by
                    refine sorted_of_perm hle ?_ (by rwa [stableFields_keys])
                    rw [stableFields_eq, stableFields_eq]
                    exact hp.map _
                  have hkeys' : (other'.map Prod.fst).Nodup :=
                    (hperm'.map Prod.fst).nodup_iff.mpr hwkeys
                  rw [stableChars, stableChars, hsort hperm hvkeys, hsame, hsort hperm' hkeys']

/-- Among the values that hold finite numbers only, those that are the same have the same text, and
no others. -/
theorem stableChars_iff (hn : NumberText numText) (hle : KeyOrder le) {v w : Json}
    (hv : v.DistinctKeys) (hw : w.DistinctKeys) (hfinite : v.reparse = v)
    (hfinite' : w.reparse = w) :
    stableChars numText le v = stableChars numText le w ↔ Json.Same v w := by
  refine ⟨fun h => ?_, fun h => stableChars_of_same hle h hv hw⟩
  have hsame := same_of_stableChars hn h
  rwa [hfinite, hfinite'] at hsame
