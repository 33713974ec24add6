import Mathlib.Algebra.Order.Field.Rat
import Mathlib.Algebra.Order.Floor.Ring
import Mathlib.Algebra.Order.Ring.Rat
import Mathlib.Data.Rat.Floor

/-!
# JSON values and their coercions

* `Json` — a value as `JSON.parse` gives it. The text `1e999` is read as `Infinity`, so a number is a
  `JsNum`.
* `Json.get?`, `Json.truthy`, `Json.toText`, `Json.toNumber` — property access, `Boolean(v)`,
  `String(v)` and `Number(v)`; `none` is `undefined`.
* `stringToNumber`, `parseFloat` — the numeric reading of a text.
* `Json.reparse` — `JSON.parse(JSON.stringify(v))`.
* `jsTrim`, `unique` — `text.trim()` and `[...new Set(values)]`.
-/

/-!
## JavaScript numbers, without rounding

* `JsNum` — a number value: `NaN`, an infinity or a finite number. Finite numbers are rationals, so
  sums and products are exact; the rounding of IEEE arithmetic is not modelled.
* `JsNum.lt`, `add`, `mul`, `max`, `min` — the operators and `Math.max`, `Math.min`: every comparison
  with `NaN` is false, every sum, product, maximum and minimum with `NaN` is `NaN`.
* `JsNum.toJson` — what `JSON.stringify` keeps of a number: `NaN` and the infinities become `null`.
-/

/-- A value of JavaScript's type `number`. -/
inductive JsNum
  | nan
  | negInf
  | fin (q : ℚ)
  | posInf
deriving DecidableEq

namespace JsNum

instance (n : ℕ) : OfNat JsNum n := ⟨fin n⟩

/-- `a < b`. -/
def lt : JsNum → JsNum → Bool
  | nan, _ => false
  | _, nan => false
  | negInf, negInf => false
  | negInf, _ => true
  | _, negInf => false
  | posInf, _ => false
  | _, posInf => true
  | fin a, fin b => decide (a < b)

/-- `a <= b`: false when either is `NaN`. -/
def le (a b : JsNum) : Bool := lt a b || (decide (a = b) && !decide (a = nan))

/-- `a + b`. -/
def add : JsNum → JsNum → JsNum
  | nan, _ => nan
  | _, nan => nan
  | negInf, posInf => nan
  | posInf, negInf => nan
  | negInf, _ => negInf
  | _, negInf => negInf
  | posInf, _ => posInf
  | _, posInf => posInf
  | fin a, fin b => fin (a + b)

/-- An infinity of the given sign. -/
def inf (positive : Bool) : JsNum := if positive then posInf else negInf

/-- `a * b`. -/
def mul : JsNum → JsNum → JsNum
  | nan, _ => nan
  | _, nan => nan
  | fin a, fin b => fin (a * b)
  | fin a, posInf => if a = 0 then nan else inf (decide (0 < a))
  | fin a, negInf => if a = 0 then nan else inf (decide (a < 0))
  | posInf, fin b => if b = 0 then nan else inf (decide (0 < b))
  | negInf, fin b => if b = 0 then nan else inf (decide (b < 0))
  | posInf, posInf => posInf
  | posInf, negInf => negInf
  | negInf, posInf => negInf
  | negInf, negInf => posInf

/-- `Math.max(a, b)`. -/
def max (a b : JsNum) : JsNum :=
  if a = nan ∨ b = nan then nan else if lt a b then b else a

/-- `Math.min(a, b)`. -/
def min (a b : JsNum) : JsNum :=
  if a = nan ∨ b = nan then nan else if lt b a then b else a

/-- What a number field holds after `JSON.parse(JSON.stringify(_))`; `none` is `null`. -/
def toJson : JsNum → Option JsNum
  | fin q => some (fin q)
  | _ => none

/-- The number a field coerces to: `null` counts as zero. -/
def ofField : Option JsNum → JsNum
  | some n => n
  | none => 0

@[simp] theorem lt_fin (a b : ℚ) : lt (fin a) (fin b) = decide (a < b) := rfl

@[simp] theorem add_fin (a b : ℚ) : add (fin a) (fin b) = fin (a + b) := rfl

@[simp] theorem mul_fin (a b : ℚ) : mul (fin a) (fin b) = fin (a * b) := rfl

@[simp] theorem toJson_fin (q : ℚ) : toJson (fin q) = some (fin q) := rfl

@[simp] theorem ofField_some (n : JsNum) : ofField (some n) = n := rfl

@[simp] theorem ofField_none : ofField none = fin 0 := rfl

@[simp] theorem zero_eq : (0 : JsNum) = fin 0 := by
  change fin ((0 : ℕ) : ℚ) = fin 0
  simp

@[simp] theorem max_fin (a b : ℚ) : max (fin a) (fin b) = fin (Max.max a b) := by
  by_cases h : a < b
  · simp [max, h, max_eq_right h.le]
  · simp [max, h, max_eq_left (not_lt.mp h)]

theorem le_fin (a b : ℚ) : le (fin a) (fin b) = decide (a ≤ b) := by
  by_cases h : a < b
  · simp [le, h, h.le]
  · by_cases h' : a = b
    · simp [le, h']
    · simp [le, h, h', not_le.mpr (lt_of_le_of_ne (not_lt.mp h) (Ne.symm h'))]

/-- A field read back from JSON is read back from JSON unchanged ever after. -/
@[simp] theorem bind_toJson_bind_toJson (x : Option JsNum) :
    (x.bind toJson).bind toJson = x.bind toJson := by
  rcases x with _ | (_ | _ | q | _) <;> rfl

end JsNum

/-- A JSON value. -/
inductive Json
  | null
  | bool (b : Bool)
  | num (n : JsNum)
  | str (s : String)
  | arr (xs : List Json)
  | obj (fields : List (String × Json))

/-! ## Numbers in texts -/

/-- The white space and line terminators that trimming removes. -/
def isJsSpace (c : Char) : Bool :=
  let n := c.toNat
  (9 ≤ n && n ≤ 13) || n == 32 || n == 0xA0 || n == 0x1680 || (0x2000 ≤ n && n ≤ 0x200A) ||
    n == 0x2028 || n == 0x2029 || n == 0x202F || n == 0x205F || n == 0x3000 || n == 0xFEFF

theorem isAlphanum_iff (c : Char) : c.isAlphanum = true ↔
    65 ≤ c.toNat ∧ c.toNat ≤ 90 ∨ 97 ≤ c.toNat ∧ c.toNat ≤ 122 ∨ 48 ≤ c.toNat ∧ c.toNat ≤ 57 := by
  have h : c.isAlphanum = (decide ('A'.val ≤ c.val ∧ c.val ≤ 'Z'.val) ||
      (decide ('a'.val ≤ c.val) && decide (c.val ≤ 'z'.val)) ||
        (decide ('0'.val ≤ c.val) && decide (c.val ≤ '9'.val))) := rfl
  rw [h]
  simp [UInt32.le_iff_toNat_le, or_assoc]

/-- Letters and digits are no white space. -/
theorem isJsSpace_of_isAlphanum {c : Char} (h : c.isAlphanum = true) : isJsSpace c = false := by
  rw [isAlphanum_iff] at h
  rw [Bool.eq_false_iff]
  simp only [isJsSpace, ne_eq, Bool.or_eq_true, Bool.and_eq_true, decide_eq_true_eq, beq_iff_eq]
  omega

/-- `text.trim()` -/
def jsTrim (s : String) : String :=
  String.ofList ((s.toList.dropWhile isJsSpace).reverse.dropWhile isJsSpace).reverse

/-- `[...new Set(values)]`: the first occurrences, in order. -/
def unique {α : Type} [DecidableEq α] : List α → List α
  | [] => []
  | x :: xs => x :: (unique xs).filter (· ≠ x)

@[simp] theorem mem_unique {α : Type} [DecidableEq α] {x : α} {xs : List α} :
    x ∈ unique xs ↔ x ∈ xs := by
  induction xs with
  | nil => rfl
  | cons y ys ih =>
      by_cases h : x = y <;> simp [unique, h, ih]

/-- The number a list of digits writes in the given base. -/
def digitsValue (base : ℕ) (digits : List ℕ) : ℕ := digits.foldl (fun acc d => acc * base + d) 0

/-- The value of a digit, letters standing for ten and more. -/
def digitValue (c : Char) : Option ℕ :=
  if c.isDigit then some (c.toNat - 48)
  else if 'a' ≤ c ∧ c ≤ 'z' then some (c.toNat - 87)
  else if 'A' ≤ c ∧ c ≤ 'Z' then some (c.toNat - 55)
  else none

/-- Decimal digits as numbers. -/
def decimalDigits (cs : List Char) : List ℕ := cs.map fun c => c.toNat - 48

/-- The exponent part `e[+-]digits`, when it is complete; otherwise nothing is consumed. -/
def exponentPrefix : List Char → ℤ × List Char
  | c :: cs =>
      if c = 'e' ∨ c = 'E' then
        let (sign, ds) := match cs with
          | '-' :: r => ((-1 : ℤ), r)
          | '+' :: r => (1, r)
          | r => (1, r)
        let exponent := ds.takeWhile Char.isDigit
        if exponent = [] then (0, c :: cs)
        else (sign * digitsValue 10 (decimalDigits exponent), ds.dropWhile Char.isDigit)
      else (0, c :: cs)
  | [] => (0, [])

/-- The longest unsigned decimal literal at the start of a text, with what follows it. -/
def decimalPrefix (cs : List Char) : Option (ℚ × List Char) :=
  let whole := cs.takeWhile Char.isDigit
  let afterWhole := cs.dropWhile Char.isDigit
  let (frac, afterFrac) := match afterWhole with
    | '.' :: r =>
        if whole = [] ∧ r.takeWhile Char.isDigit = [] then ([], afterWhole)
        else (r.takeWhile Char.isDigit, r.dropWhile Char.isDigit)
    | _ => ([], afterWhole)
  if whole = [] ∧ frac = [] then none
  else
    let (e, rest) := exponentPrefix afterFrac
    some ((digitsValue 10 (decimalDigits (whole ++ frac)) : ℚ) * (10 : ℚ) ^ (e - frac.length), rest)

/-- An optional sign, then `Infinity` or a decimal literal. -/
def signedPrefix (cs : List Char) : Option (JsNum × List Char) :=
  let (negative, body) := match cs with
    | '-' :: r => (true, r)
    | '+' :: r => (false, r)
    | r => (false, r)
  if "Infinity".toList.isPrefixOf body then
    some (if negative then .negInf else .posInf, body.drop 8)
  else (decimalPrefix body).map fun (q, rest) => (.fin (if negative then -q else q), rest)

/-- A literal in base 16, 8 or 2. -/
def radixLiteral : List Char → Option JsNum
  | '0' :: x :: cs =>
      let base := if x = 'x' ∨ x = 'X' then 16 else if x = 'o' ∨ x = 'O' then 8
        else if x = 'b' ∨ x = 'B' then 2 else 0
      let digits := cs.filterMap digitValue
      if base ≠ 0 ∧ cs ≠ [] ∧ digits.length = cs.length ∧ digits.all (· < base) then
        some (.fin (digitsValue base digits))
      else none
  | _ => none

/-- `Number(text)`: the whole text, trimmed, has to be a literal; the empty text is zero. -/
def stringToNumber (s : String) : JsNum :=
  let cs := ((s.toList.dropWhile isJsSpace).reverse.dropWhile isJsSpace).reverse
  if cs = [] then 0
  else match radixLiteral cs, signedPrefix cs with
    | some n, _ => n
    | none, some (n, []) => n
    | none, _ => .nan

/-- `Number.parseFloat(text)`: the longest literal the text begins with. -/
def parseFloat (s : String) : JsNum :=
  match signedPrefix (s.toList.dropWhile isJsSpace) with
  | some (n, _) => n
  | none => .nan

/-! ## Property access and coercions -/

namespace Json

/-- `v.key`; `none` is `undefined`. Reading a property of `null` is an error, left to the caller. -/
def get? : Json → String → Option Json
  | obj fields, key => (fields.find? fun f => f.1 == key).map Prod.snd
  | _, _ => none

/-- `Boolean(v)`. -/
def truthy : Json → Bool
  | null => false
  | bool b => b
  | num n => !(decide (n = .nan) || decide (n = .fin 0))
  | str s => s != ""
  | arr _ => true
  | obj _ => true

/-- The text of a string value, when it is one. -/
def str? : Json → Option String
  | str s => some s
  | _ => none

/-- The number of a numeric value, when it is one. -/
def num? : Json → Option JsNum
  | num n => some n
  | _ => none

mutual

/-- `Number(v)`: arrays and objects go through their text, so an array of one element counts as
that element, a longer one (its text has a comma) and an object as `NaN`. -/
def toNumber : Json → JsNum
  | null => 0
  | bool b => if b then 1 else 0
  | num n => n
  | str s => stringToNumber s
  | arr xs => elementsToNumber xs
  | obj _ => .nan

/-- `Number` of an array with these elements. -/
def elementsToNumber : List Json → JsNum
  | [] => 0
  | [x] =>
      match x with
      | bool _ => .nan
      | x => toNumber x
  | _ :: _ :: _ => .nan

end

/-! ## Texts -/

/-- The digits behind the decimal point, at most `fuel` of them. -/
def fractionDigits : ℕ → ℚ → List Char
  | 0, _ => []
  | fuel + 1, q =>
      if q = 0 then []
      else (Nat.digitChar (q * 10).floor.toNat) :: fractionDigits fuel (q * 10 - (q * 10).floor)

/-- `String(n)`, without exponents. -/
def numberText : JsNum → String
  | .nan => "NaN"
  | .posInf => "Infinity"
  | .negInf => "-Infinity"
  | .fin q =>
      let a := |q|
      let frac := fractionDigits 20 (a - a.floor)
      (if q < 0 then "-" else "") ++ toString a.floor ++
        (if frac = [] then "" else "." ++ String.ofList frac)

/-- `n.toFixed(2)`, for numbers below `10^21`: the nearest hundredth, ties upwards. -/
def toFixed2 : JsNum → String
  | .fin q =>
      let cents := (|q| * 100 + 1 / 2).floor
      let frac := toString (cents % 100)
      (if q < 0 then "-" else "") ++ toString (cents / 100) ++ "." ++
        (if frac.length < 2 then "0" ++ frac else frac)
  | n => numberText n

mutual

/-- `String(v)` -/
def toText : Json → String
  | null => "null"
  | bool b => if b then "true" else "false"
  | num n => numberText n
  | str s => s
  | arr xs => ",".intercalate (elementTexts xs)
  | obj _ => "[object Object]"

/-- The texts `Array.prototype.join` joins: `null` is left empty. -/
def elementTexts : List Json → List String
  | [] => []
  | x :: xs => (match x with | null => "" | y => toText y) :: elementTexts xs

end

/-- `String(v)` of a property that may be `undefined`. -/
def textOf : Option Json → String
  | some v => toText v
  | none => "undefined"

/-- `Boolean(v)` of a property that may be `undefined`. -/
def truthyOf : Option Json → Bool
  | some v => truthy v
  | none => false

@[simp] theorem toText_str (s : String) : toText (str s) = s := by simp [toText]

@[simp] theorem textOf_str (s : String) : textOf (some (str s)) = s := toText_str s

/-! ## Serialisation -/

mutual

/-- `JSON.parse(JSON.stringify(v))`: `NaN` and the infinities come back as `null`. -/
def reparse : Json → Json
  | num n => (n.toJson.map num).getD null
  | arr xs => arr (reparseElements xs)
  | obj fields => obj (reparseFields fields)
  | v => v

def reparseElements : List Json → List Json
  | [] => []
  | x :: xs => reparse x :: reparseElements xs

def reparseFields : List (String × Json) → List (String × Json)
  | [] => []
  | (key, v) :: fields => (key, reparse v) :: reparseFields fields

end

end Json
