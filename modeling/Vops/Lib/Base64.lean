import Mathlib.Data.List.TakeWhile
import Mathlib.Tactic.Common

/-!
# Base64

* `Base64.encode` — the padded text of bytes; `Base64.decode` — the bytes of a text, where what is no digit is
  passed over.
* `Base64.decode_encode` — a text that was written is read back.
* `Base64.isPadded_encode` — what is written has digits and at most two signs behind them, in fours.
-/

namespace Base64

/-- The digit of a number below 64. -/
def digit (n : ℕ) : Char :=
  if n < 26 then Char.ofNat (n + 65)
  else if n < 52 then Char.ofNat (n + 71)
  else if n < 62 then Char.ofNat (n - 4)
  else if n = 62 then '+' else '/'

/-- The number of a digit, also in the alphabet of file names. -/
def value (c : Char) : Option ℕ :=
  if c.isUpper then some (c.toNat - 65)
  else if c.isLower then some (c.toNat - 71)
  else if c.isDigit then some (c.toNat + 4)
  else if c = '+' ∨ c = '-' then some 62
  else if c = '/' ∨ c = '_' then some 63
  else none

/-- `[A-Za-z0-9+/]` -/
def isDigit (c : Char) : Bool := c.isAlphanum || c = '+' || c = '/'

/-- The padded text of bytes. -/
def encode : List UInt8 → List Char
  | a :: b :: c :: bytes =>
      digit (a.toNat / 4) :: digit (a.toNat % 4 * 16 + b.toNat / 16) ::
        digit (b.toNat % 16 * 4 + c.toNat / 64) :: digit (c.toNat % 64) :: encode bytes
  | [a, b] =>
      [digit (a.toNat / 4), digit (a.toNat % 4 * 16 + b.toNat / 16), digit (b.toNat % 16 * 4), '=']
  | [a] => [digit (a.toNat / 4), digit (a.toNat % 4 * 16), '=', '=']
  | [] => []

/-- The bytes of numbers of six bits; what is left over at the end is dropped. -/
def bytesOf : List ℕ → List UInt8
  | a :: b :: c :: d :: values =>
      UInt8.ofNat (a * 4 + b / 16) :: UInt8.ofNat (b % 16 * 16 + c / 4) :: UInt8.ofNat (c % 4 * 64 + d) ::
        bytesOf values
  | [a, b, c] => [UInt8.ofNat (a * 4 + b / 16), UInt8.ofNat (b % 16 * 16 + c / 4)]
  | [a, b] => [UInt8.ofNat (a * 4 + b / 16)]
  | _ => []

/-- The bytes of a text; what is no digit is passed over. -/
def decode (text : List Char) : List UInt8 := bytesOf (text.filterMap value)

/-- `/^[A-Za-z0-9+/]+={0,2}$/` -/
def isPadded (text : List Char) : Bool :=
  let padding := text.dropWhile isDigit
  text.takeWhile isDigit != [] && padding.length ≤ 2 && padding.all (· == '=')

/-! ## Digits -/

theorem value_digit : ∀ n < 64, value (digit n) = some n := by decide

theorem isDigit_digit : ∀ n < 64, isDigit (digit n) = true := by decide

theorem value_pad : value '=' = none := by decide

theorem isDigit_pad : isDigit '=' = false := by decide

/-! ## The way back -/

theorem ofNat_eq {b : UInt8} {n : ℕ} (h : n = b.toNat) : UInt8.ofNat n = b := by
  rw [h]
  exact UInt8.ofNat_toNat

theorem decode_encode (bytes : List UInt8) : decode (encode bytes) = bytes := by
  rw [decode]
  induction bytes using encode.induct with
  | case1 a b c bytes ih =>
      have ha := a.toNat_lt
      have hb := b.toNat_lt
      have hc := c.toNat_lt
      have hvalues : (encode (a :: b :: c :: bytes)).filterMap value =
          a.toNat / 4 :: (a.toNat % 4 * 16 + b.toNat / 16) :: (b.toNat % 16 * 4 + c.toNat / 64) ::
            c.toNat % 64 :: (encode bytes).filterMap value := by
        rw [encode, List.filterMap_cons_some (value_digit _ (by omega)),
          List.filterMap_cons_some (value_digit _ (by omega)),
          List.filterMap_cons_some (value_digit _ (by omega)),
          List.filterMap_cons_some (value_digit _ (by omega))]
      rw [hvalues, bytesOf, ih, @ofNat_eq a _ (by omega), @ofNat_eq b _ (by omega), @ofNat_eq c _ (by omega)]
  | case2 a b =>
      have ha := a.toNat_lt
      have hb := b.toNat_lt
      have hvalues : (encode [a, b]).filterMap value =
          [a.toNat / 4, a.toNat % 4 * 16 + b.toNat / 16, b.toNat % 16 * 4] := by
        rw [encode, List.filterMap_cons_some (value_digit _ (by omega)),
          List.filterMap_cons_some (value_digit _ (by omega)),
          List.filterMap_cons_some (value_digit _ (by omega)), List.filterMap_cons_none value_pad,
          List.filterMap_nil]
      rw [hvalues, bytesOf, @ofNat_eq a _ (by omega), @ofNat_eq b _ (by omega)]
  | case3 a =>
      have ha := a.toNat_lt
      have hvalues : (encode [a]).filterMap value = [a.toNat / 4, a.toNat % 4 * 16] := by
        rw [encode, List.filterMap_cons_some (value_digit _ (by omega)),
          List.filterMap_cons_some (value_digit _ (by omega)), List.filterMap_cons_none value_pad,
          List.filterMap_cons_none value_pad, List.filterMap_nil]
      rw [hvalues, bytesOf, @ofNat_eq a _ (by omega)]
  | case4 => rfl

/-! ## The form of what is written -/

theorem length_encode (bytes : List UInt8) : (encode bytes).length % 4 = 0 := by
  induction bytes using encode.induct with
  | case1 a b c bytes ih =>
      rw [encode]
      simp only [List.length_cons]
      omega
  | case2 a b => simp [encode]
  | case3 a => simp [encode]
  | case4 => rfl

/-- What is written has digits, and behind them at most two signs that pad it. -/
theorem encode_split (bytes : List UInt8) : ∃ digits padding, encode bytes = digits ++ padding ∧
    (∀ c ∈ digits, isDigit c = true) ∧ (padding = [] ∨ padding = ['='] ∨ padding = ['=', '=']) ∧
      (bytes ≠ [] → digits ≠ []) := by
  have hcons : ∀ {n : ℕ} {digits : List Char}, n < 64 → (∀ c ∈ digits, isDigit c = true) →
      ∀ c ∈ digit n :: digits, isDigit c = true :=
    fun hn hdigits => List.forall_mem_cons.mpr ⟨isDigit_digit _ hn, hdigits⟩
  induction bytes using encode.induct with
  | case1 a b c bytes ih =>
      have ha := a.toNat_lt
      have hb := b.toNat_lt
      have hc := c.toNat_lt
      obtain ⟨digits, padding, heq, hdigits, hpadding, -⟩ := ih
      refine ⟨digit (a.toNat / 4) :: digit (a.toNat % 4 * 16 + b.toNat / 16) ::
        digit (b.toNat % 16 * 4 + c.toNat / 64) :: digit (c.toNat % 64) :: digits, padding, ?_, ?_, hpadding,
        fun _ => List.cons_ne_nil _ _⟩
      · rw [encode, heq]
        rfl
      · exact hcons (by omega) (hcons (by omega) (hcons (by omega) (hcons (by omega) hdigits)))
  | case2 a b =>
      have ha := a.toNat_lt
      have hb := b.toNat_lt
      exact ⟨[_, _, _], ['='], rfl, hcons (by omega) (hcons (by omega) (hcons (by omega) nofun)),
        .inr (.inl rfl), fun _ => List.cons_ne_nil _ _⟩
  | case3 a =>
      have ha := a.toNat_lt
      exact ⟨[_, _], ['=', '='], rfl, hcons (by omega) (hcons (by omega) nofun), .inr (.inr rfl),
        fun _ => List.cons_ne_nil _ _⟩
  | case4 => exact ⟨[], [], rfl, nofun, .inl rfl, fun h => absurd rfl h⟩

theorem isPadded_encode {bytes : List UInt8} (h : bytes ≠ []) : isPadded (encode bytes) = true := by
  obtain ⟨digits, padding, heq, hdigits, hpadding, hne⟩ := encode_split bytes
  have htake : padding.takeWhile isDigit = [] ∧ padding.dropWhile isDigit = padding := by
    rcases hpadding with rfl | rfl | rfl
    · exact ⟨rfl, rfl⟩
    · exact ⟨List.takeWhile_cons_of_neg (by simp [isDigit_pad]),
        List.dropWhile_cons_of_neg (by simp [isDigit_pad])⟩
    · exact ⟨List.takeWhile_cons_of_neg (by simp [isDigit_pad]),
        List.dropWhile_cons_of_neg (by simp [isDigit_pad])⟩
  rw [isPadded, heq, List.takeWhile_append_of_pos hdigits, List.dropWhile_append_of_pos hdigits, htake.1,
    htake.2, List.append_nil]
  have hpad : (decide (padding.length ≤ 2) && padding.all (· == '=')) = true := by
    rcases hpadding with rfl | rfl | rfl <;> decide
  simp [hne h, Bool.and_eq_true_iff.mp hpad]

/-- A text that is given back by what it is read as, and has digits, was written of some bytes. -/
theorem ne_nil_of_isPadded {bytes : List UInt8} (h : isPadded (encode bytes) = true) : bytes ≠ [] := by
  rintro rfl
  exact absurd h (by decide)

end Base64
