import Vops.Lib.TextLines
import Mathlib.Data.List.Infix
import Mathlib.Data.Nat.Find

/-!
# The first occurrence of a word

* `TextSearch.indexOf word text` — the position of the first occurrence; `indexFrom` from a position on.
* `TextSearch.indexOf_eq_some_iff`, `indexOf_eq_none_iff` — what it answers.
* `TextSearch.indexOf_take` — a text that is cut off shows an occurrence only where it was complete.
* `TextSearch.exists_line_of_occurs` — a word without a newline occurs within one line.
-/

set_option linter.unusedSectionVars false

namespace TextSearch

variable {α : Type} [DecidableEq α] {word text : List α} {i : ℕ}

/-- `text.indexOf(word)` -/
def indexOf (word : List α) : List α → Option ℕ
  | [] => if word = [] then some 0 else none
  | c :: cs => if word.isPrefixOf (c :: cs) then some 0 else (indexOf word cs).map (· + 1)

/-- `text.indexOf(word, position)` -/
def indexFrom (word : List α) (position : ℕ) (text : List α) : Option ℕ :=
  (indexOf word (text.drop position)).map (· + position)

/-- The first occurrence: the word stands there, and nowhere before. -/
theorem indexOf_eq_some_iff : indexOf word text = some i ↔
    word <+: text.drop i ∧ i ≤ text.length ∧ ∀ j < i, ¬word <+: text.drop j := by
  induction text generalizing i with
  | nil =>
      unfold indexOf
      split
      · next h =>
          subst h
          simp only [Option.some.injEq, List.drop_nil, List.nil_prefix, List.length_nil,
            Nat.le_zero, not_true_eq_false, true_and]
          constructor
          · rintro rfl
            exact ⟨rfl, by omega⟩
          · exact fun h => h.1.symm
      · next h =>
          simp [h]
  | cons c cs ih =>
      unfold indexOf
      split
      · next h =>
          have hpre : word <+: c :: cs := List.isPrefixOf_iff_prefix.mp h
          constructor
          · rintro ⟨⟩
            exact ⟨hpre, by omega, by omega⟩
          · rintro ⟨-, -, hfirst⟩
            cases i with
            | zero => rfl
            | succ i => exact absurd hpre (hfirst 0 (by omega))
      · next h =>
          have hpre : ¬word <+: c :: cs := fun hp => h (List.isPrefixOf_iff_prefix.mpr hp)
          rw [Option.map_eq_some_iff]
          constructor
          · rintro ⟨j, hj, rfl⟩
            obtain ⟨hword, hle, hfirst⟩ := ih.mp hj
            refine ⟨hword, by simpa using hle, fun k hk => ?_⟩
            cases k with
            | zero => exact hpre
            | succ k => exact hfirst k (by omega)
          · rintro ⟨hword, hle, hfirst⟩
            cases i with
            | zero => exact absurd hword hpre
            | succ i =>
                refine ⟨i, ih.mpr ⟨hword, by simpa using hle, fun k hk => ?_⟩, rfl⟩
                exact hfirst (k + 1) (by omega)

/-- There is no occurrence. -/
theorem indexOf_eq_none_iff : indexOf word text = none ↔ ∀ i ≤ text.length, ¬word <+: text.drop i := by
  constructor
  · intro h i hi hword
    have hex : ∃ j, word <+: text.drop j := ⟨i, hword⟩
    have hfirst : indexOf word text = some (Nat.find hex) :=
      indexOf_eq_some_iff.mpr ⟨Nat.find_spec hex, (Nat.find_min' hex hword).trans hi,
        fun j hj => Nat.find_min hex hj⟩
    cases h.symm.trans hfirst
  · intro h
    cases hi : indexOf word text with
    | none => rfl
    | some i =>
        obtain ⟨hword, hle, -⟩ := indexOf_eq_some_iff.mp hi
        exact absurd hword (h i hle)

/-- A word that stands nowhere in the first part of a text is searched for in the rest. -/
theorem indexOf_append {a b : List α} (h : ∀ j < a.length, ¬word <+: (a ++ b).drop j) :
    indexOf word (a ++ b) = (indexOf word b).map (· + a.length) := by
  induction a with
  | nil => simp
  | cons c a ih =>
      have hhead : ¬word.isPrefixOf (c :: (a ++ b)) = true := fun hp =>
        h 0 (by simp) (List.isPrefixOf_iff_prefix.mp hp)
      rw [List.cons_append, indexOf, if_neg hhead,
        ih fun j hj => h (j + 1) (by simpa using hj), Option.map_map]
      rfl

omit [DecidableEq α] in
/-- A word that does not begin with a character of the first part lies in the rest. -/
theorem infix_of_append {c : α} {w a b : List α} (hc : c ∉ a) (h : c :: w <:+: a ++ b) :
    c :: w <:+: b := by
  induction a with
  | nil => exact h
  | cons x a ih =>
      obtain ⟨hx, ha⟩ := List.ne_and_not_mem_of_not_mem_cons hc
      rcases List.infix_cons_iff.mp h with hpre | hin
      · exact absurd (List.cons_prefix_cons.mp hpre).1 hx
      · exact ih ha hin

/-- A word of a text that is cut off stands in the whole text. -/
theorem prefix_drop_of_take {n j : ℕ} (h : word <+: (text.take n).drop j) : word <+: text.drop j := by
  rw [List.drop_take] at h
  exact h.trans (List.take_prefix _ _)

/-- Cut off inside or in front of its first occurrence, a text does not contain the word. -/
theorem indexOf_take {n : ℕ} (h : indexOf word text = some i) (hword : word ≠ [])
    (hn : n < i + word.length) : indexOf word (text.take n) = none := by
  obtain ⟨-, -, hfirst⟩ := indexOf_eq_some_iff.mp h
  refine indexOf_eq_none_iff.mpr fun j _ hj => ?_
  have hlen : word.length ≤ n - j := by
    have hle := hj.length_le
    rw [List.length_drop, List.length_take] at hle
    omega
  have hpos := List.length_pos_iff.mpr hword
  exact hfirst j (by omega) (prefix_drop_of_take hj)

/-- A word without a newline that occurs in some lines occurs in one of them. -/
theorem exists_line_of_occurs {word rest : List Char} {ls : List (List Char)} (hword : '\n' ∉ word)
    {i : ℕ} (hi : i < (TextLines.join ls).length)
    (h : word <+: (TextLines.join ls ++ rest).drop i) : ∃ l ∈ ls, word <:+: l := by
  induction ls generalizing i with
  | nil => cases hi
  | cons l ls ih =>
      have hjoin : TextLines.join (l :: ls) ++ rest = (l ++ ['\n']) ++ (TextLines.join ls ++ rest) := by
        simp [TextLines.join]
      by_cases hlt : i < l.length + 1
      · refine ⟨l, List.mem_cons_self, ?_⟩
        rw [hjoin, List.drop_append_of_le_length (by rw [List.length_append]; exact hlt.le),
          List.drop_append_of_le_length (by omega), List.append_assoc] at h
        -- The word ends in front of the newline.
        have hlen : word.length ≤ (l.drop i).length := by
          by_contra hlong
          obtain ⟨tail, htail⟩ := h
          have hget : word[(l.drop i).length]? = some '\n' := by
            have hfull : (word ++ tail)[(l.drop i).length]? = some '\n' := by
              rw [htail, List.getElem?_append_right le_rfl]
              simp
            rwa [List.getElem?_append_left (by omega)] at hfull
          exact hword (List.mem_of_getElem? hget)
        have hpre : word <+: l.drop i := List.prefix_of_prefix_length_le h (List.prefix_append _ _) hlen
        exact hpre.isInfix.trans (List.drop_suffix i l).isInfix
      · have hlen : (l ++ ['\n']).length = l.length + 1 := by simp
        rw [hjoin, List.drop_append, List.drop_eq_nil_of_le (by omega), List.nil_append, hlen] at h
        have hi' : i - (l.length + 1) < (TextLines.join ls).length := by
          rw [TextLines.join, List.length_append, List.length_cons] at hi
          omega
        obtain ⟨l', hl', hin⟩ := ih hi' h
        exact ⟨l', List.mem_cons_of_mem _ hl', hin⟩

end TextSearch
