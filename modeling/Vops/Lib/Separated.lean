import Mathlib.Data.List.Basic

/-!
# Texts joined by a separator

Two or three parts are joined by a separator that may stand in the parts themselves.

* `Separated.SameCut`, `SameCuts` — how two joins of two parts, or of three, come to the same text.
* `Separated.join_eq_iff`, `joins_eq_iff` — they are exactly the joins with one text.
-/

namespace Separated

variable {α : Type*} (c : α)

/-- The second cut is further right: a piece of the second part went over to the first one. -/
def Moves (u v u' v' : List α) : Prop := ∃ x, u' = u ++ c :: x ∧ v = x ++ c :: v'

/-- Two parts and two others, the same or with the cut elsewhere. -/
def SameCut (u v u' v' : List α) : Prop :=
  (u = u' ∧ v = v') ∨ Moves c u v u' v' ∨ Moves c u' v' u v

/-- Three parts and three others: the last parts agree, or a piece of one went over to the middle. -/
def SameCuts (u v w u' v' w' : List α) : Prop :=
  (SameCut c u v u' v' ∧ w = w') ∨
    (∃ x, w = x ++ c :: w' ∧ SameCut c u (v ++ c :: x) u' v') ∨
    ∃ x, w' = x ++ c :: w ∧ SameCut c u v u' (v' ++ c :: x)

variable {c} {u v w u' v' w' : List α}

/-- Two joins have one text exactly when they are the same or one is cut further right. -/
theorem join_eq_iff : u ++ c :: v = u' ++ c :: v' ↔ SameCut c u v u' v' := by
  constructor
  · intro h
    rcases List.append_eq_append_iff.mp h with ⟨x, hu, hv⟩ | ⟨x, hu, hv⟩
    · cases x with
      | nil =>
          rw [List.append_nil] at hu
          exact .inl ⟨hu.symm, (List.cons.inj hv).2⟩
      | cons d x =>
          obtain ⟨rfl, htail⟩ := List.cons.inj hv
          exact .inr (.inl ⟨x, hu, htail⟩)
    · cases x with
      | nil =>
          rw [List.append_nil] at hu
          exact .inl ⟨hu, (List.cons.inj hv).2.symm⟩
      | cons d x =>
          obtain ⟨rfl, htail⟩ := List.cons.inj hv
          exact .inr (.inr ⟨x, hu, htail⟩)
  · rintro (⟨rfl, rfl⟩ | ⟨x, rfl, rfl⟩ | ⟨x, rfl, rfl⟩)
    · rfl
    · rw [List.append_assoc, List.cons_append]
    · rw [List.append_assoc, List.cons_append]

/-- Three joins have one text exactly when two of their cuts can be moved onto one another. -/
theorem joins_eq_iff : u ++ c :: (v ++ c :: w) = u' ++ c :: (v' ++ c :: w') ↔
    SameCuts c u v w u' v' w' := by
  have hassoc (u v w : List α) : u ++ c :: (v ++ c :: w) = (u ++ c :: v) ++ c :: w := by
    rw [List.append_assoc, List.cons_append]
  rw [hassoc u, hassoc u', join_eq_iff]
  unfold SameCut Moves SameCuts
  simp only [← hassoc]
  rw [← join_eq_iff]
  constructor
  · rintro (⟨hcut, hw⟩ | ⟨x, hcut, hw⟩ | ⟨x, hcut, hw⟩)
    · exact .inl ⟨hcut, hw⟩
    · exact .inr (.inl ⟨x, hw, join_eq_iff.mp hcut.symm⟩)
    · exact .inr (.inr ⟨x, hw, join_eq_iff.mp hcut⟩)
  · rintro (⟨hcut, hw⟩ | ⟨x, hw, hcut⟩ | ⟨x, hw, hcut⟩)
    · exact .inl ⟨hcut, hw⟩
    · exact .inr (.inl ⟨x, (join_eq_iff.mpr hcut).symm, hw⟩)
    · exact .inr (.inr ⟨x, join_eq_iff.mpr hcut, hw⟩)

end Separated
