import Mathlib.Data.List.Perm.Basic
import Mathlib.Data.List.Sublists
import Mathlib.Data.Set.Finite.List
import Mathlib.Logic.Relation
import Mathlib.Order.WellFounded

/-!
# Ordering by rounds

Nodes wait for others. A round takes those that wait for none that is still waiting, and all of them
where there is no such node.

* `order`, `left` — the nodes in the order in which they are taken, and what waits after some
  rounds.
* `left_eq_nil`, `perm_order` — as many rounds as there are nodes take every node, once.
* `exists_cycle` — a node of a finite set in which every node has a successor reaches a cycle.
* `before_of_dependsOn` — a node that reaches no cycle is taken behind those that it waits for.
-/

namespace Rounds

open Relation

variable {α : Type} [DecidableEq α]

/-- The nodes that are waiting, each with what it waits for. -/
abbrev Waiting (α : Type) := List (α × List α)

variable (w : Waiting α)

def keys : List α := w.map Prod.fst

/-- The nodes that wait for none that is still waiting. -/
def ready : Waiting α := w.filter fun e => e.2.all fun d => !(keys w).contains d

/-- The nodes that a round takes. -/
def batch : List α := keys (if ready w = [] then w else ready w)

/-- What waits after a round. -/
def rest : Waiting α := w.filter fun e => !(batch w).contains e.1

/-- The nodes that some rounds take, in their order. -/
def order : ℕ → Waiting α → List α
  | 0, _ => []
  | n + 1, w => if w = [] then [] else batch w ++ order n (rest w)

/-- What waits after some rounds. -/
def left : ℕ → Waiting α → Waiting α
  | 0, w => w
  | n + 1, w => left n (rest w)

/-- The node waits for another one that is waiting. -/
def DependsOn (a b : α) : Prop := b ∈ keys w ∧ ∃ e ∈ w, e.1 = a ∧ b ∈ e.2

variable {w}

/-! ## Every node is taken -/

theorem batch_sublist : (batch w).Sublist (keys w) := by
  unfold batch
  split
  · exact List.Sublist.refl _
  · exact List.filter_sublist.map _

theorem batch_ne_nil (h : w ≠ []) : batch w ≠ [] := by
  unfold batch
  split
  · exact fun hnil => h (List.map_eq_nil_iff.mp hnil)
  · next hready => exact fun hnil => hready (List.map_eq_nil_iff.mp hnil)

theorem mem_rest {e : α × List α} : e ∈ rest w ↔ e ∈ w ∧ e.1 ∉ batch w := by
  simp [rest]

theorem keys_rest : keys (rest w) = (keys w).filter fun a => !(batch w).contains a := by
  rw [keys, rest, keys, List.filter_map]
  rfl

theorem length_rest_lt (h : w ≠ []) : (rest w).length < w.length := by
  obtain ⟨a, ha⟩ := List.exists_mem_of_ne_nil _ (batch_ne_nil h)
  obtain ⟨e, he, rfl⟩ := List.mem_map.mp (batch_sublist.subset ha)
  refine List.length_filter_lt_length_iff_exists.mpr ⟨e, he, ?_⟩
  simp [ha]

/-- As many rounds as there are nodes take every node. -/
theorem left_eq_nil {n : ℕ} (h : w.length ≤ n) : left n w = [] := by
  induction n generalizing w with
  | zero => exact List.length_eq_zero_iff.mp (Nat.le_zero.mp h)
  | succ n ih =>
      by_cases hw : w = []
      · subst hw
        exact ih (Nat.zero_le n)
      · have hlt := length_rest_lt hw
        exact ih (by omega)

theorem perm_batch_rest (hw : (keys w).Nodup) : (batch w ++ keys (rest w)).Perm (keys w) := by
  have hbatch : (batch w).Perm ((keys w).filter fun a => (batch w).contains a) := by
    refine (List.perm_ext_iff_of_nodup (hw.sublist batch_sublist) (hw.filter _)).mpr fun a => ?_
    rw [List.mem_filter, List.contains_iff_mem]
    exact ⟨fun ha => ⟨batch_sublist.subset ha, ha⟩, fun ha => ha.2⟩
  rw [keys_rest]
  exact (hbatch.append_right _).trans (List.filter_append_perm _ _)

/-- Every node is taken once. -/
theorem perm_order {n : ℕ} (hw : (keys w).Nodup) (h : w.length ≤ n) :
    (order n w).Perm (keys w) := by
  induction n generalizing w with
  | zero =>
      obtain rfl := List.length_eq_zero_iff.mp (Nat.le_zero.mp h)
      exact .refl _
  | succ n ih =>
      by_cases hnil : w = []
      · subst hnil
        exact .refl _
      · have hlt := length_rest_lt hnil
        have hkeys : (keys (rest w)).Nodup := by
          rw [keys_rest]
          exact hw.filter _
        rw [order, if_neg hnil]
        exact ((ih hkeys (by omega)).append_left _).trans (perm_batch_rest hw)

/-! ## Cycles -/

/-- A node that reaches a cycle. -/
def ReachesCycle {α : Type} (r : α → α → Prop) (a : α) : Prop :=
  ∃ x, ReflTransGen r a x ∧ TransGen r x x

/-- Where every node of a finite set has a successor in it, each of them reaches a cycle. -/
theorem exists_cycle {α : Type} {r : α → α → Prop} {s : List α}
    (h : ∀ a ∈ s, ∃ b ∈ s, r a b) {a : α} (ha : a ∈ s) : ReachesCycle r a := by
  by_contra hnone
  let T := {x : α // x ∈ s ∧ ReflTransGen r a x}
  have hfinite : Finite T :=
    ((List.finite_toSet s).subset fun x (hx : x ∈ s ∧ ReflTransGen r a x) => hx.1).to_subtype
  let later (y x : T) : Prop := TransGen r x.1 y.1
  have htrans : IsTrans T later := ⟨fun x y z hxy hyz => hyz.trans hxy⟩
  have hirrefl : Std.Irrefl later := ⟨fun x hx => hnone ⟨x.1, x.2.2, hx⟩⟩
  obtain ⟨m, -, hmin⟩ := (Finite.wellFounded_of_trans_of_irrefl later).has_min Set.univ
    ⟨⟨a, ha, .refl⟩, Set.mem_univ _⟩
  obtain ⟨b, hb, hmb⟩ := h m.1 m.2.1
  exact hmin ⟨b, hb, m.2.2.tail hmb⟩ (Set.mem_univ _) (.single hmb)

/-! ## The order -/

theorem dependsOn_of_rest {a b : α} (h : DependsOn (rest w) a b) : DependsOn w a b := by
  obtain ⟨hb, e, he, ha, hmem⟩ := h
  rw [keys_rest] at hb
  exact ⟨(List.mem_filter.mp hb).1, e, (mem_rest.mp he).1, ha, hmem⟩

/-- Where no node is ready, every node waits for another one. -/
theorem exists_dependsOn (h : ready w = []) {a : α} (ha : a ∈ keys w) :
    ∃ b ∈ keys w, DependsOn w a b := by
  obtain ⟨e, he, rfl⟩ := List.mem_map.mp ha
  have hnot := List.filter_eq_nil_iff.mp h e he
  have hwaits : ∃ d ∈ e.2, d ∈ keys w := by
    by_contra hnone
    refine hnot (List.all_eq_true.mpr fun d hd => ?_)
    simpa using fun hkey => hnone ⟨d, hd, hkey⟩
  obtain ⟨d, hd, hkey⟩ := hwaits
  exact ⟨d, hkey, hkey, e, he, rfl, hd⟩

/-- A node that is taken while it still waits for another one reaches a cycle. -/
theorem reachesCycle_of_mem_batch {r : α → α → Prop} (hr : ∀ a b, DependsOn w a b → r a b)
    {a b : α} (hab : DependsOn w a b) (hw : (keys w).Nodup) (ha : a ∈ batch w) :
    ReachesCycle r a := by
  unfold batch at ha
  split at ha
  · next hready =>
      refine exists_cycle (fun x hx => ?_) ha
      obtain ⟨y, hy, hxy⟩ := exists_dependsOn hready hx
      exact ⟨y, hy, hr x y hxy⟩
  · obtain ⟨e, he, rfl⟩ := List.mem_map.mp ha
    obtain ⟨he, hall⟩ := List.mem_filter.mp he
    obtain ⟨hb, e', he', hkey, hmem⟩ := hab
    obtain rfl : e' = e := List.inj_on_of_nodup_map hw he' he hkey
    have hnot := List.all_eq_true.mp hall b hmem
    simp [hb] at hnot

/-- A node that reaches no cycle is taken behind those that it waits for. -/
theorem before_of_dependsOn {r : α → α → Prop} {n : ℕ} (hr : ∀ a b, DependsOn w a b → r a b)
    (hw : (keys w).Nodup) (hn : w.length ≤ n) {a b : α} (hcycle : ¬ReachesCycle r a)
    (hab : DependsOn w a b) : [b, a].Sublist (order n w) := by
  induction n generalizing w with
  | zero =>
      obtain rfl := List.length_eq_zero_iff.mp (Nat.le_zero.mp hn)
      cases hab.1
  | succ n ih =>
      have hnil : w ≠ [] := by
        rintro rfl
        cases hab.1
      have hlt := length_rest_lt hnil
      have hkeys : (keys (rest w)).Nodup := by
        rw [keys_rest]
        exact hw.filter _
      have hbatch : a ∉ batch w := fun ha => hcycle (reachesCycle_of_mem_batch hr hab hw ha)
      obtain ⟨hb, e, he, rfl, hmem⟩ := hab
      have he' : e ∈ rest w := mem_rest.mpr ⟨he, hbatch⟩
      rw [order, if_neg hnil]
      by_cases hb' : b ∈ batch w
      · have hlater : e.1 ∈ order n (rest w) :=
          (perm_order hkeys (by omega)).mem_iff.mpr (List.mem_map_of_mem he')
        exact (List.singleton_sublist.mpr hb').append (List.singleton_sublist.mpr hlater)
      · have hrest : DependsOn (rest w) e.1 b := by
          refine ⟨?_, e, he', rfl, hmem⟩
          rw [keys_rest, List.mem_filter]
          exact ⟨hb, by simp [hb']⟩
        exact (ih (fun x y hxy => hr x y (dependsOn_of_rest hxy)) hkeys (by omega) hrest).trans
          (List.sublist_append_right _ _)

end Rounds
