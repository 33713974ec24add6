import Mathlib.Data.List.Forall2
import Mathlib.Data.List.Induction

/-!
# Hash chains

Every record of a chain names the hash of the record before it and carries a hash that is computed
from the rest of it.

* `HashChain.Linked` — a list of records is a chain from a given start.
* `HashChain.linked_concat` — what a record has to satisfy to prolong a chain.
* `HashChain.forall₂_of_last_eq` — two chains with the same last hash carry the same hashes, one by
  one, when a computed hash determines the hash its record names.

Nothing here mentions a particular record.
-/

/-- How the records of a chain are read: the hash of the record before, the hash a record carries, and
the hash it should carry. -/
structure HashChain (R F : Type) where
  prev : R → F
  hash : R → F
  expected : R → F

namespace HashChain

variable {R F : Type} (c : HashChain R F)

/-- Each record names the hash of the one before, the first one `p`, and carries its computed hash. -/
def Linked : F → List R → Prop
  | _, [] => True
  | p, r :: rs => c.prev r = p ∧ c.hash r = c.expected r ∧ Linked (c.hash r) rs

/-- The last hash of a chain that begins behind `p`. -/
def last : F → List R → F
  | p, [] => p
  | _, r :: rs => last (c.hash r) rs

@[simp] theorem last_concat (p : F) (rs : List R) (r : R) : c.last p (rs ++ [r]) = c.hash r := by
  induction rs generalizing p with
  | nil => rfl
  | cons s rs ih => exact ih _

theorem linked_append (p : F) (rs rs' : List R) :
    c.Linked p (rs ++ rs') ↔ c.Linked p rs ∧ c.Linked (c.last p rs) rs' := by
  induction rs generalizing p with
  | nil =>
      rw [List.nil_append]
      exact ⟨fun h => ⟨trivial, h⟩, fun h => h.2⟩
  | cons r rs ih =>
      rw [List.cons_append, Linked, Linked, ih, last, and_assoc, and_assoc]

/-- The records of a chain carry their computed hashes. -/
theorem hash_of_mem {p : F} {rs : List R} (h : c.Linked p rs) {r : R} (hr : r ∈ rs) :
    c.hash r = c.expected r := by
  induction rs generalizing p with
  | nil => cases hr
  | cons s rs ih =>
      obtain ⟨-, hs, hrs⟩ := h
      rcases List.mem_cons.mp hr with rfl | hr
      · exact hs
      · exact ih hrs hr

/-- A record prolongs a chain when it names the last hash and carries its computed hash. -/
theorem linked_concat (p : F) (rs : List R) (r : R) :
    c.Linked p (rs ++ [r]) ↔ c.Linked p rs ∧ c.prev r = c.last p rs ∧ c.hash r = c.expected r := by
  rw [linked_append, Linked, Linked, and_true]

/-- What a record of a chain may name as the hash before it. -/
def IsLink (p x : F) : Prop := x = p ∨ ∃ r, x = c.expected r

theorem isLink_last {p : F} {rs : List R} (h : c.Linked p rs) : c.IsLink p (c.last p rs) := by
  induction rs using List.reverseRecOn with
  | nil => exact .inl rfl
  | append_singleton rs r _ =>
      rw [last_concat, ((linked_concat c p rs r).mp h).2.2]
      exact .inr ⟨r, rfl⟩

variable {c}

/-- Chains with the same last hash carry the same hashes. From the end backwards: the last hash is
computed from the last record, and determines the hash of the record before. -/
theorem forall₂_of_last_eq {p : F} (hprev : ∀ r r', c.IsLink p (c.prev r) → c.IsLink p (c.prev r') →
      c.expected r = c.expected r' → c.prev r = c.prev r')
    (hp : ∀ r, c.expected r ≠ p) {rs rs' : List R} (h : c.Linked p rs) (h' : c.Linked p rs')
    (hlast : c.last p rs = c.last p rs') :
    List.Forall₂ (fun r r' => c.hash r = c.hash r' ∧ c.expected r = c.expected r') rs rs' := by
  induction rs using List.reverseRecOn generalizing rs' with
  | nil =>
      cases rs' using List.reverseRecOn with
      | nil => exact .nil
      | append_singleton rs' r' =>
          rw [last_concat, ((linked_concat c p rs' r').mp h').2.2] at hlast
          exact absurd hlast.symm (hp r')
  | append_singleton rs r ih =>
      obtain ⟨hrs, hr, hexp⟩ := (linked_concat c p rs r).mp h
      cases rs' using List.reverseRecOn with
      | nil =>
          rw [last_concat, hexp] at hlast
          exact absurd hlast (hp r)
      | append_singleton rs' r' =>
          obtain ⟨hrs', hr', hexp'⟩ := (linked_concat c p rs' r').mp h'
          rw [last_concat, last_concat] at hlast
          have hsame : c.expected r = c.expected r' := by rw [← hexp, ← hexp', hlast]
          have hbefore : c.last p rs = c.last p rs' := by
            rw [← hr, ← hr']
            exact hprev r r' (hr ▸ c.isLink_last hrs) (hr' ▸ c.isLink_last hrs') hsame
          exact List.rel_append (ih hrs hrs' hbefore) (.cons ⟨hlast, hsame⟩ .nil)

end HashChain
