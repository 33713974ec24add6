import Mathlib.Data.List.Nodup
import Mathlib.Order.Nat

/-!
# Keyed rows

A table is a list of rows in the order in which they were first inserted; a row is found by its key.

* `Table.get key k rows` — the row with key `k`.
* `Table.upsert key row rows` — replace the row with that key in place, or append it.
* `Table.Keyed key rows` — no two rows have one key.
-/

namespace Table

variable {α κ : Type} [DecidableEq κ] (key : α → κ)

/-- The row with key `k`. -/
def get (k : κ) (rows : List α) : Option α := rows.find? fun row => decide (key row = k)

/-- Replace the row with the same key in place, or append the row. -/
def upsert (row : α) : List α → List α
  | [] => [row]
  | r :: rows => if key r = key row then row :: rows else r :: upsert row rows

/-- No two rows have one key. -/
def Keyed (rows : List α) : Prop := (rows.map key).Nodup

variable {key} {k : κ} {row r : α} {rows : List α}

@[simp] theorem get_nil : get key k ([] : List α) = none := rfl

theorem key_of_get (h : get key k rows = some r) : key r = k := by
  simpa using List.find?_some h

theorem mem_of_get (h : get key k rows = some r) : r ∈ rows := List.mem_of_find?_eq_some h

theorem get_cons : get key k (r :: rows) = if key r = k then some r else get key k rows := by
  by_cases h : key r = k <;> simp [get, h]

@[simp] theorem get_upsert_self : get key (key row) (upsert key row rows) = some row := by
  induction rows with
  | nil => simp [upsert, get_cons]
  | cons r rows ih =>
      by_cases h : key r = key row
      · simp [upsert, h, get_cons]
      · simp [upsert, h, get_cons, ih]

theorem get_upsert_of_ne (h : key row ≠ k) : get key k (upsert key row rows) = get key k rows := by
  induction rows with
  | nil => simp [upsert, get_cons, h]
  | cons r rows ih =>
      by_cases hr : key r = key row
      · have hk : key r ≠ k := fun hk => h (hr ▸ hk)
        simp [upsert, hr, get_cons, h]
      · simp [upsert, hr, get_cons, ih]

theorem get_upsert : get key k (upsert key row rows) =
    if key row = k then some row else get key k rows := by
  by_cases h : key row = k
  · subst h; simp
  · rw [get_upsert_of_ne h, if_neg h]

/-- The row that is found once those of a key are deleted. -/
theorem get_filter_ne {k' : κ} : get key k' (rows.filter fun r => decide (key r ≠ k)) =
    if k = k' then none else get key k' rows := by
  induction rows with
  | nil => simp
  | cons r rows ih =>
      by_cases hr : key r = k
      · rw [List.filter_cons_of_neg (by simpa using hr), ih, get_cons, hr]
        by_cases hk : k = k' <;> simp [hk]
      · rw [List.filter_cons_of_pos (by simpa using hr), get_cons, ih, get_cons]
        by_cases hk : k = k'
        · simp [hk, hk ▸ hr]
        · simp [hk]

/-- A row of the new table is the new row or was there before. -/
theorem mem_upsert (h : r ∈ upsert key row rows) : r = row ∨ r ∈ rows := by
  induction rows with
  | nil => simpa [upsert] using h
  | cons x rows ih =>
      by_cases hx : key x = key row
      · simp only [upsert, hx, if_true, List.mem_cons] at h
        exact h.imp_right (List.mem_cons_of_mem x)
      · simp only [upsert, hx, if_false, List.mem_cons] at h
        rcases h with rfl | h
        · exact .inr List.mem_cons_self
        · exact (ih h).imp_right (List.mem_cons_of_mem x)

theorem mem_upsert_self : row ∈ upsert key row rows := by
  have h : get key (key row) (upsert key row rows) = some row := get_upsert_self
  exact mem_of_get h

/-- A row with another key stays. -/
theorem mem_upsert_of_mem (h : r ∈ rows) (hr : key r ≠ key row) : r ∈ upsert key row rows := by
  induction rows with
  | nil => cases h
  | cons x rows ih =>
      by_cases hx : key x = key row
      · simp only [upsert, hx, if_true, List.mem_cons]
        rcases List.mem_cons.mp h with rfl | h
        · exact absurd hx hr
        · exact .inr h
      · simp only [upsert, hx, if_false, List.mem_cons]
        exact (List.mem_cons.mp h).imp_right ih

theorem map_key_upsert_subset : ∀ x ∈ (upsert key row rows).map key,
    x = key row ∨ x ∈ rows.map key := by
  intro x hx
  obtain ⟨y, hy, rfl⟩ := List.mem_map.mp hx
  exact (mem_upsert hy).imp (congrArg key) List.mem_map_of_mem

theorem Keyed.upsert (h : Keyed key rows) : Keyed key (upsert key row rows) := by
  induction rows with
  | nil => simp [Table.upsert, Keyed]
  | cons r rows ih =>
      obtain ⟨hr, hrows⟩ := List.nodup_cons.mp h
      by_cases hk : key r = key row
      · simp only [Table.upsert, hk, if_true, Keyed, List.map_cons]
        exact List.nodup_cons.mpr ⟨hk ▸ hr, hrows⟩
      · simp only [Table.upsert, hk, if_false, Keyed, List.map_cons]
        refine List.nodup_cons.mpr ⟨fun hm => ?_, ih hrows⟩
        exact (map_key_upsert_subset _ hm).elim hk hr

/-- A second key stays unique when only the row that is replaced may have the new row's. -/
theorem Keyed.upsert_other {κ' : Type*} {key' : α → κ'} (h : Keyed key rows)
    (h' : (rows.map key').Nodup) (hrow : ∀ r ∈ rows, key' r = key' row → key r = key row) :
    ((Table.upsert key row rows).map key').Nodup := by
  induction rows with
  | nil => simp [Table.upsert]
  | cons r rows ih =>
      obtain ⟨hr, hrows⟩ := List.nodup_cons.mp h
      obtain ⟨hr', hrows'⟩ := List.nodup_cons.mp h'
      have hrest (x : α) (hx : x ∈ rows) (he : key' x = key' row) : key x = key row :=
        hrow x (List.mem_cons_of_mem r hx) he
      by_cases hk : key r = key row
      · simp only [Table.upsert, hk, if_true, List.map_cons]
        refine List.nodup_cons.mpr ⟨fun hm => ?_, hrows'⟩
        obtain ⟨x, hx, he⟩ := List.mem_map.mp hm
        exact hr (hk.trans (hrest x hx he).symm ▸ List.mem_map_of_mem hx)
      · simp only [Table.upsert, hk, if_false, List.map_cons]
        refine List.nodup_cons.mpr ⟨fun hm => ?_, ih hrows hrows' hrest⟩
        obtain ⟨x, hx, he⟩ := List.mem_map.mp hm
        rcases mem_upsert hx with rfl | hx
        · exact hk (hrow r List.mem_cons_self he.symm)
        · exact hr' (he ▸ List.mem_map_of_mem hx)

/-- In a keyed table every row is the one found under its key. -/
theorem Keyed.get_eq (h : Keyed key rows) (hr : r ∈ rows) : get key (key r) rows = some r := by
  induction rows with
  | nil => cases hr
  | cons x rows ih =>
      obtain ⟨hx, hrows⟩ := List.nodup_cons.mp h
      rcases List.mem_cons.mp hr with rfl | hm
      · simp [get_cons]
      · have hne : key x ≠ key r := fun e => hx (e ▸ List.mem_map_of_mem hm)
        rw [get_cons, if_neg hne, ih hrows hm]

/-! ## Rows that are appended -/

variable {out : List α}

/-- A row with a new key is appended. -/
theorem upsert_eq_append (h : key row ∉ rows.map key) : upsert key row rows = rows ++ [row] := by
  induction rows with
  | nil => rfl
  | cons r rows ih =>
      obtain ⟨hr, hrows⟩ := List.ne_and_not_mem_of_not_mem_cons h
      rw [upsert, if_neg hr.symm, ih hrows, List.cons_append]

/-- Rows with different keys are all appended. -/
theorem upserts_of_keyed (h : Keyed key (out ++ rows)) :
    rows.foldl (fun out r => upsert key r out) out = out ++ rows := by
  induction rows generalizing out with
  | nil => rw [List.foldl_nil, List.append_nil]
  | cons r rows ih =>
      have hr : key r ∉ out.map key := by
        rw [Keyed, List.map_append, List.nodup_append'] at h
        exact fun hmem => h.2.2 hmem List.mem_cons_self
      rw [List.foldl_cons, upsert_eq_append hr, ih (by simpa using h), List.append_assoc,
        List.singleton_append]

end Table
