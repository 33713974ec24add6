import Mathlib.Data.List.Nodup

/-!
# Two lists seen through a window

Two lists of rows with keys agree outside some rows; each is shown through a view of its own, the first
`n` rows of it.

* `Window.Twins` — the lists, without the rows that may differ, are the same.
* `Window.take_map_eq_iff` — the windows show the same exactly when they do so wherever one of the lists
  has a row that may differ.
-/

namespace Window

variable {α β κ : Type*} {key : α → κ} {f g : α → β} {p q t u : α → Bool} {xs ys : List α}

/-- Two lists whose rows have keys of their own, and whose kept rows are the same in the same order. -/
structure Twins (key : α → κ) (p q : α → Bool) (xs ys : List α) : Prop where
  left : (xs.map key).Nodup
  right : (ys.map key).Nodup
  kept : xs.filter p = ys.filter q

/-- The rows that a window shows decide what it shows. -/
theorem map_eq_of_take_eq {n i : ℕ} (h : (xs.map f).take n = (ys.map g).take n) (hi : i < n) :
    xs[i]?.map f = ys[i]?.map g := by
  have hget := congrArg (·[i]?) h
  simpa [List.getElem?_take, hi] using hget

/-- First rows with one key are both kept or both dropped. -/
theorem Twins.tail {x y : α} (h : Twins key p q (x :: xs) (y :: ys)) (hkey : key x = key y) :
    Twins key p q xs ys := by
  obtain ⟨hleft, hright, hkept⟩ := h
  have hleft' := (List.nodup_cons.mp hleft).2
  have hright' := (List.nodup_cons.mp hright).2
  cases hp : p x with
  | true =>
      have hmem : x ∈ y :: ys := List.mem_of_mem_filter (hkept ▸ List.mem_filter.mpr ⟨List.mem_cons_self, hp⟩)
      obtain rfl := List.inj_on_of_nodup_map hright hmem List.mem_cons_self hkey
      have hq : q x = true := by
        have hx : x ∈ (x :: ys).filter q := hkept ▸ List.mem_filter.mpr ⟨List.mem_cons_self, hp⟩
        exact (List.mem_filter.mp hx).2
      rw [List.filter_cons_of_pos hp, List.filter_cons_of_pos hq] at hkept
      exact ⟨hleft', hright', (List.cons.inj hkept).2⟩
  | false =>
      have hq : q y = false := by
        by_contra hq
        rw [Bool.not_eq_false] at hq
        have hy : y ∈ (x :: xs).filter p := hkept ▸ List.mem_filter.mpr ⟨List.mem_cons_self, hq⟩
        obtain ⟨hmem, hpy⟩ := List.mem_filter.mp hy
        obtain rfl := List.inj_on_of_nodup_map hleft List.mem_cons_self hmem hkey
        cases hp.symm.trans hpy
      rw [List.filter_cons_of_neg (by simp [hp]), List.filter_cons_of_neg (by simp [hq])] at hkept
      exact ⟨hleft', hright', hkept⟩

/-- The windows show the same exactly when they do so wherever one of the lists has a row that may
differ. -/
theorem take_map_eq_iff (n : ℕ) (h : Twins key p q xs ys) (ht : ∀ x ∈ xs, t x = false → p x = true)
    (hu : ∀ y ∈ ys, u y = false → q y = true) (hkey : ∀ x y, f x = g y → key x = key y)
    (hsame : ∀ x ∈ xs, x ∈ ys → t x = false → u x = false → f x = g x) :
    (xs.map f).take n = (ys.map g).take n ↔
      ∀ i < n, xs[i]?.any t = true ∨ ys[i]?.any u = true → xs[i]?.map f = ys[i]?.map g := by
  constructor
  · exact fun heq i hi _ => map_eq_of_take_eq heq hi
  · intro hshown
    induction n generalizing xs ys with
    | zero => rw [List.take_zero, List.take_zero]
    | succ n ih =>
        have hfirst := hshown 0 (Nat.zero_lt_succ n)
        cases xs with
        | nil =>
            cases ys with
            | nil => rfl
            | cons y ys =>
                cases huy : u y with
                | true => cases hfirst (.inr (by simpa using huy))
                | false =>
                    have hy : y ∈ ([] : List α).filter p :=
                      h.kept ▸ List.mem_filter.mpr ⟨List.mem_cons_self, hu y List.mem_cons_self huy⟩
                    cases hy
        | cons x xs =>
            cases ys with
            | nil =>
                cases htx : t x with
                | true => cases hfirst (.inl (by simpa using htx))
                | false =>
                    have hx : x ∈ ([] : List α).filter q :=
                      h.kept ▸ List.mem_filter.mpr ⟨List.mem_cons_self, ht x List.mem_cons_self htx⟩
                    cases hx
            | cons y ys =>
                have hview : f x = g y := by
                  cases htx : t x with
                  | true => exact Option.some.inj (hfirst (.inl (by simpa using htx)))
                  | false =>
                      cases huy : u y with
                      | true => exact Option.some.inj (hfirst (.inr (by simpa using huy)))
                      | false =>
                          have hp := ht x List.mem_cons_self htx
                          have hq := hu y List.mem_cons_self huy
                          have hkept := h.kept
                          rw [List.filter_cons_of_pos hp, List.filter_cons_of_pos hq] at hkept
                          obtain ⟨rfl, -⟩ := List.cons.inj hkept
                          exact hsame x List.mem_cons_self List.mem_cons_self htx huy
                have htail := h.tail (hkey x y hview)
                rw [List.map_cons, List.map_cons, List.take_succ_cons, List.take_succ_cons, hview]
                refine congrArg (g y :: ·) (ih htail (fun x hx => ht x (List.mem_cons_of_mem _ hx))
                  (fun y hy => hu y (List.mem_cons_of_mem _ hy))
                  (fun x hx hy => hsame x (List.mem_cons_of_mem _ hx) (List.mem_cons_of_mem _ hy)) ?_)
                intro i hi hany
                exact hshown (i + 1) (Nat.succ_lt_succ hi) (by simpa using hany)

end Window
