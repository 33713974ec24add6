import Mathlib.Data.List.Infix
import Mathlib.Data.List.Pairwise
import Mathlib.Data.List.Range

/-!
# Pages of a table that grows, by key

The rows of a table have ascending keys. It is shown page by page, the last row first; each page asks for one
row more than it shows, and the next one lies behind the key of its last row.

* `KeysetPages.behind`, `KeysetPages.page` — what lies behind a key, and a page of it.
* `KeysetPages.behind_page` — what lies behind a page is the rest of what it was taken from.
* `KeysetPages.behind_append` — rows that come on top lie behind no key of the table.
* `KeysetPages.pages_cover` — page after page, while the table grows, the rows of the table at the first page
  come, each once.
-/

namespace KeysetPages

variable {α : Type*}

/-- The keys ascend. -/
def Ascending (key : α → ℕ) (table : List α) : Prop := table.Pairwise fun a b => key a < key b

/-- The rows that are kept and lie behind a key, the last first. -/
def behind (key : α → ℕ) (keep : α → Bool) (table : List α) (before : Option ℕ) : List α :=
  (table.filter fun a => keep a && before.all fun k => decide (key a < k)).reverse

/-- A page, with the key that the next one lies behind. -/
structure Page (α : Type*) where
  rows : List α
  next : Option ℕ

/-- A page of `size` rows. -/
def page (key : α → ℕ) (keep : α → Bool) (table : List α) (before : Option ℕ) (size : ℕ) : Page α :=
  let rows := (behind key keep table before).take (size + 1)
  ⟨rows.take size, if size < rows.length then (rows.take size).getLast?.map key else none⟩

variable {key : α → ℕ} {keep : α → Bool} {table new : List α} {before : Option ℕ} {size k : ℕ}

theorem mem_behind {a : α} :
    a ∈ behind key keep table before ↔ a ∈ table ∧ keep a = true ∧ ∀ k ∈ before, key a < k := by
  simp [behind, Option.all_eq_true]

theorem behind_descends (h : Ascending key table) :
    (behind key keep table before).Pairwise fun a b => key b < key a :=
  List.pairwise_reverse.mpr (h.sublist List.filter_sublist)

/-- What lies behind a key, of what lies behind a greater one. -/
theorem behind_behind (hk : ∀ k' ∈ before, k < k') :
    behind key keep table (some k) = (behind key keep table before).filter fun a => decide (key a < k) := by
  rw [behind, behind, ← List.filter_reverse, ← List.filter_reverse, List.filter_filter]
  refine List.filter_congr fun a _ => ?_
  by_cases ha : key a < k
  · have hall : before.all (fun k' => decide (key a < k')) = true := by
      rw [Option.all_eq_true]
      exact fun k' hk' => decide_eq_true (ha.trans (hk k' hk'))
    simp [ha, hall]
  · simp [ha]

/-- Rows that come on top lie behind no key of the table. -/
theorem behind_append (h : Ascending key (table ++ new)) (hk : ∃ a ∈ table, key a = k) :
    behind key keep (table ++ new) (some k) = behind key keep table (some k) := by
  obtain ⟨a, ha, rfl⟩ := hk
  have hnone : new.filter (fun b => keep b && (some (key a)).all fun k => decide (key b < k)) = [] := by
    rw [List.filter_eq_nil_iff]
    intro b hb
    have hlt := (List.pairwise_append.mp h).2.2 a ha b hb
    simp [not_lt.mpr hlt.le]
  rw [behind, List.filter_append, hnone, List.append_nil, behind]

/-! ## One page -/

theorem page_rows : (page key keep table before size).rows = (behind key keep table before).take size := by
  rw [page, List.take_take, Nat.min_eq_left (Nat.le_succ size)]

theorem page_next : (page key keep table before size).next =
    if size < (behind key keep table before).length then
      ((behind key keep table before).take size).getLast?.map key else none := by
  rw [page, List.take_take, Nat.min_eq_left (Nat.le_succ size), List.length_take]
  refine if_congr ?_ rfl rfl
  omega

/-- The last page. -/
theorem page_last (h : (behind key keep table before).length ≤ size) :
    page key keep table before size = ⟨behind key keep table before, none⟩ := by
  have hrows := @page_rows _ key keep table before size
  have hnext := @page_next _ key keep table before size
  rw [List.take_of_length_le h] at hrows
  rw [if_neg (not_lt.mpr h)] at hnext
  exact congrArg₂ Page.mk hrows hnext

/-- What lies behind a page that is not the last is the rest of what it was taken from. -/
theorem behind_page (htable : Ascending key table) (hsize : 0 < size)
    (h : size < (behind key keep table before).length) :
    ∃ k, (page key keep table before size).next = some k ∧ (∃ a ∈ table, key a = k) ∧
      behind key keep table (some k) = (behind key keep table before).drop size := by
  have hdescends := @behind_descends _ key keep table before htable
  have hsplit := List.take_append_drop size (behind key keep table before)
  have hne : (behind key keep table before).take size ≠ [] := by
    apply List.ne_nil_of_length_pos
    rw [List.length_take]
    omega
  obtain ⟨shown, a, hshown⟩ := (List.eq_nil_or_concat _).resolve_left hne
  rw [List.concat_eq_append] at hshown
  have hmem : a ∈ behind key keep table before := by
    apply List.mem_of_mem_take
    rw [hshown]
    exact List.mem_append_right _ (List.mem_singleton_self a)
  obtain ⟨ha, -, hbefore⟩ := mem_behind.mp hmem
  refine ⟨key a, ?_, ⟨a, ha, rfl⟩, ?_⟩
  · rw [page_next, if_pos h, hshown, List.getLast?_concat, Option.map_some]
  · rw [← hsplit, hshown] at hdescends
    obtain ⟨hfirst, -, hacross⟩ := List.pairwise_append.mp hdescends
    have hshownBefore : ∀ b ∈ shown ++ [a], ¬decide (key b < key a) = true := by
      intro b hb
      rw [decide_eq_true_eq, not_lt]
      rcases List.mem_append.mp hb with hb | hb
      · exact ((List.pairwise_append.mp hfirst).2.2 b hb a (List.mem_singleton_self a)).le
      · rw [List.mem_singleton.mp hb]
    have hrest : ∀ b ∈ (behind key keep table before).drop size, decide (key b < key a) = true := by
      intro b hb
      exact decide_eq_true (hacross a (List.mem_append_right _ (List.mem_singleton_self a)) b hb)
    rw [behind_behind hbefore, ← hsplit, List.filter_append, hshown, List.filter_eq_nil_iff.mpr hshownBefore,
      List.filter_eq_self.mpr hrest, List.nil_append, ← hshown, hsplit]

/-! ## Page after page -/

/-- Where the pages of a table that changes begin, each behind the page before it. -/
def cursor (key : α → ℕ) (keep : α → Bool) (tables : ℕ → List α) (sizes : ℕ → ℕ) (first : Option ℕ) :
    ℕ → Option ℕ
  | 0 => first
  | i + 1 => (page key keep (tables i) (cursor key keep tables sizes first i) (sizes i)).next

/-- The pages of a table that changes. -/
def pageAt (key : α → ℕ) (keep : α → Bool) (tables : ℕ → List α) (sizes : ℕ → ℕ) (first : Option ℕ)
    (i : ℕ) : Page α :=
  page key keep (tables i) (cursor key keep tables sizes first i) (sizes i)

variable {tables : ℕ → List α} {sizes : ℕ → ℕ} {first : Option ℕ}

/-- The pages behind the first one. -/
theorem pageAt_succ (i : ℕ) : pageAt key keep tables sizes first (i + 1) =
    pageAt key keep (fun i => tables (i + 1)) (fun i => sizes (i + 1))
      (page key keep (tables 0) first (sizes 0)).next i := by
  have hcursor : ∀ i, cursor key keep tables sizes first (i + 1) =
      cursor key keep (fun i => tables (i + 1)) (fun i => sizes (i + 1))
        (page key keep (tables 0) first (sizes 0)).next i := by
    intro i
    induction i with
    | zero => rfl
    | succ i ih => rw [cursor, ih, cursor]
  rw [pageAt, hcursor, pageAt]

/-- Page after page, while rows come on top, the pages end, and show what lay behind the first key. -/
theorem pages_cover (htables : ∀ i, Ascending key (tables i)) (hgrows : ∀ i, tables i <+: tables (i + 1))
    (hsizes : ∀ i, 0 < sizes i) : ∃ n,
      (∀ i < n, (pageAt key keep tables sizes first i).next ≠ none) ∧
      (pageAt key keep tables sizes first n).next = none ∧
      (List.range (n + 1)).flatMap (fun i => (pageAt key keep tables sizes first i).rows) =
        behind key keep (tables 0) first := by
  -- by induction on what is left to show
  generalize hleft : (behind key keep (tables 0) first).length = left
  induction left using Nat.strong_induction_on generalizing tables sizes first with
  | _ left ih =>
      by_cases hmore : sizes 0 < left
      · obtain ⟨k, hnext, hk, hbehind⟩ := behind_page (htables 0) (hsizes 0) (hleft ▸ hmore)
        obtain ⟨new, hnew⟩ := hgrows 0
        have hshifted : behind key keep (tables 1) (some k) =
            (behind key keep (tables 0) first).drop (sizes 0) := by
          rw [← hbehind, ← hnew]
          refine behind_append ?_ hk
          rw [hnew]
          exact htables 1
        have hless : left - sizes 0 < left := by
          have hpos := hsizes 0
          omega
        obtain ⟨n, hopen, hlast, hshow⟩ := @ih (left - sizes 0) hless (fun i => tables (i + 1))
          (fun i => sizes (i + 1)) (some k) (fun i => htables (i + 1)) (fun i => hgrows (i + 1))
          (fun i => hsizes (i + 1)) (by rw [hshifted, List.length_drop, hleft])
        rw [← hnext] at hopen hlast hshow
        refine ⟨n + 1, fun i hi => ?_, ?_, ?_⟩
        · cases i with
          | zero =>
              rw [pageAt, cursor, hnext]
              exact Option.some_ne_none k
          | succ i =>
              rw [pageAt_succ]
              exact hopen i (Nat.succ_lt_succ_iff.mp hi)
        · rw [pageAt_succ, hlast]
        · rw [List.range_succ_eq_map, List.flatMap_cons, List.flatMap_map]
          simp only [Nat.succ_eq_add_one, pageAt_succ]
          rw [hshow, hnext, hshifted, pageAt, cursor, page_rows, List.take_append_drop]
      · have hlast := page_last (le_of_eq_of_le hleft (not_lt.mp hmore))
        refine ⟨0, fun i hi => absurd hi (Nat.not_lt_zero i), ?_, ?_⟩
        · rw [pageAt, cursor, hlast]
        · rw [List.range_succ, List.range_zero, List.nil_append, List.flatMap_singleton, pageAt, cursor, hlast]

end KeysetPages
