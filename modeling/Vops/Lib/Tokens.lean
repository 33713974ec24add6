import Vops.Lib.Rewrite

/-!
# Tokens that open with a doubled character

A matcher reads a token at the start of a text: how long it is and what it says.

* `pieces m` — a text cut into the characters that are kept and the tokens that `m` reads.
* `found m`, `substitute m f` — what the tokens say, and the text with `f` of it in their place.
* `Bracketed o m` — a token is `oo` and a non-empty rest without `o`, and is read alike whatever
  follows it. Such tokens never overlap (`pieces_split`), so each occurrence is read
  (`mem_found_iff`).
* `Unread m x` — what another matcher reads stays in the text (`Unread.infix_substitute`).
* `substitute_congr`, `count_le_substitute` — what a substitution depends on, and what it keeps.
-/

variable {α β γ : Type}

/-- A text, cut into characters that are kept and tokens. The counter as in `replaceAll`. -/
def pieces (m : List α → Option (ℕ × β)) : ℕ → List α → List (α ⊕ β)
  | _, [] => []
  | n + 1, _ :: cs => pieces m n cs
  | 0, c :: cs =>
      match m (c :: cs) with
      | some (n, b) => .inr b :: pieces m (n - 1) cs
      | none => .inl c :: pieces m 0 cs

/-- What the tokens of a text say. -/
def found (m : List α → Option (ℕ × β)) (s : List α) : List β :=
  (pieces m 0 s).filterMap Sum.getRight?

/-- The text with `f` of what they say in the place of its tokens. -/
def substitute (m : List α → Option (ℕ × β)) (f : β → List α) (s : List α) : List α :=
  (pieces m 0 s).flatMap (Sum.elim (fun c => [c]) f)

/-- `x` is a token of the text that says `b`. -/
def Occurs (m : List α → Option (ℕ × β)) (b : β) (s : List α) : Prop :=
  ∃ x, x <:+: s ∧ m x = some (x.length, b)

/-- A token is `oo` and a rest without `o`. -/
structure Bracketed (o : α) (m : List α → Option (ℕ × β)) : Prop where
  shape : ∀ {s n b}, m s = some (n, b) → ∃ y rest, s = o :: o :: y ++ rest ∧
    n = (o :: o :: y).length ∧ y ≠ [] ∧ o ∉ y ∧
    ∀ rest', m (o :: o :: y ++ rest') = some ((o :: o :: y).length, b)

/-- No text that begins with `x` begins with a token. -/
def Unread (m : List α → Option (ℕ × β)) (x : List α) : Prop := ∀ rest, m (x ++ rest) = none

variable {m : List α → Option (ℕ × β)} {f : β → List α} {o : α} {s w x rest : List α} {b : β}

theorem Occurs.mono {t : List α} (h : Occurs m b t) (hts : t <:+: s) : Occurs m b s := by
  obtain ⟨x, hx, hm⟩ := h
  exact ⟨x, hx.trans hts, hm⟩

theorem mem_found : b ∈ found m s ↔ .inr b ∈ pieces m 0 s := by
  simp [found, List.mem_filterMap, Sum.getRight?_eq_some_iff]

theorem pieces_skip (n : ℕ) (s : List α) : pieces m n s = pieces m 0 (s.drop n) := by
  induction n generalizing s with
  | zero => rfl
  | succ n ih =>
      cases s with
      | nil => rfl
      | cons c s => exact ih s

/-- A token is one piece, and reading goes on behind it. -/
theorem pieces_match (hx : x ≠ []) (h : m (x ++ rest) = some (x.length, b)) :
    pieces m 0 (x ++ rest) = .inr b :: pieces m 0 rest := by
  obtain ⟨c, x, rfl⟩ := List.exists_cons_of_ne_nil hx
  rw [List.cons_append] at h ⊢
  rw [pieces, h]
  simp [pieces_skip x.length]

theorem pieces_cons (c : α) (h : m (c :: s) = none) :
    pieces m 0 (c :: s) = .inl c :: pieces m 0 s := by
  rw [pieces, h]

namespace Bracketed

/-- A token begins with `oo`, and with no third `o`. -/
theorem eq_none (hm : Bracketed o m) (h : ∀ d z, s = o :: o :: d :: z → d = o) : m s = none := by
  cases hs : m s with
  | none => rfl
  | some r =>
      obtain ⟨y, rest, rfl, -, hy, ho, -⟩ := hm.shape hs
      obtain ⟨d, y, rfl⟩ := List.exists_cons_of_ne_nil hy
      exact absurd (h d (y ++ rest) rfl ▸ List.mem_cons_self) ho

/-- What does not begin with `o` is kept. -/
theorem pieces_plain (hm : Bracketed o m) (hw : o ∉ w) :
    pieces m 0 (w ++ rest) = w.map .inl ++ pieces m 0 rest := by
  induction w with
  | nil => rfl
  | cons c w ih =>
      obtain ⟨hc, hw⟩ := List.ne_and_not_mem_of_not_mem_cons hw
      have hnone : m (c :: (w ++ rest)) = none :=
        hm.eq_none fun d z hz => absurd (List.cons.inj hz).1.symm hc
      rw [List.cons_append, pieces_cons c hnone, ih hw]
      rfl

/-- A token that is not read is kept. -/
theorem pieces_unread (hm : Bracketed o m) (hne : w ≠ []) (hw : o ∉ w)
    (h : Unread m (o :: o :: w)) :
    pieces m 0 (o :: o :: w ++ rest) = (o :: o :: w).map .inl ++ pieces m 0 rest := by
  have hfirst : m (o :: o :: (w ++ rest)) = none := h rest
  have hsecond : m (o :: (w ++ rest)) = none := by
    refine hm.eq_none fun d z hz => ?_
    obtain ⟨c, w, rfl⟩ := List.exists_cons_of_ne_nil hne
    exact absurd ((List.cons.inj (List.cons.inj hz).2).1 ▸ List.mem_cons_self) hw
  rw [List.cons_append, List.cons_append, pieces_cons o hfirst, pieces_cons o hsecond,
    hm.pieces_plain hw]
  rfl

/-- A token that begins in front of `oo` ends there. -/
theorem length_le (hm : Bracketed o m) {a : List α} (ha : a ≠ []) {n : ℕ}
    (h : m (a ++ (o :: o :: w ++ rest)) = some (n, b)) : n ≤ a.length ∧ m a = some (n, b) := by
  obtain ⟨y, tail, hs, rfl, hy, ho, hread⟩ := hm.shape h
  rcases List.append_eq_append_iff.mp hs with ⟨c, hc, htail⟩ | ⟨c, rfl, -⟩
  · cases c with
    | nil =>
        rw [List.append_nil] at hc
        rw [hc]
        exact ⟨le_rfl, by simpa [hc] using hread []⟩
    | cons d c =>
        -- the token reaches into `oo`: only its own second `o` could be the first of these
        obtain ⟨rfl, htail⟩ := List.cons.inj htail
        obtain ⟨e, a, rfl⟩ := List.exists_cons_of_ne_nil ha
        simp only [List.cons_append, List.cons.injEq] at hc
        obtain ⟨rfl, hc⟩ := hc
        cases a with
        | nil =>
            obtain rfl : y = c := by simpa using hc
            obtain ⟨d, y, rfl⟩ := List.exists_cons_of_ne_nil hy
            have hd : o = d := (List.cons.inj (List.cons.inj htail).2).1
            exact absurd (hd ▸ List.mem_cons_self) ho
        | cons e a =>
            simp only [List.cons_append, List.cons.injEq] at hc
            exact absurd (hc.2 ▸ List.mem_append_right a List.mem_cons_self) ho
  · exact ⟨by simp, hread c⟩

/-- What stands in front of `oo` is read alike without what follows. -/
theorem pieces_split (hm : Bracketed o m) (hne : w ≠ []) (hw : o ∉ w) : (a : List α) →
    pieces m 0 (a ++ (o :: o :: w ++ rest)) = pieces m 0 a ++ pieces m 0 (o :: o :: w ++ rest)
  | [] => rfl
  | c :: a => by
      cases hc : m (c :: a ++ (o :: o :: w ++ rest)) with
      | none =>
          have hnone : m (c :: a) = none := by
            cases hca : m (c :: a) with
            | none => rfl
            | some r =>
                obtain ⟨y, tail, hs, -, -, -, hread⟩ := hm.shape hca
                rw [hs, List.append_assoc, hread] at hc
                cases hc
          rw [List.cons_append] at hc ⊢
          rw [pieces_cons c hnone, pieces_cons c hc, hm.pieces_split hne hw a]
          rfl
      | some r =>
          obtain ⟨n, b⟩ := r
          obtain ⟨hle, hread⟩ := hm.length_le (List.cons_ne_nil c a) hc
          have hlen : n - 1 ≤ a.length := by simpa using Nat.sub_le_sub_right hle 1
          rw [List.cons_append] at hc ⊢
          rw [pieces, hc, pieces, hread]
          dsimp only
          rw [pieces_skip, List.drop_append_of_le_length hlen, pieces_skip _ a,
            hm.pieces_split hne hw (a.drop (n - 1))]
          rfl
  termination_by a => a.length

/-- What is read is a token of the text. -/
theorem occurs_of_mem (hm : Bracketed o m) : {s : List α} → .inr b ∈ pieces m 0 s → Occurs m b s
  | c :: s, h => by
      cases hc : m (c :: s) with
      | none =>
          rw [pieces_cons c hc] at h
          rcases List.mem_cons.mp h with heq | h
          · cases heq
          · exact (hm.occurs_of_mem h).mono (List.suffix_cons c s).isInfix
      | some r =>
          obtain ⟨n, b'⟩ := r
          rw [pieces, hc] at h
          rcases List.mem_cons.mp h with heq | h
          · cases heq
            obtain ⟨y, rest, hs, rfl, -, -, hread⟩ := hm.shape hc
            exact ⟨o :: o :: y, hs ▸ (List.prefix_append _ _).isInfix, by simpa using hread []⟩
          · rw [pieces_skip] at h
            exact (hm.occurs_of_mem h).mono
              ((List.drop_suffix _ s).trans (List.suffix_cons c s)).isInfix
  termination_by s => s.length

/-- Each token of a text is read, and nothing else. -/
theorem mem_found_iff (hm : Bracketed o m) : b ∈ found m s ↔ Occurs m b s := by
  rw [mem_found]
  constructor
  · exact hm.occurs_of_mem
  · rintro ⟨x, ⟨a, rest, rfl⟩, hx⟩
    obtain ⟨y, tail, rfl, hlen, hy, ho, hread⟩ := hm.shape hx
    obtain rfl : tail = [] := by simpa using hlen
    rw [List.append_nil, List.append_assoc, hm.pieces_split hy ho a,
      pieces_match (List.cons_ne_nil _ _) (hread rest)]
    exact List.mem_append_right _ List.mem_cons_self

/-- A token that is not read stays in the text. -/
theorem infix_substitute (hm : Bracketed o m) (hne : w ≠ []) (hw : o ∉ w)
    (h : Unread m (o :: o :: w)) (hs : o :: o :: w <:+: s) : o :: o :: w <:+: substitute m f s := by
  obtain ⟨a, rest, rfl⟩ := hs
  refine ⟨(pieces m 0 a).flatMap (Sum.elim (fun c => [c]) f), substitute m f rest, ?_⟩
  have hpieces : pieces m 0 (a ++ o :: o :: w ++ rest) =
      pieces m 0 a ++ ((o :: o :: w).map .inl ++ pieces m 0 rest) := by
    rw [List.append_assoc, hm.pieces_split hne hw a, hm.pieces_unread hne hw h]
  simp only [substitute, hpieces, List.flatMap_append, List.flatMap_map, Sum.elim_inl]
  simp

end Bracketed

/-! ## Substitution -/

/-- A text without tokens is kept. -/
theorem substitute_of_found_nil (h : found m s = []) : substitute m f s = s := by
  suffices hp : pieces m 0 s = s.map .inl by simp [substitute, hp, List.flatMap_map]
  induction s with
  | nil => rfl
  | cons c s ih =>
      cases hc : m (c :: s) with
      | none =>
          rw [found, pieces_cons c hc] at h
          rw [pieces_cons c hc, ih h]
          rfl
      | some r =>
          rw [found, pieces, hc] at h
          cases h

/-- What replaces a token stands in the result. -/
theorem infix_of_mem_found (h : b ∈ found m s) : f b <:+: substitute m f s := by
  obtain ⟨p, q, hpq⟩ := List.append_of_mem (mem_found.mp h)
  refine ⟨p.flatMap (Sum.elim (fun c => [c]) f), q.flatMap (Sum.elim (fun c => [c]) f), ?_⟩
  rw [substitute, hpq, List.flatMap_append, List.flatMap_cons]
  simp

/-- `replaceAll` with a matcher that does not look behind. -/
theorem replaceAll_eq_substitute {m : List Char → Option (ℕ × β)} {f : β → List Char}
    (n : ℕ) (prev : Option Char) (s : List Char) :
    replaceAll (fun _ text => (m text).map fun r => (r.1, f r.2)) n prev s =
      (pieces m n s).flatMap (Sum.elim (fun c => [c]) f) := by
  induction s generalizing n prev with
  | nil => simp [replaceAll, pieces]
  | cons c s ih =>
      cases n with
      | succ n => exact ih n _
      | zero =>
          cases hc : m (c :: s) with
          | none => simp [replaceAll, pieces, hc, ih]
          | some r => simp [replaceAll, pieces, hc, ih]

/-- Only what is put in the place of the tokens that are read matters. -/
theorem substitute_congr {g : β → List α} (h : ∀ b ∈ found m s, f b = g b) :
    substitute m f s = substitute m g s := by
  unfold substitute
  refine List.flatMap_congr fun p hp => ?_
  cases p with
  | inl c => rfl
  | inr b => exact h b (mem_found.mpr hp)

/-- A character that stands in no token is there as often, at least, in the result. -/
theorem count_le_substitute [DecidableEq α] {c : α}
    (h : ∀ {s n b}, m s = some (n, b) → 0 < n ∧ c ∉ s.take n) (s : List α) :
    s.count c ≤ (substitute m f s).count c := by
  have hskip (n : ℕ) (s : List α) :
      (s.drop n).count c ≤ ((pieces m n s).flatMap (Sum.elim (fun c => [c]) f)).count c := by
    induction s generalizing n with
    | nil => simp
    | cons d s ih =>
        cases n with
        | succ n => exact ih n
        | zero =>
            cases hd : m (d :: s) with
            | none =>
                have hrest := ih 0
                rw [List.drop_zero] at hrest
                rw [pieces_cons d hd, List.flatMap_cons, List.count_append, List.drop_zero, List.count_cons,
                  Sum.elim_inl, List.count_singleton]
                omega
            | some r =>
                obtain ⟨n, b⟩ := r
                obtain ⟨hpos, hnot⟩ := h hd
                obtain ⟨n, rfl⟩ := Nat.exists_eq_succ_of_ne_zero (Nat.ne_of_gt hpos)
                have hsplit : (d :: s).count c =
                    ((d :: s).take (n + 1)).count c + ((d :: s).drop (n + 1)).count c := by
                  rw [← List.count_append, List.take_append_drop]
                rw [List.count_eq_zero.mpr hnot, Nat.zero_add, List.drop_succ_cons] at hsplit
                have hrest := ih n
                rw [pieces, hd, List.flatMap_cons, List.count_append, List.drop_zero, hsplit,
                  Nat.succ_sub_one]
                omega
  exact hskip 0 s
