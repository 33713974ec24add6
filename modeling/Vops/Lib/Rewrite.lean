import Vops.Lib.TextLines
import Mathlib.Data.List.Basic
import Mathlib.Data.List.Forall2
import Mathlib.Order.Basic

/-!
# Global replacement in a text

`String.replace` with a global regular expression reads a text from left to right; where the
expression matches, the match is replaced and reading goes on behind it.

* `replaceAll m` — the replacement, for a matcher `m` that sees the character before the position
  (for `\b`) and the text from the position on, and answers a length and the replacement text.
* `Replaced m` — the same as a relation, one constructor for each way a position is treated
  (`replaced_replaceAll`).
* `Marked` — a text some parts of which are replaced by markers that begin with `[`: what occurs in
  the result without a `[` was in the original (`Marked.kept`, `Marked.kept_inside`).
* `Free Φ` — no word of the shape `Φ` occurs (`Free.marked`: marking creates none).

Nothing here mentions a particular expression.
-/

/-! ## Replacement -/

/-- Replace every match of `m`, left to right. The counter is the number of characters still to be
skipped because they belong to a match already replaced. -/
def replaceAll (m : Option Char → List Char → Option (ℕ × List Char)) :
    ℕ → Option Char → List Char → List Char
  | _, _, [] => []
  | n + 1, _, c :: cs => replaceAll m n (some c) cs
  | 0, prev, c :: cs =>
      match m prev (c :: cs) with
      | some (n, text) => text ++ replaceAll m (n - 1) (some c) cs
      | none => c :: replaceAll m 0 (some c) cs

/-- The last character of a text, or the one before it when it is empty. -/
def lastOf : Option Char → List Char → Option Char
  | prev, [] => prev
  | _, c :: cs => lastOf (some c) cs

@[simp] theorem lastOf_append (prev : Option Char) (a b : List Char) :
    lastOf prev (a ++ b) = lastOf (lastOf prev a) b := by
  induction a generalizing prev with
  | nil => rfl
  | cons c a ih => exact ih _

/-- A matcher is sound when every match is a non-empty part of the text. -/
def SoundMatcher (m : Option Char → List Char → Option (ℕ × List Char)) : Prop :=
  ∀ prev s n text, m prev s = some (n, text) → 0 < n ∧ n ≤ s.length

/-- How `replaceAll` treats a text: a character is kept where nothing matches, a match is replaced. -/
inductive Replaced (m : Option Char → List Char → Option (ℕ × List Char)) :
    Option Char → List Char → List Char → Prop
  | nil {prev} : Replaced m prev [] []
  | keep {prev c s out} : m prev (c :: s) = none → Replaced m (some c) s out →
      Replaced m prev (c :: s) (c :: out)
  | subst {prev x rest text out} : m prev (x ++ rest) = some (x.length, text) → x ≠ [] →
      Replaced m (lastOf prev x) rest out → Replaced m prev (x ++ rest) (text ++ out)

variable {m : Option Char → List Char → Option (ℕ × List Char)} {prev : Option Char}
  {s out : List Char} {M X : List Char → Prop}

theorem replaceAll_skip (n : ℕ) (prev : Option Char) (s : List Char) :
    replaceAll m n prev s = replaceAll m 0 (lastOf prev (s.take n)) (s.drop n) := by
  induction n generalizing prev s with
  | zero => simp [lastOf]
  | succ n ih =>
      cases s with
      | nil => simp [replaceAll]
      | cons c s => simpa [replaceAll, lastOf] using ih (some c) s

/-- A match is replaced, and reading goes on behind it. -/
theorem replaceAll_match {x rest text : List Char} (hx : x ≠ [])
    (h : m prev (x ++ rest) = some (x.length, text)) :
    replaceAll m 0 prev (x ++ rest) = text ++ replaceAll m 0 (lastOf prev x) rest := by
  obtain ⟨c, x, rfl⟩ := List.exists_cons_of_ne_nil hx
  rw [List.cons_append] at h ⊢
  rw [replaceAll, h]
  change text ++ replaceAll m x.length (some c) (x ++ rest) = _
  rw [replaceAll_skip]
  simp [lastOf]

/-- `replaceAll` behaves as the relation says. -/
theorem replaced_replaceAll (hm : SoundMatcher m) :
    (prev : Option Char) → (s : List Char) → Replaced m prev s (replaceAll m 0 prev s)
  | _, [] => .nil
  | prev, c :: s => by
      rcases hc : m prev (c :: s) with _ | ⟨n, text⟩
      · have h := replaced_replaceAll hm (some c) s
        simpa [replaceAll, hc] using Replaced.keep hc h
      · obtain ⟨hpos, hlen⟩ := hm _ _ _ _ hc
        obtain ⟨n, rfl⟩ : ∃ k, n = k + 1 := ⟨n - 1, by omega⟩
        have htake : (c :: s).take (n + 1) ++ (c :: s).drop (n + 1) = c :: s :=
          List.take_append_drop _ _
        have hxlen : ((c :: s).take (n + 1)).length = n + 1 := by
          simpa using Nat.min_eq_left (Nat.le_of_succ_le_succ hlen)
        have h := replaced_replaceAll hm (lastOf prev ((c :: s).take (n + 1))) ((c :: s).drop (n + 1))
        have hmatch : m prev ((c :: s).take (n + 1) ++ (c :: s).drop (n + 1)) =
            some (((c :: s).take (n + 1)).length, text) := by rw [htake, hxlen]; exact hc
        have hsub := Replaced.subst hmatch (by simp) h
        rw [htake] at hsub
        simpa [replaceAll, hc, replaceAll_skip n (some c) s, lastOf] using hsub
  termination_by _ s => s.length

/-- Where nothing matches, the text is unchanged. -/
theorem replaceAll_eq_self (h : ∀ a c b, s = a ++ c :: b → m (lastOf prev a) (c :: b) = none) :
    replaceAll m 0 prev s = s := by
  induction s generalizing prev with
  | nil => rfl
  | cons c s ih =>
      have hc : m prev (c :: s) = none := h [] c s rfl
      have hs : replaceAll m 0 (some c) s = s :=
        ih fun a d b hab => h (c :: a) d b (by rw [hab]; rfl)
      simp [replaceAll, hc, hs]

/-- The start of a result, up to the first `[`, is the start of the original up to a relation that
the replacement texts keep to before their own first `[`. -/
theorem Replaced.start {Sim : Char → Char → Prop} (hrefl : ∀ c, Sim c c)
    (hm : ∀ prev x rest text, m prev (x ++ rest) = some (x.length, text) →
      ∃ t v a b, text = t ++ '[' :: v ∧ x = a ++ b ∧ List.Forall₂ Sim t a)
    (h : Replaced m prev s out) {w q : List Char} (hw : out = w ++ q) (hb : '[' ∉ w) :
    ∃ w' q', s = w' ++ q' ∧ List.Forall₂ Sim w w' := by
  induction h generalizing w with
  | nil =>
      obtain ⟨rfl, -⟩ := List.append_eq_nil_iff.mp hw.symm
      exact ⟨[], [], rfl, .nil⟩
  | @keep prev c s out _ _ ih =>
      cases w with
      | nil => exact ⟨[], c :: s, rfl, .nil⟩
      | cons d w =>
          obtain ⟨rfl, hout⟩ := List.cons.inj hw
          obtain ⟨w', q', rfl, hsim⟩ := ih hout (fun hmem => hb (List.mem_cons_of_mem _ hmem))
          exact ⟨c :: w', q', rfl, .cons (hrefl c) hsim⟩
  | @subst prev x rest text out hx _ _ _ =>
      obtain ⟨t, v, a, b, rfl, rfl, hsim⟩ := hm _ _ _ _ hx
      -- the word ends before the `[` of the replacement text
      have hlen : w.length ≤ t.length := by
        by_contra hlt
        have hget : w[t.length]? = some '[' := by
          have := congrArg (fun l => l[t.length]?) hw
          simp only [List.append_assoc, List.cons_append] at this
          rw [List.getElem?_append_right (Nat.le_refl _), List.getElem?_append_left (by omega)] at this
          simpa using this.symm
        exact hb (List.mem_of_getElem? hget)
      have hwt : w = t.take w.length := by
        have := congrArg (List.take w.length) hw
        rw [List.append_assoc, List.take_append_of_le_length hlen, List.take_left] at this
        exact this.symm
      refine ⟨a.take w.length, a.drop w.length ++ (b ++ rest), ?_, ?_⟩
      · rw [← List.append_assoc, List.take_append_drop, List.append_assoc]
      · rw [hwt, List.length_take, Nat.min_eq_left hlen]
        exact List.forall₂_take _ hsim

/-! ## Markers -/

/-- A character that is not in the first part stands in the second. -/
theorem split_behind {u v a w : List Char} {d : Char} (h : u ++ v = a ++ d :: w) (hd : d ∉ u) :
    ∃ a', a = u ++ a' ∧ v = a' ++ d :: w := by
  rcases List.append_eq_append_iff.mp h with ⟨a', ha, hv⟩ | ⟨c', hu, hc⟩
  · exact ⟨a', ha, hv⟩
  · cases c' with
    | nil => exact ⟨[], by simpa using hu.symm, by simpa using hc.symm⟩
    | cons e c' =>
        obtain ⟨rfl, -⟩ := List.cons.inj hc
        exact absurd (hu ▸ List.mem_append_right _ List.mem_cons_self) hd

/-- `out` is `s` with some parts of the class `X` replaced by markers: texts of the class `M`, each
beginning with `[`. -/
inductive Marked (M X : List Char → Prop) : List Char → List Char → Prop
  | nil : Marked M X [] []
  | keep {c s out} : Marked M X s out → Marked M X (c :: s) (c :: out)
  | mark {x rest v out} : M ('[' :: v) → X x → Marked M X rest out →
      Marked M X (x ++ rest) ('[' :: v ++ out)

/-- Kept characters in front. -/
theorem Marked.keepAll (u : List Char) (h : Marked M X s out) : Marked M X (u ++ s) (u ++ out) := by
  induction u with
  | nil => exact h
  | cons c u ih => exact .keep ih

/-- A start of the result without `[` is the start of the original. -/
theorem Marked.kept (h : Marked M X s out) {w q : List Char} (hw : out = w ++ q) (hb : '[' ∉ w) :
    ∃ q', s = w ++ q' ∧ Marked M X q' q := by
  induction w generalizing s out with
  | nil => exact ⟨s, rfl, by rwa [← show out = q from hw]⟩
  | cons d w ih =>
      cases h with
      | nil => cases hw
      | keep h =>
          obtain ⟨rfl, hrest⟩ := List.cons.inj hw
          obtain ⟨q', rfl, hq⟩ := ih h hrest fun hmem => hb (List.mem_cons_of_mem _ hmem)
          exact ⟨q', rfl, hq⟩
      | mark hM hX h =>
          obtain ⟨rfl, -⟩ := List.cons.inj hw
          exact absurd List.mem_cons_self hb

/-- A word without `[` inside the result, whose first character is in no marker, is inside the
original, and what follows it is marked in the same way. -/
theorem Marked.kept_inside (h : Marked M X s out) {d : Char} {a w q : List Char}
    (hout : out = a ++ d :: w ++ q) (hb : '[' ∉ d :: w) (hd : ∀ v, M v → d ∉ v) :
    ∃ a' q', s = a' ++ d :: w ++ q' ∧ Marked M X q' q := by
  induction h generalizing a with
  | nil => simp at hout
  | @keep c s out h ih =>
      cases a with
      | nil =>
          obtain ⟨q', hs, hq⟩ := (Marked.keep h).kept (w := d :: w) (q := q) (by simpa using hout) hb
          exact ⟨[], q', by simpa using hs, hq⟩
      | cons b a =>
          obtain ⟨rfl, hrest⟩ := List.cons.inj hout
          obtain ⟨a', q', rfl, hq⟩ := ih (a := a) hrest
          exact ⟨c :: a', q', rfl, hq⟩
  | @mark x rest v out hM hX h ih =>
      -- the word starts behind the marker, since its first character is not in it
      rw [List.append_assoc, List.cons_append] at hout
      obtain ⟨a', rfl, rfl⟩ := split_behind hout (hd _ hM)
      obtain ⟨b, q', rfl, hq⟩ := ih (a := a') (by simp)
      exact ⟨x ++ b, q', by simp, hq⟩

/-! ## Words that do not occur -/

/-- No word of the shape `Φ` starts anywhere in the text; `Φ` sees the character before the word. -/
def Free (Φ : Option Char → List Char → Prop) : Option Char → List Char → Prop
  | _, [] => True
  | prev, c :: s => (∀ w q, c :: s = w ++ q → ¬ Φ prev w) ∧ Free Φ (some c) s

variable {Φ : Option Char → List Char → Prop}

theorem Free.not_start (h : Free Φ prev s) {a : List Char} {c : Char} {b : List Char}
    (hs : s = a ++ c :: b) : ∀ w q, c :: b = w ++ q → ¬ Φ (lastOf prev a) w := by
  induction a generalizing prev s with
  | nil => subst hs; exact h.1
  | cons d a ih => subst hs; exact ih h.2 rfl

/-- Behind a text in which no word can start, only the words of the rest matter. -/
theorem Free.append (u : List Char)
    (hu : ∀ a c b, u = a ++ c :: b → ∀ w q, c :: b ++ s = w ++ q → ¬ Φ (lastOf prev a) w)
    (h : Free Φ (lastOf prev u) s) : Free Φ prev (u ++ s) := by
  induction u generalizing prev with
  | nil => exact h
  | cons c u ih =>
      refine ⟨hu [] c u rfl, ih (fun a d b hab => ?_) h⟩
      exact hu (c :: a) d b (by rw [hab]; rfl)

theorem Free.tail {x rest : List Char} (h : Free Φ prev (x ++ rest)) :
    Free Φ (lastOf prev x) rest := by
  induction x generalizing prev with
  | nil => exact h
  | cons c x ih => exact ih h.2

/-- A condition on the character before only matters at the start. -/
theorem Free.of_prev {p e : Option Char} (h : Free Φ e s) (hp : ∀ w, Φ p w → Φ e w) :
    Free Φ p s := by
  cases s with
  | nil => trivial
  | cons c s => exact ⟨fun w q hw hΦ => h.1 w q hw (hp w hΦ), h.2⟩

/-- Marking a text creates no word of the shape `Φ`, when such a word has no `[`, starts in no
marker, and is no more possible behind a marker than behind the part it replaces. -/
theorem Free.marked (h : Free Φ prev s) (hM : Marked M X s out)
    (hword : ∀ p w, Φ p w → '[' ∉ w ∧ ∃ d w', w = d :: w' ∧ ∀ v, M v → d ∉ v)
    (hprev : ∀ v x p w, M v → X x → Φ (lastOf p v) w → Φ (lastOf p x) w) : Free Φ prev out := by
  induction hM generalizing prev with
  | nil => trivial
  | @keep c s out hM ih =>
      refine ⟨fun w q hw hΦ => ?_, ih h.2⟩
      obtain ⟨q', hs, -⟩ := (Marked.keep hM).kept hw (hword _ _ hΦ).1
      exact h.1 w q' hs hΦ
  | @mark x rest v out hv hX hM ih =>
      refine Free.append _ (fun a c b hab w q hw hΦ => ?_) ?_
      · obtain ⟨-, d, w', rfl, hd⟩ := hword _ w hΦ
        obtain ⟨rfl, -⟩ := List.cons.inj hw
        exact hd _ hv (by rw [hab]; simp)
      · exact (ih h.tail).of_prev fun w hw => hprev _ _ _ w hv hX hw
