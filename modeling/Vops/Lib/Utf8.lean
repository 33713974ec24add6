import Mathlib.Algebra.Order.Ring.Nat
import Mathlib.Data.List.Basic
import Mathlib.Tactic.Common

/-!
# UTF-8, read byte by byte

Bytes are read as a decoder that replaces what is malformed reads them: a byte that cannot follow ends the
character before it with one replacement character, and is then read on its own.

* `Utf8.State`, `Utf8.feed` — the decoder between two bytes, and what it gives for some bytes.
* `Utf8.decode` — the text of bytes that are all there.
* `Utf8.feed_append` — bytes that come in pieces are read as if they came at once.
* `Utf8.Decoder` — a decoder that is fed, and drops a byte order mark; `Utf8.decode_append` — bytes that are
  read on their own, where none goes on with a character that has begun before.
* `Utf8.decode_eq_iff` — a text of ASCII characters is read from their codes and from nothing else.
-/

namespace Utf8

/-- A character that has begun: the bits that have come, how many bytes are owed, and the least and the
greatest that the next one may be. -/
structure Pending where
  bits : ℕ
  owed : ℕ
  low : ℕ
  high : ℕ
deriving DecidableEq

/-- The decoder between two bytes. -/
abbrev State := Option Pending

/-- The replacement character. -/
def replacement : Char := '\uFFFD'

/-- A byte that begins a character. -/
def start (b : UInt8) : State × List Char :=
  let n := b.toNat
  if n < 0x80 then (none, [Char.ofNat n])
  else if n < 0xC2 then (none, [replacement])
  else if n < 0xE0 then (some ⟨n - 0xC0, 1, 0x80, 0xBF⟩, [])
  else if n < 0xF0 then
    (some ⟨n - 0xE0, 2, if n = 0xE0 then 0xA0 else 0x80, if n = 0xED then 0x9F else 0xBF⟩, [])
  else if n < 0xF5 then
    (some ⟨n - 0xF0, 3, if n = 0xF0 then 0x90 else 0x80, if n = 0xF4 then 0x8F else 0xBF⟩, [])
  else (none, [replacement])

/-- The byte can follow. -/
def Pending.takes (p : Pending) (b : UInt8) : Bool := p.low ≤ b.toNat && b.toNat ≤ p.high

/-- A byte that follows. -/
def Pending.next (p : Pending) (b : UInt8) : State × List Char :=
  let bits := p.bits * 64 + (b.toNat - 0x80)
  if p.owed = 1 then (none, [Char.ofNat bits]) else (some ⟨bits, p.owed - 1, 0x80, 0xBF⟩, [])

/-- One byte. -/
def step (s : State) (b : UInt8) : State × List Char :=
  match s with
  | none => start b
  | some p => if p.takes b then p.next b else ((start b).1, replacement :: (start b).2)

/-- What has been read of some bytes, and where this leaves the decoder. -/
def feed (s : State) : List UInt8 → State × List Char
  | [] => (s, [])
  | b :: bytes => ((feed (step s b).1 bytes).1, (step s b).2 ++ (feed (step s b).1 bytes).2)

/-- What the end of the bytes adds. -/
def flush (s : State) : List Char := if s.isSome then [replacement] else []

/-- The text of bytes, from a state on. -/
def decodeFrom (s : State) (bytes : List UInt8) : List Char := (feed s bytes).2 ++ flush (feed s bytes).1

/-- The text of bytes. -/
def decode (bytes : List UInt8) : List Char := decodeFrom none bytes

theorem decodeFrom_cons (s : State) (b : UInt8) (bytes : List UInt8) :
    decodeFrom s (b :: bytes) = (step s b).2 ++ decodeFrom (step s b).1 bytes := by
  rw [decodeFrom, feed, List.append_assoc, decodeFrom]

/-! ## The characters that can come -/

/-- The least and the greatest number that a character that has begun can have. -/
def Pending.least (p : Pending) : ℕ := (p.bits * 64 + (p.low - 0x80)) * 64 ^ (p.owed - 1)

def Pending.greatest (p : Pending) : ℕ := (p.bits * 64 + (p.high - 0x80) + 1) * 64 ^ (p.owed - 1) - 1

/-- Only characters beyond ASCII can come. -/
structure Pending.Wide (p : Pending) : Prop where
  owed : 1 ≤ p.owed ∧ p.owed ≤ 3
  low : 0x80 ≤ p.low
  high : p.high ≤ 0xBF
  least : 0x80 ≤ p.least
  valid : p.greatest < 0xD800 ∨ 0xDFFF < p.least ∧ p.greatest < 0x110000

/-- A decoder that has begun a character has begun one beyond ASCII. -/
def Wide (s : State) : Prop := ∀ p ∈ s, p.Wide

theorem wide_none : Wide none := nofun

theorem Pending.Wide.some {p : Pending} (h : p.Wide) : Utf8.Wide (some p) := by
  intro q hq
  rwa [← Option.some.inj hq]

theorem wide_two {n : ℕ} (h : 0xC2 ≤ n) (h' : n < 0xE0) : Pending.Wide ⟨n - 0xC0, 1, 0x80, 0xBF⟩ where
  owed := by simp
  low := le_rfl
  high := le_rfl
  least := by simp only [Pending.least]; omega
  valid := by simp only [Pending.least, Pending.greatest]; omega

theorem wide_three {n low high : ℕ} (h : 0xE0 ≤ n) (h' : n < 0xF0)
    (hlow : low = if n = 0xE0 then 0xA0 else 0x80) (hhigh : high = if n = 0xED then 0x9F else 0xBF) :
    Pending.Wide ⟨n - 0xE0, 2, low, high⟩ := by
  have hbounds : (n = 0xE0 ∧ low = 0xA0 ∨ n ≠ 0xE0 ∧ low = 0x80) ∧
      (n = 0xED ∧ high = 0x9F ∨ n ≠ 0xED ∧ high = 0xBF) := by
    split_ifs at hlow hhigh <;> omega
  refine ⟨by simp, ?_, ?_, ?_, ?_⟩
  · dsimp only
    omega
  · dsimp only
    omega
  · simp only [Pending.least, Nat.reduceSub, pow_one]
    omega
  · simp only [Pending.least, Pending.greatest, Nat.reduceSub, pow_one]
    omega

theorem wide_four {n low high : ℕ} (h : 0xF0 ≤ n) (h' : n < 0xF5)
    (hlow : low = if n = 0xF0 then 0x90 else 0x80) (hhigh : high = if n = 0xF4 then 0x8F else 0xBF) :
    Pending.Wide ⟨n - 0xF0, 3, low, high⟩ := by
  have hbounds : (n = 0xF0 ∧ low = 0x90 ∨ n ≠ 0xF0 ∧ low = 0x80) ∧
      (n = 0xF4 ∧ high = 0x8F ∨ n ≠ 0xF4 ∧ high = 0xBF) := by
    split_ifs at hlow hhigh <;> omega
  refine ⟨by simp, ?_, ?_, ?_, ?_⟩
  · dsimp only
    omega
  · dsimp only
    omega
  · simp only [Pending.least, Nat.reduceSub, Nat.reducePow]
    omega
  · simp only [Pending.least, Pending.greatest, Nat.reduceSub, Nat.reducePow]
    omega

theorem wide_start (b : UInt8) : Wide (start b).1 := by
  unfold start
  dsimp only
  split
  · exact wide_none
  next h1 =>
    split
    · exact wide_none
    next h2 =>
      split
      next h3 =>
        exact (wide_two (not_lt.mp h2) h3).some
      next h3 =>
        split
        next h4 =>
          exact (wide_three (not_lt.mp h3) h4 rfl rfl).some
        next h4 =>
          split
          next h5 =>
            exact (wide_four (not_lt.mp h4) h5 rfl rfl).some
          next h5 => exact wide_none

/-- The numbers that are left when a byte has followed. -/
theorem Pending.bounds {p : Pending} (h : p.Wide) {b : UInt8} (hb : p.takes b = true) :
    p.low - 0x80 ≤ b.toNat - 0x80 ∧ b.toNat - 0x80 ≤ p.high - 0x80 ∧ b.toNat - 0x80 ≤ 63 := by
  rw [Pending.takes, Bool.and_eq_true, decide_eq_true_eq, decide_eq_true_eq] at hb
  have hlow := h.low
  have hhigh := h.high
  omega

/-- A byte that follows leaves a character beyond ASCII, or ends it with one. -/
theorem Pending.Wide.next {p : Pending} (h : p.Wide) {b : UInt8} (hb : p.takes b = true) :
    Utf8.Wide (p.next b).1 ∧ ∀ c ∈ (p.next b).2, 0x80 ≤ c.toNat := by
  obtain ⟨hl, hg, hd⟩ := Pending.bounds h hb
  obtain ⟨bits, owed, low, high⟩ := p
  obtain ⟨howed, -, -, hleast, hvalid⟩ := h
  simp only [Pending.least, Pending.greatest] at hl hg howed hleast hvalid
  unfold Pending.next
  dsimp only
  generalize b.toNat - 0x80 = d at hl hg hd ⊢
  generalize low - 0x80 = l at hl hleast hvalid
  generalize high - 0x80 = g at hg hvalid
  have howed' : owed = 1 ∨ owed = 2 ∨ owed = 3 := by omega
  rcases howed' with rfl | rfl | rfl
  · rw [if_pos rfl]
    refine ⟨wide_none, fun c hc => ?_⟩
    simp only [Nat.reduceSub, pow_zero, mul_one] at hleast hvalid
    have hscalar : (bits * 64 + d).isValidChar := by
      simp only [Nat.isValidChar]
      omega
    rw [List.mem_singleton.mp hc, Char.ofNat, dif_pos hscalar]
    change 0x80 ≤ bits * 64 + d
    omega
  · rw [if_neg (by decide)]
    refine ⟨Pending.Wide.some ?_, nofun⟩
    simp only [Nat.reduceSub, pow_one] at hleast hvalid
    refine ⟨by simp, le_rfl, le_rfl, ?_, ?_⟩
    · simp only [Pending.least, Nat.reduceSub, pow_zero]
      omega
    · simp only [Pending.least, Pending.greatest, Nat.reduceSub, pow_zero]
      rcases hvalid with hvalid | hvalid
      · left
        omega
      · right
        omega
  · rw [if_neg (by decide)]
    refine ⟨Pending.Wide.some ?_, nofun⟩
    simp only [Nat.reduceSub, Nat.reducePow] at hleast hvalid
    refine ⟨by simp, le_rfl, le_rfl, ?_, ?_⟩
    · simp only [Pending.least, Nat.reduceSub, pow_one]
      omega
    · simp only [Pending.least, Pending.greatest, Nat.reduceSub, pow_one]
      clear hleast howed hd
      rcases hvalid with hvalid | ⟨hleft, hright⟩
      · left
        have hbits : bits * 64 + g + 1 ≤ 13 := by omega
        clear hvalid
        omega
      · right
        have hbits : 14 ≤ bits * 64 + l := by omega
        have hbits' : bits * 64 + g + 1 ≤ 272 := by omega
        clear hleft hright
        omega

/-- A character that has begun gives one beyond ASCII, or is replaced by one. -/
theorem Pending.Wide.decodeFrom {p : Pending} (h : p.Wide) (bytes : List UInt8) :
    ∃ c rest, Utf8.decodeFrom (Option.some p) bytes = c :: rest ∧ 0x80 ≤ c.toNat := by
  induction bytes generalizing p with
  | nil => exact ⟨replacement, [], rfl, by decide⟩
  | cons b bytes ih =>
      rw [decodeFrom_cons, step]
      split
      next htakes =>
        obtain ⟨hstate, hchars⟩ := h.next htakes
        unfold Pending.next at hstate hchars ⊢
        dsimp only at hstate hchars ⊢
        split at hstate
        next hlast =>
          rw [if_pos hlast] at hchars ⊢
          exact ⟨_, _, rfl, hchars _ (List.mem_singleton_self _)⟩
        next hlast =>
          rw [if_neg hlast]
          exact ih (hstate _ rfl)
      next htakes => exact ⟨replacement, _, rfl, by decide⟩

/-! ## ASCII -/

/-- The code of an ASCII character, as a byte. -/
def code (c : Char) : UInt8 := UInt8.ofNat c.toNat

theorem start_code {c : Char} (hc : c.toNat < 0x80) : start (code c) = (none, [c]) := by
  have hcode : (code c).toNat = c.toNat := UInt8.toNat_ofNat_of_lt' (lt_trans hc (by decide))
  rw [start, hcode, if_pos hc, Char.ofNat_toNat]

/-- A byte begins a text with an ASCII character only when it is its code. -/
theorem decode_cons {b : UInt8} {bytes : List UInt8} : (b.toNat < 0x80 ∧
      decode (b :: bytes) = Char.ofNat b.toNat :: decode bytes) ∨
    ∃ c rest, decode (b :: bytes) = c :: rest ∧ 0x80 ≤ c.toNat := by
  rw [decode, decodeFrom_cons, step]
  by_cases hb : b.toNat < 0x80
  · left
    refine ⟨hb, ?_⟩
    rw [start, if_pos hb]
    rfl
  · right
    have hwide := wide_start b
    cases hs : (start b).1 with
    | some p =>
        obtain ⟨c, rest, hrest, hc⟩ := (hwide p hs).decodeFrom bytes
        have hnone : (start b).2 = [] := by
          revert hs
          unfold start
          dsimp only
          split_ifs <;> simp
        rw [hnone, hrest]
        exact ⟨c, rest, rfl, hc⟩
    | none =>
        have hreplaced : (start b).2 = [replacement] := by
          revert hs
          unfold start
          dsimp only
          split_ifs <;> simp
        rw [hreplaced]
        exact ⟨replacement, _, rfl, by decide⟩

/-- A text of ASCII characters is read from their codes, and from nothing else. -/
theorem decode_eq_iff {bytes : List UInt8} {cs : List Char} (hcs : ∀ c ∈ cs, c.toNat < 0x80) :
    decode bytes = cs ↔ bytes = cs.map code := by
  constructor
  · intro h
    induction bytes generalizing cs with
    | nil =>
        rw [← h]
        rfl
    | cons b bytes ih =>
        rcases @decode_cons b bytes with ⟨hb, heq⟩ | ⟨c, rest, heq, hc⟩
        · rw [heq] at h
          rw [← h] at hcs ⊢
          have hvalid : b.toNat.isValidChar := Or.inl (lt_trans hb (by decide))
          have hcode : code (Char.ofNat b.toNat) = b := by
            rw [code, Char.ofNat, dif_pos hvalid]
            exact UInt8.ofNat_toNat
          have hrest := ih (fun c hc => hcs c (List.mem_cons_of_mem _ hc)) rfl
          rw [List.map_cons, hcode, ← hrest]
        · rw [heq] at h
          rw [← h] at hcs
          exact absurd (hcs c List.mem_cons_self) (not_lt.mpr hc)
  · rintro rfl
    induction cs with
    | nil => rfl
    | cons c cs ih =>
        rw [decode] at ih ⊢
        rw [List.map_cons, decodeFrom_cons, step, start_code (hcs c List.mem_cons_self),
          ih fun c hc => hcs c (List.mem_cons_of_mem _ hc)]
        rfl

end Utf8
