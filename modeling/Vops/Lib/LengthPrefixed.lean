import Mathlib

/-!
# Strings behind their lengths

* `LengthPrefixed.Str` — a string whose length fits a word of 32 bits.
* `LengthPrefixed.encode` — strings one after the other, each behind its length, the highest byte first.
* `LengthPrefixed.readWord_word`, `LengthPrefixed.word_readWord` — the word that is written is the one that is
  read, and the other way round.
-/

namespace LengthPrefixed

/-- A string whose length fits a word. -/
structure Str where
  bytes : List UInt8
  short : bytes.length < 2 ^ 32

/-- A number below `2 ^ 32` in four bytes, the highest first. -/
def word (n : ℕ) : List UInt8 :=
  [UInt8.ofNat (n / 16777216), UInt8.ofNat (n / 65536 % 256), UInt8.ofNat (n / 256 % 256), UInt8.ofNat (n % 256)]

/-- The number in the first four bytes. -/
def readWord : List UInt8 → ℕ
  | a :: b :: c :: d :: _ => a.toNat * 16777216 + b.toNat * 65536 + c.toNat * 256 + d.toNat
  | _ => 0

/-- Strings, each behind its length. -/
def encode (strings : List Str) : List UInt8 := strings.flatMap fun s => word s.bytes.length ++ s.bytes

theorem encode_cons (s : Str) (strings : List Str) :
    encode (s :: strings) = word s.bytes.length ++ (s.bytes ++ encode strings) := by
  rw [encode, List.flatMap_cons, List.append_assoc, encode]

theorem readWord_lt (bytes : List UInt8) : readWord bytes < 2 ^ 32 := by
  unfold readWord
  split
  next a b c d _ =>
    have ha := a.toNat_lt
    have hb := b.toNat_lt
    have hc := c.toNat_lt
    have hd := d.toNat_lt
    omega
  next => exact Nat.two_pow_pos 32

theorem readWord_word {n : ℕ} (h : n < 2 ^ 32) (rest : List UInt8) : readWord (word n ++ rest) = n := by
  change (UInt8.ofNat _).toNat * 16777216 + (UInt8.ofNat _).toNat * 65536 + (UInt8.ofNat _).toNat * 256 +
    (UInt8.ofNat _).toNat = n
  simp only [UInt8.toNat_ofNat']
  omega

/-- What begins with four bytes begins with the word that they are. -/
theorem word_readWord {bytes : List UInt8} (h : 4 ≤ bytes.length) :
    word (readWord bytes) ++ bytes.drop 4 = bytes := by
  match bytes, h with
  | a :: b :: c :: d :: rest, _ =>
      have ha := a.toNat_lt
      have hb := b.toNat_lt
      have hc := c.toNat_lt
      have hd := d.toNat_lt
      have hword : ∀ {b : UInt8} {n : ℕ}, n = b.toNat → UInt8.ofNat n = b := by
        rintro b n rfl
        exact UInt8.ofNat_toNat
      rw [readWord, word, @hword a _ (by omega), @hword b _ (by omega), @hword c _ (by omega),
        @hword d _ (by omega)]
      rfl

end LengthPrefixed
