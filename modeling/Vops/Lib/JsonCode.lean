import Mathlib.Logic.Encodable.Basic
import Mathlib.Data.Rat.Encodable
import Mathlib.Logic.Equiv.List
import Vops.Lib.JsonText

/-!
# An injective coding of JSON values

* `code` — a value as natural numbers, each with what is needed to find its end: `code_injective`.
* `valueText`, `valueOf` — the value as a text without a colon, and the value of such a text.
-/

namespace JsonCode

/-! ## Codes -/

/-- A number as natural numbers. -/
def numCode : JsNum → List ℕ
  | .nan => [0, 0, 0]
  | .negInf => [1, 0, 0]
  | .fin q => [2, Encodable.encode q.num, q.den]
  | .posInf => [3, 0, 0]

/-- A text as one. -/
def textCode (s : String) : ℕ := Encodable.encode (s.toList.map Char.toNat)

mutual

/-- A value as natural numbers; the elements of an array and the fields of an object come after their
number. -/
def code : Json → List ℕ
  | .null => [0]
  | .bool b => [1, b.toNat]
  | .num n => 2 :: numCode n
  | .str s => [3, textCode s]
  | .arr xs => 4 :: xs.length :: codeElements xs
  | .obj fields => 5 :: fields.length :: codeFields fields

def codeElements : List Json → List ℕ
  | [] => []
  | x :: xs => code x ++ codeElements xs

def codeFields : List (String × Json) → List ℕ
  | [] => []
  | (name, v) :: fields => textCode name :: (code v ++ codeFields fields)

end

theorem numCode_inj {m n : JsNum} {r r' : List ℕ} (h : numCode m ++ r = numCode n ++ r') :
    m = n ∧ r = r' := by
  cases m with
  | fin p =>
      cases n with
      | fin q =>
          simp only [numCode, List.cons_append, List.nil_append, List.cons.injEq, true_and] at h
          obtain ⟨hnum, hden, hr⟩ := h
          exact ⟨congrArg _ (Rat.ext (Encodable.encode_injective hnum) hden), hr⟩
      | nan | negInf | posInf => simp [numCode] at h
  | nan | negInf | posInf => cases n <;> simp_all [numCode]

theorem textCode_inj {s t : String} (h : textCode s = textCode t) : s = t := by
  have hmap := Encodable.encode_injective h
  have hchar : Function.Injective Char.toNat := fun a b hab => Char.ext (UInt32.toNat_inj.mp hab)
  exact String.ext_iff.mpr (hchar.list_map hmap)

/-- The value is read back, whatever follows. -/
def ReadBack (v : Json) : Prop :=
  ∀ (w : Json) (r r' : List ℕ), code v ++ r = code w ++ r' → v = w ∧ r = r'

theorem codeElements_inj {xs ys : List Json} {r r' : List ℕ} (hxs : ∀ x ∈ xs, ReadBack x)
    (hlength : xs.length = ys.length) (h : codeElements xs ++ r = codeElements ys ++ r') :
    xs = ys ∧ r = r' := by
  induction xs generalizing ys with
  | nil =>
      rw [List.length_eq_zero_iff.mp hlength.symm] at h ⊢
      exact ⟨rfl, h⟩
  | cons x xs ih =>
      cases ys with
      | nil => cases hlength
      | cons y ys =>
          obtain ⟨hx, hxs⟩ := List.forall_mem_cons.mp hxs
          simp only [codeElements, List.append_assoc] at h
          obtain ⟨rfl, h'⟩ := hx y _ _ h
          obtain ⟨rfl, hr⟩ := ih hxs (Nat.succ.inj hlength) h'
          exact ⟨rfl, hr⟩

theorem codeFields_inj {fields others : List (String × Json)} {r r' : List ℕ}
    (hfields : ∀ f ∈ fields, ReadBack f.2) (hlength : fields.length = others.length)
    (h : codeFields fields ++ r = codeFields others ++ r') : fields = others ∧ r = r' := by
  induction fields generalizing others with
  | nil =>
      rw [List.length_eq_zero_iff.mp hlength.symm] at h ⊢
      exact ⟨rfl, h⟩
  | cons f fields ih =>
      obtain ⟨name, v⟩ := f
      cases others with
      | nil => cases hlength
      | cons g others =>
          obtain ⟨name', w⟩ := g
          obtain ⟨hv, hfields⟩ := List.forall_mem_cons.mp hfields
          simp only [codeFields, List.cons_append, List.append_assoc, List.cons.injEq] at h
          obtain ⟨rfl, h'⟩ := hv w _ _ h.2
          obtain ⟨rfl, hr⟩ := ih hfields (Nat.succ.inj hlength) h'
          exact ⟨by rw [textCode_inj h.1], hr⟩

theorem readBack (v : Json) : ReadBack v := by
  induction v using Json.inductionOn with
  | null => intro w r r' h; cases w <;> simp_all [code]
  | bool b =>
      intro w r r' h
      cases w <;> simp_all [code]
      cases b <;> rename_i b' <;> cases b' <;> simp_all
  | num n =>
      intro w r r' h
      cases w <;> simp_all [code]
      exact numCode_inj h
  | str s =>
      intro w r r' h
      cases w <;> simp_all [code]
      exact textCode_inj h.1
  | arr xs ih =>
      intro w r r' h
      cases w with
      | arr ys =>
          simp only [code, List.cons_append, List.cons.injEq, true_and] at h
          obtain ⟨rfl, hr⟩ := codeElements_inj ih h.1 h.2
          exact ⟨rfl, hr⟩
      | null | bool | num | str | obj => simp [code] at h
  | obj fields ih =>
      intro w r r' h
      cases w with
      | obj others =>
          simp only [code, List.cons_append, List.cons.injEq, true_and] at h
          obtain ⟨rfl, hr⟩ := codeFields_inj ih h.1 h.2
          exact ⟨rfl, hr⟩
      | null | bool | num | str | arr => simp [code] at h

theorem code_injective : Function.Injective code := by
  intro v w h
  exact (readBack v w [] [] (by rw [h])).1

/-! ## Texts -/

/-- A number as a text. -/
def unary (n : ℕ) : List Char := List.replicate (n + 1) 'x'

theorem unary_injective : Function.Injective unary := by
  intro m n h
  have hlength := congrArg List.length h
  simpa [unary] using hlength

theorem colon_not_mem_unary (n : ℕ) : ':' ∉ unary n := by simp [unary]

instance : Nonempty Json := ⟨.null⟩

/-- The value as a text. -/
def valueText (v : Json) : List Char := unary (Encodable.encode (code v))

/-- The value of a text. -/
noncomputable def valueOf (text : List Char) : Json := Classical.epsilon fun v => valueText v = text

theorem valueOf_valueText (v : Json) : valueOf (valueText v) = v :=
  code_injective (Encodable.encode_injective (unary_injective
    (Classical.epsilon_spec (p := fun w => valueText w = valueText v) ⟨v, rfl⟩)))

end JsonCode
