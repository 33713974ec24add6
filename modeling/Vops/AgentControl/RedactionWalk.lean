import Vops.AgentControl.RedactionThms

/-!
# What redaction reads and what it keeps (`agent-control/redaction.ts`)

* `SameOutside` — two values of the same shape that differ only under sensitive keys.
* `SameShape` — the same keys and the same lengths of arrays outside sensitive keys.
* `redactSecrets_of_sameOutside` — what stands under a sensitive key has no influence.
* `redactionApplied_iff` — when something is reported to have been redacted.
* `redactSecrets_projection` — redaction is a projection, and keeps the shape of the value.
-/

namespace Vops

/-! ## Two values side by side -/

mutual

/-- The values differ only in what stands under sensitive keys. -/
def SameOutside : Json → Json → Prop
  | .arr xs, .arr ys => SameElements xs ys
  | .obj fields, .obj fields' => SameFields fields fields'
  | v, w => v = w

def SameElements : List Json → List Json → Prop
  | [], [] => True
  | x :: xs, y :: ys => SameOutside x y ∧ SameElements xs ys
  | _, _ => False

def SameFields : List (String × Json) → List (String × Json) → Prop
  | [], [] => True
  | (key, v) :: fields, (key', w) :: fields' =>
      key = key' ∧ (isSensitiveKey key = true ∨ SameOutside v w) ∧ SameFields fields fields'
  | _, _ => False

end

mutual

/-- The values have the same keys and the same lengths of arrays outside sensitive keys. -/
def SameShape : Json → Json → Prop
  | .arr xs, .arr ys => ShapedElements xs ys
  | .obj fields, .obj fields' => ShapedFields fields fields'
  | .str _, .str _ => True
  | v, w => v = w

def ShapedElements : List Json → List Json → Prop
  | [], [] => True
  | x :: xs, y :: ys => SameShape x y ∧ ShapedElements xs ys
  | _, _ => False

def ShapedFields : List (String × Json) → List (String × Json) → Prop
  | [], [] => True
  | (key, v) :: fields, (key', w) :: fields' =>
      key = key' ∧ (isSensitiveKey key = true ∨ SameShape v w) ∧ ShapedFields fields fields'
  | _, _ => False

end

/-- No text is a sensitive key that is empty. -/
theorem isSensitiveKey_ne_empty {key : String} (h : isSensitiveKey key = true) :
    (key != "" && isSensitiveKey key) = true := by
  have hne : key ≠ "" := by
    rintro rfl
    exact absurd h (by decide)
  simp [hne, h]

/-! ## Noninterference -/

mutual

theorem redactSecrets_of_sameOutside :
    (v w : Json) → SameOutside v w → redactSecrets v = redactSecrets w
  | .arr xs, .arr ys, h => by
      rw [redactSecrets, redactSecrets, redactElements_of_same xs ys h]
  | .obj fields, .obj fields', h => by
      rw [redactSecrets, redactSecrets, redactFields_of_same fields fields' h]
  | .null, w, h => by
      cases w <;> exact congrArg redactSecrets h
  | .bool b, w, h => by
      cases w <;> exact congrArg redactSecrets h
  | .num n, w, h => by
      cases w <;> exact congrArg redactSecrets h
  | .str s, w, h => by
      cases w <;> exact congrArg redactSecrets h
  | .arr _, .null, h | .arr _, .bool _, h | .arr _, .num _, h | .arr _, .str _, h
  | .arr _, .obj _, h | .obj _, .null, h | .obj _, .bool _, h | .obj _, .num _, h
  | .obj _, .str _, h | .obj _, .arr _, h => by
      cases h

theorem redactElements_of_same :
    (xs ys : List Json) → SameElements xs ys → redactElements xs = redactElements ys
  | [], [], _ => rfl
  | x :: xs, y :: ys, h => by
      obtain ⟨hx, hxs⟩ := h
      rw [redactElements, redactElements, redactSecrets_of_sameOutside x y hx,
        redactElements_of_same xs ys hxs]

theorem redactFields_of_same :
    (fields fields' : List (String × Json)) → SameFields fields fields' →
      redactFields fields = redactFields fields'
  | [], [], _ => rfl
  | (key, v) :: fields, (key', w) :: fields', h => by
      obtain ⟨rfl, hv, hfields⟩ := h
      rw [redactFields, redactFields, redactFields_of_same fields fields' hfields]
      rcases hv with hkey | hv
      · rw [if_pos (isSensitiveKey_ne_empty hkey), if_pos (isSensitiveKey_ne_empty hkey)]
      · rw [redactSecrets_of_sameOutside v w hv]

end

/-! ## The shape of the result -/

mutual

theorem sameShape_redactSecrets : (v : Json) → SameShape v (redactSecrets v)
  | .null | .bool _ | .num _ => rfl
  | .str _ => trivial
  | .arr xs => shapedElements_redactElements xs
  | .obj fields => shapedFields_redactFields fields

theorem shapedElements_redactElements : (xs : List Json) → ShapedElements xs (redactElements xs)
  | [] => trivial
  | x :: xs => ⟨sameShape_redactSecrets x, shapedElements_redactElements xs⟩

theorem shapedFields_redactFields :
    (fields : List (String × Json)) → ShapedFields fields (redactFields fields)
  | [] => trivial
  | (key, v) :: fields => by
      refine ⟨rfl, ?_, shapedFields_redactFields fields⟩
      by_cases hkey : isSensitiveKey key = true
      · exact .inl hkey
      · have hplain : ¬ (key != "" && isSensitiveKey key) = true := by simp [hkey]
        rw [if_neg hplain]
        exact .inr (sameShape_redactSecrets v)

end

/-! ## When something is reported -/

theorem map_eq_self_iff {α : Type} {f : α → α} {xs : List α} : xs.map f = xs ↔ ∀ x ∈ xs, f x = x := by
  conv_lhs => rhs; rw [← List.map_id xs]
  exact List.map_inj_left

/-- Without a sensitive key the value is reported exactly when it changed. -/
theorem redactionApplied_iff_ne {v : Json} (h : containsSecretLikeField v = false) :
    redactionApplied v = true ↔ redactSecrets v ≠ v := by
  rw [← not_iff_not, Bool.not_eq_true, not_not]
  induction v using Json.inductionOn with
  | null => exact iff_of_true rfl rfl
  | bool b => exact iff_of_true rfl rfl
  | num n => exact iff_of_true rfl rfl
  | str s => rw [redactionApplied, redactSecrets, bne_eq_false_iff_eq, Json.str.injEq]
  | arr xs ih =>
      rw [containsSecretLikeField, containsSecretLikeElement_eq, List.any_eq_false] at h
      rw [redactionApplied, redactSecrets, redactionAppliedElements_eq, redactElements_eq,
        List.any_eq_false, Json.arr.injEq, map_eq_self_iff]
      refine forall_congr' fun x => forall_congr' fun hx => ?_
      rw [Bool.not_eq_true]
      exact ih x hx (by simpa using h x hx)
  | obj fields ih =>
      rw [containsSecretLikeField, containsSecretLikeKey_eq, List.any_eq_false] at h
      rw [redactionApplied, redactSecrets, redactionAppliedFields_eq, redactFields_eq,
        List.any_eq_false, Json.obj.injEq, map_eq_self_iff]
      refine forall_congr' fun f => forall_congr' fun hf => ?_
      obtain ⟨hkey, hvalue⟩ : isSensitiveKey f.1 = false ∧ containsSecretLikeField f.2 = false := by
        simpa using h f hf
      rw [Bool.not_eq_true, hkey, Bool.and_false, Bool.false_or, ih f hf hvalue]
      exact ⟨fun hf => Prod.ext rfl hf, fun hf => congrArg Prod.snd hf⟩

/-- A sensitive key is reported, wherever it stands. -/
theorem redactionApplied_of_sensitive {v : Json} (h : containsSecretLikeField v = true) :
    redactionApplied v = true := by
  induction v using Json.inductionOn with
  | arr xs ih =>
      rw [containsSecretLikeField, containsSecretLikeElement_eq, List.any_eq_true] at h
      obtain ⟨x, hx, hsensitive⟩ := h
      rw [redactionApplied, redactionAppliedElements_eq, List.any_eq_true]
      exact ⟨x, hx, ih x hx hsensitive⟩
  | obj fields ih =>
      rw [containsSecretLikeField, containsSecretLikeKey_eq, List.any_eq_true] at h
      obtain ⟨f, hf, hsensitive⟩ := h
      rw [redactionApplied, redactionAppliedFields_eq, List.any_eq_true]
      refine ⟨f, hf, ?_⟩
      rcases Bool.or_eq_true_iff.mp hsensitive with hkey | hvalue
      · rw [isSensitiveKey_ne_empty hkey, Bool.true_or]
      · rw [ih f hf hvalue, Bool.or_true]
  | _ => cases h

/-- `applied`: the value changed, or a sensitive key is present. -/
theorem redactionApplied_iff (v : Json) : redactionApplied v = true ↔
    redactSecrets v ≠ v ∨ containsSecretLikeField v = true := by
  cases h : containsSecretLikeField v with
  | false => simp [redactionApplied_iff_ne h]
  | true => simp [redactionApplied_of_sensitive h]

/-! ## The projection -/

/-- Redaction does not see what stands under sensitive keys, redacts nothing twice, keeps keys and
lengths, and reports what it did. -/
theorem redactSecrets_projection :
    (∀ v w, SameOutside v w → redactSecrets v = redactSecrets w) ∧
      (∀ v, redactSecrets (redactSecrets v) = redactSecrets v) ∧
      (∀ v, SameShape v (redactSecrets v)) ∧
      ∀ v, redactionApplied v = true ↔ redactSecrets v ≠ v ∨ containsSecretLikeField v = true :=
  ⟨redactSecrets_of_sameOutside, redactSecrets_idem, sameShape_redactSecrets, redactionApplied_iff⟩

/-- Two requests with different passwords look the same. -/
theorem redactSecrets_projection_password :
    redactSecrets (.obj [("user", .str "ann"), ("password", .str "one")]) =
      redactSecrets (.obj [("user", .str "ann"), ("password", .arr [.null])]) :=
  redactSecrets_projection.1 _ _ ⟨rfl, .inr rfl, rfl, .inl (by decide), trivial⟩

end Vops
