import Vops.World
import Vops.AgentControl.RedactionThms

/-!
# Digests of JSON texts

* `HexDigest`, `CollisionFree` — what the properties of the audit log and of plan hashes rely on.
* `HexDigest.redactText` — redaction does not change a digest.
* `Kept` — what is read back of a value has the same text.
* `Env.spelling` — an environment whose digests spell the text out, so that they are free of
  collisions: the examples are evaluated in it.
-/

namespace Vops

variable {env : Env}

/-! ## Digests -/

/-- Digests are written in hexadecimal digits. -/
def HexDigest (env : Env) : Prop :=
  ∀ t, ∀ c ∈ (env.sha256 t).toList, c.isDigit = true ∨ ('a' ≤ c ∧ c ≤ 'f')

/-- Different texts that `stableStringify` gives have different digests. -/
def CollisionFree (env : Env) : Prop :=
  ∀ v w, env.digest v = env.digest w →
    stableStringify env.numText env.localeLe v = stableStringify env.numText env.localeLe w

/-- A digest is not changed by redaction. -/
theorem HexDigest.redactText (h : HexDigest env) (t : String) :
    redactText (env.sha256 t) = env.sha256 t := by
  refine redactText_of_plain fun c hc => ?_
  rcases h t c hc with hdigit | ⟨ha, hf⟩
  · exact isPlainChar_of_isDigit hdigit
  · have h1 : 97 ≤ c.toNat := ha
    have h2 : c.toNat ≤ 102 := hf
    have hdash : '-'.toNat = 45 := rfl
    have hat : '@'.toNat = 64 := rfl
    simp only [isPlainChar, isJsSpace, eq_iff_toNat_eq, Bool.not_eq_true', Bool.or_eq_false_iff,
      Bool.and_eq_false_imp, decide_eq_true_eq, decide_eq_false_iff_not, beq_eq_false_iff_ne, ne_eq]
    omega

theorem CollisionFree.digest_eq_iff (h : CollisionFree env) {v w : Json} :
    env.digest v = env.digest w ↔
      stableChars env.numText env.localeLe v = stableChars env.numText env.localeLe w := by
  constructor
  · intro heq
    have htext := h v w heq
    rwa [stableStringify, stableStringify, String.ofList_inj] at htext
  · intro heq
    rw [Env.digest, Env.digest, stableStringify, stableStringify, heq]

/-! ## Values that are stored unchanged -/

/-- What is read back of a value has the same text. -/
def Kept (env : Env) (v : Json) : Prop :=
  stableChars env.numText env.localeLe (storedJson v) = stableChars env.numText env.localeLe v

theorem storedJson_str (s : String) : storedJson (.str s) = .str (redactText s) := rfl

/-- The text of a string is kept when redaction does not change it. -/
theorem storedText_iff (s : String) : Kept env (.str s) ↔ redactText s = s := by
  rw [Kept, storedJson_str]
  exact ⟨stableChars_str_inj, fun h => by rw [h]⟩

/-- Fields without a sensitive key are stored value by value. -/
theorem storedFields_eq {fields : List (String × Json)}
    (h : ∀ f ∈ fields, (f.1 != "" && isSensitiveKey f.1) = false) :
    Json.reparseFields (redactFields fields) = fields.map fun f => (f.1, storedJson f.2) := by
  induction fields with
  | nil => rfl
  | cons f fields ih =>
      obtain ⟨key, v⟩ := f
      have hkey := h (key, v) List.mem_cons_self
      dsimp only at hkey
      rw [redactFields, hkey, Json.reparseFields, List.map_cons,
        ih fun f hf => h f (List.mem_cons_of_mem _ hf)]
      rfl

theorem redactText_idText {kind : String} (hkind : ∀ c ∈ kind.toList, isPlainChar c = true) (id : ℕ) :
    redactText (idText kind id) = idText kind id := by
  refine redactText_of_plain fun c hc => ?_
  simp only [idText, String.toList_append, List.mem_append] at hc
  rcases hc with (hc | hc) | hc
  · exact hkind c hc
  · obtain rfl : c = '_' := by simpa using hc
    decide
  · exact isPlainChar_toString id c hc

/-! ## A digest that spells its text out -/

/-- A digest in hexadecimal digits from which the text is read back: the code of each character in
decimal digits, with an `f` behind it. -/
def spelledHash (text : String) : String :=
  String.ofList (text.toList.flatMap fun c => Nat.toDigits 10 c.toNat ++ ['f'])

/-- What follows the sign and the numerator of a number. -/
def denominatorChars (d : ℕ) : List Char := if d = 1 then [] else 'e' :: Nat.toDigits 10 d

/-- A number with its sign, as a whole number where it is one, else with its denominator behind `e`. -/
def spelledNumber (q : ℚ) : String :=
  String.ofList ((if q.num < 0 then ['-'] else []) ++
    (Nat.toDigits 10 q.num.natAbs ++ denominatorChars q.den))

/-- An environment to evaluate runs in: digests and numbers are spelled out. -/
def Env.spelling : Env := { Env.sample with sha256 := spelledHash, numText := spelledNumber }

theorem isDigit_of_mem_toDigits {n : ℕ} : ∀ c ∈ Nat.toDigits 10 n, c.isDigit = true :=
  fun _ hc => Nat.isDigit_of_mem_toDigits (by decide) (by decide) hc

theorem toDigits_injective {m n : ℕ} (h : Nat.toDigits 10 m = Nat.toDigits 10 n) : m = n := by
  have hread := congrArg (fun digits => Nat.ofDigitChars 10 digits 0) h
  simpa only [Nat.ofDigitChars_toDigits (b := 10) (by decide) (by decide)] using hread

/-- The characters of a digest that is spelled out. -/
theorem mem_spelledHash {text : String} {c : Char} (hc : c ∈ (spelledHash text).toList) :
    c.isDigit = true ∨ c = 'f' := by
  rw [spelledHash, String.toList_ofList] at hc
  obtain ⟨d, -, hd⟩ := List.mem_flatMap.mp hc
  rcases List.mem_append.mp hd with hd | hd
  · exact .inl (isDigit_of_mem_toDigits c hd)
  · exact .inr (List.mem_singleton.mp hd)

theorem hexDigest_spelling : HexDigest Env.spelling := by
  intro text c hc
  rcases mem_spelledHash hc with hdigit | rfl
  · exact .inl hdigit
  · exact .inr (by decide)

theorem spelled_injective : ∀ s t : List Char,
    (s.flatMap fun c => Nat.toDigits 10 c.toNat ++ ['f']) =
      (t.flatMap fun c => Nat.toDigits 10 c.toNat ++ ['f']) → s = t := by
  have hne : ∀ (c : Char) (s : List Char), [] ≠ (Nat.toDigits 10 c.toNat ++ ['f']) ++ s := by
    intro c s h
    have hlen := congrArg List.length h
    simp at hlen
  have hstop : ∀ r : List Char, ∀ c ∈ ('f' :: r).head?, c.isDigit = false := by
    rintro r c ⟨⟩
    decide
  intro s
  induction s with
  | nil =>
      intro t h
      cases t with
      | nil => rfl
      | cons d t => exact absurd h (hne d _)
  | cons c s ih =>
      intro t h
      cases t with
      | nil => exact absurd h.symm (hne c _)
      | cons d t =>
          rw [List.flatMap_cons, List.flatMap_cons, List.append_assoc, List.append_assoc] at h
          obtain ⟨hcode, hrest⟩ := append_inj_of_all isDigit_of_mem_toDigits
            isDigit_of_mem_toDigits (hstop _) (hstop _) h
          rw [(eq_iff_toNat_eq c d).mpr (toDigits_injective hcode), ih t (List.cons.inj hrest).2]

theorem collisionFree_spelling : CollisionFree Env.spelling := by
  intro v w h
  rw [Env.digest, Env.digest] at h
  exact String.ext_iff.mpr (spelled_injective _ _ (String.ofList_inj.mp h))

theorem denominatorChars_injective {m n : ℕ} (h : denominatorChars m = denominatorChars n) :
    m = n := by
  unfold denominatorChars at h
  split_ifs at h with hm hn
  · exact hm.trans hn.symm
  · exact toDigits_injective (List.cons.inj h).2

theorem denominatorChars_stop (d : ℕ) : ∀ c ∈ (denominatorChars d).head?, c.isDigit = false := by
  intro c hc
  unfold denominatorChars at hc
  split_ifs at hc
  · cases hc
  · obtain rfl : 'e' = c := by simpa using hc
    decide

/-- The digits of a number do not begin with its sign. -/
theorem minus_ne_digits {r r' : List Char} {n : ℕ} : '-' :: r ≠ Nat.toDigits 10 n ++ r' := by
  intro h
  obtain ⟨c, t, hct⟩ := List.exists_cons_of_ne_nil (Nat.toDigits_ne_nil (n := n) (b := 10))
  have hc : c.isDigit = true := isDigit_of_mem_toDigits c (hct ▸ List.mem_cons_self)
  rw [hct, List.cons_append] at h
  rw [← (List.cons.inj h).1] at hc
  cases hc

theorem numberText_spelling : NumberText Env.spelling.numText where
  injective p q h := by
    change spelledNumber p = spelledNumber q at h
    rw [spelledNumber, spelledNumber, String.ofList_inj] at h
    have hparts : (p.num < 0 ↔ q.num < 0) ∧
        Nat.toDigits 10 p.num.natAbs ++ denominatorChars p.den =
          Nat.toDigits 10 q.num.natAbs ++ denominatorChars q.den := by
      split_ifs at h with hp hq hq
      · exact ⟨iff_of_true hp hq, (List.cons.inj h).2⟩
      · exact absurd h minus_ne_digits
      · exact absurd h.symm minus_ne_digits
      · exact ⟨iff_of_false hp hq, h⟩
    obtain ⟨hnum, hden⟩ := append_inj_of_all isDigit_of_mem_toDigits isDigit_of_mem_toDigits
      (denominatorChars_stop _) (denominatorChars_stop _) hparts.2
    have habs := toDigits_injective hnum
    refine Rat.ext ?_ (denominatorChars_injective hden)
    have hsign := hparts.1
    omega
  ne_empty q := by
    change (spelledNumber q).toList ≠ []
    simp [spelledNumber, Nat.toDigits_ne_nil]
  chars q c hc := by
    have hdigit : ∀ c : Char, c.isDigit = true → isNumberChar c = true := by
      intro c hc
      simp [isNumberChar, hc]
    have hmem : c ∈ (if q.num < 0 then ['-'] else []) ++
        (Nat.toDigits 10 q.num.natAbs ++ denominatorChars q.den) := by
      simpa [Env.spelling, spelledNumber] using hc
    rcases List.mem_append.mp hmem with hsign | hmem
    · split_ifs at hsign
      · obtain rfl : c = '-' := by simpa using hsign
        rfl
      · cases hsign
    · rcases List.mem_append.mp hmem with hnum | hden
      · exact hdigit c (isDigit_of_mem_toDigits c hnum)
      · unfold denominatorChars at hden
        split_ifs at hden
        · cases hden
        · rcases List.mem_cons.mp hden with rfl | hden
          · rfl
          · exact hdigit c (isDigit_of_mem_toDigits c hden)

end Vops
