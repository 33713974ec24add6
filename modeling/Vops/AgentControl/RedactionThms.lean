import Vops.AgentControl.Redaction
import Vops.Lib.JsonText

/-!
# Redaction is idempotent

What has been redacted is redacted to itself. The store redacts a record each time it writes it, so
a record that is read and written back keeps its texts.

* `BearerWord`, `KeyBlock`, `CredentialUri` — what the three expressions look for, as splittings of
  a text.
* `redactChars_free` — the redacted text has no bearer word and no private key block.
* `matchUriCredential_marked`, `replaceAll_uri_idem` — where no credential was found, none is found
  in the redacted text; a redacted credential is redacted to itself.
* `redactText_idem`, `redactSecrets_idem`, `storedJson_idem`.
-/

namespace Vops

/-! ## Characters -/

theorem eq_iff_toNat_eq (c d : Char) : c = d ↔ c.toNat = d.toNat :=
  ⟨fun h => h ▸ rfl, fun h => Char.ext (UInt32.toNat_inj.mp h)⟩

/-- Lower-casing moves the letters from `A` to `Z` by 32 and nothing else. -/
theorem toLower_toNat (c : Char) :
    c.toLower.toNat = if 65 ≤ c.toNat ∧ c.toNat ≤ 90 then c.toNat + 32 else c.toNat := by
  have hle : (c.val ≥ 'A'.val ∧ c.val ≤ 'Z'.val) ↔ 65 ≤ c.toNat ∧ c.toNat ≤ 90 := by
    rw [ge_iff_le, UInt32.le_iff_toNat_le, UInt32.le_iff_toNat_le]
    rfl
  unfold Char.toLower
  by_cases h : 65 ≤ c.toNat ∧ c.toNat ≤ 90
  · rw [dif_pos (hle.mpr h), if_pos h]
    have h90 : c.val.toNat ≤ 90 := h.2
    have h32 : ('a'.val - 'A'.val : UInt32).toNat = 32 := by decide
    change (c.val + ('a'.val - 'A'.val)).toNat = c.val.toNat + 32
    rw [UInt32.toNat_add, h32]
    omega
  · rw [dif_neg (fun hc => h (hle.mp hc)), if_neg h]

theorem isBearerChar_iff (c : Char) : isBearerChar c = true ↔ c.isAlphanum = true ∨
    c.toNat = 46 ∨ c.toNat = 95 ∨ c.toNat = 126 ∨ c.toNat = 43 ∨ c.toNat = 47 ∨ c.toNat = 61 ∨
      c.toNat = 45 := by
  simp [isBearerChar, eq_iff_toNat_eq, or_assoc]

theorem isBearerChar_toLower (c : Char) : isBearerChar c.toLower = isBearerChar c := by
  have h := toLower_toNat c
  rw [Bool.eq_iff_iff]
  simp only [isBearerChar_iff, isAlphanum_iff]
  split at h <;> omega

theorem isJsSpace_toLower (c : Char) : isJsSpace c.toLower = isJsSpace c := by
  have h := toLower_toNat c
  rw [Bool.eq_iff_iff]
  simp only [isJsSpace, Bool.or_eq_true, Bool.and_eq_true, decide_eq_true_eq, beq_iff_eq]
  split at h <;> omega

theorem isJsSpace_of_isBearerChar {c : Char} (h : isBearerChar c = true) : isJsSpace c = false := by
  rw [isBearerChar_iff, isAlphanum_iff] at h
  rw [Bool.eq_false_iff]
  simp only [isJsSpace, ne_eq, Bool.or_eq_true, Bool.and_eq_true, decide_eq_true_eq, beq_iff_eq]
  omega

/-! ## Splitting a text -/

/-- A first part all of whose characters satisfy `p`, and a rest that does not begin with one, are
what `takeWhile` and `dropWhile` find. -/
theorem takeWhile_dropWhile_append {p : Char → Bool} {a b : List Char} (ha : a.all p = true)
    (hb : ∀ c, b.head? = some c → p c = false) :
    (a ++ b).takeWhile p = a ∧ (a ++ b).dropWhile p = b := by
  have hall : ∀ x ∈ a, p x = true := List.all_eq_true.mp ha
  rw [List.takeWhile_append_of_pos hall, List.dropWhile_append_of_pos hall]
  cases b with
  | nil => simp
  | cons c b => simp [hb c rfl]

theorem head_dropWhile {p : Char → Bool} {s : List Char} :
    ∀ c, (s.dropWhile p).head? = some c → p c = false := by
  intro c hc
  have := List.head?_dropWhile_not p s
  rw [hc] at this
  simpa using this

theorem forall₂_append_left {R : Char → Char → Prop} {a b c : List Char}
    (h : List.Forall₂ R (a ++ b) c) :
    ∃ a' b', c = a' ++ b' ∧ List.Forall₂ R a a' ∧ List.Forall₂ R b b' := by
  induction a generalizing c with
  | nil => exact ⟨[], c, rfl, .nil, h⟩
  | cons x a ih =>
      cases h with
      | cons hx h =>
          obtain ⟨a', b', rfl, ha, hb⟩ := ih h
          exact ⟨_ :: a', b', rfl, .cons hx ha, hb⟩

/-! ## Bearer credentials -/

/-- What `matchBearer` looks for, behind the character `prev`. -/
def BearerWord (prev : Option Char) (w : List Char) : Prop :=
  atWordStart prev = true ∧ ∃ name spaces credential, w = name ++ (spaces ++ credential) ∧
    name.map Char.toLower = "bearer".toList ∧ spaces ≠ [] ∧ spaces.all isJsSpace = true ∧
    credential.all isBearerChar = true ∧ 8 ≤ credential.length

variable {prev : Option Char} {s w q text out : List Char} {n : ℕ}

/-- A match is a bearer word, and what follows it cannot continue the credential. -/
theorem matchBearer_some (h : matchBearer prev s = some (n, text)) :
    text = "Bearer [REDACTED]".toList ∧ atWordStart prev = true ∧ ∃ name spaces credential rest,
      s = name ++ (spaces ++ credential) ++ rest ∧
      n = (name ++ (spaces ++ credential)).length ∧
      name.map Char.toLower = "bearer".toList ∧ spaces ≠ [] ∧ spaces.all isJsSpace = true ∧
      credential.all isBearerChar = true ∧ 8 ≤ credential.length ∧
      ∀ c, rest.head? = some c → isBearerChar c = false := by
  unfold matchBearer at h
  dsimp only at h
  split at h
  · next hm =>
      obtain ⟨hstart, hname, hsp, hlen⟩ := hm
      obtain ⟨rfl, rfl⟩ := Prod.mk.inj (Option.some.inj h)
      refine ⟨rfl, hstart, s.take 6, (s.drop 6).takeWhile isJsSpace,
        ((s.drop 6).dropWhile isJsSpace).takeWhile isBearerChar,
        ((s.drop 6).dropWhile isJsSpace).dropWhile isBearerChar, ?_, ?_, hname, hsp,
        List.all_takeWhile, List.all_takeWhile, hlen, head_dropWhile⟩
      · rw [List.append_assoc, List.append_assoc, List.takeWhile_append_dropWhile,
          List.takeWhile_append_dropWhile, List.take_append_drop]
      · have h6 : (s.take 6).length = 6 := by simpa using congrArg List.length hname
        rw [List.length_append, List.length_append, h6, Nat.add_assoc]
  · cases h

theorem matchBearer_ne_none (hw : BearerWord prev w) : matchBearer prev (w ++ q) ≠ none := by
  obtain ⟨hstart, name, spaces, credential, rfl, hname, hsp, hspall, hcall, hlen⟩ := hw
  have h6 : name.length = 6 := by simpa using congrArg List.length hname
  obtain ⟨c, cs, rfl⟩ : ∃ c cs, credential = c :: cs := by
    cases credential with
    | nil => simp at hlen
    | cons c cs => exact ⟨c, cs, rfl⟩
  have htake : (name ++ (spaces ++ c :: cs) ++ q).take 6 = name := by
    rw [List.append_assoc, ← h6, List.take_left]
  have hdrop : (name ++ (spaces ++ c :: cs) ++ q).drop 6 = spaces ++ (c :: cs ++ q) := by
    rw [List.append_assoc, ← h6, List.drop_left, List.append_assoc]
  have hc : isBearerChar c = true := List.all_eq_true.mp hcall c List.mem_cons_self
  obtain ⟨htw, hdw⟩ := takeWhile_dropWhile_append (b := c :: cs ++ q) hspall (by
    intro d hd
    obtain rfl : c = d := by simpa using hd
    exact isJsSpace_of_isBearerChar hc)
  have hcred : 8 ≤ ((c :: cs ++ q).takeWhile isBearerChar).length := by
    rw [List.takeWhile_append_of_pos (List.all_eq_true.mp hcall), List.length_append]
    omega
  unfold matchBearer
  rw [htake, hdrop, htw, hdw, if_pos ⟨hstart, hname, hsp, hcred⟩]
  exact Option.some_ne_none _

theorem matchBearer_sound : SoundMatcher matchBearer := by
  intro prev s n text h
  obtain ⟨-, -, name, spaces, credential, rest, rfl, rfl, hname, -⟩ := matchBearer_some h
  have h6 : name.length = 6 := by simpa using congrArg List.length hname
  simp only [List.length_append, h6]
  omega

/-- The same letter without regard to case, or a blank for some white space. -/
def BearerSim (c d : Char) : Prop := c.toLower = d.toLower ∨ c = ' ' ∧ isJsSpace d = true

theorem bearerSim_spaces {a b : List Char} (h : List.Forall₂ BearerSim a b)
    (ha : a.all isJsSpace = true) : b.all isJsSpace = true := by
  induction h with
  | nil => rfl
  | @cons c d a b hcd _ ih =>
      simp only [List.all_cons, Bool.and_eq_true] at ha ⊢
      refine ⟨?_, ih ha.2⟩
      rcases hcd with hcd | ⟨-, hd⟩
      · rw [← isJsSpace_toLower, ← hcd, isJsSpace_toLower]; exact ha.1
      · exact hd

theorem bearerSim_credential {a b : List Char} (h : List.Forall₂ BearerSim a b)
    (ha : a.all isBearerChar = true) : b.all isBearerChar = true := by
  induction h with
  | nil => rfl
  | @cons c d a b hcd _ ih =>
      simp only [List.all_cons, Bool.and_eq_true] at ha ⊢
      refine ⟨?_, ih ha.2⟩
      rcases hcd with hcd | ⟨rfl, -⟩
      · rw [← isBearerChar_toLower, ← hcd, isBearerChar_toLower]; exact ha.1
      · exact absurd ha.1 (by decide)

theorem bearerSim_name {a b : List Char} (h : List.Forall₂ BearerSim a b)
    (ha : ' ' ∉ a.map Char.toLower) : a.map Char.toLower = b.map Char.toLower := by
  induction h with
  | nil => rfl
  | @cons c d a b hcd _ ih =>
      simp only [List.map_cons, List.mem_cons, not_or] at ha
      rw [List.map_cons, List.map_cons, ih ha.2]
      rcases hcd with hcd | ⟨rfl, -⟩
      · rw [hcd]
      · exact absurd (by decide) ha.1

theorem BearerWord.sim {w w' : List Char} (hw : BearerWord prev w)
    (h : List.Forall₂ BearerSim w w') : BearerWord prev w' := by
  obtain ⟨hstart, name, spaces, credential, rfl, hname, hsp, hspall, hcall, hlen⟩ := hw
  obtain ⟨name', rest', rfl, hn, hr⟩ := forall₂_append_left h
  obtain ⟨spaces', credential', rfl, hs, hc⟩ := forall₂_append_left hr
  refine ⟨hstart, name', spaces', credential', rfl, ?_, ?_, bearerSim_spaces hs hspall,
    bearerSim_credential hc hcall, ?_⟩
  · rw [← bearerSim_name hn (by rw [hname]; decide), hname]
  · intro hnil
    subst hnil
    exact hsp (List.forall₂_nil_right_iff.mp hs)
  · rw [← hc.length_eq]; exact hlen

theorem BearerWord.head (hw : BearerWord prev w) : ∃ c w', w = c :: w' ∧ (c = 'b' ∨ c = 'B') := by
  obtain ⟨-, name, spaces, credential, rfl, hname, -⟩ := hw
  cases name with
  | nil => exact absurd hname (by decide)
  | cons c name =>
      have hc : c.toLower = 'b' := (List.cons.inj hname).1
      refine ⟨c, name ++ (spaces ++ credential), rfl, ?_⟩
      have h := toLower_toNat c
      rw [hc] at h
      simp only [eq_iff_toNat_eq, Char.reduceToNat] at h ⊢
      split at h <;> omega

theorem BearerWord.no_bracket (hw : BearerWord prev w) : '[' ∉ w := by
  obtain ⟨-, name, spaces, credential, rfl, hname, -, hspall, hcall, -⟩ := hw
  simp only [List.mem_append, not_or]
  refine ⟨fun h => ?_, fun h => ?_, fun h => ?_⟩
  · have := List.mem_map_of_mem (f := Char.toLower) h
    rw [hname] at this
    exact absurd this (by decide)
  · exact absurd (List.all_eq_true.mp hspall _ h) (by decide)
  · exact absurd (List.all_eq_true.mp hcall _ h) (by decide)

/-- The replacement text up to its `[` is like the start of what it replaces. -/
theorem matchBearer_sim : ∀ prev x rest text, matchBearer prev (x ++ rest) = some (x.length, text) →
    ∃ t v a b, text = t ++ '[' :: v ∧ x = a ++ b ∧ List.Forall₂ BearerSim t a := by
  intro prev x rest text h
  obtain ⟨rfl, -, name, spaces, credential, rest', hs, hn, hname, hsp, hspall, -, -, -⟩ :=
    matchBearer_some h
  obtain ⟨rfl, -⟩ := List.append_inj hs hn
  obtain ⟨c, spaces, rfl⟩ := List.exists_cons_of_ne_nil hsp
  have hc : isJsSpace c = true := List.all_eq_true.mp hspall c List.mem_cons_self
  refine ⟨"Bearer ".toList, "REDACTED]".toList, name ++ [c], spaces ++ credential, by decide,
    by simp, ?_⟩
  have hname' : List.Forall₂ BearerSim "Bearer".toList name := by
    rw [← List.map_id "Bearer".toList, List.forall₂_map_left_iff]
    have hfor : List.Forall₂ (fun a b => Char.toLower a = Char.toLower b) "Bearer".toList name := by
      rw [← List.forall₂_map_left_iff (f := Char.toLower) (R := fun a b => a = Char.toLower b),
        ← List.forall₂_map_right_iff (f := Char.toLower) (R := Eq), List.forall₂_eq_eq_eq, hname]
      decide
    exact hfor.imp fun a b hab => .inl hab
  exact List.rel_append hname' (.cons (.inr ⟨rfl, hc⟩) .nil)

theorem BearerWord.length (hw : BearerWord prev w) : 15 ≤ w.length := by
  obtain ⟨-, name, spaces, credential, rfl, hname, hsp, -, -, hlen⟩ := hw
  have h6 : name.length = 6 := by simpa using congrArg List.length hname
  have h1 : 0 < spaces.length := List.length_pos_iff.mpr hsp
  simp only [List.length_append, h6]
  omega

/-- Inside the replacement text no bearer word starts: its `[` comes too soon. -/
theorem not_bearerWord_inside {a b rest : List Char} {c : Char}
    (hab : "Bearer [REDACTED]".toList = a ++ c :: b) (hw : c :: b ++ rest = w ++ q) :
    ¬ BearerWord prev w := by
  intro hword
  obtain ⟨d, w', hwd, hd⟩ := hword.head
  have hdrop : c :: b = "Bearer [REDACTED]".toList.drop a.length := by rw [hab, List.drop_left]
  have hlen : a.length < 17 := by
    have := congrArg List.length hab
    simp only [List.length_append, List.length_cons, String.length_toList] at this
    have h17 : "Bearer [REDACTED]".length = 17 := by decide
    omega
  have hall : ∀ k < 17, '[' ∈ ("Bearer [REDACTED]".toList.drop k).take 15 ∨
      ("Bearer [REDACTED]".toList.drop k).head? ≠ some 'b' ∧
      ("Bearer [REDACTED]".toList.drop k).head? ≠ some 'B' := by decide
  have hcd : c = d := by
    subst hwd
    exact (List.cons.inj hw).1
  rcases hall _ hlen with hmem | ⟨hb, hB⟩
  · rw [← hdrop] at hmem
    have htake : (c :: b ++ rest).take 15 = w.take 15 := by
      rw [hw, List.take_append_of_le_length hword.length]
    have : '[' ∈ (c :: b ++ rest).take 15 := by
      rw [List.take_append]
      exact List.mem_append_left _ hmem
    rw [htake] at this
    exact hword.no_bracket (List.mem_of_mem_take this)
  · rw [← hdrop] at hb hB
    rcases hd with rfl | rfl
    · exact hb (by simp [hcd])
    · exact hB (by simp [hcd])

/-- No bearer word is left. -/
theorem replaced_bearer_free (h : Replaced matchBearer prev s out) : Free BearerWord prev out := by
  induction h with
  | nil => trivial
  | @keep prev c s out hc h ih =>
      refine ⟨fun w q hw hword => ?_, ih⟩
      obtain ⟨w', q', hs, hsim⟩ := (Replaced.keep hc h).start (fun _ => .inl rfl) matchBearer_sim hw
        hword.no_bracket
      exact matchBearer_ne_none (hword.sim hsim) (hs ▸ hc)
  | @subst prev x rest text out hm hx h ih =>
      obtain ⟨rfl, -, name, spaces, credential, rest', hs, hn, -, -, -, -, -, hmax⟩ :=
        matchBearer_some hm
      obtain ⟨-, rfl⟩ := List.append_inj hs hn
      refine Free.append _ (fun a c b hab w q hw hword => ?_) ?_
      · exact not_bearerWord_inside hab hw hword
      · cases out with
        | nil => trivial
        | cons d out =>
            refine ⟨fun w q hw hword => ?_, ih.2⟩
            -- a word behind the replacement would continue the replaced credential
            obtain ⟨c, w', rfl, hc⟩ := hword.head
            obtain ⟨rfl, -⟩ := List.cons.inj hw
            obtain ⟨r, q', rfl, hsim⟩ := h.start (w := [d]) (fun _ => .inl rfl) matchBearer_sim rfl
              (by rcases hc with rfl | rfl <;> decide)
            have hd : [d].all isBearerChar = true := by rcases hc with rfl | rfl <;> decide
            have hr := bearerSim_credential hsim hd
            cases hsim with
            | cons hdr hnil =>
                cases hnil
                simp [hmax _ rfl] at hr

/-! ## Private key blocks -/

/-- A header or footer of a key block: `first`, a label in capitals that ends in `PRIVATE KEY`, and
five dashes. -/
def Armor (first h : List Char) : Prop :=
  ∃ label, h = first ++ (label ++ "-----".toList) ∧ label.all isHeaderChar = true ∧
    "PRIVATE KEY".toList <:+ label

variable {first h : List Char}

theorem armorLength_some (hs : armorLength first s = some n) :
    ∃ h q, s = h ++ q ∧ Armor first h ∧ n = h.length := by
  unfold armorLength at hs
  dsimp only at hs
  split at hs
  · next hm =>
      obtain ⟨hfirst, hlabel, hdash⟩ := hm
      obtain ⟨r, rfl⟩ := List.isPrefixOf_iff_prefix.mp hfirst
      rw [List.drop_left] at hlabel hdash hs
      obtain ⟨q, hq⟩ := List.isPrefixOf_iff_prefix.mp hdash
      refine ⟨first ++ (r.takeWhile isHeaderChar ++ "-----".toList), q, ?_,
        ⟨_, rfl, List.all_takeWhile, List.isSuffixOf_iff_suffix.mp hlabel⟩, ?_⟩
      · rw [List.append_assoc, List.append_assoc, hq, List.takeWhile_append_dropWhile]
      · obtain rfl := Option.some.inj hs
        have h5 : "-----".toList.length = 5 := by decide
        rw [List.length_append, List.length_append, h5, Nat.add_assoc]
  · cases hs

theorem armorLength_of_armor (ha : Armor first h) :
    armorLength first (h ++ q) = some h.length := by
  obtain ⟨label, rfl, hall, hsuf⟩ := ha
  obtain ⟨htw, hdw⟩ := takeWhile_dropWhile_append (b := "-----".toList ++ q) hall (by
    intro c hc
    obtain rfl : '-' = c := by simpa using hc
    decide)
  have hsplit : first ++ (label ++ "-----".toList) ++ q = first ++ (label ++ ("-----".toList ++ q)) := by
    simp only [List.append_assoc]
  have h5 : "-----".toList.length = 5 := by decide
  unfold armorLength
  rw [hsplit, List.drop_left, htw, hdw, if_pos ⟨List.isPrefixOf_iff_prefix.mpr (List.prefix_append _ _),
    List.isSuffixOf_iff_suffix.mpr hsuf, List.isPrefixOf_iff_prefix.mpr (List.prefix_append _ _)⟩]
  rw [List.length_append, List.length_append, h5, Nat.add_assoc]

theorem Armor.no_bracket (ha : Armor first h) (hf : '[' ∉ first) : '[' ∉ h := by
  obtain ⟨label, rfl, hall, -⟩ := ha
  simp only [List.mem_append, not_or]
  exact ⟨hf, fun hm => absurd (List.all_eq_true.mp hall _ hm) (by decide), by decide⟩

theorem Armor.last (ha : Armor first h) : ∃ y, h = y ++ ['-'] := by
  obtain ⟨label, rfl, -, -⟩ := ha
  exact ⟨first ++ (label ++ "----".toList), by simp⟩

theorem footerEnd_some (hs : footerEnd s = some n) :
    ∃ b f q, s = b ++ (f ++ q) ∧ Armor "-----END ".toList f ∧ n = (b ++ f).length := by
  induction s generalizing n with
  | nil => cases hs
  | cons c s ih =>
      unfold footerEnd at hs
      split at hs
      · next m hm =>
          obtain rfl := Option.some.inj hs
          obtain ⟨f, q, hq, hf, rfl⟩ := armorLength_some hm
          exact ⟨[], f, q, hq, hf, rfl⟩
      · obtain ⟨m, hm, rfl⟩ := Option.map_eq_some_iff.mp hs
        obtain ⟨b, f, q, rfl, hf, rfl⟩ := ih hm
        exact ⟨c :: b, f, q, rfl, hf, rfl⟩

theorem footerEnd_ne_none {b f : List Char} (hf : Armor "-----END ".toList f) :
    footerEnd (b ++ (f ++ q)) ≠ none := by
  induction b with
  | nil =>
      have hfq : armorLength "-----END ".toList (f ++ q) = some f.length := armorLength_of_armor hf
      rw [List.nil_append]
      obtain ⟨label, rfl, -, -⟩ := hf
      simp only [List.append_assoc] at hfq ⊢
      change footerEnd ('-' :: _) ≠ none
      unfold footerEnd
      have hne : armorLength "-----END ".toList ('-' :: ("----END ".toList ++
        (label ++ ("-----".toList ++ q)))) ≠ none := by
        rw [show ('-' :: ("----END ".toList ++ (label ++ ("-----".toList ++ q)))) =
          "-----END ".toList ++ (label ++ ("-----".toList ++ q)) from rfl, hfq]
        exact Option.some_ne_none _
      split
      · exact Option.some_ne_none _
      · next h0 => exact absurd h0 hne
  | cons c b ih =>
      rw [List.cons_append]
      unfold footerEnd
      split
      · exact Option.some_ne_none _
      · rw [ne_eq, Option.map_eq_none_iff]; exact ih

/-- A key block stands somewhere in the text. -/
def HasKeyBlock (s : List Char) : Prop :=
  ∃ a h b f q, s = a ++ (h ++ (b ++ (f ++ q))) ∧ Armor "-----BEGIN ".toList h ∧
    Armor "-----END ".toList f

theorem matchPrivateKey_some (hs : matchPrivateKey prev s = some (n, text)) :
    text = "[REDACTED PRIVATE KEY]".toList ∧ ∃ h b f q, s = h ++ (b ++ f) ++ q ∧
      n = (h ++ (b ++ f)).length ∧ Armor "-----BEGIN ".toList h ∧ Armor "-----END ".toList f := by
  obtain ⟨header, hheader, hs⟩ := Option.bind_eq_some_iff.mp hs
  obtain ⟨m, hm, heq⟩ := Option.map_eq_some_iff.mp hs
  obtain ⟨rfl, rfl⟩ := Prod.mk.inj heq
  obtain ⟨h, r, rfl, hh, rfl⟩ := armorLength_some hheader
  rw [List.drop_left] at hm
  obtain ⟨b, f, q, rfl, hf, rfl⟩ := footerEnd_some hm
  exact ⟨rfl, h, b, f, q, by simp, by simp, hh, hf⟩

theorem matchPrivateKey_ne_none (prev : Option Char) {b f : List Char} (hh : Armor "-----BEGIN ".toList h)
    (hf : Armor "-----END ".toList f) : matchPrivateKey prev (h ++ (b ++ (f ++ q))) ≠ none := by
  unfold matchPrivateKey
  rw [armorLength_of_armor hh, Option.bind_some, List.drop_left, ne_eq, Option.map_eq_none_iff]
  exact footerEnd_ne_none hf

theorem matchPrivateKey_sound : SoundMatcher matchPrivateKey := by
  intro prev s n text hs
  obtain ⟨-, h, b, f, q, rfl, rfl, ⟨label, rfl, -, -⟩, -⟩ := matchPrivateKey_some hs
  have h11 : "-----BEGIN ".toList.length = 11 := by decide
  simp only [List.length_append, h11]
  omega

/-- The marker of the private key replacement. -/
def KeyMarker (v : List Char) : Prop := v = "[REDACTED PRIVATE KEY]".toList

/-- What the private key replacement replaces ends in a dash. -/
def EndsInDash (x : List Char) : Prop := ∃ y, x = y ++ ['-']

theorem replaced_key_marked (h : Replaced matchPrivateKey prev s out) :
    Marked KeyMarker EndsInDash s out := by
  induction h with
  | nil => exact .nil
  | keep _ _ ih => exact .keep ih
  | @subst prev x rest text out hm hx h ih =>
      obtain ⟨rfl, hd, b, f, q, hs, hn, -, hf⟩ := matchPrivateKey_some hm
      obtain ⟨rfl, -⟩ := List.append_inj hs hn
      obtain ⟨y, rfl⟩ := hf.last
      exact Marked.mark (v := "REDACTED PRIVATE KEY]".toList) rfl
        ⟨hd ++ (b ++ y), by simp only [List.append_assoc]⟩ ih

theorem Armor.cons {c : Char} {r : List Char} (ha : Armor (c :: r) h) : ∃ h', h = c :: h' := by
  obtain ⟨label, rfl, -, -⟩ := ha
  exact ⟨_, rfl⟩

/-- No key block is left. -/
theorem replaced_key_free (h : Replaced matchPrivateKey prev s out) : ¬ HasKeyBlock out := by
  induction h with
  | nil =>
      rintro ⟨a, h, b, f, q, hs, ⟨label, rfl, -⟩, -⟩
      simp at hs
  | @keep prev c s out hc h ih =>
      rintro ⟨a, hd, b, f, q, hs, hh, hf⟩
      cases a with
      | cons d a => exact ih ⟨a, hd, b, f, q, (List.cons.inj hs).2, hh, hf⟩
      | nil =>
          -- the header is kept, so the block was there before and would have matched
          rw [List.nil_append] at hs
          obtain ⟨r, hr, hM⟩ := (Marked.keep (c := c) (replaced_key_marked h)).kept hs
            (hh.no_bracket (by decide))
          obtain ⟨f', rfl⟩ := hf.cons (c := '-') (r := "----END ".toList)
          obtain ⟨a', q', rfl, -⟩ := hM.kept_inside (d := '-') (w := f') (a := b) (q := q) (by simp)
            (hf.no_bracket (by decide)) (by rintro v rfl; decide)
          have hne := matchPrivateKey_ne_none prev (b := a') (q := q') hh hf
          rw [← List.append_assoc a', ← hr] at hne
          exact hne hc
  | @subst prev x rest text out hm hx h ih =>
      obtain ⟨rfl, -⟩ := matchPrivateKey_some hm
      rintro ⟨a, hd, b, f, q, hs, hh, hf⟩
      obtain ⟨h', rfl⟩ := hh.cons (c := '-') (r := "----BEGIN ".toList)
      obtain ⟨a', rfl, rfl⟩ := split_behind hs (by decide)
      exact ih ⟨a', _, b, f, q, rfl, hh, hf⟩

/-- Marking with a text that has no dash leaves no key block where there was none. -/
theorem not_hasKeyBlock_marked {M X : List Char → Prop} (h : Marked M X s out)
    (hM : ∀ v, M v → '-' ∉ v) (hs : ¬ HasKeyBlock s) : ¬ HasKeyBlock out := by
  rintro ⟨a, hd, b, f, q, rfl, hh, hf⟩
  obtain ⟨h', rfl⟩ := hh.cons (c := '-') (r := "----BEGIN ".toList)
  obtain ⟨f', rfl⟩ := hf.cons (c := '-') (r := "----END ".toList)
  obtain ⟨a', q', rfl, hq⟩ := h.kept_inside (d := '-') (w := h') (a := a)
    (q := b ++ ('-' :: f' ++ q)) (by simp) (hh.no_bracket (by decide)) hM
  obtain ⟨b', q'', rfl, -⟩ := hq.kept_inside (d := '-') (w := f') (a := b) (q := q) (by simp)
    (hf.no_bracket (by decide)) hM
  exact hs ⟨a', _, b', _, q'', by simp, hh, hf⟩

/-! ## Credentials in URIs -/

/-- What `matchUriCredential` looks for: the part that is kept and the password. -/
structure CredentialUri (scheme user password : List Char) : Prop where
  scheme_head : scheme.head?.any Char.isAlpha = true
  scheme_chars : scheme.all isSchemeChar = true
  user_ne : user ≠ []
  user_chars : user.all isUserChar = true
  password_ne : password ≠ []
  password_chars : password.all isPasswordChar = true

theorem matchUriCredential_some (hs : matchUriCredential prev s = some (n, text)) :
    ∃ scheme user password q, CredentialUri scheme user password ∧
      s = scheme ++ ("://".toList ++ (user ++ ':' :: (password ++ '@' :: q))) ∧
      n = (scheme ++ ("://".toList ++ (user ++ ':' :: (password ++ ['@'])))).length ∧
      text = scheme ++ ("://".toList ++ (user ++ ':' :: "[REDACTED]@".toList)) := by
  unfold matchUriCredential at hs
  dsimp only at hs
  split at hs
  · next hm =>
      obtain ⟨hhead, hsep, huser, hcolon, hpass, hat⟩ := hm
      obtain ⟨rfl, rfl⟩ := Prod.mk.inj (Option.some.inj hs)
      clear hs
      obtain ⟨r, hr⟩ := List.isPrefixOf_iff_prefix.mp hsep
      have hdrop : (s.dropWhile isSchemeChar).drop 3 = r := by rw [← hr]; rfl
      rw [hdrop] at huser hcolon hpass hat ⊢
      obtain ⟨t, ht⟩ := List.head?_eq_some_iff.mp hcolon
      rw [ht, List.drop_one, List.tail_cons] at hpass hat ⊢
      obtain ⟨q, hq⟩ := List.head?_eq_some_iff.mp hat
      refine ⟨s.takeWhile isSchemeChar, r.takeWhile isUserChar, t.takeWhile isPasswordChar, q,
        ⟨?_, List.all_takeWhile, huser, List.all_takeWhile, hpass, List.all_takeWhile⟩, ?_, ?_, ?_⟩
      · -- a letter is a scheme character, so the scheme begins as the text does
        cases s with
        | nil => simp at hhead
        | cons c s =>
            have hc : c.isAlpha = true := by simpa using hhead
            have hsc : isSchemeChar c = true := by simp [isSchemeChar, Char.isAlphanum, hc]
            simp [hsc, hc]
      · rw [← hq, List.takeWhile_append_dropWhile, ← ht, List.takeWhile_append_dropWhile, hr,
          List.takeWhile_append_dropWhile]
      · have h3 : "://".toList.length = 3 := by decide
        simp only [List.length_append, List.length_cons, List.length_nil, h3]
        omega
      · simp only [List.append_assoc]
        rfl
  · cases hs

theorem matchUriCredential_of_uri (prev : Option Char) (q : List Char)
    {scheme user password : List Char} (hu : CredentialUri scheme user password) :
    matchUriCredential prev (scheme ++ ("://".toList ++ (user ++ ':' :: (password ++ '@' :: q)))) =
      some ((scheme ++ ("://".toList ++ (user ++ ':' :: (password ++ ['@'])))).length,
        scheme ++ ("://".toList ++ (user ++ ':' :: "[REDACTED]@".toList))) := by
  have hs := takeWhile_dropWhile_append (b := "://".toList ++ (user ++ ':' :: (password ++ '@' :: q)))
    hu.scheme_chars (by
      intro c hc
      obtain rfl : ':' = c := by simpa using hc
      decide)
  have huser := takeWhile_dropWhile_append (b := ':' :: (password ++ '@' :: q)) hu.user_chars (by
      intro c hc
      obtain rfl : ':' = c := by simpa using hc
      decide)
  have hpass := takeWhile_dropWhile_append (b := '@' :: q) hu.password_chars (by
      intro c hc
      obtain rfl : '@' = c := by simpa using hc
      decide)
  have hhead : (scheme ++ ("://".toList ++ (user ++ ':' :: (password ++ '@' :: q)))).head?.any
      Char.isAlpha = true := by
    have := hu.scheme_head
    cases scheme with
    | nil => simp at this
    | cons c scheme => simpa using this
  have h3 : ("://".toList ++ (user ++ ':' :: (password ++ '@' :: q))).drop 3 =
      user ++ ':' :: (password ++ '@' :: q) := rfl
  unfold matchUriCredential
  simp only [hs.1, hs.2, h3, huser.1, huser.2, List.drop_one, List.tail_cons, hpass.1, hpass.2]
  rw [if_pos ⟨hhead, List.isPrefixOf_iff_prefix.mpr (List.prefix_append _ _), hu.user_ne, rfl,
    hu.password_ne, rfl⟩]
  refine congrArg some (Prod.ext ?_ ?_)
  · have h3 : "://".toList.length = 3 := by decide
    simp only [List.length_append, List.length_cons, List.length_nil, h3]
    omega
  · simp only [List.append_assoc]
    rfl

theorem matchUriCredential_sound : SoundMatcher matchUriCredential := by
  intro prev s n text hs
  obtain ⟨scheme, user, password, q, -, rfl, rfl, -⟩ := matchUriCredential_some hs
  simp only [List.length_append, List.length_cons, List.length_nil]
  omega

/-- The marker of the credential replacement. -/
def CredentialMarker (v : List Char) : Prop := v = "[REDACTED]@".toList

/-- What the credential replacement replaces: a password with its `@`. -/
def PasswordPart (x : List Char) : Prop :=
  ∃ password, password ≠ [] ∧ password.all isPasswordChar = true ∧ x = password ++ ['@']

theorem replaced_uri_marked (h : Replaced matchUriCredential prev s out) :
    Marked CredentialMarker PasswordPart s out := by
  induction h with
  | nil => exact .nil
  | keep _ _ ih => exact .keep ih
  | @subst prev x rest text out hm hx h ih =>
      obtain ⟨scheme, user, password, q, hu, hs, hn, rfl⟩ := matchUriCredential_some hm
      have hs' : x ++ rest =
          (scheme ++ ("://".toList ++ (user ++ ':' :: (password ++ ['@'])))) ++ q := by rw [hs]; simp
      obtain ⟨rfl, -⟩ := List.append_inj hs' hn
      have hmark : Marked CredentialMarker PasswordPart (password ++ ['@'] ++ rest)
          ("[REDACTED]@".toList ++ out) :=
        Marked.mark (v := "REDACTED]@".toList) rfl
          ⟨password, hu.password_ne, hu.password_chars, rfl⟩ ih
      have := hmark.keepAll (scheme ++ ("://".toList ++ (user ++ [':'])))
      simpa using this

/-- Up to the first `@` of the result, the original is the same or has a password where the result
has the marker. -/
theorem marked_until_at (h : Marked CredentialMarker PasswordPart s out) {z q : List Char}
    (hz : out = z ++ '@' :: q) (hat : '@' ∉ z) :
    (∃ q', s = z ++ '@' :: q') ∨ ∃ z' password q', z = z' ++ "[REDACTED]".toList ∧
      password ≠ [] ∧ password.all isPasswordChar = true ∧ s = z' ++ (password ++ '@' :: q') := by
  induction h generalizing z with
  | nil => simp at hz
  | @keep c s out h ih =>
      cases z with
      | nil =>
          obtain ⟨rfl, -⟩ := List.cons.inj hz
          exact .inl ⟨s, rfl⟩
      | cons d z =>
          obtain ⟨rfl, hout⟩ := List.cons.inj hz
          rcases ih hout fun hmem => hat (List.mem_cons_of_mem _ hmem) with
            ⟨q', rfl⟩ | ⟨z', password, q', rfl, hne, hall, rfl⟩
          · exact .inl ⟨q', rfl⟩
          · exact .inr ⟨c :: z', password, q', rfl, hne, hall, rfl⟩
  | @mark x rest v out hM hX h ih =>
      obtain ⟨password, hne, hall, rfl⟩ := hX
      obtain rfl : v = "REDACTED]@".toList := (List.cons.inj hM).2
      have hsplit : "[REDACTED]".toList ++ ('@' :: out) = z ++ '@' :: q := hz
      obtain ⟨a, rfl, ha⟩ := split_behind hsplit (by decide)
      cases a with
      | nil => exact .inr ⟨[], password, rest, by simp, hne, hall, by simp⟩
      | cons b a =>
          obtain ⟨rfl, -⟩ := List.cons.inj ha
          exact absurd (List.mem_append_right _ List.mem_cons_self) hat

/-- Where no credential was found, none is found in the redacted text. -/
theorem matchUriCredential_marked (h : Marked CredentialMarker PasswordPart s out)
    (hs : matchUriCredential prev s = none) : matchUriCredential prev out = none := by
  rw [Option.eq_none_iff_forall_ne_some]
  rintro ⟨n, text⟩ hsome
  obtain ⟨scheme, user, password, q, hu, hout, -, -⟩ := matchUriCredential_some hsome
  have hat : '@' ∉ scheme ++ ("://".toList ++ (user ++ ':' :: password)) := by
    simp only [List.mem_append, List.mem_cons, not_or]
    refine ⟨fun hm => ?_, by decide, fun hm => ?_, by decide, fun hm => ?_⟩
    · exact absurd (List.all_eq_true.mp hu.scheme_chars _ hm) (by decide)
    · exact absurd (List.all_eq_true.mp hu.user_chars _ hm) (by decide)
    · exact absurd (List.all_eq_true.mp hu.password_chars _ hm) (by decide)
  rcases marked_until_at h (z := scheme ++ ("://".toList ++ (user ++ ':' :: password))) (q := q)
    (by rw [hout]; simp) hat with ⟨q', rfl⟩ | ⟨z, password', q', hz, hne, hall, rfl⟩
  · have := matchUriCredential_of_uri prev q' hu
    simp only [List.append_assoc, List.cons_append] at hs this
    rw [hs] at this
    cases this
  · -- the marker lies in the password, since it has no `:`
    obtain ⟨a, rfl, ha⟩ : ∃ a, z = scheme ++ ("://".toList ++ (user ++ [':'])) ++ a ∧
        password = a ++ "[REDACTED]".toList := by
      have hz' : scheme ++ ("://".toList ++ (user ++ [':'])) ++ password = z ++ "[REDACTED]".toList := by
        rw [← hz]; simp
      rcases List.append_eq_append_iff.mp hz' with ⟨a, h1, h2⟩ | ⟨c, h1, h2⟩
      · exact ⟨a, h1, h2⟩
      · rcases List.eq_nil_or_concat c with rfl | ⟨c, d, rfl⟩
        · exact ⟨[], by simpa using h1.symm, by simpa using h2.symm⟩
        · have hd : ':' = d := by
            have h1' : (scheme ++ ("://".toList ++ user)) ++ [':'] = (z ++ c) ++ [d] := by
              simpa using h1
            exact (List.append_singleton_inj.mp h1').2
          have : d ∈ "[REDACTED]".toList := by rw [h2]; simp
          rw [← hd] at this
          exact absurd this (by decide)
    have hall' : (a ++ password').all isPasswordChar = true := by
      have hp := hu.password_chars
      rw [ha, List.all_append, Bool.and_eq_true] at hp
      rw [List.all_append, hp.1, hall]
      rfl
    have hu' : CredentialUri scheme user (a ++ password') :=
      { hu with password_ne := by simp [hne], password_chars := hall' }
    have := matchUriCredential_of_uri prev q' hu'
    simp only [List.append_assoc, List.cons_append, List.nil_append] at hs this
    rw [hs] at this
    cases this

/-- A redacted text is redacted to itself, as far as credentials in URIs go. -/
theorem replaceAll_uri_idem (h : Replaced matchUriCredential prev s out) :
    replaceAll matchUriCredential 0 prev out = out := by
  induction h with
  | nil => rfl
  | @keep prev c s out hc h ih =>
      have hnone : matchUriCredential prev (c :: out) = none :=
        matchUriCredential_marked (.keep (replaced_uri_marked h)) hc
      rw [replaceAll, hnone, ih]
  | @subst prev x rest text out hm hx h ih =>
      obtain ⟨scheme, user, password, q, hu, hs, hn, rfl⟩ := matchUriCredential_some hm
      have hs' : x ++ rest =
          (scheme ++ ("://".toList ++ (user ++ ':' :: (password ++ ['@'])))) ++ q := by rw [hs]; simp
      obtain ⟨rfl, -⟩ := List.append_inj hs' hn
      have hu' : CredentialUri scheme user "[REDACTED]".toList :=
        { hu with password_ne := by decide, password_chars := by decide }
      have hmatch := matchUriCredential_of_uri prev out hu'
      have hne : scheme ++ ("://".toList ++ (user ++ ':' :: "[REDACTED]@".toList)) ≠ [] := by simp
      have hmatch' : matchUriCredential prev
          (scheme ++ ("://".toList ++ (user ++ ':' :: "[REDACTED]@".toList)) ++ out) =
            some ((scheme ++ ("://".toList ++ (user ++ ':' :: "[REDACTED]@".toList))).length,
              scheme ++ ("://".toList ++ (user ++ ':' :: "[REDACTED]@".toList))) := by
        simpa using hmatch
      rw [replaceAll_match hne hmatch']
      have hlast : ∀ y : List Char, lastOf prev (y ++ ['@']) = some '@' := fun y => by simp [lastOf]
      have hx : lastOf prev (scheme ++ ("://".toList ++ (user ++ ':' :: (password ++ ['@'])))) =
          some '@' := by
        have := hlast (scheme ++ ("://".toList ++ (user ++ ':' :: password)))
        simpa using this
      have ht : lastOf prev (scheme ++ ("://".toList ++ (user ++ ':' :: "[REDACTED]@".toList))) =
          some '@' := by
        have := hlast (scheme ++ ("://".toList ++ (user ++ ':' :: "[REDACTED]".toList)))
        simpa using this
      rw [hx] at ih
      rw [ht, ih]

/-! ## Whole texts and values -/

/-- Marking keeps a text free of bearer words, when no marker has a letter `b` and what is replaced
does not end in a word character. -/
theorem bearer_free_marked {M X : List Char → Prop} (h : Marked M X s out)
    (hM : ∀ v, M v → 'b' ∉ v ∧ 'B' ∉ v)
    (hX : ∀ x p, X x → atWordStart (lastOf p x) = true) (hs : Free BearerWord prev s) :
    Free BearerWord prev out := by
  refine hs.marked h (fun p w hw => ⟨hw.no_bracket, ?_⟩) fun v x p w _ hx hw => ⟨hX x p hx, hw.2⟩
  obtain ⟨c, w', rfl, hc⟩ := hw.head
  refine ⟨c, w', rfl, fun v hv => ?_⟩
  rcases hc with rfl | rfl
  · exact (hM v hv).1
  · exact (hM v hv).2

/-- A redacted text has no bearer word and no key block, and its credentials are redacted. -/
theorem redactChars_free (s : List Char) : Free BearerWord none (redactChars s) ∧
    ¬ HasKeyBlock (redactChars s) ∧ replaceAll matchUriCredential 0 none (redactChars s) =
      redactChars s := by
  have h₁ := replaced_replaceAll matchBearer_sound none s
  have h₂ := replaced_replaceAll matchPrivateKey_sound none (replaceAll matchBearer 0 none s)
  have h₃ := replaced_replaceAll matchUriCredential_sound none
    (replaceAll matchPrivateKey 0 none (replaceAll matchBearer 0 none s))
  have hbearer := bearer_free_marked (replaced_key_marked h₂) (by rintro v rfl; decide)
    (by rintro x p ⟨y, rfl⟩; rw [lastOf_append]; rfl) (replaced_bearer_free h₁)
  refine ⟨?_, ?_, replaceAll_uri_idem h₃⟩
  · refine bearer_free_marked (replaced_uri_marked h₃) (by rintro v rfl; decide) ?_ hbearer
    rintro x p ⟨y, -, -, rfl⟩
    rw [lastOf_append]
    rfl
  · exact not_hasKeyBlock_marked (replaced_uri_marked h₃) (by rintro v rfl; decide)
      (replaced_key_free h₂)

theorem redactChars_idem (s : List Char) : redactChars (redactChars s) = redactChars s := by
  obtain ⟨hbearer, hkey, huri⟩ := redactChars_free s
  have h₁ : replaceAll matchBearer 0 none (redactChars s) = redactChars s := by
    refine replaceAll_eq_self fun a c b hs => ?_
    rw [Option.eq_none_iff_forall_ne_some]
    rintro ⟨n, text⟩ hm
    obtain ⟨-, hstart, name, spaces, credential, rest, hcb, -, hname, hsp, hspall, hcall, hlen, -⟩ :=
      matchBearer_some hm
    exact hbearer.not_start hs _ _ hcb
      ⟨hstart, name, spaces, credential, rfl, hname, hsp, hspall, hcall, hlen⟩
  have h₂ : replaceAll matchPrivateKey 0 none (redactChars s) = redactChars s := by
    refine replaceAll_eq_self fun a c b hs => ?_
    rw [Option.eq_none_iff_forall_ne_some]
    rintro ⟨n, text⟩ hm
    obtain ⟨-, h, d, f, q, hcb, -, hh, hf⟩ := matchPrivateKey_some hm
    exact hkey ⟨a, h, d, f, q, by rw [hs, hcb]; simp, hh, hf⟩
  calc redactChars (redactChars s)
      = replaceAll matchUriCredential 0 none (replaceAll matchPrivateKey 0 none
          (replaceAll matchBearer 0 none (redactChars s))) := rfl
    _ = redactChars s := by rw [h₁, h₂, huri]

theorem redactText_idem (s : String) : redactText (redactText s) = redactText s := by
  simp [redactText, redactChars_idem]

/-! ## Plain texts -/

/-- A character that stands in no secret's place: every expression needs a blank, a dash or an `@`. -/
def isPlainChar (c : Char) : Bool := !(isJsSpace c || c == '-' || c == '@')

/-- A text of plain characters is not changed by redaction. -/
theorem redactText_of_plain {s : String} (hs : ∀ c ∈ s.toList, isPlainChar c = true) :
    redactText s = s := by
  have hplain : ∀ {a b : List Char} {c d : Char}, s.toList = a ++ c :: b → d ∈ c :: b →
      isPlainChar d = true := by
    intro a b c d heq hd
    exact hs d (by rw [heq]; exact List.mem_append_right _ hd)
  have h₁ : replaceAll matchBearer 0 none s.toList = s.toList := by
    refine replaceAll_eq_self fun a c b heq => ?_
    rw [Option.eq_none_iff_forall_ne_some]
    rintro ⟨n, text⟩ hm
    obtain ⟨-, -, name, spaces, credential, rest, hcb, -, -, hsp, hspall, -⟩ := matchBearer_some hm
    obtain ⟨d, spaces, rfl⟩ := List.exists_cons_of_ne_nil hsp
    have hd : isJsSpace d = true := List.all_eq_true.mp hspall d List.mem_cons_self
    have hpd := hplain (d := d) heq (by rw [hcb]; simp)
    simp [isPlainChar, hd] at hpd
  have h₂ : replaceAll matchPrivateKey 0 none s.toList = s.toList := by
    refine replaceAll_eq_self fun a c b heq => ?_
    rw [Option.eq_none_iff_forall_ne_some]
    rintro ⟨n, text⟩ hm
    obtain ⟨-, h, d, f, q, hcb, -, ⟨label, rfl, -, -⟩, -⟩ := matchPrivateKey_some hm
    have hpd := hplain (d := '-') heq (by rw [hcb]; simp)
    simp [isPlainChar] at hpd
  have h₃ : replaceAll matchUriCredential 0 none s.toList = s.toList := by
    refine replaceAll_eq_self fun a c b heq => ?_
    rw [Option.eq_none_iff_forall_ne_some]
    rintro ⟨n, text⟩ hm
    obtain ⟨scheme, user, password, q, -, hcb, -, -⟩ := matchUriCredential_some hm
    have hpd := hplain (d := '@') heq (by rw [hcb]; simp)
    simp [isPlainChar] at hpd
  rw [redactText, redactChars, h₁, h₂, h₃, String.ofList_toList]

theorem isPlainChar_of_isDigit {c : Char} (hc : c.isDigit = true) : isPlainChar c = true := by
  rw [Char.isDigit, Bool.and_eq_true, decide_eq_true_eq, decide_eq_true_eq] at hc
  simp only [isPlainChar, isJsSpace, eq_iff_toNat_eq, Bool.not_eq_true',
    Bool.or_eq_false_iff, Bool.and_eq_false_imp, decide_eq_true_eq, decide_eq_false_iff_not,
    beq_eq_false_iff_ne, ne_eq]
  have h1 : 48 ≤ c.toNat := hc.1
  have h2 : c.toNat ≤ 57 := hc.2
  have hdash : '-'.toNat = 45 := rfl
  have hat : '@'.toNat = 64 := rfl
  omega

/-- A decimal number is plain. -/
theorem isPlainChar_toString (n : ℕ) : ∀ c ∈ (toString n).toList, isPlainChar c = true := by
  intro c hc
  have hmem : c ∈ Nat.toDigits 10 n := by
    rw [← Nat.toList_repr]
    exact hc
  exact isPlainChar_of_isDigit (Nat.isDigit_of_mem_toDigits (by decide) (by decide) hmem)

/-! ## JSON values -/

theorem redactElements_eq (xs : List Json) : redactElements xs = xs.map redactSecrets := by
  induction xs with
  | nil => rfl
  | cons x xs ih => rw [redactElements, ih, List.map_cons]

theorem redactFields_eq (fields : List (String × Json)) : redactFields fields =
    fields.map fun f =>
      (f.1, if f.1 != "" && isSensitiveKey f.1 then .str "[REDACTED]" else redactSecrets f.2) := by
  induction fields with
  | nil => rfl
  | cons f fields ih => rw [redactFields, ih, List.map_cons]

theorem containsSecretLikeElement_eq (xs : List Json) :
    containsSecretLikeElement xs = xs.any containsSecretLikeField := by
  induction xs with
  | nil => rfl
  | cons x xs ih => rw [containsSecretLikeElement, ih, List.any_cons]

theorem containsSecretLikeKey_eq (fields : List (String × Json)) : containsSecretLikeKey fields =
    fields.any fun f => isSensitiveKey f.1 || containsSecretLikeField f.2 := by
  induction fields with
  | nil => rfl
  | cons f fields ih => rw [containsSecretLikeKey, ih, List.any_cons]

theorem redactionAppliedElements_eq (xs : List Json) :
    redactionAppliedElements xs = xs.any redactionApplied := by
  induction xs with
  | nil => rfl
  | cons x xs ih => rw [redactionAppliedElements, ih, List.any_cons]

theorem redactionAppliedFields_eq (fields : List (String × Json)) :
    redactionAppliedFields fields =
      fields.any fun f => (f.1 != "" && isSensitiveKey f.1) || redactionApplied f.2 := by
  induction fields with
  | nil => rfl
  | cons f fields ih => rw [redactionAppliedFields, ih, List.any_cons]

/-- Redaction of what is redacted changes nothing. -/
theorem redactSecrets_idem (v : Json) : redactSecrets (redactSecrets v) = redactSecrets v := by
  induction v using Json.inductionOn with
  | str s => rw [redactSecrets, redactSecrets, redactText_idem]
  | arr xs ih =>
      rw [redactSecrets, redactSecrets]
      congr 1
      induction xs with
      | nil => rfl
      | cons x xs ihxs =>
          rw [redactElements, redactElements, ih x List.mem_cons_self,
            ihxs fun x hx => ih x (List.mem_cons_of_mem _ hx)]
  | obj fields ih =>
      rw [redactSecrets, redactSecrets]
      congr 1
      induction fields with
      | nil => rfl
      | cons f fields ihfields =>
          obtain ⟨key, v⟩ := f
          have hv := ih (key, v) List.mem_cons_self
          have htail := ihfields fun f hf => ih f (List.mem_cons_of_mem _ hf)
          rw [redactFields, redactFields, htail]
          by_cases hkey : (key != "" && isSensitiveKey key) = true
          · rw [if_pos hkey, if_pos hkey]
          · rw [if_neg hkey, if_neg hkey, hv]
  | _ => rfl

mutual

/-- A value that was read back from the store is stored unchanged. -/
theorem storedJson_idem : (v : Json) → storedJson (storedJson v) = storedJson v
  | .null => rfl
  | .bool _ => rfl
  | .num n => by cases n <;> rfl
  | .str s => by simp [storedJson, redactSecrets, Json.reparse, redactText_idem]
  | .arr xs => by
      have h := storedJson_elements xs
      simpa [storedJson, redactSecrets, Json.reparse] using h
  | .obj fields => by
      have h := storedJson_fields fields
      simpa [storedJson, redactSecrets, Json.reparse] using h

theorem storedJson_elements : (xs : List Json) →
    Json.reparseElements (redactElements (Json.reparseElements (redactElements xs))) =
      Json.reparseElements (redactElements xs)
  | [] => rfl
  | x :: xs => by
      have hx := storedJson_idem x
      have hxs := storedJson_elements xs
      simp only [storedJson] at hx
      simp [redactElements, Json.reparseElements, hx, hxs]

theorem storedJson_fields : (fields : List (String × Json)) →
    Json.reparseFields (redactFields (Json.reparseFields (redactFields fields))) =
      Json.reparseFields (redactFields fields)
  | [] => rfl
  | (key, v) :: fields => by
      have hv := storedJson_idem v
      have hfields := storedJson_fields fields
      simp only [storedJson] at hv
      by_cases hkey : (key != "" && isSensitiveKey key) = true
      · simp only [redactFields, Json.reparseFields, hkey, if_true, hfields, Json.reparse]
      · simp only [redactFields, Json.reparseFields, hkey, hfields]
        simp [hv]

end

end Vops
