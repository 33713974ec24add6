import Vops.HostOps.VopsHostKeys

/-!
# The line that a rotation writes

* `IsTag`, `IsOptions` — what is known of a tag and of the options of a line.
* `buildOpsLine_eq` — trimming changes nothing.
* `isOpsLine_buildOpsLine` — the line carries its tag; `keyOf_buildOpsLine` — and authorizes its key.
-/

namespace Vops.AuthorizedKeys

open HostOps

/-! ## Trimming and splitting -/

theorem trim_eq_self {cs : Text} (hhead : ∀ c ∈ cs.head?, isJsSpace c = false)
    (hlast : ∀ c ∈ cs.getLast?, isJsSpace c = false) : trim cs = cs := by
  have hleft : cs.dropWhile isJsSpace = cs := by
    cases cs with
    | nil => rfl
    | cons c cs => simp [List.dropWhile, hhead c rfl]
  rw [trim, hleft, List.rdropWhile_eq_self_iff]
  intro hne
  have hc := hlast _ (List.getLast?_eq_some_getLast hne)
  simp [hc]

theorem trim_eq_nil_or_head (cs : Text) :
    trim cs = [] ∨ ∃ c rest, trim cs = c :: rest ∧ isJsSpace c = false := by
  cases h : trim cs with
  | nil => exact .inl rfl
  | cons c rest =>
      refine .inr ⟨c, rest, rfl, ?_⟩
      have hprefix : trim cs <+: cs.dropWhile isJsSpace := List.rdropWhile_prefix _ _
      rw [h] at hprefix
      obtain ⟨tail, htail⟩ := hprefix
      have hne : cs.dropWhile isJsSpace ≠ [] := by simp [← htail]
      have hfirst := List.head_dropWhile_not isJsSpace hne
      have hc : (cs.dropWhile isJsSpace).head hne = c := by simp [← htail]
      simpa [hc] using hfirst

theorem infix_trim (cs : Text) : trim cs <:+: cs :=
  (List.rdropWhile_prefix _ _).isInfix.trans (List.dropWhile_suffix _).isInfix

/-- The last character of a trimmed text is not white space. -/
theorem last_of_trim {cs : Text} {c : Char} (h : c ∈ (trim cs).getLast?) : isJsSpace c = false := by
  obtain ⟨hne, rfl⟩ := List.mem_getLast?_eq_getLast h
  exact eq_false_of_ne_true (List.rdropWhile_last_not isJsSpace (cs.dropWhile isJsSpace) hne)

theorem trim_trim (cs : Text) : trim (trim cs) = trim cs := by
  refine trim_eq_self ?_ fun _ => last_of_trim
  rcases trim_eq_nil_or_head cs with h | ⟨c, rest, h, hc⟩
  · simp [h]
  · simpa [h] using hc

/-- No field has a space in it. -/
theorem not_space_of_mem_split {cs field : Text} (h : field ∈ split cs) :
    ∀ c ∈ field, isJsSpace c = false :=
  TextLines.not_space_of_mem_fields h

/-- The first field of a text that starts with no space. -/
theorem split_cons {c : Char} (hc : isJsSpace c = false) (cs : Text) :
    ∃ field rest, split (c :: cs) = (c :: field) :: rest := by
  have hne : split cs ≠ [] := TextLines.fields_ne_nil cs
  obtain ⟨field, rest, h⟩ := List.exists_cons_of_ne_nil hne
  unfold split at h
  exact ⟨field, rest, by simp [split, TextLines.fields, hc, h]⟩

/-! ## Tags and options -/

/-- A tag has no newline and ends in no space. -/
structure IsTag (tag : Text) : Prop where
  ne_nil : tag ≠ []
  newline : '\n' ∉ tag
  last : ∀ c ∈ tag.getLast?, isJsSpace c = false

/-- Options are one field, and start no comment. -/
structure IsOptions (options : Text) : Prop where
  ne_nil : options ≠ []
  space : ∀ c ∈ options, isJsSpace c = false
  comment : options.head? ≠ some '#'
  keyType : isKeyType options = false

theorem isJsSpace_newline : isJsSpace '\n' = true := by decide

/-- What is no space is no newline. -/
theorem newline_notMem_of_not_space {cs : Text} (h : ∀ c ∈ cs, isJsSpace c = false) : '\n' ∉ cs := by
  intro hmem
  have hspace := h _ hmem
  rw [isJsSpace_newline] at hspace
  exact absurd hspace (by simp)

theorem not_space_of_hex {c : Char} (h : c.isDigit ∨ ('a' ≤ c ∧ c ≤ 'f')) :
    isJsSpace c = false := by
  have hrange : 48 ≤ c.toNat ∧ c.toNat ≤ 102 := by
    rcases h with h | ⟨hlow, hhigh⟩
    · simp only [Char.isDigit, Bool.and_eq_true, decide_eq_true_eq] at h
      have hlow := UInt32.le_iff_toNat_le.mp h.1
      have hhigh := UInt32.le_iff_toNat_le.mp h.2
      exact ⟨hlow, hhigh.trans (by decide)⟩
    · exact ⟨le_trans (by decide) (Char.le_def.mp hlow), Char.le_def.mp hhigh⟩
  simp only [isJsSpace, Bool.or_eq_false_iff, Bool.and_eq_false_iff, decide_eq_false_iff_not,
    beq_eq_false_iff_ne]
  omega

theorem isTag_opsTag (id : ProfileId) : IsTag (opsTag id.text) := by
  have hhex : ∀ c ∈ id.text, isJsSpace c = false := fun c hc => not_space_of_hex (id.hex.2 c hc)
  unfold opsTag
  refine ⟨by simp, ?_, ?_⟩
  · have hid := newline_notMem_of_not_space hhex
    simp [hid]
  · intro c hc
    rw [List.getLast?_append_of_ne_nil _ id.hex.1] at hc
    exact hhex c (List.mem_of_getLast? hc)

theorem IsTag.next {tag : Text} (h : IsTag tag) : IsTag (tag ++ ":next".toList) := by
  refine ⟨by simp, ?_, ?_⟩
  · have htag := h.newline
    simp [htag]
  · intro c hc
    rw [List.getLast?_append_of_ne_nil _ (by simp)] at hc
    obtain rfl : 't' = c := by simpa using hc
    decide

theorem isOptions_opsKeyOptions : IsOptions (opsKeyOptions none) := by
  refine ⟨by decide, ?_, by decide, by decide⟩
  decide

theorem KEY_TYPE_RE_of_isKeyType {tok : Text} (h : isKeyType tok = true) :
    KEY_TYPE_RE tok = true := by
  have hecdsa : "ecdsa-".toList <+: "ecdsa-sha2-".toList := ⟨"sha2-".toList, by simp⟩
  have hsk : "sk-".toList <+: "sk-ssh-".toList := ⟨"ssh-".toList, by simp⟩
  have hsk' : "sk-".toList <+: "sk-ecdsa-".toList := ⟨"ecdsa-".toList, by simp⟩
  unfold isKeyType at h
  unfold KEY_TYPE_RE
  simp only [Bool.or_eq_true, List.isPrefixOf_iff_prefix] at h ⊢
  rcases h with ((h | h) | h) | h
  · exact .inl (.inl h)
  · exact .inl (.inr (hecdsa.trans h))
  · exact .inr (hsk.trans h)
  · exact .inr (hsk'.trans h)

theorem isOptions_extractOptions {line : Text} (hne : extractOptions line ≠ [])
    (hcomment : (trim line).head? ≠ some '#') : IsOptions (extractOptions line) := by
  unfold extractOptions at hne ⊢
  simp only at hne ⊢
  split at hne
  · exact absurd rfl hne
  · next htype =>
    split at hne
    · next htype' =>
      rw [if_neg htype, if_pos htype']
      rcases trim_eq_nil_or_head line with h | ⟨c, rest, h, hc⟩
      · rw [h] at hne
        exact absurd rfl hne
      · rw [h] at hcomment htype ⊢
        obtain ⟨field, more, hsplit⟩ := split_cons hc rest
        rw [hsplit] at htype ⊢
        refine ⟨by simp, ?_, by simpa using hcomment, ?_⟩
        · exact not_space_of_mem_split (hsplit ▸ List.mem_cons_self)
        · cases hkey : isKeyType (((c :: field) :: more).getD 0 []) with
          | false => rfl
          | true => exact absurd (KEY_TYPE_RE_of_isKeyType hkey) htype
    · exact absurd rfl hne

/-- The options of a line are one field. -/
theorem isOptions_optionsOf (content tag : Text) :
    IsOptions (VopsOpsRotation.optionsOf content tag) := by
  unfold VopsOpsRotation.optionsOf
  simp only
  split
  · exact isOptions_opsKeyOptions
  · next hne =>
    refine isOptions_extractOptions hne ?_
    cases h : findOpsLine content tag with
    | none => simp [trim]
    | some l =>
        have hl : isOpsLine l tag = true := by simpa using List.find?_some h
        unfold isOpsLine at hl
        simp only at hl
        split at hl
        · exact absurd hl (by simp)
        · next hhead => exact fun hcomment => hhead (.inr hcomment)

/-! ## The line -/

variable {pub tag options : Text}

/-- The key type and the key that a line is built with. -/
def typeOf (pub : Text) : Text := (split pub).getD 0 "undefined".toList

def dataOf (pub : Text) : Text := (split pub).getD 1 "undefined".toList

theorem not_space_getD (pub : Text) (i : ℕ) :
    ∀ c ∈ (split pub).getD i "undefined".toList, isJsSpace c = false := by
  rw [List.getD_eq_getElem?_getD]
  cases h : (split pub)[i]? with
  | none => decide
  | some field => exact not_space_of_mem_split (List.mem_of_getElem? h)

theorem not_space_typeOf (pub : Text) : ∀ c ∈ typeOf pub, isJsSpace c = false :=
  not_space_getD pub 0

theorem not_space_dataOf (pub : Text) : ∀ c ∈ dataOf pub, isJsSpace c = false :=
  not_space_getD pub 1

/-- Trimming a line that starts with options and ends in a tag. -/
theorem trim_line (hoptions : IsOptions options) (htag : IsTag tag) (mid : Text) :
    trim (options ++ (mid ++ tag)) = options ++ (mid ++ tag) := by
  refine trim_eq_self ?_ ?_
  · obtain ⟨c, rest, rfl⟩ := List.exists_cons_of_ne_nil hoptions.ne_nil
    intro d hd
    obtain rfl : c = d := by simpa using hd
    exact hoptions.space c List.mem_cons_self
  · intro c hc
    rw [← List.append_assoc, List.getLast?_append_of_ne_nil _ htag.ne_nil] at hc
    exact htag.last c hc

theorem buildOpsLine_eq (hoptions : IsOptions options) (htag : IsTag tag) :
    buildOpsLine pub tag options =
      options ++ ' ' :: (typeOf pub ++ ' ' :: (dataOf pub ++ ' ' :: tag)) := by
  have h := trim_line hoptions htag (' ' :: (typeOf pub ++ ' ' :: (dataOf pub ++ [' '])))
  change trim (options ++ ' ' :: (typeOf pub ++ ' ' :: (dataOf pub ++ ' ' :: tag))) = _
  simpa using h

theorem trim_buildOpsLine (hoptions : IsOptions options) (htag : IsTag tag) :
    trim (buildOpsLine pub tag options) = buildOpsLine pub tag options := by
  have h := trim_line hoptions htag (' ' :: (typeOf pub ++ ' ' :: (dataOf pub ++ [' '])))
  rw [buildOpsLine_eq hoptions htag]
  simpa using h

theorem newline_notMem_buildOpsLine (hoptions : IsOptions options) (htag : IsTag tag) :
    '\n' ∉ buildOpsLine pub tag options := by
  have hopts := newline_notMem_of_not_space hoptions.space
  have htype := newline_notMem_of_not_space (not_space_typeOf pub)
  have hdata := newline_notMem_of_not_space (not_space_dataOf pub)
  have hlast := htag.newline
  rw [buildOpsLine_eq hoptions htag]
  simp only [List.mem_append, List.mem_cons, not_or]
  exact ⟨hopts, by decide, htype, by decide, hdata, by decide, hlast⟩

theorem head_buildOpsLine (hoptions : IsOptions options) (htag : IsTag tag) :
    ¬ (buildOpsLine pub tag options = [] ∨ (buildOpsLine pub tag options).head? = some '#') := by
  have hcomment := hoptions.comment
  obtain ⟨c, rest, rfl⟩ := List.exists_cons_of_ne_nil hoptions.ne_nil
  rw [buildOpsLine_eq hoptions htag]
  simpa using hcomment

/-- The line carries its tag. -/
theorem isOpsLine_buildOpsLine (hoptions : IsOptions options) (htag : IsTag tag) :
    isOpsLine (buildOpsLine pub tag options) tag = true := by
  unfold isOpsLine
  simp only [trim_buildOpsLine hoptions htag]
  rw [if_neg (head_buildOpsLine hoptions htag), Bool.or_eq_true, List.isSuffixOf_iff_suffix]
  refine .inl ⟨options ++ ' ' :: (typeOf pub ++ ' ' :: dataOf pub), ?_⟩
  rw [buildOpsLine_eq hoptions htag]
  simp

/-- The line authorizes its key. -/
theorem keyOf_buildOpsLine (hoptions : IsOptions options) (htag : IsTag tag)
    (htype : isKeyType (typeOf pub) = true) (hdata : dataOf pub ≠ []) :
    keyOf (buildOpsLine pub tag options) = some (dataOf pub) := by
  have hspace : isJsSpace ' ' = true := by decide
  have htypeNe : typeOf pub ≠ [] := by
    intro hnil
    rw [hnil] at htype
    exact absurd htype (by decide)
  have hhead : ∀ {field : Text} (rest : Text), field ≠ [] → (∀ c ∈ field, isJsSpace c = false) →
      ((field ++ rest).head?.map isJsSpace).getD false = false := by
    intro field rest hne hfield
    obtain ⟨c, cs, rfl⟩ := List.exists_cons_of_ne_nil hne
    simpa using hfield c List.mem_cons_self
  obtain ⟨more, hmore⟩ : ∃ more, split (dataOf pub ++ ' ' :: tag) = dataOf pub :: more :=
    TextLines.fields_head (not_space_dataOf pub) (by simpa using hspace)
  have hsplit : split (buildOpsLine pub tag options) =
      options :: typeOf pub :: dataOf pub :: more := by
    rw [buildOpsLine_eq hoptions htag, split,
      TextLines.fields_append hoptions.space hspace (hhead _ htypeNe (not_space_typeOf pub)),
      TextLines.fields_append (not_space_typeOf pub) hspace (hhead _ hdata (not_space_dataOf pub))]
    exact congrArg (fun fs => options :: typeOf pub :: fs) hmore
  unfold keyOf
  simp only [trim_buildOpsLine hoptions htag, hsplit]
  rw [if_neg (head_buildOpsLine hoptions htag)]
  simp [hoptions.keyType, htype, hdata]

end Vops.AuthorizedKeys
