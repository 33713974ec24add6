import Vops.HostOps.ForeignKeys
import Vops.HostOps.OpsLine

/-!
# Keeping the line of a profile

* `toLines_upsertOpsLine` — the lines of what `upsertOpsLine` writes.
* `installedContent`, `installOps_leaves` — what a run of `installOps` that succeeds leaves in the file.
* `LineKept` — the laws of the line; `lineKept_iff` — they hold exactly for the files that hold no copy of the
  requested line, or nothing to replace.
-/

namespace Vops.AuthorizedKeys

open HostOps

/-! ## The requested line -/

section Line

variable {pub tag options : Text}

/-- The first field of the text is a key type. -/
def HasKeyType (pub : Text) : Prop := KEY_TYPE_RE (typeOf pub) = true

/-- Options that neither start a comment nor look like a key type. -/
structure OptionsFit (options : Text) : Prop where
  comment : options.head? ≠ some '#'
  keyType : KEY_TYPE_RE options = false

/-- The line up to the key type. -/
def lead (pub options : Text) : Text :=
  if options = [] then typeOf pub else options ++ ' ' :: typeOf pub

theorem trim_built : trim (buildOpsLine pub tag options) = buildOpsLine pub tag options := trim_trim _

theorem KEY_TYPE_RE_nil : KEY_TYPE_RE [] = false := by decide

theorem head_of_KEY_TYPE_RE {tok : Text} (h : KEY_TYPE_RE tok = true) :
    ∃ c rest, tok = c :: rest ∧ (c = 's' ∨ c = 'e') := by
  unfold KEY_TYPE_RE at h
  simp only [Bool.or_eq_true, List.isPrefixOf_iff_prefix] at h
  rcases h with (⟨rest, rfl⟩ | ⟨rest, rfl⟩) | ⟨rest, rfl⟩
  · exact ⟨'s', _, rfl, .inl rfl⟩
  · exact ⟨'e', _, rfl, .inr rfl⟩
  · exact ⟨'s', _, rfl, .inl rfl⟩

section Spaced

variable (hpub : HasKeyType pub) (hspace : ∀ c ∈ options, isJsSpace c = false)

include hpub hspace

theorem lead_cons : ∃ c rest, lead pub options = c :: rest ∧ isJsSpace c = false ∧
    (c = '#' ↔ options.head? = some '#') := by
  unfold lead
  split
  · next hnil =>
      obtain ⟨c, rest, htype, hc⟩ := head_of_KEY_TYPE_RE hpub
      refine ⟨c, rest, htype, not_space_typeOf pub c (by simp [htype]), ?_⟩
      rcases hc with rfl | rfl <;> simp [hnil]
  · next hne =>
      obtain ⟨c, rest, rfl⟩ := List.exists_cons_of_ne_nil hne
      exact ⟨c, _, rfl, hspace c List.mem_cons_self, by simp⟩

theorem buildOpsLine_lead (htag : IsTag tag) :
    buildOpsLine pub tag options = lead pub options ++ ' ' :: (dataOf pub ++ ' ' :: tag) := by
  obtain ⟨c, rest, hlead, hc, -⟩ := lead_cons hpub hspace
  have htrim : trim (lead pub options ++ ' ' :: (dataOf pub ++ ' ' :: tag)) =
      lead pub options ++ ' ' :: (dataOf pub ++ ' ' :: tag) := by
    refine trim_eq_self (fun d hd => ?_) fun d hd => ?_
    · rw [hlead] at hd
      obtain rfl : c = d := by simpa using hd
      exact hc
    · have hassoc : lead pub options ++ ' ' :: (dataOf pub ++ ' ' :: tag) =
          (lead pub options ++ ' ' :: (dataOf pub ++ [' '])) ++ tag := by simp
      rw [hassoc, List.getLast?_append_of_ne_nil _ htag.ne_nil] at hd
      exact htag.last d hd
  rw [← htrim]
  unfold lead
  split
  · next hnil =>
      rw [hnil]
      change trim (' ' :: (typeOf pub ++ ' ' :: (dataOf pub ++ ' ' :: tag))) = _
      rw [trim, trim, List.dropWhile_cons_of_pos (by decide)]
  · change trim (options ++ ' ' :: (typeOf pub ++ ' ' :: (dataOf pub ++ ' ' :: tag))) = _
    simp

theorem line_eq_cons (htag : IsTag tag) :
    ∃ c rest, buildOpsLine pub tag options = c :: rest ∧ isJsSpace c = false ∧
      (c = '#' ↔ options.head? = some '#') := by
  obtain ⟨c, rest, hlead, hc⟩ := lead_cons hpub hspace
  rw [buildOpsLine_lead hpub hspace htag, hlead]
  exact ⟨c, _, rfl, hc⟩

theorem newline_notMem_line (htag : IsTag tag) : '\n' ∉ buildOpsLine pub tag options := by
  have hlead : '\n' ∉ lead pub options := by
    have htype := newline_notMem_of_not_space (not_space_typeOf pub)
    have hopts := newline_notMem_of_not_space hspace
    unfold lead
    split
    · exact htype
    · simp [hopts, htype]
  have hdata := newline_notMem_of_not_space (not_space_dataOf pub)
  have hlast := htag.newline
  rw [buildOpsLine_lead hpub hspace htag]
  simp [hlead, hdata, hlast]

/-- The line carries its tag, unless it is a comment. -/
theorem isOpsLine_line (htag : IsTag tag) :
    isOpsLine (buildOpsLine pub tag options) tag = true ↔ options.head? ≠ some '#' := by
  obtain ⟨c, rest, hline, -, hcomment⟩ := line_eq_cons hpub hspace htag
  have htail : (' ' :: tag) <:+ buildOpsLine pub tag options := by
    rw [buildOpsLine_lead hpub hspace htag]
    exact ⟨lead pub options ++ ' ' :: dataOf pub, by simp⟩
  unfold isOpsLine
  simp only [trim_built]
  rw [Ne, ← hcomment]
  split
  · next h =>
      rw [hline] at h
      simpa using h
  · next h =>
      rw [hline] at h
      refine iff_of_true ?_ (by simpa using h)
      rw [Bool.or_eq_true, List.isSuffixOf_iff_suffix]
      exact .inl htail

theorem split_line (htag : IsTag tag) : ∃ more, split (buildOpsLine pub tag options) =
    if options = [] then typeOf pub :: more else options :: typeOf pub :: more := by
  have hblank : isJsSpace ' ' = true := by decide
  obtain ⟨more, hmore⟩ : ∃ more, split (typeOf pub ++ ' ' :: (dataOf pub ++ ' ' :: tag)) =
      typeOf pub :: more := TextLines.fields_head (not_space_typeOf pub) (by simpa using hblank)
  refine ⟨more, ?_⟩
  rw [buildOpsLine_lead hpub hspace htag]
  unfold lead
  split
  · exact hmore
  · obtain ⟨c, rest, htype, -⟩ := head_of_KEY_TYPE_RE hpub
    have hc : isJsSpace c = false := not_space_typeOf pub c (by simp [htype])
    rw [List.append_assoc, List.cons_append, split, TextLines.fields_append hspace hblank (by simp [htype, hc])]
    exact congrArg (options :: ·) hmore

/-- The options of the line are read back, unless they look like a key type. -/
theorem extractOptions_line (htag : IsTag tag) :
    extractOptions (buildOpsLine pub tag options) = options ↔ KEY_TYPE_RE options = false := by
  obtain ⟨more, hmore⟩ := split_line hpub hspace htag
  have htype : KEY_TYPE_RE (typeOf pub) = true := hpub
  unfold extractOptions
  simp only [trim_built, hmore]
  by_cases hnil : options = []
  · simp [hnil, htype, KEY_TYPE_RE_nil]
  · simp only [if_neg hnil, List.getD_cons_zero, List.getD_cons_succ, htype, if_true]
    cases KEY_TYPE_RE options with
    | false => simp
    | true => simp [Ne.symm hnil]

end Spaced

/-- No tag followed by `:next` ends in a blank and the tag. -/
theorem not_suffix_next (tag : Text) : ¬ (' ' :: tag) <:+ tag ++ ":next".toList := by
  intro h
  have hcount := h.sublist.count_le ' '
  have hnext : ":next".toList.count ' ' = 0 := by decide
  rw [List.count_cons_self, List.count_append, hnext] at hcount
  omega

/-- A line that ends in the tag does not carry the temporary one. -/
theorem isOpsLine_next {line : Text} (htrim : trim line = line) (h : (' ' :: tag) <:+ line) :
    isOpsLine line (tag ++ ":next".toList) = false := by
  have hlast : ¬ (' ' :: (tag ++ ":next".toList)) <:+ line := by
    intro hnext
    have hle : (' ' :: tag).length ≤ (' ' :: (tag ++ ":next".toList)).length := by simp
    rcases List.suffix_cons_iff.mp (List.suffix_of_suffix_length_le h hnext hle) with heq | hsuffix
    · exact absurd (congrArg List.length heq) (by simp)
    · exact not_suffix_next tag hsuffix
  have hself : line ≠ tag ++ ":next".toList := by
    rintro rfl
    exact not_suffix_next tag h
  unfold isOpsLine
  simp only [htrim]
  split
  · rfl
  · rw [Bool.or_eq_false_iff, ← Bool.not_eq_true, List.isSuffixOf_iff_suffix]
    exact ⟨hlast, beq_false_of_ne hself⟩

end Line

/-! ## The transforms -/

section Transforms

variable {content line tag : Text}

theorem toLines_fromLines {ls : List Text} (hls : ∀ l ∈ ls, '\n' ∉ l) (hnl : '\n' ∉ line) (hne : line ≠ []) :
    toLines (fromLines (ls ++ [line])) = ls ++ [line] := by
  rw [toLines_eq, fromLines_eq, TextLines.trimmed_join, TextLines.dropBlank_concat _ hne]
  intro l hl
  rcases List.mem_append.mp hl with hl | hl
  · exact hls l hl
  · exact List.mem_singleton.mp hl ▸ hnl

theorem upsertOpsLine_content :
    (upsertOpsLine content line tag).1 = fromLines (((toLines content).filter fun l => !isOpsLine l tag) ++ [line]) :=
  rfl

theorem upsertOpsLine_changed (htrim : trim line = line) :
    (upsertOpsLine content line tag).2 = true ↔ ∀ l ∈ toLines content, trim l ≠ line := by
  simp [upsertOpsLine, htrim]

/-- The lines of what `upsertOpsLine` writes. -/
theorem toLines_upsertOpsLine (hnl : '\n' ∉ line) (hne : line ≠ []) :
    toLines (upsertOpsLine content line tag).1 =
      ((toLines content).filter fun l => !isOpsLine l tag) ++ [line] :=
  toLines_fromLines (fun _ hl => newline_notMem_filter hl) hnl hne

theorem filter_upsertOpsLine (hnl : '\n' ∉ line) (hne : line ≠ []) (htagged : isOpsLine line tag = true) :
    (toLines (upsertOpsLine content line tag).1).filter (fun l => !isOpsLine l tag) =
      (toLines content).filter fun l => !isOpsLine l tag := by
  rw [toLines_upsertOpsLine hnl hne, List.filter_append, List.filter_filter]
  simp [htagged]

theorem mem_toLines_removeOpsLine {l : Text} (h : l ∈ toLines (removeOpsLine content tag).1) :
    l ∈ toLines content ∧ isOpsLine l tag = false := by
  rw [toLines_removeOpsLine] at h
  simpa using (TextLines.dropBlank_isPrefix _).subset h

/-- A swap leaves no line with the temporary tag. -/
theorem isOpsLine_of_mem_swapToCanonical (hnl : '\n' ∉ line) (hne : line ≠ []) (htrim : trim line = line)
    (hsuffix : (' ' :: tag) <:+ line) {l : Text}
    (h : l ∈ toLines (VopsOpsRotation.swapToCanonical content tag (tag ++ ":next".toList) line)) :
    isOpsLine l (tag ++ ":next".toList) = false := by
  unfold VopsOpsRotation.swapToCanonical at h
  rw [toLines_upsertOpsLine hnl hne, List.mem_append] at h
  rcases h with h | h
  · have hold := (mem_toLines_removeOpsLine (List.mem_of_mem_filter h)).1
    exact (mem_toLines_removeOpsLine hold).2
  · exact List.mem_singleton.mp h ▸ isOpsLine_next htrim hsuffix

end Transforms

/-! ## The laws of the line -/

/-- What the conditional write leaves in the file. -/
def installedContent (content line tag : Text) : Text :=
  if (upsertOpsLine content line tag).2 then (upsertOpsLine content line tag).1 else content

/-- The laws of the line of a profile in a file. -/
structure LineKept (content pub tag options : Text) : Prop where
  installed : (toLines (installedContent content (buildOpsLine pub tag options) tag)).filter (isOpsLine · tag) =
    [buildOpsLine pub tag options]
  changed : (upsertOpsLine content (buildOpsLine pub tag options) tag).2 = true ↔
    (upsertOpsLine content (buildOpsLine pub tag options) tag).1 ≠ content
  idempotent : (upsertOpsLine (upsertOpsLine content (buildOpsLine pub tag options) tag).1
      (buildOpsLine pub tag options) tag).1 =
    (upsertOpsLine content (buildOpsLine pub tag options) tag).1
  removed : (removeOpsLine (upsertOpsLine content (buildOpsLine pub tag options) tag).1 tag).1 =
    (removeOpsLine content tag).1
  options_read : extractOptions (buildOpsLine pub tag options) = options
  swapped : ∀ l ∈ toLines (VopsOpsRotation.swapToCanonical content tag (tag ++ ":next".toList)
      (buildOpsLine pub tag options)), isOpsLine l (tag ++ ":next".toList) = false

/-- The file is made of lines without the tag and then the line itself. -/
def EndsInLine (content line tag : Text) : Prop :=
  ∃ others, (∀ l ∈ others, '\n' ∉ l ∧ isOpsLine l tag = false) ∧ content = fromLines (others ++ [line])

/-- The file holds no copy of the line, or it holds the line and nothing that it should replace. -/
def NothingStale (content line tag : Text) : Prop :=
  (∀ l ∈ toLines content, trim l ≠ line) ∨ EndsInLine content line tag

section Laws

variable {content line tag : Text}

theorem EndsInLine.filter_others {others : List Text} (h : ∀ l ∈ others, '\n' ∉ l ∧ isOpsLine l tag = false) :
    (others.filter fun l => !isOpsLine l tag) = others :=
  List.filter_eq_self.mpr fun l hl => by simp [(h l hl).2]

/-- Nothing changes in a file that ends in the line. -/
theorem EndsInLine.upsertOpsLine_content (h : EndsInLine content line tag) (hnl : '\n' ∉ line) (hne : line ≠ [])
    (htagged : isOpsLine line tag = true) : (upsertOpsLine content line tag).1 = content := by
  obtain ⟨others, hothers, rfl⟩ := h
  rw [AuthorizedKeys.upsertOpsLine_content, toLines_fromLines (fun l hl => (hothers l hl).1) hnl hne,
    List.filter_append, EndsInLine.filter_others hothers]
  simp [htagged]

theorem endsInLine_upsertOpsLine : EndsInLine (upsertOpsLine content line tag).1 line tag :=
  ⟨_, fun l hl => ⟨newline_notMem_filter hl, by simpa using (List.mem_filter.mp hl).2⟩, rfl⟩

/-- One line with the tag is left, and it is the requested one. -/
theorem filter_isOpsLine_of_endsInLine (h : EndsInLine content line tag) (hnl : '\n' ∉ line) (hne : line ≠ [])
    (htagged : isOpsLine line tag = true) : (toLines content).filter (isOpsLine · tag) = [line] := by
  obtain ⟨others, hothers, rfl⟩ := h
  have hnone : others.filter (isOpsLine · tag) = [] :=
    List.filter_eq_nil_iff.mpr fun l hl => by simp [(hothers l hl).2]
  rw [toLines_fromLines (fun l hl => (hothers l hl).1) hnl hne, List.filter_append, hnone]
  simp [htagged]

end Laws

/-- The laws hold exactly when the options fit and the file holds no copy of the line or nothing to replace. -/
theorem lineKept_iff {pub tag options : Text} (content : Text) (hpub : HasKeyType pub) (htag : IsTag tag)
    (hspace : ∀ c ∈ options, isJsSpace c = false) :
    LineKept content pub tag options ↔
      OptionsFit options ∧ NothingStale content (buildOpsLine pub tag options) tag := by
  set line := buildOpsLine pub tag options with hline
  have htrim : trim line = line := trim_built
  have hnl : '\n' ∉ line := newline_notMem_line hpub hspace htag
  have hne : line ≠ [] := by
    obtain ⟨c, rest, heq, -⟩ := line_eq_cons hpub hspace htag
    rw [hline, heq]
    exact List.cons_ne_nil _ _
  have hsuffix : (' ' :: tag) <:+ line := by
    rw [hline, buildOpsLine_lead hpub hspace htag]
    exact ⟨lead pub options ++ ' ' :: dataOf pub, by simp⟩
  have hcomment : isOpsLine line tag = true ↔ options.head? ≠ some '#' := isOpsLine_line hpub hspace htag
  constructor
  · intro h
    have htagged : line ∈ (toLines (installedContent content line tag)).filter (isOpsLine · tag) := by
      rw [h.installed]
      exact List.mem_singleton_self _
    refine ⟨⟨hcomment.mp (List.mem_filter.mp htagged).2, (extractOptions_line hpub hspace htag).mp h.options_read⟩, ?_⟩
    by_cases hchanged : (upsertOpsLine content line tag).2 = true
    · exact .inl ((upsertOpsLine_changed htrim).mp hchanged)
    · have hsame : (upsertOpsLine content line tag).1 = content := by
        by_contra hdiff
        exact hchanged (h.changed.mpr hdiff)
      exact .inr (hsame ▸ endsInLine_upsertOpsLine)
  · rintro ⟨hfit, hstale⟩
    have htagged : isOpsLine line tag = true := hcomment.mpr hfit.comment
    have hends : EndsInLine (installedContent content line tag) line tag := by
      unfold installedContent
      split
      · exact endsInLine_upsertOpsLine
      · next hchanged =>
          rw [upsertOpsLine_changed htrim] at hchanged
          exact hstale.resolve_left hchanged
    refine ⟨filter_isOpsLine_of_endsInLine hends hnl hne htagged, ?_, ?_, ?_,
      (extractOptions_line hpub hspace htag).mpr hfit.keyType, fun l =>
        isOpsLine_of_mem_swapToCanonical hnl hne htrim hsuffix⟩
    · rw [upsertOpsLine_changed htrim]
      constructor
      · intro hnew hsame
        have hmem : line ∈ toLines (upsertOpsLine content line tag).1 := by
          rw [toLines_upsertOpsLine hnl hne]
          simp
        exact hnew line (hsame ▸ hmem) htrim
      · intro hdiff
        exact hstale.resolve_right fun hends => hdiff (hends.upsertOpsLine_content hnl hne htagged)
    · exact endsInLine_upsertOpsLine.upsertOpsLine_content hnl hne htagged
    · unfold removeOpsLine
      simp only
      rw [filter_upsertOpsLine hnl hne htagged]

/-! ## A line that stays -/

namespace StaleLine

def pub : Text := "ssh-ed25519 AAAANEW vops-ops".toList

def tag : Text := "vops-ops:ab".toList

/-- An older line of the profile, and the line that is asked for. -/
def content : Text :=
  "ssh-ed25519 AAAAOLD vops-ops:ab\n".toList ++ buildOpsLine pub tag (opsKeyOptions none) ++ ['\n']

/-- Nothing is written, and the older line stays. -/
theorem not_lineKept : HasKeyType pub ∧ IsTag tag ∧ IsOptions (opsKeyOptions none) ∧
    installedContent content (buildOpsLine pub tag (opsKeyOptions none)) tag = content ∧
    ¬ LineKept content pub tag (opsKeyOptions none) := by
  have htagged : (toLines (installedContent content (buildOpsLine pub tag (opsKeyOptions none)) tag)).filter
      (isOpsLine · tag) ≠ [buildOpsLine pub tag (opsKeyOptions none)] := by decide +kernel
  refine ⟨by unfold HasKeyType; decide +kernel, isTag_opsTag ⟨['a', 'b'], by decide⟩, isOptions_opsKeyOptions, ?_, ?_⟩
  · decide +kernel
  · exact fun h => htagged h.installed

/-- Where the file has only the older line, that one is replaced. -/
theorem lineKept_older : LineKept "ssh-ed25519 AAAAOLD vops-ops:ab\n".toList pub tag (opsKeyOptions none) := by
  refine (lineKept_iff _ ?_ ?_ ?_).mpr ⟨⟨?_, ?_⟩, .inl ?_⟩
  · unfold HasKeyType
    decide +kernel
  · exact isTag_opsTag ⟨['a', 'b'], by decide⟩
  · exact isOptions_opsKeyOptions.space
  · exact isOptions_opsKeyOptions.comment
  · decide +kernel
  · decide +kernel

end StaleLine

/-! ## Installing -/

section Installing

open Async KeyProg VopsHostKeys

variable {publicData : Text → Text}

/-- The commands that read a host print all that is there. -/
def ReadsAll : (o : KeyOp) → World → o.Answer → Prop
  | .run target .printHome, s, x => trim (x : ExecResult).stdout = s.home target.host.account
  | .run target (.catKeys _), s, x => (x : ExecResult).stdout = s.authorizedKeys target.host.account
  | _, _, _ => True

/-- What can be answered when the hosts are read in full. -/
abbrev readable (publicData : Text → Text) : Surroundings KeyOp KeyOp.Answer World :=
  given (surroundings publicData) ReadsAll

/-- The files and the names are as they were. -/
structure SameFiles (s s' : World) : Prop where
  profileId : s'.profileId = s.profileId
  home : s'.home = s.home
  files : s'.files = s.files

theorem SameFiles.refl (s : World) : SameFiles s s := ⟨rfl, rfl, rfl⟩

theorem SameFiles.authorizedKeys {s s' : World} (h : SameFiles s s') (a : Account) :
    s'.authorizedKeys a = s.authorizedKeys a := by
  unfold World.authorizedKeys World.akPath
  rw [h.home, h.files]

theorem SameFiles.akPath {s s' : World} (h : SameFiles s s') (a : Account) : s'.akPath a = s.akPath a := by
  unfold World.akPath
  rw [h.home]

theorem SameFiles.quiet {s₀ : World} (o : KeyOp) (x : o.Answer) (s s' : World) (ho : Quiet o)
    (hx : readable publicData o s x s') (hs : SameFiles s₀ s) : SameFiles s₀ s' := by
  have hsame := sameHosts_of_quiet ho hx.1
  exact ⟨hsame.profileId.trans hs.profileId, hsame.home.trans hs.home, hsame.files.trans hs.files⟩

/-- A quiet part of a program whose errors do not matter. -/
theorem safe_quiet {α β : Type} {s₀ s : World} {p : KeyProg α} {f : α → KeyProg β} {Q : β → World → Prop}
    (hp : AllOps Quiet p) (hs : SameFiles s₀ s)
    (hf : ∀ a s', SameFiles s₀ s' →
      Safe (readable publicData) (fun _ => True) (fun r s => ∀ b, r = .ok b → Q b s) (f a) s') :
    Safe (readable publicData) (fun _ => True) (fun r s => ∀ b, r = .ok b → Q b s) (p >>= f) s :=
  Safe.allOps_bind hp SameFiles.quiet (fun _ _ => trivial) hs hf fun _ _ _ => by simp

theorem safe_throw {β : Type} {s : World} {p : KeyProg Unit} {e : String} {Q : β → World → Prop} :
    Safe (readable publicData) (fun _ => True) (fun r s => ∀ b, r = .ok b → Q b s) (p >>= fun _ => throw e) s := by
  refine Safe.allOps_bind (P := fun _ => True) (J := fun _ => True) (AllOps.of_forall (fun _ => trivial) p)
    (fun _ _ _ _ _ _ _ => trivial) (fun _ _ => trivial) trivial (fun _ _ _ => ?_) fun _ _ _ => by simp
  exact Safe.of_done trivial (by simp)

/-- A text is written if a condition holds. -/
theorem safe_putIf {β : Type} {s : World} {c : Bool} {target : SshTarget} {path content : Text}
    {f : Unit → KeyProg β} {Q : β → World → Prop} (hpath : path = s.akPath target.host.account)
    (hf : ∀ s', s'.authorizedKeys target.host.account =
        (if c then content else s.authorizedKeys target.host.account) →
      Safe (readable publicData) (fun _ => True) (fun r s => ∀ b, r = .ok b → Q b s) (f ()) s') :
    Safe (readable publicData) (fun _ => True) (fun r s => ∀ b, r = .ok b → Q b s)
      (onlyIf c (orThrow (op (.putFile target path content))) >>= f) s := by
  cases c with
  | false => exact hf s rfl
  | true =>
      refine Safe.perform trivial fun (x : Except String Unit) s' hx => ?_
      cases x with
      | ok u =>
          obtain ⟨rfl, -⟩ := hx
          refine hf _ ?_
          rw [World.authorizedKeys_put, World.akPath_sent, if_pos ⟨rfl, hpath.symm⟩]
          rfl
      | error e => exact Safe.of_done trivial (by simp)

/-- An answer of `installOps` that says the line is there says that the file holds this text. -/
def Leaves (a : Account) (text : Text) (answer : InstallOpsAnswer) (s : World) : Prop :=
  ∀ host already, answer = .installed host already → s.authorizedKeys a = text

theorem safe_writeOpsLine {s : World} {host : VopsHost} {target : SshTarget} {opsKey : VopsSshKey}
    {state : RemoteAkState} {line tag : Text} (hpath : state.akPath = s.akPath target.host.account)
    (hread : s.authorizedKeys target.host.account = state.content) :
    Safe (readable publicData) (fun _ => True)
      (fun r s' => ∀ b, r = .ok b →
        Leaves target.host.account (installedContent state.content line tag) b s')
      (writeOpsLine host target opsKey state (upsertOpsLine state.content line tag).1
        (upsertOpsLine state.content line tag).2) s := by
  refine safe_putIf hpath fun s₁ hs₁ => ?_
  refine safe_quiet (p := op (.run ⟨host, opsKey.privateKeyPath⟩ .probe)) (.of_perform trivial) (.refl s₁)
    fun (verify : ExecResult) s₂ hs₂ => ?_
  split
  · exact safe_throw
  · refine safe_quiet (quiet_updateHost _) hs₂ fun _ s₃ hs₃ => ?_
    refine safe_quiet (allOps_orThrow (.of_perform trivial)) hs₃ fun _ s₄ hs₄ => ?_
    refine Safe.of_done trivial fun b _ h already _ => ?_
    rw [hs₄.authorizedKeys, hs₁, hread, installedContent]

theorem safe_readAuthorizedKeys {β : Type} {s : World} {target : SshTarget} {f : RemoteAkState → KeyProg β}
    {Q : β → World → Prop}
    (hf : ∀ state s', SameFiles s s' → state.akPath = s.akPath target.host.account →
      state.content = s.authorizedKeys target.host.account →
      Safe (readable publicData) (fun _ => True) (fun r s => ∀ b, r = .ok b → Q b s) (f state) s') :
    Safe (readable publicData) (fun _ => True) (fun r s => ∀ b, r = .ok b → Q b s)
      (readAuthorizedKeys target >>= f) s := by
  refine Safe.bind (Safe.perform trivial fun (home : ExecResult) s₁ hhome => ?_)
  obtain ⟨⟨-, rfl⟩, hhome⟩ := hhome
  change Safe _ _ _ (if _ then _ else _) s₁
  split
  · exact Safe.of_done trivial (by simp)
  · refine Safe.perform trivial fun (read : ExecResult) s₂ hread => ?_
    obtain ⟨⟨-, rfl⟩, hread⟩ := hread
    refine Safe.of_done trivial ?_
    exact hf _ _ ⟨rfl, rfl, rfl⟩ (congrArg akPathOf hhome) hread

/-- The line that `installOps` asks for. -/
def requestedLine (pub : Text) (fromCidr : Option Text) (id : ProfileId) : Text :=
  opsKeyOptions fromCidr ++ ' ' :: (typeOf pub ++ ' ' :: (dataOf pub ++ ' ' :: opsTag id.text))

theorem safe_showHost {β : Type} {s : World} {name : String} {f : VopsHost → KeyProg β} {Q : β → World → Prop}
    (hf : ∀ host ∈ s.hosts, host.name = name →
      Safe (readable publicData) (fun _ => True) (fun r s => ∀ b, r = .ok b → Q b s) (f host) s) :
    Safe (readable publicData) (fun _ => True) (fun r s => ∀ b, r = .ok b → Q b s) (showHost name >>= f) s := by
  refine Safe.bind (Safe.perform trivial fun (hosts : List VopsHost) s₁ hhosts => ?_)
  obtain ⟨⟨rfl, rfl⟩, -⟩ := hhosts
  rcases hfind : s₁.hosts.find? (fun h => h.name == name) with _ | host
  · simp only [hfind]
    exact Safe.of_done trivial (by simp)
  · simp only [hfind]
    have hname : (host.name == name) = true := List.find?_some (p := fun h : VopsHost => h.name == name) hfind
    exact Safe.of_done trivial (hf host (List.mem_of_find?_eq_some hfind) (eq_of_beq hname))

theorem safe_opsAuthorizedKeysLine {β : Type} {s : World} {fromCidr : Option Text} {f : Text → KeyProg β}
    {Q : β → World → Prop}
    (hf : ∀ pub s', SameFiles s s' →
      Safe (readable publicData) (fun _ => True) (fun r s => ∀ b, r = .ok b → Q b s)
        (f (requestedLine pub fromCidr s.profileId)) s') :
    Safe (readable publicData) (fun _ => True) (fun r s => ∀ b, r = .ok b → Q b s)
      (opsAuthorizedKeysLine fromCidr >>= f) s := by
  unfold opsAuthorizedKeysLine
  rw [bind_assoc]
  refine safe_quiet (quiet_ensureKeyFile _) (.refl s) fun key s₁ hs₁ => ?_
  refine Safe.bind (Safe.perform trivial fun (profileId : Text) s₂ hprofile => ?_)
  obtain ⟨⟨rfl, rfl⟩, -⟩ := hprofile
  refine Safe.of_done trivial ?_
  have hline := hf key.publicKey s₂ hs₁
  rw [← hs₁.profileId] at hline
  exact hline

/-- What `installOps` leaves, when it succeeds, in the file of the host that it was asked for. -/
theorem installOps_leaves {name : String} {opts : InstallOpsOptions} {s s' : World}
    {t : Trace KeyOp KeyOp.Answer} {hostName : String} {already : Bool}
    (h : Steps (readable publicData) (installOps name opts) s t (.done (.ok (.installed hostName already))) s') :
    ∃ host ∈ s.hosts, host.name = name ∧ ∃ pub, s'.authorizedKeys host.account =
      installedContent (s.authorizedKeys host.account) (requestedLine pub opts.fromCidr s.profileId)
        (opsTag s.profileId.text) := by
  suffices hsafe : Safe (readable publicData) (fun _ => True)
      (fun r s' => ∀ b, r = .ok b → ∀ hostName already, b = .installed hostName already →
        ∃ host ∈ s.hosts, host.name = name ∧ ∃ pub, s'.authorizedKeys host.account =
          installedContent (s.authorizedKeys host.account) (requestedLine pub opts.fromCidr s.profileId)
            (opsTag s.profileId.text)) (installOps name opts) s from
    (Safe.steps hsafe h).2 _ rfl _ rfl _ _ rfl
  refine safe_showHost fun host hhost hname => ?_
  refine safe_quiet (quiet_assertHostWritable host) (.refl s) fun _ s₂ hs₂ => ?_
  refine safe_quiet (p := op .keyStore) (.of_perform trivial) hs₂ fun (keys : KeyStore) s₃ hs₃ => ?_
  rcases keys.keyPathFor host.userKeyName with _ | userKeyPath
  · exact Safe.of_done trivial (by simp)
  refine safe_quiet (allOps_onlyIf _ (allOps_orThrow (.of_perform trivial))) hs₃ fun _ s₄ hs₄ => ?_
  refine safe_quiet (quiet_ensureKeyFile _) hs₄ fun opsKey s₅ hs₅ => ?_
  refine safe_opsAuthorizedKeysLine fun pub s₆ hs₆ => ?_
  refine Safe.perform trivial fun (profileId : Text) s₇ hprofile => ?_
  obtain ⟨⟨rfl, rfl⟩, -⟩ := hprofile
  refine safe_readAuthorizedKeys fun state s₈ hs₈ hpath hcontent => ?_
  change Safe _ _ _ (if opts.dryRun = true then _ else _) _
  split
  · refine Safe.of_done trivial fun b hb hostName already hanswer => ?_
    obtain rfl := Except.ok.inj hb
    cases hanswer
  · refine (safe_writeOpsLine (hpath.trans (hs₈.akPath _).symm)
      ((hs₈.authorizedKeys _).trans hcontent.symm)).mono fun r s' _ hleaves b hb hostName already hanswer => ?_
    refine ⟨host, hhost, hname, pub, ?_⟩
    have hfile : s₇.authorizedKeys host.account = s.authorizedKeys host.account :=
      (hs₆.authorizedKeys _).trans (hs₅.authorizedKeys _)
    rw [hleaves b hb hostName already hanswer, hcontent, hfile, hs₆.profileId, hs₅.profileId]

end Installing

end Vops.AuthorizedKeys
