import Vops.HostOps.OpsLine
import Vops.SshKeys.VopsSshKeys

/-!
# The user's crontab survives

* `ownLines` — the lines of the user: those that are no marker and not between a start and the next end.
* `CronKept` — what a crontab with a block of vops should keep; `cronKept_iff` — for which texts it does.
* `crontab_survives_iff` — with the run: nothing is written after a read that failed exactly when no read fails.
-/

/-!
## The block of a feature in a crontab (`host-ops/crontab.ts`, `host-ops/remote-cron.ts`)

* `upsertCronBlock`, `removeCronBlock` — the crontab with the tagged block, and without it.
* `readCrontab`, `writeCrontab` — the crontab of the login user, over SSH.
* `applyBlock` — what setting up a feature (`upsertCronBlock`) and removing it (`removeCronBlock`) do.
-/

namespace Vops.Crontab

open AuthorizedKeys (Text trim toLines fromLines)

/-! ## Blocks -/

/-- `start` -/
def startMarker (tag : Text) : Text := "# vops:".toList ++ tag ++ ":start".toList

/-- `end` -/
def endMarker (tag : Text) : Text := "# vops:".toList ++ tag ++ ":end".toList

/-- The loop of `stripBlock`, inside a block or not. -/
def stripFrom (tag : Text) : Bool → List Text → List Text
  | _, [] => []
  | inBlock, line :: rest =>
      if trim line = startMarker tag then stripFrom tag true rest
      else if trim line = endMarker tag then stripFrom tag false rest
      else if inBlock then stripFrom tag inBlock rest
      else line :: stripFrom tag inBlock rest

/-- `stripBlock` -/
def stripBlock (lines : List Text) (tag : Text) : List Text := stripFrom tag false lines

/-- The block of a feature. -/
def block (tag : Text) (body : List Text) : List Text := startMarker tag :: (body ++ [endMarker tag])

/-- `upsertCronBlock` -/
def upsertCronBlock (content tag : Text) (body : List Text) : Text :=
  ['\n'].intercalate (stripBlock (toLines content) tag ++ block tag body) ++ ['\n']

/-- `removeCronBlock`: the new text, and whether there was anything to remove. -/
def removeCronBlock (content tag : Text) : Text × Bool :=
  let lines := toLines content
  let kept := stripBlock lines tag
  (fromLines kept, kept.length ≠ lines.length)

/-! ## Over SSH -/

/-- The commands for the crontab of the login user. -/
inductive CronCommand
  /-- `crontab -l 2>/dev/null || true` -/
  | list
  /-- `crontab -r 2>/dev/null || true` -/
  | clear
  /-- `printf %s "$HOME"` -/
  | printHome
  /-- `crontab '${tmp}'; rm -f '${tmp}'` -/
  | load (tmp : Text)
deriving DecidableEq

inductive CronOp
  | run (command : CronCommand)
  | putFile (path content : Text)
deriving DecidableEq

/-- A command always answers; a file that cannot be sent is an error. -/
def CronOp.Answer : CronOp → Type
  | .run _ => ExecResult
  | .putFile _ _ => Except String Unit

abbrev CronProg (α : Type) : Type := Async CronOp CronOp.Answer String α

/-- `readCrontab`, whose exit code is not looked at. -/
def readCrontab : CronProg Text := do
  let read : ExecResult ← Async.perform (CronOp.run .list)
  pure read.stdout

/-- `writeCrontab` -/
def writeCrontab (content : Text) : CronProg Unit := do
  if trim content = [] then
    let _ : ExecResult ← Async.perform (CronOp.run .clear)
    pure ()
  else
    let printed : ExecResult ← Async.perform (CronOp.run .printHome)
    let home := if trim printed.stdout = [] then "/root".toList else trim printed.stdout
    let tmp := home ++ "/.vops-crontab".toList
    let sent : Except String Unit ← Async.perform (CronOp.putFile tmp content)
    match sent with
    | .error e => throw e
    | .ok () => do
        let _ : ExecResult ← Async.perform (CronOp.run (.load tmp))
        pure ()

/-- What a feature does to its block. -/
inductive BlockChange
  | upsert (body : List Text)
  | remove

/-- The crontab with the block changed. -/
def BlockChange.apply (tag : Text) : BlockChange → Text → Text
  | .upsert body, content => upsertCronBlock content tag body
  | .remove, content => (removeCronBlock content tag).1

/-- `writeCrontab(…, upsertCronBlock(await readCrontab(…), tag, body))`, or the same with `removeCronBlock`. -/
def applyBlock (tag : Text) (change : BlockChange) : CronProg Unit := do
  let content ← readCrontab
  writeCrontab (change.apply tag content)

end Vops.Crontab

namespace Vops.Crontab

open AuthorizedKeys (Text trim toLines fromLines toLines_eq fromLines_eq)
open TextLines (lines dropBlank)

variable {tag : Text}

/-! ## The lines of the user -/

/-- The line is a marker of the tag. -/
def IsMarker (tag line : Text) : Prop := trim line = startMarker tag ∨ trim line = endMarker tag

instance (tag line : Text) : Decidable (IsMarker tag line) :=
  inferInstanceAs (Decidable (trim line = startMarker tag ∨ trim line = endMarker tag))

/-- The lines of the user, behind a start without an end so far or not. -/
def ownFrom (tag : Text) : Bool → List Text → List Text
  | _, [] => []
  | started, line :: rest =>
      if trim line = startMarker tag then ownFrom tag true rest
      else if trim line = endMarker tag then ownFrom tag false rest
      else if started ∧ ∃ l ∈ rest, trim l = endMarker tag then ownFrom tag started rest
      else line :: ownFrom tag started rest

/-- The lines that are no marker, and that do not stand between a start and the next end. -/
def ownLines (tag : Text) (ls : List Text) : List Text := ownFrom tag false ls

/-- A start that no end follows, with a line of the user behind it. -/
def Swallows (tag : Text) (ls : List Text) : Prop :=
  ∃ before opening behind, ls = before ++ opening :: behind ∧ trim opening = startMarker tag ∧
    (∀ l ∈ behind, trim l ≠ endMarker tag) ∧ ∃ l ∈ behind, trim l ≠ startMarker tag

theorem startMarker_ne_nil (tag : Text) : startMarker tag ≠ [] :=
  List.append_ne_nil_of_right_ne_nil _ (by decide)

theorem endMarker_ne_nil (tag : Text) : endMarker tag ≠ [] :=
  List.append_ne_nil_of_right_ne_nil _ (by decide)

/-- What is kept of the first lines comes first. -/
theorem stripFrom_isPrefix (inBlock : Bool) (ls ls' : List Text) :
    stripFrom tag inBlock ls <+: stripFrom tag inBlock (ls ++ ls') := by
  induction ls generalizing inBlock with
  | nil => exact List.nil_prefix
  | cons l ls ih =>
      simp only [List.cons_append, stripFrom]
      split_ifs
      · exact ih true
      · exact ih false
      · exact ih inBlock
      · exact List.cons_prefix_cons.mpr ⟨rfl, ih inBlock⟩

theorem stripFrom_sublist (inBlock : Bool) (ls : List Text) : List.Sublist (stripFrom tag inBlock ls) ls := by
  induction ls generalizing inBlock with
  | nil => exact List.Sublist.refl _
  | cons l ls ih =>
      simp only [stripFrom]
      split_ifs
      · exact (ih true).cons _
      · exact (ih false).cons _
      · exact (ih inBlock).cons _
      · exact (ih inBlock).cons_cons _

/-- No marker is left. -/
theorem not_isMarker_of_mem_stripFrom {inBlock : Bool} {ls : List Text} {l : Text}
    (h : l ∈ stripFrom tag inBlock ls) : ¬ IsMarker tag l := by
  induction ls generalizing inBlock with
  | nil => cases h
  | cons l' ls ih =>
      simp only [stripFrom] at h
      split_ifs at h with hstart hend hin
      · exact ih h
      · exact ih h
      · exact ih h
      · rcases List.mem_cons.mp h with rfl | h
        · exact not_or.mpr ⟨hstart, hend⟩
        · exact ih h

/-- Lines without a marker stay as they are. -/
theorem stripFrom_of_no_marker {ls : List Text} (h : ∀ l ∈ ls, ¬ IsMarker tag l) : stripFrom tag false ls = ls := by
  induction ls with
  | nil => rfl
  | cons l ls ih =>
      obtain ⟨hl, hls⟩ := List.forall_mem_cons.mp h
      obtain ⟨hstart, hend⟩ := not_or.mp hl
      simp [stripFrom, hstart, hend, ih hls]

theorem ownFrom_no_end {started : Bool} {ls : List Text} (h : ∀ l ∈ ls, trim l ≠ endMarker tag) :
    ownFrom tag started ls = ls.filter fun l => trim l ≠ startMarker tag := by
  induction ls generalizing started with
  | nil => rfl
  | cons l ls ih =>
      obtain ⟨hl, hls⟩ := List.forall_mem_cons.mp h
      have hnone : ¬ (started = true ∧ ∃ l ∈ ls, trim l = endMarker tag) := by
        rintro ⟨-, l, hl, hend⟩
        exact hls l hl hend
      simp only [ownFrom, if_neg hl, if_neg hnone]
      split_ifs with hstart
      · simp [hstart, ih hls]
      · simp [hstart, ih hls]

/-- Where no line is swallowed, what the code keeps are the lines of the user. -/
theorem stripFrom_eq_ownFrom {inBlock : Bool} {ls : List Text} (hswallow : ¬ Swallows tag ls)
    (hin : inBlock = true → (∀ l ∈ ls, trim l ≠ endMarker tag) → ∀ l ∈ ls, trim l = startMarker tag) :
    stripFrom tag inBlock ls = ownFrom tag inBlock ls := by
  induction ls generalizing inBlock with
  | nil => rfl
  | cons l ls ih =>
      have hrest : ¬ Swallows tag ls := by
        rintro ⟨before, opening, behind, rfl, h⟩
        exact hswallow ⟨l :: before, opening, behind, rfl, h⟩
      simp only [stripFrom, ownFrom]
      by_cases hstart : trim l = startMarker tag
      · rw [if_pos hstart, if_pos hstart]
        refine ih hrest fun _ hnone => ?_
        by_contra hsome
        push Not at hsome
        exact hswallow ⟨[], l, ls, rfl, hstart, hnone, hsome⟩
      · rw [if_neg hstart, if_neg hstart]
        by_cases hend : trim l = endMarker tag
        · rw [if_pos hend, if_pos hend]
          exact ih hrest fun hfalse => by cases hfalse
        · rw [if_neg hend, if_neg hend]
          cases inBlock with
          | false =>
              have hsame : stripFrom tag false ls = ownFrom tag false ls := ih hrest (by simp)
              simp [hsame]
          | true =>
              have hfollows : ∃ l ∈ ls, trim l = endMarker tag := by
                by_contra hnone
                push Not at hnone
                exact hstart (hin rfl (List.forall_mem_cons.mpr ⟨hend, hnone⟩) l List.mem_cons_self)
              have hsame : stripFrom tag true ls = ownFrom tag true ls := ih hrest fun _ hnone => by
                obtain ⟨l', hl', hend'⟩ := hfollows
                exact absurd hend' (hnone l' hl')
              simp [hfollows, hsame]

theorem stripFrom_no_end {ls : List Text} (h : ∀ l ∈ ls, trim l ≠ endMarker tag) : stripFrom tag true ls = [] := by
  induction ls with
  | nil => rfl
  | cons l ls ih =>
      obtain ⟨hl, hls⟩ := List.forall_mem_cons.mp h
      simp only [stripFrom, if_neg hl, if_true, ih hls, ite_self]

/-- Where a line is swallowed, the code keeps fewer lines than the user has. -/
theorem length_stripFrom_lt {ls : List Text} (h : Swallows tag ls) (inBlock : Bool) :
    (stripFrom tag inBlock ls).length < (ownFrom tag inBlock ls).length := by
  obtain ⟨before, opening, behind, rfl, hopening, hnone, l, hl, hown⟩ := h
  induction before generalizing inBlock with
  | nil =>
      have hmem : l ∈ behind.filter fun l => trim l ≠ startMarker tag := List.mem_filter.mpr ⟨hl, by simpa using hown⟩
      rw [List.nil_append, stripFrom, ownFrom, if_pos hopening, if_pos hopening, stripFrom_no_end hnone,
        ownFrom_no_end hnone]
      exact List.length_pos_of_mem hmem
  | cons l' before ih =>
      simp only [List.cons_append, stripFrom, ownFrom]
      split_ifs with hstart hend hin hfollows hfollows
      · exact ih true
      · exact ih false
      · exact ih inBlock
      · exact Nat.lt_succ_of_lt (ih inBlock)
      · exact absurd hfollows.1 hin
      · exact Nat.succ_lt_succ (ih inBlock)

/-! ## The texts -/

theorem not_newline_of_mem_strip {content l : Text} {inBlock : Bool}
    (h : l ∈ stripFrom tag inBlock (toLines content)) : '\n' ∉ l :=
  AuthorizedKeys.newline_notMem ((stripFrom_sublist inBlock _).subset h)

theorem upsertCronBlock_eq (content tag : Text) (body : List Text) :
    upsertCronBlock content tag body = TextLines.join (stripBlock (toLines content) tag ++ block tag body) := by
  rw [← fromLines_eq, fromLines, if_neg (by simp [block])]
  rfl

theorem removeCronBlock_eq (content tag : Text) :
    (removeCronBlock content tag).1 = TextLines.join (stripBlock (toLines content) tag) := by
  rw [← fromLines_eq]
  rfl

/-- The lines of a block: no newline in them, and no marker of the tag. -/
def IsBody (tag : Text) (body : List Text) : Prop := ∀ l ∈ body, '\n' ∉ l ∧ ¬ IsMarker tag l

section Block

variable {body : List Text}

/-- A text from the start of a comment to a word is trimmed. -/
theorem trim_marker {opening closing : Text} (mid : Text) (hopen : opening.head? = some '#')
    (hclose : closing ≠ []) (hlast : closing.getLast?.any isJsSpace = false) :
    trim (opening ++ mid ++ closing) = opening ++ mid ++ closing := by
  obtain ⟨rest, rfl⟩ : ∃ rest, opening = '#' :: rest := List.head?_eq_some_iff.mp hopen
  refine AuthorizedKeys.trim_eq_self (fun c hc => ?_) fun c hc => ?_
  · obtain rfl : '#' = c := Option.some.inj hc
    decide
  · rw [List.getLast?_append_of_ne_nil _ hclose] at hc
    rwa [Option.mem_def.mp hc] at hlast

theorem trim_startMarker (tag : Text) : trim (startMarker tag) = startMarker tag :=
  trim_marker tag (by decide) (by decide) (by decide)

theorem trim_endMarker (tag : Text) : trim (endMarker tag) = endMarker tag :=
  trim_marker tag (by decide) (by decide) (by decide)

theorem newline_mem_startMarker : '\n' ∈ startMarker tag ↔ '\n' ∈ tag := by
  have hopen : '\n' ∉ "# vops:".toList := by decide
  have hclose : '\n' ∉ ":start".toList := by decide
  unfold startMarker
  rw [List.mem_append, List.mem_append]
  exact ⟨fun h => (h.resolve_right hclose).resolve_left hopen, fun h => .inl (.inr h)⟩

theorem newline_mem_endMarker : '\n' ∈ endMarker tag ↔ '\n' ∈ tag := by
  have hopen : '\n' ∉ "# vops:".toList := by decide
  have hclose : '\n' ∉ ":end".toList := by decide
  unfold endMarker
  rw [List.mem_append, List.mem_append]
  exact ⟨fun h => (h.resolve_right hclose).resolve_left hopen, fun h => .inl (.inr h)⟩

theorem stripFrom_append {ls : List Text} (h : ∀ l ∈ ls, ¬ IsMarker tag l) (ls' : List Text) :
    stripFrom tag false (ls ++ ls') = ls ++ stripFrom tag false ls' := by
  induction ls with
  | nil => rfl
  | cons l ls ih =>
      obtain ⟨hl, hls⟩ := List.forall_mem_cons.mp h
      obtain ⟨hstart, hend⟩ := not_or.mp hl
      simp [stripFrom, hstart, hend, ih hls]

/-- A block is stripped. -/
theorem stripFrom_block (h : IsBody tag body) : stripFrom tag false (block tag body) = [] := by
  have hbody (ls : List Text) (hls : IsBody tag ls) : stripFrom tag true (ls ++ [endMarker tag]) = [] := by
    induction ls with
    | nil => simp [stripFrom, trim_endMarker]
    | cons l ls ih =>
        obtain ⟨⟨-, hl⟩, hls⟩ := List.forall_mem_cons.mp hls
        obtain ⟨hstart, hend⟩ := not_or.mp hl
        simp [stripFrom, hstart, hend, ih hls]
  rw [block, stripFrom, if_pos (trim_startMarker tag)]
  exact hbody body h

theorem newline_notMem_block (htag : '\n' ∉ tag) (h : IsBody tag body) : ∀ l ∈ block tag body, '\n' ∉ l := by
  intro l hl
  simp only [block, List.mem_cons, List.mem_append, List.not_mem_nil, or_false] at hl
  rcases hl with rfl | hl | rfl
  · exact newline_mem_startMarker.not.mpr htag
  · exact (h l hl).1
  · exact newline_mem_endMarker.not.mpr htag

theorem filter_block (h : IsBody tag body) :
    (block tag body).filter (IsMarker tag ·) = [startMarker tag, endMarker tag] := by
  have hbody : body.filter (IsMarker tag ·) = [] := by
    refine List.filter_eq_nil_iff.mpr fun l hl => ?_
    simpa using (h l hl).2
  have hstart : IsMarker tag (startMarker tag) := .inl (trim_startMarker tag)
  have hend : IsMarker tag (endMarker tag) := .inr (trim_endMarker tag)
  simp [block, hbody, hstart, hend]

end Block

/-! ## What is kept -/

section Kept

variable {content : Text} {body : List Text}

/-- What upserting and removing the block of a tag keep of a crontab. -/
structure CronKept (content tag : Text) (body : List Text) : Prop where
  upserted : lines (upsertCronBlock content tag body) = ownLines tag (lines content) ++ block tag body
  removed : lines (removeCronBlock content tag).1 = ownLines tag (lines content)
  once : (lines (upsertCronBlock content tag body)).filter (IsMarker tag ·) = [startMarker tag, endMarker tag]
  none_left : ∀ l ∈ lines (removeCronBlock content tag).1, ¬ IsMarker tag l
  upsert_idempotent : upsertCronBlock (upsertCronBlock content tag body) tag body = upsertCronBlock content tag body
  remove_idempotent : (removeCronBlock (removeCronBlock content tag).1 tag).1 = (removeCronBlock content tag).1
  remove_upsert : lines (removeCronBlock (upsertCronBlock content tag body) tag).1 = ownLines tag (lines content)

/-- The tag is one line, every start with a line of the user behind it is followed by an end, and the user's
lines do not end in an empty one. -/
structure Balanced (content tag : Text) : Prop where
  tag_line : '\n' ∉ tag
  closed : ¬ Swallows tag (lines content)
  last : (ownLines tag (lines content)).getLast? ≠ some []

theorem dropBlank_eq_self {ls : List Text} (h : ls.getLast? ≠ some []) : dropBlank ls = ls := by
  rcases List.eq_nil_or_concat' ls with rfl | ⟨init, l, rfl⟩
  · rfl
  · exact TextLines.dropBlank_concat _ (by simpa using h)

theorem getLast?_of_dropBlank_eq_self {ls : List Text} (h : dropBlank ls = ls) : ls.getLast? ≠ some [] := by
  intro hlast
  obtain ⟨init, rfl⟩ := List.getLast?_eq_some_iff.mp hlast
  rw [TextLines.dropBlank_concat_nil] at h
  have hle := (TextLines.dropBlank_isPrefix init).length_le
  rw [h] at hle
  simp at hle

theorem toLines_join {ls : List Text} (h : ∀ l ∈ ls, '\n' ∉ l) : toLines (TextLines.join ls) = dropBlank ls := by
  rw [toLines_eq, TextLines.trimmed_join h]

/-- The last line of the user's is the last line of the text, if that is empty. -/
theorem ownFrom_concat_nil (started : Bool) (ls : List Text) :
    (ownFrom tag started (ls ++ [[]])).getLast? = some [] := by
  have hempty : trim [] = [] := rfl
  have hstart := (startMarker_ne_nil tag).symm
  have hend := (endMarker_ne_nil tag).symm
  induction ls generalizing started with
  | nil => simp [ownFrom, hempty, hstart, hend]
  | cons l ls ih =>
      simp only [List.cons_append, ownFrom]
      split_ifs
      · exact ih true
      · exact ih false
      · exact ih started
      · rw [List.getLast?_cons, ih started]
        rfl

/-- In a balanced crontab the code keeps the lines of the user. -/
theorem Balanced.stripBlock_eq (h : Balanced content tag) :
    stripBlock (toLines content) tag = ownLines tag (lines content) := by
  have hlast : (lines content).getLast? ≠ some [] := by
    intro hnil
    obtain ⟨init, hinit⟩ := List.getLast?_eq_some_iff.mp hnil
    exact h.last (by rw [hinit]; exact ownFrom_concat_nil false init)
  have htoLines : toLines content = lines content := by
    rw [toLines_eq]
    exact dropBlank_eq_self hlast
  rw [htoLines]
  exact stripFrom_eq_ownFrom h.closed (by simp)

theorem not_isMarker_of_mem_strip {l : Text} (h : l ∈ stripBlock (toLines content) tag) : ¬ IsMarker tag l :=
  not_isMarker_of_mem_stripFrom h

theorem newline_notMem_strip {l : Text} (h : l ∈ stripBlock (toLines content) tag) : '\n' ∉ l :=
  not_newline_of_mem_strip h

/-- The lines of the two texts that the code writes. -/
theorem lines_removeCronBlock : lines (removeCronBlock content tag).1 = stripBlock (toLines content) tag := by
  rw [removeCronBlock_eq]
  exact TextLines.lines_join fun l hl => newline_notMem_strip hl

theorem newline_notMem_upserted (htag : '\n' ∉ tag) (hbody : IsBody tag body) :
    ∀ l ∈ stripBlock (toLines content) tag ++ block tag body, '\n' ∉ l := by
  intro l hl
  rcases List.mem_append.mp hl with hl | hl
  · exact newline_notMem_strip hl
  · exact newline_notMem_block htag hbody l hl

theorem lines_upsertCronBlock (htag : '\n' ∉ tag) (hbody : IsBody tag body) :
    lines (upsertCronBlock content tag body) = stripBlock (toLines content) tag ++ block tag body := by
  rw [upsertCronBlock_eq]
  exact TextLines.lines_join (newline_notMem_upserted htag hbody)

/-- Stripping what `upsertCronBlock` writes gives the same lines again. -/
theorem stripBlock_upsertCronBlock (htag : '\n' ∉ tag) (hbody : IsBody tag body) :
    stripBlock (toLines (upsertCronBlock content tag body)) tag = stripBlock (toLines content) tag := by
  have hlast : (stripBlock (toLines content) tag ++ block tag body).getLast? ≠ some [] := by
    have hblock : block tag body = (startMarker tag :: body) ++ [endMarker tag] := rfl
    rw [hblock, ← List.append_assoc, List.getLast?_concat]
    simpa using endMarker_ne_nil tag
  rw [upsertCronBlock_eq, toLines_join (newline_notMem_upserted htag hbody), dropBlank_eq_self hlast, stripBlock,
    stripFrom_append fun l hl => not_isMarker_of_mem_strip hl, stripFrom_block hbody, List.append_nil]

/-- A crontab is kept exactly when it is balanced. -/
theorem cronKept_iff (content : Text) (hbody : IsBody tag body) : CronKept content tag body ↔ Balanced content tag := by
  constructor
  · intro h
    have htag : '\n' ∉ tag := by
      rw [← newline_mem_startMarker]
      have hmem : startMarker tag ∈ lines (upsertCronBlock content tag body) := by
        rw [h.upserted]
        simp [block]
      exact TextLines.newline_notMem_of_mem_lines hmem
    have hstrip : stripBlock (toLines content) tag = ownLines tag (lines content) := by
      rw [← lines_removeCronBlock]
      exact h.removed
    refine ⟨htag, fun hswallow => ?_, ?_⟩
    · have hlt := length_stripFrom_lt hswallow false
      have hle : (stripBlock (toLines content) tag).length ≤ (stripFrom tag false (lines content)).length := by
        obtain ⟨blank, hblank⟩ := TextLines.dropBlank_isPrefix (lines content)
        have hprefix : stripFrom tag false (dropBlank (lines content)) <+: _ :=
          stripFrom_isPrefix false (dropBlank (lines content)) blank
        rw [hblank] at hprefix
        rw [toLines_eq]
        exact hprefix.length_le
      rw [hstrip, ownLines] at hle
      omega
    · refine getLast?_of_dropBlank_eq_self (TextLines.join_eq_of_isPrefix (TextLines.dropBlank_isPrefix _) ?_)
      have hremoved := h.remove_idempotent
      rw [removeCronBlock_eq content, hstrip, removeCronBlock_eq, toLines_join, stripBlock,
        stripFrom_of_no_marker] at hremoved
      · exact hremoved
      · intro l hl
        rw [← hstrip] at hl
        exact not_isMarker_of_mem_strip ((TextLines.dropBlank_isPrefix _).subset hl)
      · intro l hl
        rw [← hstrip] at hl
        exact newline_notMem_strip hl
  · intro h
    have hstrip := h.stripBlock_eq
    have hupserted : lines (upsertCronBlock content tag body) = ownLines tag (lines content) ++ block tag body := by
      rw [lines_upsertCronBlock h.tag_line hbody, hstrip]
    have hown : ∀ l ∈ ownLines tag (lines content), ¬ IsMarker tag l := by
      rw [← hstrip]
      exact fun l hl => not_isMarker_of_mem_strip hl
    refine ⟨hupserted, lines_removeCronBlock.trans hstrip, ?_, ?_, ?_, ?_, ?_⟩
    · have hnone : (ownLines tag (lines content)).filter (IsMarker tag ·) = [] :=
        List.filter_eq_nil_iff.mpr fun l hl => by simpa using hown l hl
      rw [hupserted, List.filter_append, hnone, filter_block hbody]
      rfl
    · rw [lines_removeCronBlock, hstrip]
      exact hown
    · rw [upsertCronBlock_eq (upsertCronBlock content tag body), stripBlock_upsertCronBlock h.tag_line hbody,
        ← upsertCronBlock_eq]
    · have hlines : ∀ l ∈ stripBlock (toLines content) tag, '\n' ∉ l := fun l hl => newline_notMem_strip hl
      have hlast : (stripBlock (toLines content) tag).getLast? ≠ some [] := hstrip ▸ h.last
      rw [removeCronBlock_eq (removeCronBlock content tag).1, removeCronBlock_eq content, toLines_join hlines,
        dropBlank_eq_self hlast, stripBlock, stripFrom_of_no_marker fun l hl => not_isMarker_of_mem_strip hl]
    · rw [lines_removeCronBlock, stripBlock_upsertCronBlock h.tag_line hbody, hstrip]

end Kept

/-! ## Over SSH -/

section Ssh

open Async

/-- The crontab and the files of the login user. -/
structure CronHost where
  crontab : Text
  files : Text → Option Text

/-- A file is written. -/
def CronHost.put (s : CronHost) (path content : Text) : CronHost :=
  { s with files := fun p => if p = path then some content else s.files p }

/-- What can be answered: a command can exit with any code and print anything, and can fail to do its work. -/
def cronHost : Surroundings CronOp CronOp.Answer CronHost
  | .run .list, s, _, s' => s' = s
  | .run .printHome, s, _, s' => s' = s
  | .run .clear, s, _, s' => s' = s ∨ s' = { s with crontab := [] }
  | .run (.load tmp), s, _, s' => s' = s ∨ ∃ content, s.files tmp = some content ∧ s' = { s with crontab := content }
  | .putFile path content, s, x, s' => s' = s.put path content ∨ (∃ e, x = .error e) ∧ s' = s

/-- The operation changes the host. -/
def CronOp.Writes : CronOp → Prop
  | .run .list | .run .printHome => False
  | _ => True

/-- Every read of the crontab answered, and printed it all. -/
def ReadsWhole (s : CronHost) (t : Trace CronOp CronOp.Answer) : Prop :=
  ∀ x : ExecResult, ⟨.run .list, x⟩ ∈ t → x.code = 0 ∧ x.stdout = s.crontab

def NothingWritten (t : Trace CronOp CronOp.Answer) : Prop := ∀ e ∈ t, ¬ e.1.Writes

/-- The crontab is kept, and nothing is written when reading it fails. -/
structure CronSurvives (tag : Text) (body : List Text) (s : CronHost) (t : Trace CronOp CronOp.Answer) : Prop where
  kept : CronKept s.crontab tag body
  untouched : ¬ ReadsWhole s t → NothingWritten t

variable {s s' : CronHost} {t : Trace CronOp CronOp.Answer} {r : Except String Unit}

/-- A write is always tried. -/
theorem exists_writes_writeCrontab {content : Text} (h : Steps cronHost (writeCrontab content) s t (.done r) s') :
    ∃ e ∈ t, e.1.Writes := by
  unfold writeCrontab at h
  split at h
  · obtain ⟨x, s₁, t₁, rfl, -, -⟩ := Steps.of_perform h
    exact ⟨_, List.mem_cons_self, trivial⟩
  · obtain ⟨x, s₁, t₁, rfl, -, h⟩ := Steps.of_perform h
    obtain ⟨y, s₂, t₂, rfl, -, -⟩ := Steps.of_perform h
    exact ⟨_, List.mem_cons_of_mem _ List.mem_cons_self, trivial⟩

theorem exists_writes_applyBlock {change : BlockChange}
    (h : Steps cronHost (applyBlock tag change) s t (.done r) s') : ∃ e ∈ t, e.1.Writes := by
  obtain ⟨x, s₁, t₁, rfl, -, h⟩ := Steps.of_perform h
  obtain ⟨e, he, hwrites⟩ := exists_writes_writeCrontab h
  exact ⟨e, List.mem_cons_of_mem _ he, hwrites⟩

/-- In every run that ends: the crontab survives exactly when it is balanced and the read does not fail. -/
theorem crontab_survives_iff {body : List Text} (hbody : IsBody tag body) {change : BlockChange}
    (h : Steps cronHost (applyBlock tag change) s t (.done r) s') :
    CronSurvives tag body s t ↔ Balanced s.crontab tag ∧ ReadsWhole s t := by
  obtain ⟨e, he, hwrites⟩ := exists_writes_applyBlock h
  constructor
  · intro hsurvives
    refine ⟨(cronKept_iff _ hbody).mp hsurvives.kept, ?_⟩
    by_contra hfailed
    exact hsurvives.untouched hfailed e he hwrites
  · rintro ⟨hbalanced, hread⟩
    exact ⟨(cronKept_iff _ hbody).mpr hbalanced, fun hfailed => absurd hread hfailed⟩

/-- The crontab that is asked for: blank text clears it. -/
def written (content : Text) : Text := if trim content = [] then [] else content

theorem writeCrontab_leaves {content : Text} (h : Steps cronHost (writeCrontab content) s t (.done r) s') :
    s'.crontab = s.crontab ∨ s'.crontab = written content := by
  unfold writeCrontab at h
  unfold written
  split at h
  · next hblank =>
    rw [if_pos hblank]
    obtain ⟨x, s₁, t₁, rfl, hclear, hrest⟩ := Steps.of_perform h
    obtain ⟨-, -, rfl⟩ := Steps.of_done hrest
    rcases hclear with rfl | rfl
    · exact .inl rfl
    · exact .inr rfl
  · next hblank =>
    rw [if_neg hblank]
    obtain ⟨x, s₁, t₁, rfl, hhome, hrest⟩ := Steps.of_perform h
    obtain rfl := hhome
    obtain ⟨sent, s₂, t₂, rfl, hput, hsent⟩ := Steps.of_perform hrest
    cases sent with
    | error e =>
        obtain ⟨-, -, rfl⟩ := Steps.of_done hsent
        rcases hput with rfl | ⟨-, rfl⟩
        · exact .inl rfl
        · exact .inl rfl
    | ok u =>
        obtain ⟨y, s₃, t₃, rfl, hload, hdone⟩ := Steps.of_perform hsent
        obtain ⟨-, -, rfl⟩ := Steps.of_done hdone
        obtain rfl : s₂ = s₁.put _ content := hput.resolve_right fun ⟨⟨e, he⟩, _⟩ => by cases he
        rcases hload with rfl | ⟨text, htext, rfl⟩
        · exact .inl rfl
        · refine .inr ?_
          simp only [CronHost.put, if_true] at htext
          exact (Option.some.inj htext).symm

/-- A run that reads the crontab in full leaves it as it was or with its block changed. -/
theorem applyBlock_leaves {change : BlockChange} (h : Steps cronHost (applyBlock tag change) s t (.done r) s')
    (hread : ReadsWhole s t) : s'.crontab = s.crontab ∨ s'.crontab = written (change.apply tag s.crontab) := by
  obtain ⟨x, s₁, t₁, rfl, hlist, hrest⟩ := Steps.of_perform h
  obtain rfl := hlist
  have hcontent := (hread x List.mem_cons_self).2
  have hleaves := writeCrontab_leaves hrest
  rw [hcontent] at hleaves
  exact hleaves

end Ssh

/-! ## Two crontabs -/

namespace Jobs

def backup : Text := "backup".toList

def body : List Text := ["0 3 * * * /etc/vops/backup.sh".toList]

/-- A start whose end was deleted by hand, with a job of the user behind it. -/
def openStart : Text := "# vops:backup:start\n5 4 * * * /usr/bin/report\n".toList

def balanced : Text := "5 4 * * * /usr/bin/report\n".toList

theorem isBody : IsBody backup body := by
  intro l hl
  obtain rfl := List.mem_singleton.mp hl
  decide

def host (crontab : Text) : CronHost := ⟨crontab, fun _ => none⟩

/-- Every command does its work. -/
def working : Async.Handler CronOp CronOp.Answer CronHost
  | .run .list, s => (⟨0, s.crontab, []⟩, s)
  | .run .printHome, s => (⟨0, "/root".toList, []⟩, s)
  | .run .clear, s => (⟨0, [], []⟩, { s with crontab := [] })
  | .run (.load tmp), s => (⟨0, [], []⟩, (s.files tmp).elim s fun content => { s with crontab := content })
  | .putFile path content, s => (.ok (), s.put path content)

theorem cronHost_working (o : CronOp) (s : CronHost) : cronHost o s (working o s).1 (working o s).2 := by
  cases o with
  | putFile path content => exact .inl rfl
  | run command =>
      cases command with
      | list | printHome => exact rfl
      | clear => exact .inr rfl
      | load tmp =>
          cases htmp : s.files tmp with
          | none => exact .inl (by simp [working, htmp])
          | some content => exact .inr ⟨content, htmp, by simp [working, htmp]⟩

/-- The answers to reads. -/
def readAnswer : (Σ o : CronOp, o.Answer) → Option ExecResult
  | ⟨.run .list, x⟩ => some x
  | _ => none

/-- The job of the user is deleted. -/
theorem not_cronSurvives : ∃ t r s', Async.Steps cronHost (applyBlock backup (.upsert body)) (host openStart) t (.done r) s' ∧
    lines s'.crontab = block backup body ∧ ¬ CronSurvives backup body (host openStart) t := by
  refine ⟨_, _, _, Async.Steps.of_run cronHost_working _ _, by decide +kernel, fun h => ?_⟩
  have hremoved := h.kept.removed
  exact absurd hremoved (by decide +kernel)

theorem crontab_survives_balanced : ∃ t r s',
    Async.Steps cronHost (applyBlock backup (.upsert body)) (host balanced) t (.done r) s' ∧
      CronSurvives backup body (host balanced) t := by
  have hrun := Async.Steps.of_run cronHost_working (applyBlock backup (.upsert body)) (host balanced)
  refine ⟨_, _, _, hrun, (crontab_survives_iff isBody hrun).mpr ⟨⟨?_, ?_, ?_⟩, ?_⟩⟩
  · decide +kernel
  · rintro ⟨before, opening, behind, heq, hopening, -⟩
    have hmem : opening ∈ lines balanced := by
      change opening ∈ lines (host balanced).crontab
      rw [heq]
      simp
    have hnone : ∀ l ∈ lines balanced, trim l ≠ startMarker backup := by decide +kernel
    exact hnone opening hmem hopening
  · decide +kernel
  · intro x hx
    have hreads : (Async.trace working (applyBlock backup (.upsert body)) (host balanced)).filterMap readAnswer =
        [⟨0, balanced, []⟩] := by decide +kernel
    have hmem := List.mem_filterMap.mpr ⟨_, hx, (rfl : readAnswer ⟨.run .list, x⟩ = some x)⟩
    rw [hreads] at hmem
    obtain rfl := List.mem_singleton.mp hmem
    exact ⟨rfl, rfl⟩

end Jobs

end Vops.Crontab
