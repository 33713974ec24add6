import Mathlib.Data.List.Forall2
import Vops.Lib.Shell
import Vops.Lib.TextLines

/-!
# Commands and here-documents

How a POSIX shell divides a text into commands, each with the here-document behind it.

* `command` — the characters up to the line break that ends a command, with what they are.
* `hereTag`, `document` — the tag that a command asks for, and the lines up to the first one that is
  the tag.
* `sentences` — the commands of a text with their documents.
* `command_line`, `of_command_line` — a line of a template is a command of its own, read as it is
  meant to be, exactly when its values are kept.
* `document_iff` — a document is the content behind its command exactly when no line of the content
  is the tag.
* `Part.Reads`, `Parts` — rules for a command with its document and for a script, with the condition
  on their values.
* `Parts.reads_iff` — a script is read as its template means exactly when that condition holds.
* `Sentence.file`, `file_of_file` — what a command writes from its document.

`<<-`, a second document of a command, and documents that are not ended are left out.
-/

namespace Shell

open TextLines (infix_of_mem_splitOn)

/-! ## Commands -/

/-- Characters, with what they are. -/
abbrev Reading := List (Char × Role)

/-- A line break ends the command here: no quote and no substitution is open. -/
def atTop : State → Bool
  | [.script none _] | [.comment, .script none _] => true
  | _ => false

/-- The first command of a text, and the text behind the line break that ends it. -/
def command (st : State) : List Char → Reading × List Char
  | [] => ([], [])
  | c :: cs =>
      if (c == '\n' && atTop st) = true then ([], cs)
      else
        let here := step st c cs.head?
        let rest := command here.2 cs
        ((c, here.1) :: rest.1, rest.2)

/-- The word at the beginning of a reading, and whether a part of it is quoted. -/
def word (line : Reading) : List Char × Bool :=
  let chars := line.takeWhile fun x => x.2 ≠ .blank && x.2 ≠ .operator
  ((chars.filter fun x => x.2 = .literal).map Prod.fst, chars.any fun x => x.2 = .quote)

/-- The tag of the here-document that a command asks for, and whether it is quoted. -/
def hereTag : Reading → Option (List Char × Bool)
  | [] => none
  | x :: line =>
      if x = ('<', .operator) ∧ line.head? = some ('<', .operator) then
        some (word (line.tail.dropWhile fun x => x.2 = .blank))
      else hereTag line

/-- A line without its null characters, which are dropped. -/
def dropNulls (line : List Char) : List Char := line.filter (· ≠ '\x00')

/-- The text of a here-document, up to the first line that is its tag, and the text behind that
line. -/
def document (tag : List Char) (text : List Char) : List Char × List Char :=
  let lines := text.splitOn '\n'
  ((lines.takeWhile fun l => dropNulls l ≠ tag).flatMap fun l => dropNulls l ++ ['\n'],
    ['\n'].intercalate (lines.dropWhile fun l => dropNulls l ≠ tag).tail)

/-- The text of a document; nothing in it is expanded when its tag is quoted. -/
structure Document where
  text : List Char
  verbatim : Bool
deriving DecidableEq

/-- A command with its document. -/
structure Sentence where
  line : Reading
  document : Option Document
deriving DecidableEq

/-- The commands of a text with their documents, up to a number. -/
def sentences : ℕ → List Char → List Sentence
  | 0, _ => []
  | n + 1, text =>
      if text = [] then []
      else
        let first := command top text
        match hereTag first.1 with
        | none => ⟨first.1, none⟩ :: sentences n first.2
        | some tag =>
            let doc := document tag.1 first.2
            ⟨first.1, some ⟨doc.1, tag.2⟩⟩ :: sentences n doc.2

/-! ## What a command is read as -/

/-- No line break of the characters ends a command. -/
def single (st : State) : List Char → Option Char → Bool
  | [], _ => true
  | c :: cs, next =>
      !(c == '\n' && atTop st) && single (step st c (cs.head?.or next)).2 cs next

theorem single_append (st : State) (cs ds : List Char) (next : Option Char) :
    single st (cs ++ ds) next =
      (single st cs (ds.head?.or next) && single (read st cs (ds.head?.or next)).2 ds next) := by
  induction cs generalizing st with
  | nil => simp [single, read]
  | cons c cs ih =>
      have hhead : (cs ++ ds).head?.or next = cs.head?.or (ds.head?.or next) := by
        cases cs <;> rfl
      simp only [List.cons_append, single, read, hhead, ih, Bool.and_assoc]

theorem single_of_no_break (st : State) {cs : List Char} (h : '\n' ∉ cs) (next : Option Char) :
    single st cs next = true := by
  induction cs generalizing st with
  | nil => rfl
  | cons c cs ih =>
      rw [List.mem_cons, not_or] at h
      simp [single, ih _ h.2, Ne.symm h.1]

/-- A command that is one line of the text is read as that line is. -/
theorem command_of_single {st : State} {cs : List Char} (hsingle : single st cs (some '\n') = true)
    (hend : atTop (read st cs (some '\n')).2 = true) (rest : List Char) :
    command st (cs ++ '\n' :: rest) = (cs.zip (read st cs (some '\n')).1, rest) := by
  induction cs generalizing st with
  | nil =>
      have htop : atTop st = true := hend
      simp [command, htop]
  | cons c cs ih =>
      have hhead : (cs ++ '\n' :: rest).head? = cs.head?.or (some '\n') := by
        cases cs <;> rfl
      rw [single, Bool.and_eq_true, Bool.not_eq_true'] at hsingle
      rw [read] at hend
      rw [List.cons_append, command, if_neg (by rw [hsingle.1]; exact Bool.false_ne_true), hhead]
      dsimp only
      rw [ih hsingle.2 hend, read, List.zip_cons_cons]

/-- The characters of a command are the first ones of the text, and are read as `read` reads them.
-/
theorem command_spec (st : State) (cs : List Char) :
    ∃ front back, cs = front ++ back ∧ (back = [] ∨ back = '\n' :: (command st cs).2) ∧
      (command st cs).1 = front.zip (read st front back.head?).1 := by
  induction cs generalizing st with
  | nil => exact ⟨[], [], rfl, .inl rfl, rfl⟩
  | cons c cs ih =>
      by_cases hbreak : (c == '\n' && atTop st) = true
      · obtain ⟨hc, -⟩ := Bool.and_eq_true_iff.mp hbreak
        obtain rfl := beq_iff_eq.mp hc
        refine ⟨[], '\n' :: cs, rfl, .inr ?_, ?_⟩ <;> rw [command, if_pos hbreak]
        rfl
      · obtain ⟨front, back, hcs, hback, hread⟩ := ih (step st c cs.head?).2
        refine ⟨c :: front, back, by rw [hcs, List.cons_append], ?_, ?_⟩
        · rw [command, if_neg hbreak]
          exact hback
        · have hhead : cs.head? = front.head?.or back.head? := by
            rw [hcs, List.head?_append]
          rw [command, if_neg hbreak]
          dsimp only
          rw [hread, read, ← hhead, List.zip_cons_cons]

/-! ## Lines of a template -/

/-- The characters of a template, with what they are meant to be. -/
def meant (pieces : List Piece) : Reading := (textOf pieces).zip (intended top pieces).1

/-- The template has no line break. -/
def Piece.oneLine : Piece → Bool
  | code text => !text.contains '\n'
  | _ => true

theorem single_of_keeps {st : State} (hst : hosts st = true) {cs : List Char} {next : Option Char}
    (h : keeps st cs next) : single st cs next = true := by
  induction cs with
  | nil => rfl
  | cons c cs ih =>
      have hbreak : (c == '\n' && atTop st) = false := by
        by_contra hboth
        rw [Bool.not_eq_false, Bool.and_eq_true, beq_iff_eq] at hboth
        obtain ⟨rfl, htop⟩ := hboth
        have hliteral := h.1
        match st, hst, htop with
        | [.script none true], _, _ => simp [step, stepScript, kind] at hliteral
      rw [single, hbreak, step_literal hst h.1, ih h.2]
      rfl

theorem single_quote {st : State} (hst : takesQuote st = true) (cs : List Char)
    (next : Option Char) :
    single st (quote cs) next = true := by
  match st, hst with
  | .script close mid :: below, hst =>
      have hclose := close_of_takesQuote hst
      have hopen (next : Option Char) : step (.script close mid :: below) '\'' next =
          (.quote, .single :: .script close true :: below) := by
        simp [step, stepScript, hclose.1, kind]
      have hvalue : ∀ cs : List Char, single (.single :: .script close true :: below)
          (cs.flatMap escapeQuote ++ ['\'']) next = true := by
        intro cs
        induction cs with
        | nil => rfl
        | cons c cs ih =>
            rw [List.flatMap_cons, List.append_assoc, single_append, read_escapeQuote hclose, ih,
              Bool.and_true]
            by_cases hc : c = '\''
            · exact single_of_no_break _ (by simp [escapeQuote, hc]) _
            · simp [escapeQuote, hc, single, atTop]
      rw [quote, List.cons_append, single, hopen, hvalue]
      rfl

/-- A line whose values are kept is one command. -/
theorem single_textOf {st st' : State} {pieces : List Piece} (hends : ends st pieces = some st')
    (hkept : Kept st pieces) (hline : pieces.all Piece.oneLine = true) (next : Option Char) :
    single st (textOf pieces) next = true := by
  induction pieces generalizing st with
  | nil => rfl
  | cons piece pieces ih =>
      rw [List.all_cons, Bool.and_eq_true] at hline
      rw [textOf_cons, single_append]
      cases piece with
      | code text =>
          obtain ⟨hread, hrest⟩ := ends_code hends
          have hbreak : '\n' ∉ text := by simpa [Piece.oneLine] using hline.1
          simp only [Piece.text, hread ((textOf pieces).head?.or next), ih hrest hkept hline.2,
            single_of_no_break st hbreak, Bool.and_self]
      | number n =>
          obtain ⟨htakes, hrest⟩ := ends_number hends
          have hbreak : '\n' ∉ (toString n).toList := fun hmem => by
            rcases Numerals.char_of_toString hmem with h | h
            · exact absurd h (by decide)
            · exact absurd h (by decide)
          simp only [Piece.text, read_number htakes, ih hrest hkept hline.2,
            single_of_no_break st hbreak, Bool.and_self]
      | bare value =>
          obtain ⟨hhosts, hcode, hrest⟩ := ends_bare hends
          simp only [Piece.text, head_textOf hcode, read_of_keeps hhosts hkept.1,
            single_of_keeps hhosts hkept.1, ih hrest hkept.2 hline.2, Bool.and_self]
      | quoted value =>
          obtain ⟨htakes, hrest⟩ := ends_quoted hends
          simp only [Piece.text, read_quote htakes, single_quote htakes, ih hrest hkept.2 hline.2,
            Bool.and_self]

theorem intended_length (st : State) (pieces : List Piece) :
    (intended st pieces).1.length = (textOf pieces).length := by
  induction pieces generalizing st with
  | nil => rfl
  | cons piece pieces ih =>
      rw [textOf_cons, List.length_append]
      cases piece <;>
        simp only [intended, List.length_append, ih, read_length, quotedRoles_length,
          List.length_map, Piece.text]

theorem intended_ends {st st' : State} {pieces : List Piece} (h : ends st pieces = some st') :
    (intended st pieces).2 = st' := by
  induction pieces generalizing st with
  | nil => exact Option.some.inj h
  | cons piece pieces ih =>
      cases piece with
      | code text => exact ih (ends_code h).2
      | number n => exact ih (ends_number h).2
      | bare value => exact ih (ends_bare h).2.2
      | quoted value => exact ih (ends_quoted h).2

variable {line : List Piece} {C : Prop} {mid : Bool}

/-- A line of a template whose values are kept is a command that is read as it is meant to be. -/
theorem command_line (h : Leads top line C [.script none mid])
    (hline : line.all Piece.oneLine = true)
    (hC : C) (rest : List Char) : command top (textOf line ++ '\n' :: rest) =
    (meant line, rest) := by
  have hkept := h.kept.mpr hC
  have hread := read_of_kept h.ends hkept (some '\n')
  have hend : atTop (read top (textOf line) (some '\n')).2 = true := by
    rw [hread, intended_ends h.ends]
    rfl
  rw [command_of_single (single_textOf h.ends hkept hline _) hend, hread, meant]

/-- Where a command is read as a line of a template is meant to be, the values of the line are kept.
-/
theorem of_command_line (h : Leads top line C [.script none mid]) {rest : List Char}
    (hcommand : (command top (textOf line ++ '\n' :: rest)).1 = meant line) : C := by
  obtain ⟨front, back, hsplit, -, hread⟩ := command_spec top (textOf line ++ '\n' :: rest)
  rw [hcommand, meant] at hread
  have hfront : textOf line = front := by
    have hchars := congrArg (List.map Prod.fst) hread
    rwa [List.map_fst_zip (by rw [intended_length]), List.map_fst_zip
      (by rw [read_length])] at hchars
  subst hfront
  have hback : '\n' :: rest = back := List.append_cancel_left hsplit
  have hroles := congrArg (List.map Prod.snd) hread
  rw [List.map_snd_zip (by rw [intended_length]), List.map_snd_zip (by rw [read_length])] at hroles
  exact h.kept.mp (kept_of_read h.ends hroles.symm)

/-! ## Documents -/

theorem dropNulls_of_not_mem {cs : List Char} (h : '\x00' ∉ cs) : dropNulls cs = cs :=
  List.filter_eq_self.mpr fun c hc => decide_eq_true (by rintro rfl; exact h hc)

theorem flatMap_lines (lines : List (List Char)) (hne : lines ≠ []) :
    (lines.flatMap fun l => dropNulls l ++ ['\n']) =
      dropNulls (['\n'].intercalate lines) ++ ['\n'] := by
  induction lines with
  | nil => exact absurd rfl hne
  | cons l lines ih =>
      by_cases hnil : lines = []
      · rw [hnil]
        simp
      · have hsplit : dropNulls (l ++ ['\n'] ++ ['\n'].intercalate lines) =
            dropNulls l ++ ['\n'] ++ dropNulls (['\n'].intercalate lines) := by
          rw [dropNulls, List.filter_append, List.filter_append]
          rfl
        rw [List.flatMap_cons, ih hnil, List.intercalate_cons_of_ne_nil hnil, hsplit,
          List.append_assoc _ (dropNulls _)]

theorem count_lines (lines : List (List Char)) (h : ∀ l ∈ lines, '\n' ∉ l) :
    (lines.flatMap fun l => dropNulls l ++ ['\n']).count '\n' = lines.length := by
  induction lines with
  | nil => rfl
  | cons l lines ih =>
      obtain ⟨hl, hlines⟩ := List.forall_mem_cons.mp h
      have hzero : (dropNulls l).count '\n' = 0 :=
        List.count_eq_zero.mpr fun hmem => hl (List.mem_of_mem_filter hmem)
      rw [List.flatMap_cons, List.count_append, List.count_append, hzero, ih hlines,
        List.length_cons]
      simp
      omega

variable {tag content rest : List Char}

/-- The line is not the tag. -/
def inBody (tag : List Char) (l : List Char) : Bool := dropNulls l ≠ tag

theorem document_text (htag : '\n' ∉ tag ∧ '\x00' ∉ tag)
    (hbody : ∀ l ∈ content.splitOn '\n', inBody tag l = true) :
    document tag (content ++ '\n' :: (tag ++ '\n' :: rest)) =
      (dropNulls content ++ ['\n'], rest) := by
  have hstop : inBody tag tag = false := by
    rw [inBody, dropNulls_of_not_mem htag.2]
    simp
  have hlines : (content ++ '\n' :: (tag ++ '\n' :: rest)).splitOn '\n' =
      content.splitOn '\n' ++ tag :: rest.splitOn '\n' := by
    rw [List.splitOn_append_cons_self, List.splitOn_append_cons_self_of_not_mem htag.1]
  have htake : (content.splitOn '\n' ++ tag :: rest.splitOn '\n').takeWhile (inBody tag) =
      content.splitOn '\n' := by
    rw [List.takeWhile_append_of_pos hbody, List.takeWhile_cons_of_neg (by simp [hstop]),
      List.append_nil]
  have hdrop : (content.splitOn '\n' ++ tag :: rest.splitOn '\n').dropWhile (inBody tag) =
      tag :: rest.splitOn '\n' := by
    rw [List.dropWhile_append_of_pos hbody, List.dropWhile_cons_of_neg (by simp [hstop])]
  have hjoin := flatMap_lines (content.splitOn '\n') (List.splitOn_ne_nil _ _)
  rw [List.intercalate_splitOn] at hjoin
  have htake' := congrArg (List.flatMap fun l => dropNulls l ++ ['\n']) htake
  have hdrop' := congrArg (fun ls : List (List Char) => ['\n'].intercalate ls.tail) hdrop
  rw [List.tail_cons, List.intercalate_splitOn] at hdrop'
  rw [document, hlines]
  exact Prod.ext (htake'.trans hjoin) hdrop'

/-- As many lines are taken as the text has line breaks. -/
theorem body_of_document (htag : '\n' ∉ tag)
    (h : (document tag (content ++ '\n' :: (tag ++ '\n' :: rest))).1 = content ++ ['\n']) :
    ∀ l ∈ content.splitOn '\n', inBody tag l = true := by
  have hlines : (content ++ '\n' :: (tag ++ '\n' :: rest)).splitOn '\n' =
      content.splitOn '\n' ++ tag :: rest.splitOn '\n' := by
    rw [List.splitOn_append_cons_self, List.splitOn_append_cons_self_of_not_mem htag]
  have hno (text : List Char) : ∀ l ∈ text.splitOn '\n', '\n' ∉ l :=
    fun l hl => (infix_of_mem_splitOn hl).2
  have hcontent : (content ++ ['\n']).count '\n' = (content.splitOn '\n').length := by
    rw [← count_lines _ (hno content), flatMap_lines _ (List.splitOn_ne_nil _ _),
      List.intercalate_splitOn, List.count_append, List.count_append, dropNulls,
      List.count_filter (by decide)]
  have htaken : ((content.splitOn '\n' ++ tag :: rest.splitOn '\n').takeWhile (inBody tag)).length =
      (content.splitOn '\n').length := by
    rw [← hcontent, ← h, document, hlines]
    refine (count_lines _ fun l hl => ?_).symm
    exact hno _ l (hlines ▸ (List.takeWhile_sublist _).subset hl)
  rw [List.takeWhile_append] at htaken
  split at htaken
  · next hall =>
      rw [← List.takeWhile_eq_self_iff]
      exact (List.takeWhile_prefix _).eq_of_length hall
  · next hsome => exact absurd htaken hsome

/-- The text of a document is the content behind its command exactly when no line of it is the tag.
-/
theorem document_iff (htag : '\n' ∉ tag ∧ '\x00' ∉ tag) :
    (document tag (content ++ '\n' :: (tag ++ '\n' :: rest))).1 = content ++ ['\n'] ↔
      '\x00' ∉ content ∧ tag ∉ content.splitOn '\n' := by
  constructor
  · intro h
    have hbody := body_of_document htag.1 h
    rw [document_text htag hbody, List.append_cancel_right_eq] at h
    refine ⟨fun hnull => ?_, fun hmem => ?_⟩
    · rw [← h] at hnull
      exact absurd (List.of_mem_filter hnull) (by decide)
    · have hstop := hbody tag hmem
      rw [inBody, dropNulls_of_not_mem htag.2] at hstop
      simp at hstop
  · rintro ⟨hnull, htagged⟩
    rw [document_text htag, dropNulls_of_not_mem hnull]
    intro l hl
    have hsub : '\x00' ∉ l := fun hmem => hnull ((infix_of_mem_splitOn hl).1.subset hmem)
    rw [inBody, dropNulls_of_not_mem hsub, decide_eq_true_eq]
    rintro rfl
    exact htagged hl

/-! ## Documents of a command -/

/-- The redirections from a document that a template can have. -/
def lessCount : List Piece → ℕ
  | [] => 0
  | .code text :: pieces => text.count '<' + lessCount pieces
  | .number _ :: pieces | .bare _ :: pieces | .quoted _ :: pieces => lessCount pieces

theorem count_zip_le (cs : List Char) (roles : List Role) (c : Char) (r : Role) :
    (cs.zip roles).count (c, r) ≤ cs.count c := by
  induction cs generalizing roles with
  | nil => simp
  | cons d cs ih =>
      cases roles with
      | nil => simp
      | cons role roles =>
          have hrest := ih roles
          rw [List.zip_cons_cons, List.count_cons, List.count_cons]
          by_cases hd : d = c
          · simp only [hd, beq_self_eq_true, if_true]
            split <;> omega
          · have hpair : ((d, role) == (c, r)) = false := by simp [hd]
            rw [hpair]
            simp only [Bool.false_eq_true, if_false]
            omega

theorem not_operator_of_literal {cs : List Char} {c : Char} {α : Type} (xs : List α) :
    (c, Role.operator) ∉ cs.zip (xs.map fun _ => Role.literal) := by
  intro h
  obtain ⟨-, h⟩ := List.of_mem_zip h
  obtain ⟨x, -, hx⟩ := List.mem_map.mp h
  cases hx

theorem role_of_quoted {cs : List Char} {r : Role} (h : r ∈ quotedRoles cs) :
    r = .quote ∨ r = .literal := by
  rw [quotedRoles, List.cons_append, List.mem_cons, List.mem_append, List.mem_singleton,
    List.mem_flatMap] at h
  rcases h with rfl | ⟨c, -, hc⟩ | rfl
  · exact .inl rfl
  · unfold quotedRole at hc
    split at hc <;> simp at hc <;> tauto
  · exact .inl rfl

theorem not_operator_of_quoted {cs : List Char} {c : Char} (ds : List Char) :
    (c, Role.operator) ∉ ds.zip (quotedRoles cs) := by
  intro h
  rcases role_of_quoted (List.of_mem_zip h).2 with h | h <;> cases h

theorem count_less_le (st : State) (pieces : List Piece) :
    ((textOf pieces).zip (intended st pieces).1).count ('<', Role.operator) ≤ lessCount pieces := by
  induction pieces generalizing st with
  | nil => simp [textOf, intended]
  | cons piece pieces ih =>
      rw [textOf_cons]
      cases piece with
      | code text =>
          have hhere := count_zip_le text (read st text none).1 '<' .operator
          have hrest := ih (read st text none).2
          rw [intended, Piece.text, List.zip_append (read_length ..).symm,
            List.count_append, lessCount]
          omega
      | number n =>
          have hrest := ih (inWord st)
          rw [intended, Piece.text, List.zip_append (by rw [List.length_map]), List.count_append,
            List.count_eq_zero.mpr (not_operator_of_literal _), lessCount]
          omega
      | bare value =>
          have hrest := ih st
          rw [intended, Piece.text, List.zip_append (by rw [List.length_map]), List.count_append,
            List.count_eq_zero.mpr (not_operator_of_literal _), lessCount]
          omega
      | quoted value =>
          have hrest := ih (inWord st)
          rw [intended, Piece.text, List.zip_append (quotedRoles_length value).symm,
            List.count_append,
            List.count_eq_zero.mpr (not_operator_of_quoted _), lessCount]
          omega

theorem hereTag_of_count {line : Reading} (h : line.count ('<', Role.operator) ≤ 1) :
    hereTag line = none := by
  induction line with
  | nil => rfl
  | cons x line ih =>
      rw [List.count_cons] at h
      rw [hereTag, if_neg, ih (by omega)]
      rintro ⟨rfl, hnext⟩
      obtain ⟨rest, rfl⟩ : ∃ rest, line = ('<', Role.operator) :: rest := by
        cases line with
        | nil => cases hnext
        | cons y rest => exact ⟨rest, by rw [Option.some.inj hnext]⟩
      simp at h

theorem hereTag_append {xs ys : Reading} (h : ('<', Role.operator) ∉ xs) :
    hereTag (xs ++ ys) = hereTag ys := by
  induction xs with
  | nil => rfl
  | cons x xs ih =>
      rw [List.mem_cons, not_or] at h
      rw [List.cons_append, hereTag, if_neg (fun hx => h.1 hx.1.symm), ih h.2]

/-- A quoted value is one word. -/
theorem inWord_of_quoted (cs : List Char) : ∀ x ∈ (quote cs).zip (quotedRoles cs),
    (decide (x.2 ≠ .blank) && decide (x.2 ≠ .operator)) = true := by
  intro x hx
  rcases role_of_quoted (List.of_mem_zip (a := x.1) (b := x.2) hx).2 with h | h <;> rw [h] <;>
    decide

/-- The literal characters of a quoted value are the value. -/
theorem word_quote (cs : List Char) : word ((quote cs).zip (quotedRoles cs)) = (cs, true) := by
  have hchar (c : Char) : (((escapeQuote c).zip (quotedRole c)).filter fun x =>
      x.2 = .literal).map Prod.fst = [c] := by
    unfold escapeQuote quotedRole
    by_cases hc : c = '\''
    · simp [hc]
    · simp [hc]
  have hlength (c : Char) : (escapeQuote c).length = (quotedRole c).length := by
    unfold quotedRole escapeQuote
    split <;> rfl
  have hchars : ∀ cs : List Char, (((cs.flatMap escapeQuote ++ ['\'']).zip
      (cs.flatMap quotedRole ++ [.quote])).filter fun x => x.2 = .literal).map Prod.fst = cs := by
    intro cs
    induction cs with
    | nil => rfl
    | cons c cs ih =>
        rw [List.flatMap_cons, List.flatMap_cons, List.append_assoc, List.append_assoc,
          List.zip_append (hlength c), List.filter_append, List.map_append, hchar, ih]
        rfl
  rw [word, List.takeWhile_eq_self_iff.mpr (inWord_of_quoted cs)]
  refine Prod.ext ?_ ?_
  · rw [quote, quotedRoles, List.cons_append, List.cons_append, List.zip_cons_cons,
      List.filter_cons_of_neg (by decide)]
    exact hchars cs
  · rw [quote, quotedRoles, List.cons_append, List.cons_append, List.zip_cons_cons, List.any_cons]
    rfl

/-- A blank ends the word. -/
theorem word_quote_blank (cs : List Char) (more : Reading) :
    word ((quote cs).zip (quotedRoles cs) ++ (' ', .blank) :: more) = (cs, true) := by
  have htake : ((quote cs).zip (quotedRoles cs) ++ (' ', Role.blank) :: more).takeWhile
      (fun x => decide (x.2 ≠ .blank) && decide (x.2 ≠ .operator)) =
        (quote cs).zip (quotedRoles cs) := by
    rw [List.takeWhile_append_of_pos (inWord_of_quoted cs), List.takeWhile_cons_of_neg (by decide),
      List.append_nil]
  rw [← word_quote cs, word, word, htake, List.takeWhile_eq_self_iff.mpr (inWord_of_quoted cs)]

/-- No blank stands before a quoted value. -/
theorem dropWhile_quote (cs : List Char) (more : Reading) :
    ((quote cs).zip (quotedRoles cs) ++ more).dropWhile (fun x => decide (x.2 = .blank)) =
      (quote cs).zip (quotedRoles cs) ++ more := by
  rw [quote, quotedRoles, List.cons_append, List.cons_append, List.zip_cons_cons, List.cons_append,
    List.dropWhile_cons_of_neg (by decide)]

/-! ## Parts of a script -/

/-- A line of a template, and the document behind it with its tag. -/
structure Part where
  line : List Piece
  doc : Option (List Char × List Char)

/-- The text of a part. -/
def Part.text (p : Part) : List Char :=
  textOf p.line ++ (p.doc.map fun d => '\n' :: (d.1 ++ '\n' :: d.2)).getD []

/-- What a part is meant to be. -/
def Part.sentence (p : Part) : Sentence :=
  ⟨meant p.line, p.doc.map fun d => ⟨d.1 ++ ['\n'], true⟩⟩

/-- The part is read as it is meant to be exactly when the condition holds. -/
structure Part.Reads (p : Part) (C : Prop) : Prop where
  reads : C → ∀ n rest, sentences (n + 1) (p.text ++ '\n' :: rest) = p.sentence :: sentences n rest
  only : ∀ n rest more, sentences (n + 1) (p.text ++ '\n' :: rest) = p.sentence :: more → C

theorem textOf_nil : textOf [] = [] := rfl

theorem Part.text_line (line : List Piece) : (⟨line, none⟩ : Part).text = textOf line := by
  rw [Part.text, Option.map_none, Option.getD_none, List.append_nil]

/-- The condition of a part can be stated in another way. -/
theorem Part.Reads.congr {p : Part} {D : Prop} (h : p.Reads C) (hiff : C ↔ D) : p.Reads D :=
  propext hiff ▸ h

theorem sentences_none (n : ℕ) {text : List Char} (hne : text ≠ [])
    (hhere : hereTag (command top text).1 = none) :
    sentences (n + 1) text = ⟨(command top text).1, none⟩ :: sentences n (command top text).2 := by
  rw [sentences, if_neg hne]
  simp only [hhere]

theorem sentences_some (n : ℕ) {text tag : List Char} {quoted : Bool} (hne : text ≠ [])
    (hhere : hereTag (command top text).1 = some (tag, quoted)) :
    sentences (n + 1) text =
      ⟨(command top text).1, some ⟨(document tag (command top text).2).1, quoted⟩⟩ ::
        sentences n (document tag (command top text).2).2 := by
  rw [sentences, if_neg hne]
  simp only [hhere]

theorem sentences_line (n : ℕ) {text : List Char} (hne : text ≠ []) :
    ∃ doc more, sentences (n + 1) text = ⟨(command top text).1, doc⟩ :: more := by
  cases hhere : hereTag (command top text).1 with
  | none => exact ⟨none, _, sentences_none n hne hhere⟩
  | some tag => exact ⟨_, _, sentences_some n hne hhere⟩

/-- A line without a document. -/
theorem Part.Reads.of_line (h : Leads top line C [.script none mid])
    (hline : line.all Piece.oneLine = true) (hless : lessCount line ≤ 1) :
    Part.Reads ⟨line, none⟩ C := by
  have htext (rest : List Char) : (⟨line, none⟩ : Part).text ++ '\n' :: rest =
      textOf line ++ '\n' :: rest := by
    rw [Part.text_line]
  have hhere : hereTag (meant line) = none := hereTag_of_count
    ((count_less_le top line).trans hless)
  have hne (rest : List Char) : textOf line ++ '\n' :: rest ≠ [] := by simp
  constructor
  · intro hC n rest
    have hcommand := command_line h hline hC rest
    rw [htext, sentences_none n (hne rest) (by rw [hcommand]; exact hhere), hcommand]
    rfl
  · intro n rest more hread
    obtain ⟨doc, more', hhead⟩ := sentences_line n (hne rest)
    rw [htext, hhead] at hread
    exact of_command_line h (congrArg Sentence.line (List.cons.inj hread).1)

/-- The command that writes a file from a document. -/
def catLine (path tag : List Char) : List Piece :=
  [.code "cat > ".toList, .quoted path, .code " <<".toList, .quoted tag]

theorem leads_catLine (path tag : List Char) :
    Leads top (catLine path tag) ('\x00' ∉ path ∧ '\x00' ∉ tag ∧ True) [.script none true] :=
  .code top (by decide) <| .quoted rfl <| .code top (by decide) <| .quoted rfl .nil

theorem meant_catLine (path tag : List Char) : meant (catLine path tag) =
    "cat > ".toList.zip [.literal, .literal, .literal, .blank, .operator, .blank] ++
      ((quote path).zip (quotedRoles path) ++
        ((' ', .blank) :: ('<', .operator) :: ('<', .operator) :: (quote tag).zip
          (quotedRoles tag))) := by
  have hcat : read top "cat > ".toList none =
      ([.literal, .literal, .literal, .blank, .operator, .blank], top) := by
    decide
  have hless : read (inWord top) " <<".toList none = ([.blank, .operator, .operator], top) := by
    decide
  rw [meant, catLine, intended, hcat]
  dsimp only
  rw [intended, intended, hless]
  dsimp only
  rw [intended, intended, textOf_cons, textOf_cons, textOf_cons, textOf_cons]
  simp only [Piece.text, textOf, List.flatMap_nil, List.append_nil]
  rw [List.zip_append (by decide), List.zip_append (quotedRoles_length path).symm]
  rfl

theorem hereTag_catLine (path tag : List Char) :
    hereTag (meant (catLine path tag)) = some (tag, true) := by
  rw [meant_catLine, hereTag_append (by decide), hereTag_append (not_operator_of_quoted _),
    hereTag, if_neg (by simp), hereTag, if_pos ⟨rfl, rfl⟩, List.tail_cons]
  have hword := dropWhile_quote tag []
  rw [List.append_nil] at hword
  rw [hword, word_quote]

/-- A file that is written from a document. -/
theorem Part.Reads.of_file {path content tag : List Char} (htag : '\n' ∉ tag ∧ '\x00' ∉ tag) :
    Part.Reads ⟨catLine path tag, some (content, tag)⟩
      ('\x00' ∉ path ∧ '\x00' ∉ content ∧ tag ∉ content.splitOn '\n') := by
  have htext (rest : List Char) : (⟨catLine path tag, some (content, tag)⟩ : Part).text ++
    '\n' :: rest =
      textOf (catLine path tag) ++ '\n' :: (content ++ '\n' :: (tag ++ '\n' :: rest)) := by
    simp [Part.text]
  have hne (rest : List Char) : textOf (catLine path tag) ++ '\n' :: rest ≠ [] := by simp
  have hline : (catLine path tag).all Piece.oneLine = true := by
    simp only [catLine, List.all_cons, List.all_nil, Piece.oneLine]
    decide
  have hcommand (hpath : '\x00' ∉ path) (rest : List Char) :=
    command_line (leads_catLine path tag) hline ⟨hpath, htag.2, True.intro⟩ rest
  constructor
  · rintro ⟨hpath, hcontent⟩ n rest
    have hdoc := (@document_iff tag content rest htag).mpr hcontent
    have hbody := body_of_document htag.1 hdoc
    rw [htext, sentences_some n (hne _) (by rw [hcommand hpath]; exact hereTag_catLine path tag),
      hcommand hpath, document_text htag hbody, dropNulls_of_not_mem hcontent.1]
    rfl
  · intro n rest more hread
    rw [htext] at hread
    obtain ⟨doc, more', hhead⟩ := sentences_line n (hne (content ++ '\n' :: (tag ++ '\n' :: rest)))
    have hpath : '\x00' ∉ path := by
      rw [hhead] at hread
      exact (of_command_line (leads_catLine path tag)
        (congrArg Sentence.line (List.cons.inj hread).1)).1
    rw [sentences_some n (hne _) (by rw [hcommand hpath]; exact hereTag_catLine path tag),
      hcommand hpath] at hread
    have hdoc := congrArg Sentence.document (List.cons.inj hread).1
    exact ⟨hpath, (document_iff htag).mp (congrArg Document.text (Option.some.inj hdoc))⟩

/-- The parts of a script, each behind a line break, and what follows them. -/
def partsText (parts : List Part) (rest : List Char) : List Char :=
  (parts.flatMap fun p => p.text ++ ['\n']) ++ rest

/-- The parts are read as they are meant to be when all of their conditions hold, which is when `C`
does. -/
structure Parts (parts : List Part) (C : Prop) : Prop where
  each : ∃ conditions : List Prop, List.Forall₂ Part.Reads parts conditions ∧
    ((∀ c ∈ conditions, c) ↔ C)

namespace Parts

variable {parts more : List Part} {C D : Prop}

theorem cons {p : Part} (hp : p.Reads D) (h : Parts parts C) : Parts (p :: parts) (D ∧ C) := by
  obtain ⟨conditions, hall, hC⟩ := h.each
  exact ⟨D :: conditions, .cons hp hall, by rw [List.forall_mem_cons, hC]⟩

theorem map {α : Type} {f : α → Part} {C : α → Prop} {xs : List α}
    (h : ∀ x ∈ xs, (f x).Reads (C x)) : Parts (xs.map f) (∀ x ∈ xs, C x) := by
  induction xs with
  | nil => exact ⟨[], .nil, by simp⟩
  | cons x xs ih =>
      obtain ⟨hx, hxs⟩ := List.forall_mem_cons.mp h
      rw [List.map_cons, List.forall_mem_cons]
      exact cons hx (ih hxs)

/-- The parts are read as they are meant to be, and what follows them is read behind them, exactly
when their conditions hold. -/
theorem reads_iff (h : Parts parts C) (rest : List Char) :
    (∀ n, sentences (parts.length + n) (partsText parts rest) =
      parts.map Part.sentence ++ sentences n rest) ↔ C := by
  obtain ⟨conditions, hall, hC⟩ := h.each
  rw [← hC]
  clear hC h
  induction hall with
  | nil => simp [partsText]
  | @cons p c parts conditions hp hparts ih =>
      have htext : partsText (p :: parts) rest = p.text ++ '\n' :: partsText parts rest := by
        simp [partsText]
      have hlength (n : ℕ) : (p :: parts).length + n = (parts.length + n) + 1 := by
        rw [List.length_cons]
        omega
      rw [List.forall_mem_cons, ← ih]
      simp only [htext, hlength, List.map_cons, List.cons_append]
      constructor
      · intro hread
        have hc : c := hp.only _ _ _ (hread 0)
        refine ⟨hc, fun n => ?_⟩
        have hn := hread n
        rw [hp.reads hc, List.cons.injEq] at hn
        exact hn.2
      · rintro ⟨hc, hrest⟩ n
        rw [hp.reads hc, hrest n]

end Parts

/-! ## Files -/

/-- The file that a command writes from its document, where its first redirection leads. -/
def Sentence.file (s : Sentence) : Option (List Char × List Char) :=
  let behind := (s.line.dropWhile fun x => x ≠ ('>', .operator)).tail
  s.document.map fun d => ((word (behind.dropWhile fun x => x.2 = .blank)).1, d.text)

/-- A part with a document writes its content to its path. -/
theorem file_of_file (path content tag : List Char) :
    (⟨catLine path tag, some (content, tag)⟩ : Part).sentence.file =
      some (path, content ++ ['\n']) := by
  have hcat : "cat > ".toList.zip [Role.literal, .literal, .literal, .blank, .operator, .blank] =
      [('c', .literal), ('a', .literal), ('t', .literal), (' ', .blank), ('>', .operator),
        (' ', .blank)] := rfl
  have hbehind (more : Reading) : (("cat > ".toList.zip
      [Role.literal, .literal, .literal, .blank, .operator, .blank] ++ more).dropWhile
        fun x => decide (x ≠ ('>', .operator))).tail = (' ', .blank) :: more := by
    rw [hcat]
    simp
  rw [Part.sentence, Sentence.file, Option.map_some, Option.map_some]
  dsimp only
  rw [meant_catLine, hbehind, List.dropWhile_cons_of_pos (by decide), dropWhile_quote,
    word_quote_blank]

end Shell
