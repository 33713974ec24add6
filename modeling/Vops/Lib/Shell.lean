import Mathlib.Data.List.DropRight
import Vops.Lib.Numerals

/-!
# How a POSIX shell reads a script

* `Frame`, `Role`, `step`, `read` — what each character of a text is to the shell, in the state of the quotes,
  substitutions and expansions that are open: a part of a word, or what divides, quotes or expands words.
* `Piece`, `intended` — a text that is put together from a template and from values, bare or quoted, and
  what its characters are meant to be: those of a value are all parts of the word that it stands in.
* `fits` — the values stand in places of the template where they can be a part of a word.
* `reads_iff` — such a text is read as it is meant to be exactly when each value is kept.
* `isPlain`, `isPlainInQuotes` — the values that are kept outside and inside of double quotes.
* `Leads`, `Lines` — rules for a line and for a script, with the condition on their values.
* `Lines.asWritten_iff` — a script is read as its template means exactly when that condition holds.

Aliases, tildes, patterns of file names and here-documents are left out.
-/

namespace Shell

open Numerals

/-! ## Reading -/

/-- What is open where a character is read. A script is closed by a character when it is a subshell or a
substitution; `mid` says that a word has begun. -/
inductive Frame
  | script (close : Option Char) (mid : Bool)
  | single | double | comment | escaped
  | name | param | brace | paren
  | arithOpen | arith (depth : ℕ) | arithClose
deriving DecidableEq

/-- What is open, the innermost first. -/
abbrev State := List Frame

/-- A script at its beginning. -/
def top : State := [.script none false]

/-- What a character is to the shell. -/
inductive Role
  | literal | blank | operator | quote | expansion | comment | dropped
deriving DecidableEq

/-- A character of a name, and one that a name begins with. -/
def isNameStart (c : Char) : Bool := c.isAlpha || c == '_'

def isNameChar (c : Char) : Bool := c.isAlphanum || c == '_'

/-- The parameters that are one character. -/
def isParam (c : Char) : Bool := c.isDigit || ['@', '*', '#', '?', '-', '$', '!'].contains c

/-- What a dollar sign opens before a character. -/
def opened (next : Option Char) : Option Frame :=
  next.bind fun c =>
    if c = '(' then some .paren
    else if c = '{' then some .brace
    else if isNameStart c then some .name
    else if isParam c then some .param
    else none

/-- A dollar sign. -/
def dollar (st : State) (next : Option Char) : Role × State :=
  match opened next with
  | some frame => (.expansion, frame :: st)
  | none => (.literal, st)

/-- The characters that a backslash stands before inside of double quotes. -/
def isEscapable (c : Char) : Bool := ['$', '`', '"', '\\', '\n'].contains c

/-- What a character is where no quote is open. -/
inductive Kind
  | escape | single | double | backquote | dollar | blank | operator | opening | hash | plain
deriving DecidableEq

def kind (c : Char) : Kind :=
  if c = '\\' then .escape
  else if c = '\'' then .single
  else if c = '"' then .double
  else if c = '`' then .backquote
  else if c = '$' then .dollar
  else if c = ' ' ∨ c = '\t' then .blank
  else if ['\n', '|', '&', ';', '<', '>', ')'].contains c then .operator
  else if c = '(' then .opening
  else if c = '#' then .hash
  else .plain

/-- A character outside of quotes. A number sign begins a comment where a word would begin. -/
def stepScript (close : Option Char) (mid : Bool) (below : State) (c : Char) (next : Option Char) :
    Role × State :=
  if close = some c then (.operator, below)
  else
    match kind c with
    | .escape => (.quote, .escaped :: .script close (mid || next ≠ some '\n') :: below)
    | .single => (.quote, .single :: .script close true :: below)
    | .double => (.quote, .double :: .script close true :: below)
    | .backquote => (.expansion, .script (some '`') false :: .script close true :: below)
    | .dollar => dollar (.script close true :: below) next
    | .blank => (.blank, .script close false :: below)
    | .operator => (.operator, .script close false :: below)
    | .opening => (.operator, .script (some ')') false :: .script close false :: below)
    | .hash =>
        if mid then (.literal, .script close true :: below)
        else (.comment, .comment :: .script close false :: below)
    | .plain => (.literal, .script close true :: below)

/-- A character inside of double quotes. -/
def stepDouble (below : State) (c : Char) (next : Option Char) : Role × State :=
  match kind c with
  | .double => (.quote, below)
  | .escape =>
      if next.any isEscapable then (.quote, .escaped :: .double :: below) else (.literal, .double :: below)
  | .backquote => (.expansion, .script (some '`') false :: .double :: below)
  | .dollar => dollar (.double :: below) next
  | _ => (.literal, .double :: below)

/-- A character inside of the braces of a parameter. -/
def stepBrace (below : State) (c : Char) (next : Option Char) : Role × State :=
  if c = '}' then (.expansion, below)
  else
    match kind c with
    | .escape => (.quote, .escaped :: .brace :: below)
    | .single => (.quote, .single :: .brace :: below)
    | .double => (.quote, .double :: .brace :: below)
    | .backquote => (.expansion, .script (some '`') false :: .brace :: below)
    | .dollar => dollar (.brace :: below) next
    | _ => (.expansion, .brace :: below)

/-- A character of an arithmetic expression. -/
def stepArith (depth : ℕ) (below : State) (c : Char) (next : Option Char) : Role × State :=
  if c = ')' then
    if depth = 0 then (.expansion, .arithClose :: below) else (.operator, .arith (depth - 1) :: below)
  else
    match kind c with
    | .backquote => (.expansion, .script (some '`') false :: .arith depth :: below)
    | .dollar => dollar (.arith depth :: below) next
    | .opening => (.operator, .arith (depth + 1) :: below)
    | _ => (.literal, .arith depth :: below)

/-- A character, and the one that follows it. A null character is dropped. -/
def step (st : State) (c : Char) (next : Option Char) : Role × State :=
  if c = '\x00' then (.dropped, st)
  else
    match st with
    | [] => (.literal, [])
    | .script close mid :: below => stepScript close mid below c next
    | .single :: below => if c = '\'' then (.quote, below) else (.literal, .single :: below)
    | .double :: below => stepDouble below c next
    | .comment :: below => if c = '\n' then (.operator, below) else (.comment, .comment :: below)
    | .escaped :: below => (if c = '\n' then .quote else .literal, below)
    | .name :: below => (.expansion, if next.any isNameChar then .name :: below else below)
    | .param :: below => (.expansion, below)
    | .brace :: below => stepBrace below c next
    | .paren :: below =>
        (.expansion, if next = some '(' then .arithOpen :: below else .script (some ')') false :: below)
    | .arithOpen :: below => (.expansion, .arith 0 :: below)
    | .arith depth :: below => stepArith depth below c next
    | .arithClose :: below => (.expansion, below)

/-- What the characters of a text are, and what is open after it, when `next` follows. -/
def read (st : State) : List Char → Option Char → List Role × State
  | [], _ => ([], st)
  | c :: cs, next =>
      let here := step st c (cs.head?.or next)
      let rest := read here.2 cs next
      (here.1 :: rest.1, rest.2)

theorem read_append (st : State) (cs ds : List Char) (next : Option Char) :
    read st (cs ++ ds) next =
      ((read st cs (ds.head?.or next)).1 ++ (read (read st cs (ds.head?.or next)).2 ds next).1,
        (read (read st cs (ds.head?.or next)).2 ds next).2) := by
  induction cs generalizing st with
  | nil => rfl
  | cons c cs ih =>
      have hhead : (cs ++ ds).head?.or next = cs.head?.or (ds.head?.or next) := by
        cases cs <;> simp
      simp only [List.cons_append, read, hhead, ih, List.cons_append]

theorem read_length (st : State) (cs : List Char) (next : Option Char) :
    (read st cs next).1.length = cs.length := by
  induction cs generalizing st with
  | nil => rfl
  | cons c cs ih => simp only [read, List.length_cons, ih]

/-! ## Texts that do not depend on what follows them -/

/-- What a character is does not depend on the one that follows it. -/
def steady (st : State) (c : Char) : Bool :=
  kind c != .dollar && kind c != .escape && st.head? != some .name && st.head? != some .paren

theorem step_of_steady {st : State} {c : Char} (h : steady st c = true) (next next' : Option Char) :
    step st c next = step st c next' := by
  simp only [steady, Bool.and_eq_true, bne_iff_ne, ne_eq] at h
  obtain ⟨⟨⟨hdollar, hescape⟩, hname⟩, hparen⟩ := h
  unfold step
  split
  · rfl
  · split <;> try rfl
    · unfold stepScript
      cases hkind : kind c <;> simp_all
    · unfold stepDouble
      cases hkind : kind c <;> simp_all
    · simp at hname
    · unfold stepBrace
      cases hkind : kind c <;> simp_all
    · simp at hparen
    · unfold stepArith
      cases hkind : kind c <;> simp_all

/-- What is open after a text, where how it is read does not depend on what follows it. -/
def runs (st : State) : List Char → Option State
  | [] => some st
  | [c] => if steady st c then some (step st c none).2 else none
  | c :: d :: cs => runs (step st c (some d)).2 (d :: cs)

theorem read_of_runs {st st' : State} {cs : List Char} (h : runs st cs = some st') (next : Option Char) :
    read st cs next = ((read st cs none).1, st') := by
  induction cs generalizing st with
  | nil =>
      obtain rfl : st = st' := by simpa [runs] using h
      rfl
  | cons c cs ih =>
      cases cs with
      | nil =>
          simp only [runs, Option.ite_none_right_eq_some, Option.some.injEq] at h
          obtain ⟨hsteady, rfl⟩ := h
          simp only [read, List.head?_nil, Option.none_or, step_of_steady hsteady next none]
      | cons d cs =>
          have hrest := ih h
          calc read st (c :: d :: cs) next
              _ = ((step st c (some d)).1 :: (read (step st c (some d)).2 (d :: cs) next).1,
                    (read (step st c (some d)).2 (d :: cs) next).2) := rfl
              _ = ((read st (c :: d :: cs) none).1, st') := by rw [hrest]; rfl

/-! ## Values -/

/-- A character between single quotes: a quote stands outside of them, behind a backslash. -/
def escapeQuote (c : Char) : List Char := if c = '\'' then ['\'', '\\', '\'', '\''] else [c]

/-- What the characters of `escapeQuote` are meant to be: `c` is a part of the word. -/
def quotedRole (c : Char) : List Role :=
  if c = '\'' then [.quote, .quote, .literal, .quote] else [.literal]

/-- A value between single quotes. -/
def quote (cs : List Char) : List Char := '\'' :: cs.flatMap escapeQuote ++ ['\'']

/-- What the characters of a quoted value are meant to be. -/
def quotedRoles (cs : List Char) : List Role := .quote :: cs.flatMap quotedRole ++ [.quote]

/-- A place where a character that is not special is a part of a word and opens nothing. -/
def hosts : State → Bool
  | .script _ true :: _ | .double :: _ | .arith _ :: _ => true
  | _ => false

/-- A place where a word can begin or go on with a quoted part. -/
def takesQuote : State → Bool
  | .script close _ :: _ => [none, some ')', some '`'].contains close
  | _ => false

/-- A place where a number is a part of a word. -/
def takesNumber : State → Bool
  | .script close _ :: _ => [none, some ')', some '`'].contains close
  | .double :: _ | .arith _ :: _ => true
  | _ => false

/-- What is open after a part of a word that is not empty. -/
def inWord : State → State
  | .script close _ :: below => .script close true :: below
  | st => st

theorem dollar_literal {st : State} {next : Option Char} (h : (dollar st next).1 = .literal) :
    (dollar st next).2 = st := by
  unfold dollar at h ⊢
  cases hopen : opened next with
  | none => rfl
  | some frame =>
      rw [hopen] at h
      simp at h

theorem stepScript_literal {close : Option Char} {below : State} {c : Char} {next : Option Char}
    (h : (stepScript close true below c next).1 = .literal) :
    (stepScript close true below c next).2 = .script close true :: below := by
  unfold stepScript at h ⊢
  by_cases hclose : close = some c
  · rw [if_pos hclose] at h
    cases h
  · rw [if_neg hclose] at h ⊢
    cases hkind : kind c <;> rw [hkind] at h <;> first | rfl | exact dollar_literal h | cases h

theorem stepDouble_literal {below : State} {c : Char} {next : Option Char}
    (h : (stepDouble below c next).1 = .literal) : (stepDouble below c next).2 = .double :: below := by
  unfold stepDouble at h ⊢
  cases hkind : kind c <;> rw [hkind] at h <;> first | rfl | exact dollar_literal h | cases h | skip
  cases hnext : next.any isEscapable with
  | false => simp
  | true =>
      rw [hnext] at h
      cases h

theorem stepArith_literal {depth : ℕ} {below : State} {c : Char} {next : Option Char}
    (h : (stepArith depth below c next).1 = .literal) :
    (stepArith depth below c next).2 = .arith depth :: below := by
  unfold stepArith at h ⊢
  by_cases hclose : c = ')'
  · rw [if_pos hclose] at h
    split at h <;> cases h
  · rw [if_neg hclose] at h ⊢
    cases hkind : kind c <;> rw [hkind] at h <;> first | rfl | exact dollar_literal h | cases h

/-- A part of a word leaves open what was open. -/
theorem step_literal {st : State} (hst : hosts st = true) {c : Char} {next : Option Char}
    (h : (step st c next).1 = .literal) : (step st c next).2 = st := by
  unfold step at h ⊢
  by_cases hnull : c = '\x00'
  · rw [if_pos hnull] at h
    simp at h
  · rw [if_neg hnull] at h ⊢
    unfold hosts at hst
    split at hst
    · exact stepScript_literal h
    · exact stepDouble_literal h
    · exact stepArith_literal h
    · simp at hst

/-- Each character of a value is a part of the word that it stands in. -/
def keeps (st : State) : List Char → Option Char → Prop
  | [], _ => True
  | c :: cs, next => (step st c (cs.head?.or next)).1 = .literal ∧ keeps st cs next

theorem read_of_keeps {st : State} (hst : hosts st = true) {cs : List Char} {next : Option Char}
    (h : keeps st cs next) : read st cs next = (cs.map fun _ => Role.literal, st) := by
  induction cs with
  | nil => rfl
  | cons c cs ih =>
      simp only [read, step_literal hst h.1, ih h.2, h.1, List.map_cons]

theorem keeps_of_read {st : State} (hst : hosts st = true) {cs : List Char} {next : Option Char}
    (h : (read st cs next).1 = cs.map fun _ => Role.literal) : keeps st cs next := by
  induction cs with
  | nil => trivial
  | cons c cs ih =>
      simp only [read, List.map_cons, List.cons.injEq] at h
      rw [step_literal hst h.1] at h
      exact ⟨h.1, ih h.2⟩

/-- What the characters of `escapeQuote` are. -/
def readRole (c : Char) : List Role := if c = '\x00' then [.dropped] else quotedRole c

theorem readRoles_iff (cs : List Char) : cs.flatMap readRole = cs.flatMap quotedRole ↔ '\x00' ∉ cs := by
  induction cs with
  | nil => simp
  | cons c cs ih =>
      by_cases hnull : c = '\x00'
      · subst hnull
        simp [readRole, quotedRole]
      · have hrole : readRole c = quotedRole c := if_neg hnull
        rw [List.flatMap_cons, List.flatMap_cons, hrole, List.append_cancel_left_eq, ih]
        simp [Ne.symm hnull]

theorem read_escapeQuote {close : Option Char} (hclose : close ≠ some '\'' ∧ close ≠ some '\\')
    (below : State) (c : Char) (next : Option Char) :
    read (.single :: .script close true :: below) (escapeQuote c) next =
      (readRole c, .single :: .script close true :: below) := by
  by_cases hnull : c = '\x00'
  · subst hnull
    rfl
  · by_cases hquote : c = '\''
    · subst hquote
      simp [escapeQuote, readRole, quotedRole, read, step, stepScript, hclose, kind]
    · simp [escapeQuote, readRole, quotedRole, read, step, hnull, hquote]

/-- The characters of a quoted value, after the quote that opens it. -/
theorem read_single {close : Option Char} (hclose : close ≠ some '\'' ∧ close ≠ some '\\')
    (below : State) (cs : List Char) (next : Option Char) :
    read (.single :: .script close true :: below) (cs.flatMap escapeQuote ++ ['\'']) next =
      (cs.flatMap readRole ++ [.quote], .script close true :: below) := by
  induction cs with
  | nil => simp [read, step]
  | cons c cs ih =>
      rw [List.flatMap_cons, List.append_assoc, read_append, read_escapeQuote hclose, ih,
        List.flatMap_cons, List.append_assoc]

theorem close_of_takesQuote {close : Option Char} {mid : Bool} {below : State}
    (h : takesQuote (.script close mid :: below) = true) : close ≠ some '\'' ∧ close ≠ some '\\' := by
  constructor
  · rintro rfl
    simp [takesQuote] at h
  · rintro rfl
    simp [takesQuote] at h

theorem read_quote {st : State} (hst : takesQuote st = true) (cs : List Char) (next : Option Char) :
    read st (quote cs) next = (.quote :: cs.flatMap readRole ++ [.quote], inWord st) := by
  match st, hst with
  | .script close mid :: below, hst =>
      have hclose := close_of_takesQuote hst
      have hopen (next : Option Char) : step (.script close mid :: below) '\'' next =
          (.quote, .single :: .script close true :: below) := by
        simp [step, stepScript, hclose.1, kind]
      rw [quote, List.cons_append, read, hopen, read_single hclose]
      rfl

/-- A quoted value is read as a part of a word, unless a character of it is dropped. -/
theorem read_quote_iff {st : State} (hst : takesQuote st = true) (cs : List Char) (next : Option Char) :
    (read st (quote cs) next).1 = quotedRoles cs ↔ '\x00' ∉ cs := by
  rw [read_quote hst, quotedRoles, List.cons_append, List.cons_append, List.cons.injEq,
    List.append_cancel_right_eq, readRoles_iff]
  simp

theorem kind_numeral {c : Char} (hc : c = '-' ∨ c.isDigit = true) : kind c = .plain ∧ c ≠ '\x00' := by
  have hne (d : Char) (hd : d ≠ '-' ∧ d.isDigit = false) : c ≠ d := by
    rintro rfl
    rcases hc with rfl | hc
    · exact hd.1 rfl
    · rw [hd.2] at hc
      cases hc
  refine ⟨?_, hne '\x00' (by decide)⟩
  have hoperator : ['\n', '|', '&', ';', '<', '>', ')'].contains c = false := by
    simp [hne '\n' (by decide), hne '|' (by decide), hne '&' (by decide), hne ';' (by decide),
      hne '<' (by decide), hne '>' (by decide), hne ')' (by decide)]
  simp only [kind, hne '\\' (by decide), hne '\'' (by decide), hne '"' (by decide), hne '`' (by decide),
    hne '$' (by decide), hne ' ' (by decide), hne '\t' (by decide), hoperator, hne '(' (by decide),
    hne '#' (by decide), if_false, or_self, Bool.false_eq_true]

/-- What closes a script is no part of a word. -/
theorem kind_close {close : Option Char} (hclose : [none, some ')', some '`'].contains close = true) {c : Char}
    (hc : close = some c) : kind c = .operator ∨ kind c = .backquote := by
  subst hc
  have hchars : c = ')' ∨ c = '`' := by simpa using hclose
  rcases hchars with rfl | rfl
  · exact .inl (by decide)
  · exact .inr (by decide)

theorem step_numeral {st : State} (hst : takesNumber st = true) {c : Char}
    (hc : c = '-' ∨ c.isDigit = true) (next : Option Char) : step st c next = (.literal, inWord st) := by
  obtain ⟨hkind, hnull⟩ := kind_numeral hc
  match st, hst with
  | .script close mid :: below, hst =>
      have hclose : close ≠ some c := fun h => by simpa [hkind] using kind_close hst h
      simp only [step, if_neg hnull, stepScript, if_neg hclose, hkind, inWord]
  | .double :: below, _ => simp only [step, if_neg hnull, stepDouble, hkind, inWord]
  | .arith depth :: below, _ =>
      have hparen : c ≠ ')' := by
        rintro rfl
        simp [kind] at hkind
      simp only [step, if_neg hnull, stepArith, if_neg hparen, hkind, inWord]

theorem takesNumber_inWord {st : State} (hst : takesNumber st = true) :
    takesNumber (inWord st) = true ∧ inWord (inWord st) = inWord st := by
  match st, hst with
  | .script close mid :: below, hst => exact ⟨hst, rfl⟩
  | .double :: below, _ => exact ⟨rfl, rfl⟩
  | .arith depth :: below, _ => exact ⟨rfl, rfl⟩

theorem read_numeral {st : State} (hst : takesNumber st = true) {cs : List Char} (hne : cs ≠ [])
    (hcs : ∀ c ∈ cs, c = '-' ∨ c.isDigit = true) (next : Option Char) :
    read st cs next = (cs.map fun _ => Role.literal, inWord st) := by
  induction cs generalizing st with
  | nil => exact absurd rfl hne
  | cons c cs ih =>
      have hin := takesNumber_inWord hst
      rw [read, step_numeral hst (hcs c (List.mem_cons_self ..))]
      by_cases hnil : cs = []
      · subst hnil
        rfl
      · rw [ih hin.1 hnil fun c hc => hcs c (List.mem_cons_of_mem _ hc), hin.2]
        rfl

/-- A number is read as a part of a word. -/
theorem read_number {st : State} (hst : takesNumber st = true) (n : ℤ) (next : Option Char) :
    read st (toString n).toList next = ((toString n).toList.map fun _ => Role.literal, inWord st) :=
  read_numeral hst (toList_toString_ne_nil n) (fun _ => char_of_toString) next

/-! ## Texts that are put together -/

/-- A part of a script: text of its template, a number, or a value, as it is or quoted. -/
inductive Piece
  | code (text : List Char)
  | number (n : ℤ)
  | bare (value : List Char)
  | quoted (value : List Char)

def Piece.text : Piece → List Char
  | code text => text
  | number n => (toString n).toList
  | bare value => value
  | quoted value => quote value

/-- The text of a script. -/
def textOf (pieces : List Piece) : List Char := pieces.flatMap Piece.text

/-- What the characters of a script are meant to be, and what is open after it: the template is read
as it stands, and a value is a part of the word that it stands in. -/
def intended (st : State) : List Piece → List Role × State
  | [] => ([], st)
  | .code text :: pieces =>
      let here := read st text none
      let rest := intended here.2 pieces
      (here.1 ++ rest.1, rest.2)
  | .number n :: pieces =>
      let rest := intended (inWord st) pieces
      ((toString n).toList.map (fun _ => Role.literal) ++ rest.1, rest.2)
  | .bare value :: pieces =>
      let rest := intended st pieces
      (value.map (fun _ => Role.literal) ++ rest.1, rest.2)
  | .quoted value :: pieces =>
      let rest := intended (inWord st) pieces
      (quotedRoles value ++ rest.1, rest.2)

def Piece.isCode : Piece → Bool
  | code text => text != []
  | _ => false

/-- What is open after a script, where its values stand where they can be a part of a word and its template
is read in the same way whatever the values are. -/
def ends (st : State) : List Piece → Option State
  | [] => some st
  | .code text :: pieces => (runs st text).bind fun st' => ends st' pieces
  | .number _ :: pieces => if takesNumber st then ends (inWord st) pieces else none
  | .bare _ :: pieces => if hosts st && pieces.any Piece.isCode then ends st pieces else none
  | .quoted _ :: pieces => if takesQuote st then ends (inWord st) pieces else none

/-- Each character of each value is a part of the word that the value stands in. -/
def Kept (st : State) : List Piece → Prop
  | [] => True
  | .code text :: pieces => Kept (read st text none).2 pieces
  | .number _ :: pieces => Kept (inWord st) pieces
  | .bare value :: pieces => keeps st value (textOf pieces).head? ∧ Kept st pieces
  | .quoted value :: pieces => '\x00' ∉ value ∧ Kept (inWord st) pieces

theorem textOf_cons (piece : Piece) (pieces : List Piece) :
    textOf (piece :: pieces) = piece.text ++ textOf pieces := rfl

theorem head_textOf {pieces : List Piece} (h : pieces.any Piece.isCode = true) (next : Option Char) :
    (textOf pieces).head?.or next = (textOf pieces).head? := by
  suffices hne : textOf pieces ≠ [] by
    cases hcs : textOf pieces with
    | nil => exact absurd hcs hne
    | cons c cs => rfl
  obtain ⟨piece, hpiece, hcode⟩ := List.any_eq_true.mp h
  intro hnil
  have htext := List.flatMap_eq_nil_iff.mp hnil piece hpiece
  cases piece with
  | code text => simp_all [Piece.isCode, Piece.text]
  | number n => simp [Piece.isCode] at hcode
  | bare value => simp [Piece.isCode] at hcode
  | quoted value => simp [Piece.isCode] at hcode

theorem ends_code {st st' : State} {text : List Char} {pieces : List Piece}
    (h : ends st (.code text :: pieces) = some st') :
    (∀ next, read st text next = ((read st text none).1, (read st text none).2)) ∧
      ends (read st text none).2 pieces = some st' := by
  obtain ⟨mid, hruns, hrest⟩ := Option.bind_eq_some_iff.mp h
  have hmid : (read st text none).2 = mid := congrArg Prod.snd (read_of_runs hruns none)
  rw [hmid]
  exact ⟨read_of_runs hruns, hrest⟩

theorem ends_number {st st' : State} {n : ℤ} {pieces : List Piece}
    (h : ends st (.number n :: pieces) = some st') :
    takesNumber st = true ∧ ends (inWord st) pieces = some st' := by
  simpa only [ends, Option.ite_none_right_eq_some] using h

theorem ends_bare {st st' : State} {value : List Char} {pieces : List Piece}
    (h : ends st (.bare value :: pieces) = some st') :
    hosts st = true ∧ pieces.any Piece.isCode = true ∧ ends st pieces = some st' := by
  simpa only [ends, Option.ite_none_right_eq_some, Bool.and_eq_true, and_assoc] using h

theorem ends_quoted {st st' : State} {value : List Char} {pieces : List Piece}
    (h : ends st (.quoted value :: pieces) = some st') :
    takesQuote st = true ∧ ends (inWord st) pieces = some st' := by
  simpa only [ends, Option.ite_none_right_eq_some] using h

/-- A script whose values are kept is read as it is meant to be. -/
theorem read_of_kept {st st' : State} {pieces : List Piece} (hends : ends st pieces = some st')
    (hkept : Kept st pieces) (next : Option Char) :
    read st (textOf pieces) next = intended st pieces := by
  induction pieces generalizing st with
  | nil => rfl
  | cons piece pieces ih =>
      rw [textOf_cons, read_append]
      cases piece with
      | code text =>
          obtain ⟨hread, hrest⟩ := ends_code hends
          simp only [Piece.text, hread ((textOf pieces).head?.or next), ih hrest hkept, intended]
      | number n =>
          obtain ⟨htakes, hrest⟩ := ends_number hends
          simp only [Piece.text, read_number htakes, ih hrest hkept, intended]
      | bare value =>
          obtain ⟨hhosts, hcode, hrest⟩ := ends_bare hends
          have hread := read_of_keeps hhosts hkept.1
          simp only [Piece.text, head_textOf hcode, hread, ih hrest hkept.2, intended]
      | quoted value =>
          obtain ⟨htakes, hrest⟩ := ends_quoted hends
          have hread (next : Option Char) : read st (quote value) next =
              (quotedRoles value, inWord st) :=
            Prod.ext ((read_quote_iff htakes value next).mpr hkept.1) (by rw [read_quote htakes])
          simp only [Piece.text, hread, ih hrest hkept.2, intended]

theorem quotedRoles_length (cs : List Char) : (quotedRoles cs).length = (quote cs).length := by
  have hlen (c : Char) : (quotedRole c).length = (escapeQuote c).length := by
    unfold quotedRole escapeQuote
    split <;> rfl
  simp [quotedRoles, quote, List.length_flatMap, hlen]

/-- Where a script is read as it is meant to be, its values are kept. -/
theorem kept_of_read {st st' : State} {pieces : List Piece} (hends : ends st pieces = some st')
    {next : Option Char} (h : (read st (textOf pieces) next).1 = (intended st pieces).1) :
    Kept st pieces := by
  induction pieces generalizing st with
  | nil => trivial
  | cons piece pieces ih =>
      rw [textOf_cons, read_append] at h
      cases piece with
      | code text =>
          obtain ⟨hread, hrest⟩ := ends_code hends
          simp only [Piece.text, hread ((textOf pieces).head?.or next), intended,
            List.append_cancel_left_eq] at h
          exact ih hrest h
      | number n =>
          obtain ⟨htakes, hrest⟩ := ends_number hends
          simp only [Piece.text, read_number htakes, intended, List.append_cancel_left_eq] at h
          exact ih hrest h
      | bare value =>
          obtain ⟨hhosts, hcode, hrest⟩ := ends_bare hends
          simp only [Piece.text, head_textOf hcode, intended] at h
          obtain ⟨hvalue, htail⟩ := List.append_inj h (by simp [read_length])
          have hkeeps := keeps_of_read hhosts hvalue
          rw [read_of_keeps hhosts hkeeps] at htail
          exact ⟨hkeeps, ih hrest htail⟩
      | quoted value =>
          obtain ⟨htakes, hrest⟩ := ends_quoted hends
          simp only [Piece.text, intended] at h
          obtain ⟨hvalue, htail⟩ := List.append_inj h (by rw [read_length, quotedRoles_length])
          rw [read_quote htakes] at htail
          exact ⟨(read_quote_iff htakes value _).mp hvalue, ih hrest htail⟩

/-- A script is read as it is meant to be exactly when its values are kept. -/
theorem reads_iff {st st' : State} {pieces : List Piece} (hends : ends st pieces = some st')
    (next : Option Char) :
    (read st (textOf pieces) next).1 = (intended st pieces).1 ↔ Kept st pieces :=
  ⟨kept_of_read hends, fun h => congrArg Prod.fst (read_of_kept hends h next)⟩

theorem ends_append {st mid : State} {pieces : List Piece} (h : ends st pieces = some mid)
    (more : List Piece) : ends st (pieces ++ more) = ends mid more := by
  induction pieces generalizing st with
  | nil =>
      obtain rfl : st = mid := by simpa [ends] using h
      rfl
  | cons piece pieces ih =>
      cases piece with
      | code text =>
          obtain ⟨st', hruns, hrest⟩ := Option.bind_eq_some_iff.mp h
          simp only [List.cons_append, ends, hruns, Option.bind_some, ih hrest]
      | number n =>
          obtain ⟨htakes, hrest⟩ := ends_number h
          simp only [List.cons_append, ends, htakes, if_true, ih hrest]
      | bare value =>
          obtain ⟨hhosts, hcode, hrest⟩ := ends_bare h
          simp only [List.cons_append, ends, hhosts, hcode, List.any_append, Bool.true_or, Bool.and_self,
            if_true, ih hrest]
      | quoted value =>
          obtain ⟨htakes, hrest⟩ := ends_quoted h
          simp only [List.cons_append, ends, htakes, if_true, ih hrest]

theorem kept_append {st mid : State} {pieces : List Piece} (h : ends st pieces = some mid)
    (more : List Piece) : Kept st (pieces ++ more) ↔ Kept st pieces ∧ Kept mid more := by
  induction pieces generalizing st with
  | nil =>
      obtain rfl : st = mid := by simpa [ends] using h
      simp [Kept]
  | cons piece pieces ih =>
      cases piece with
      | code text => simp only [List.cons_append, Kept, ih (ends_code h).2]
      | number n => simp only [List.cons_append, Kept, ih (ends_number h).2]
      | bare value =>
          obtain ⟨-, hcode, hrest⟩ := ends_bare h
          have hhead : (textOf (pieces ++ more)).head? = (textOf pieces).head? := by
            rw [← head_textOf hcode (textOf more).head?]
            simp [textOf, List.head?_append]
          simp only [List.cons_append, Kept, hhead, ih hrest, and_assoc]
      | quoted value => simp only [List.cons_append, Kept, ih (ends_quoted h).2, and_assoc]

/-! ## Values that are kept -/

/-- The characters that are no part of a word outside of quotes, wherever they stand. -/
def isSpecial (c : Char) : Bool := c == '\x00' || !([Kind.dollar, .hash, .plain].contains (kind c))

/-- No character of a value is special, and no dollar sign of it begins an expansion. -/
def isPlain : List Char → Option Char → Bool
  | [], _ => true
  | c :: cs, next =>
      !isSpecial c && (kind c != .dollar || (opened (cs.head?.or next)).isNone) && isPlain cs next

/-- No character of a value ends double quotes or is dropped, no dollar sign of it begins an expansion
and no backslash of it is read as one. -/
def isPlainInQuotes : List Char → Option Char → Bool
  | [], _ => true
  | c :: cs, next =>
      c != '\x00' && !([Kind.double, .backquote].contains (kind c)) &&
        (kind c != .dollar || (opened (cs.head?.or next)).isNone) &&
        (kind c != .escape || !(cs.head?.or next).any isEscapable) && isPlainInQuotes cs next

theorem dollar_literal_iff (st : State) (next : Option Char) :
    (dollar st next).1 = .literal ↔ opened next = none := by
  unfold dollar
  cases opened next <;> simp

theorem step_script_iff {close : Option Char} (hclose : [none, some ')', some '`'].contains close = true)
    (below : State) (c : Char) (next : Option Char) :
    (step (.script close true :: below) c next).1 = .literal ↔
      isSpecial c = false ∧ (kind c = .dollar → opened next = none) := by
  by_cases hnull : c = '\x00'
  · subst hnull
    simp [step, isSpecial]
  · by_cases hc : close = some c
    · rcases kind_close hclose hc with hkind | hkind <;> simp [step, stepScript, hnull, hc, isSpecial, hkind]
    · simp only [step, if_neg hnull, stepScript, if_neg hc, isSpecial]
      cases hkind : kind c <;> simp [hnull, dollar_literal_iff]

theorem keeps_script_iff {close : Option Char} (hclose : [none, some ')', some '`'].contains close = true)
    (below : State) (value : List Char) (next : Option Char) :
    keeps (.script close true :: below) value next ↔ isPlain value next = true := by
  induction value with
  | nil => simp [keeps, isPlain]
  | cons c cs ih =>
      rw [keeps, ih, step_script_iff hclose]
      simp [isPlain, imp_iff_not_or]

theorem step_double_iff (below : State) (c : Char) (next : Option Char) :
    (step (.double :: below) c next).1 = .literal ↔
      c ≠ '\x00' ∧ [Kind.double, .backquote].contains (kind c) = false ∧
        (kind c = .dollar → opened next = none) ∧ (kind c = .escape → next.any isEscapable = false) := by
  by_cases hnull : c = '\x00'
  · subst hnull
    simp [step]
  · simp only [step, if_neg hnull, stepDouble]
    cases hkind : kind c with
    | escape => cases hnext : next.any isEscapable <;> simp [hnull]
    | single | double | backquote | dollar | blank | operator | opening | hash | plain =>
        simp [hnull, dollar_literal_iff]

theorem keeps_double_iff (below : State) (value : List Char) (next : Option Char) :
    keeps (.double :: below) value next ↔ isPlainInQuotes value next = true := by
  induction value with
  | nil => simp [keeps, isPlainInQuotes]
  | cons c cs ih =>
      rw [keeps, ih, step_double_iff]
      simp [isPlainInQuotes, imp_iff_not_or, and_assoc]

/-! ## Rules -/

/-- Quoted values with blanks between them. -/
def words (values : List (List Char)) : List Piece := (values.map Piece.quoted).intersperse (.code [' '])

/-- From where `st` is open the pieces leave `st'` open, and their values are kept when `C` holds. -/
structure Leads (st : State) (pieces : List Piece) (C : Prop) (st' : State) : Prop where
  ends : ends st pieces = some st'
  kept : Kept st pieces ↔ C

namespace Leads

variable {st mid st' below : State} {pieces more : List Piece} {C D : Prop} {mid? : Bool}
  {close : Option Char}

theorem nil : Leads st [] True st := ⟨rfl, Iff.rfl⟩

theorem code {text : List Char} (mid : State) (hruns : runs st text = some mid)
    (h : Leads mid pieces C st') : Leads st (.code text :: pieces) C st' := by
  have hmid : (read st text none).2 = mid := congrArg Prod.snd (read_of_runs hruns none)
  refine ⟨?_, ?_⟩
  · rw [Shell.ends, hruns, Option.bind_some, h.ends]
  · rw [Kept, hmid, h.kept]

/-- A literal is read as the list of its characters. -/
theorem literal {cs : List Char} (mid : State) (hruns : runs st cs = some mid)
    (h : Leads mid pieces C st') : Leads st (.code (String.ofList cs).toList :: pieces) C st' := by
  rw [String.toList_ofList]
  exact code mid hruns h

theorem number {n : ℤ} (hst : takesNumber st = true) (h : Leads (inWord st) pieces C st') :
    Leads st (.number n :: pieces) C st' :=
  ⟨by rw [Shell.ends, if_pos hst, h.ends], by rw [Kept, h.kept]⟩

theorem quoted {value : List Char} (hst : takesQuote st = true) (h : Leads (inWord st) pieces C st') :
    Leads st (.quoted value :: pieces) ('\x00' ∉ value ∧ C) st' :=
  ⟨by rw [Shell.ends, if_pos hst, h.ends], by rw [Kept, h.kept]⟩

theorem keeps_code {value text : List Char} (hst : hosts st = true) {c : Char} (htext : text.head? = some c)
    (h : Leads st (.code text :: pieces) C st') :
    Leads st (.bare value :: .code text :: pieces) (keeps st value (some c) ∧ C) st' := by
  have hne : text ≠ [] := by
    rintro rfl
    cases htext
  have hhead : (textOf (.code text :: pieces)).head? = some c := by
    simp [textOf, Piece.text, List.head?_append, htext]
  refine ⟨?_, ?_⟩
  · rw [Shell.ends, hst, List.any_cons, Piece.isCode]
    simp [hne, h.ends]
  · rw [Kept, hhead, h.kept]

/-- A value outside of quotes, in front of text of the template. -/
theorem bare {value text : List Char} (c : Char)
    (hclose : [none, some ')', some '`'].contains close = true) (htext : text.head? = some c)
    (h : Leads (.script close true :: below) (.code text :: pieces) C st') :
    Leads (.script close true :: below) (.bare value :: .code text :: pieces)
      (isPlain value (some c) = true ∧ C) st' := by
  rw [← keeps_script_iff hclose below]
  exact keeps_code rfl htext h

/-- A value in double quotes, in front of text of the template. -/
theorem inQuotes {value text : List Char} (c : Char) (htext : text.head? = some c)
    (h : Leads (.double :: below) (.code text :: pieces) C st') :
    Leads (.double :: below) (.bare value :: .code text :: pieces)
      (isPlainInQuotes value (some c) = true ∧ C) st' := by
  rw [← keeps_double_iff below]
  exact keeps_code rfl htext h

/-- Quoted values with blanks between them. -/
theorem words {values : List (List Char)} (hclose : [none, some ')', some '`'].contains close = true)
    (h : ∀ mid, Leads (.script close mid :: below) more C st') (mid : Bool) :
    Leads (.script close mid :: below) (Shell.words values ++ more)
      ((∀ value ∈ values, '\x00' ∉ value) ∧ C) st' := by
  induction values generalizing mid with
  | nil => simpa [Shell.words] using h mid
  | cons value values ih =>
      rw [List.forall_mem_cons, and_assoc]
      cases values with
      | nil =>
          simp only [List.not_mem_nil, false_implies, implies_true, true_and]
          exact quoted hclose (h true)
      | cons value' values =>
          have hblank : runs (.script close true :: below) [' '] = some (.script close false :: below) := by
            have hne : close ≠ some ' ' := by
              rintro rfl
              simp at hclose
            simp [runs, steady, step, stepScript, hne, kind]
          exact quoted hclose (code _ hblank (ih false))

end Leads

/-! ## Scripts of several lines -/

/-- The lines of a script, with line breaks between them. -/
def joined : List (List Piece) → List Piece
  | [] => []
  | [line] => line
  | line :: line' :: lines => line ++ .code ['\n'] :: joined (line' :: lines)

/-- A script is read as its template is meant to be: each character of a value is a part of the word that
the value stands in, and the others are what they are whatever the values are. -/
def AsWritten (lines : List (List Piece)) : Prop :=
  (read top (textOf (joined lines)) none).1 = (intended top (joined lines)).1

/-- The lines leave nothing open, and their values are kept when `C` holds. -/
structure Lines (lines : List (List Piece)) (C : Prop) : Prop where
  closed : ∀ line ∈ lines, ends top line = some top ∨ ends top line = some [.script none true]
  kept : (∀ line ∈ lines, Kept top line) ↔ C

namespace Lines

variable {line : List Piece} {lines more : List (List Piece)} {C D : Prop}

theorem nil : Lines [] True := ⟨by simp, by simp⟩

theorem append (h : Lines lines C) (hmore : Lines more D) : Lines (lines ++ more) (C ∧ D) where
  closed line hline := (List.mem_append.mp hline).elim (h.closed line) (hmore.closed line)
  kept := by rw [List.forall_mem_append, h.kept, hmore.kept]

theorem cons {mid : Bool} (hline : Leads top line C [.script none mid]) (h : Lines lines D) :
    Lines (line :: lines) (C ∧ D) where
  closed := by
    rw [List.forall_mem_cons]
    refine ⟨?_, h.closed⟩
    cases mid with
    | false => exact .inl hline.ends
    | true => exact .inr hline.ends
  kept := by rw [List.forall_mem_cons, hline.kept, h.kept]

theorem flatMap {α : Type} {f : α → List (List Piece)} {C : α → Prop} (h : ∀ x, Lines (f x) (C x))
    (xs : List α) : Lines (xs.flatMap f) (∀ x ∈ xs, C x) := by
  induction xs with
  | nil => exact ⟨by simp, by simp⟩
  | cons x xs ih =>
      rw [List.flatMap_cons, List.forall_mem_cons]
      exact (h x).append ih

theorem congr (h : Lines lines C) (hCD : C ↔ D) : Lines lines D := ⟨h.closed, h.kept.trans hCD⟩

/-- A line break after a line. -/
theorem line_break (h : ends top line = some top ∨ ends top line = some [.script none true])
    (rest : List Piece) : ends top (line ++ .code ['\n'] :: rest) = ends top rest ∧
      (Kept top (line ++ .code ['\n'] :: rest) ↔ Kept top line ∧ Kept top rest) := by
  rcases h with h | h <;> rw [ends_append h, kept_append h] <;> exact ⟨rfl, Iff.rfl⟩

/-- The values of a script are kept when those of each of its lines are. -/
theorem kept_joined {lines : List (List Piece)}
    (h : ∀ line ∈ lines, ends top line = some top ∨ ends top line = some [.script none true]) :
    (ends top (joined lines)).isSome = true ∧
      (Kept top (joined lines) ↔ ∀ line ∈ lines, Kept top line) := by
  match lines with
  | [] => simp [joined, ends, Kept]
  | [line] =>
      rcases h line (List.mem_cons_self ..) with hclosed | hclosed <;> simp [joined, hclosed]
  | line :: line' :: lines =>
      have hbreak := line_break (h line (List.mem_cons_self ..)) (joined (line' :: lines))
      have hrest := kept_joined fun l hl => h l (List.mem_cons_of_mem _ hl)
      rw [joined, hbreak.1, hbreak.2, hrest.2, List.forall_mem_cons (p := Kept top) (a := line)]
      exact ⟨hrest.1, Iff.rfl⟩

/-- A script of such lines is read as it is written exactly when its values are kept. -/
theorem asWritten_iff (h : Lines lines C) : AsWritten lines ↔ C := by
  obtain ⟨hends, hkept⟩ := kept_joined h.closed
  obtain ⟨st', hst'⟩ := Option.isSome_iff_exists.mp hends
  rw [AsWritten, reads_iff hst', hkept, h.kept]

end Lines

end Shell
