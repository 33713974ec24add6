import Mathlib

/-!
# A line of the Windows command prompt

* `expand` — a text between percent signs is replaced where it stands for something.
* `commands` — the commands of a line: `&` parts them, quotes and carets hide it.
* `assignment` — what a `set` sets: all that stands behind `=`, blanks at the end too.
* `arguments` — a command line as the run time of a program reads it.
* `read` — a line of assignments with a program at the end; a line with anything else on it (a switch of
  `set`, a pipe, a redirection, another command) is not read.
* `weight_le_of_run` — what a line sets and runs is no longer than the line.
-/

namespace CommandPrompt

/-- What a text between two percent signs stands for: a name for its variable, a name with a modifier for a
part of it. -/
abbrev Vars := List Char → Option (List Char)

/-! ## Percent signs -/

/-- The text with its variables; the second argument is the text behind an open percent sign. -/
def expand (vars : Vars) : Option (List Char) → List Char → List Char
  | none, [] => []
  | some name, [] => '%' :: name
  | none, c :: cs => if c = '%' then expand vars (some []) cs else c :: expand vars none cs
  | some name, c :: cs =>
      if c = '%' then
        match vars name with
        | some value => value ++ expand vars none cs
        -- the second sign may begin a name
        | none => '%' :: (name ++ expand vars (some []) cs)
      else expand vars (some (name ++ [c])) cs

/-! ## Commands -/

/-- How the next character is read. -/
inductive Mode
  | plain
  /-- Behind a quote that is open. -/
  | quoted
  /-- Behind a caret. -/
  | caret
  /-- Behind the `&` that has ended a command. -/
  | ampersand
deriving DecidableEq

/-- The commands of a line, without the carets. -/
def split : Mode → List Char → List Char → Option (List (List Char))
  | _, command, [] => some [command]
  | .caret, command, c :: cs => split .plain (command ++ [c]) cs
  | .quoted, command, c :: cs => split (if c = '"' then .plain else .quoted) (command ++ [c]) cs
  | mode, command, c :: cs =>
      if c = '&' then
        if mode = .ampersand then split .plain command cs else (split .ampersand [] cs).map (command :: ·)
      else if c = '^' then split .caret command cs
      else if c = '|' ∨ c = '<' ∨ c = '>' then none
      else split (if c = '"' then .quoted else .plain) (command ++ [c]) cs

/-- The commands of a line. -/
def commands (line : List Char) : Option (List (List Char)) := split .plain [] line

/-! ## Assignments -/

/-- What parts the words of a command. -/
def isDelimiter (c : Char) : Bool := c == ' ' || c == '\t' || c == ',' || c == ';' || c == '='

/-- The text up to its last quote, if it has one. -/
def untilQuote (cs : List Char) : List Char := if '"' ∈ cs then (cs.rdropWhile (· ≠ '"')).dropLast else cs

/-- What stands behind `set`, without the quotes around it. -/
def operand (cs : List Char) : List Char :=
  match cs.dropWhile isDelimiter with
  | '"' :: cs => untilQuote cs
  | cs => cs

/-- A variable, by its name in capitals, and its value. -/
def pair (cs : List Char) : Option (List Char × List Char) :=
  let name := cs.takeWhile (· ≠ '=')
  if cs.head? ≠ some '/' ∧ name ≠ [] ∧ '=' ∈ cs then
    some (name.map Char.toUpper, (cs.dropWhile (· ≠ '=')).tail)
  else none

/-- What a command sets, if it is a `set`. -/
def assignment (command : List Char) : Option (List Char × List Char) :=
  match command.dropWhile fun c => isDelimiter c || c == '@' with
  | s :: e :: t :: c :: cs =>
      if [s, e, t].map Char.toLower = ['s', 'e', 't'] ∧ isDelimiter c = true then pair (operand cs) else none
  | _ => none

/-- A variable is set; an empty value deletes it. -/
def assign (vars : Vars) (set : List Char × List Char) : Vars := fun name =>
  if name = set.1 then if set.2 = [] then none else some set.2 else vars name

/-! ## Arguments -/

/-- What parts arguments. -/
def isBlank (c : Char) : Bool := c == ' ' || c == '\t'

/-- The first argument, and what is behind it: quotes hide blanks. -/
def program : Bool → List Char → List Char → List Char × List Char
  | _, word, [] => (word, [])
  | quoted, word, c :: cs =>
      if c = '"' then program (!quoted) word cs
      else if isBlank c && !quoted then (word, cs)
      else program quoted (word ++ [c]) cs

/-- Where an argument is read. -/
inductive Quotes
  | outside
  | inside
  /-- Right behind a quote that was closed; a second one stands for itself. -/
  | closed
deriving DecidableEq

/-- The other arguments: backslashes are special in front of a quote only, so many are pending. -/
def words : Quotes → ℕ → Option (List Char) → List Char → List (List Char)
  | _, slashes, word, [] => (word.map (· ++ List.replicate slashes '\\')).toList
  | quotes, slashes, word, c :: cs =>
      let text := word.getD []
      if c = '\\' then words (if quotes = .inside then .inside else .outside) (slashes + 1) (some text) cs
      else if c = '"' then
        let text := text ++ List.replicate (slashes / 2) '\\'
        if slashes % 2 = 1 then words quotes 0 (some (text ++ ['"'])) cs
        else match quotes with
          | .inside => words .closed 0 (some text) cs
          | .outside => words .inside 0 (some text) cs
          | .closed => words .inside 0 (some (text ++ ['"'])) cs
      else if isBlank c && quotes != .inside then
        (word.map (· ++ List.replicate slashes '\\')).toList ++ words .outside 0 none cs
      else
        words (if quotes = .inside then .inside else .outside) 0
          (some (text ++ List.replicate slashes '\\' ++ [c])) cs

/-- The arguments of a program, its own name first. -/
def arguments (command : List Char) : List (List Char) :=
  (program false [] (command.dropWhile isDelimiter)).1 ::
    words .outside 0 none (program false [] (command.dropWhile isDelimiter)).2

/-! ## A line -/

/-- Assignments, and a program at the end: its arguments and its environment. -/
def run : Vars → List (List Char) → Option (List (List Char) × Vars)
  | _, [] => none
  | vars, [command] => some (arguments command, vars)
  | vars, command :: rest => (assignment command).bind fun set => run (assign vars set) rest

theorem run_cons (vars : Vars) (command next : List Char) (rest : List (List Char)) :
    run vars (command :: next :: rest) =
      (assignment command).bind fun set => run (assign vars set) (next :: rest) := rfl

/-- What a line runs, and in which environment. -/
def read (vars : Vars) (line : List Char) : Option (List (List Char) × Vars) :=
  (commands (expand vars none line)).bind (run vars)

/-! ## Nothing between percent signs stands for anything -/

variable {vars : Vars} {cs : List Char}

/-- In the environment in which nothing stands for anything a text is kept. -/
theorem expand_nothing (name : Option (List Char)) (cs : List Char) :
    expand (fun _ => none) name cs = (name.map ('%' :: ·)).getD [] ++ cs := by
  induction cs generalizing name with
  | nil => cases name <;> simp [expand]
  | cons c cs ih =>
      cases name with
      | none =>
          rw [expand]
          split
          next hc =>
            rw [ih, hc]
            rfl
          next =>
            rw [ih]
            rfl
      | some name =>
          rw [expand]
          split
          next hc =>
            dsimp only
            rw [ih, hc]
            simp
          next =>
            rw [ih]
            simp

/-! ## How long a line is -/

/-- The length of some words, with one for each. -/
def weight (ws : List (List Char)) : ℕ := (ws.map fun w => w.length + 1).sum

@[simp] theorem weight_nil : weight [] = 0 := rfl

@[simp] theorem weight_cons (w : List Char) (ws : List (List Char)) :
    weight (w :: ws) = w.length + 1 + weight ws := List.sum_cons

@[simp] theorem weight_append (ws ws' : List (List Char)) : weight (ws ++ ws') = weight ws + weight ws' := by
  simp [weight]

/-- A character outside of quotes, and not behind a caret. -/
theorem split_cons {mode : Mode} (hmode : mode = .plain ∨ mode = .ampersand) (command : List Char) (c : Char)
    (cs : List Char) : split mode command (c :: cs) = (if c = '&' then
      if mode = .ampersand then split .plain command cs else (split .ampersand [] cs).map (command :: ·)
    else if c = '^' then split .caret command cs
    else if c = '|' ∨ c = '<' ∨ c = '>' then none
    else split (if c = '"' then .quoted else .plain) (command ++ [c]) cs) := by
  rcases hmode with rfl | rfl <;> rfl

theorem weight_split {mode : Mode} {command : List Char} {out : List (List Char)}
    (h : split mode command cs = some out) : weight out ≤ command.length + 1 + cs.length := by
  induction cs generalizing mode command out with
  | nil =>
      obtain rfl : [command] = out := by cases mode <;> exact Option.some.inj h
      simp
  | cons c cs ih =>
      have hkeep {mode : Mode} (h : split mode (command ++ [c]) cs = some out) :
          weight out ≤ command.length + 1 + (cs.length + 1) := by
        have hrest := ih h
        rw [List.length_append, List.length_singleton] at hrest
        omega
      have hlower (hmode : mode = .plain ∨ mode = .ampersand) :
          weight out ≤ command.length + 1 + (cs.length + 1) := by
        rw [split_cons hmode] at h
        split_ifs at h
        · have hrest := ih h
          omega
        · obtain ⟨rest, hrest, rfl⟩ := Option.map_eq_some_iff.mp h
          have hweight := ih hrest
          rw [weight_cons]
          rw [List.length_nil] at hweight
          omega
        · have hrest := ih h
          omega
        · exact hkeep h
        · exact hkeep h
      cases mode with
      | plain => exact hlower (.inl rfl)
      | ampersand => exact hlower (.inr rfl)
      | quoted => exact hkeep h
      | caret => exact hkeep h

theorem length_untilQuote (cs : List Char) : (untilQuote cs).length ≤ cs.length := by
  unfold untilQuote
  split
  · rw [List.length_dropLast]
    exact (Nat.sub_le _ _).trans (List.rdropWhile_prefix _ _).length_le
  · exact le_rfl

theorem length_operand (cs : List Char) : (operand cs).length ≤ cs.length := by
  have hdrop := (List.dropWhile_suffix isDelimiter (l := cs)).length_le
  unfold operand
  split
  next rest heq =>
    rw [heq, List.length_cons] at hdrop
    exact (length_untilQuote rest).trans (Nat.le_of_succ_le hdrop)
  next => exact hdrop

theorem length_pair {set : List Char × List Char} (h : pair cs = some set) :
    set.1.length + set.2.length + 1 ≤ cs.length := by
  unfold pair at h
  dsimp only at h
  split_ifs at h with hcond
  obtain rfl := Option.some.inj h
  have hparts := congrArg List.length (List.takeWhile_append_dropWhile (p := (· ≠ '=')) (l := cs))
  have hne : cs.dropWhile (· ≠ '=') ≠ [] := by
    intro hnil
    have hall := List.dropWhile_eq_nil_iff.mp hnil _ hcond.2.2
    simp at hall
  obtain ⟨d, rest, hrest⟩ := List.exists_cons_of_ne_nil hne
  rw [List.length_append, hrest, List.length_cons] at hparts
  dsimp only
  rw [List.length_map, hrest, List.tail_cons]
  omega

/-- A `set` is longer than what it sets. -/
theorem length_assignment {command : List Char} {set : List Char × List Char}
    (h : assignment command = some set) : set.1.length + set.2.length + 5 ≤ command.length := by
  have hdrop := (List.dropWhile_suffix (fun c => isDelimiter c || c == '@') (l := command)).length_le
  unfold assignment at h
  split at h
  next s e t c cs heq =>
    split_ifs at h
    have hpair := length_pair h
    have hoperand := length_operand cs
    rw [heq] at hdrop
    simp only [List.length_cons] at hdrop
    omega
  next => cases h

theorem length_program (quoted : Bool) (word cs : List Char) :
    (program quoted word cs).1.length + (program quoted word cs).2.length ≤ word.length + cs.length ∧
      ((program quoted word cs).2 ≠ [] →
        (program quoted word cs).1.length + (program quoted word cs).2.length + 1 ≤ word.length + cs.length) := by
  induction cs generalizing quoted word with
  | nil => exact ⟨le_rfl, fun hne => absurd rfl hne⟩
  | cons c cs ih =>
      rw [program]
      split_ifs
      · obtain ⟨hle, hlt⟩ := ih (!quoted) word
        rw [List.length_cons]
        exact ⟨by omega, fun hne => by have := hlt hne; omega⟩
      · dsimp only
        rw [List.length_cons]
        exact ⟨by omega, fun _ => by omega⟩
      · obtain ⟨hle, hlt⟩ := ih quoted (word ++ [c])
        rw [List.length_append, List.length_singleton] at hle hlt
        rw [List.length_cons]
        exact ⟨by omega, fun hne => by have := hlt hne; omega⟩

theorem weight_words (quotes : Quotes) (slashes : ℕ) (word : Option (List Char)) (cs : List Char) :
    weight (words quotes slashes word cs) ≤ (word.getD []).length + slashes + 1 + cs.length := by
  induction cs generalizing quotes slashes word with
  | nil => cases word <;> simp [words]
  | cons c cs ih =>
      have hhalf : slashes / 2 ≤ slashes := Nat.div_le_self _ _
      rw [words, List.length_cons]
      dsimp only
      split
      next =>
        -- a backslash is pending
        refine (ih _ _ _).trans ?_
        rw [Option.getD_some]
        omega
      next =>
        split
        next =>
          have hkept := ih quotes 0 (some (word.getD [] ++ List.replicate (slashes / 2) '\\' ++ ['"']))
          have hopened := ih .inside 0 (some (word.getD [] ++ List.replicate (slashes / 2) '\\' ++ ['"']))
          have hinside := ih .inside 0 (some (word.getD [] ++ List.replicate (slashes / 2) '\\'))
          have hclosed := ih .closed 0 (some (word.getD [] ++ List.replicate (slashes / 2) '\\'))
          simp only [Option.getD_some, List.length_append, List.length_replicate, List.length_singleton]
            at hkept hopened hinside hclosed
          split
          next => omega
          next => cases quotes <;> dsimp only <;> omega
        next =>
          split
          next =>
            have hrest := ih .outside 0 none
            have hword : weight (word.map (· ++ List.replicate slashes '\\')).toList ≤
                (word.getD []).length + slashes + 1 := by
              cases word <;> simp
            rw [weight_append]
            rw [Option.getD_none, List.length_nil] at hrest
            omega
          next =>
            refine (ih _ _ _).trans ?_
            simp only [Option.getD_some, List.length_append, List.length_replicate, List.length_singleton]
            omega

/-- A command is no shorter than its arguments. -/
theorem weight_arguments (command : List Char) : weight (arguments command) ≤ command.length + 1 := by
  have hdrop := (List.dropWhile_suffix isDelimiter (l := command)).length_le
  obtain ⟨hle, hlt⟩ := length_program false [] (command.dropWhile isDelimiter)
  have hwords := weight_words .outside 0 none (program false [] (command.dropWhile isDelimiter)).2
  rw [Option.getD_none, List.length_nil] at hwords
  rw [List.length_nil] at hle hlt
  rw [arguments, weight_cons]
  by_cases hnil : (program false [] (command.dropWhile isDelimiter)).2 = []
  · rw [hnil] at hle ⊢
    rw [List.length_nil] at hle
    change _ + weight [] ≤ _
    rw [weight_nil]
    omega
  · have hmore := hlt hnil
    omega

/-- The length of what is set, with what a `set` takes at least. -/
def setWeight (sets : List (List Char × List Char)) : ℕ :=
  (sets.map fun set => set.1.length + set.2.length + 6).sum

@[simp] theorem setWeight_nil : setWeight [] = 0 := rfl

@[simp] theorem setWeight_cons (set : List Char × List Char) (sets : List (List Char × List Char)) :
    setWeight (set :: sets) = set.1.length + set.2.length + 6 + setWeight sets := List.sum_cons

theorem setWeight_erase {set : List Char × List Char} {sets : List (List Char × List Char)} (h : set ∈ sets) :
    setWeight sets = set.1.length + set.2.length + 6 + setWeight (sets.erase set) := by
  have hperm := ((List.perm_cons_erase h).map fun set => set.1.length + set.2.length + 6).sum_eq
  exact hperm.trans List.sum_cons

/-- What is set in the end, and was not so before, is no longer than the commands, with the arguments of the
program. -/
theorem weight_le_of_run {vars vars' : Vars} {cs argv : List (List Char)} {sets : List (List Char × List Char)}
    (h : run vars cs = some (argv, vars')) (hnodup : sets.Nodup) (hbefore : ∀ set ∈ sets, vars set.1 ≠ some set.2)
    (hset : ∀ set ∈ sets, vars' set.1 = some set.2) : setWeight sets + weight argv ≤ weight cs := by
  induction cs generalizing vars sets with
  | nil => cases h
  | cons command rest ih =>
      cases rest with
      | nil =>
          obtain ⟨rfl, rfl⟩ := Prod.mk.inj (Option.some.inj h)
          have hnil : sets = [] := List.eq_nil_iff_forall_not_mem.mpr fun set hmem => hbefore set hmem (hset set hmem)
          have hweight := weight_arguments command
          rw [hnil, setWeight_nil, weight_cons, weight_nil]
          omega
      | cons next rest =>
          obtain ⟨made, hmade, hrun⟩ := Option.bind_eq_some_iff.mp h
          have hlength := length_assignment hmade
          -- of what is not set before this command, it sets at most one
          have hother : ∀ set ∈ sets, set ≠ made → assign vars made set.1 ≠ some set.2 := by
            intro set hmem hne hassign
            unfold assign at hassign
            split_ifs at hassign with hname
            · exact hne (Prod.ext hname (Option.some.inj hassign).symm)
            · exact hbefore set hmem hassign
          rw [weight_cons]
          by_cases hmem : made ∈ sets
          · have hrest := ih hrun (hnodup.erase made)
              (fun set hset => hother set (List.mem_of_mem_erase hset) (List.Nodup.mem_erase_iff hnodup |>.mp hset).1)
              (fun set hmem => hset set (List.mem_of_mem_erase hmem))
            rw [setWeight_erase hmem]
            omega
          · have hrest := ih hrun hnodup (fun set hset => hother set hset fun heq => hmem (heq ▸ hset)) hset
            omega

/-! ## The first command -/

/-- A character that is read as it is written. -/
def isPlain (c : Char) : Bool :=
  c != '&' && c != '^' && c != '|' && c != '<' && c != '>' && c != '"'

theorem split_plain {w : List Char} (h : ∀ c ∈ w, isPlain c = true) (command cs : List Char) :
    split .plain command (w ++ cs) = split .plain (command ++ w) cs := by
  induction w generalizing command with
  | nil => rw [List.nil_append, List.append_nil]
  | cons c w ih =>
      obtain ⟨hc, hw⟩ := List.forall_mem_cons.mp h
      simp only [isPlain, Bool.and_eq_true, bne_iff_ne, ne_eq] at hc
      obtain ⟨⟨⟨⟨⟨hamp, hcaret⟩, hpipe⟩, hless⟩, hgreater⟩, hquote⟩ := hc
      rw [List.cons_append, split_cons (.inl rfl), if_neg hamp, if_neg hcaret, if_neg (by simp [hpipe, hless, hgreater]),
        if_neg hquote, ih hw, List.append_assoc, List.singleton_append]

end CommandPrompt
