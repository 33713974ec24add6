import Vops.Lib.Documents

/-!
# What a POSIX shell takes from a text

* `tokens` — the words of a text without their quotes, and the operators between them; none where a quote
  or a substitution is left open.
* `Says` — a text is taken as given words and operators exactly when a condition holds of its values.
* `Says.code`, `Says.plains_blank` — text of a template, and words of plain characters.
* `Says.raw_blank`, `raw_line`, `raw_end` — a value that was put between single quotes as it is: it is
  taken as one word exactly when it is `IsRaw`.

An expansion divides the word that it stands in.
-/

namespace Shell

/-- A word, an operator, or a character that begins or names an expansion. -/
inductive Token
  | word (text : List Char)
  | operator (c : Char)
  | expansion (c : Char)
deriving DecidableEq

/-- The word that was begun. -/
def pending (cur : Option (List Char)) : List Token := cur.toList.map .word

/-- What a character adds: tokens that it ends, and the word that goes on behind it. -/
def taken (r : Role) (c : Char) (cur : Option (List Char)) : List Token × Option (List Char) :=
  match r with
  | .literal => ([], some (cur.getD [] ++ [c]))
  | .quote => ([], if c = '\'' ∨ c = '"' then some (cur.getD []) else cur)
  | .dropped => ([], cur)
  | .blank | .comment => (pending cur, none)
  | .operator => (pending cur ++ [.operator c], none)
  | .expansion => (pending cur ++ [.expansion c], none)

/-- The words and the operators of a text. -/
def tokens (st : State) (cur : Option (List Char)) : List Char → Option (List Token)
  | [] => if atTop st then some (pending cur) else none
  | c :: cs =>
      let here := step st c cs.head?
      let next := taken here.1 c cur
      (tokens here.2 next.2 cs).map (next.1 ++ ·)

/-- Some words. -/
def said (ws : List (List Char)) : List Token := ws.map .word

/-- Text of a template, where what it is read as does not depend on what follows it. -/
def through (st : State) (cur : Option (List Char)) :
    List Char → Option (List Token × State × Option (List Char))
  | [] => some ([], st, cur)
  | [c] =>
      let here := step st c none
      let next := taken here.1 c cur
      if steady st c then some (next.1, here.2, next.2) else none
  | c :: d :: cs =>
      let here := step st c (some d)
      let next := taken here.1 c cur
      (through here.2 next.2 (d :: cs)).map fun rest => (next.1 ++ rest.1, rest.2)

theorem tokens_code {st st' : State} {cur cur' : Option (List Char)} {text : List Char} {out : List Token}
    (h : through st cur text = some (out, st', cur')) (rest : List Char) :
    tokens st cur (text ++ rest) = (tokens st' cur' rest).map (out ++ ·) := by
  induction text generalizing st cur out with
  | nil =>
      obtain ⟨rfl, rfl, rfl⟩ : [] = out ∧ st = st' ∧ cur = cur' := by simpa [through] using h
      simp
  | cons c text ih =>
      cases text with
      | nil =>
          simp only [through, Option.ite_none_right_eq_some, Option.some.injEq, Prod.mk.injEq] at h
          obtain ⟨hsteady, rfl, rfl, rfl⟩ := h
          simp only [List.cons_append, List.nil_append, tokens, step_of_steady hsteady rest.head? none]
      | cons d text =>
          obtain ⟨⟨out', behind⟩, hrest, heq⟩ := Option.map_eq_some_iff.mp h
          obtain ⟨rfl, rfl⟩ : _ ∧ behind = (st', cur') := Prod.mk.injEq .. ▸ heq
          have htokens := ih hrest
          rw [List.cons_append] at htokens
          simp only [List.cons_append, tokens, List.head?_cons] at htokens ⊢
          rw [htokens]
          simp [Function.comp_def]

/-! ## Values between single quotes -/

/-- A value that single quotes keep: none of its characters is one, and none is dropped. -/
def IsRaw (value : List Char) : Prop := '\'' ∉ value ∧ '\x00' ∉ value

instance (value : List Char) : Decidable (IsRaw value) :=
  inferInstanceAs (Decidable ('\'' ∉ value ∧ '\x00' ∉ value))

/-- A value between single quotes, as it is. -/
def raw (value : List Char) : List Char := '\'' :: value ++ ['\'']

variable {close : Option Char} {mid : Bool} {below : State} {cur : Option (List Char)} {w value : List Char}

/-- The places where a value between single quotes can stand. -/
def Open (close : Option Char) : Prop := [none, some ')', some '`'].contains close = true

instance (close : Option Char) : Decidable (Open close) := inferInstanceAs (Decidable (_ = true))

theorem Open.ne (h : Open close) {c : Char} (hc : c ≠ ')' ∧ c ≠ '`') : close ≠ some c := by
  rintro rfl
  simp [Open, hc] at h

theorem tokens_open (h : Open close) (rest : List Char) :
    tokens (.script close mid :: below) cur ('\'' :: rest) =
      tokens (.single :: .script close true :: below) (some (cur.getD [])) rest := by
  have hne := h.ne (c := '\'') (by decide)
  simp [tokens, step, stepScript, hne, kind, taken]

theorem tokens_close (rest : List Char) :
    tokens (.single :: below) (some w) ('\'' :: rest) = tokens below (some w) rest := by
  simp [tokens, step, taken]

theorem tokens_single (hquote : '\'' ∉ value) (hnull : '\x00' ∉ value) (rest : List Char) :
    tokens (.single :: below) (some w) (value ++ rest) = tokens (.single :: below) (some (w ++ value)) rest := by
  induction value generalizing w with
  | nil => simp
  | cons c value ih =>
      obtain ⟨hc, hquote⟩ := List.ne_and_not_mem_of_not_mem_cons hquote
      obtain ⟨hc', hnull⟩ := List.ne_and_not_mem_of_not_mem_cons hnull
      have hstep : step (.single :: below) c (value ++ rest).head? = (.literal, .single :: below) := by
        simp [step, hc.symm, hc'.symm]
      rw [List.cons_append, tokens, hstep]
      simp [taken, ih hquote hnull]

/-- A value that single quotes keep is a part of a word. -/
theorem tokens_raw (h : Open close) (hraw : IsRaw value) (rest : List Char) :
    tokens (.script close mid :: below) cur (raw value ++ rest) =
      tokens (.script close true :: below) (some (cur.getD [] ++ value)) rest := by
  rw [raw, List.append_assoc, List.cons_append, tokens_open h, tokens_single hraw.1 hraw.2]
  exact tokens_close rest

/-- A word that needs no quotes. -/
def IsBare (w : List Char) : Prop := w ≠ [] ∧ ∀ c ∈ w, kind c = .plain ∧ c ≠ '\x00'

instance (w : List Char) : Decidable (IsBare w) := inferInstanceAs (Decidable (_ ∧ _))

/-- A plain character outside of quotes is a part of a word. -/
theorem step_plain (h : Open close) {c : Char} (hc : kind c = .plain ∧ c ≠ '\x00') (next : Option Char) :
    step (.script close mid :: below) c next = (.literal, .script close true :: below) := by
  have hclose : close ≠ some c := by
    rintro rfl
    simpa [hc.1] using kind_close h rfl
  simp [step, stepScript, hc, hclose]

theorem tokens_bare (h : Open close) (hw : IsBare w) (rest : List Char) :
    tokens (.script close mid :: below) cur (w ++ rest) =
      tokens (.script close true :: below) (some (cur.getD [] ++ w)) rest := by
  obtain ⟨hne, hplain⟩ := hw
  induction w generalizing mid cur with
  | nil => exact absurd rfl hne
  | cons c w ih =>
      obtain ⟨hc, hrest⟩ := List.forall_mem_cons.mp hplain
      rw [List.cons_append, tokens, step_plain h hc]
      by_cases hnil : w = []
      · subst hnil
        simp [taken]
      · simp [taken, ih hnil hrest]

/-! ## Where a word ends -/

/-- The characters that quote another one, end a line or are dropped. -/
def isMark (c : Char) : Bool := ['\'', '"', '\\', '\n', '\x00'].contains c

theorem kind_mark {c : Char} (h : kind c = .escape ∨ kind c = .single ∨ kind c = .double) : isMark c = true := by
  simp only [kind] at h
  split_ifs at h
  all_goals simp_all [isMark]

theorem kind_blank {c : Char} (h : kind c = .blank) : c = ' ' ∨ c = '\t' := by
  simp only [kind] at h
  split_ifs at h
  all_goals simp_all

theorem kind_hash {c : Char} (h : kind c = .hash) : c = '#' := by
  simp only [kind] at h
  split_ifs at h
  all_goals simp_all

/-- The characters that can be read in a role, where something is open. -/
def mayBe (st : State) (c : Char) : Role → Prop
  | .quote | .dropped => isMark c = true
  | .blank => c = ' ' ∨ c = '\t'
  | .comment => .comment ∈ st ∨ c = '#'
  | .literal => c ≠ '\x00'
  | .operator | .expansion => True

theorem mayBe_dollar {st : State} {c : Char} (hnull : c ≠ '\x00') (below : State) (next : Option Char) :
    mayBe st c (dollar below next).1 := by
  unfold dollar
  cases opened next with
  | none => exact hnull
  | some frame => trivial

theorem mayBe_script {st : State} {c : Char} (hnull : c ≠ '\x00') (close : Option Char) (mid : Bool)
    (below : State) (next : Option Char) : mayBe st c (stepScript close mid below c next).1 := by
  unfold stepScript
  by_cases hclose : close = some c
  · rw [if_pos hclose]
    trivial
  · rw [if_neg hclose]
    cases hkind : kind c with
    | escape => exact kind_mark (.inl hkind)
    | single => exact kind_mark (.inr (.inl hkind))
    | double => exact kind_mark (.inr (.inr hkind))
    | dollar => exact mayBe_dollar hnull _ next
    | blank => exact kind_blank hkind
    | hash =>
        cases mid with
        | true => exact hnull
        | false => exact .inr (kind_hash hkind)
    | plain => exact hnull
    | backquote | operator | opening => trivial

theorem mayBe_double {st : State} {c : Char} (hnull : c ≠ '\x00') (below : State) (next : Option Char) :
    mayBe st c (stepDouble below c next).1 := by
  unfold stepDouble
  cases hkind : kind c with
  | escape =>
      cases hnext : next.any isEscapable with
      | true => exact kind_mark (.inl hkind)
      | false => exact hnull
  | double => exact kind_mark (.inr (.inr hkind))
  | dollar => exact mayBe_dollar hnull _ next
  | backquote => trivial
  | single | blank | operator | opening | hash | plain => exact hnull

theorem mayBe_brace {st : State} {c : Char} (hnull : c ≠ '\x00') (below : State) (next : Option Char) :
    mayBe st c (stepBrace below c next).1 := by
  unfold stepBrace
  by_cases hclose : c = '}'
  · rw [if_pos hclose]
    trivial
  · rw [if_neg hclose]
    cases hkind : kind c with
    | escape => exact kind_mark (.inl hkind)
    | single => exact kind_mark (.inr (.inl hkind))
    | double => exact kind_mark (.inr (.inr hkind))
    | dollar => exact mayBe_dollar hnull _ next
    | backquote | blank | operator | opening | hash | plain => trivial

theorem mayBe_arith {st : State} {c : Char} (hnull : c ≠ '\x00') (depth : ℕ) (below : State)
    (next : Option Char) : mayBe st c (stepArith depth below c next).1 := by
  unfold stepArith
  by_cases hclose : c = ')'
  · rw [if_pos hclose]
    split <;> trivial
  · rw [if_neg hclose]
    cases hkind : kind c with
    | dollar => exact mayBe_dollar hnull _ next
    | backquote | opening => trivial
    | escape | single | double | blank | operator | hash | plain => exact hnull

theorem mayBe_step (st : State) (c : Char) (next : Option Char) : mayBe st c (step st c next).1 := by
  by_cases hnull : c = '\x00'
  · subst hnull
    exact (by decide : isMark '\x00' = true)
  · cases st with
    | nil =>
        simp only [step, if_neg hnull]
        exact hnull
    | cons frame below =>
        cases frame with
        | script close mid => simpa only [step, if_neg hnull] using mayBe_script hnull close mid below next
        | double => simpa only [step, if_neg hnull] using mayBe_double hnull below next
        | brace => simpa only [step, if_neg hnull] using mayBe_brace hnull below next
        | arith depth => simpa only [step, if_neg hnull] using mayBe_arith hnull depth below next
        | single =>
            simp only [step, if_neg hnull]
            split
            · simp_all [mayBe, isMark]
            · exact hnull
        | comment =>
            simp only [step, if_neg hnull]
            split
            · trivial
            · exact .inl List.mem_cons_self
        | escaped =>
            simp only [step, if_neg hnull]
            split
            · simp_all [mayBe, isMark]
            · exact hnull
        | name | param | paren | arithOpen | arithClose =>
            simp only [step, if_neg hnull]
            trivial

theorem not_mem_dollar {st : State} (h : .comment ∉ st) (next : Option Char) : .comment ∉ (dollar st next).2 := by
  unfold dollar opened
  cases next with
  | none => exact h
  | some c =>
      simp only [Option.bind_some]
      split_ifs <;> simpa using h

theorem not_mem_script {close : Option Char} {mid : Bool} {below : State} (h : .comment ∉ below) {c : Char}
    {next : Option Char} (hrole : (stepScript close mid below c next).1 ≠ .comment) :
    .comment ∉ (stepScript close mid below c next).2 := by
  unfold stepScript at hrole ⊢
  by_cases hclose : close = some c
  · rwa [if_pos hclose]
  · rw [if_neg hclose] at hrole ⊢
    cases hkind : kind c with
    | dollar => exact not_mem_dollar (by simpa using h) next
    | hash => cases mid <;> simp_all
    | escape | single | double | backquote | blank | operator | opening | plain => simpa using h

theorem not_mem_quoted {below : State} (h : .comment ∉ below) (c : Char) (next : Option Char) :
    .comment ∉ (stepDouble below c next).2 ∧ .comment ∉ (stepBrace below c next).2 ∧
      ∀ depth, .comment ∉ (stepArith depth below c next).2 := by
  unfold stepDouble stepBrace stepArith
  refine ⟨?_, ?_, fun depth => ?_⟩
  · cases hkind : kind c with
    | dollar => exact not_mem_dollar (by simpa using h) next
    | escape => cases next.any isEscapable <;> simpa using h
    | single | double | backquote | blank | operator | opening | hash | plain => simpa using h
  · split
    · exact h
    · cases hkind : kind c with
      | dollar => exact not_mem_dollar (by simpa using h) next
      | escape | single | double | backquote | blank | operator | opening | hash | plain => simpa using h
  · split
    · split <;> simpa using h
    · cases hkind : kind c with
      | dollar => exact not_mem_dollar (by simpa using h) next
      | escape | single | double | backquote | blank | operator | opening | hash | plain => simpa using h

/-- A comment is opened by nothing but its number sign. -/
theorem not_mem_step {st : State} (h : .comment ∉ st) {c : Char} {next : Option Char}
    (hrole : (step st c next).1 ≠ .comment) : .comment ∉ (step st c next).2 := by
  by_cases hnull : c = '\x00'
  · simpa only [step, if_pos hnull] using h
  · cases st with
    | nil => simp [step, hnull]
    | cons frame below =>
        have hbelow : .comment ∉ below := fun hmem => h (List.mem_cons_of_mem _ hmem)
        have hquoted := not_mem_quoted hbelow c next
        cases frame with
        | script close mid =>
            simp only [step, if_neg hnull] at hrole ⊢
            exact not_mem_script hbelow hrole
        | double => simpa only [step, if_neg hnull] using hquoted.1
        | brace => simpa only [step, if_neg hnull] using hquoted.2.1
        | arith depth => simpa only [step, if_neg hnull] using hquoted.2.2 depth
        | comment => simp at h
        | single | escaped | name | param | paren | arithOpen | arithClose =>
            simp only [step, if_neg hnull]
            first | exact hbelow | simpa using hbelow | (split <;> simpa using hbelow)

/-- The characters of a word that are a part of it. -/
def literals (seg : Reading) : List Char := (seg.filter fun x => x.2 = .literal).map Prod.fst

/-- What follows a word: the end of the text, a character that is dropped, or an operator or an expansion. -/
def Follows (rest : List Char) (more : List Token) : Prop :=
  match rest with
  | [] => more = []
  | c :: _ => c = ' ' ∨ c = '\t' ∨ c = '#' ∨ more.head? = some (.operator c) ∨ more.head? = some (.expansion c)

/-- A character of a word: a part of it, or a character that is no part of any. -/
def InWord (x : Char × Role) : Prop := x.2 = .literal ∧ x.1 ≠ '\x00' ∨ x.2 ≠ .literal ∧ isMark x.1 = true

/-- A text goes on with a word, and what its words and operators are. -/
structure Begins (st : State) (w cs : List Char) (seg : Reading) (rest : List Char) (more ts : List Token) :
    Prop where
  text : cs = seg.map Prod.fst ++ rest
  word : ts = .word (w ++ literals seg) :: more
  inWord : ∀ x ∈ seg, InWord x
  head : ∀ x ∈ seg.head?, x.2 = (step st x.1 cs.tail.head?).1
  follows : Follows rest more

/-- A word goes on up to a character that ends it. -/
theorem begins_of_tokens {st : State} (hst : .comment ∉ st) {w cs : List Char} {ts : List Token}
    (h : tokens st (some w) cs = some ts) : ∃ seg rest more, Begins st w cs seg rest more ts := by
  induction cs generalizing st w ts with
  | nil =>
      obtain ⟨-, rfl⟩ : atTop st = true ∧ pending (some w) = ts := by simpa [tokens] using h
      exact ⟨[], [], [], rfl, by simp [pending, literals], by simp, by simp, rfl⟩
  | cons c cs ih =>
      have hmay := mayBe_step st c cs.head?
      have hmem (hrole : (step st c cs.head?).1 ≠ .comment) := not_mem_step hst hrole
      obtain ⟨behind, hbehind, rfl⟩ := Option.map_eq_some_iff.mp h
      have hrole : (step st c cs.head?).1 = (step st c (c :: cs).tail.head?).1 := rfl
      generalize step st c cs.head? = here at hmay hmem hbehind hrole ⊢
      obtain ⟨role, st'⟩ := here
      have hgoes (hnext : taken role c (some w) = ([], some (w ++ literals [(c, role)]))) (hin : InWord (c, role))
          (hne : role ≠ .comment) :
          ∃ seg rest more, Begins st w (c :: cs) seg rest more ((taken role c (some w)).1 ++ behind) := by
        rw [hnext] at hbehind
        obtain ⟨seg, rest, more, hcs, hts, hseg, -, hfollows⟩ := ih (hmem hne) hbehind
        refine ⟨(c, role) :: seg, rest, more, by simp [hcs], ?_, List.forall_mem_cons.mpr ⟨hin, hseg⟩,
          by simpa using hrole, hfollows⟩
        rw [hnext, List.nil_append, hts, List.append_assoc]
        simp only [literals, ← List.map_append, ← List.filter_append, List.singleton_append]
      have hends {out : List Token} (hout : (taken role c (some w)).1 = .word w :: out)
          (hfollows : Follows (c :: cs) (out ++ behind)) :
          ∃ seg rest more, Begins st w (c :: cs) seg rest more ((taken role c (some w)).1 ++ behind) :=
        ⟨[], c :: cs, out ++ behind, rfl, by simp [hout, literals], by simp, by simp, hfollows⟩
      cases role with
      | literal => exact hgoes rfl (.inl ⟨rfl, hmay⟩) (by simp)
      | quote => exact hgoes (by simp [taken, literals]) (.inr ⟨by simp, hmay⟩) (by simp)
      | dropped => exact hgoes (by simp [taken, literals]) (.inr ⟨by simp, hmay⟩) (by simp)
      | blank => exact hends rfl (hmay.elim .inl fun h => .inr (.inl h))
      | comment => exact hends rfl (.inr (.inr (.inl (hmay.resolve_left hst))))
      | operator => exact hends rfl (by simp [Follows])
      | expansion => exact hends rfl (by simp [Follows])

theorem count_literals {seg : Reading} (hseg : ∀ x ∈ seg, InWord x) {d : Char} (hd : isMark d = false) :
    (literals seg).count d = (seg.map Prod.fst).count d := by
  induction seg with
  | nil => rfl
  | cons x seg ih =>
      obtain ⟨hx, hrest⟩ := List.forall_mem_cons.mp hseg
      have hih := ih hrest
      rcases hx with ⟨hliteral, -⟩ | ⟨hother, hmark⟩
      · simp_all [literals, List.count_cons]
      · have hne : x.1 ≠ d := by
          rintro rfl
          simp [hmark] at hd
        simp_all [literals]

/-- What can stand behind a quoted value of a template: a blank, a line break, or the end. -/
def Divides (post : List Char) (more : List Token) : Prop :=
  match post with
  | [] => True
  | c :: rest => c = ' ' ∨ c = '\n' ∧ more.head? = some (.operator '\n') ∧
      ∀ d ∈ rest.head?, d ∉ [' ', '\t', '#'] ∧ isMark d = false

/-- A quote inside of a value ends what the quote before the value opened, and then some character of the
text is no part of the word: the word cannot be the value. -/
theorem not_word_of_quote (hopen : Open close) (hbelow : .comment ∉ below) {y post : List Char}
    {more ts : List Token} (hpost : Divides post more)
    (h : tokens (.script close true :: below) (some w) (y ++ '\'' :: post) = some ts) :
    ts ≠ .word (w ++ '\'' :: y) :: more := by
  intro hts
  obtain ⟨seg, rest, more', hbegins⟩ := begins_of_tokens (by simpa using hbelow) h
  obtain ⟨hword, rfl⟩ : '\'' :: y = literals seg ∧ more = more' := by
    simpa using hts.symm.trans hbegins.word
  -- the quote at the beginning of the rest is not a part of the word, so that the word reaches behind the value
  have hlong : y.length + 2 ≤ seg.length := by
    match seg, hbegins, hword with
    | x :: seg, hbegins, hword =>
        have hrole := hbegins.head x rfl
        have hne : x.2 ≠ .literal := by
          intro hliteral
          have hquote : '\'' = x.1 := by
            simp only [literals, hliteral, decide_true, List.filter_cons_of_pos, List.map_cons] at hword
            exact (List.cons.inj hword).1
          rw [hliteral, ← hquote] at hrole
          simp [step, stepScript, hopen.ne (c := '\'') (by decide), kind] at hrole
        have hlen : (literals (x :: seg)).length ≤ seg.length := by
          simpa [literals, hne] using List.length_filter_le _ seg
        rw [← hword] at hlen
        simpa using hlen
  obtain ⟨p, hp, hpost'⟩ : ∃ p, seg.map Prod.fst = y ++ '\'' :: p ∧ post = p ++ rest := by
    have htext := hbegins.text
    rcases List.append_eq_append_iff.mp htext with ⟨u, hu, hrest⟩ | ⟨u, hu, hrest⟩
    · cases u with
      | nil =>
          have hlen := congrArg List.length hu
          simp at hlen
          omega
      | cons c u =>
          obtain ⟨rfl, hbehind⟩ : '\'' = c ∧ post = u ++ rest := by simpa using hrest
          exact ⟨u, hu, hbehind⟩
    · have hlen := congrArg List.length hu
      simp at hlen
      omega
  have hcount {d : Char} (hd : isMark d = false) : y.count d = (y ++ '\'' :: p).count d := by
    have hne : d ≠ '\'' := by
      rintro rfl
      simp [isMark] at hd
    rw [← hp, ← count_literals hbegins.inWord hd, ← hword, List.count_cons_of_ne hne.symm]
  have hnot {d : Char} (hd : isMark d = false) (hmem : d ∈ p) : False := by
    have hle := hcount hd
    rw [List.count_append, List.count_cons] at hle
    have hpos := List.count_pos_iff.mpr hmem
    omega
  cases p with
  | nil =>
      have hlen := congrArg List.length hp
      simp at hlen
      omega
  | cons c p =>
      subst hpost'
      rcases hpost with rfl | ⟨rfl, hmore, hd⟩
      · exact hnot (d := ' ') (by decide) List.mem_cons_self
      · cases p with
        | cons d p => exact hnot (hd d rfl).2 (by simp)
        | nil =>
            have hfollows := hbegins.follows
            cases rest with
            | nil => simp [show more = [] from hfollows] at hmore
            | cons d rest =>
                obtain ⟨hd, hmark⟩ := hd d rfl
                rcases hfollows with rfl | rfl | rfl | hop | hexp
                · simp at hd
                · simp at hd
                · simp at hd
                · obtain rfl : '\n' = d := by simpa using hmore.symm.trans hop
                  simp [isMark] at hmark
                · simpa using hmore.symm.trans hexp

/-- A value with a quote or a null character in it is not the word that its quotes begin. -/
theorem isRaw_of_tokens (hopen : Open close) (hbelow : .comment ∉ below) {post : List Char} {more : List Token}
    (hpost : Divides post more)
    (h : tokens (.script close mid :: below) cur (raw value ++ post) =
      some (.word (cur.getD [] ++ value) :: more)) : IsRaw value := by
  rw [raw, List.append_assoc, List.cons_append, tokens_open hopen] at h
  have hnull : '\x00' ∉ value := by
    obtain ⟨seg, rest, more', hbegins⟩ := begins_of_tokens (by simpa using hbelow) h
    obtain ⟨hword, -⟩ : value = literals seg ∧ more = more' := by simpa using hbegins.word
    intro hmem
    rw [hword] at hmem
    obtain ⟨x, hx, hnull⟩ := List.mem_map.mp hmem
    obtain ⟨hx, hliteral⟩ := List.mem_filter.mp hx
    rcases hbegins.inWord x hx with ⟨-, hne⟩ | ⟨hne, -⟩
    · exact hne hnull
    · exact hne (by simpa using hliteral)
  refine ⟨fun hquote => ?_, hnull⟩
  obtain ⟨x, y, rfl, hx⟩ := List.eq_append_cons_of_mem hquote
  rw [List.append_assoc, tokens_single hx fun hmem => hnull (List.mem_append_left _ hmem), List.cons_append,
    tokens_close] at h
  refine not_word_of_quote hopen hbelow hpost (w := cur.getD [] ++ x) (y := y) ?_ rfl
  simpa using h

/-! ## Rules -/

/-- A text is taken as the given words and operators exactly when a condition holds. -/
def Says (st : State) (cur : Option (List Char)) (text : List Char) (ts : List Token) (C : Prop) : Prop :=
  tokens st cur text = some ts ↔ C

namespace Says

variable {st st' : State} {cur' : Option (List Char)} {text rest : List Char} {out ts : List Token} {C D : Prop}

theorem congr (h : Says st cur text ts C) (hCD : C ↔ D) : Says st cur text ts D := h.trans hCD

/-- Text of a template. -/
theorem code (hcode : through st cur text = some (out, st', cur')) (h : Says st' cur' rest ts C) :
    Says st cur (text ++ rest) (out ++ ts) C := by
  rw [Says, tokens_code hcode, ← h.eq, Option.map_eq_some_iff]
  simp

/-- A value between single quotes, with the text behind it. -/
theorem raw_divides (hopen : Open close) (hbelow : .comment ∉ below) {more : List Token}
    (hpost : Divides text more)
    (h : Says (.script close true :: below) (some (cur.getD [] ++ value)) text
      (.word (cur.getD [] ++ value) :: more) C) :
    Says (.script close mid :: below) cur (raw value ++ text) (.word (cur.getD [] ++ value) :: more)
      (IsRaw value ∧ C) := by
  constructor
  · intro htokens
    have hraw := isRaw_of_tokens hopen hbelow hpost htokens
    rw [tokens_raw hopen hraw] at htokens
    exact ⟨hraw, h.mp htokens⟩
  · rintro ⟨hraw, hC⟩
    rw [tokens_raw hopen hraw]
    exact h.mpr hC

/-- A value between single quotes in front of a blank. -/
theorem raw_blank (hopen : Open close) (hbelow : .comment ∉ below)
    (h : Says (.script close false :: below) none rest ts C) :
    Says (.script close mid :: below) cur (raw value ++ ' ' :: rest) (.word (cur.getD [] ++ value) :: ts)
      (IsRaw value ∧ C) := by
  refine raw_divides hopen hbelow (.inl rfl) ?_
  have hne := hopen.ne (c := ' ') (by decide)
  rw [Says, ← h.eq]
  simp [tokens, step, stepScript, hne, kind, taken, pending]

/-- A value between single quotes at the end of a line. -/
theorem raw_line (hopen : Open close) (hbelow : .comment ∉ below)
    (hrest : ∀ d ∈ rest.head?, d ∉ [' ', '\t', '#'] ∧ isMark d = false)
    (h : Says (.script close false :: below) none rest ts C) :
    Says (.script close mid :: below) cur (raw value ++ '\n' :: rest)
      (.word (cur.getD [] ++ value) :: .operator '\n' :: ts) (IsRaw value ∧ C) := by
  refine raw_divides hopen hbelow (.inr ⟨rfl, rfl, hrest⟩) ?_
  have hne := hopen.ne (c := '\n') (by decide)
  rw [Says, ← h.eq]
  simp [tokens, step, stepScript, hne, kind, taken, pending]

/-- A value between single quotes at the end of the text. -/
theorem raw_end : Says [.script none mid] cur (raw value) [.word (cur.getD [] ++ value)] (IsRaw value) := by
  have h : Says [.script none mid] cur (raw value ++ []) [.word (cur.getD [] ++ value)] (IsRaw value ∧ True) :=
    raw_divides (by decide) (by simp) trivial (by simp [Says, tokens, atTop, pending])
  simpa using h

/-- A word that is a value between single quotes. -/
theorem raw_word (h : Says top none rest ts C) :
    Says top none (raw value ++ ' ' :: rest) (.word value :: ts) (IsRaw value ∧ C) :=
  raw_blank (by decide) (by simp) h

theorem raw_word_end : Says top none (raw value) [.word value] (IsRaw value) := raw_end

/-- Values between single quotes with blanks between them, in front of a blank. -/
theorem raws_blank {values : List (List Char)} (h : Says top none rest ts C) :
    Says top none ([' '].intercalate (values.map raw) ++ ' ' :: rest) (said values ++ ts)
      ((∀ value ∈ values, IsRaw value) ∧ C) := by
  induction values with
  | nil =>
      have hblank : Says top none ([' '] ++ rest) ([] ++ ts) C := h.code rfl
      simpa [said] using hblank
  | cons value values ih =>
      rw [List.forall_mem_cons, and_assoc]
      cases values with
      | nil => simpa [said] using raw_word h
      | cons value' values =>
          simpa [said, List.intercalate] using raw_word ih

/-- Values between single quotes with blanks between them, at the end of the text. -/
theorem raws_end {values : List (List Char)} :
    Says top none ([' '].intercalate (values.map raw)) (said values) (∀ value ∈ values, IsRaw value) := by
  induction values with
  | nil => simp [Says, tokens, top, atTop, pending, said]
  | cons value values ih =>
      rw [List.forall_mem_cons]
      cases values with
      | nil => simpa [said] using raw_word_end
      | cons value' values =>
          simpa [said, List.intercalate] using raw_word ih

/-- Words of plain characters with blanks between them, in front of a blank. -/
theorem plains_blank {ws : List (List Char)} (hws : ∀ w ∈ ws, IsBare w) (h : Says top none rest ts C) :
    Says top none ([' '].intercalate ws ++ ' ' :: rest) (said ws ++ ts) C := by
  induction ws with
  | nil =>
      have hblank : Says top none ([' '] ++ rest) ([] ++ ts) C := h.code rfl
      simpa [said] using hblank
  | cons w ws ih =>
      obtain ⟨hw, hrest⟩ := List.forall_mem_cons.mp hws
      have hblank {text : List Char} {ts : List Token} (h : Says top none text ts C) :
          Says top none (w ++ ' ' :: text) (.word w :: ts) C := by
        rw [Says, top, tokens_bare (by decide) hw]
        have hcode : Says [.script none true] (some w) ([' '] ++ text) ([.word w] ++ ts) C := h.code rfl
        exact hcode
      cases ws with
      | nil => simpa [said] using hblank h
      | cons w' ws => simpa [said, List.intercalate] using hblank (ih hrest)

end Says

end Shell
