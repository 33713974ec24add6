import Vops.Lib.Cidr

/-!
# nftables rulesets: their text and what they decide

The part of the language of `nft -f` that a filter for inbound connections needs.

* `lines`, `lex`, `items` — a file is a list of lines, a line a list of words, quoted texts,
  punctuation and sets between braces.
* `readLine`, `Loading.step`, `load` — declaring, deleting and filling tables; a file is applied to
  the ruleset of the host as one transaction, and a file that is not understood is refused.
* `Condition`, `Rule`, `Chain` — a rule decides a packet when its conditions all hold; in a chain
  the first such rule decides, and the policy of the chain when there is none.
* `Ruleset.verdict` — what a chain of a table decides about a packet.

Numbers of ports are read as they are written; `nft` refuses those above 65535, which no packet
carries.
-/

namespace Nft

open Ip

/-! ## Packets, rules and chains -/

/-- The state that connection tracking gives a packet. -/
inductive CtState
  | new | established | related | invalid | untracked
deriving DecidableEq

/-- The protocol above IP. -/
inductive L4Proto
  | tcp | udp | icmp | icmpv6 | other
deriving DecidableEq

/-- What a rule can see of a packet: the interfaces it comes from and leaves by, its connection, its
source, its protocol and, of a segment or a datagram, the port it goes to. -/
structure Packet where
  iif : List Char
  oif : List Char
  state : CtState
  source : Address
  protocol : L4Proto
  dport : BitVec 16

/-- Ports from a first to a last one. -/
structure PortRange where
  first : ℕ
  last : ℕ
deriving DecidableEq

/-- The port lies in the range. -/
def PortRange.contains (r : PortRange) (port : ℕ) : Bool := r.first ≤ port && port ≤ r.last

inductive Condition
  | ctState (states : List CtState)
  | iif (name : List Char)
  | oif (name : List Char)
  | ipProtocol (protocol : L4Proto)
  | l4proto (protocol : L4Proto)
  | saddr4 (blocks : List (Block 32))
  | saddr6 (blocks : List (Block 128))
  | dport (protocol : L4Proto) (ports : List PortRange)

inductive Verdict
  | accept | drop
deriving DecidableEq

/-- A condition on a header holds of packets that have this header only: `ip` stands for IPv4. -/
def Condition.holds (p : Packet) : Condition → Bool
  | ctState states => states.contains p.state
  | iif name => p.iif == name
  | oif name => p.oif == name
  | ipProtocol protocol => match p.source with
      | .v4 _ => p.protocol == protocol
      | .v6 _ => false
  | l4proto protocol => p.protocol == protocol
  | saddr4 blocks => match p.source with
      | .v4 address => blocks.any (·.contains address)
      | .v6 _ => false
  | saddr6 blocks => match p.source with
      | .v4 _ => false
      | .v6 address => blocks.any (·.contains address)
  | dport protocol ports => p.protocol == protocol && ports.any (·.contains p.dport.toNat)

structure Rule where
  conditions : List Condition
  verdict : Verdict

/-- The rule with one more condition in front. -/
def Rule.when (c : Condition) (r : Rule) : Rule := { r with conditions := c :: r.conditions }

/-- All conditions of the rule hold. -/
def Rule.holds (r : Rule) (p : Packet) : Bool := r.conditions.all (Condition.holds p)

structure Chain where
  name : List Char
  policy : Verdict
  rules : List Rule

/-- The first rule that holds decides, otherwise the policy. -/
def Chain.verdict (c : Chain) (p : Packet) : Verdict :=
  match c.rules.find? (·.holds p) with
  | some r => r.verdict
  | none => c.policy

structure Table where
  family : List Char
  name : List Char
  chains : List Chain

/-- Whether the table has this family and name. -/
def Table.named (family name : List Char) (t : Table) : Bool := t.family == family && t.name == name

/-- The tables of a host. -/
abbrev Ruleset := List Table

/-- What a chain of a table decides; `none` when there is no such chain. -/
def Ruleset.verdict (tables : Ruleset) (family table chain : List Char) (p : Packet) :
    Option Verdict := do
  let t ← tables.find? (Table.named family table)
  let c ← t.chains.find? fun c => c.name == chain
  pure (c.verdict p)

/-! ## The text of a file -/

/-- The lines of a text. -/
def lines : List Char → List (List Char)
  | [] => [[]]
  | c :: cs =>
      if c = '\n' then [] :: lines cs
      else match lines cs with
        | line :: rest => (c :: line) :: rest
        | [] => [[c]]

inductive Token
  | word (w : List Char)
  | quoted (text : List Char)
  | open
  | close
  | comma
  | semicolon
deriving DecidableEq

def isBlank (c : Char) : Bool := c == ' ' || c == '\t'

/-- The punctuation that separates words by itself. -/
def punctuation (c : Char) : Option Token :=
  if c = '\x7b' then some .open
  else if c = '\x7d' then some .close
  else if c = ',' then some .comma
  else if c = ';' then some .semicolon
  else none

/-- A character that words are made of. -/
def isWordChar (c : Char) : Bool :=
  !isBlank c && (punctuation c).isNone && c != '"' && c != '#' && c != '\n'

/-- The word read so far, when there is one. -/
def word (w : List Char) : List Token := if w = [] then [] else [.word w]

/-- Inside a word or between words, with the word read so far; or inside a quoted text. -/
inductive LexState
  | bare (w : List Char)
  | quoted (text : List Char)

/-- The tokens of the rest of a line; a `#` hides what follows it. -/
def lexFrom : LexState → List Char → Option (List Token)
  | .bare w, [] => some (word w)
  | .quoted _, [] => none
  | .quoted text, c :: cs =>
      if c = '"' then (lexFrom (.bare []) cs).map (.quoted text :: ·)
      else lexFrom (.quoted (text ++ [c])) cs
  | .bare w, c :: cs =>
      if isBlank c then (lexFrom (.bare []) cs).map (word w ++ ·)
      else match punctuation c with
        | some t => (lexFrom (.bare []) cs).map (word w ++ t :: ·)
        | none =>
            if c = '"' then (lexFrom (.quoted []) cs).map (word w ++ ·)
            else if c = '#' then some (word w)
            else lexFrom (.bare (w ++ [c])) cs

/-- The tokens of a line. -/
def lex (cs : List Char) : Option (List Token) := lexFrom (.bare []) cs

/-- An operand or a keyword: sets between braces are put together. -/
inductive Item
  | word (w : List Char)
  | quoted (text : List Char)
  | comma
  | semicolon
  | set (elements : List (List Char))
deriving DecidableEq

/-- Outside a set, before an element of one or behind an element. -/
inductive SetState
  | outside
  | element (read : List (List Char))
  | separator (read : List (List Char))

/-- The items of a line. -/
def itemsFrom : SetState → List Token → Option (List Item)
  | .outside, [] => some []
  | .outside, .word w :: ts => (itemsFrom .outside ts).map (.word w :: ·)
  | .outside, .quoted text :: ts => (itemsFrom .outside ts).map (.quoted text :: ·)
  | .outside, .comma :: ts => (itemsFrom .outside ts).map (.comma :: ·)
  | .outside, .semicolon :: ts => (itemsFrom .outside ts).map (.semicolon :: ·)
  | .outside, .open :: ts => itemsFrom (.element []) ts
  | .element read, .word w :: ts => itemsFrom (.separator (read ++ [w])) ts
  | .separator read, .comma :: ts => itemsFrom (.element read) ts
  | .separator read, .close :: ts => (itemsFrom .outside ts).map (.set read :: ·)
  | _, _ => none

/-! ## Keywords -/

namespace Item

@[match_pattern] abbrev accept : Item := .word ['a', 'c', 'c', 'e', 'p', 't']
@[match_pattern] abbrev comment : Item := .word ['c', 'o', 'm', 'm', 'e', 'n', 't']
@[match_pattern] abbrev ct : Item := .word ['c', 't']
@[match_pattern] abbrev delete : Item := .word ['d', 'e', 'l', 'e', 't', 'e']
@[match_pattern] abbrev dport : Item := .word ['d', 'p', 'o', 'r', 't']
@[match_pattern] abbrev drop : Item := .word ['d', 'r', 'o', 'p']
@[match_pattern] abbrev filter : Item := .word ['f', 'i', 'l', 't', 'e', 'r']
@[match_pattern] abbrev hook : Item := .word ['h', 'o', 'o', 'k']
@[match_pattern] abbrev icmp : Item := .word ['i', 'c', 'm', 'p']
@[match_pattern] abbrev icmpv6 : Item := .word ['i', 'c', 'm', 'p', 'v', '6']
@[match_pattern] abbrev iif : Item := .word ['i', 'i', 'f']
@[match_pattern] abbrev ip : Item := .word ['i', 'p']
@[match_pattern] abbrev ip6 : Item := .word ['i', 'p', '6']
@[match_pattern] abbrev l4proto : Item := .word ['l', '4', 'p', 'r', 'o', 't', 'o']
@[match_pattern] abbrev metaKey : Item := .word ['m', 'e', 't', 'a']
@[match_pattern] abbrev oif : Item := .word ['o', 'i', 'f']
@[match_pattern] abbrev policy : Item := .word ['p', 'o', 'l', 'i', 'c', 'y']
@[match_pattern] abbrev priority : Item := .word ['p', 'r', 'i', 'o', 'r', 'i', 't', 'y']
@[match_pattern] abbrev protocol : Item := .word ['p', 'r', 'o', 't', 'o', 'c', 'o', 'l']
@[match_pattern] abbrev saddr : Item := .word ['s', 'a', 'd', 'd', 'r']
@[match_pattern] abbrev state : Item := .word ['s', 't', 'a', 't', 'e']
@[match_pattern] abbrev table : Item := .word ['t', 'a', 'b', 'l', 'e']
@[match_pattern] abbrev tcp : Item := .word ['t', 'c', 'p']
@[match_pattern] abbrev type : Item := .word ['t', 'y', 'p', 'e']
@[match_pattern] abbrev udp : Item := .word ['u', 'd', 'p']

end Item

@[match_pattern] abbrev Token.chain : Token := .word ['c', 'h', 'a', 'i', 'n']
@[match_pattern] abbrev Token.table : Token := .word ['t', 'a', 'b', 'l', 'e']

/-! ## Rules -/

/-- A decimal number. -/
def readNat (cs : List Char) : Option ℕ := readDigits 10 cs

/-- A port or `first-last`. -/
def readPorts (cs : List Char) : Option PortRange :=
  match cs.splitOn '-' with
  | [port] => (readNat port).map fun n => ⟨n, n⟩
  | [first, last] => do
      let first ← readNat first
      let last ← readNat last
      pure ⟨first, last⟩
  | _ => none

def readState : List Char → Option CtState
  | ['n', 'e', 'w'] => some .new
  | ['e', 's', 't', 'a', 'b', 'l', 'i', 's', 'h', 'e', 'd'] => some .established
  | ['r', 'e', 'l', 'a', 't', 'e', 'd'] => some .related
  | ['i', 'n', 'v', 'a', 'l', 'i', 'd'] => some .invalid
  | ['u', 'n', 't', 'r', 'a', 'c', 'k', 'e', 'd'] => some .untracked
  | _ => none

/-- One value or the elements of a set. -/
def Item.operands : Item → Option (List (List Char))
  | .word w => some [w]
  | .set elements => some elements
  | _ => none

/-- Reads every operand of an item. -/
def Item.readAll {α : Type} (read : List Char → Option α) (i : Item) : Option (List α) := do
  let ws ← i.operands
  ws.mapM read

/-- The conditions of a rule, its verdict and a comment. -/
def readRule : List Item → Option Rule
  | [.accept] => some ⟨[], .accept⟩
  | [.accept, .comment, .quoted _] => some ⟨[], .accept⟩
  | [.drop] => some ⟨[], .drop⟩
  | [.drop, .comment, .quoted _] => some ⟨[], .drop⟩
  | .ct :: .state :: .word s :: .comma :: .word t :: rest => do
      let s ← readState s
      let t ← readState t
      let r ← readRule rest
      pure (r.when (.ctState [s, t]))
  | .ct :: .state :: i :: rest => do
      let states ← i.readAll readState
      let r ← readRule rest
      pure (r.when (.ctState states))
  | .iif :: .quoted name :: rest => do
      let r ← readRule rest
      pure (r.when (.iif name))
  | .oif :: .quoted name :: rest => do
      let r ← readRule rest
      pure (r.when (.oif name))
  | .ip :: .protocol :: .icmp :: rest => do
      let r ← readRule rest
      pure (r.when (.ipProtocol .icmp))
  | .metaKey :: .l4proto :: .icmpv6 :: rest => do
      let r ← readRule rest
      pure (r.when (.l4proto .icmpv6))
  | .ip :: .saddr :: i :: rest => do
      let blocks ← i.readAll readCidr4
      let r ← readRule rest
      pure (r.when (.saddr4 blocks))
  | .ip6 :: .saddr :: i :: rest => do
      let blocks ← i.readAll readCidr6
      let r ← readRule rest
      pure (r.when (.saddr6 blocks))
  | .tcp :: .dport :: i :: rest => do
      let ports ← i.readAll readPorts
      let r ← readRule rest
      pure (r.when (.dport .tcp ports))
  | .udp :: .dport :: i :: rest => do
      let ports ← i.readAll readPorts
      let r ← readRule rest
      pure (r.when (.dport .udp ports))
  | _ => none

/-! ## Files -/

inductive Line
  | blank
  | declareTable (family name : List Char)
  | deleteTable (family name : List Char)
  | openTable (family name : List Char)
  | openChain (name : List Char)
  | base (policy : Verdict)
  | rule (r : Rule)
  | close

/-- A line that is complete: a command, a base specification or a rule. -/
def readItems : List Item → Option Line
  | [] => some .blank
  | [.table, .word family, .word name] => some (.declareTable family name)
  | [.delete, .table, .word family, .word name] => some (.deleteTable family name)
  | [.type, .filter, .hook, .word _, .priority, .word _, .semicolon, .policy, .accept, .semicolon] =>
      some (.base .accept)
  | [.type, .filter, .hook, .word _, .priority, .word _, .semicolon, .policy, .drop, .semicolon] =>
      some (.base .drop)
  | is => (readRule is).map .rule

/-- A line that opens or closes a block. -/
def readBrace : List Token → Option Line
  | [.close] => some .close
  | [.table, .word family, .word name, .open] => some (.openTable family name)
  | [.chain, .word name, .open] => some (.openChain name)
  | _ => none

/-- A line; one with a brace that has no partner is the edge of a block. -/
def readLine (cs : List Char) : Option Line := do
  let ts ← lex cs
  match itemsFrom .outside ts with
  | some is => readItems is
  | none => readBrace ts

/-- The ruleset while a file is read, with the table that is open and the chain open in it. -/
structure Loading where
  tables : Ruleset
  block : Option (Table × Option Chain)

/-- Declaring a table that is there changes nothing. -/
def Ruleset.declare (tables : Ruleset) (family name : List Char) : Ruleset :=
  if tables.any (Table.named family name) then tables else tables ++ [⟨family, name, []⟩]

/-- The table of this name, as far as it is filled. -/
def Ruleset.table (tables : Ruleset) (family name : List Char) : Table :=
  (tables.find? (Table.named family name)).getD ⟨family, name, []⟩

/-- The other tables. -/
def Ruleset.without (tables : Ruleset) (family name : List Char) : Ruleset :=
  tables.filter fun t => !t.named family name

/-- Deleting takes a table away; it has to be there. -/
def Ruleset.delete (tables : Ruleset) (family name : List Char) : Option Ruleset :=
  if tables.any (Table.named family name) then
    some (tables.without family name)
  else none

/-- The chain of this name, as far as it is filled. -/
def Table.chain (t : Table) (name : List Char) : Chain :=
  (t.chains.find? (·.name == name)).getD ⟨name, .accept, []⟩

/-- The table without the chain of this name. -/
def Table.without (t : Table) (name : List Char) : Table :=
  { t with chains := t.chains.filter (·.name != name) }

/-- The table with one more chain. -/
def Table.push (t : Table) (c : Chain) : Table := { t with chains := t.chains ++ [c] }

/-- One line of a file. A block continues the table or the chain of its name. -/
def Loading.step (l : Loading) : Line → Option Loading
  | .blank => some l
  | .declareTable family name => match l.block with
      | none => some { l with tables := l.tables.declare family name }
      | some _ => none
  | .deleteTable family name => match l.block with
      | none => (l.tables.delete family name).map fun tables => { l with tables := tables }
      | some _ => none
  | .openTable family name => match l.block with
      | none => some ⟨l.tables.without family name, some (l.tables.table family name, none)⟩
      | some _ => none
  | .openChain name => match l.block with
      | some (t, none) => some ⟨l.tables, some (t.without name, some (t.chain name))⟩
      | _ => none
  | .base policy => match l.block with
      | some (t, some c) => some ⟨l.tables, some (t, some { c with policy := policy })⟩
      | _ => none
  | .rule r => match l.block with
      | some (t, some c) => some ⟨l.tables, some (t, some { c with rules := c.rules ++ [r] })⟩
      | _ => none
  | .close => match l.block with
      | some (t, some c) => some ⟨l.tables, some (t.push c, none)⟩
      | some (t, none) => some ⟨l.tables ++ [t], none⟩
      | none => none

/-- The lines of a file, one after the other. -/
def Loading.run (l : Loading) : List (List Char) → Option Loading
  | [] => some l
  | line :: rest => do
      let parsed ← readLine line
      let l ← l.step parsed
      l.run rest

/-- `nft -f`: the ruleset of the host after the file, when the file is accepted. -/
def load (tables : Ruleset) (text : List Char) : Option Ruleset := do
  let l ← Loading.run ⟨tables, none⟩ (lines text)
  match l.block with
  | none => pure l.tables
  | some _ => none

/-! ## Lines and words of composed texts -/

theorem lines_of_notMem {cs : List Char} (h : '\n' ∉ cs) : lines cs = [cs] := by
  induction cs with
  | nil => rfl
  | cons c cs ih =>
      obtain ⟨hc, hcs⟩ := List.ne_and_not_mem_of_not_mem_cons h
      simp [lines, Ne.symm hc, ih hcs]

theorem lines_append (cs rest : List Char) :
    lines (cs ++ '\n' :: rest) = lines cs ++ lines rest := by
  have hne : ∀ cs, lines cs ≠ [] := by
    intro cs
    cases cs with
    | nil => simp [lines]
    | cons c cs =>
        unfold lines
        split
        · simp
        · split <;> simp
  induction cs with
  | nil => simp [lines]
  | cons c cs ih =>
      simp only [List.cons_append, lines]
      split
      · simp [ih]
      · obtain ⟨l, ls, hl⟩ := List.exists_cons_of_ne_nil (hne cs)
        simp [ih, hl]

/-- The lines of texts that are joined by line breaks and ended by one. -/
theorem lines_intercalate (texts : List (List Char)) (hne : texts ≠ []) :
    lines (['\n'].intercalate texts ++ ['\n']) = texts.flatMap lines ++ [[]] := by
  induction texts with
  | nil => exact absurd rfl hne
  | cons t ts ih =>
      cases ts with
      | nil => simpa [lines] using lines_append t []
      | cons u us =>
          have h := lines_append t (['\n'].intercalate (u :: us) ++ ['\n'])
          rw [ih (by simp)] at h
          simpa [List.intercalate_cons_cons] using h

/-- A blank that follows complete tokens separates them from what comes next. -/
theorem lexFrom_append_blank {st : LexState} {cs : List Char} {ts : List Token}
    (h : lexFrom st cs = some ts) (hash : '#' ∉ cs) (rest : List Char) :
    lexFrom st (cs ++ ' ' :: rest) = (lex rest).map (ts ++ ·) := by
  induction cs generalizing st ts with
  | nil =>
      cases st with
      | bare w =>
          obtain rfl : word w = ts := by simpa [lexFrom] using h
          simp [lexFrom, isBlank, lex]
      | quoted text => simp [lexFrom] at h
  | cons c cs ih =>
      obtain ⟨hc, hcs⟩ := List.ne_and_not_mem_of_not_mem_cons hash
      have hmap : ∀ {st' : LexState} {f : List Token → List Token},
          (lexFrom st' cs).map f = some ts →
          (∀ us vs, f us ++ vs = f (us ++ vs)) →
          (lexFrom st' (cs ++ ' ' :: rest)).map f = (lex rest).map (ts ++ ·) := by
        intro st' f hf happ
        obtain ⟨us, hus, rfl⟩ := Option.map_eq_some_iff.mp hf
        simp [ih hus hcs, happ, Function.comp_def]
      cases st with
      | bare w =>
          simp only [List.cons_append, lexFrom] at h ⊢
          by_cases hb : isBlank c
          · simp only [hb, if_true] at h ⊢
            exact hmap h (by simp)
          · cases hp : punctuation c with
            | some t =>
                simp only [hb, Bool.false_eq_true, if_false, hp] at h ⊢
                exact hmap h (by simp)
            | none =>
                simp only [hb, Bool.false_eq_true, if_false, hp, Ne.symm hc] at h ⊢
                by_cases hq : c = '"'
                · simp only [hq, if_true] at h ⊢
                  exact hmap h (by simp)
                · simp only [hq, if_false] at h ⊢
                  exact ih h hcs
      | quoted text =>
          simp only [List.cons_append, lexFrom] at h ⊢
          by_cases hq : c = '"'
          · simp only [hq, if_true] at h ⊢
            exact hmap h (by simp)
          · simp only [hq, if_false] at h ⊢
            exact ih h hcs

theorem lexFrom_word {w : List Char} (hw : ∀ c ∈ w, isWordChar c) (v rest : List Char) :
    lexFrom (.bare v) (w ++ rest) = lexFrom (.bare (v ++ w)) rest := by
  induction w generalizing v with
  | nil => simp
  | cons c w ih =>
      have hc := hw c (by simp)
      simp only [isWordChar, Bool.and_eq_true, Bool.not_eq_true', bne_iff_ne, ne_eq,
        Option.isNone_iff_eq_none] at hc
      obtain ⟨⟨⟨⟨hblank, hpunct⟩, hquote⟩, hhash⟩, -⟩ := hc
      simp only [List.cons_append, lexFrom, hblank, hpunct, hquote, hhash, Bool.false_eq_true,
        if_false]
      rw [ih (fun c hm => hw c (by simp [hm]))]
      simp

/-- The characters that end a word. -/
def separators : List Char := [' ', '\t', '\x7b', '\x7d', ',', ';', '"', '#', '\n']

/-- A kind of characters without separators is a kind of word characters. -/
theorem isWordChar_of {q : Char → Bool} (hq : separators.all (!q ·) = true) {c : Char}
    (hc : q c = true) : isWordChar c := by
  have hne : ∀ s ∈ separators, c ≠ s := by
    rintro s hs rfl
    simpa [hc] using List.all_eq_true.mp hq c hs
  simp only [separators, List.mem_cons, List.not_mem_nil, or_false, forall_eq_or_imp,
    forall_eq] at hne
  simp [isWordChar, isBlank, punctuation, hne]

/-- A word that nothing follows. -/
theorem lex_word {w : List Char} (hne : w ≠ []) (hw : ∀ c ∈ w, isWordChar c) :
    lex w = some [.word w] := by
  have h := lexFrom_word hw [] []
  simpa [lex, lexFrom, word, hne] using h

/-- A word with a comma behind it. -/
theorem lex_word_comma {w : List Char} (hne : w ≠ []) (hw : ∀ c ∈ w, isWordChar c) :
    lex (w ++ [',']) = some [.word w, .comma] := by
  have h := lexFrom_word hw [] [',']
  simpa [lex, lexFrom, word, hne, isBlank, punctuation] using h

/-- The items of a text that leaves no set open. -/
def itemsOf (cs : List Char) : Option (List Item) := (lex cs).bind (itemsFrom .outside)

theorem itemsFrom_append {st : SetState} {ts : List Token} {is : List Item}
    (h : itemsFrom st ts = some is) (us : List Token) :
    itemsFrom st (ts ++ us) = (itemsFrom .outside us).map (is ++ ·) := by
  induction st, ts using itemsFrom.induct generalizing is with
  | case1 =>
      obtain rfl : [] = is := by simpa [itemsFrom] using h
      simp
  | case2 w ts ih | case3 w ts ih | case4 ts ih | case5 ts ih | case9 w ts ih =>
      simp only [itemsFrom] at h
      obtain ⟨js, hjs, rfl⟩ := Option.map_eq_some_iff.mp h
      simp [itemsFrom, ih hjs, Function.comp_def]
  | case6 ts ih | case7 read w ts ih | case8 read ts ih =>
      simp only [itemsFrom] at h
      simpa [itemsFrom] using ih h
  | case10 st ts => simp_all [itemsFrom]

/-- Parts with a blank between them are read one after the other. -/
theorem itemsOf_append {cs rest : List Char} {is js : List Item} (h : itemsOf cs = some is)
    (hash : '#' ∉ cs) (hrest : itemsOf rest = some js) :
    itemsOf (cs ++ ' ' :: rest) = some (is ++ js) := by
  obtain ⟨ts, hts, his⟩ := Option.bind_eq_some_iff.mp h
  obtain ⟨us, hus, hjs⟩ := Option.bind_eq_some_iff.mp hrest
  have hlex : lex (cs ++ ' ' :: rest) = some (ts ++ us) := by
    rw [lex, lexFrom_append_blank hts hash rest, hus, Option.map_some]
  simp [itemsOf, hlex, itemsFrom_append his, hjs]

theorem itemsOf_word {w : List Char} (hne : w ≠ []) (hw : ∀ c ∈ w, isWordChar c) :
    itemsOf w = some [.word w] := by
  simp [itemsOf, lex_word hne hw, itemsFrom]

theorem readLine_of_itemsOf {cs : List Char} {is : List Item} (h : itemsOf cs = some is) :
    readLine cs = readItems is := by
  obtain ⟨ts, hts, his⟩ := Option.bind_eq_some_iff.mp h
  simp [readLine, hts, his]

/-! ## Operands -/

theorem hash_notMem_of_wordChars {w : List Char} (hw : ∀ c ∈ w, isWordChar c) : '#' ∉ w := by
  intro h
  exact absurd (hw _ h) (by decide)

/-- The elements of a set, from the first one to the closing brace. -/
theorem itemsFrom_elements {ws : List (List Char)} (hne : ws ≠ [])
    (hws : ∀ w ∈ ws, w ≠ [] ∧ ∀ c ∈ w, isWordChar c) (read : List (List Char)) :
    (lex ([',', ' '].intercalate ws ++ [' ', '\x7d'])).bind (itemsFrom (.element read)) =
      some [.set (read ++ ws)] := by
  induction ws generalizing read with
  | nil => exact absurd rfl hne
  | cons w ws ih =>
      obtain ⟨hw, hchars⟩ := hws w (by simp)
      have hhash := hash_notMem_of_wordChars hchars
      cases ws with
      | nil =>
          have hlex := lexFrom_append_blank (lex_word hw hchars) hhash ['\x7d']
          have hclose : lex ['\x7d'] = some [.close] := rfl
          rw [List.intercalate_singleton, lex, hlex, hclose]
          simp [itemsFrom]
      | cons v ws =>
          have hlex := lexFrom_append_blank (lex_word_comma hw hchars) (by simpa using hhash)
            ([',', ' '].intercalate (v :: ws) ++ [' ', '\x7d'])
          have ih := ih (by simp) (fun w hm => hws w (by simp [hm])) (read ++ [w])
          obtain ⟨ts, hts, his⟩ := Option.bind_eq_some_iff.mp ih
          have htext : [',', ' '].intercalate (w :: v :: ws) ++ [' ', '\x7d'] =
              (w ++ [',']) ++ ' ' :: ([',', ' '].intercalate (v :: ws) ++ [' ', '\x7d']) := by
            simp [List.intercalate_cons_cons]
          rw [htext, lex, hlex, hts]
          simp [itemsFrom, his]

/-- `{ a, b, c }` -/
theorem itemsOf_set {ws : List (List Char)} (hne : ws ≠ [])
    (hws : ∀ w ∈ ws, w ≠ [] ∧ ∀ c ∈ w, isWordChar c) :
    itemsOf (['\x7b', ' '] ++ [',', ' '].intercalate ws ++ [' ', '\x7d']) = some [.set ws] := by
  have hopen : lex ['\x7b'] = some [.open] := rfl
  have hlex := lexFrom_append_blank hopen (by decide) ([',', ' '].intercalate ws ++ [' ', '\x7d'])
  obtain ⟨ts, hts, his⟩ := Option.bind_eq_some_iff.mp (itemsFrom_elements hne hws [])
  have htext : ['\x7b', ' '] ++ [',', ' '].intercalate ws ++ [' ', '\x7d'] =
      ['\x7b'] ++ ' ' :: ([',', ' '].intercalate ws ++ [' ', '\x7d']) := by simp
  rw [itemsOf, htext, lex, hlex, hts]
  simpa [itemsFrom] using his

/-- A part of one line, without a comment, and its items. -/
structure Reads (cs : List Char) (is : List Item) : Prop where
  items : itemsOf cs = some is
  hash : '#' ∉ cs
  newline : '\n' ∉ cs

namespace Reads

variable {cs rest : List Char} {is js : List Item}

/-- Parts with a blank between them. -/
theorem append (h : Reads cs is) (hrest : Reads rest js) : Reads (cs ++ ' ' :: rest) (is ++ js) where
  items := itemsOf_append h.items h.hash hrest.items
  hash := by simp [h.hash, hrest.hash]
  newline := by simp [h.newline, hrest.newline]

theorem word {w : List Char} (hne : w ≠ []) (hw : ∀ c ∈ w, isWordChar c) : Reads w [.word w] where
  items := itemsOf_word hne hw
  hash := fun h => absurd (hw _ h) (by decide)
  newline := fun h => absurd (hw _ h) (by decide)

theorem set {ws : List (List Char)} (hne : ws ≠ [])
    (hws : ∀ w ∈ ws, w ≠ [] ∧ ∀ c ∈ w, isWordChar c) :
    Reads (['\x7b', ' '] ++ [',', ' '].intercalate ws ++ [' ', '\x7d']) [.set ws] := by
  have key : ∀ x, x ≠ ',' → x ≠ ' ' → (∀ w ∈ ws, x ∉ w) → x ∉ [',', ' '].intercalate ws := by
    intro x hcomma hblank hx
    clear hne hws
    induction ws with
    | nil => simp
    | cons w ws ih =>
        cases ws with
        | nil => simpa using hx
        | cons v ws =>
            have hw := hx w (by simp)
            have hrest := ih fun w hm => hx w (by simp [hm])
            simp_all [List.intercalate_cons_cons]
  have hmem : ∀ x, isWordChar x = false → ∀ w ∈ ws, x ∉ w := by
    intro x hx w hw hxw
    exact absurd ((hws w hw).2 x hxw) (by simp [hx])
  refine ⟨itemsOf_set hne hws, ?_, ?_⟩
  · simpa using key '#' (by decide) (by decide) (hmem '#' (by decide))
  · simpa using key '\n' (by decide) (by decide) (hmem '\n' (by decide))

/-- The whole line is a rule. -/
theorem readLine (h : Reads cs is) {parsed : Line} (hline : readItems is = some parsed) :
    readLine cs = some parsed := by
  rw [readLine_of_itemsOf h.items, hline]

theorem lines (h : Reads cs is) : lines cs = [cs] := lines_of_notMem h.newline

end Reads

@[simp] theorem Rule.verdict_when (c : Condition) (r : Rule) : (r.when c).verdict = r.verdict := rfl

@[simp] theorem Rule.holds_when (c : Condition) (r : Rule) (p : Packet) :
    (r.when c).holds p = (c.holds p && r.holds p) := rfl

section Rules

variable {i : Item} {rest : List Item} {r : Rule}

theorem readRule_tcp {ports : List PortRange} (h : i.readAll readPorts = some ports)
    (hr : readRule rest = some r) :
    readRule (.tcp :: .dport :: i :: rest) = some (r.when (.dport .tcp ports)) := by
  change (i.readAll readPorts).bind (fun ports =>
    (readRule rest).bind fun r => some (r.when (.dport .tcp ports))) = _
  rw [h, hr]
  rfl

theorem readRule_udp {ports : List PortRange} (h : i.readAll readPorts = some ports)
    (hr : readRule rest = some r) :
    readRule (.udp :: .dport :: i :: rest) = some (r.when (.dport .udp ports)) := by
  change (i.readAll readPorts).bind (fun ports =>
    (readRule rest).bind fun r => some (r.when (.dport .udp ports))) = _
  rw [h, hr]
  rfl

theorem readRule_ip {blocks : List (Block 32)} (h : i.readAll readCidr4 = some blocks)
    (hr : readRule rest = some r) :
    readRule (.ip :: .saddr :: i :: rest) = some (r.when (.saddr4 blocks)) := by
  change (i.readAll readCidr4).bind (fun blocks =>
    (readRule rest).bind fun r => some (r.when (.saddr4 blocks))) = _
  rw [h, hr]
  rfl

theorem readRule_ip6 {blocks : List (Block 128)} (h : i.readAll readCidr6 = some blocks)
    (hr : readRule rest = some r) :
    readRule (.ip6 :: .saddr :: i :: rest) = some (r.when (.saddr6 blocks)) := by
  change (i.readAll readCidr6).bind (fun blocks =>
    (readRule rest).bind fun r => some (r.when (.saddr6 blocks))) = _
  rw [h, hr]
  rfl

end Rules

/-- Reading every one of some values that can be read. -/
theorem exists_mapM {α β : Type} {f : α → Option β} {xs : List α} (h : ∀ x ∈ xs, (f x).isSome) :
    ∃ ys, xs.mapM f = some ys ∧ ∀ q : β → Bool, ys.any q = xs.any fun x => (f x).any q := by
  induction xs with
  | nil => exact ⟨[], rfl, fun _ => rfl⟩
  | cons x xs ih =>
      obtain ⟨y, hy⟩ := Option.isSome_iff_exists.mp (h x (by simp))
      obtain ⟨ys, hys, hany⟩ := ih fun z hz => h z (by simp [hz])
      refine ⟨y :: ys, by simp [hy, hys], ?_⟩
      intro q
      simp [hy, hany]

/-! ## Reading a file -/

theorem Loading.run_cons {l l' : Loading} {line : List Char} {parsed : Line}
    (hline : readLine line = some parsed) (hstep : l.step parsed = some l')
    (rest : List (List Char)) : l.run (line :: rest) = l'.run rest := by
  simp [Loading.run, hline, hstep]

/-- The line holds a rule. -/
def IsRule (line : List Char) (r : Rule) : Prop := readLine line = some (.rule r)

/-- Rules are added to the open chain in the order in which they stand. -/
theorem Loading.run_rules {texts : List (List Char)} {rs : List Rule}
    (h : List.Forall₂ IsRule texts rs) (tables : Ruleset) (t : Table) (c : Chain)
    (rest : List (List Char)) :
    Loading.run ⟨tables, some (t, some c)⟩ (texts ++ rest) =
      Loading.run ⟨tables, some (t, some { c with rules := c.rules ++ rs })⟩ rest := by
  induction h generalizing c with
  | nil => simp
  | cons hline _ ih =>
      rw [List.cons_append, Loading.run_cons hline rfl, ih]
      simp

theorem Ruleset.any_declare (tables : Ruleset) (family name : List Char) :
    (tables.declare family name).any (Table.named family name) = true := by
  unfold Ruleset.declare
  split
  · assumption
  · simp [Table.named]

theorem Ruleset.delete_declare (tables : Ruleset) (family name : List Char) :
    (tables.declare family name).delete family name = some (tables.without family name) := by
  rw [Ruleset.delete, if_pos (Ruleset.any_declare ..)]
  unfold Ruleset.declare
  split <;> simp [Ruleset.without, Table.named]

@[simp] theorem Ruleset.without_without (tables : Ruleset) (family name : List Char) :
    (tables.without family name).without family name = tables.without family name := by
  simp [Ruleset.without]

@[simp] theorem Ruleset.table_without (tables : Ruleset) (family name : List Char) :
    (tables.without family name).table family name = ⟨family, name, []⟩ := by
  have hnone : (tables.without family name).find? (Table.named family name) = none := by
    rw [List.find?_eq_none]
    intro t ht
    simpa using (List.mem_filter.mp ht).2
  simp [Ruleset.table, hnone]

/-- A table added to a ruleset that does not have it is the one that decides. -/
theorem Ruleset.verdict_append (tables : Ruleset) (t : Table) (chain : List Char) (p : Packet) :
    Ruleset.verdict (tables.without t.family t.name ++ [t]) t.family t.name chain p =
      (t.chains.find? (·.name == chain)).map (·.verdict p) := by
  have hnone : (tables.without t.family t.name).find? (Table.named t.family t.name) = none := by
    rw [List.find?_eq_none]
    intro u hu
    simpa using (List.mem_filter.mp hu).2
  have hself : Table.named t.family t.name t = true := by simp [Table.named]
  simp only [Ruleset.verdict, List.find?_append, hnone, Option.none_or, List.find?_singleton,
    hself, if_true, Option.bind_eq_bind, Option.bind_some]
  cases t.chains.find? (·.name == chain) <;> rfl

/-- Where every rule that holds accepts, the order of the rules does not matter. -/
theorem Chain.verdict_eq_accept_iff {c : Chain} {p : Packet}
    (h : ∀ r ∈ c.rules, r.holds p → r.verdict = .accept) :
    c.verdict p = .accept ↔ c.policy = .accept ∨ ∃ r ∈ c.rules, r.holds p := by
  unfold Chain.verdict
  cases hf : c.rules.find? (·.holds p) with
  | none =>
      have hnone := List.find?_eq_none.mp hf
      constructor
      · intro hp
        exact .inl hp
      · rintro (hp | ⟨r, hr, hold⟩)
        · exact hp
        · exact absurd hold (hnone r hr)
  | some r =>
      have hr := List.mem_of_find?_eq_some hf
      have hold := List.find?_some hf
      simp only [h r hr hold, true_iff]
      exact .inr ⟨r, hr, hold⟩

end Nft
