import Vops.Firewall.Nftables
import Vops.Lib.Nft

/-!
# The rendered firewall means the rules

* `portSpecContains`, `sourceContains` — what a port specification and a source entry say by
  themselves.
* `Admitted` — when the rules and the options admit a new inbound packet.
* `renderNftables_accepts_iff` — the chain `input` of the rendered file accepts a new packet that
  does not arrive on loopback exactly when it is admitted, whatever the ruleset of the host was.
-/

namespace Vops

open Nft (Packet Rule Reads Item)
open Ip (Address)

/-! ## What a rule says -/

/-- A port lies in the specification; without one every port does. -/
def portSpecContains (port : Option String) (n : ℕ) : Bool :=
  let spec := (jsTrim (port.getD "")).toList
  spec.isEmpty || (spec.splitOn ',').any fun piece => (Nft.readPorts piece).any (·.contains n)

/-- An address lies in the block that the entry writes. -/
def sourceContains (entry : String) (a : Address) : Bool :=
  (Ip.readCidr entry.toList).any (·.contains a)

def VopsFirewallRule.sources (r : VopsFirewallRule) : List String := r.sourceIps.getD []

/-- The sources of a rule, every entry standing for the addresses of its own family. -/
def VopsFirewallRule.listsSource (r : VopsFirewallRule) (a : Address) : Prop :=
  r.sources = [] ∨ ∃ s ∈ r.sources, sourceContains s a

/-- The sources of a rule, an entry for any source standing for both families. -/
def VopsFirewallRule.allowsSource (r : VopsFirewallRule) (a : Address) : Prop :=
  r.sources = [] ∨ ∃ s ∈ r.sources, isAnySource s ∨ sourceContains s a

/-- The entries for any source stand by themselves. -/
def VopsFirewallRule.Unmixed (r : VopsFirewallRule) : Prop :=
  (∀ s ∈ r.sources, isAnySource s) ∨ ∀ s ∈ r.sources, isAnySource s = false

/-- The protocol above IP. -/
def TransportProtocol.l4 : TransportProtocol → Nft.L4Proto
  | tcp => .tcp
  | udp => .udp

/-- ICMP of IPv4, or ICMPv6. -/
def IsIcmp (p : Packet) : Prop :=
  (p.protocol = .icmp ∧ ∃ bits, p.source = .v4 bits) ∨ p.protocol = .icmpv6

/-- An inbound rule is about the packet, given what its sources mean. -/
def VopsFirewallRule.Opens (allows : VopsFirewallRule → Address → Prop) (r : VopsFirewallRule)
    (p : Packet) : Prop :=
  (∃ t, r.protocol.transport = some t ∧ p.protocol = t.l4) ∧
    portSpecContains r.port p.dport.toNat ∧ allows r p.source

/-- The policy, the rules for ICMP and for SSH, or a rule admits the packet. -/
def Admitted (allows : VopsFirewallRule → Address → Prop) (rules : List VopsFirewallRule)
    (opts : HostFirewallOptions) (p : Packet) : Prop :=
  opts.policy = .accept ∨
    (IsIcmp p ∧ pingWanted (inboundRules rules) opts) ∨
    (p.protocol = .tcp ∧ p.dport.toNat = opts.port ∧ keepSshLine (inboundRules rules) opts) ∨
    ∃ r ∈ rules, r.direction = .inbound ∧ r.Opens allows p

/-- The text of the chain as a list of characters. -/
def inet : List Char := ['i', 'n', 'e', 't']

def inputName : List Char := ['i', 'n', 'p', 'u', 't']

/-! ## Port specifications -/

theorem isWordChar_of_isDigit {c : Char} (h : c.isDigit = true) : Nft.isWordChar c :=
  Nft.isWordChar_of (by decide) h

theorem isDigits_iff {cs : List Char} : isDigits cs ↔ cs ≠ [] ∧ ∀ c ∈ cs, c.isDigit := by
  simp [isDigits]

/-- Decimal digits are read as the number that they write. -/
theorem readNat_of_isDigits {cs : List Char} (h : isDigits cs) :
    Nft.readNat cs = some (Nat.ofDigitChars 10 cs 0) := by
  obtain ⟨hne, hdigits⟩ := isDigits_iff.mp h
  have hpush : ∀ acc (c : Char), c.isDigit →
      Ip.pushDigit 10 acc c = some (10 * acc + (c.toNat - '0'.toNat)) := by
    intro acc c hc
    simp only [Char.isDigit, ge_iff_le, Bool.and_eq_true, decide_eq_true_eq] at hc
    have hle : '0' ≤ c ∧ c ≤ '9' := hc
    have hlt : c.toNat - 48 < 10 := by
      have h9 : c.toNat ≤ 57 := hc.2
      omega
    simp [Ip.pushDigit, Ip.hexDigit, hle, hlt, Nat.mul_comm]
  have key : ∀ (cs : List Char) (acc : ℕ), (∀ c ∈ cs, c.isDigit) →
      cs.foldlM (Ip.pushDigit 10) acc = some (Nat.ofDigitChars 10 cs acc) := by
    intro cs
    induction cs with
    | nil => simp
    | cons c cs ih =>
        intro acc hall
        rw [List.foldlM_cons, hpush acc c (hall c (by simp)), Nat.ofDigitChars_cons]
        exact ih _ fun c hc => hall c (by simp [hc])
  simpa [Nft.readNat, Ip.readDigits, hne] using key cs 0 hdigits

/-- A port or a range of ports is a word, without commas, and it can be read. -/
structure PortWord (w : List Char) : Prop where
  ne_nil : w ≠ []
  chars : ∀ c ∈ w, Nft.isWordChar c
  readable : (Nft.readPorts w).isSome

theorem PortWord.of_isPortRange {w : List Char} (h : isPortRange w) : PortWord w := by
  have hchars : (∀ piece ∈ w.splitOn '-', isDigits piece) → ∀ c ∈ w, Nft.isWordChar c := by
    intro hpieces
    refine Ip.forall_mem_of_splitOn '-' (by decide) ?_
    intro piece hp c hc
    exact isWordChar_of_isDigit ((isDigits_iff.mp (hpieces piece hp)).2 c hc)
  unfold isPortRange at h
  have hne : w ≠ [] := by
    rintro rfl
    simp [isDigits] at h
  split at h
  case h_1 port hsplit =>
    refine ⟨hne, hchars (by simp [hsplit, h]), ?_⟩
    simp [Nft.readPorts, hsplit, readNat_of_isDigits h]
  case h_2 first last hsplit =>
    simp only [Bool.and_eq_true] at h
    refine ⟨hne, hchars (by simp [hsplit, h]), ?_⟩
    simp [Nft.readPorts, hsplit, readNat_of_isDigits h.1, readNat_of_isDigits h.2]
  case h_3 => exact absurd h (by simp)

theorem isPortRange_of_isDigits {w : List Char} (h : isDigits w) : isPortRange w := by
  have hdash : '-' ∉ w := fun hc => absurd ((isDigits_iff.mp h).2 _ hc) (by decide)
  simp [isPortRange, List.splitOn_eq_singleton hdash, h]

theorem readPorts_of_isDigits {w : List Char} (h : isDigits w) :
    Nft.readPorts w = some ⟨Nat.ofDigitChars 10 w 0, Nat.ofDigitChars 10 w 0⟩ := by
  have hdash : '-' ∉ w := fun hc => absurd ((isDigits_iff.mp h).2 _ hc) (by decide)
  simp [Nft.readPorts, List.splitOn_eq_singleton hdash, readNat_of_isDigits h]

theorem isDigits_toString (n : ℕ) : isDigits (toString n).toList := by
  refine isDigits_iff.mpr ⟨by simp [Nat.toDigits_ne_nil], ?_⟩
  intro c hc
  exact Nat.isDigit_of_mem_toDigits (b := 10) (by decide) (by decide) (by simpa using hc)

theorem readPorts_toString (n : ℕ) : Nft.readPorts (toString n).toList = some ⟨n, n⟩ := by
  rw [readPorts_of_isDigits (isDigits_toString n)]
  simp [Nat.ofDigitChars_ten_toDigits]

theorem isPortRange_of_portRange {w : List Char} (h : (portRange w).isSome) : isPortRange w := by
  unfold portRange at h
  split at h
  case h_1 first last hsplit =>
    split at h
    case isTrue hd => simp [isPortRange, hsplit, hd]
    case isFalse => exact absurd h (by simp)
  case h_2 => exact absurd h (by simp)

/-- The text of an operand, the ports that it means and those of the specification it is for. -/
structure PortOperand (expr : String) (port : Option String) (i : Item)
    (ports : List Nft.PortRange) : Prop where
  reads : Reads expr.toList [i]
  read : i.readAll Nft.readPorts = some ports
  contains : ∀ n ≤ 65535, ports.any (·.contains n) = portSpecContains port n

theorem spaceCommas_intercalate {pieces : List (List Char)} (h : ∀ w ∈ pieces, ',' ∉ w) :
    spaceCommas ([','].intercalate pieces) = [',', ' '].intercalate pieces := by
  have hword : ∀ w : List Char, ',' ∉ w → spaceCommas w = w := by
    intro w hw
    induction w with
    | nil => rfl
    | cons c w ih =>
        obtain ⟨hc, hw⟩ := List.ne_and_not_mem_of_not_mem_cons hw
        have ih := ih hw
        unfold spaceCommas at ih ⊢
        simp [Ne.symm hc, ih]
  induction pieces with
  | nil => rfl
  | cons w ws ih =>
      cases ws with
      | nil => simpa using hword w (h w (by simp))
      | cons v ws =>
          have ih := ih fun w hm => h w (by simp [hm])
          have hw := hword w (h w (by simp))
          unfold spaceCommas at ih hw ⊢
          simp [List.intercalate_cons_cons, hw, ih]

/-- A specification of one word. -/
theorem portOperand_word {port : Option String} (h : PortWord (jsTrim (port.getD "")).toList)
    (hcomma : ',' ∉ (jsTrim (port.getD "")).toList) :
    ∃ i ports, PortOperand (jsTrim (port.getD "")) port i ports := by
  obtain ⟨r, hr⟩ := Option.isSome_iff_exists.mp h.readable
  refine ⟨_, [r], Reads.word h.ne_nil h.chars, by simp [Item.readAll, Item.operands, hr], ?_⟩
  intro n _
  simp [portSpecContains, List.splitOn_eq_singleton hcomma, hr, h.ne_nil]

theorem comma_notMem_of_portRange {w : List Char} (h : isPortRange w) : ',' ∉ w :=
  fun hc => absurd ((PortWord.of_isPortRange h).chars _ hc) (by decide)

/-- What is rendered for a port specification means the specification. -/
theorem portOperand_of_portExpr {port : Option String} {expr : String}
    (h : portExpr port = .ok expr) : ∃ i ports, PortOperand expr port i ports := by
  unfold portExpr at h
  simp only at h
  split at h
  case isTrue hempty =>
    obtain rfl : "0-65535" = expr := by simpa using h
    refine ⟨.word ['0', '-', '6', '5', '5', '3', '5'], [⟨0, 65535⟩], ⟨rfl, by decide, by decide⟩,
      rfl, ?_⟩
    intro n hn
    simp [portSpecContains, hempty, Nft.PortRange.contains, hn]
  case isFalse hne =>
    split at h
    case isTrue hdigits =>
      obtain rfl : jsTrim (port.getD "") = expr := by simpa using h
      have hrange := isPortRange_of_isDigits hdigits
      exact portOperand_word (.of_isPortRange hrange) (comma_notMem_of_portRange hrange)
    case isFalse =>
      split at h
      case isTrue hrange =>
        obtain rfl : jsTrim (port.getD "") = expr := by simpa using h
        have hrange := isPortRange_of_portRange hrange
        exact portOperand_word (.of_isPortRange hrange) (comma_notMem_of_portRange hrange)
      case isFalse =>
        split at h
        case isFalse => exact absurd h (by simp)
        case isTrue hlist =>
          obtain rfl : _ = expr := by simpa only [Except.ok.injEq] using h
          set spec := (jsTrim (port.getD "")).toList with hspec
          have hpieces : ∀ w ∈ spec.splitOn ',', PortWord w := by
            simp only [isPortList, isPortSpec, Bool.and_eq_true, List.all_eq_true] at hlist
            exact fun w hw => .of_isPortRange (hlist.2 w hw)
          have hcommas : ∀ w ∈ spec.splitOn ',', ',' ∉ w :=
            fun w hw hc => absurd ((hpieces w hw).chars _ hc) (by decide)
          have htext : spaceCommas spec = [',', ' '].intercalate (spec.splitOn ',') := by
            have hjoin : [','].intercalate (spec.splitOn ',') = spec := List.intercalate_splitOn ','
            conv_lhs => rw [← hjoin]
            exact spaceCommas_intercalate hcommas
          obtain ⟨ports, hread, hany⟩ :=
            Nft.exists_mapM fun w hw => (hpieces w hw).readable
          refine ⟨.set (spec.splitOn ','), ports, ?_, ?_, ?_⟩
          · have hset := Reads.set (List.splitOn_ne_nil ',' spec)
              fun w hw => ⟨(hpieces w hw).ne_nil, (hpieces w hw).chars⟩
            simpa [htext] using hset
          · simpa [Item.readAll, Item.operands] using hread
          · intro n _
            have hspec_ne : spec ≠ [] := by
              rw [hspec]
              simpa using hne
            simp [portSpecContains, hany, ← hspec, hspec_ne]

/-! ## Sources -/

theorem isWordChar_of_isAddressChar {c : Char} (h : Ip.isAddressChar c = true) :
    Nft.isWordChar c :=
  Nft.isWordChar_of (by decide) h

/-- An entry that writes a block is a word. -/
theorem source_word {s : String} (h : (Ip.readCidr s.toList).isSome) :
    s.toList ≠ [] ∧ ∀ c ∈ s.toList, Nft.isWordChar c := by
  obtain ⟨block, hblock⟩ := Option.isSome_iff_exists.mp h
  refine ⟨?_, fun c hc => isWordChar_of_isAddressChar (Ip.AddressText.of_readCidr hblock c hc)⟩
  intro hnil
  rw [hnil, Ip.readCidr_nil] at h
  exact absurd h (by simp)

/-- A list of entries is read as the entries. -/
theorem reads_set {items : List String} (hne : items ≠ [])
    (h : ∀ s ∈ items, (Ip.readCidr s.toList).isSome) :
    ∃ i : Item, Reads (set items).toList [i] ∧ i.operands = some (items.map String.toList) := by
  unfold set
  split
  case h_1 item =>
    obtain ⟨hitem, hchars⟩ := source_word (h item (by simp))
    exact ⟨_, Reads.word hitem hchars, rfl⟩
  case h_2 =>
    refine ⟨.set (items.map String.toList), ?_, rfl⟩
    have hset := @Reads.set (items.map String.toList) (by simpa using hne) (by
      simp only [List.mem_map, forall_exists_index, and_imp, forall_apply_eq_imp_iff₂]
      exact fun s hs => source_word (h s hs))
    simpa [String.toList_intercalate] using hset

/-- The entries of one family, read with the reader of this family. -/
theorem readAll_sources {w : ℕ} {read : List Char → Option (Ip.Block w)} {items : List String}
    {i : Item} (hi : i.operands = some (items.map String.toList))
    (h : ∀ s ∈ items, (read s.toList).isSome) :
    ∃ blocks, i.readAll read = some blocks ∧
      ∀ a, blocks.any (·.contains a) = items.any fun s => (read s.toList).any (·.contains a) := by
  obtain ⟨blocks, hblocks, hany⟩ := @Nft.exists_mapM _ _ read (items.map String.toList) (by
    simpa using h)
  refine ⟨blocks, by simp [Item.readAll, hi, hblocks], ?_⟩
  intro a
  simp [hany, List.any_map, Function.comp_def]

/-! ## One inbound rule -/

/-- The rule of a line without its sources. -/
def InboundLine.rule (l : InboundLine) (ports : List Nft.PortRange) : Rule :=
  Rule.when (.dport l.proto.l4 ports) ⟨[], .accept⟩

theorem reads_target {l : InboundLine} {port : Option String} {i : Item}
    {ports : List Nft.PortRange} (h : PortOperand l.portExpr port i ports) :
    ∃ is, Reads l.target.toList is ∧ Nft.readRule is = some (l.rule ports) ∧
      Nft.readItems is = some (.rule (l.rule ports)) := by
  have haccept : Reads "accept".toList [.accept] := ⟨rfl, by decide, by decide⟩
  unfold InboundLine.target InboundLine.rule
  cases l.proto with
  | tcp =>
      have hproto : Reads "tcp dport".toList [.tcp, .dport] := ⟨rfl, by decide, by decide⟩
      have hrule := @Nft.readRule_tcp i [.accept] ⟨[], .accept⟩ ports h.read rfl
      refine ⟨[.tcp, .dport, i, .accept], ?_, hrule, ?_⟩
      · simpa [TransportProtocol.text] using hproto.append (h.reads.append haccept)
      · exact congrArg (Option.map Nft.Line.rule) hrule
  | udp =>
      have hproto : Reads "udp dport".toList [.udp, .dport] := ⟨rfl, by decide, by decide⟩
      have hrule := @Nft.readRule_udp i [.accept] ⟨[], .accept⟩ ports h.read rfl
      refine ⟨[.udp, .dport, i, .accept], ?_, hrule, ?_⟩
      · simpa [TransportProtocol.text] using hproto.append (h.reads.append haccept)
      · exact congrArg (Option.map Nft.Line.rule) hrule

/-- A line of the chain, indented, that accepts. -/
structure AcceptLine (text : String) (r : Rule) : Prop where
  isRule : Nft.IsRule ("    " ++ text).toList r
  single : Nft.lines ("    " ++ text).toList = [("    " ++ text).toList]
  accepts : r.verdict = .accept

theorem AcceptLine.of_reads {text : String} {is : List Item} {r : Rule}
    (h : Reads text.toList is) (hrule : Nft.readItems is = some (.rule r))
    (haccept : r.verdict = .accept) : AcceptLine text r := by
  have hindent : Reads "   ".toList [] := ⟨rfl, by decide, by decide⟩
  have hline : Reads ("    " ++ text).toList is := by
    simpa using hindent.append h
  exact ⟨hline.readLine hrule, hline.lines, haccept⟩

section Sources

variable {l : InboundLine} {port : Option String} {i : Item} {ports : List Nft.PortRange}

/-- The line of a rule for the sources of one family, whose key, reader and condition are given. -/
theorem acceptLine_saddr (h : PortOperand l.portExpr port i ports) {w : ℕ} (key : String)
    {k : Item} {read : List Char → Option (Ip.Block w)}
    {condition : List (Ip.Block w) → Nft.Condition} {items : List String} (hne : items ≠ [])
    (hvalid : ∀ s ∈ items, (Ip.readCidr s.toList).isSome)
    (hkey : Reads (key ++ " saddr").toList [k, .saddr])
    (hrule : ∀ {j : Item} {rest : List Item} {blocks : List (Ip.Block w)} {r : Rule},
      j.readAll read = some blocks → Nft.readRule rest = some r →
        Nft.readItems (k :: .saddr :: j :: rest) = some (.rule (r.when (condition blocks))))
    (hread : ∀ s ∈ items, (read s.toList).isSome)
    (hcondition : ∀ (p : Packet) (blocks : List (Ip.Block w)),
      (∀ a, blocks.any (·.contains a) =
        items.any fun s => (read s.toList).any (·.contains a)) →
      ((condition blocks).holds p ↔ ∃ s ∈ items, sourceContains s p.source)) :
    ∃ r, AcceptLine (key ++ " saddr " ++ set items ++ " " ++ l.target) r ∧
      ∀ p, r.holds p ↔ (l.rule ports).holds p ∧ ∃ s ∈ items, sourceContains s p.source := by
  obtain ⟨is, his, htarget, -⟩ := reads_target h
  obtain ⟨j, hj, hoperands⟩ := reads_set hne hvalid
  obtain ⟨blocks, hblocks, hany⟩ := readAll_sources hoperands hread
  refine ⟨_, @AcceptLine.of_reads _ (k :: .saddr :: j :: is) _ ?_ (hrule hblocks htarget) rfl, ?_⟩
  · simpa using hkey.append (hj.append his)
  · intro p
    rw [Nft.Rule.holds_when, Bool.and_eq_true, and_comm, hcondition p blocks hany]

/-- The IPv4 line of a rule. -/
theorem acceptLine_ip (h : PortOperand l.portExpr port i ports) (hne : l.v4 ≠ [])
    (hcolon : ∀ s ∈ l.v4, ':' ∉ s.toList) (hvalid : ∀ s ∈ l.v4, (Ip.readCidr s.toList).isSome) :
    ∃ r, AcceptLine ("ip saddr " ++ set l.v4 ++ " " ++ l.target) r ∧
      ∀ p, r.holds p ↔ (l.rule ports).holds p ∧ ∃ s ∈ l.v4, sourceContains s p.source := by
  have hread : ∀ s ∈ l.v4, Ip.readCidr s.toList = (Ip.readCidr4 s.toList).map .v4 := by
    intro s hs
    rw [Ip.readCidr, if_neg (hcolon s hs)]
  refine acceptLine_saddr h "ip" hne hvalid ⟨rfl, by decide, by decide⟩
    (fun hj hr => congrArg (Option.map Nft.Line.rule) (Nft.readRule_ip hj hr)) ?_ ?_
  · intro s hs
    simpa [hread s hs] using hvalid s hs
  · intro p blocks hany
    have hsame : ∀ s ∈ l.v4, ∀ a, sourceContains s (.v4 a) =
        (Ip.readCidr4 s.toList).any (·.contains a) := by
      intro s hs a
      rw [sourceContains, hread s hs]
      cases Ip.readCidr4 s.toList <;> rfl
    have hother : ∀ s ∈ l.v4, ∀ a, sourceContains s (.v6 a) = false := by
      intro s hs a
      rw [sourceContains, hread s hs]
      cases Ip.readCidr4 s.toList <;> rfl
    cases hp : p.source with
    | v4 a =>
        simp only [Nft.Condition.holds, hp, hany, List.any_eq_true]
        exact exists_congr fun s => and_congr_right fun hs => by rw [hsame s hs]
    | v6 a =>
        simp only [Nft.Condition.holds, hp, Bool.false_eq_true, false_iff, not_exists, not_and]
        intro s hs
        simp [hother s hs]

/-- The IPv6 line of a rule. -/
theorem acceptLine_ip6 (h : PortOperand l.portExpr port i ports) (hne : l.v6 ≠ [])
    (hcolon : ∀ s ∈ l.v6, ':' ∈ s.toList) (hvalid : ∀ s ∈ l.v6, (Ip.readCidr s.toList).isSome) :
    ∃ r, AcceptLine ("ip6 saddr " ++ set l.v6 ++ " " ++ l.target) r ∧
      ∀ p, r.holds p ↔ (l.rule ports).holds p ∧ ∃ s ∈ l.v6, sourceContains s p.source := by
  have hread : ∀ s ∈ l.v6, Ip.readCidr s.toList = (Ip.readCidr6 s.toList).map .v6 := by
    intro s hs
    rw [Ip.readCidr, if_pos (hcolon s hs)]
  refine acceptLine_saddr h "ip6" hne hvalid ⟨rfl, by decide, by decide⟩
    (fun hj hr => congrArg (Option.map Nft.Line.rule) (Nft.readRule_ip6 hj hr)) ?_ ?_
  · intro s hs
    simpa [hread s hs] using hvalid s hs
  · intro p blocks hany
    have hsame : ∀ s ∈ l.v6, ∀ a, sourceContains s (.v6 a) =
        (Ip.readCidr6 s.toList).any (·.contains a) := by
      intro s hs a
      rw [sourceContains, hread s hs]
      cases Ip.readCidr6 s.toList <;> rfl
    have hother : ∀ s ∈ l.v6, ∀ a, sourceContains s (.v4 a) = false := by
      intro s hs a
      rw [sourceContains, hread s hs]
      cases Ip.readCidr6 s.toList <;> rfl
    cases hp : p.source with
    | v4 a =>
        simp only [Nft.Condition.holds, hp, Bool.false_eq_true, false_iff, not_exists, not_and]
        intro s hs
        simp [hother s hs]
    | v6 a =>
        simp only [Nft.Condition.holds, hp, hany, List.any_eq_true]
        exact exists_congr fun s => and_congr_right fun hs => by rw [hsame s hs]

end Sources

/-- A new packet that does not arrive on loopback. -/
def Incoming (p : Packet) : Prop := p.state = .new ∧ p.iif ≠ ['l', 'o']

/-- The lines of some texts are rules. Of an incoming packet, those that hold accept, and one of them
holds exactly when `P` does. -/
def AcceptsWhen (P : Packet → Prop) (texts : List String) : Prop :=
  ∃ rs, List.Forall₂ Nft.IsRule (texts.flatMap fun t => Nft.lines t.toList) rs ∧
    ∀ p, Incoming p →
      (∀ r ∈ rs, r.holds p → r.verdict = .accept) ∧ ((∃ r ∈ rs, r.holds p) ↔ P p)

theorem acceptsWhen_nil : AcceptsWhen (fun _ => False) [] :=
  ⟨[], .nil, fun p _ => by simp⟩

theorem AcceptsWhen.append {P Q : Packet → Prop} {ts us : List String} (h : AcceptsWhen P ts)
    (h' : AcceptsWhen Q us) : AcceptsWhen (fun p => P p ∨ Q p) (ts ++ us) := by
  obtain ⟨rs, hrs, hP⟩ := h
  obtain ⟨rs', hrs', hQ⟩ := h'
  refine ⟨rs ++ rs', ?_, ?_⟩
  · rw [List.flatMap_append]
    exact List.rel_append hrs hrs'
  · intro p hp
    obtain ⟨haccept, hholds⟩ := hP p hp
    obtain ⟨haccept', hholds'⟩ := hQ p hp
    refine ⟨?_, ?_⟩
    · intro r hr
      rcases List.mem_append.mp hr with hr | hr
      · exact haccept r hr
      · exact haccept' r hr
    · change _ ↔ P p ∨ Q p
      rw [← hholds, ← hholds']
      simp [or_and_right, exists_or]

theorem AcceptsWhen.congr {P Q : Packet → Prop} {ts : List String} (h : AcceptsWhen P ts)
    (hPQ : ∀ p, P p ↔ Q p) : AcceptsWhen Q ts := by
  obtain rfl : P = Q := funext fun p => propext (hPQ p)
  exact h

/-- The sources that a rendered line filters for. -/
def InboundLine.filters (l : InboundLine) (a : Address) : Prop :=
  (l.v4 = [] ∧ l.v6 = []) ∨ ∃ s ∈ l.v4 ++ l.v6, sourceContains s a

theorem AcceptsWhen.of_rule {text : String} {r : Rule} {P : Packet → Prop}
    (hrule : Nft.IsRule text.toList r) (hline : Nft.lines text.toList = [text.toList])
    (h : ∀ p, Incoming p → (r.holds p → r.verdict = .accept) ∧ (r.holds p ↔ P p)) :
    AcceptsWhen P [text] := by
  refine ⟨[r], ?_, fun p hp => by simpa using h p hp⟩
  rw [List.flatMap_singleton, hline]
  exact .cons hrule .nil

theorem AcceptLine.acceptsWhen {text : String} {r : Rule} (h : AcceptLine text r)
    {P : Packet → Prop} (hP : ∀ p, r.holds p ↔ P p) : AcceptsWhen P ["    " ++ text] :=
  .of_rule h.isRule h.single fun p _ => ⟨fun _ => h.accepts, hP p⟩

/-- Two lines that a line break joins. -/
theorem AcceptLine.acceptsWhen_append {text text' : String} {r r' : Rule} (h : AcceptLine text r)
    (h' : AcceptLine text' r') {P : Packet → Prop} (hP : ∀ p, (r.holds p ∨ r'.holds p) ↔ P p) :
    AcceptsWhen P ["    " ++ (text ++ "\n    " ++ text')] := by
  have hlines : Nft.lines ("    " ++ (text ++ "\n    " ++ text')).toList =
      [("    " ++ text).toList, ("    " ++ text').toList] := by
    have happend := Nft.lines_append ("    " ++ text).toList ("    " ++ text').toList
    rw [h.single, h'.single] at happend
    simpa using happend
  refine ⟨[r, r'], ?_, fun p _ => ⟨by simp [h.accepts, h'.accepts], by simpa using hP p⟩⟩
  rw [List.flatMap_singleton, hlines]
  exact .cons h.isRule (.cons h'.isRule .nil)

theorem acceptsWhen_renderInbound {l : InboundLine} {port : Option String} {i : Item}
    {ports : List Nft.PortRange} (h : PortOperand l.portExpr port i ports)
    (hcolon4 : ∀ s ∈ l.v4, ':' ∉ s.toList) (hcolon6 : ∀ s ∈ l.v6, ':' ∈ s.toList)
    (hvalid : ∀ s ∈ l.v4 ++ l.v6, (Ip.readCidr s.toList).isSome) :
    AcceptsWhen (fun p => (l.rule ports).holds p ∧ l.filters p.source)
      ["    " ++ renderInbound l] := by
  have hvalid4 : ∀ s ∈ l.v4, (Ip.readCidr s.toList).isSome := fun s hs => hvalid s (by simp [hs])
  have hvalid6 : ∀ s ∈ l.v6, (Ip.readCidr s.toList).isSome := fun s hs => hvalid s (by simp [hs])
  unfold renderInbound InboundLine.filters
  by_cases h4 : l.v4 = []
  · by_cases h6 : l.v6 = []
    · obtain ⟨is, his, -, hitems⟩ := reads_target h
      have hline : AcceptLine l.target (l.rule ports) := .of_reads his hitems rfl
      rw [if_pos ⟨h4, h6⟩]
      exact hline.acceptsWhen fun p => by simp [h4, h6]
    · obtain ⟨r, hr, hholds⟩ := acceptLine_ip6 h h6 hcolon6 hvalid6
      have hP : ∀ p, r.holds p ↔ (l.rule ports).holds p ∧
          ((l.v4 = [] ∧ l.v6 = []) ∨ ∃ s ∈ l.v4 ++ l.v6, sourceContains s p.source) := by
        intro p
        rw [hholds]
        simp [h4, h6]
      simpa [h4, h6] using hr.acceptsWhen hP
  · obtain ⟨r, hr, hholds⟩ := acceptLine_ip h h4 hcolon4 hvalid4
    by_cases h6 : l.v6 = []
    · have hP : ∀ p, r.holds p ↔ (l.rule ports).holds p ∧
          ((l.v4 = [] ∧ l.v6 = []) ∨ ∃ s ∈ l.v4 ++ l.v6, sourceContains s p.source) := by
        intro p
        rw [hholds]
        simp [h4, h6]
      simpa [h4, h6] using hr.acceptsWhen hP
    · obtain ⟨r', hr', hholds'⟩ := acceptLine_ip6 h h6 hcolon6 hvalid6
      have hP : ∀ p, (r.holds p ∨ r'.holds p) ↔ (l.rule ports).holds p ∧
          ((l.v4 = [] ∧ l.v6 = []) ∨ ∃ s ∈ l.v4 ++ l.v6, sourceContains s p.source) := by
        intro p
        rw [hholds, hholds', ← and_or_left]
        simp [h4, or_and_right, exists_or]
      simpa [h4, h6] using hr.acceptsWhen_append hr' hP

theorem InboundLine.rule_holds {l : InboundLine} {port : Option String} {i : Item}
    {ports : List Nft.PortRange} (h : PortOperand l.portExpr port i ports) (p : Packet) :
    (l.rule ports).holds p ↔
      p.protocol = l.proto.l4 ∧ portSpecContains port p.dport.toNat := by
  have hn : p.dport.toNat ≤ 65535 := Nat.le_of_lt_succ p.dport.isLt
  have hnil : Rule.holds ⟨[], .accept⟩ p = true := rfl
  rw [InboundLine.rule, Nft.Rule.holds_when, hnil]
  simp [Nft.Condition.holds, h.contains _ hn]

/-- The entries for specific sources, by family. -/
theorem mem_splitCidrs {r : VopsFirewallRule} {s : String} :
    s ∈ (splitCidrs r.sourceIps).1 ++ (splitCidrs r.sourceIps).2 ↔
      s ∈ r.sources ∧ isAnySource s = false := by
  simp only [splitCidrs, List.mem_append, List.mem_filter, VopsFirewallRule.sources]
  cases isAnySource s <;> by_cases hc : ':' ∈ s.toList <;> simp [hc]

theorem splitCidrs_eq_nil {r : VopsFirewallRule} :
    ((splitCidrs r.sourceIps).1 = [] ∧ (splitCidrs r.sourceIps).2 = []) ↔
      ∀ s ∈ r.sources, isAnySource s := by
  rw [← List.append_eq_nil_iff, List.eq_nil_iff_forall_not_mem]
  simp only [mem_splitCidrs, not_and, Bool.not_eq_false]

theorem colon_notMem_splitCidrs {cidrs : Option (List String)} :
    ∀ s ∈ (splitCidrs cidrs).1, ':' ∉ s.toList := fun _ hs => by
  simpa using (List.mem_filter.mp hs).2

theorem colon_mem_splitCidrs {cidrs : Option (List String)} :
    ∀ s ∈ (splitCidrs cidrs).2, ':' ∈ s.toList := fun _ hs => by
  simpa using (List.mem_filter.mp hs).2

/-- Where entries for any source stand by themselves, the filter is what the rule says. -/
theorem filters_iff_allowsSource {r : VopsFirewallRule} (hmix : r.Unmixed) {l : InboundLine}
    (h4 : l.v4 = (splitCidrs r.sourceIps).1) (h6 : l.v6 = (splitCidrs r.sourceIps).2)
    (a : Address) : l.filters a ↔ r.allowsSource a := by
  simp only [InboundLine.filters, VopsFirewallRule.allowsSource, h4, h6, splitCidrs_eq_nil,
    mem_splitCidrs]
  rcases hmix with hany | hnone
  · refine iff_of_true (.inl hany) ?_
    by_cases hnil : r.sources = []
    · exact .inl hnil
    · obtain ⟨s, hs⟩ := List.exists_mem_of_ne_nil _ hnil
      exact .inr ⟨s, hs, .inl (hany s hs)⟩
  · constructor
    · rintro (hany | ⟨s, ⟨hs, -⟩, hcontains⟩)
      · refine .inl (List.eq_nil_iff_forall_not_mem.mpr ?_)
        intro s hs
        exact absurd (hany s hs) (by simp [hnone s hs])
      · exact .inr ⟨s, hs, .inr hcontains⟩
    · rintro (hnil | ⟨s, hs, hany | hcontains⟩)
      · exact .inl (by simp [hnil])
      · exact absurd hany (by simp [hnone s hs])
      · exact .inr ⟨s, ⟨hs, hnone s hs⟩, hcontains⟩

/-- Every entry writes a block. -/
def VopsFirewallRule.ValidSources (r : VopsFirewallRule) : Prop :=
  ∀ s ∈ r.sources, (Ip.readCidr s.toList).isSome

/-- The lines of the inbound rules hold of the packets that the rules are about. -/
theorem acceptsWhen_buildInboundLines {rules : List VopsFirewallRule} {lines : List InboundLine}
    (h : buildInboundLines rules = .ok lines) (hvalid : ∀ r ∈ rules, r.ValidSources)
    (hmix : ∀ r ∈ rules, r.protocol ≠ .icmp → r.Unmixed) :
    AcceptsWhen (fun p => ∃ r ∈ rules, r.Opens VopsFirewallRule.allowsSource p)
      (lines.map fun l => "    " ++ renderInbound l) := by
  induction rules generalizing lines with
  | nil =>
      obtain rfl : [] = lines := Except.ok.inj h
      exact acceptsWhen_nil.congr (by simp)
  | cons r rules ih =>
      obtain ⟨line, hline, h⟩ := Async.except_bind_eq_ok.mp h
      obtain ⟨rest, hrest, h⟩ := Async.except_bind_eq_ok.mp h
      obtain rfl : line.toList ++ rest = lines := Except.ok.inj h
      have ih := ih hrest (fun r hr => hvalid r (by simp [hr])) (fun r hr => hmix r (by simp [hr]))
      unfold inboundLine at hline
      cases ht : r.protocol.transport with
      | none =>
          rw [ht] at hline
          obtain rfl : none = line := Except.ok.inj hline
          refine ih.congr fun p => ?_
          simp [VopsFirewallRule.Opens, ht]
      | some t =>
          have hicmp : r.protocol ≠ .icmp := by
            intro hp
            rw [hp] at ht
            exact absurd ht (by simp [FirewallProtocol.transport])
          rw [ht] at hline
          obtain ⟨expr, hexpr, hline⟩ := Async.except_bind_eq_ok.mp hline
          obtain rfl := Except.ok.inj hline
          obtain ⟨i, ports, hports⟩ := portOperand_of_portExpr hexpr
          have hfirst := acceptsWhen_renderInbound
            (l := ⟨t, expr, (splitCidrs r.sourceIps).1, (splitCidrs r.sourceIps).2⟩) hports
            colon_notMem_splitCidrs colon_mem_splitCidrs
            (fun s hs => hvalid r (by simp) s (mem_splitCidrs.mp hs).1)
          refine (hfirst.append ih).congr fun p => ?_
          rw [InboundLine.rule_holds hports,
            filters_iff_allowsSource (hmix r (by simp) hicmp) rfl rfl]
          simp [VopsFirewallRule.Opens, ht, and_assoc]

/-! ## The chain and the file -/

/-- The lines for established connections, invalid packets and loopback are not about incoming
packets. -/
theorem acceptsWhen_preamble : AcceptsWhen (fun _ => False)
    ["    ct state established,related accept", "    ct state invalid drop",
      "    iif \"lo\" accept"] := by
  refine ⟨[⟨[.ctState [.established, .related]], .accept⟩, ⟨[.ctState [.invalid]], .drop⟩,
    ⟨[.iif ['l', 'o']], .accept⟩], ?_, ?_⟩
  · exact .cons rfl (.cons rfl (.cons rfl .nil))
  · rintro p ⟨hnew, hlo⟩
    simp [Rule.holds, Nft.Condition.holds, hnew, hlo]

theorem acceptsWhen_icmp :
    AcceptsWhen IsIcmp ["    ip protocol icmp accept", "    meta l4proto icmpv6 accept"] := by
  refine ⟨[⟨[.ipProtocol .icmp], .accept⟩, ⟨[.l4proto .icmpv6], .accept⟩], ?_, ?_⟩
  · exact .cons rfl (.cons rfl .nil)
  · intro p _
    cases hp : p.source <;> simp [Rule.holds, Nft.Condition.holds, IsIcmp, hp]

theorem acceptsWhen_ssh (opts : HostFirewallOptions) :
    AcceptsWhen (fun p => p.protocol = .tcp ∧ p.dport.toNat = opts.port)
      ["    tcp dport " ++ toString opts.port ++ " accept comment \"" ++ sshComment opts ++ "\""] := by
  have hport := isPortRange_of_isDigits (isDigits_toString opts.port)
  have hkey : Reads "tcp dport".toList [.tcp, .dport] := ⟨rfl, by decide, by decide⟩
  have hword := PortWord.of_isPortRange hport
  have hnumber : Reads (toString opts.port).toList [.word (toString opts.port).toList] :=
    Reads.word hword.ne_nil hword.chars
  have hcomment : ∃ text, Reads ("accept comment \"" ++ sshComment opts ++ "\"").toList
      [.accept, .comment, .quoted text] := by
    unfold sshComment
    split
    · exact ⟨"vops: keep-ssh-open (not closable)".toList, ⟨rfl, by decide, by decide⟩⟩
    · exact ⟨"vops: keep-ssh-open".toList, ⟨rfl, by decide, by decide⟩⟩
  obtain ⟨text, htext⟩ := hcomment
  have hread : Item.readAll Nft.readPorts (.word (toString opts.port).toList) =
      some [⟨opts.port, opts.port⟩] := by
    simp only [Item.readAll, Item.operands, Option.bind_eq_bind, Option.bind_some, List.mapM_cons,
      readPorts_toString]
    rfl
  have hrule := @Nft.readRule_tcp _ [.accept, .comment, .quoted text] ⟨[], .accept⟩ _ hread rfl
  have hline : AcceptLine ("tcp dport " ++ toString opts.port ++ " accept comment \"" ++
      sshComment opts ++ "\"") (Rule.when (.dport .tcp [⟨opts.port, opts.port⟩]) ⟨[], .accept⟩) := by
    refine @AcceptLine.of_reads _ [.tcp, .dport, .word (toString opts.port).toList, .accept, .comment,
      .quoted text] _ ?_ (congrArg (Option.map Nft.Line.rule) hrule) rfl
    simpa using hkey.append (hnumber.append htext)
  have haccepts := hline.acceptsWhen
    (P := fun p => p.protocol = .tcp ∧ p.dport.toNat = opts.port) fun p => by
      have hnil : Rule.holds ⟨[], .accept⟩ p = true := rfl
      rw [Nft.Rule.holds_when, hnil]
      have hport : opts.port ≤ p.dport.toNat ∧ p.dport.toNat ≤ opts.port ↔
          p.dport.toNat = opts.port := by omega
      simp [Nft.Condition.holds, Nft.PortRange.contains, hport]
  have hindent : "    tcp dport " = "    " ++ "tcp dport " := by decide
  simpa only [hindent, String.append_assoc] using haccepts

/-- The lines of the chain behind its base line. -/
theorem acceptsWhen_inputChain {rules : List VopsFirewallRule} {lines : List InboundLine}
    (opts : HostFirewallOptions) (h : buildInboundLines (inboundRules rules) = .ok lines)
    (hvalid : ∀ r ∈ rules, r.ValidSources)
    (hmix : ∀ r ∈ rules, r.direction = .inbound → r.protocol ≠ .icmp → r.Unmixed) :
    ∃ texts, inputChain (inboundRules rules) opts lines =
        ("    type filter hook input priority 0; policy " ++ opts.policy.text ++ ";") :: texts ∧
      AcceptsWhen (fun p =>
        (IsIcmp p ∧ pingWanted (inboundRules rules) opts) ∨
          (p.protocol = .tcp ∧ p.dport.toNat = opts.port ∧ keepSshLine (inboundRules rules) opts) ∨
          ∃ r ∈ rules, r.direction = .inbound ∧ r.Opens VopsFirewallRule.allowsSource p) texts := by
  have hsub : ∀ r ∈ inboundRules rules, r ∈ rules := fun r hr => (List.mem_filter.mp hr).1
  have hping : AcceptsWhen (fun p => IsIcmp p ∧ pingWanted (inboundRules rules) opts)
      (if pingWanted (inboundRules rules) opts then
        ["    ip protocol icmp accept", "    meta l4proto icmpv6 accept"] else []) := by
    split
    · exact acceptsWhen_icmp.congr (by simp [*])
    · exact acceptsWhen_nil.congr (by simp [*])
  have hssh : AcceptsWhen (fun p => p.protocol = .tcp ∧ p.dport.toNat = opts.port ∧
        keepSshLine (inboundRules rules) opts)
      (if keepSshLine (inboundRules rules) opts then
        ["    tcp dport " ++ toString opts.port ++ " accept comment \"" ++ sshComment opts ++ "\""]
        else []) := by
    split
    · exact (acceptsWhen_ssh opts).congr (by simp [*])
    · exact acceptsWhen_nil.congr (by simp [*])
  have hlines := acceptsWhen_buildInboundLines h (fun r hr => hvalid r (hsub r hr))
    (fun r hr => hmix r (hsub r hr) (by simpa using (List.mem_filter.mp hr).2))
  refine ⟨_, rfl, (((acceptsWhen_preamble.append hping).append hssh).append hlines).congr ?_⟩
  intro p
  simp [inboundRules, or_assoc, and_assoc]

/-- The file makes the table anew, with the two chains that it writes, whatever was there. -/
theorem load_ruleset (before : Nft.Ruleset) {inBase outBase : String}
    {inTexts outTexts : List String} {inPolicy outPolicy : Nft.Verdict} {inRules outRules : List Rule}
    (hin : Nft.readLine inBase.toList = some (.base inPolicy) ∧
      Nft.lines inBase.toList = [inBase.toList])
    (hout : Nft.readLine outBase.toList = some (.base outPolicy) ∧
      Nft.lines outBase.toList = [outBase.toList])
    (hinRules : List.Forall₂ Nft.IsRule (inTexts.flatMap fun t => Nft.lines t.toList) inRules)
    (houtRules : List.Forall₂ Nft.IsRule (outTexts.flatMap fun t => Nft.lines t.toList) outRules) :
    Nft.load before ("\n".intercalate (ruleset (inBase :: inTexts) (outBase :: outTexts)) ++
        "\n").toList =
      some (before.without inet TABLE.toList ++ [⟨inet, TABLE.toList,
        [⟨inputName, inPolicy, inRules⟩, ⟨['o', 'u', 't', 'p', 'u', 't'], outPolicy, outRules⟩]⟩]) := by
  have htext : ("\n".intercalate (ruleset (inBase :: inTexts) (outBase :: outTexts)) ++
      "\n").toList = ['\n'].intercalate
        ((ruleset (inBase :: inTexts) (outBase :: outTexts)).map String.toList) ++ ['\n'] := by
    simp [String.toList_intercalate]
  have hlines : Nft.lines ("\n".intercalate (ruleset (inBase :: inTexts) (outBase :: outTexts)) ++
      "\n").toList =
      ["#!/usr/sbin/nft -f".toList, [], ("table inet " ++ TABLE).toList,
        ("delete table inet " ++ TABLE).toList, [], ("table inet " ++ TABLE ++ " \x7b").toList,
        "  chain input \x7b".toList, inBase.toList] ++
      ((inTexts.flatMap fun t => Nft.lines t.toList) ++
      (["  \x7d".toList, "  chain output \x7b".toList, outBase.toList] ++
      ((outTexts.flatMap fun t => Nft.lines t.toList) ++ ["  \x7d".toList, "\x7d".toList, []]))) := by
    rw [htext, Nft.lines_intercalate _ (by simp [ruleset])]
    have hfixed : ∀ t : String, '\n' ∉ t.toList → Nft.lines t.toList = [t.toList] :=
      fun t => Nft.lines_of_notMem
    simp only [ruleset, List.map_append, List.map_cons, List.map_nil, List.flatMap_append,
      List.flatMap_cons, List.flatMap_nil, List.flatMap_map, hin.2, hout.2,
      hfixed "#!/usr/sbin/nft -f" (by decide), hfixed "" (by decide),
      hfixed ("table inet " ++ TABLE) (by decide), hfixed ("delete table inet " ++ TABLE) (by decide),
      hfixed ("table inet " ++ TABLE ++ " \x7b") (by decide),
      hfixed "  chain input \x7b" (by decide), hfixed "  \x7d" (by decide),
      hfixed "  chain output \x7b" (by decide), hfixed "\x7d" (by decide)]
    simp
  have hblank : Nft.readLine [] = some .blank := rfl
  have hshebang : Nft.readLine "#!/usr/sbin/nft -f".toList = some .blank := rfl
  have hdeclare : Nft.readLine ("table inet " ++ TABLE).toList =
      some (.declareTable inet TABLE.toList) := rfl
  have hdelete : Nft.readLine ("delete table inet " ++ TABLE).toList =
      some (.deleteTable inet TABLE.toList) := rfl
  have hopen : Nft.readLine ("table inet " ++ TABLE ++ " \x7b").toList =
      some (.openTable inet TABLE.toList) := rfl
  have hchain : Nft.readLine "  chain input \x7b".toList = some (.openChain inputName) := rfl
  have hchain' : Nft.readLine "  chain output \x7b".toList =
      some (.openChain ['o', 'u', 't', 'p', 'u', 't']) := rfl
  have hclose : Nft.readLine "  \x7d".toList = some .close := rfl
  have hend : Nft.readLine "\x7d".toList = some .close := rfl
  have hdeleted : Nft.Loading.step ⟨before.declare inet TABLE.toList, none⟩
      (.deleteTable inet TABLE.toList) = some ⟨before.without inet TABLE.toList, none⟩ := by
    simp [Nft.Loading.step, Nft.Ruleset.delete_declare]
  have hopened : Nft.Loading.step ⟨before.without inet TABLE.toList, none⟩
      (.openTable inet TABLE.toList) =
        some ⟨before.without inet TABLE.toList, some (⟨inet, TABLE.toList, []⟩, none)⟩ := by
    simp [Nft.Loading.step]
  simp only [Nft.load, hlines, List.cons_append, List.nil_append]
  rw [Nft.Loading.run_cons hshebang rfl, Nft.Loading.run_cons hblank rfl,
    Nft.Loading.run_cons hdeclare rfl, Nft.Loading.run_cons hdelete hdeleted,
    Nft.Loading.run_cons hblank rfl, Nft.Loading.run_cons hopen hopened,
    Nft.Loading.run_cons hchain rfl, Nft.Loading.run_cons hin.1 rfl, Nft.Loading.run_rules hinRules,
    Nft.Loading.run_cons hclose rfl, Nft.Loading.run_cons hchain' rfl,
    Nft.Loading.run_cons hout.1 rfl, Nft.Loading.run_rules houtRules,
    Nft.Loading.run_cons hclose rfl, Nft.Loading.run_cons hend rfl, Nft.Loading.run_cons hblank rfl]
  rfl

theorem readLine_inputBase (policy : InboundPolicy) :
    ∃ v : Nft.Verdict, (v = .accept ↔ policy = .accept) ∧
      Nft.readLine ("    type filter hook input priority 0; policy " ++ policy.text ++ ";").toList =
        some (.base v) ∧
      Nft.lines ("    type filter hook input priority 0; policy " ++ policy.text ++ ";").toList =
        [("    type filter hook input priority 0; policy " ++ policy.text ++ ";").toList] := by
  cases policy
  · exact ⟨.drop, by decide, rfl, rfl⟩
  · exact ⟨.accept, by decide, rfl, rfl⟩

theorem readLine_outputBase (allowed : Bool) :
    ∃ v : Nft.Verdict,
      Nft.readLine ("    type filter hook output priority 0; policy " ++
        (if allowed then "accept" else "drop") ++ ";").toList = some (.base v) ∧
      Nft.lines ("    type filter hook output priority 0; policy " ++
        (if allowed then "accept" else "drop") ++ ";").toList =
        [("    type filter hook output priority 0; policy " ++
          (if allowed then "accept" else "drop") ++ ";").toList] := by
  cases allowed
  · exact ⟨.drop, rfl, rfl⟩
  · exact ⟨.accept, rfl, rfl⟩

theorem rules_outputChain (allowed : Bool) :
    ∃ rs, List.Forall₂ Nft.IsRule ((if allowed then [] else
      ["    ct state established,related accept", "    oif \"lo\" accept"]).flatMap fun t =>
        Nft.lines t.toList) rs := by
  cases allowed
  · exact ⟨[⟨[.ctState [.established, .related]], .accept⟩, ⟨[.oif ['l', 'o']], .accept⟩],
      .cons rfl (.cons rfl .nil)⟩
  · exact ⟨[], .nil⟩

/-- The chain for inbound packets that a rendered file makes, on every host. -/
theorem exists_inputChain {rules : List VopsFirewallRule} {opts : HostFirewallOptions}
    {text : String} (h : renderNftables rules opts = .ok text)
    (hvalid : ∀ r ∈ rules, r.ValidSources)
    (hmix : ∀ r ∈ rules, r.direction = .inbound → r.protocol ≠ .icmp → r.Unmixed) :
    ∃ c output : Nft.Chain, c.name = inputName ∧
      (∀ before, Nft.load before text.toList =
        some (before.without inet TABLE.toList ++ [⟨inet, TABLE.toList, [c, output]⟩])) ∧
      ∀ p, Incoming p →
        (c.verdict p = .accept ↔ Admitted VopsFirewallRule.allowsSource rules opts p) := by
  obtain ⟨lines, hlines, h⟩ := Async.except_bind_eq_ok.mp h
  obtain rfl := Except.ok.inj h
  obtain ⟨texts, htexts, rs, hrs, hholds⟩ := acceptsWhen_inputChain opts hlines hvalid hmix
  obtain ⟨v, hv, hbase, hbaseLine⟩ := readLine_inputBase opts.policy
  obtain ⟨v', hbase', hbaseLine'⟩ := readLine_outputBase opts.outbound
  obtain ⟨rs', hrs'⟩ := rules_outputChain opts.outbound
  rw [htexts]
  refine ⟨⟨inputName, v, rs⟩, ⟨['o', 'u', 't', 'p', 'u', 't'], v', rs'⟩, rfl,
    fun before => load_ruleset before ⟨hbase, hbaseLine⟩ ⟨hbase', hbaseLine'⟩ hrs hrs', ?_⟩
  intro p hp
  obtain ⟨haccept, hiff⟩ := hholds p hp
  rw [Nft.Chain.verdict_eq_accept_iff haccept]
  exact or_congr hv hiff

/-- The rendered file is accepted on every host, and the chain for inbound packets accepts a new
packet from outside exactly when it is admitted. -/
theorem renderNftables_accepts_iff {rules : List VopsFirewallRule} {opts : HostFirewallOptions}
    {text : String} (h : renderNftables rules opts = .ok text)
    (hvalid : ∀ r ∈ rules, r.ValidSources)
    (hmix : ∀ r ∈ rules, r.direction = .inbound → r.protocol ≠ .icmp → r.Unmixed)
    (before : Nft.Ruleset) {p : Packet} (hp : Incoming p) :
    ∃ after v, Nft.load before text.toList = some after ∧
      Nft.Ruleset.verdict after inet TABLE.toList inputName p = some v ∧
      (v = .accept ↔ Admitted VopsFirewallRule.allowsSource rules opts p) := by
  obtain ⟨c, output, hname, hload, hverdict⟩ := exists_inputChain h hvalid hmix
  have hchain := Nft.Ruleset.verdict_append before ⟨inet, TABLE.toList, [c, output]⟩ inputName p
  refine ⟨_, c.verdict p, hload before, ?_, hverdict p hp⟩
  rw [hchain]
  simp [hname]

/-- HTTPS from the network that an entry for all of IPv4 stands for. -/
def webRules : List VopsFirewallRule := [⟨.inbound, .tcp, some "443", some ["0.0.0.0/0"]⟩]

def webPacket (source : Address) : Packet :=
  ⟨['e', 't', 'h', '0'], [], .new, source, .tcp, 443⟩

theorem webRules_valid : ∀ r ∈ webRules, r.ValidSources := by
  simp only [webRules, List.mem_singleton, forall_eq, VopsFirewallRule.ValidSources,
    VopsFirewallRule.sources, Option.getD_some]
  decide

theorem webRules_unmixed : ∀ r ∈ webRules, r.Unmixed := by
  intro r hr
  obtain rfl := List.mem_singleton.mp hr
  exact .inl (by simp [VopsFirewallRule.sources, isAnySource])

theorem exists_webText : ∃ text, renderNftables webRules {} = .ok text := by
  have hlines : ∃ lines, buildInboundLines (inboundRules webRules) = .ok lines := ⟨_, rfl⟩
  obtain ⟨lines, hlines⟩ := hlines
  exact ⟨_, by rw [renderNftables, hlines]; rfl⟩

/-- The chain of the web server, for a packet from an IPv4 network. -/
theorem renderNftables_accepts_iff_web :
    ∃ text after v, renderNftables webRules {} = .ok text ∧ Nft.load [] text.toList = some after ∧
      Nft.Ruleset.verdict after inet TABLE.toList inputName (webPacket (.v4 0x0A010203#32)) =
        some v ∧
      (v = .accept ↔
        Admitted VopsFirewallRule.allowsSource webRules {} (webPacket (.v4 0x0A010203#32))) := by
  obtain ⟨text, htext⟩ := exists_webText
  obtain ⟨after, v, hload, hverdict, hiff⟩ := renderNftables_accepts_iff htext webRules_valid
    (fun r hr _ _ => webRules_unmixed r hr) [] (p := webPacket (.v4 0x0A010203#32))
    ⟨rfl, by decide⟩
  exact ⟨text, after, v, htext, hload, hverdict, hiff⟩

/-- An entry for every IPv4 address opens the port to IPv6 too. -/
theorem any_ipv4_admits_ipv6 :
    ¬ ∀ (rules : List VopsFirewallRule) (opts : HostFirewallOptions) (text : String),
      renderNftables rules opts = .ok text → (∀ r ∈ rules, r.ValidSources) →
      ∀ (before : Nft.Ruleset) (p : Packet), Incoming p →
        ∃ after v, Nft.load before text.toList = some after ∧
          Nft.Ruleset.verdict after inet TABLE.toList inputName p = some v ∧
          (v = .accept ↔ Admitted VopsFirewallRule.listsSource rules opts p) := by
  intro h
  obtain ⟨text, htext⟩ := exists_webText
  have hin : Incoming (webPacket (.v6 1#128)) := ⟨rfl, by decide⟩
  obtain ⟨after, v, hload, hverdict, hiff⟩ := h webRules {} text htext webRules_valid [] _ hin
  obtain ⟨c, output, hname, hload', hverdict'⟩ := exists_inputChain htext webRules_valid
    fun r hr _ _ => webRules_unmixed r hr
  -- The file opens the port, the entry read as any source.
  have hopen : Admitted VopsFirewallRule.allowsSource webRules {} (webPacket (.v6 1#128)) := by
    refine .inr (.inr (.inr ⟨_, List.mem_singleton_self _, rfl, ⟨.tcp, rfl, rfl⟩, ?_, ?_⟩))
    · decide +kernel
    · exact .inr ⟨"0.0.0.0/0", List.mem_singleton_self _, .inl (by decide)⟩
  have hclosed : ¬ Admitted VopsFirewallRule.listsSource webRules {} (webPacket (.v6 1#128)) := by
    rintro (hpolicy | ⟨hicmp, -⟩ | ⟨-, hport, -⟩ | ⟨r, hr, -, -, -, hnil | ⟨s, hs, hcontains⟩⟩)
    · exact absurd hpolicy (by decide)
    · rcases hicmp with ⟨hicmp, -⟩ | hicmp
      · exact absurd hicmp (by decide)
      · exact absurd hicmp (by decide)
    · exact absurd hport (by decide)
    · obtain rfl := List.mem_singleton.mp hr
      exact absurd hnil (by simp [VopsFirewallRule.sources])
    · obtain rfl := List.mem_singleton.mp hr
      obtain rfl : s = "0.0.0.0/0" := by simpa [VopsFirewallRule.sources] using hs
      exact absurd hcontains (by decide)
  have hchain := Nft.Ruleset.verdict_append [] ⟨inet, TABLE.toList, [c, output]⟩ inputName
    (webPacket (.v6 1#128))
  obtain rfl := Option.some.inj ((hload' []).symm.trans hload)
  have hv : c.verdict (webPacket (.v6 1#128)) = v := by
    have hsome := hchain.symm.trans hverdict
    simpa [hname] using hsome
  rw [← hv] at hiff
  exact hclosed (hiff.mp ((hverdict' _ hin).mpr hopen))

end Vops
