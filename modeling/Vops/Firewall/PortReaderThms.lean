import Vops.Firewall.NftablesThms
import Vops.Firewall.ServiceRules
import Vops.HostOps.OpsLine

/-!
# The readers of a port specification

* `denotes` — the ports of the nftables expression that `portExpr` builds.
* `AcceptedPort` — a text that the check of the services lets through, or no text at all.
* `ReadAlike` — the texts on which all readers agree.
* `readers_agree_iff` — the guard for SSH and the refusal at the provider follow the ports that are really
  open exactly when each TCP rule has such a text.
-/

namespace Vops

open Nft (PortRange)
open AuthorizedKeys (trim trim_eq_self)

/-! ## What an expression denotes -/

/-- The ports of an expression. -/
def expressionPorts (expr : String) : Option (List PortRange) :=
  match Nft.itemsOf expr.toList with
  | some [i] => i.readAll Nft.readPorts
  | _ => none

/-- A port lies in the expression that is built for a specification. -/
def denotes (port : Option String) (n : ℕ) : Bool :=
  match portExpr port with
  | .ok expr => (expressionPorts expr).any fun ports => ports.any (·.contains n)
  | .error _ => false

/-- A TCP rule opens a port. -/
def VopsFirewallRule.OpensPort (r : VopsFirewallRule) (n : ℕ) : Prop :=
  r.protocol = .tcp ∧ denotes r.port n = true

/-- No specification, or one that the check of the services lets through. -/
def AcceptedPort (port : Option String) : Prop :=
  ∀ text ∈ port, portOk (jsTrim text).toList = true

/-- The port numbers. -/
def IsPort (n : ℕ) : Prop := n ≤ 65535

instance (n : ℕ) : Decidable (IsPort n) := inferInstanceAs (Decidable (n ≤ 65535))

theorem denotes_eq {port : Option String} {expr : String} (h : portExpr port = .ok expr) {n : ℕ}
    (hn : IsPort n) : denotes port n = portSpecContains port n := by
  obtain ⟨i, ports, hop⟩ := portOperand_of_portExpr h
  have hports : expressionPorts expr = some ports := by
    unfold expressionPorts
    rw [hop.reads.items]
    exact hop.read
  rw [denotes, h]
  simp only [hports, Option.any_some]
  exact hop.contains n hn

/-! ## Members -/

theorem portNumber_eq (cs : List Char) : portNumber cs = Nat.ofDigitChars 10 cs 0 := by
  have key (cs : List Char) (acc : ℕ) :
      cs.foldl (fun acc c => acc * 10 + (c.toNat - 48)) acc = Nat.ofDigitChars 10 cs acc := by
    induction cs generalizing acc with
    | nil => rfl
    | cons c cs ih =>
        rw [List.foldl_cons, ih, Nat.ofDigitChars_cons, Nat.mul_comm 10 acc]
        rfl
  exact key cs 0

theorem portNumber_toString (n : ℕ) : portNumber (toString n).toList = n := by
  rw [portNumber_eq]
  simp [Nat.ofDigitChars_ten_toDigits]

/-- A port lies in a member of a list. -/
def memberContains (w : List Char) (n : ℕ) : Bool :=
  match portRange w with
  | some (first, last) => portNumber first ≤ n && n ≤ portNumber last
  | none => portNumber w == n

theorem splitOn_of_isDigits {w : List Char} (h : isDigits w) : w.splitOn '-' = [w] := by
  apply List.splitOn_eq_singleton
  intro hc
  exact absurd ((isDigits_iff.mp h).2 _ hc) (by decide)

theorem splitOn_of_portRange {w first last : List Char} (h : portRange w = some (first, last)) :
    w.splitOn '-' = [first, last] := by
  unfold portRange at h
  split at h
  · next a b hsplit =>
      split_ifs at h
      cases h
      exact hsplit
  · cases h

theorem portRange_of_isDigits {w : List Char} (h : isDigits w) : portRange w = none := by
  simp [portRange, splitOn_of_isDigits h]

theorem memberContains_of_isDigits {w : List Char} (h : isDigits w) (n : ℕ) :
    memberContains w n = true ↔ portNumber w = n := by
  simp [memberContains, portRange_of_isDigits h]

/-- A member is a number or a range. -/
theorem isDigits_or_portRange {w : List Char} (h : isPortRange w) :
    isDigits w = true ∨ ∃ first last, portRange w = some (first, last) := by
  unfold isPortRange at h
  split at h
  case h_1 port hsplit =>
    have hw : w = port := by
      have hjoin : ['-'].intercalate (w.splitOn '-') = w := List.intercalate_splitOn _
      rw [hsplit] at hjoin
      simpa using hjoin.symm
    exact .inl (hw ▸ h)
  case h_2 first last hsplit =>
    exact .inr ⟨first, last, by simp only [portRange, hsplit, h, if_true]⟩
  case h_3 => exact absurd h (by simp)

/-- A member is read by `nft` as the ports that lie in it. -/
theorem readPorts_contains {w : List Char} (h : isPortRange w) (n : ℕ) :
    (Nft.readPorts w).any (·.contains n) = memberContains w n := by
  unfold isPortRange at h
  split at h
  case h_1 port hsplit =>
    have hrange : portRange w = none := by simp [portRange, hsplit]
    have hw : w = port := by
      have hjoin : ['-'].intercalate (w.splitOn '-') = w := List.intercalate_splitOn _
      rw [hsplit] at hjoin
      simpa using hjoin.symm
    subst hw
    rw [readPorts_of_isDigits h, memberContains, hrange, portNumber_eq]
    rw [Bool.eq_iff_iff]
    simp only [Option.any_some, PortRange.contains, Bool.and_eq_true, decide_eq_true_eq, beq_iff_eq]
    omega
  case h_2 first last hsplit =>
    have hrange : portRange w = some (first, last) := by simp only [portRange, hsplit, h, if_true]
    simp only [Bool.and_eq_true] at h
    rw [memberContains, hrange]
    simp [Nft.readPorts, hsplit, readNat_of_isDigits h.1, readNat_of_isDigits h.2, PortRange.contains,
      portNumber_eq]
  case h_3 => exact absurd h (by simp)

/-! ## Accepted texts -/

/-- The members of a text. -/
def members (text : String) : List (List Char) := (jsTrim text).toList.splitOn ','

theorem toList_jsTrim (text : String) : (jsTrim text).toList = trim text.toList := by
  rw [jsTrim, String.toList_ofList]
  rfl

/-- Splitting at commas and then at hyphens is splitting at both. -/
theorem flatMap_splitOn (cs : List Char) : (cs.splitOn ',').flatMap (List.splitOn '-') =
    cs.splitOnP fun c => c == ',' || c == '-' := by
  induction cs with
  | nil => simp [List.splitOn_nil]
  | cons c cs ih =>
      obtain ⟨w, ws, hsplit⟩ := List.exists_cons_of_ne_nil (List.splitOn_ne_nil ',' cs)
      obtain ⟨v, vs, hdash⟩ := List.exists_cons_of_ne_nil (List.splitOn_ne_nil '-' w)
      rw [List.splitOn_cons_eq_if_modifyHead, List.splitOnP_cons_eq_if_modifyHead, ← ih, hsplit]
      by_cases hcomma : c = ','
      · simp [hcomma, List.splitOn_nil]
      · by_cases hhyphen : c = '-'
        · simp [hhyphen, List.splitOn_cons_eq_if_modifyHead]
        · simp [hcomma, hhyphen, List.splitOn_cons_eq_if_modifyHead, hdash]

section Accepted

variable {text : String} (h : portOk (jsTrim text).toList = true)

include h

theorem isPortRange_of_mem {w : List Char} (hw : w ∈ members text) : isPortRange w = true := by
  unfold portOk isPortSpec at h
  rw [Bool.and_eq_true, List.all_eq_true] at h
  exact h.1 w hw

theorem jsTrim_ne_empty : jsTrim text ≠ "" := by
  intro hnil
  rw [hnil] at h
  exact absurd h (by decide)

/-- Its ports are those of its members. -/
theorem portSpecContains_eq (n : ℕ) :
    portSpecContains (some text) n = (members text).any (memberContains · n) := by
  have hne : (jsTrim text).toList ≠ [] := by simpa using jsTrim_ne_empty h
  have hany : (members text).any (fun piece => (Nft.readPorts piece).any (·.contains n)) =
      (members text).any (memberContains · n) := by
    rw [Bool.eq_iff_iff, List.any_eq_true, List.any_eq_true]
    refine exists_congr fun w => and_congr_right fun hw => ?_
    rw [readPorts_contains (isPortRange_of_mem h hw)]
  unfold portSpecContains
  rw [Option.getD_some]
  simp only [List.isEmpty_eq_false_iff.mpr hne, Bool.false_or]
  exact hany

/-- The check bounds every number. -/
theorem isPort_of_mem {w v : List Char} (hw : w ∈ members text) (hv : v ∈ w.splitOn '-') :
    IsPort (portNumber v) := by
  unfold portOk at h
  rw [Bool.and_eq_true, List.all_eq_true, ← flatMap_splitOn] at h
  have hle := h.2 v (List.mem_flatMap.mpr ⟨w, hw, hv⟩)
  simp only [Bool.and_eq_true, decide_eq_true_eq] at hle
  exact hle.2

end Accepted

/-! ## Trimmed pieces -/

section Trim

variable {cs pre post : List Char} {sep : Char}

theorem trim_append_left (hpre : ∀ c ∈ pre, isJsSpace c = true) (cs : List Char) :
    trim (pre ++ cs) = trim cs := by
  rw [trim, trim, List.dropWhile_append_of_pos hpre]

theorem trim_append_right (hpost : ∀ c ∈ post, isJsSpace c = true) (cs : List Char) :
    trim (cs ++ post) = trim cs := by
  have hr (a : List Char) : (a ++ post).rdropWhile isJsSpace = a.rdropWhile isJsSpace := by
    unfold List.rdropWhile
    rw [List.reverse_append, List.dropWhile_append_of_pos]
    simpa using hpost
  rw [trim, trim, List.dropWhile_append]
  split
  · next hnil =>
      have hall : post.dropWhile isJsSpace = [] := by simpa [List.dropWhile_eq_nil_iff] using hpost
      rw [List.isEmpty_iff.mp hnil, hall]
  · exact hr _

/-- A text is what is left of it when it is trimmed, between white space. -/
theorem exists_trim (cs : List Char) : ∃ pre post, cs = pre ++ (trim cs ++ post) ∧
    (∀ c ∈ pre, isJsSpace c = true) ∧ ∀ c ∈ post, isJsSpace c = true := by
  refine ⟨cs.takeWhile isJsSpace, (cs.dropWhile isJsSpace).rtakeWhile isJsSpace, ?_, ?_, ?_⟩
  · have hr : (cs.dropWhile isJsSpace).rdropWhile isJsSpace ++
        (cs.dropWhile isJsSpace).rtakeWhile isJsSpace = cs.dropWhile isJsSpace := by
      unfold List.rdropWhile List.rtakeWhile
      rw [← List.reverse_append, List.takeWhile_append_dropWhile, List.reverse_reverse]
    rw [trim, hr, List.takeWhile_append_dropWhile]
  · exact fun c hc => List.mem_takeWhile_imp hc
  · exact fun c hc => List.mem_rtakeWhile_imp hc

theorem splitOn_append_left (hpre : sep ∉ pre) (cs : List Char) :
    (pre ++ cs).splitOn sep = (cs.splitOn sep).modifyHead (pre ++ ·) := by
  induction pre with
  | nil => cases hcs : cs.splitOn sep <;> simp [hcs]
  | cons c pre ih =>
      obtain ⟨hc, hpre⟩ := List.ne_and_not_mem_of_not_mem_cons hpre
      rw [List.cons_append, List.splitOn_cons_eq_if_modifyHead, if_neg (by simpa using Ne.symm hc), ih hpre,
        List.modifyHead_modifyHead]
      rfl

theorem splitOn_append_right (hpost : sep ∉ post) (cs : List Char) :
    ∃ init last, cs.splitOn sep = init ++ [last] ∧ (cs ++ post).splitOn sep = init ++ [last ++ post] := by
  induction cs with
  | nil => exact ⟨[], [], by simp [List.splitOn_nil], by simp [List.splitOn_eq_singleton hpost]⟩
  | cons c cs ih =>
      obtain ⟨init, last, hcs, happ⟩ := ih
      rw [List.cons_append, List.splitOn_cons_eq_if_modifyHead, List.splitOn_cons_eq_if_modifyHead, hcs, happ]
      by_cases hc : c = sep
      · exact ⟨[] :: init, last, by simp [hc], by simp [hc]⟩
      · cases init with
        | nil => exact ⟨[], c :: last, by simp [hc], by simp [hc]⟩
        | cons w init => exact ⟨(c :: w) :: init, last, by simp [hc], by simp [hc]⟩

/-- The pieces of a text and those of the trimmed text are, trimmed, the same. -/
theorem map_trim_splitOn (hsep : isJsSpace sep = false) (cs : List Char) :
    (cs.splitOn sep).map trim = ((trim cs).splitOn sep).map trim := by
  obtain ⟨pre, post, hcs, hpre, hpost⟩ := exists_trim cs
  have hnot {ws : List Char} (h : ∀ c ∈ ws, isJsSpace c = true) : sep ∉ ws := fun hc => by
    rw [h sep hc] at hsep
    cases hsep
  obtain ⟨init, last, hinit, happ⟩ := splitOn_append_right (hnot hpost) (trim cs)
  conv_lhs => rw [hcs]
  rw [splitOn_append_left (hnot hpre), happ, hinit]
  cases init with
  | nil => simp [trim_append_left hpre, trim_append_right hpost]
  | cons w init => simp [trim_append_left hpre, trim_append_right hpost]

end Trim

/-! ## One rule -/

theorem isDigits_of_portRange {w : List Char} (h : (portRange w).isSome) : isDigits w = false := by
  by_contra hd
  rw [portRange_of_isDigits (by simpa using hd)] at h
  cases h

theorem comma_notMem_toString (n : ℕ) : ',' ∉ (toString n).toList := by
  intro hc
  exact absurd ((isDigits_iff.mp (isDigits_toString n)).2 _ hc) (by decide)

/-- A member has no white space in it. -/
theorem trim_member {w : List Char} (h : isPortRange w) : trim w = w := by
  have hspace : ∀ c ∈ w, isJsSpace c = false := by
    refine Ip.forall_mem_of_splitOn '-' (by decide) fun piece hp c hc => ?_
    have hdigits : isDigits piece := by
      unfold isPortRange at h
      split at h
      · next hsplit => rw [hsplit] at hp; simpa [List.mem_singleton.mp hp] using h
      · next hsplit =>
          rw [hsplit] at hp
          rw [Bool.and_eq_true] at h
          rcases List.mem_pair.mp hp with rfl | rfl
          · exact h.1
          · exact h.2
      · exact absurd h (by simp)
    exact isJsSpace_of_isAlphanum (by simp [Char.isAlphanum, (isDigits_iff.mp hdigits).2 c hc])
  refine trim_eq_self (fun c hc => ?_) fun c hc => ?_
  · exact hspace c (List.mem_of_mem_head? hc)
  · exact hspace c (List.mem_of_mem_getLast? hc)

theorem eq_of_members {text : String} {w : List Char} (h : members text = [w]) : (jsTrim text).toList = w := by
  have hjoin : [','].intercalate ((jsTrim text).toList.splitOn ',') = _ := List.intercalate_splitOn _
  unfold members at h
  rw [h] at hjoin
  simpa using hjoin.symm

theorem members_of_notMem {text : String} {w : List Char} (h : (jsTrim text).toList = w) (hw : ',' ∉ w) :
    members text = [w] := by
  rw [members, h, List.splitOn_eq_singleton hw]

/-- A text that is let through is one member, or it has the form of a list. -/
theorem singleton_or_list {text : String} (h : portOk (jsTrim text).toList = true) :
    (∃ w, members text = [w] ∧ isPortRange w = true) ∨ isPortList (jsTrim text).toList = true := by
  have hspec : isPortSpec (jsTrim text).toList = true := by
    unfold portOk at h
    exact ((Bool.and_eq_true _ _).mp h).1
  rcases hms : members text with _ | ⟨w, _ | ⟨v, ws⟩⟩
  · exact absurd hms (List.splitOn_ne_nil _ _)
  · exact .inl ⟨w, rfl, isPortRange_of_mem h (by simp [hms])⟩
  · refine .inr ?_
    unfold members at hms
    rw [isPortList, hspec, hms]
    simp

theorem exists_portExpr {text : String} (h : portOk (jsTrim text).toList = true) :
    ∃ expr, portExpr (some text) = .ok expr := by
  simp only [portExpr, Option.getD_some]
  split_ifs with hempty hdigits hrange hlist
  · exact ⟨_, rfl⟩
  · exact ⟨_, rfl⟩
  · exact ⟨_, rfl⟩
  · exact ⟨_, rfl⟩
  · exfalso
    rcases singleton_or_list h with ⟨w, hw, hportRange⟩ | h
    · rw [eq_of_members hw] at hdigits hrange
      rcases isDigits_or_portRange hportRange with hd | ⟨first, last, hr⟩
      · exact hdigits hd
      · exact hrange (by simp [hr])
    · exact hlist h

section Rule

variable {r : VopsFirewallRule} {text : String}
  (htcp : r.protocol = .tcp) (hport : r.port = some text) (h : portOk (jsTrim text).toList = true)

include htcp hport h

theorem opensPort_iff {n : ℕ} (hn : IsPort n) :
    r.OpensPort n ↔ ∃ w ∈ members text, memberContains w n = true := by
  obtain ⟨expr, hexpr⟩ := exists_portExpr h
  unfold VopsFirewallRule.OpensPort
  rw [hport, denotes_eq hexpr hn, portSpecContains_eq h, List.any_eq_true]
  exact and_iff_right htcp

theorem coversPort_iff (n : ℕ) :
    coversPort r n = true ↔
      ((∀ w ∈ members text, isDigits w = true) ∧ (toString n).toList ∈ members text) ∨
        ∃ w, members text = [w] ∧ (portRange w).isSome ∧ memberContains w n = true := by
  have hspec : text ≠ "" := by
    rintro rfl
    exact jsTrim_ne_empty h (by decide)
  unfold coversPort
  simp only [htcp, hport, Option.getD_some, ne_eq, not_true_eq_false, hspec, or_self, if_false]
  split_ifs with hself henum
  · have hms := members_of_notMem hself (comma_notMem_toString n)
    refine iff_of_true rfl (.inl ?_)
    rw [hms, List.forall_mem_singleton]
    exact ⟨isDigits_toString n, List.mem_singleton_self _⟩
  · unfold isPortEnumeration at henum
    rw [Bool.and_eq_true, decide_eq_true_eq, List.all_eq_true] at henum
    have hnot : ¬ ∃ w, members text = [w] ∧ (portRange w).isSome ∧ memberContains w n = true := by
      rintro ⟨w, hw, -⟩
      have hlen := henum.1
      unfold members at hw
      rw [hw] at hlen
      simp at hlen
    rw [or_iff_left hnot, List.contains_iff_mem]
    exact ⟨fun hmem => ⟨henum.2, hmem⟩, fun hmem => hmem.2⟩
  · have hnot : ¬ ((∀ w ∈ members text, isDigits w = true) ∧ (toString n).toList ∈ members text) := by
      rintro ⟨hdigits, hmem⟩
      rcases singleton_or_list h with ⟨w, hw, -⟩ | hlist
      · rw [hw, List.mem_singleton] at hmem
        exact hself (by rw [eq_of_members hw, hmem])
      · unfold isPortList at hlist
        rw [Bool.and_eq_true] at hlist
        exact henum (Bool.and_eq_true _ _ |>.mpr ⟨hlist.1, List.all_eq_true.mpr hdigits⟩)
    rw [or_iff_right hnot]
    constructor
    · intro hcovers
      rcases hr : portRange (jsTrim text).toList with _ | ⟨first, last⟩
      · rw [hr] at hcovers
        cases hcovers
      · rw [hr] at hcovers
        have hrange : isPortRange (jsTrim text).toList = true := isPortRange_of_portRange (by simp [hr])
        refine ⟨_, members_of_notMem rfl (comma_notMem_of_portRange hrange), by simp [hr], ?_⟩
        rw [memberContains, hr]
        exact hcovers
    · rintro ⟨w, hw, hr, hmem⟩
      obtain ⟨⟨first, last⟩, hr⟩ := Option.isSome_iff_exists.mp hr
      rw [eq_of_members hw, hr]
      rw [memberContains, hr] at hmem
      exact hmem

theorem rulesAllowPort_iff (n : ℕ) :
    rulesAllowPort [r] n = true ↔ (toString n).toList ∈ members text ∨
      ∃ w ∈ members text, (portRange w).isSome ∧ memberContains w n = true := by
  have hspec : text ≠ "" := by
    rintro rfl
    exact jsTrim_ne_empty h (by decide)
  have hmap : (members text).map trim = members text := by
    refine (List.map_congr_left fun w hw => ?_).trans (List.map_id _)
    exact trim_member (isPortRange_of_mem h hw)
  have hpieces : (text.toList.splitOn ',').map trim = members text := by
    rw [map_trim_splitOn (by decide), ← toList_jsTrim]
    exact hmap
  have hpart (part : List Char) : (jsTrim (String.ofList part)).toList = trim part := by
    rw [toList_jsTrim, String.toList_ofList]
  have hany : rulesAllowPort [r] n = (members text).any fun w => w == (toString n).toList ||
      (portRange w).any fun m => portNumber m.1 ≤ n && n ≤ portNumber m.2 := by
    rw [← hpieces, List.any_map]
    simp [rulesAllowPort, htcp, hport, hspec, hpart, Function.comp_def]
  have hmember (w : List Char) : ((portRange w).any fun m => portNumber m.1 ≤ n && n ≤ portNumber m.2) = true ↔
      (portRange w).isSome ∧ memberContains w n = true := by
    unfold memberContains
    cases portRange w <;> simp
  rw [hany, List.any_eq_true]
  constructor
  · rintro ⟨w, hw, hallows⟩
    rw [Bool.or_eq_true, hmember] at hallows
    rcases hallows with heq | hr
    · exact .inl (eq_of_beq heq ▸ hw)
    · exact .inr ⟨w, hw, hr⟩
  · rintro (hmem | ⟨w, hw, hr⟩)
    · exact ⟨_, hmem, by simp⟩
    · exact ⟨w, hw, by rw [Bool.or_eq_true, hmember]; exact .inr hr⟩

end Rule

/-! ## Agreement -/

/-- All members are numbers, each of which is a member in plain decimals as well. -/
def PlainNumbers (text : String) : Prop :=
  ∀ w ∈ members text, isDigits w = true ∧ (toString (portNumber w)).toList ∈ members text

/-- The text is a range. -/
def SingleRange (text : String) : Prop := ∃ w, members text = [w] ∧ (portRange w).isSome

/-- All members are ranges that end before they start. -/
def EmptyRanges (text : String) : Prop :=
  ∀ w ∈ members text, ∃ first last, portRange w = some (first, last) ∧ portNumber last < portNumber first

/-- A text on which the readers of a port specification agree. -/
def ReadAlike (port : Option String) : Prop :=
  ∃ text, port = some text ∧ (PlainNumbers text ∨ SingleRange text ∨ EmptyRanges text)

/-- The readers answer for the ports that the rule opens. -/
structure RuleAgrees (r : VopsFirewallRule) : Prop where
  covers : ∀ n, IsPort n → (coversPort r n = true ↔ r.OpensPort n)
  allows : ∀ n, IsPort n → (rulesAllowPort [r] n = true ↔ r.OpensPort n)

section Agreement

variable {r : VopsFirewallRule}

theorem RuleAgrees.of_not_tcp (h : r.protocol ≠ .tcp) : RuleAgrees r where
  covers n _ := by simp [coversPort, VopsFirewallRule.OpensPort, h]
  allows n _ := by simp [rulesAllowPort, VopsFirewallRule.OpensPort, h]

/-- A rule without a port opens all ports, and the readers miss it. -/
theorem RuleAgrees.port_ne_none (h : RuleAgrees r) (htcp : r.protocol = .tcp) : r.port ≠ none := by
  intro hnone
  have hopens : r.OpensPort 22 := by
    refine ⟨htcp, ?_⟩
    rw [hnone]
    have hexpr : portExpr none = .ok "0-65535" := rfl
    exact denotes_eq hexpr (by decide)
  have hcovers := (h.covers 22 (by decide)).mpr hopens
  simp [coversPort, hnone] at hcovers

section Text

variable {text : String} (htcp : r.protocol = .tcp) (hport : r.port = some text)
  (h : portOk (jsTrim text).toList = true)

include htcp hport h

theorem RuleAgrees.of_plainNumbers (hplain : PlainNumbers text) : RuleAgrees r := by
  have hopens {n : ℕ} (hn : IsPort n) : r.OpensPort n ↔ (toString n).toList ∈ members text := by
    rw [opensPort_iff htcp hport h hn]
    constructor
    · rintro ⟨w, hw, hmem⟩
      rw [memberContains_of_isDigits (hplain w hw).1] at hmem
      exact hmem ▸ (hplain w hw).2
    · intro hmem
      refine ⟨_, hmem, ?_⟩
      rw [memberContains_of_isDigits (isDigits_toString n), portNumber_toString]
  have hnoRange : ∀ w ∈ members text, ¬ (portRange w).isSome := by
    intro w hw hr
    rw [portRange_of_isDigits (hplain w hw).1] at hr
    cases hr
  refine ⟨fun n hn => ?_, fun n hn => ?_⟩
  · rw [coversPort_iff htcp hport h, hopens hn]
    constructor
    · rintro (hmem | ⟨w, hw, hr, -⟩)
      · exact hmem.2
      · exact absurd hr (hnoRange w (by simp [hw]))
    · exact fun hmem => .inl ⟨fun w hw => (hplain w hw).1, hmem⟩
  · rw [rulesAllowPort_iff htcp hport h, hopens hn]
    refine or_iff_left ?_
    rintro ⟨w, hw, hr, -⟩
    exact hnoRange w hw hr

theorem RuleAgrees.of_singleRange (hrange : SingleRange text) : RuleAgrees r := by
  obtain ⟨w, hms, hr⟩ := hrange
  have hnot (n : ℕ) : (toString n).toList ∉ members text := by
    rw [hms, List.mem_singleton]
    rintro rfl
    exact absurd (isDigits_of_portRange hr) (by rw [isDigits_toString]; simp)
  refine ⟨fun n hn => ?_, fun n hn => ?_⟩
  · rw [coversPort_iff htcp hport h, opensPort_iff htcp hport h hn, hms]
    simp [isDigits_of_portRange hr, hr]
  · rw [rulesAllowPort_iff htcp hport h, opensPort_iff htcp hport h hn, or_iff_right (hnot n), hms]
    simp [hr]

theorem RuleAgrees.of_emptyRanges (hempty : EmptyRanges text) : RuleAgrees r := by
  have hnone (n : ℕ) : ∀ w ∈ members text, memberContains w n = false := by
    intro w hw
    obtain ⟨first, last, hr, hlt⟩ := hempty w hw
    rw [memberContains, hr]
    simp only [Bool.and_eq_false_iff, decide_eq_false_iff_not]
    omega
  have hnot (n : ℕ) : (toString n).toList ∉ members text := by
    intro hmem
    obtain ⟨first, last, hr, -⟩ := hempty _ hmem
    rw [portRange_of_isDigits (isDigits_toString n)] at hr
    cases hr
  have hcloses {n : ℕ} (hn : IsPort n) : ¬ r.OpensPort n := by
    rw [opensPort_iff htcp hport h hn]
    rintro ⟨w, hw, hmem⟩
    rw [hnone n w hw] at hmem
    cases hmem
  refine ⟨fun n hn => ?_, fun n hn => ?_⟩
  · rw [coversPort_iff htcp hport h, iff_false_right (hcloses hn)]
    rintro (⟨-, hmem⟩ | ⟨w, hw, -, hmem⟩)
    · exact hnot n hmem
    · exact absurd hmem (by simp [hnone n w (by simp [hw])])
  · rw [rulesAllowPort_iff htcp hport h, iff_false_right (hcloses hn)]
    rintro (hmem | ⟨w, hw, -, hmem⟩)
    · exact hnot n hmem
    · exact absurd hmem (by simp [hnone n w hw])

/-- Where `coversPort` answers for the ports that are open, the text has one of the three forms. -/
theorem RuleAgrees.forms (hagrees : RuleAgrees r) :
    PlainNumbers text ∨ SingleRange text ∨ EmptyRanges text := by
  by_cases hdigits : ∀ w ∈ members text, isDigits w = true
  · refine .inl fun w hw => ⟨hdigits w hw, ?_⟩
    have hn : IsPort (portNumber w) := isPort_of_mem h hw (by simp [splitOn_of_isDigits (hdigits w hw)])
    have hopens : r.OpensPort (portNumber w) :=
      (opensPort_iff htcp hport h hn).mpr ⟨w, hw, (memberContains_of_isDigits (hdigits w hw) _).mpr rfl⟩
    rcases (coversPort_iff htcp hport h _).mp ((hagrees.covers _ hn).mpr hopens) with hmem | ⟨v, hv, hr, -⟩
    · exact hmem.2
    · exact absurd (hdigits v (by simp [hv])) (by simp [isDigits_of_portRange hr])
  · by_cases hsingle : SingleRange text
    · exact .inr (.inl hsingle)
    · have hcloses {n : ℕ} (hn : IsPort n) : ∀ w ∈ members text, memberContains w n = false := by
        intro w hw
        by_contra hmem
        have hopens := (opensPort_iff htcp hport h hn).mpr ⟨w, hw, by simpa using hmem⟩
        rcases (coversPort_iff htcp hport h _).mp ((hagrees.covers _ hn).mpr hopens) with hall | ⟨v, hv, hr, -⟩
        · exact hdigits hall.1
        · exact hsingle ⟨v, hv, hr⟩
      refine .inr (.inr fun w hw => ?_)
      rcases isDigits_or_portRange (isPortRange_of_mem h hw) with hd | ⟨first, last, hr⟩
      · have hn : IsPort (portNumber w) := isPort_of_mem h hw (by simp [splitOn_of_isDigits hd])
        have hmem := hcloses hn w hw
        rw [Bool.eq_false_iff] at hmem
        exact absurd ((memberContains_of_isDigits hd _).mpr rfl) hmem
      · have hn : IsPort (portNumber first) := isPort_of_mem h hw (by simp [splitOn_of_portRange hr])
        have hmem := hcloses hn w hw
        rw [memberContains, hr] at hmem
        simp only [Bool.and_eq_false_iff, decide_eq_false_iff_not] at hmem
        exact ⟨first, last, hr, by omega⟩

end Text

/-- The readers agree on an accepted rule exactly when its text has one of the three forms. -/
theorem ruleAgrees_iff (haccepted : AcceptedPort r.port) :
    RuleAgrees r ↔ (r.protocol = .tcp → ReadAlike r.port) := by
  by_cases htcp : r.protocol = .tcp
  · constructor
    · intro hagrees _
      obtain ⟨text, hport⟩ := Option.ne_none_iff_exists'.mp (hagrees.port_ne_none htcp)
      exact ⟨text, hport, hagrees.forms htcp hport (haccepted text hport)⟩
    · intro halike
      obtain ⟨text, hport, hplain | hrange | hempty⟩ := halike htcp
      · exact .of_plainNumbers htcp hport (haccepted text hport) hplain
      · exact .of_singleRange htcp hport (haccepted text hport) hrange
      · exact .of_emptyRanges htcp hport (haccepted text hport) hempty
  · exact iff_of_true (.of_not_tcp htcp) fun h => absurd h htcp

end Agreement

/-! ## The guard and the refusal -/

/-- The readers answer for the ports that are open, and the guard for SSH and the refusal at the provider
follow the open ports. -/
structure ReadersAgree (rules : List VopsFirewallRule) : Prop where
  rule : ∀ r ∈ rules, RuleAgrees r
  guarded : ∀ opts : HostFirewallOptions, IsPort opts.port → opts.alwaysOpen = false →
    opts.keepSsh = true → opts.policy = .drop →
    (keepSshLine (inboundRules rules) opts = true ↔ ¬ ∃ r ∈ inboundRules rules, r.OpensPort opts.port)
  refused : ∀ services, firstServiceError services = none → servicesToRules services = rules →
    ∀ sshPort, IsPort sshPort →
    ((∃ e, providerRules services sshPort = .error e) ↔ ¬ ∃ r ∈ rules, r.OpensPort sshPort)

theorem rulesAllowPort_eq (rules : List VopsFirewallRule) (n : ℕ) :
    rulesAllowPort rules n = rules.any fun r => rulesAllowPort [r] n := by
  simp [rulesAllowPort]

theorem keepSshLine_iff {rules : List VopsFirewallRule} (h : ∀ r ∈ rules, RuleAgrees r)
    {opts : HostFirewallOptions} (hport : IsPort opts.port) (halways : opts.alwaysOpen = false)
    (hkeep : opts.keepSsh = true) (hdrop : opts.policy = .drop) :
    keepSshLine (inboundRules rules) opts = true ↔ ¬ ∃ r ∈ inboundRules rules, r.OpensPort opts.port := by
  have hcovers : ∀ r ∈ inboundRules rules, (coversPort r opts.port = true ↔ r.OpensPort opts.port) :=
    fun r hr => (h r (List.mem_of_mem_filter hr)).covers _ hport
  simp only [keepSshLine, halways, hkeep, hdrop, Bool.false_or, Bool.true_and, decide_true,
    Bool.not_eq_true', List.any_eq_false]
  push Not
  exact forall₂_congr fun r hr => not_congr (hcovers r hr)

theorem refused_iff {rules : List VopsFirewallRule} (h : ∀ r ∈ rules, RuleAgrees r)
    {services : List FirewallService} (hvalid : firstServiceError services = none)
    (hrules : servicesToRules services = rules) {sshPort : ℕ} (hport : IsPort sshPort) :
    (∃ e, providerRules services sshPort = .error e) ↔ ¬ ∃ r ∈ rules, r.OpensPort sshPort := by
  have hallows : rulesAllowPort rules sshPort = true ↔ ∃ r ∈ rules, r.OpensPort sshPort := by
    rw [rulesAllowPort_eq, List.any_eq_true]
    exact exists_congr fun r => and_congr_right fun hr => (h r hr).allows _ hport
  rw [← hallows]
  simp only [providerRules, hvalid, hrules]
  split_ifs with hallow
  · simp [hallow]
  · simp [hallow]

/-- For rules that the check lets through: all readers agree exactly when each TCP rule names its ports in one
of the three forms. -/
theorem readers_agree_iff (rules : List VopsFirewallRule) (haccepted : ∀ r ∈ rules, AcceptedPort r.port) :
    ReadersAgree rules ↔ ∀ r ∈ rules, r.protocol = .tcp → ReadAlike r.port := by
  constructor
  · intro hagree r hr
    exact (ruleAgrees_iff (haccepted r hr)).mp (hagree.rule r hr)
  · intro halike
    have hrule : ∀ r ∈ rules, RuleAgrees r := fun r hr => (ruleAgrees_iff (haccepted r hr)).mpr (halike r hr)
    exact ⟨hrule, fun opts => keepSshLine_iff hrule, fun services hvalid hrules sshPort =>
      refused_iff hrule hvalid hrules⟩

/-- The rule that the engine on the host leaves out is one that opens the port of SSH. -/
theorem opensPort_of_isManagedSshRule {r : VopsFirewallRule} {n : ℕ} (hn : IsPort n)
    (h : isManagedSshRule r n = true) : r.direction = .inbound ∧ r.OpensPort n := by
  simp only [isManagedSshRule, Bool.and_eq_true, decide_eq_true_eq, beq_iff_eq] at h
  obtain ⟨⟨hdir, htcp⟩, hport⟩ := h
  have hexpr : portExpr r.port = .ok (toString n) := by
    unfold portExpr
    simp only [hport]
    rw [if_neg, if_pos (isDigits_toString n)]
    intro hnil
    exact (isDigits_iff.mp (isDigits_toString n)).1 (by rw [hnil]; rfl)
  refine ⟨hdir, htcp, ?_⟩
  rw [denotes_eq hexpr hn, portSpecContains, hport, List.splitOn_eq_singleton (comma_notMem_toString n)]
  simp only [List.any_cons, readPorts_toString, Option.any_some, PortRange.contains]
  simp

/-! ## A list with a range in it -/

/-- The ports of two services, one of them a range around SSH. -/
def mixedRules : List VopsFirewallRule := [⟨.inbound, .tcp, some "80,20-30", none⟩]

/-- A rule opens SSH, and the guard does not see it. -/
theorem mixedRules_disagree :
    keepSshLine (inboundRules mixedRules) {} = true ∧ (∃ r ∈ inboundRules mixedRules, r.OpensPort 22) ∧
      ¬ ReadersAgree mixedRules := by
  have hguard : keepSshLine (inboundRules mixedRules) {} = true := by decide +kernel
  have hopens : ∃ r ∈ inboundRules mixedRules, r.OpensPort 22 := by
    refine ⟨_, List.mem_singleton_self _, rfl, ?_⟩
    decide +kernel
  refine ⟨hguard, hopens, fun h => ?_⟩
  exact (h.guarded {} (by decide) rfl rfl rfl).mp hguard hopens

/-- A list of plain numbers is read alike. -/
theorem readers_agree_web : ReadersAgree webRules := by
  refine (readers_agree_iff webRules ?_).mpr ?_
  · intro r hr text htext
    obtain rfl := List.mem_singleton.mp hr
    obtain rfl := Option.some.inj htext
    decide +kernel
  · intro r hr _
    obtain rfl := List.mem_singleton.mp hr
    refine ⟨"443", rfl, .inl ?_⟩
    unfold PlainNumbers
    decide +kernel

end Vops
