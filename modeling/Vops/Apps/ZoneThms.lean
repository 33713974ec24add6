import Vops.Apps.AppsWorld
import Vops.Lib.Cidr
import Vops.AgentControl.RedactionThms

/-!
# The zone of a hostname (`findZone` of `apps/ingress-dns.ts`)

* `labels`, `InZone` — the labels of the zone are the last ones of the name; `owns_iff` — what
  `owns` decides.
* `pickZone_spec` — the longest zone of those that one provider lists.
* `MostSpecific` — what is found is the longest zone of all that were listed.
* `findZone_deepest` — it is, exactly where the first provider that lists a zone of the name lists
  one as long as any behind it.
-/

namespace Vops.Apps.VopsIngress

open AppProg

/-! ## Labels -/

section Labels

variable {α : Type} [BEq α] [LawfulBEq α] {sep : α}

theorem suffix_intercalate {front : List (List α)} (hfront : front ≠ []) (xs : List α) :
    sep :: xs <:+ [sep].intercalate (front ++ xs.splitOn sep) := by
  induction front with
  | nil => exact absurd rfl hfront
  | cons l front ih =>
      have hne : front ++ xs.splitOn sep ≠ [] :=
        List.append_ne_nil_of_right_ne_nil _ (List.splitOn_ne_nil sep xs)
      rw [List.cons_append, List.intercalate_cons_of_ne_nil hne]
      cases front with
      | nil =>
          rw [List.nil_append, List.intercalate_splitOn, List.append_assoc]
          exact List.suffix_append _ _
      | cons l' front => exact (ih (List.cons_ne_nil _ _)).trans (List.suffix_append _ _)

/-- The last pieces of a list are those of its end behind a separator. -/
theorem splitOn_suffix_iff {xs ys : List α} :
    xs.splitOn sep <:+ ys.splitOn sep ↔ ys = xs ∨ sep :: xs <:+ ys := by
  constructor
  · rintro ⟨front, hfront⟩
    have hjoin : ys = [sep].intercalate (front ++ xs.splitOn sep) := by
      rw [hfront, List.intercalate_splitOn]
    by_cases hnil : front = []
    · rw [hnil, List.nil_append, List.intercalate_splitOn] at hjoin
      exact .inl hjoin
    · rw [hjoin]
      exact .inr (suffix_intercalate hnil xs)
  · rintro (rfl | ⟨front, rfl⟩)
    · exact List.suffix_refl _
    · rw [List.splitOn_append_cons_self]
      exact List.suffix_append _ _

end Labels

/-- The labels of a name, without its dot and in lower case. -/
def labels (name : String) : List (List Char) := (bareName name).toList.splitOn '.'

/-- The labels of the zone are the last ones of the name. -/
def InZone (zone fqdn : String) : Prop := labels zone <:+ labels fqdn

theorem owns_iff (zone fqdn : String) :
    owns (bareName zone) (bareName fqdn) = true ↔ InZone zone fqdn := by
  rw [owns, InZone, labels, labels, splitOn_suffix_iff, Bool.or_eq_true, beq_iff_eq,
    List.isSuffixOf_iff_suffix, String.toList_inj]

/-- A hostname as it is validated, with or without the dot behind it. -/
def FullyQualified (fqdn : String) : Prop := isValidFqdn (withoutDot fqdn) = true

/-- A letter, a digit, a hyphen or a dot. -/
def isHostChar (c : Char) : Bool := isAsciiAlnum c || c == '-' || c == '.'

theorem isHostChar_of_valid {text : String} (h : isValidFqdn text = true) :
    ∀ c ∈ text.toList, isHostChar c = true := by
  refine Ip.forall_mem_of_splitOn '.' rfl fun label hlabel c hc => ?_
  simp only [isValidFqdn, Bool.and_eq_true, List.all_eq_true] at h
  obtain ⟨⟨⟨⟨-, hlabels⟩, -⟩, -⟩, htld⟩ := h
  have hne := List.ne_nil_of_mem hlabel
  rw [List.getLast?_eq_some_getLast hne, Option.getD_some] at htld
  rw [← List.dropLast_append_getLast hne, List.mem_append, List.mem_singleton] at hlabel
  rcases hlabel with hlabel | hlabel
  · have hall := hlabels label hlabel
    simp only [isHostLabel, Bool.and_eq_true, List.all_eq_true] at hall
    rw [isHostChar, hall.1.1.2 c hc, Bool.true_or]
  · rw [isHostChar, isAsciiAlnum, htld c (hlabel ▸ hc), Bool.true_or, Bool.true_or, Bool.true_or]

theorem isHostChar_iff (c : Char) :
    isHostChar c = true ↔ c.isAlphanum = true ∨ c.toNat = 45 ∨ c.toNat = 46 := by
  simp [isHostChar, isAsciiAlnum, Char.isAlphanum, eq_iff_toNat_eq, or_assoc]

theorem isHostChar_lower {c : Char} (hc : isHostChar c = true) :
    ∀ d ∈ lowerChar c, isHostChar d = true := by
  have hdotted : c ≠ '\u0130' := by
    rintro rfl
    exact absurd hc (by decide)
  have hkelvin : c ≠ '\u212A' := by
    rintro rfl
    exact absurd hc (by decide)
  rw [lowerChar, if_neg hdotted, if_neg hkelvin]
  intro d hd
  obtain rfl := List.mem_singleton.mp hd
  have hlower := toLower_toNat c
  rw [isHostChar_iff, isAlphanum_iff] at hc ⊢
  split at hlower <;> omega

theorem isHostChar_bareName {fqdn : String} (hfq : FullyQualified fqdn) :
    ∀ c ∈ (bareName fqdn).toList, isHostChar c = true := by
  intro c hc
  rw [bareName, toLowerCase, String.toList_ofList, List.mem_flatMap] at hc
  obtain ⟨d, hd, hc⟩ := hc
  exact isHostChar_lower (isHostChar_of_valid hfq d hd) c hc

/-- How long the name of a zone is. -/
def width (zone : String) : ℕ := (bareName zone).length

/-- A zone of a hostname is as long as its name in lower case. -/
theorem length_withoutDot {zone fqdn : String} (hfq : FullyQualified fqdn) (h : InZone zone fqdn) :
    (withoutDot zone).length = width zone := by
  have hsub : ∀ c ∈ (bareName zone).toList, c ∈ (bareName fqdn).toList := by
    rw [InZone, labels, labels, splitOn_suffix_iff, String.toList_inj] at h
    intro c hc
    rcases h with h | h
    · rwa [h]
    · exact h.subset (List.mem_cons_of_mem _ hc)
  have hone : ∀ c ∈ (withoutDot zone).toList, (lowerChar c).length = 1 := by
    intro c hc
    by_contra hlong
    have hdot : c = '\u0130' := by
      by_contra hne
      rw [lowerChar, if_neg hne] at hlong
      split_ifs at hlong <;> exact hlong rfl
    have hmem : '\u0307' ∈ (bareName zone).toList := by
      rw [bareName, toLowerCase, String.toList_ofList, List.mem_flatMap]
      refine ⟨c, hc, ?_⟩
      rw [hdot]
      decide
    have hhost := isHostChar_bareName hfq _ (hsub _ hmem)
    exact absurd hhost (by decide)
  rw [width, bareName, toLowerCase, String.length_ofList, List.length_flatMap,
    List.map_congr_left hone, List.map_const', List.sum_replicate_nat, mul_one,
      String.length_toList]

/-! ## One provider -/

variable {fqdn : String}

/-- What the search keeps is a zone of the name, and as long as any that it has seen. -/
theorem pickZone_fold (hfq : FullyQualified fqdn) (zones : List DnsZoneInfo)
    (best : Option DnsZoneInfo)
    (hbest : ∀ b ∈ best, InZone b.name fqdn) :
    let picked := zones.foldl (fun best zone =>
      if owns (bareName zone.name) (bareName fqdn) && isLonger best zone then some zone else best)
        best
    (∀ z ∈ picked, InZone z.name fqdn ∧ (z ∈ best ∨ z ∈ zones)) ∧
      (∀ b ∈ best, ∃ z ∈ picked, width b.name ≤ width z.name) ∧
      ∀ z' ∈ zones, InZone z'.name fqdn → ∃ z ∈ picked, width z'.name ≤ width z.name := by
  induction zones generalizing best with
  | nil => exact ⟨fun z hz => ⟨hbest z hz, .inl hz⟩, fun b hb => ⟨b, hb, le_refl _⟩, by simp⟩
  | cons zone zones ih =>
      rw [List.foldl_cons]
      split
      · next hnext =>
          rw [Bool.and_eq_true, owns_iff, isLonger, Option.all_eq_true] at hnext
          obtain ⟨hin, hout, hrest⟩ := ih (some zone) (by rintro b hb; cases hb; exact hnext.1)
          obtain ⟨z, hz, hzone⟩ := hout zone rfl
          refine ⟨fun z hz => ⟨(hin z hz).1, ?_⟩, fun b hb => ⟨z, hz, ?_⟩, ?_⟩
          · rcases (hin z hz).2 with h | h
            · cases h
              exact .inr List.mem_cons_self
            · exact .inr (List.mem_cons_of_mem _ h)
          · have hlonger := hnext.2 b hb
            rw [length_withoutDot hfq (hbest b hb), decide_eq_true_eq] at hlonger
            exact hlonger.le.trans hzone
          · rintro z' (_ | ⟨_, hz'⟩) hown
            · exact ⟨z, hz, hzone⟩
            · exact hrest z' hz' hown
      · next hkeep =>
          obtain ⟨hin, hout, hrest⟩ := ih best hbest
          refine ⟨fun z hz => ⟨(hin z hz).1, (hin z hz).2.imp_right (List.mem_cons_of_mem _)⟩, hout,
            ?_⟩
          rintro z' (_ | ⟨_, hz'⟩) hown
          · rw [Bool.and_eq_true, owns_iff, not_and] at hkeep
            have hshort := hkeep hown
            rw [isLonger, Option.all_eq_true] at hshort
            push Not at hshort
            obtain ⟨b, hb, hle⟩ := hshort
            rw [length_withoutDot hfq (hbest b hb), ne_eq, decide_eq_true_eq, not_lt] at hle
            obtain ⟨z, hz, hzb⟩ := hout b hb
            exact ⟨z, hz, le_trans hle hzb⟩
          · exact hrest z' hz' hown

/-- The zone that is picked is a zone of the name, and none of the list is longer. -/
theorem pickZone_some (hfq : FullyQualified fqdn) {zones : List DnsZoneInfo} {z : DnsZoneInfo}
    (h : pickZone zones fqdn = some z) : z ∈ zones ∧ InZone z.name fqdn ∧
      ∀ z' ∈ zones, InZone z'.name fqdn → width z'.name ≤ width z.name := by
  obtain ⟨hin, -, hrest⟩ := pickZone_fold hfq zones none fun b hb => by cases hb
  rw [← pickZone, h] at hin hrest
  obtain ⟨hown, hmem⟩ := hin z rfl
  refine ⟨hmem.resolve_left (Option.not_mem_none z), hown, fun z' hz' hown' => ?_⟩
  obtain ⟨y, hy, hle⟩ := hrest z' hz' hown'
  cases hy
  exact hle

/-- No zone is picked only where the name is in none. -/
theorem pickZone_none (hfq : FullyQualified fqdn) {zones : List DnsZoneInfo} :
    pickZone zones fqdn = none ↔ ∀ z ∈ zones, ¬InZone z.name fqdn := by
  obtain ⟨hin, -, hrest⟩ := pickZone_fold hfq zones none fun b hb => by cases hb
  rw [← pickZone] at hin hrest
  constructor
  · intro h z hz hown
    obtain ⟨y, hy, -⟩ := hrest z hz hown
    rw [h] at hy
    cases hy
  · intro h
    rw [Option.eq_none_iff_forall_not_mem]
    intro z hz
    obtain ⟨hown, hmem⟩ := hin z hz
    exact h z (hmem.resolve_left (Option.not_mem_none z)) hown

/-! ## The record name -/

/-- A record name in its zone, `@` for the zone itself. -/
def joined (name zone : String) : String := if name = "@" then zone else name ++ "." ++ zone

/-- The record name is what stands before the zone, or `@`. -/
theorem recordName_spec {zone : String} (h : InZone zone fqdn) :
    (bareName fqdn = bareName zone ∧ recordName fqdn zone = "@") ∨
      ∃ front, front ++ '.' :: (bareName zone).toList = (bareName fqdn).toList ∧
        recordName fqdn zone = String.ofList front := by
  rw [← owns_iff, owns, Bool.or_eq_true, beq_iff_eq, List.isSuffixOf_iff_suffix] at h
  by_cases heq : bareName fqdn = bareName zone
  · exact .inl ⟨heq, by rw [recordName, if_pos heq]⟩
  · obtain ⟨front, hfront⟩ := h.resolve_left heq
    have hlength : (bareName fqdn).length - (bareName zone).length - 1 = front.length := by
      rw [← String.length_toList, ← hfront, ← String.length_toList, List.length_append,
        List.length_cons]
      omega
    refine .inr ⟨front, hfront, ?_⟩
    rw [recordName, if_neg heq, hlength, ← hfront, List.take_left]

/-- The name of the record is read back in its zone. -/
theorem joined_recordName (hfq : FullyQualified fqdn) {zone : String} (h : InZone zone fqdn) :
    joined (recordName fqdn zone) (bareName zone) = bareName fqdn := by
  rcases recordName_spec h with ⟨heq, hname⟩ | ⟨front, hfront, hname⟩
  · rw [joined, hname, if_pos rfl, heq]
  · have hat : String.ofList front ≠ "@" := by
      intro hat
      have hchars := congrArg String.toList hat
      rw [String.toList_ofList] at hchars
      have hmem : '@' ∈ (bareName fqdn).toList := by
        rw [← hfront, hchars]
        exact List.mem_cons_self
      exact absurd (isHostChar_bareName hfq _ hmem) (by decide)
    rw [joined, hname, if_neg hat]
    apply String.toList_inj.mp
    rw [← hfront]
    simp

/-! ## All providers -/

/-- What the providers list, where they do. -/
abbrev Listing := String → Except String (List DnsZoneInfo)

/-- The zones that the provider lists; none where it fails. -/
def Listing.zones (listing : Listing) (provider : String) : List DnsZoneInfo :=
  (listing provider).toOption.getD []

/-- The providers list these zones, whenever they are asked. -/
def Lists {S : Type} (handle : Async.Handler AppOp AppOp.Answer S) (listing : Listing) : Prop :=
  ∀ provider s, (handle (.listZones provider) s).1 = listing provider

/-- What is found with a provider. -/
def matchAt (listing : Listing) (fqdn provider : String) : Option DnsZoneMatch :=
  (pickZone (listing.zones provider) fqdn).map fun zone =>
    ⟨provider, zone.zoneId, zone.name, recordName fqdn zone.name⟩

variable {S : Type} {handle : Async.Handler AppOp AppOp.Answer S} {listing : Listing}

/-- The first provider with a zone of the name decides. -/
theorem run_findZone (hlists : Lists handle listing) (providers : List String) (s : S) :
    (Async.run handle (findZone fqdn providers) s).1 =
      .ok (providers.findSome? (matchAt listing fqdn)) := by
  induction providers generalizing s with
  | nil => rfl
  | cons provider providers ih =>
      have hanswer := hlists provider s
      rw [findZone, op, Async.run_bind, Async.run_perform]
      dsimp only
      rw [hanswer]
      cases hzones : listing provider with
      | error e =>
          have hnone : matchAt listing fqdn provider = none := by
            rw [matchAt, Listing.zones, hzones]
            rfl
          rw [List.findSome?_cons_of_isNone (by rw [hnone]; rfl)]
          exact ih _
      | ok zones =>
          have hmatch : matchAt listing fqdn provider = (pickZone zones fqdn).map fun zone =>
              ⟨provider, zone.zoneId, zone.name, recordName fqdn zone.name⟩ := by
            rw [matchAt, Listing.zones, hzones]
            rfl
          cases hpick : pickZone zones fqdn with
          | none =>
              rw [hpick] at hmatch
              rw [List.findSome?_cons_of_isNone (by rw [hmatch]; rfl)]
              simp only [hpick]
              exact ih _
          | some zone =>
              rw [hpick] at hmatch
              rw [List.findSome?_cons_of_isSome (by rw [hmatch]; rfl), hmatch]
              simp only [hpick]
              rfl

/-- What is found is the longest zone of the name, of all that were listed, and the record name is
read back in it; nothing is found only where there is none. -/
def MostSpecific (listing : Listing) (providers : List String) (fqdn : String) :
    Option DnsZoneMatch → Prop
  | none => ∀ p ∈ providers, ∀ z ∈ listing.zones p, ¬InZone z.name fqdn
  | some m => m.provider ∈ providers ∧ ⟨m.zoneId, m.zoneName⟩ ∈ listing.zones m.provider ∧
      InZone m.zoneName fqdn ∧
      (∀ p ∈ providers, ∀ z ∈ listing.zones p, InZone z.name fqdn →
        width z.name ≤ width m.zoneName) ∧
      joined m.name (bareName m.zoneName) = bareName fqdn

/-- `findZone` finds the most specific zone. -/
def Finds (handle : Async.Handler AppOp AppOp.Answer S) (listing : Listing)
    (providers : List String)
    (fqdn : String) (s : S) : Prop :=
  ∃ found, (Async.run handle (findZone fqdn providers) s).1 = .ok found ∧
    MostSpecific listing providers fqdn found

/-- The first provider with a zone of the name has one that is as long as any that is listed behind
it. -/
def FirstDeepest (listing : Listing) (providers : List String) (fqdn : String) : Prop :=
  ∀ before p after, providers = before ++ p :: after →
    (∀ q ∈ before, ∀ z ∈ listing.zones q, ¬InZone z.name fqdn) →
    (∃ z ∈ listing.zones p, InZone z.name fqdn) →
    ∀ q ∈ after, ∀ z ∈ listing.zones q, InZone z.name fqdn →
      ∃ z' ∈ listing.zones p, InZone z'.name fqdn ∧ width z.name ≤ width z'.name

theorem matchAt_eq_none (hfq : FullyQualified fqdn) {p : String} :
    matchAt listing fqdn p = none ↔ ∀ z ∈ listing.zones p, ¬InZone z.name fqdn := by
  rw [matchAt, Option.map_eq_none_iff, pickZone_none hfq]

theorem matchAt_eq_some (hfq : FullyQualified fqdn) {p : String} {m : DnsZoneMatch}
    (h : matchAt listing fqdn p = some m) : m.provider = p ∧
      ⟨m.zoneId, m.zoneName⟩ ∈ listing.zones p ∧ InZone m.zoneName fqdn ∧
      (∀ z ∈ listing.zones p, InZone z.name fqdn → width z.name ≤ width m.zoneName) ∧
      joined m.name (bareName m.zoneName) = bareName fqdn := by
  obtain ⟨zone, hpick, rfl⟩ := Option.map_eq_some_iff.mp h
  obtain ⟨hmem, hown, hlongest⟩ := pickZone_some hfq hpick
  dsimp only
  exact ⟨rfl, hmem, hown, hlongest, joined_recordName hfq hown⟩

/-- The most specific zone is found exactly where the first provider with a zone of the name has one
as long as any that is listed behind it. -/
theorem findZone_deepest (hfq : FullyQualified fqdn) (hlists : Lists handle listing)
    (providers : List String) (s : S) :
    Finds handle listing providers fqdn s ↔ FirstDeepest listing providers fqdn := by
  have hfinds : Finds handle listing providers fqdn s ↔
      MostSpecific listing providers fqdn (providers.findSome? (matchAt listing fqdn)) := by
    rw [Finds, run_findZone hlists]
    simp
  rw [hfinds]
  constructor
  · rintro hspec before p after rfl hbefore hown q hq z hz hzone
    have hfirst : ∃ m, matchAt listing fqdn p = some m := by
      rw [← Option.ne_none_iff_exists', Ne, matchAt_eq_none hfq]
      obtain ⟨y, hy, hyzone⟩ := hown
      exact fun hnone => hnone y hy hyzone
    obtain ⟨m, hm⟩ := hfirst
    have hfound : (before ++ p :: after).findSome? (matchAt listing fqdn) = some m :=
      List.findSome?_eq_some_iff.mpr ⟨before, p, after, rfl, hm, fun x hx =>
        (matchAt_eq_none hfq).mpr (hbefore x hx)⟩
    rw [hfound] at hspec
    obtain ⟨-, -, -, hlongest, -⟩ := hspec
    obtain ⟨-, hmem, hmzone, -, -⟩ := matchAt_eq_some hfq hm
    exact ⟨_, hmem, hmzone, hlongest q (by simp [hq]) z hz hzone⟩
  · intro hdeepest
    cases hfound : providers.findSome? (matchAt listing fqdn) with
    | none =>
        intro p hp
        exact (matchAt_eq_none hfq).mp (List.findSome?_eq_none_iff.mp hfound p hp)
    | some m =>
        obtain ⟨before, p, after, rfl, hm, hbefore⟩ := List.findSome?_eq_some_iff.mp hfound
        obtain ⟨rfl, hmem, hown, hlongest, hjoined⟩ := matchAt_eq_some hfq hm
        have hnone : ∀ q ∈ before, ∀ z ∈ listing.zones q, ¬InZone z.name fqdn := fun q hq =>
          (matchAt_eq_none hfq).mp (hbefore q hq)
        refine ⟨by simp, hmem, hown, fun q hq z hz hzone => ?_, hjoined⟩
        rcases List.mem_append.mp hq with hq | hq
        · exact absurd hzone (hnone q hq z hz)
        rcases List.mem_cons.mp hq with rfl | hq
        · exact hlongest z hz hzone
        · obtain ⟨y, hy, hyzone, hle⟩ := hdeepest before _ after rfl hnone ⟨_, hmem, hown⟩ q hq z hz
            hzone
          exact hle.trans (hlongest y hy hyzone)

/-- Surroundings in which the providers list these zones. -/
def listingAs (listing : Listing) : Async.Handler AppOp AppOp.Answer AppsWorld
  | .listZones provider, s => (listing provider, s)
  | o, s => answering working o s

theorem lists_listingAs (listing : Listing) : Lists (listingAs listing) listing := fun _ _ => rfl

/-- No host, no install and no record. -/
def blankWorld : AppsWorld := ⟨[], [], fun _ => [], fun _ _ => []⟩

/-- One provider has a zone, another one a zone within it, and a third one has no token. -/
def nestedZones : Listing := fun provider =>
  if provider = "hetzner" then .ok [⟨"z1", "example.com"⟩]
  else if provider = "cloudflare" then .ok [⟨"z2", "a.example.com"⟩]
  else .error "no token"

theorem findZone_deepest_nested :
    Finds (listingAs nestedZones) nestedZones ["cloudflare", "scaleway", "hetzner"]
      "x.a.example.com"
        blankWorld ↔
      FirstDeepest nestedZones ["cloudflare", "scaleway", "hetzner"] "x.a.example.com" :=
  findZone_deepest (show isValidFqdn _ = true by decide +kernel) (lists_listingAs nestedZones) _ _

/-- The zone of the first provider is found, although the second one has the name's own zone. -/
theorem findZone_outer_zone :
    ¬Finds (listingAs nestedZones) nestedZones ["hetzner", "cloudflare", "scaleway"]
      "x.a.example.com"
      blankWorld := by
  rintro ⟨found, hrun, hspec⟩
  have hfirst : ["hetzner", "cloudflare", "scaleway"].findSome?
      (matchAt nestedZones "x.a.example.com") = some ⟨"hetzner", "z1", "example.com", "x.a"⟩ := by
    decide +kernel
  rw [run_findZone (lists_listingAs nestedZones), hfirst] at hrun
  cases hrun
  obtain ⟨-, -, -, hlongest, -⟩ := hspec
  have hinner : labels "a.example.com" <:+ labels "x.a.example.com" := by decide +kernel
  have hle := hlongest "cloudflare" (by decide) ⟨"z2", "a.example.com"⟩ (by decide +kernel) hinner
  exact absurd hle (by decide +kernel)

end Vops.Apps.VopsIngress
