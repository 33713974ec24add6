import Vops.Apps.ZoneThms

/-!
# The record of a hostname (`ensureARecord` of `apps/ingress-dns.ts`)

* `DnsBooks` — what the providers do: a record that is deleted or created is the only one that
  changes.
* `Planned`, `planned_planARecord` — what is planned, by the records at the name.
* `Replaced` — what a run leaves in the zone.
* `Ensured` — the address is the only one of the name, and nothing else has changed.
* `ensureARecord_ensures` — it is, exactly where the name has no `CNAME`, and not two addresses one
  of which is the one that is wanted.
-/

namespace Vops.Apps.VopsIngress

open AppProg

/-! ## The records of a name -/

/-- The name of a record in a zone. -/
structure RecordSite where
  provider : String
  zoneId : String
  zoneName : String
  fqdn : String

/-- The record is at the name. -/
def RecordSite.holds (site : RecordSite) (r : DnsRecordLike) : Bool :=
  sameName r.name (recordName site.fqdn site.zoneName) site.fqdn

/-- The record is an address of the name. -/
def RecordSite.address (site : RecordSite) (r : DnsRecordLike) : Bool :=
  site.holds r && r.isType "A"

/-- The record is a `CNAME` at the name. -/
def RecordSite.cname (site : RecordSite) (r : DnsRecordLike) : Bool :=
  site.holds r && r.isType "CNAME"

/-- The address is the one that is wanted, as it is or trimmed. -/
def Says (ip : String) (r : DnsRecordLike) : Prop := r.value = ip ∨ jsTrim r.value = ip

/-- The address points elsewhere. -/
def RecordSite.elsewhere (site : RecordSite) (ip : String) (r : DnsRecordLike) : Bool :=
  site.address r && jsTrim r.value ≠ ip

/-- What is planned, by the records of the name. -/
inductive Planned (site : RecordSite) (ip : String) (records : List DnsRecordLike) : DnsPlan → Prop
  | cname (occupied : List (String × String)) (h : records.filter site.cname ≠ []) :
      Planned site ip records (.conflict .cnamePresent [] occupied)
  | elsewhere (occupied : List (String × String)) (h : records.filter site.cname = [])
      (hothers : records.filter (site.elsewhere ip) ≠ []) :
      Planned site ip records (.conflict .pointsElsewhere (records.filter (site.elsewhere ip))
        occupied)
  | reuse (mine : DnsRecordLike) (h : records.filter site.cname = [])
      (hothers : records.filter (site.elsewhere ip) = [])
        (hmine : mine ∈ records.filter site.address) :
      Planned site ip records (.reuse mine)
  | create (h : records.filter site.cname = []) (hnone : records.filter site.address = []) :
      Planned site ip records .create

theorem planned_planARecord (site : RecordSite) (ip : String) (records : List DnsRecordLike) :
    Planned site ip records
      (planARecord records (recordName site.fqdn site.zoneName) site.fqdn ip) := by
  have hcname : (records.filter fun r => sameName r.name (recordName site.fqdn site.zoneName)
      site.fqdn).filter (DnsRecordLike.isType "CNAME") = records.filter site.cname := by
    rw [List.filter_filter]
    exact List.filter_congr fun r _ => Bool.and_comm _ _
  have haddress : (records.filter fun r => sameName r.name (recordName site.fqdn site.zoneName)
      site.fqdn).filter (DnsRecordLike.isType "A") = records.filter site.address := by
    rw [List.filter_filter]
    exact List.filter_congr fun r _ => Bool.and_comm _ _
  have hothers : ((records.filter site.address).filter fun r => jsTrim r.value ≠ ip) =
      records.filter (site.elsewhere ip) := by
    rw [List.filter_filter]
    exact List.filter_congr fun r _ => Bool.and_comm _ _
  rw [planARecord]
  simp only [hcname, haddress, hothers]
  split
  · next h => exact .cname _ h
  · next h =>
      rw [not_ne_iff] at h
      split
      · next hcons =>
          rw [← hcons]
          exact .elsewhere _ h (by rw [hcons]; exact List.cons_ne_nil _ _)
      · next hnil hcons => exact .reuse _ h hnil (by rw [hcons]; exact List.mem_cons_self)
      · next hnil => exact .create h hnil

/-! ## The providers -/

/-- The records of every zone of every provider. -/
abbrev Zones := String → String → List DnsRecordLike

variable {S : Type} {handle : Async.Handler AppOp AppOp.Answer S} {zone : S → Zones}

/-- The records of one zone are those; the others are as they were. -/
def Rewrites (before after : Zones) (provider zoneId : String) (records : List DnsRecordLike) :
    Prop :=
  after provider zoneId = records ∧ ∀ p z, (p, z) ≠ (provider, zoneId) → after p z = before p z

/-- What the providers do where they do not fail. -/
structure DnsBooks (handle : Async.Handler AppOp AppOp.Answer S) (zone : S → Zones) : Prop where
  listed : ∀ provider s, zone (handle (.listZones provider) s).2 = zone s
  read : ∀ provider zoneId s, zone (handle (.listRecords provider zoneId) s).2 = zone s ∧
    ∀ records, (handle (.listRecords provider zoneId) s).1 = .ok records →
      records = zone s provider zoneId
  deleted : ∀ provider zoneId recordId s, (handle (.deleteRecord provider zoneId recordId) s).1 =
    .ok () →
    Rewrites (zone s) (zone (handle (.deleteRecord provider zoneId recordId) s).2) provider zoneId
      ((zone s provider zoneId).filter fun r => r.recordId ≠ recordId)
  created : ∀ provider zoneId name value s r,
    (handle (.createRecord provider zoneId name value) s).1 = .ok r →
    Rewrites (zone s) (zone (handle (.createRecord provider zoneId name value) s).2) provider zoneId
        (zone s provider zoneId ++ [r]) ∧
      r.type = "A" ∧ r.name = name ∧ r.value = value

theorem Rewrites.trans {before between after : Zones} {p z : String}
    {records records' : List DnsRecordLike} (h : Rewrites before between p z records)
    (h' : Rewrites between after p z records') : Rewrites before after p z records' :=
  ⟨h'.1, fun q y hne => (h'.2 q y hne).trans (h.2 q y hne)⟩

theorem Rewrites.refl (before : Zones) (p z : String) : Rewrites before before p z (before p z) :=
  ⟨rfl, fun _ _ _ => rfl⟩

/-- What is lifted ends in a value where it is one. -/
theorem run_lift_eq_ok {α : Type} {x : Except String α} {a : α} {s s' : S} :
    Async.run handle (lift x) s = (.ok a, s') ↔ x = .ok a ∧ s' = s := by
  cases x with
  | error e => simp [lift]
  | ok b =>
      rw [lift, Async.pure_eq, Async.run_done, Prod.mk.injEq, Except.ok.injEq, Except.ok.injEq]
      exact and_congr_right fun _ => eq_comm

/-- Finding a zone changes no record, and the zone is one that was picked. -/
theorem run_findZone_ok (hbooks : DnsBooks handle zone) {fqdn : String} {providers : List String}
    {m : DnsZoneMatch} {s s' : S}
    (h : Async.run handle (findZone fqdn providers) s = (.ok (some m), s')) :
    zone s' = zone s ∧ ∃ zones z, pickZone zones fqdn = some z ∧ m.zoneName = z.name ∧
      m.name = recordName fqdn m.zoneName := by
  induction providers generalizing s with
  | nil => cases h
  | cons provider providers ih =>
      rw [findZone, Async.run_bind_eq_ok] at h
      obtain ⟨answer, t, hop, h⟩ := h
      obtain ⟨rfl, rfl⟩ : (handle (.listZones provider) s).1 = answer ∧
          (handle (.listZones provider) s).2 = t := by
        simpa [op] using hop
      have hsame := hbooks.listed provider s
      split at h
      · obtain ⟨hzone, hm⟩ := ih h
        exact ⟨hzone.trans hsame, hm⟩
      · next zones _ =>
          split at h
          · obtain ⟨hzone, hm⟩ := ih h
            exact ⟨hzone.trans hsame, hm⟩
          · next z hpick =>
              cases h
              refine ⟨hsame, zones, z, hpick, ?_, ?_⟩ <;> dsimp only

/-- The plan is made of the records of the zone, and changes none. -/
theorem run_planIn_ok (hbooks : DnsBooks handle zone) {m : DnsZoneMatch} {fqdn ip : String}
    {plan : DnsPlan} {s s' : S} (h : Async.run handle (planIn m fqdn ip) s = (.ok plan, s')) :
    zone s' = zone s ∧ plan = planARecord (zone s m.provider m.zoneId) m.name fqdn ip := by
  rw [planIn, Async.run_bind_eq_ok] at h
  obtain ⟨answer, t, hop, h⟩ := h
  obtain ⟨rfl, rfl⟩ : (handle (.listRecords m.provider m.zoneId) s).1 = answer ∧
      (handle (.listRecords m.provider m.zoneId) s).2 = t := by
    simpa [op] using hop
  obtain ⟨records, t, hlift, h⟩ := Async.run_bind_eq_ok.mp h
  obtain ⟨hrecords, rfl⟩ := run_lift_eq_ok.mp hlift
  cases h
  obtain ⟨hsame, hread⟩ := hbooks.read m.provider m.zoneId s
  exact ⟨hsame, by rw [hread records hrecords]⟩

/-- The stale records are taken out of the zone, by their ids. -/
theorem run_deleteStale_ok (hbooks : DnsBooks handle zone) {m : DnsZoneMatch}
    {stale : List DnsRecordLike} {s s' : S}
    (h : Async.run handle (deleteStale m stale) s = (.ok (), s')) :
    Rewrites (zone s) (zone s') m.provider m.zoneId ((zone s m.provider m.zoneId).filter fun r =>
      !(stale.map DnsRecordLike.recordId).contains r.recordId) := by
  induction stale generalizing s with
  | nil =>
      cases h
      simpa using Rewrites.refl (zone _) m.provider m.zoneId
  | cons r stale ih =>
      rw [deleteStale, Async.run_bind_eq_ok] at h
      obtain ⟨answer, t, hop, h⟩ := h
      obtain ⟨rfl, rfl⟩ : (handle (.deleteRecord m.provider m.zoneId r.recordId) s).1 = answer ∧
          (handle (.deleteRecord m.provider m.zoneId r.recordId) s).2 = t := by
        simpa [op] using hop
      obtain ⟨_, t, hlift, h⟩ := Async.run_bind_eq_ok.mp h
      obtain ⟨hdone, rfl⟩ := run_lift_eq_ok.mp hlift
      have hdeleted := hbooks.deleted m.provider m.zoneId r.recordId s hdone
      have hrest := ih h
      rw [hdeleted.1, List.filter_filter] at hrest
      refine hdeleted.trans ⟨hrest.1.trans (List.filter_congr fun x _ => ?_), hrest.2⟩
      simp [Bool.and_comm]

/-- The stale records are taken out of the zone, and the address is put into it. -/
theorem run_replaceRecord_ok (hbooks : DnsBooks handle zone) {m : DnsZoneMatch} {fqdn ip : String}
    {stale : List DnsRecordLike} {e : EnsuredRecord} {s s' : S}
    (h : Async.run handle (replaceRecord m fqdn ip stale) s = (.ok e, s')) :
    ∃ r, (r.type = "A" ∧ r.name = m.name ∧ r.value = ip) ∧ e.record = recordOf m fqdn r.recordId ∧
      Rewrites (zone s) (zone s') m.provider m.zoneId (((zone s m.provider m.zoneId).filter fun r =>
        !(stale.map DnsRecordLike.recordId).contains r.recordId) ++ [r]) := by
  rw [replaceRecord, Async.run_bind_eq_ok] at h
  obtain ⟨_, t, hstale, h⟩ := h
  have hdeleted := run_deleteStale_ok hbooks hstale
  obtain ⟨answer, t', hop, h⟩ := Async.run_bind_eq_ok.mp h
  obtain ⟨rfl, rfl⟩ : (handle (.createRecord m.provider m.zoneId m.name ip) t).1 = answer ∧
      (handle (.createRecord m.provider m.zoneId m.name ip) t).2 = t' := by
    simpa [op] using hop
  obtain ⟨r, t'', hlift, h⟩ := Async.run_bind_eq_ok.mp h
  obtain ⟨hdone, rfl⟩ := run_lift_eq_ok.mp hlift
  cases h
  obtain ⟨hcreated, hr⟩ := hbooks.created m.provider m.zoneId m.name ip t r hdone
  rw [hdeleted.1] at hcreated
  exact ⟨r, hr, rfl, hdeleted.trans hcreated⟩

/-! ## The name of the record that is created -/

section Name

variable {fqdn : String}

/-- A name that is validated has no empty label. -/
theorem no_double_dot {text : String} (h : isValidFqdn text = true) :
    ¬['.', '.'] <:+: text.toList := by
  rintro ⟨front, back, hsplit⟩
  have hlabels : text.toList.splitOn '.' =
      front.splitOn '.' ++ [] :: back.splitOn '.' := by
    rw [← hsplit, List.append_assoc, List.cons_append, List.splitOn_append_cons_self,
      List.cons_append, List.nil_append]
    exact congrArg _ (List.splitOn_append_cons_self [] back)
  have hempty : [] ∈ (text.toList.splitOn '.').dropLast := by
    rw [hlabels, List.dropLast_append_of_ne_nil (List.cons_ne_nil _ _),
      List.dropLast_cons_of_ne_nil (List.splitOn_ne_nil _ _)]
    simp
  simp only [isValidFqdn, Bool.and_eq_true, List.all_eq_true] at h
  exact absurd (h.1.1.1.2 [] hempty) (by decide)

theorem bareName_eq_map (hfq : FullyQualified fqdn) :
    (bareName fqdn).toList = (withoutDot fqdn).toList.map Char.toLower := by
  have hlower : ∀ c ∈ (withoutDot fqdn).toList, lowerChar c = [c.toLower] := by
    intro c hc
    have hhost := isHostChar_of_valid hfq c hc
    rw [lowerChar, if_neg, if_neg]
    · rintro rfl
      exact absurd hhost (by decide)
    · rintro rfl
      exact absurd hhost (by decide)
  rw [bareName, toLowerCase, String.toList_ofList, List.flatMap_congr hlower]
  exact List.flatMap_pure_eq_map _ _

theorem toLower_eq_dot {c : Char} (h : c.toLower = '.') : c = '.' := by
  have hlower := toLower_toNat c
  rw [h] at hlower
  rw [eq_iff_toNat_eq]
  have hdot : ('.').toNat = 46 := by decide
  rw [hdot] at hlower ⊢
  split at hlower <;> omega

theorem no_double_dot_bareName (hfq : FullyQualified fqdn) :
    ¬['.', '.'] <:+: (bareName fqdn).toList := by
  rw [bareName_eq_map hfq, List.infix_map_iff]
  rintro ⟨dots, hinfix, hdots⟩
  have hplain : dots = ['.', '.'] := by
    obtain ⟨c, rest, rfl, hc, hrest⟩ := List.map_eq_cons_iff.mp hdots.symm
    obtain ⟨d, rest, rfl, hd, hrest⟩ := List.map_eq_cons_iff.mp hrest
    rw [List.map_eq_nil_iff] at hrest
    rw [toLower_eq_dot hc, toLower_eq_dot hd, hrest]
  exact no_double_dot hfq (hplain ▸ hinfix)

/-- The record is created under a name without a dot behind it. -/
theorem withoutDot_recordName (hfq : FullyQualified fqdn) {zone : String} (h : InZone zone fqdn) :
    withoutDot (recordName fqdn zone) = recordName fqdn zone := by
  rw [withoutDot, if_neg]
  intro hlast
  rcases recordName_spec h with ⟨-, hname⟩ | ⟨front, hfront, hname⟩
  · rw [hname] at hlast
    exact absurd hlast (by decide)
  · rw [hname, String.toList_ofList, List.getLast?_eq_some_iff] at hlast
    obtain ⟨start, rfl⟩ := hlast
    refine no_double_dot_bareName hfq ⟨start, (bareName zone).toList, ?_⟩
    rw [← hfront, List.append_assoc, List.append_assoc]
    rfl

theorem sameName_recordName (hfq : FullyQualified fqdn) {zone : String} (h : InZone zone fqdn) :
    sameName (recordName fqdn zone) (recordName fqdn zone) fqdn = true := by
  rw [sameName, bareName, withoutDot_recordName hfq h, beq_self_eq_true, Bool.true_or]

end Name

/-! ## The goal -/

/-- The name has one address, which is the one that is wanted, and no `CNAME`; all that is not an
address of the name is as it was; and nothing was taken away unless it was forced. -/
structure Ensured (before after : Zones) (site : RecordSite) (ip : String) (force : Bool) :
    Prop where
  one : ∃ r, (after site.provider site.zoneId).filter site.address = [r] ∧ Says ip r
  no_cname : (after site.provider site.zoneId).filter site.cname = []
  others : (after site.provider site.zoneId).filter (fun r => !site.address r) =
    (before site.provider site.zoneId).filter fun r => !site.address r
  zones : ∀ p z, (p, z) ≠ (site.provider, site.zoneId) → after p z = before p z
  kept : force = false →
    (before site.provider site.zoneId).Sublist (after site.provider site.zoneId)

/-- The name has no `CNAME`, and either one address at most or none that is wanted. -/
def Clear (site : RecordSite) (ip : String) (records : List DnsRecordLike) : Prop :=
  records.filter site.cname = [] ∧ ((records.filter site.address).length ≤ 1 ∨
    ∀ r ∈ records.filter site.address, jsTrim r.value ≠ ip)

section Goal

variable {site : RecordSite} {ip : String} {r : DnsRecordLike} {records : List DnsRecordLike}
  {before after : Zones}

theorem elsewhere_iff :
    site.elsewhere ip r = true ↔ site.address r = true ∧ jsTrim r.value ≠ ip := by
  rw [RecordSite.elsewhere, Bool.and_eq_true, decide_eq_true_eq]

/-- An address is no `CNAME`. -/
theorem cname_of_address (h : site.address r = true) : site.cname r = false := by
  have htype := (Bool.and_eq_true_iff.mp h).2
  rw [DnsRecordLike.isType, beq_iff_eq] at htype
  rw [RecordSite.cname, DnsRecordLike.isType, htype]
  simp

/-- The records that are taken out of the zone by their ids are those that were meant. -/
theorem filter_stale (hids : (records.map DnsRecordLike.recordId).Nodup)
    (q : DnsRecordLike → Bool) :
    (records.filter fun r => !((records.filter q).map DnsRecordLike.recordId).contains r.recordId) =
      records.filter fun r => !q r := by
  refine List.filter_congr fun r hr => ?_
  congr 1
  rw [Bool.eq_iff_iff, List.contains_iff_mem, List.mem_map]
  constructor
  · rintro ⟨x, hx, hid⟩
    obtain ⟨hmem, hq⟩ := List.mem_filter.mp hx
    rwa [← List.inj_on_of_nodup_map hids hmem hr hid]
  · exact fun hq => ⟨r, List.mem_filter.mpr ⟨hr, hq⟩, rfl⟩

/-- Where some addresses give way to the one that is wanted, it is the only one if they were all. -/
theorem ensured_replaced {created : DnsRecordLike} (force : Bool) (q : DnsRecordLike → Bool)
    (hrecords : before site.provider site.zoneId = records)
    (hq : ∀ r, q r = true → site.address r = true)
    (hcreated : site.address created = true) (hvalue : created.value = ip)
    (hafter : Rewrites before after site.provider site.zoneId
      (records.filter (fun r => !q r) ++ [created]))
    (hkept : force = false → ∀ r ∈ records, q r = false) :
    Ensured before after site ip force ↔
      records.filter site.cname = [] ∧ ∀ r ∈ records.filter site.address, q r = true := by
  obtain ⟨hzone, hzones⟩ := hafter
  have haddresses : (after site.provider site.zoneId).filter site.address =
      (records.filter fun r => site.address r && !q r) ++ [created] := by
    rw [hzone, List.filter_append, List.filter_filter, List.filter_singleton, hcreated, cond_true]
  have hcnamees : (after site.provider site.zoneId).filter site.cname =
      records.filter site.cname := by
    have hnot : ∀ r ∈ records, (site.cname r && !q r) = site.cname r := by
      intro r _
      cases hr : q r with
      | false => simp
      | true => simp [cname_of_address (hq r hr)]
    rw [hzone, List.filter_append, List.filter_filter, List.filter_congr hnot,
      List.filter_singleton,
      cname_of_address hcreated, cond_false, List.append_nil]
  constructor
  · rintro ⟨⟨r, hone, -⟩, hcname, -, -, -⟩
    refine ⟨hcnamees ▸ hcname, fun x hx => ?_⟩
    rw [haddresses, List.append_eq_singleton_iff] at hone
    obtain ⟨hnil, -⟩ | ⟨-, hcontra⟩ := hone
    · obtain ⟨hmem, haddress⟩ := List.mem_filter.mp hx
      by_contra hnot
      exact List.filter_eq_nil_iff.mp hnil x hmem (by simp [haddress, hnot])
    · cases hcontra
  · rintro ⟨hcname, hall⟩
    refine ⟨⟨created, ?_, .inl hvalue⟩, hcnamees.trans hcname, ?_, hzones, fun hforce => ?_⟩
    · have hnil : (records.filter fun r => site.address r && !q r) = [] := by
        rw [List.filter_eq_nil_iff]
        intro r hr hkeep
        obtain ⟨haddress, hnot⟩ := Bool.and_eq_true_iff.mp hkeep
        rw [hall r (List.mem_filter.mpr ⟨hr, haddress⟩)] at hnot
        cases hnot
      rw [haddresses, hnil, List.nil_append]
    · have hrest : ∀ r ∈ records, (!site.address r && !q r) = !site.address r := by
        intro r _
        cases hr : q r with
        | false => simp
        | true => simp [hq r hr]
      rw [hzone, hrecords, List.filter_append, List.filter_filter, List.filter_congr hrest,
        List.filter_singleton, hcreated, Bool.not_true, cond_false, List.append_nil]
    · rw [hzone, hrecords, List.filter_eq_self.mpr fun r hr => by rw [hkept hforce r hr,
        Bool.not_false]]
      exact List.sublist_append_left _ _

/-- Where nothing is done, the address that is wanted is the only one if there is no other. -/
theorem ensured_same {mine : DnsRecordLike} {force : Bool}
    (hrecords : before site.provider site.zoneId = records)
    (hcname : records.filter site.cname = []) (hothers : records.filter (site.elsewhere ip) = [])
    (hmine : mine ∈ records.filter site.address) :
    Ensured before before site ip force ↔ (records.filter site.address).length ≤ 1 := by
  constructor
  · rintro ⟨⟨r, hone, -⟩, -, -, -, -⟩
    rw [hrecords] at hone
    rw [hone]
    exact le_refl 1
  · intro hlength
    have hone : records.filter site.address = [mine] := by
      obtain ⟨x, hx⟩ := List.length_eq_one_iff.mp
        (le_antisymm hlength (List.length_pos_of_mem hmine))
      rw [hx] at hmine ⊢
      rw [List.mem_singleton.mp hmine]
    refine ⟨⟨mine, hrecords ▸ hone, .inr ?_⟩, hrecords ▸ hcname, rfl, fun _ _ _ => rfl,
      fun _ => List.Sublist.refl _⟩
    obtain ⟨hmem, haddress⟩ := List.mem_filter.mp hmine
    by_contra hne
    exact List.filter_eq_nil_iff.mp hothers mine hmem (elsewhere_iff.mpr ⟨haddress, hne⟩)

/-- Where an address points elsewhere, the name is clear if they all do. -/
theorem clear_of_elsewhere (hothers : records.filter (site.elsewhere ip) ≠ []) :
    Clear site ip records ↔ records.filter site.cname = [] ∧
      ∀ x ∈ records.filter site.address, site.elsewhere ip x = true := by
  refine and_congr_right fun _ => ⟨?_, fun hall => .inr fun x hx =>
    (elsewhere_iff.mp (hall x hx)).2⟩
  rintro (hlength | hall) x hx
  · -- The one address is the one that points elsewhere.
    obtain ⟨y, hy⟩ := List.exists_mem_of_ne_nil _ hothers
    obtain ⟨hmem, helsewhere⟩ := List.mem_filter.mp hy
    have hy : y ∈ records.filter site.address :=
      List.mem_filter.mpr ⟨hmem, (elsewhere_iff.mp helsewhere).1⟩
    obtain ⟨z, hz⟩ := List.length_eq_one_iff.mp (le_antisymm hlength (List.length_pos_of_mem hx))
    rw [hz, List.mem_singleton] at hx hy
    obtain rfl : x = y := hx.trans hy.symm
    exact helsewhere
  · exact elsewhere_iff.mpr ⟨(List.mem_filter.mp hx).2, hall x hx⟩

/-- Where the address that is wanted is there and none points elsewhere, the name is clear if it is
the only one. -/
theorem clear_of_same {mine : DnsRecordLike} (hcname : records.filter site.cname = [])
    (hothers : records.filter (site.elsewhere ip) = [])
    (hmine : mine ∈ records.filter site.address) :
    Clear site ip records ↔ (records.filter site.address).length ≤ 1 := by
  refine ⟨fun hclear => hclear.2.resolve_right fun hall => ?_,
    fun hlength => ⟨hcname, .inl hlength⟩⟩
  obtain ⟨hmem, haddress⟩ := List.mem_filter.mp hmine
  exact List.filter_eq_nil_iff.mp hothers mine hmem (elsewhere_iff.mpr ⟨haddress, hall mine hmine⟩)

end Goal

/-- What a record is ensured for. -/
def siteOf (fqdn : String) (record : IngressDnsRecord) : RecordSite :=
  ⟨record.provider, record.zoneId, record.zoneName, fqdn⟩

/-- What a zone match is about. -/
def DnsZoneMatch.site (m : DnsZoneMatch) (fqdn : String) : RecordSite :=
  ⟨m.provider, m.zoneId, m.zoneName, fqdn⟩

/-- Whatever is planned, the goal is reached exactly where the name was clear. -/
theorem carryOut_ensures (hbooks : DnsBooks handle zone) {m : DnsZoneMatch} {fqdn ip : String}
    (hfq : FullyQualified fqdn) (hown : InZone m.zoneName fqdn)
    (hname : m.name = recordName fqdn m.zoneName) {force : Bool} {plan : DnsPlan}
    {e : EnsuredRecord}
    {s s' : S} (hids : ((zone s m.provider m.zoneId).map DnsRecordLike.recordId).Nodup)
    (hplan : Planned (m.site fqdn) ip (zone s m.provider m.zoneId) plan)
    (hrun : Async.run handle (carryOut m fqdn ip force plan) s = (.ok e, s')) :
    (∃ recordId, e.record = recordOf m fqdn recordId) ∧
    (Ensured (zone s) (zone s') (m.site fqdn) ip force ↔
      Clear (m.site fqdn) ip (zone s m.provider m.zoneId)) := by
  have haddress {r : DnsRecordLike} (hr : r.type = "A" ∧ r.name = m.name ∧ r.value = ip) :
      (m.site fqdn).address r = true := by
    have hsame := sameName_recordName hfq hown
    rw [RecordSite.address, RecordSite.holds, DnsRecordLike.isType, hr.1, hr.2.1, hname]
    exact Bool.and_eq_true_iff.mpr ⟨hsame, by decide +kernel⟩
  have hreplaced {stale : List DnsRecordLike} {q : DnsRecordLike → Bool}
      (hq : ∀ r, q r = true → (m.site fqdn).address r = true)
      (hstale : ((zone s m.provider m.zoneId).filter fun r =>
        !(stale.map DnsRecordLike.recordId).contains r.recordId) =
          (zone s m.provider m.zoneId).filter fun r => !q r)
      (hkept : force = false → ∀ r ∈ zone s m.provider m.zoneId, q r = false)
      (hrun : Async.run handle (replaceRecord m fqdn ip stale) s = (.ok e, s')) :
      (∃ recordId, e.record = recordOf m fqdn recordId) ∧
        (Ensured (zone s) (zone s') (m.site fqdn) ip force ↔
          (zone s m.provider m.zoneId).filter (m.site fqdn).cname = [] ∧
            ∀ r ∈ (zone s m.provider m.zoneId).filter (m.site fqdn).address, q r = true) := by
    obtain ⟨r, hr, hrecord, hafter⟩ := run_replaceRecord_ok hbooks hrun
    rw [hstale] at hafter
    exact ⟨⟨_, hrecord⟩, ensured_replaced force q rfl hq (haddress hr) hr.2.2 hafter hkept⟩
  have hnone : ((zone s m.provider m.zoneId).filter fun r =>
      !(([] : List DnsRecordLike).map DnsRecordLike.recordId).contains r.recordId) =
        (zone s m.provider m.zoneId).filter fun _ => !false := rfl
  cases hplan with
  | cname occupied hcname =>
      cases force with
      | false => cases hrun
      | true =>
          obtain ⟨hrecord, hgoal⟩ := hreplaced (fun _ h => by cases h) hnone (fun h => by cases h)
            hrun
          refine ⟨hrecord, hgoal.trans (iff_of_false (fun h => hcname h.1) fun h => hcname h.1)⟩
  | elsewhere occupied hcname hothers =>
      cases force with
      | false => cases hrun
      | true =>
          obtain ⟨hrecord, hgoal⟩ := hreplaced (fun _ h => (elsewhere_iff.mp h).1)
            (filter_stale hids _) (fun h => by cases h) hrun
          exact ⟨hrecord, hgoal.trans (clear_of_elsewhere hothers).symm⟩
  | reuse mine hcname hothers hmine =>
      cases hrun
      exact ⟨⟨_, rfl⟩, (ensured_same rfl hcname hothers hmine).trans
        (clear_of_same hcname hothers hmine).symm⟩
  | create hcname hempty =>
      obtain ⟨hrecord, hgoal⟩ := hreplaced (fun _ h => by cases h) hnone (fun _ _ _ => rfl) hrun
      refine ⟨hrecord, hgoal.trans (iff_of_true ⟨hcname, fun x hx => ?_⟩ ⟨hcname, .inl ?_⟩)⟩
      · exact absurd hx (hempty ▸ List.not_mem_nil)
      · rw [hempty]
        exact Nat.zero_le 1

/-- The address is the only one of the name, and nothing else has changed, exactly where the name
had no `CNAME`, and either one address at most or none that is wanted. -/
theorem ensureARecord_ensures (hbooks : DnsBooks handle zone) {env : AppEnv} {fqdn ip : String}
    (hfq : FullyQualified fqdn) {force : Bool} {e : EnsuredRecord} {s s' : S}
    (hids : ∀ p z, ((zone s p z).map DnsRecordLike.recordId).Nodup)
    (hrun : Async.run handle (ensureARecord env fqdn ip force) s = (.ok (some e), s')) :
    Ensured (zone s) (zone s') (siteOf fqdn e.record) ip force ↔
      Clear (siteOf fqdn e.record) ip (zone s e.record.provider e.record.zoneId) := by
  rw [ensureARecord, Async.run_bind_eq_ok] at hrun
  obtain ⟨found, t, hfind, hrun⟩ := hrun
  cases found with
  | none => cases hrun
  | some m =>
      obtain ⟨plan, t', hplan, hrun⟩ := Async.run_bind_eq_ok.mp hrun
      obtain ⟨e', t'', hcarry, hrun⟩ := Async.run_bind_eq_ok.mp hrun
      cases hrun
      obtain ⟨hzone, zones, z, hpick, hzoneName, hname⟩ := run_findZone_ok hbooks hfind
      obtain ⟨hzone', rfl⟩ := run_planIn_ok hbooks hplan
      have hown : InZone m.zoneName fqdn := hzoneName ▸ (pickZone_some hfq hpick).2.1
      have hsame : zone t' = zone s := hzone'.trans hzone
      have hplanned := planned_planARecord (m.site fqdn) ip (zone t m.provider m.zoneId)
      rw [DnsZoneMatch.site, ← hname, hzone, ← hsame] at hplanned
      obtain ⟨⟨recordId, hrecord⟩, hgoal⟩ := carryOut_ensures hbooks hfq hown hname
        (hsame ▸ hids m.provider m.zoneId) hplanned (by rwa [hzone, ← hsame] at hcarry)
      rw [hsame] at hgoal
      rw [hrecord]
      exact hgoal

/-! ## Surroundings in which it is tried -/

theorem dnsBooks_answering (scripts : (script : RemoteScript) → ScriptResult script.Output) :
    DnsBooks (answering scripts) AppsWorld.records where
  listed _ _ := rfl
  read _ _ _ := ⟨rfl, fun _ h => (Except.ok.inj h).symm⟩
  deleted provider zoneId recordId s _ :=
    ⟨by simp [answering, AppsWorld.takeRecord, AppsWorld.setRecords], fun p z hne => by
      simp only [ne_eq, Prod.mk.injEq] at hne
      simp [answering, AppsWorld.takeRecord, AppsWorld.setRecords, hne]⟩
  created provider zoneId name value s r h := by
    cases h
    refine ⟨⟨by simp [answering, AppsWorld.addRecord, AppsWorld.setRecords], fun p z hne => ?_⟩,
      rfl, rfl,
      rfl⟩
    simp only [ne_eq, Prod.mk.injEq] at hne
    simp [answering, AppsWorld.addRecord, AppsWorld.setRecords, hne]

/-- A zone of one provider, with these records. -/
def zoneWorld (records : List DnsRecordLike) : AppsWorld where
  hosts := []
  rows := []
  zones provider := if provider = "hetzner" then [⟨"z1", "example.com"⟩] else []
  records _ _ := records

/-- One provider, and no app. -/
def zoneEnv : AppEnv where
  crypt := ⟨"generated", fun text => text⟩
  loadAppPlan := fun _ _ => .error "no app"
  inCatalog := fun _ => false
  postInstall := fun _ _ => []
  supportedProviders := ["hetzner"]

/-- An address that points elsewhere, and another record of the name. -/
def movedRecords : List DnsRecordLike :=
  [⟨"r1", "A", "app", "198.51.100.1"⟩, ⟨"r2", "TXT", "app", "owner"⟩]

/-- An alias of the name. -/
def aliasRecords : List DnsRecordLike := [⟨"r2", "CNAME", "app", "pages.example.net"⟩]

/-- What a forced run in the zone does. -/
def forced (records : List DnsRecordLike) : Except AppError (Option EnsuredRecord) × AppsWorld :=
  Async.run (answering working) (ensureARecord zoneEnv "app.example.com" "203.0.113.7" true)
    (zoneWorld records)

/-- The record that is created. -/
def forcedRecord : IngressDnsRecord := ⟨"hetzner", "z1", "example.com", "rr2", "app.example.com"⟩

theorem ensureARecord_ensures_moved :
    Ensured (zoneWorld movedRecords).records (forced movedRecords).2.records
        (siteOf "app.example.com" forcedRecord) "203.0.113.7" true ↔
      Clear (siteOf "app.example.com" forcedRecord) "203.0.113.7" movedRecords := by
  have hanswer : (forced movedRecords).1 = .ok (some ⟨forcedRecord, .repointed⟩) := by
    have hok : (forced movedRecords).1.toOption = some (some ⟨forcedRecord, .repointed⟩) := by
      decide +kernel
    generalize (forced movedRecords).1 = answer at hok ⊢
    cases answer with
    | error e => cases hok
    | ok x => rw [Option.some.inj hok]
  exact ensureARecord_ensures (dnsBooks_answering working)
    (show isValidFqdn _ = true by decide +kernel)
    (fun _ _ => show (movedRecords.map DnsRecordLike.recordId).Nodup by decide)
    (Prod.ext hanswer rfl)

/-- The address is created beside the alias, and both are left. -/
theorem ensureARecord_beside_alias :
    (forced aliasRecords).1.toOption = some (some ⟨forcedRecord, .created⟩) ∧
    ¬Ensured (zoneWorld aliasRecords).records (forced aliasRecords).2.records
      (siteOf "app.example.com" forcedRecord) "203.0.113.7" true := by
  refine ⟨by decide +kernel, fun h => ?_⟩
  have hleft : ((forced aliasRecords).2.records "hetzner" "z1").filter
      (siteOf "app.example.com" forcedRecord).cname = aliasRecords := by
    decide +kernel
  exact absurd (hleft.symm.trans h.no_cname) (by decide)

end Vops.Apps.VopsIngress
