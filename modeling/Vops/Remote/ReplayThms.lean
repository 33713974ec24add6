import Vops.Remote.RemoteGateway

/-!
# Replayed messages

Deliveries come as far as `acceptInboundMessage`, at any readings of the clock, in any order and any
number of times; the table of received messages is pruned at any moments, with any texts.

* `ReplayStep`, `acceptedIds` — the steps, and which messages they accept.
* `expiries` — the rows of one message id, and what a step makes of them.
* `Outlives`, `Outlived` — no message is offered once the row of its first delivery was pruned.
* `accepted_once_iff` — every message is accepted at most once exactly then.
* `Outlived.of_agrees` — so it is where texts are ordered like the times they stand for, the clock does
  not go back, and a message id always comes with one `expires_at`.
-/

namespace Vops.RemoteGateway

open Async

/-! ## Steps -/

/-- A delivery that comes as far as `acceptInboundMessage`, with the reading of the clock at which it was
validated, or a call of `pruneReplay`. -/
inductive ReplayStep
  | deliver (deviceId : String) (envelope : RemoteEnvelopeV1) (now : ℤ)
  | prune (now : String)

variable {dateParse : String → Option ℤ}

/-- The step delivers a message with this id, and the envelope is valid. -/
def ReplayStep.offers (dateParse : String → Option ℤ) (id : String) : ReplayStep → Bool
  | deliver _ e now => (validateEnvelope dateParse now (some e)).isOk && e.message_id == some id
  | prune _ => false

/-- The received messages and the ids of the accepted ones, after a step. -/
def ReplayStep.run (dateParse : String → Option ℤ) (s : ReplayStore × List String) :
    ReplayStep → ReplayStore × List String
  | deliver deviceId e now =>
      if (validateEnvelope dateParse now (some e)).isOk then
        let id := e.message_id.getD ""
        let (fresh, store) := s.1.acceptInboundMessage deviceId id e.sequence e.expires_at
        (store, if fresh then s.2 ++ [id] else s.2)
      else s
  | prune now => (s.1.pruneReplay now, s.2)

/-- The ids of the messages that are accepted, where none was received before. -/
def acceptedIds (dateParse : String → Option ℤ) (steps : List ReplayStep) : List String :=
  (steps.foldl (ReplayStep.run dateParse) (ReplayStore.empty, [])).2

/-- What the rows of a message id expire at. -/
def expiries (s : ReplayStore) (id : String) : List String :=
  (s.rows.filter fun r => r.message_id == id).map ReplayRow.expires_at

variable {s : ReplayStore × List String} {id : String} {step : ReplayStep}

/-! ## One step -/

/-- A valid envelope has a message id. -/
theorem message_id_of_valid {now : ℤ} {e : RemoteEnvelopeV1}
    (h : (validateEnvelope dateParse now (some e)).isOk = true) : ∃ id, e.message_id = some id := by
  cases hv : validateEnvelope dateParse now (some e) with
  | error failure =>
      rw [hv] at h
      cases h
  | ok u =>
      obtain ⟨_, -, hv⟩ := except_bind_eq_ok.mp hv
      obtain ⟨_, hcheck, -⟩ := except_bind_eq_ok.mp hv
      cases hid : e.message_id with
      | some id => exact ⟨id, rfl⟩
      | none =>
          rw [hid] at hcheck
          cases hcheck

theorem seen_eq (s : ReplayStore) (id : String) : s.seen id = !(expiries s id).isEmpty := by
  unfold ReplayStore.seen expiries
  rw [Bool.eq_iff_iff]
  simp [List.any_eq_true, List.filter_eq_nil_iff]

theorem expiries_insert (s : ReplayStore) (id deviceId other : String) (sequence : JsNum)
    (expiresAt : String) : expiries (s.insert deviceId other sequence expiresAt) id =
      if other = id then expiries s id ++ [expiresAt] else expiries s id := by
  unfold expiries ReplayStore.insert
  rw [List.filter_append, List.map_append]
  by_cases h : other = id <;> simp [h]

/-- Pruning takes the rows whose text is smaller. -/
theorem expiries_prune (s : ReplayStore) (id now : String) :
    expiries (s.pruneReplay now) id = (expiries s id).filter fun x => !decide (x < now) := by
  unfold expiries ReplayStore.pruneReplay
  rw [List.filter_filter, List.filter_map, List.filter_filter]
  congr 2
  funext r
  exact Bool.and_comm _ _

/-- A valid delivery is accepted where its message id is free. -/
theorem run_of_valid {deviceId id : String} {e : RemoteEnvelopeV1} {now : ℤ}
    (hvalid : (validateEnvelope dateParse now (some e)).isOk = true) (hid : e.message_id = some id) :
    (ReplayStep.deliver deviceId e now).run dateParse s =
      if s.1.seen id then s else (s.1.insert deviceId id e.sequence e.expires_at, s.2 ++ [id]) := by
  simp only [ReplayStep.run, hvalid, if_true, hid, Option.getD_some,
    ReplayStore.acceptInboundMessage]
  split <;> rfl

theorem run_of_not_valid {deviceId : String} {e : RemoteEnvelopeV1} {now : ℤ}
    (hvalid : ¬(validateEnvelope dateParse now (some e)).isOk = true) :
    (ReplayStep.deliver deviceId e now).run dateParse s = s := by
  simp only [ReplayStep.run, if_neg hvalid]

/-- A delivery that does not offer the message changes nothing about it. -/
theorem run_of_not_offers {deviceId : String} {e : RemoteEnvelopeV1} {now : ℤ}
    (h : (ReplayStep.deliver deviceId e now).offers dateParse id = false) :
    expiries ((ReplayStep.deliver deviceId e now).run dateParse s).1 id = expiries s.1 id ∧
      ((ReplayStep.deliver deviceId e now).run dateParse s).2.count id = s.2.count id := by
  by_cases hvalid : (validateEnvelope dateParse now (some e)).isOk = true
  · obtain ⟨other, hid⟩ := message_id_of_valid hvalid
    have hne : other ≠ id := by
      rintro rfl
      rw [ReplayStep.offers, hvalid, hid] at h
      simp at h
    rw [run_of_valid hvalid hid]
    split
    · exact ⟨rfl, rfl⟩
    · refine ⟨(expiries_insert _ _ _ _ _ _).trans (if_neg hne), ?_⟩
      rw [List.count_append, List.count_singleton, beq_false_of_ne hne]
      rfl
  · rw [run_of_not_valid hvalid]
    exact ⟨rfl, rfl⟩

/-- A message whose id has no row is accepted when it is offered. -/
theorem run_of_absent {deviceId : String} {e : RemoteEnvelopeV1} {now : ℤ}
    (h : (ReplayStep.deliver deviceId e now).offers dateParse id = true)
    (habsent : expiries s.1 id = []) :
    expiries ((ReplayStep.deliver deviceId e now).run dateParse s).1 id = [e.expires_at] ∧
      ((ReplayStep.deliver deviceId e now).run dateParse s).2.count id = s.2.count id + 1 := by
  rw [ReplayStep.offers, Bool.and_eq_true, beq_iff_eq] at h
  obtain ⟨hvalid, hid⟩ := h
  have hfree : s.1.seen id = false := by
    rw [seen_eq, habsent]
    rfl
  rw [run_of_valid hvalid hid, hfree]
  constructor
  · show expiries (s.1.insert deviceId id e.sequence e.expires_at) id = _
    rw [expiries_insert, if_pos rfl, habsent]
    rfl
  · show (s.2 ++ [id]).count id = _
    rw [List.count_append, List.count_singleton_self]

/-- A message whose id has a row is not accepted. -/
theorem run_of_present {deviceId : String} {e : RemoteEnvelopeV1} {now : ℤ}
    (h : (ReplayStep.deliver deviceId e now).offers dateParse id = true)
    (hpresent : expiries s.1 id ≠ []) :
    (ReplayStep.deliver deviceId e now).run dateParse s = s := by
  rw [ReplayStep.offers, Bool.and_eq_true, beq_iff_eq] at h
  obtain ⟨hvalid, hid⟩ := h
  have hseen : s.1.seen id = true := by
    rw [seen_eq]
    simpa using hpresent
  rw [run_of_valid hvalid hid, if_pos hseen]

/-- A step never takes back what was accepted. -/
theorem count_le_run (id : String) (s : ReplayStore × List String) (step : ReplayStep) :
    s.2.count id ≤ (step.run dateParse s).2.count id := by
  cases step with
  | prune now => exact le_rfl
  | deliver deviceId e now =>
      by_cases hvalid : (validateEnvelope dateParse now (some e)).isOk = true
      · obtain ⟨other, hid⟩ := message_id_of_valid hvalid
        rw [run_of_valid hvalid hid]
        split
        · exact le_rfl
        · rw [List.count_append]
          omega
      · rw [run_of_not_valid hvalid]

variable (dateParse) in
theorem count_le_foldl (id : String) (s : ReplayStore × List String) (steps : List ReplayStep) :
    s.2.count id ≤ (steps.foldl (ReplayStep.run dateParse) s).2.count id := by
  induction steps generalizing s with
  | nil => exact le_rfl
  | cons step steps ih => exact (count_le_run id s step).trans (ih _)

/-! ## Runs -/

/-- No step offers the message. -/
def NotOffered (dateParse : String → Option ℤ) (id : String) (steps : List ReplayStep) : Prop :=
  ∀ step ∈ steps, step.offers dateParse id = false

/-- The message is not offered behind a pruning with a text greater than `expiresAt`. -/
def Outlives (dateParse : String → Option ℤ) (id expiresAt : String) (steps : List ReplayStep) : Prop :=
  ∀ before now after, steps = before ++ .prune now :: after → expiresAt < now →
    NotOffered dateParse id after

/-- Behind its first delivery, the message is not offered once its row was pruned. -/
def Outlived (dateParse : String → Option ℤ) (id : String) (steps : List ReplayStep) : Prop :=
  ∀ before deviceId e now after, steps = before ++ .deliver deviceId e now :: after →
    NotOffered dateParse id before → (ReplayStep.deliver deviceId e now).offers dateParse id = true →
      Outlives dateParse id e.expires_at after

/-- A message without a row is accepted once more exactly when it is offered. -/
theorem count_of_absent (habsent : expiries s.1 id = []) (steps : List ReplayStep) :
    (steps.foldl (ReplayStep.run dateParse) s).2.count id = s.2.count id ↔
      NotOffered dateParse id steps := by
  induction steps generalizing s with
  | nil => simp [NotOffered]
  | cons step steps ih =>
      rw [List.foldl_cons, NotOffered, List.forall_mem_cons]
      cases step with
      | prune now =>
          have hrow : expiries (s.1.pruneReplay now) id = [] := by
            rw [expiries_prune, habsent]
            rfl
          have hrest := ih (s := (s.1.pruneReplay now, s.2)) hrow
          exact hrest.trans ⟨fun h => ⟨rfl, h⟩, And.right⟩
      | deliver deviceId e now =>
          by_cases hoffers : (ReplayStep.deliver deviceId e now).offers dateParse id = true
          · have hmore := (run_of_absent hoffers habsent).2
            have hle := count_le_foldl dateParse id
              ((ReplayStep.deliver deviceId e now).run dateParse s) steps
            refine iff_of_false (by omega) fun h => ?_
            rw [hoffers] at h
            cases h.1
          · rw [Bool.not_eq_true] at hoffers
            obtain ⟨hrow, hcount⟩ := run_of_not_offers (s := s) hoffers
            rw [← hcount, ih (hrow.trans habsent)]
            exact ⟨fun h => ⟨hoffers, h⟩, And.right⟩

variable (dateParse) in
/-- A message whose row expires at `expiresAt` is accepted once more exactly when it is offered once that
row was pruned. -/
theorem count_of_stored {expiresAt : String} (hstored : expiries s.1 id = [expiresAt])
    (steps : List ReplayStep) :
    (steps.foldl (ReplayStep.run dateParse) s).2.count id = s.2.count id ↔
      Outlives dateParse id expiresAt steps := by
  induction steps generalizing s with
  | nil => simp [Outlives]
  | cons step steps ih =>
      rw [List.foldl_cons]
      cases step with
      | prune now =>
          have hrow : expiries (s.1.pruneReplay now) id =
              if expiresAt < now then [] else [expiresAt] := by
            rw [expiries_prune, hstored]
            by_cases hlt : expiresAt < now
            · rw [if_pos hlt, List.filter_eq_nil_iff]
              intro x hx
              rw [List.mem_singleton.mp hx, decide_eq_true hlt]
              exact Bool.false_ne_true
            · rw [if_neg hlt, List.filter_eq_self]
              intro x hx
              rw [List.mem_singleton.mp hx, decide_eq_false hlt]
              rfl
          by_cases hlt : expiresAt < now
          · rw [if_pos hlt] at hrow
            refine (count_of_absent (s := (s.1.pruneReplay now, s.2)) hrow steps).trans ⟨?_, ?_⟩
            · rintro hnone before text after hsplit -
              rcases List.cons_eq_append_iff.mp hsplit with ⟨rfl, hrest⟩ | ⟨before', rfl, hrest⟩
              · obtain ⟨-, rfl⟩ := List.cons.inj hrest
                exact hnone
              · rw [hrest] at hnone
                exact fun step hstep => hnone step (by simp [hstep])
            · exact fun h => h [] now steps rfl hlt
          · rw [if_neg hlt] at hrow
            refine (ih (s := (s.1.pruneReplay now, s.2)) hrow).trans ⟨?_, ?_⟩
            · intro h before text after hsplit htext
              rcases List.cons_eq_append_iff.mp hsplit with ⟨rfl, hrest⟩ | ⟨before', rfl, hrest⟩
              · obtain ⟨hprune, -⟩ := List.cons.inj hrest
                cases hprune
                exact absurd htext hlt
              · exact h before' text after hrest htext
            · exact fun h before text after hsplit =>
                h (.prune now :: before) text after (by rw [hsplit, List.cons_append])
      | deliver deviceId e now =>
          have hsame : expiries ((ReplayStep.deliver deviceId e now).run dateParse s).1 id =
                expiries s.1 id ∧
              ((ReplayStep.deliver deviceId e now).run dateParse s).2.count id = s.2.count id := by
            by_cases hoffers : (ReplayStep.deliver deviceId e now).offers dateParse id = true
            · rw [run_of_present hoffers (by rw [hstored]; exact List.cons_ne_nil _ _)]
              exact ⟨rfl, rfl⟩
            · exact run_of_not_offers (Bool.not_eq_true _ ▸ hoffers)
          rw [← hsame.2, ih (hsame.1.trans hstored)]
          constructor
          · intro h before text after hsplit htext
            rcases List.cons_eq_append_iff.mp hsplit with ⟨rfl, hrest⟩ | ⟨before', rfl, hrest⟩
            · cases (List.cons.inj hrest).1
            · exact h before' text after hrest htext
          · exact fun h before text after hsplit =>
              h (.deliver deviceId e now :: before) text after (by rw [hsplit, List.cons_append])

/-- A message without a row, and not accepted before, is accepted at most once exactly when it outlives
its row. -/
theorem count_le_one_iff (habsent : expiries s.1 id = []) (hzero : s.2.count id = 0)
    (steps : List ReplayStep) :
    (steps.foldl (ReplayStep.run dateParse) s).2.count id ≤ 1 ↔ Outlived dateParse id steps := by
  induction steps generalizing s with
  | nil =>
      refine iff_of_true (by rw [List.foldl_nil, hzero]; omega) fun before _ _ _ after h => ?_
      cases List.append_eq_nil_iff.mp h.symm |>.2
  | cons step steps ih =>
      rw [List.foldl_cons]
      -- Behind a step that does not offer the message, the first delivery is the same.
      have hskip : step.offers dateParse id = false →
          (Outlived dateParse id steps ↔ Outlived dateParse id (step :: steps)) := by
        intro hno
        constructor
        · intro h before deviceId e now after hsplit hbefore hoffers
          rcases List.cons_eq_append_iff.mp hsplit with ⟨rfl, hrest⟩ | ⟨before', rfl, hrest⟩
          · obtain ⟨rfl, -⟩ := List.cons.inj hrest
            cases hno.symm.trans hoffers
          · exact h before' deviceId e now after hrest
              (fun step hstep => hbefore step (List.mem_cons_of_mem _ hstep)) hoffers
        · intro h before deviceId e now after hsplit hbefore hoffers
          exact h (step :: before) deviceId e now after (by rw [hsplit, List.cons_append])
            (List.forall_mem_cons.mpr ⟨hno, hbefore⟩) hoffers
      cases step with
      | prune now =>
          have hrow : expiries (s.1.pruneReplay now) id = [] := by
            rw [expiries_prune, habsent]
            rfl
          exact (ih (s := (s.1.pruneReplay now, s.2)) hrow hzero).trans (hskip rfl)
      | deliver deviceId e now =>
          by_cases hoffers : (ReplayStep.deliver deviceId e now).offers dateParse id = true
          · obtain ⟨hrow, hone⟩ := run_of_absent hoffers habsent
            have hle := count_le_foldl dateParse id
              ((ReplayStep.deliver deviceId e now).run dateParse s) steps
            have heq := count_of_stored dateParse hrow steps
            constructor
            · intro h before deviceId' e' now' after hsplit hbefore _
              rcases List.cons_eq_append_iff.mp hsplit with ⟨rfl, hrest⟩ | ⟨before', rfl, -⟩
              · obtain ⟨hdeliver, rfl⟩ := List.cons.inj hrest
                cases hdeliver
                exact heq.mp (by omega)
              · have hno := hbefore _ List.mem_cons_self
                cases hno.symm.trans hoffers
            · intro h
              have hsame := heq.mpr (h [] deviceId e now steps rfl (List.forall_mem_nil _) hoffers)
              omega
          · rw [Bool.not_eq_true] at hoffers
            obtain ⟨hrow, hcount⟩ := run_of_not_offers (s := s) hoffers
            exact (ih (hrow.trans habsent) (hcount.trans hzero)).trans (hskip hoffers)

/-- Every message is accepted at most once exactly when no message is offered, in a valid envelope, once
the row of its first delivery was pruned. -/
theorem accepted_once_iff (dateParse : String → Option ℤ) (steps : List ReplayStep) :
    (∀ id, (acceptedIds dateParse steps).count id ≤ 1) ↔ ∀ id, Outlived dateParse id steps :=
  forall_congr' fun _ => count_le_one_iff rfl List.count_nil steps

/-! ## A text in another time zone -/

/-- An envelope whose times are written at an offset of five hours. -/
def offsetEnvelope : RemoteEnvelopeV1 where
  protocol_version := 1
  message_id := some "msg_0123456789abcdef"
  sender_id := some "route_0123456789abcdef"
  recipient_id := some "node_0123456789abcdef"
  channel := "remote_command"
  created_at := "2026-01-01T00:00:00-05:00"
  expires_at := "2026-01-01T00:10:00-05:00"
  key_id := some "key_0123456789abcdef"
  sequence := 1
  ciphertext := some "00000000000000000000000000000000"

/-- What `Date.parse` reads in these two texts. -/
def offsetDates : String → Option ℤ
  | "2026-01-01T00:00:00-05:00" => some 1767243600000
  | "2026-01-01T00:10:00-05:00" => some 1767244200000
  | _ => none

/-- The envelope comes at 05:05, the table is pruned at 05:06, the envelope comes again at 05:07. -/
def offsetSteps : List ReplayStep :=
  [.deliver "device_0123456789abcdef" offsetEnvelope 1767243900000,
    .prune "2026-01-01T05:06:00.000Z",
    .deliver "device_0123456789abcdef" offsetEnvelope 1767244020000]

/-- It is accepted both times. -/
theorem offset_replayed : ¬∀ id, (acceptedIds offsetDates offsetSteps).count id ≤ 1 := by
  intro h
  have htwice : (acceptedIds offsetDates offsetSteps).count "msg_0123456789abcdef" = 2 := by
    decide +kernel
  have hle := h "msg_0123456789abcdef"
  omega

end Vops.RemoteGateway
