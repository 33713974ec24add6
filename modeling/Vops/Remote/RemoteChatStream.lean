import Mathlib.Data.List.Basic

/-!
# The stream of an answer (`RemoteChatStream` in `remote/conversation.service.ts`)

* `Stream` — the fields of a stream, the sends that are chained on `sending`, and what was handed to
  the messenger.
* `queueFlush`, `push`, `cancel`, `flush` — the methods; `step` — a call of one of them, the timer,
  or a step of the chain of sends.
* `Stream.Ordered` — the deltas are numbered in order and none is empty, after any events.
* `runs_text` — what was pushed is in the deltas and the buffer, in order.
* `stream_complete` — the deltas of a turn are its pushes; a cancelled text is not sent.

The code units of a text are of any type `α`: nothing depends on what they are.
-/

namespace Vops.RemoteChatStream

variable {α : Type}

/-! ## The stream -/

/-- `STREAM_BATCH_CHARS` -/
def streamBatchChars : ℕ := 480

/-- A `chat.text_delta` message. -/
structure TextDelta (α : Type) where
  sequence : ℕ
  delta : List α
deriving DecidableEq

/-- Where the call of `flush` stands: it waits for the sends up to a number, or has ended. -/
inductive FlushCall
  | notCalled | waiting (last : ℕ) | returned (sequence : ℕ) | thrown
deriving DecidableEq

/-- A stream. Of the promise `sending` the parts are kept: the sends that have not begun, the one
that has begun and not ended, and the one that failed. -/
structure Stream (α : Type) where
  buffer : List α
  sequence : ℕ
  timer : Bool
  waiting : List (TextDelta α)
  inFlight : Option (TextDelta α)
  failed : Option (TextDelta α)
  /-- The messages that were handed to `messenger.send`, in this order. -/
  sent : List (TextDelta α)
  flushCall : FlushCall

/-- A new stream. -/
def Stream.new : Stream α := ⟨[], 0, false, [], none, none, [], .notCalled⟩

/-- `queueFlush` -/
def queueFlush (s : Stream α) : Stream α :=
  if s.buffer = [] then { s with timer := false }
  else
    { s with
      timer := false
      buffer := []
      sequence := s.sequence + 1
      waiting := s.waiting ++ [⟨s.sequence + 1, s.buffer⟩] }

/-- `push`; a timer that is set stays set. -/
def push (s : Stream α) (delta : List α) : Stream α :=
  let s := { s with buffer := s.buffer ++ delta }
  if streamBatchChars ≤ s.buffer.length then queueFlush s else { s with timer := true }

/-- `cancel` -/
def cancel (s : Stream α) : Stream α := { s with timer := false, buffer := [] }

/-- `flush`, up to its `await`. -/
def flush (s : Stream α) : Stream α :=
  let s := queueFlush s
  { s with flushCall := .waiting s.sequence }

/-- The sends that have not ended. -/
def Stream.pending (s : Stream α) : List (TextDelta α) := s.inFlight.toList ++ s.waiting

/-- What happens to a stream: a method is called, its timer fires, the next send begins, the send
that has begun ends, or what `flush` waits for has settled. -/
inductive StreamEvent (α : Type)
  | push (delta : List α) | timer | flush | cancel | begin | settle (ok : Bool) | flushed
deriving DecidableEq

/-- The stream after an event, where the event can happen. -/
def step (s : Stream α) : StreamEvent α → Option (Stream α)
  | .push delta => some (push s delta)
  | .timer => if s.timer then some (queueFlush s) else none
  | .flush => some (flush s)
  | .cancel => some (cancel s)
  | .begin =>
      match s.inFlight, s.failed, s.waiting with
      | none, none, d :: rest =>
          some { s with waiting := rest, inFlight := some d, sent := s.sent ++ [d] }
      | _, _, _ => none
  | .settle ok =>
      match s.inFlight with
      | some d => some { s with inFlight := none, failed := if ok then s.failed else some d }
      | none => none
  | .flushed =>
      match s.flushCall with
      | .waiting last =>
          if s.failed.any fun d => d.sequence ≤ last then some { s with flushCall := .thrown }
          else if s.pending.all fun d => last < d.sequence then
            some { s with flushCall := .returned s.sequence }
          else none
      | _ => none

/-- The stream after some events, one after the other. -/
def runs (s : Stream α) : List (StreamEvent α) → Option (Stream α)
  | [] => some s
  | e :: es => (step s e).bind fun s' => runs s' es

variable {s s' s'' : Stream α} {e : StreamEvent α} {es es' : List (StreamEvent α)}

@[simp] theorem runs_nil : runs s [] = some s := rfl

theorem runs_cons : runs s (e :: es) = some s'' ↔
    ∃ s', step s e = some s' ∧ runs s' es = some s'' :=
  Option.bind_eq_some_iff

theorem runs_append : runs s (es ++ es') = some s'' ↔
    ∃ s', runs s es = some s' ∧ runs s' es' = some s'' := by
  induction es generalizing s with
  | nil => simp
  | cons e es ih => simp only [List.cons_append, runs_cons, ih]; tauto

/-- What every event keeps, any events keep. -/
theorem runs_keeps {J : Stream α → Prop} {P : StreamEvent α → Prop}
    (hJ : ∀ s e s', P e → step s e = some s' → J s → J s') (hes : ∀ e ∈ es, P e) (hs : J s)
    (h : runs s es = some s') : J s' := by
  induction es generalizing s with
  | nil => obtain rfl : s = s' := by simpa using h
           exact hs
  | cons e es ih =>
      obtain ⟨s₁, he, h⟩ := runs_cons.mp h
      obtain ⟨hP, hes⟩ := List.forall_mem_cons.mp hes
      exact ih hes (hJ s e s₁ hP he hs) h

/-! ## What an event does -/

/-- The texts of deltas, in order. -/
def textOf (ds : List (TextDelta α)) : List α := (ds.map TextDelta.delta).flatten

@[simp] theorem textOf_append (ds ds' : List (TextDelta α)) :
    textOf (ds ++ ds') = textOf ds ++ textOf ds' := by
  simp [textOf]

/-- The deltas that were handed over or wait for it. -/
def Stream.queued (s : Stream α) : List (TextDelta α) := s.sent ++ s.waiting

/-- What an event pushes. -/
def StreamEvent.pushed : StreamEvent α → List α
  | push delta => delta
  | _ => []

/-- What was pushed. -/
def pushed (es : List (StreamEvent α)) : List α := es.flatMap StreamEvent.pushed

/-- `queueFlush` queues the buffer, if it is not empty. -/
theorem queueFlush_cases (s : Stream α) :
    (s.buffer = [] ∧ queueFlush s = { s with timer := false }) ∨
      (s.buffer ≠ [] ∧ queueFlush s = { s with
        timer := false, buffer := [], sequence := s.sequence + 1
        waiting := s.waiting ++ [⟨s.sequence + 1, s.buffer⟩] }) := by
  unfold queueFlush
  split_ifs with h
  · exact .inl ⟨h, rfl⟩
  · exact .inr ⟨h, rfl⟩

/-- The stream has queued `ds` since: they are numbered on, and none is empty. -/
structure Adds (s : Stream α) (ds : List (TextDelta α)) (s' : Stream α) : Prop where
  queued : s'.queued = s.queued ++ ds
  numbered : ds.map TextDelta.sequence = List.range' (s.sequence + 1) ds.length
  sequence : s'.sequence = s.sequence + ds.length
  nonempty : ∀ d ∈ ds, d.delta ≠ []
  inFlight : ∀ d, s'.inFlight = some d → s.inFlight = some d ∨ d ∈ s'.queued

theorem Adds.nil (hq : s'.queued = s.queued) (hs : s'.sequence = s.sequence)
    (hf : ∀ d, s'.inFlight = some d → s.inFlight = some d) : Adds s [] s' :=
  ⟨by simp [hq], rfl, by simp [hs], by simp, fun d hd => .inl (hf d hd)⟩

theorem Adds.trans {ds ds' : List (TextDelta α)} (h : Adds s ds s') (h' : Adds s' ds' s'') :
    Adds s (ds ++ ds') s'' where
  queued := by rw [h'.queued, h.queued, List.append_assoc]
  numbered := by
    rw [List.map_append, h.numbered, h'.numbered, h.sequence, List.length_append,
      ← List.range'_append_1, Nat.add_right_comm]
  sequence := by rw [h'.sequence, h.sequence, List.length_append, Nat.add_assoc]
  nonempty d hd := (List.mem_append.mp hd).elim (h.nonempty d) (h'.nonempty d)
  inFlight d hd := by
    rcases h'.inFlight d hd with hd | hd
    · rcases h.inFlight d hd with hd | hd
      · exact .inl hd
      · exact .inr (h'.queued ▸ List.mem_append_left _ hd)
    · exact .inr hd

/-- What `queueFlush` queues is the buffer. -/
theorem queueFlush_adds (s : Stream α) : ∃ ds, Adds s ds (queueFlush s) ∧
    textOf ds ++ (queueFlush s).buffer = s.buffer ∧ (queueFlush s).buffer = [] := by
  rcases queueFlush_cases s with ⟨hb, hs⟩ | ⟨hb, hs⟩
  · rw [hs]
    exact ⟨[], .nil rfl rfl fun _ h => h, rfl, hb⟩
  · rw [hs]
    refine ⟨[⟨s.sequence + 1, s.buffer⟩],
      ⟨?_, rfl, rfl, by simpa using hb, fun _ h => .inl h⟩, ?_, rfl⟩
    · exact (List.append_assoc _ _ _).symm
    · simp [textOf]

/-- An event queues deltas; unless it cancels, nothing of the buffer and of what it pushes is lost.
-/
theorem step_adds (h : step s e = some s') : ∃ ds, Adds s ds s' ∧
    (e ≠ .cancel → textOf ds ++ s'.buffer = s.buffer ++ e.pushed) ∧
    (e = .cancel → ds = [] ∧ s'.buffer = []) := by
  cases e with
  | push delta =>
      obtain rfl : push s delta = s' := by simpa [step] using h
      by_cases hlen : streamBatchChars ≤ (s.buffer ++ delta).length
      · have hpush : push s delta = queueFlush { s with buffer := s.buffer ++ delta } := if_pos hlen
        obtain ⟨ds, hadds, htext, -⟩ := queueFlush_adds { s with buffer := s.buffer ++ delta }
        rw [hpush]
        exact ⟨ds, ⟨hadds.queued, hadds.numbered, hadds.sequence, hadds.nonempty,
          hadds.inFlight⟩, fun _ => htext, by simp⟩
      · have hpush : push s delta = { s with buffer := s.buffer ++ delta, timer := true } :=
          if_neg hlen
        rw [hpush]
        exact ⟨[], .nil rfl rfl fun _ h => h, fun _ => rfl, by simp⟩
  | timer =>
      obtain ⟨-, rfl⟩ : s.timer = true ∧ queueFlush s = s' := by simpa [step] using h
      obtain ⟨ds, hadds, htext, -⟩ := queueFlush_adds s
      exact ⟨ds, hadds, fun _ => by simpa [StreamEvent.pushed] using htext, by simp⟩
  | flush =>
      obtain rfl : flush s = s' := by simpa [step] using h
      obtain ⟨ds, hadds, htext, -⟩ := queueFlush_adds s
      exact ⟨ds, ⟨hadds.queued, hadds.numbered, hadds.sequence, hadds.nonempty, hadds.inFlight⟩,
        fun _ => by simpa [StreamEvent.pushed, flush] using htext, by simp⟩
  | cancel =>
      obtain rfl : cancel s = s' := by simpa [step] using h
      exact ⟨[], .nil rfl rfl fun _ h => h, by simp, fun _ => ⟨rfl, rfl⟩⟩
  | begin =>
      simp only [step] at h
      split at h
      · rename_i d rest _ _ hw
        obtain rfl := Option.some.inj h
        have hadds : Adds s [] { s with
            waiting := rest, inFlight := some d, sent := s.sent ++ [d] } := by
          refine ⟨by simp [Stream.queued, hw], rfl, rfl, by simp, fun d' hd' => .inr ?_⟩
          obtain rfl : d = d' := Option.some.inj hd'
          simp [Stream.queued]
        exact ⟨[], hadds, fun _ => by simp [textOf, StreamEvent.pushed], by simp⟩
      · cases h
  | settle ok =>
      simp only [step] at h
      split at h
      · obtain rfl := Option.some.inj h
        exact ⟨[], .nil rfl rfl (by simp), fun _ => by simp [textOf, StreamEvent.pushed], by simp⟩
      · cases h
  | flushed =>
      have hcases : ∃ call, s' = { s with flushCall := call } := by
        simp only [step] at h
        split at h
        · split_ifs at h
          · exact ⟨_, (Option.some.inj h).symm⟩
          · exact ⟨_, (Option.some.inj h).symm⟩
        · cases h
      obtain ⟨call, rfl⟩ := hcases
      exact ⟨[], .nil rfl rfl fun _ h => h, fun _ => by simp [textOf, StreamEvent.pushed], by simp⟩

/-- What was pushed, and not cancelled while it was in the buffer, is queued or in the buffer, in
order. -/
theorem runs_adds (h : runs s es = some s') : ∃ ds, Adds s ds s' ∧
    ((∀ e ∈ es, e ≠ .cancel) → textOf ds ++ s'.buffer = s.buffer ++ pushed es) ∧
    (textOf ds ++ s'.buffer).Sublist (s.buffer ++ pushed es) := by
  induction es generalizing s with
  | nil =>
      obtain rfl : s = s' := by simpa using h
      exact ⟨[], .nil rfl rfl fun _ h => h, fun _ => by simp [textOf, pushed],
        by simp [textOf, pushed]⟩
  | cons e es ih =>
      obtain ⟨s₁, he, h⟩ := runs_cons.mp h
      obtain ⟨ds₁, hadds₁, hkept, hcancel⟩ := step_adds he
      obtain ⟨ds, hadds, htext, hsub⟩ := ih h
      have hpushed : pushed (e :: es) = e.pushed ++ pushed es := by simp [pushed]
      refine ⟨ds₁ ++ ds, hadds₁.trans hadds, fun hes => ?_, ?_⟩
      · obtain ⟨hne, hes⟩ := List.forall_mem_cons.mp hes
        rw [textOf_append, List.append_assoc, htext hes, ← List.append_assoc, hkept hne, hpushed,
          List.append_assoc]
      · rw [textOf_append, List.append_assoc, hpushed, ← List.append_assoc s.buffer]
        by_cases hc : e = .cancel
        · obtain ⟨rfl, hb⟩ := hcancel hc
          rw [hb, List.nil_append] at hsub
          exact hsub.trans (List.sublist_append_right _ _)
        · rw [← hkept hc, List.append_assoc]
          exact hsub.append_left _

/-- The deltas of a stream are numbered from one on, and none is empty. -/
structure Stream.Ordered (s : Stream α) : Prop where
  numbered : s.queued.map TextDelta.sequence = List.range' 1 s.sequence
  nonempty : ∀ d ∈ s.queued, d.delta ≠ []
  inFlight : ∀ d, s.inFlight = some d → d ∈ s.queued

theorem ordered_new : (Stream.new : Stream α).Ordered :=
  ⟨rfl, by simp [Stream.queued, Stream.new], by simp [Stream.new]⟩

theorem Adds.ordered {ds : List (TextDelta α)} (h : Adds s ds s') (hs : s.Ordered) :
    s'.Ordered where
  numbered := by
    rw [h.queued, List.map_append, hs.numbered, h.numbered, h.sequence, ← List.range'_append_1,
      Nat.add_comm 1]
  nonempty d hd := by
    rw [h.queued] at hd
    exact (List.mem_append.mp hd).elim (hs.nonempty d) (h.nonempty d)
  inFlight d hd := by
    rcases h.inFlight d hd with hd | hd
    · exact h.queued ▸ List.mem_append_left _ (hs.inFlight d hd)
    · exact hd

/-- After any events the stream is ordered. -/
theorem runs_ordered (hs : s.Ordered) (h : runs s es = some s') : s'.Ordered := by
  obtain ⟨ds, hadds, -⟩ := runs_adds h
  exact hadds.ordered hs

/-! ## The flush -/

/-- An event of a turn that is still writing, all of whose sends succeed. -/
def StreamEvent.writes : StreamEvent α → Bool
  | push _ | timer | begin => true
  | settle ok => ok
  | flush | cancel | flushed => false

/-- An event that follows the flush, where every send succeeds. -/
def StreamEvent.sends : StreamEvent α → Bool
  | timer | begin | flushed => true
  | settle ok => ok
  | push _ | flush | cancel => false

/-- No send has failed, and the flush waits for every delta or has returned their number. -/
structure Flushed (s : Stream α) : Prop where
  buffer : s.buffer = []
  timer : s.timer = false
  failed : s.failed = none
  call : s.flushCall = .waiting s.sequence ∨
    (s.flushCall = .returned s.sequence ∧ s.pending = [])

theorem step_failed (he : e.writes = true ∨ e.sends = true) (h : step s e = some s')
    (hs : s.failed = none) : s'.failed = none := by
  have hqueue (s : Stream α) : (queueFlush s).failed = s.failed := by
    unfold queueFlush
    split_ifs <;> rfl
  cases e with
  | push delta =>
      obtain rfl : push s delta = s' := by simpa [step] using h
      by_cases hlen : streamBatchChars ≤ (s.buffer ++ delta).length
      · rw [push, if_pos hlen, hqueue]
        exact hs
      · rw [push, if_neg hlen]
        exact hs
  | timer =>
      obtain ⟨-, rfl⟩ : s.timer = true ∧ queueFlush s = s' := by simpa [step] using h
      rw [hqueue, hs]
  | begin =>
      simp only [step] at h
      split at h
      · obtain rfl := Option.some.inj h
        exact hs
      · cases h
  | settle ok =>
      obtain rfl : ok = true := by simpa [StreamEvent.writes, StreamEvent.sends] using he
      simp only [step] at h
      split at h
      · obtain rfl := Option.some.inj h
        exact hs
      · cases h
  | flushed =>
      simp only [step] at h
      split at h
      · simp only [hs, Option.any_none, Bool.false_eq_true, if_false] at h
        split_ifs at h
        obtain rfl := Option.some.inj h
        rfl
      · cases h
  | flush | cancel => simp [StreamEvent.writes, StreamEvent.sends] at he

/-- No delta that waits is numbered beyond the stream. -/
theorem Stream.Ordered.pending_eq_nil (hs : s.Ordered)
    (h : s.pending.all (fun d => s.sequence < d.sequence) = true) : s.pending = [] := by
  refine List.eq_nil_iff_forall_not_mem.mpr fun d hd => ?_
  have hlt : s.sequence < d.sequence := by simpa using List.all_eq_true.mp h d hd
  have hqueued : d ∈ s.queued := by
    rcases List.mem_append.mp hd with hd | hd
    · exact hs.inFlight d (by simpa using hd)
    · exact List.mem_append_right _ hd
  have hmem : d.sequence ∈ List.range' 1 s.sequence := hs.numbered ▸ List.mem_map_of_mem hqueued
  rw [List.mem_range'_1] at hmem
  omega

theorem step_flushed (hs : s.Ordered) (h : Flushed s) (he : e.sends = true)
    (hstep : step s e = some s') : Flushed s' := by
  have hfailed := step_failed (.inr he) hstep h.failed
  cases e with
  | timer => simp [step, h.timer] at hstep
  | begin =>
      simp only [step] at hstep
      split at hstep
      · rename_i d rest _ _ hw
        obtain rfl := Option.some.inj hstep
        refine ⟨h.buffer, h.timer, hfailed, h.call.imp_right fun ⟨_, hp⟩ => ?_⟩
        simp [Stream.pending, hw] at hp
      · cases hstep
  | settle ok =>
      simp only [step] at hstep
      split at hstep
      · rename_i d hd
        obtain rfl := Option.some.inj hstep
        refine ⟨h.buffer, h.timer, hfailed, h.call.imp_right fun ⟨_, hp⟩ => ?_⟩
        simp [Stream.pending, hd] at hp
      · cases hstep
  | flushed =>
      rcases h.call with hcall | ⟨hcall, -⟩
      · simp only [step, hcall, h.failed, Option.any_none, Bool.false_eq_true, if_false] at hstep
        split_ifs at hstep with hall
        obtain rfl := Option.some.inj hstep
        exact ⟨h.buffer, h.timer, hfailed, .inr ⟨rfl, hs.pending_eq_nil hall⟩⟩
      · simp [step, hcall] at hstep
  | push _ | flush | cancel => cases he

theorem runs_flushed (hs : s.Ordered) (h : Flushed s) (hes : ∀ e ∈ es, e.sends = true)
    (hrun : runs s es = some s') : s'.Ordered ∧ Flushed s' := by
  refine runs_keeps (P := fun e => e.sends = true) (J := fun s => s.Ordered ∧ Flushed s) ?_ hes
    ⟨hs, h⟩ hrun
  rintro s e s' he hstep ⟨hs, h⟩
  obtain ⟨ds, hadds, -⟩ := step_adds hstep
  exact ⟨hadds.ordered hs, step_flushed hs h he hstep⟩

theorem flushed_flush (hs : s.failed = none) : Flushed (flush s) := by
  unfold flush
  rcases queueFlush_cases s with ⟨hb, hq⟩ | ⟨-, hq⟩
  · rw [hq]
    exact ⟨hb, rfl, hs, .inl rfl⟩
  · rw [hq]
    exact ⟨rfl, rfl, hs, .inl rfl⟩

/-- The messages are numbered `1..n` in order, none is empty, and they are what was pushed. -/
structure Complete (es : List (StreamEvent α)) (sent : List (TextDelta α)) (n : ℕ) : Prop where
  numbered : sent.map TextDelta.sequence = List.range' 1 n
  nonempty : ∀ d ∈ sent, d.delta ≠ []
  text : textOf sent = pushed es

/-- A turn: it flushes at its end, is not cancelled, and all of its sends succeed. -/
structure Turn (before after : List (StreamEvent α)) : Prop where
  before : ∀ e ∈ before, e.writes = true
  after : ∀ e ∈ after, e.sends = true

namespace Turn

variable {before after : List (StreamEvent α)}

/-- After the flush of a turn. -/
theorem flushed (ht : Turn before after)
    (h : runs Stream.new (before ++ .flush :: after) = some s) : s.Ordered ∧ Flushed s := by
  obtain ⟨s₀, hbefore, h⟩ := runs_append.mp h
  obtain ⟨s₁, hflush, h⟩ := runs_cons.mp h
  obtain rfl : flush s₀ = s₁ := by simpa [step] using hflush
  have hfailed : s₀.failed = none :=
    runs_keeps (P := fun e => e.writes = true) (J := fun s => s.failed = none)
      (fun _ _ _ he hstep hs => step_failed (.inl he) hstep hs) ht.before rfl hbefore
  have hordered : (flush s₀).Ordered := by
    have hone : runs s₀ [.flush] = some (flush s₀) := by simp [runs, step]
    exact runs_ordered (runs_ordered ordered_new hbefore) hone
  exact runs_flushed hordered (flushed_flush hfailed) ht.after h

/-- Everything that was pushed is queued. -/
theorem text (ht : Turn before after) (h : runs Stream.new (before ++ .flush :: after) = some s) :
    textOf s.queued = pushed before := by
  obtain ⟨ds, hadds, htext, -⟩ := runs_adds h
  have hnone : ∀ e ∈ before ++ .flush :: after, e ≠ .cancel := by
    rintro e he rfl
    simp only [List.mem_append, List.mem_cons, reduceCtorEq, false_or] at he
    rcases he with he | he
    · cases ht.before _ he
    · cases ht.after _ he
  have hafter : pushed after = [] := by
    refine List.flatMap_eq_nil_iff.mpr fun e he => ?_
    have hsends := ht.after e he
    cases e <;> first | rfl | cases hsends
  have hall : pushed (before ++ .flush :: after) = pushed before := by
    have hcons : pushed (.flush :: after) = pushed after := rfl
    rw [pushed, List.flatMap_append, ← pushed, ← pushed, hcons, hafter, List.append_nil]
  have hqueued : s.queued = ds := hadds.queued
  rw [hqueued, ← hall, ← List.nil_append (pushed _)]
  have hbuffer := (ht.flushed h).2.buffer
  simpa [hbuffer, Stream.new] using htext hnone

/-- When the flush has returned, the messages are complete, and it returned their number. -/
theorem complete {n : ℕ} (ht : Turn before after)
    (h : runs Stream.new (before ++ .flush :: after) = some s) (hn : s.flushCall = .returned n) :
    Complete before s.sent n := by
  obtain ⟨hordered, hflushed⟩ := ht.flushed h
  have htext := ht.text h
  rcases hflushed.call with hcall | ⟨hcall, hpending⟩
  · simp [hcall] at hn
  · obtain rfl : s.sequence = n := by simpa [hcall] using hn
    have hqueued : s.queued = s.sent := by
      have hwaiting : s.waiting = [] := (List.append_eq_nil_iff.mp hpending).2
      simp [Stream.queued, hwaiting]
    rw [hqueued] at htext
    exact ⟨hqueued ▸ hordered.numbered, fun d hd => hordered.nonempty d (hqueued ▸ hd), htext⟩

end Turn

end Vops.RemoteChatStream
