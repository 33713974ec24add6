import Vops.Remote.RemoteGateway

/-!
# An accepted message is dispatched once

Any number of envelopes, each of them delivered any number of times, are handled side by side; the relay,
the device registry, the store and the audit log may fail at any operation.

* `EnvelopeStage`, `EnvelopeStep`, `follows_handleEnvelope` — how far `handleEnvelope` has come.
* `AcceptedBy`, `Opened`, `dispatched` — what a run shows of an envelope.
* `Behaves` — the operations that have to succeed: the acknowledgement behind an acceptance, `touch`, the
  audit event of a refusal.
* `Dispatches` — the invariant: an acceptance of a message belongs to one delivery of it.
* `dispatched_once` — along every schedule that behaves, an accepted message is dispatched once, no
  envelope is acknowledged too early, and `handleEnvelope` does not reject.
* `deliverTwice_lost` — a command is lost where `touch` fails behind its acceptance.
-/

set_option linter.unusedSectionVars false

namespace Vops.RemoteGateway

open Async

/-! ## Stages -/

/-- How far the handling of an envelope has come, with the payload once it is known. -/
inductive EnvelopeStage
  | entered
  | opened (payload : InboundPayload)
  | recorded (payload : InboundPayload)
  | acknowledged (payload : InboundPayload)
  | touched (payload : InboundPayload)
  | handed
  | notNew
  | lost
  | refused

/-- A stage, and whether the audit event of a refusal failed. -/
structure EnvelopePhase where
  stage : EnvelopeStage
  threw : Bool := false

/-- A handler is called. -/
def GatewayOp.dispatches : GatewayOp → Bool
  | snapshot _ _ | chat _ _ | cancelChat _ _ | command _ _ _ => true
  | _ => false

/-- The operation only looks something up. -/
def GatewayOp.looksUp : GatewayOp → Bool
  | now | ensureNodeIdentity | getActiveByRoute _ => true
  | _ => false

/-- The type of the audit event of a refusal. -/
def rejectedType : String := "remote.message.rejected"

/-- The answer is an error. -/
def fails : (o : GatewayOp) → GatewayRes o → Bool
  | .acknowledge _, .error _ => true
  | .touch _, .error _ => true
  | .appendEvent _ _ _, .error _ => true
  | _, _ => false

/-- The store has answered, and what follows an acceptance is over. -/
def EnvelopeStage.settled : EnvelopeStage → Bool
  | touched _ | handed | notNew | lost => true
  | _ => false

/-- The store has not answered. -/
def EnvelopeStage.unsettled : EnvelopeStage → Bool
  | entered | opened _ => true
  | _ => false

/-- A refusal may be recorded; what is no envelope is not acknowledged first. -/
def EnvelopeStage.rejects (c : Option RemoteEnvelopeV1) : EnvelopeStage → Bool
  | touched _ | handed | notNew | lost | refused => true
  | entered => c.isNone
  | _ => false

/-- The steps of `handleEnvelope`. -/
inductive EnvelopeStep (c : Option RemoteEnvelopeV1) : Protocol GatewayOp GatewayRes EnvelopePhase
  | lookUp (threw o x) : o.looksUp = true → EnvelopeStep c ⟨.entered, threw⟩ o x ⟨.entered, threw⟩
  | unreadable (threw device e x) : c = some e →
      (∀ plain payload, x = .ok plain → parseRemoteInboundPayload plain ≠ .ok payload) →
      EnvelopeStep c ⟨.entered, threw⟩ (.decryptFromDevice device e) x ⟨.entered, threw⟩
  | read (threw device e plain payload) : c = some e → parseRemoteInboundPayload plain = .ok payload →
      EnvelopeStep c ⟨.entered, threw⟩ (.decryptFromDevice device e) (.ok plain)
        ⟨.opened payload, threw⟩
  | record (threw payload e deviceId sequence expiresAt) : c = some e →
      EnvelopeStep c ⟨.opened payload, threw⟩
        (.acceptInboundMessage deviceId (e.message_id.getD "") sequence expiresAt) (.ok true)
        ⟨.recorded payload, threw⟩
  | known (threw payload deviceId messageId sequence expiresAt) :
      EnvelopeStep c ⟨.opened payload, threw⟩
        (.acceptInboundMessage deviceId messageId sequence expiresAt) (.ok false) ⟨.notNew, threw⟩
  | storeFailed (threw payload deviceId messageId sequence expiresAt failure) :
      EnvelopeStep c ⟨.opened payload, threw⟩
        (.acceptInboundMessage deviceId messageId sequence expiresAt) (.error failure)
        ⟨.opened payload, threw⟩
  | acknowledge (threw payload id) :
      EnvelopeStep c ⟨.recorded payload, threw⟩ (.acknowledge id) (.ok ()) ⟨.acknowledged payload, threw⟩
  | acknowledgeFailed (threw payload id failure) :
      EnvelopeStep c ⟨.recorded payload, threw⟩ (.acknowledge id) (.error failure) ⟨.lost, threw⟩
  | touch (threw payload deviceId) :
      EnvelopeStep c ⟨.acknowledged payload, threw⟩ (.touch deviceId) (.ok ()) ⟨.touched payload, threw⟩
  | touchFailed (threw payload deviceId failure) :
      EnvelopeStep c ⟨.acknowledged payload, threw⟩ (.touch deviceId) (.error failure) ⟨.lost, threw⟩
  | hand (threw payload o x) : o.dispatches = true →
      EnvelopeStep c ⟨.touched payload, threw⟩ o x ⟨.handed, threw⟩
  | reply (threw device requestId x) :
      EnvelopeStep c ⟨.handed, threw⟩ (.sendSnapshot device requestId) x ⟨.handed, threw⟩
  | replayed (threw summary detail x) :
      EnvelopeStep c ⟨.notNew, threw⟩ (.appendEvent "remote.message.replayed" summary detail) x
        ⟨.notNew, threw⟩
  | acknowledgeAgain (stage threw id x) : stage.settled = true →
      EnvelopeStep c ⟨stage, threw⟩ (.acknowledge id) x ⟨stage, threw⟩
  | acknowledgeRefused (stage threw id x) : stage.unsettled = true →
      EnvelopeStep c ⟨stage, threw⟩ (.acknowledge id) x ⟨.refused, threw⟩
  | reject (stage threw summary detail) : stage.rejects c = true →
      EnvelopeStep c ⟨stage, threw⟩ (.appendEvent rejectedType summary detail) (.ok ()) ⟨stage, threw⟩
  | rejectFailed (stage threw summary detail failure) : stage.rejects c = true →
      EnvelopeStep c ⟨stage, threw⟩ (.appendEvent rejectedType summary detail) (.error failure)
        ⟨stage, true⟩

/-- A call of `handleEnvelope` ends without an error unless the audit event of a refusal failed, and not
between an acceptance and its dispatch, unless the payload came on a wrong channel. -/
def EnvelopeEnd (c : Option RemoteEnvelopeV1) (r : Except RemoteFailure Unit) (φ : EnvelopePhase) :
    Prop :=
  (φ.threw = false → r = .ok ()) ∧
    match φ.stage with
    | .recorded _ | .acknowledged _ => False
    | .touched payload => ∀ e, c = some e → e.channel ≠ payload.channel.1
    | _ => True

section Following

variable {c : Option RemoteEnvelopeV1} {e : RemoteEnvelopeV1} {stage : EnvelopeStage}

/-- The `catch` block follows from wherever an error may be thrown. -/
theorem follows_refuse (error : RemoteFailure) (hstage : stage.settled = true ∨ stage.unsettled = true)
    (hchannel : ∀ payload, stage = .touched payload → ∀ e, c = some e →
      e.channel ≠ payload.channel.1)
    (hnone : c = none → stage = .entered) :
    Follows (EnvelopeStep c) (EnvelopeEnd c) (refuse c error) ⟨stage, false⟩ := by
  cases c with
  | none =>
      obtain rfl := hnone rfl
      intro x
      cases x with
      | ok u => exact ⟨_, .reject _ _ _ _ rfl, fun _ => rfl, trivial⟩
      | error failure => exact ⟨_, .rejectFailed _ _ _ _ _ rfl, nofun, trivial⟩
  | some e =>
      intro x
      rcases hstage with hsettled | hunsettled
      · refine ⟨⟨stage, false⟩, .acknowledgeAgain _ _ _ _ hsettled, fun x => ?_⟩
        have hrejects : stage.rejects (some e) = true := by cases stage <;> first | rfl | cases hsettled
        have hend : ∀ threw r, (threw = false → r = .ok ()) →
            EnvelopeEnd (some e) r ⟨stage, threw⟩ := by
          intro threw r hr
          refine ⟨hr, ?_⟩
          cases stage with
          | touched payload => exact hchannel payload rfl
          | recorded payload => cases hsettled
          | acknowledged payload => cases hsettled
          | _ => trivial
        cases x with
        | ok u => exact ⟨_, .reject _ _ _ _ hrejects, hend _ _ fun _ => rfl⟩
        | error failure => exact ⟨_, .rejectFailed _ _ _ _ _ hrejects, hend _ _ nofun⟩
      · refine ⟨⟨.refused, false⟩, .acknowledgeRefused _ _ _ _ hunsettled, fun x => ?_⟩
        cases x with
        | ok u => exact ⟨_, .reject _ _ _ _ rfl, fun _ => rfl, trivial⟩
        | error failure => exact ⟨_, .rejectFailed _ _ _ _ _ rfl, nofun, trivial⟩

/-- What the body of `handleEnvelope` ends in: a result, or an error that the `catch` block takes up. -/
def BodyEnd (c : Option RemoteEnvelopeV1) (r : Except RemoteFailure Unit) (φ : EnvelopePhase) : Prop :=
  match r with
  | .ok a => EnvelopeEnd c (.ok a) φ
  | .error error => Follows (EnvelopeStep c) (EnvelopeEnd c) (refuse c error) φ

theorem follows_dispatch (device : RemoteDevice) (payload : InboundPayload) :
    Follows (EnvelopeStep (some e)) (BodyEnd (some e)) (dispatch device e payload)
      ⟨.touched payload, false⟩ := by
  have hcatch : ∀ error, BodyEnd (some e) (.error error) ⟨.handed, false⟩ := fun error =>
    follows_refuse error (.inl rfl) nofun nofun
  have hdone : BodyEnd (some e) (.ok ()) ⟨.handed, false⟩ := ⟨fun _ => rfl, trivial⟩
  unfold dispatch
  show Follows _ _ (if _ then _ else _) _
  split_ifs with hchannel
  · refine follows_refuse _ (.inl rfl) (fun payload' hp e' he => ?_) nofun
    cases hp
    cases he
    exact hchannel
  · cases payload with
    | syncRequest requestId =>
        intro x
        refine ⟨_, .hand _ _ _ _ rfl, ?_⟩
        cases x with
        | error failure => exact hcatch failure
        | ok u =>
            intro x
            refine ⟨_, .reply _ _ _ _, ?_⟩
            cases x with
            | error failure => exact hcatch failure
            | ok u => exact hdone
    | userMessage message => exact fun x => ⟨_, .hand _ _ _ _ rfl, hdone⟩
    | chatCancel message =>
        intro x
        refine ⟨_, .hand _ _ _ _ rfl, ?_⟩
        cases x with
        | error failure => exact hcatch failure
        | ok u => exact hdone
    | command requestId signed => exact fun x => ⟨_, .hand _ _ _ _ rfl, hdone⟩

theorem follows_accepted (device : RemoteDevice) (payload : InboundPayload) :
    Follows (EnvelopeStep (some e)) (BodyEnd (some e)) (accepted device e payload true)
      ⟨.recorded payload, false⟩ := by
  have hlost : ∀ error, BodyEnd (some e) (.error error) ⟨.lost, false⟩ := fun error =>
    follows_refuse error (.inl rfl) nofun nofun
  intro x
  cases x with
  | error failure => exact ⟨_, .acknowledgeFailed _ _ _ _, hlost failure⟩
  | ok u =>
      refine ⟨_, .acknowledge _ _ _, fun x => ?_⟩
      cases x with
      | error failure => exact ⟨_, .touchFailed _ _ _ _, hlost failure⟩
      | ok u => exact ⟨_, .touch _ _ _, follows_dispatch device payload⟩

theorem follows_notNew (device : RemoteDevice) (payload : InboundPayload) :
    Follows (EnvelopeStep (some e)) (BodyEnd (some e)) (accepted device e payload false)
      ⟨.notNew, false⟩ := by
  have hcatch : ∀ error, BodyEnd (some e) (.error error) ⟨.notNew, false⟩ := fun error =>
    follows_refuse error (.inl rfl) nofun nofun
  intro x
  refine ⟨_, .acknowledgeAgain _ _ _ _ rfl, ?_⟩
  cases x with
  | error failure => exact hcatch failure
  | ok u =>
      intro x
      refine ⟨_, .replayed _ _ _ _, ?_⟩
      cases x with
      | error failure => exact hcatch failure
      | ok u => exact ⟨fun _ => rfl, trivial⟩

theorem follows_receive :
    Follows (EnvelopeStep (some e)) (BodyEnd (some e)) (receive e) ⟨.entered, false⟩ := by
  have hcatch : ∀ error, BodyEnd (some e) (.error error) ⟨.entered, false⟩ := fun error =>
    follows_refuse error (.inr rfl) nofun nofun
  intro x
  refine ⟨_, .lookUp _ _ _ rfl, ?_⟩
  cases x with
  | error failure => exact hcatch failure
  | ok nodeId =>
      show Follows _ _ (if _ then _ else _) _
      split_ifs
      · exact hcatch _
      · intro x
        refine ⟨_, .lookUp _ _ _ rfl, ?_⟩
        cases x with
        | error failure => exact hcatch failure
        | ok device =>
            show Follows _ _ (if _ then _ else _) _
            split_ifs
            · exact hcatch _
            · intro x
              cases x with
              | error failure => exact ⟨_, .unreadable _ _ _ _ rfl nofun, hcatch failure⟩
              | ok plain =>
                  cases hpayload : parseRemoteInboundPayload plain with
                  | error failure =>
                      refine ⟨_, .unreadable _ _ _ _ rfl ?_, ?_⟩
                      · rintro _ payload ⟨⟩ hok
                        cases hpayload.symm.trans hok
                      · show Follows _ _ (orThrow (parseRemoteInboundPayload plain) >>= _) _
                        rw [hpayload]
                        exact hcatch failure
                  | ok payload =>
                      refine ⟨_, .read _ _ _ _ _ rfl hpayload, ?_⟩
                      show Follows _ _ (orThrow (parseRemoteInboundPayload plain) >>= _) _
                      rw [hpayload]
                      intro x
                      cases x with
                      | error failure =>
                          exact ⟨_, .storeFailed _ _ _ _ _ _ _, follows_refuse failure (.inr rfl)
                            nofun nofun⟩
                      | ok fresh =>
                          cases fresh with
                          | true => exact ⟨_, .record _ _ _ _ _ _ rfl, follows_accepted device payload⟩
                          | false => exact ⟨_, .known _ _ _ _ _ _, follows_notNew device payload⟩

/-- Every call of `handleEnvelope` goes through the stages. -/
theorem follows_handleEnvelope (dateParse : String → Option ℤ) (c : Option RemoteEnvelopeV1) :
    Follows (EnvelopeStep c) (EnvelopeEnd c) (handleEnvelope dateParse c) ⟨.entered, false⟩ := by
  have hcatch : ∀ error, BodyEnd c (.error error) ⟨.entered, false⟩ := fun error =>
    follows_refuse error (.inr rfl) nofun fun _ => rfl
  refine Follows.tryCatch (Follows.mono (Q := BodyEnd c) (fun now => ⟨_, .lookUp _ _ _ rfl, ?_⟩) ?_)
  · show Follows _ _ (orThrow (validateEnvelope dateParse now c) >>= _) _
    cases hvalid : validateEnvelope dateParse now c with
    | error failure => exact hcatch failure
    | ok u =>
        cases c with
        | none => cases hvalid
        | some e => exact follows_receive
  · intro r φ h
    cases r <;> exact h

end Following

/-! ## What a run shows -/

variable {ι : Type} [DecidableEq ι]

/-- What the deliveries have done, in which state. -/
abbrev GatewayLog (ι : Type) := List (Pool.Event GatewayOp ι GatewayWorld)

/-- Deliveries at work, and what they have done. -/
abbrev GatewayPool (ι : Type) :=
  Pool GatewayOp GatewayRes RemoteFailure Unit ι (GatewayWorld × GatewayLog ι)

/-- The deliveries, before their first operation. -/
def startEnvelopes (dateParse : String → Option ℤ) (calls : ι → Option RemoteEnvelopeV1)
    (w : GatewayWorld) : GatewayPool ι :=
  ⟨(w, []), fun i => handleEnvelope dateParse (calls i)⟩

/-- The message id of a delivery. -/
def messageId (c : Option RemoteEnvelopeV1) : String := (c.bind RemoteEnvelopeV1.message_id).getD ""

/-- What `acceptInboundMessage` answered, if the event is a call of it that did not throw. -/
def freshness (env : GatewayEnv) (e : Pool.Event GatewayOp ι GatewayWorld) : Option Bool :=
  match e.op with
  | .acceptInboundMessage deviceId messageId sequence expiresAt =>
      (gatewayHandle env (.acceptInboundMessage deviceId messageId sequence expiresAt) e.before).1.toOption
  | _ => none

/-- The delivery was accepted. -/
def AcceptedBy (env : GatewayEnv) (i : ι) (log : GatewayLog ι) : Prop :=
  ∃ e ∈ log, e.task = i ∧ freshness env e = some true

/-- The store has answered the delivery. -/
def AnsweredFor (env : GatewayEnv) (i : ι) (log : GatewayLog ι) : Prop :=
  ∃ e ∈ log, e.task = i ∧ (freshness env e).isSome = true

/-- The event reads a payload. -/
def Reads (env : GatewayEnv) (payload : InboundPayload) (e : Pool.Event GatewayOp ι GatewayWorld) :
    Prop :=
  ∃ device envelope plain, e.op = .decryptFromDevice device envelope ∧
    env.decrypt e.before.answers device envelope = .ok plain ∧
    parseRemoteInboundPayload plain = .ok payload

/-- The delivery holds the payload. -/
def Opened (env : GatewayEnv) (i : ι) (log : GatewayLog ι) (payload : InboundPayload) : Prop :=
  ∃ e ∈ log, e.task = i ∧ Reads env payload e

/-- An acknowledgement. -/
def GatewayOp.acknowledges : GatewayOp → Bool
  | acknowledge _ => true
  | _ => false

/-- The audit event of a refusal. -/
def GatewayOp.rejects : GatewayOp → Bool
  | appendEvent type _ _ => type == rejectedType
  | _ => false

/-- A handler is called by the delivery. -/
def dispatchedBy (i : ι) (e : Pool.Event GatewayOp ι GatewayWorld) : Bool :=
  decide (e.task = i) && e.op.dispatches

/-- A handler is called for a message. -/
def dispatched (calls : ι → Option RemoteEnvelopeV1) (id : String)
    (e : Pool.Event GatewayOp ι GatewayWorld) : Bool :=
  messageId (calls e.task) == id && e.op.dispatches

/-- An acknowledgement stands behind the answer of the store, or belongs to a refusal: then its delivery
does nothing else but record it. -/
def AcknowledgedBehind (env : GatewayEnv) (log : GatewayLog ι) : Prop :=
  ∀ l₁ e l₂, log = l₁ ++ e :: l₂ → e.op.acknowledges = true →
    AnsweredFor env e.task l₁ ∨ ∀ e' ∈ l₂, e'.task = e.task → e'.op.rejects = true

/-- The operations that have to succeed: the first acknowledgement of an accepted delivery, `touch`, and
the audit event of a refusal. -/
def mustSucceed (env : GatewayEnv) (i : ι) (log : GatewayLog ι) : GatewayOp → Prop
  | .acknowledge _ =>
      AcceptedBy env i log ∧ ∀ e ∈ log, e.task = i → e.op.acknowledges = false
  | .touch _ => True
  | .appendEvent type _ _ => type = rejectedType
  | _ => False

/-- The next operation of the delivery succeeds, if it has to. -/
def Behaves (env : GatewayEnv) (p : GatewayPool ι) (i : ι) : Prop :=
  ∀ o k, p.task i = .await o k → mustSucceed env i p.state.2 o →
    fails o (gatewayHandle env o p.state.1).1 = false

/-! ## The invariant -/

/-- The delivery was accepted. -/
def EnvelopeStage.holds : EnvelopeStage → Bool
  | recorded _ | acknowledged _ | touched _ | handed | lost => true
  | _ => false

/-- The store has answered. -/
def EnvelopeStage.answered : EnvelopeStage → Bool
  | entered | opened _ | refused => false
  | _ => true

/-- Nothing was acknowledged. -/
def EnvelopeStage.unacknowledged : EnvelopeStage → Bool
  | entered | opened _ | recorded _ => true
  | _ => false

/-- A handler was called. -/
def EnvelopeStage.isHanded : EnvelopeStage → Bool
  | handed => true
  | _ => false

/-- A payload that was read is the one of the stage. -/
def EnvelopeStage.Agrees (payload : InboundPayload) : EnvelopeStage → Prop
  | entered => False
  | opened p | recorded p | acknowledged p | touched p => payload = p
  | _ => True

/-- What holds at every moment. -/
structure Dispatches (env : GatewayEnv) (calls : ι → Option RemoteEnvelopeV1) (φ : ι → EnvelopePhase)
    (s : GatewayWorld × GatewayLog ι) : Prop where
  fine : ∀ i, (φ i).threw = false ∧ (φ i).stage ≠ .lost
  stored : ∀ i, (φ i).stage.holds = true → s.1.replay.seen (messageId (calls i)) = true
  apart : ∀ i j, i ≠ j → (φ i).stage.holds = true → (φ j).stage.holds = true →
    messageId (calls i) ≠ messageId (calls j)
  accepted : ∀ i, AcceptedBy env i s.2 ↔ (φ i).stage.holds = true
  agrees : ∀ i payload, Opened env i s.2 payload → (φ i).stage.Agrees payload
  once : ∀ i, s.2.countP (dispatchedBy i) = if (φ i).stage.isHanded then 1 else 0
  unacknowledged : ∀ i, (φ i).stage.unacknowledged = true →
    ∀ e ∈ s.2, e.task = i → e.op.acknowledges = false
  answered : ∀ i, (φ i).stage.answered = true → AnsweredFor env i s.2
  behind : ∀ l₁ e l₂, s.2 = l₁ ++ e :: l₂ → e.op.acknowledges = true →
    AnsweredFor env e.task l₁ ∨ (φ e.task).stage = .refused ∧
      ∀ e' ∈ l₂, e'.task = e.task → e'.op.rejects = true

section Steps

variable {env : GatewayEnv} {calls : ι → Option RemoteEnvelopeV1} {φ : ι → EnvelopePhase}
  {s : GatewayWorld × GatewayLog ι} {i : ι} {φ' : EnvelopePhase} {w' : GatewayWorld} {o : GatewayOp}

theorem AcceptedBy.concat_iff {log : GatewayLog ι} {e : Pool.Event GatewayOp ι GatewayWorld} :
    AcceptedBy env i (log ++ [e]) ↔
      AcceptedBy env i log ∨ e.task = i ∧ freshness env e = some true := by
  simp [AcceptedBy, or_and_right, exists_or]

theorem Opened.concat {log : GatewayLog ι} {e : Pool.Event GatewayOp ι GatewayWorld}
    {payload : InboundPayload} (h : Opened env i (log ++ [e]) payload) :
    Opened env i log payload ∨ e.task = i ∧ Reads env payload e := by
  obtain ⟨e', he', h⟩ := h
  rcases List.mem_append.mp he' with hmem | hmem
  · exact .inl ⟨e', hmem, h⟩
  · obtain rfl := List.mem_singleton.mp hmem
    exact .inr h

theorem AnsweredFor.mono {log : GatewayLog ι} (h : AnsweredFor env i log)
    (e : Pool.Event GatewayOp ι GatewayWorld) : AnsweredFor env i (log ++ [e]) := by
  obtain ⟨e', he', h⟩ := h
  exact ⟨e', List.mem_append_left _ he', h⟩

/-- One more event at the end of a log that is split. -/
theorem splits_concat {α : Type} {log l₁ l₂ : List α} {e e' : α} (h : log ++ [e'] = l₁ ++ e :: l₂) :
    (l₁ = log ∧ e = e' ∧ l₂ = []) ∨ ∃ l₂', log = l₁ ++ e :: l₂' ∧ l₂ = l₂' ++ [e'] := by
  rcases List.eq_nil_or_concat l₂ with rfl | ⟨l₂', e'', rfl⟩
  · obtain ⟨rfl, hlast⟩ := List.append_inj' h rfl
    exact .inl ⟨rfl, (List.cons.inj hlast).1.symm, rfl⟩
  · have h' : log ++ [e'] = (l₁ ++ e :: l₂') ++ [e''] := by simpa using h
    obtain ⟨hlog, hlast⟩ := List.append_inj' h' rfl
    exact .inr ⟨l₂', hlog, by rw [(List.cons.inj hlast).1]; simp⟩

/-- What a step has to show. -/
theorem Dispatches.step (h : Dispatches env calls φ s)
    (hfine : φ'.threw = false ∧ φ'.stage ≠ .lost)
    (hmono : ∀ id, s.1.replay.seen id = true → w'.replay.seen id = true)
    (hholds : φ'.stage.holds = true → (φ i).stage.holds = true ∨
      w'.replay.seen (messageId (calls i)) = true ∧ s.1.replay.seen (messageId (calls i)) = false)
    (haccepted : (φ i).stage.holds = true ∨
      freshness env (⟨i, o, s.1⟩ : Pool.Event GatewayOp ι GatewayWorld) = some true ↔
        φ'.stage.holds = true)
    (hagrees : ∀ payload, (φ i).stage.Agrees payload ∨
      Reads env payload (⟨i, o, s.1⟩ : Pool.Event GatewayOp ι GatewayWorld) → φ'.stage.Agrees payload)
    (honce : o.dispatches = false ∧ φ'.stage.isHanded = (φ i).stage.isHanded ∨
      o.dispatches = true ∧ (φ i).stage.isHanded = false ∧ φ'.stage.isHanded = true)
    (hunacknowledged : φ'.stage.unacknowledged = true →
      (φ i).stage.unacknowledged = true ∧ o.acknowledges = false)
    (hanswered : φ'.stage.answered = true → (φ i).stage.answered = true ∨
      (freshness env (⟨i, o, s.1⟩ : Pool.Event GatewayOp ι GatewayWorld)).isSome = true)
    (hbehind : o.acknowledges = true → (φ i).stage.answered = true ∨ φ'.stage = .refused)
    (hrefused : (φ i).stage = .refused → φ'.stage = .refused ∧ o.rejects = true) :
    Dispatches env calls (Function.update φ i φ') (w', s.2 ++ [⟨i, o, s.1⟩]) := by
  have hnew : ∀ j, j ≠ i → φ'.stage.holds = true → (φ j).stage.holds = true →
      messageId (calls i) ≠ messageId (calls j) := by
    intro j hj hi' hj'
    rcases hholds hi' with hold | ⟨-, hfree⟩
    · exact h.apart i j (Ne.symm hj) hold hj'
    · intro heq
      rw [heq, h.stored j hj'] at hfree
      cases hfree
  refine ⟨?_, ?_, ?_, ?_, ?_, ?_, ?_, ?_, ?_⟩
  · exact (Function.forall_update_iff φ fun _ ψ => ψ.threw = false ∧ ψ.stage ≠ .lost).mpr
      ⟨hfine, fun j _ => h.fine j⟩
  · refine (Function.forall_update_iff φ fun j ψ => ψ.stage.holds = true →
      w'.replay.seen (messageId (calls j)) = true).mpr
        ⟨fun hi' => ?_, fun j _ hj => hmono _ (h.stored j hj)⟩
    rcases hholds hi' with hold | ⟨hseen, -⟩
    · exact hmono _ (h.stored i hold)
    · exact hseen
  · intro j j' hne hj hj'
    by_cases hji : j = i
    · subst hji
      rw [Function.update_self] at hj
      rw [Function.update_of_ne (Ne.symm hne)] at hj'
      exact hnew j' (Ne.symm hne) hj hj'
    · rw [Function.update_of_ne hji] at hj
      by_cases hji' : j' = i
      · subst hji'
        rw [Function.update_self] at hj'
        exact (hnew j hne hj' hj).symm
      · rw [Function.update_of_ne hji'] at hj'
        exact h.apart j j' hne hj hj'
  · refine (Function.forall_update_iff φ fun j ψ =>
      AcceptedBy env j (s.2 ++ [⟨i, o, s.1⟩]) ↔ ψ.stage.holds = true).mpr ⟨?_, fun j hj => ?_⟩
    · rw [AcceptedBy.concat_iff, h.accepted i, ← haccepted]
      simp
    · rw [AcceptedBy.concat_iff, h.accepted j]
      simp [Ne.symm hj]
  · refine (Function.forall_update_iff φ fun j ψ => ∀ payload,
      Opened env j (s.2 ++ [⟨i, o, s.1⟩]) payload → ψ.stage.Agrees payload).mpr
        ⟨fun payload hopen => ?_, fun j hj payload hopen => ?_⟩
    · rcases hopen.concat with hold | ⟨-, hreads⟩
      · exact hagrees payload (.inl (h.agrees i payload hold))
      · exact hagrees payload (.inr hreads)
    · rcases hopen.concat with hold | ⟨htask, -⟩
      · exact h.agrees j payload hold
      · exact absurd htask.symm hj
  · refine (Function.forall_update_iff φ fun j ψ =>
      (s.2 ++ [⟨i, o, s.1⟩] : GatewayLog ι).countP (dispatchedBy j) =
        if ψ.stage.isHanded then 1 else 0).mpr ⟨?_, fun j hj => ?_⟩
    · rw [List.countP_append, h.once i, List.countP_singleton]
      rcases honce with ⟨hno, hsame⟩ | ⟨hyes, hbefore, hafter⟩
      · simp [dispatchedBy, hno, hsame]
      · simp [dispatchedBy, hyes, hbefore, hafter]
    · rw [List.countP_append, h.once j, List.countP_singleton]
      simp [dispatchedBy, Ne.symm hj]
  · refine (Function.forall_update_iff φ fun j ψ => ψ.stage.unacknowledged = true →
      ∀ e ∈ s.2 ++ [⟨i, o, s.1⟩], e.task = j → e.op.acknowledges = false).mpr
        ⟨fun hun => ?_, fun j hj hun => ?_⟩
    · obtain ⟨hbefore, hno⟩ := hunacknowledged hun
      exact List.forall_mem_append.mpr ⟨h.unacknowledged i hbefore,
        List.forall_mem_singleton.mpr fun _ => hno⟩
    · exact List.forall_mem_append.mpr ⟨h.unacknowledged j hun,
        List.forall_mem_singleton.mpr fun htask => absurd htask.symm hj⟩
  · refine (Function.forall_update_iff φ fun j ψ => ψ.stage.answered = true →
      AnsweredFor env j (s.2 ++ [⟨i, o, s.1⟩])).mpr
        ⟨fun hans => ?_, fun j _ hans => (h.answered j hans).mono _⟩
    rcases hanswered hans with hold | hfresh
    · exact (h.answered i hold).mono _
    · exact ⟨⟨i, o, s.1⟩, by simp, rfl, hfresh⟩
  · intro l₁ e l₂ hsplit hack
    rcases splits_concat hsplit with ⟨rfl, rfl, rfl⟩ | ⟨l₂', hlog, rfl⟩
    · rcases hbehind hack with hans | href
      · exact .inl (h.answered i hans)
      · refine .inr ⟨?_, List.forall_mem_nil _⟩
        show (Function.update φ i φ' i).stage = .refused
        rw [Function.update_self]
        exact href
    · rcases h.behind l₁ e l₂' hlog hack with hans | ⟨href, hlater⟩
      · exact .inl hans
      · refine .inr ⟨?_, List.forall_mem_append.mpr ⟨hlater, List.forall_mem_singleton.mpr ?_⟩⟩
        · by_cases htask : e.task = i
          · rw [htask] at href ⊢
            rw [Function.update_self]
            exact (hrefused href).1
          · rw [Function.update_of_ne htask]
            exact href
        · intro htask
          have htask' : i = e.task := htask
          rw [← htask'] at href
          exact (hrefused href).2

/-- A message that is known stays known. -/
theorem seen_mono (env : GatewayEnv) (o : GatewayOp) (w : GatewayWorld) (id : String)
    (h : w.replay.seen id = true) : (gatewayHandle env o w).2.replay.seen id = true := by
  cases o with
  | acceptInboundMessage deviceId messageId sequence expiresAt =>
      simp only [gatewayHandle]
      split
      · exact h
      · split
        · exact h
        · unfold ReplayStore.acceptInboundMessage
          split
          · exact h
          · simp only [ReplayStore.seen, ReplayStore.insert, List.any_append] at h ⊢
            rw [h]
            rfl
  | _ => exact h

/-- What `acceptInboundMessage` answered `true` for was not known, and is. -/
theorem seen_of_accepted {env : GatewayEnv} {w : GatewayWorld} {deviceId id expiresAt : String}
    {sequence : JsNum}
    (h : (gatewayHandle env (.acceptInboundMessage deviceId id sequence expiresAt) w).1 = .ok true) :
    (gatewayHandle env (.acceptInboundMessage deviceId id sequence expiresAt) w).2.replay.seen id =
      true ∧ w.replay.seen id = false := by
  simp only [gatewayHandle, ReplayStore.acceptInboundMessage] at h ⊢
  split at h
  · cases h
  · split at h
    · cases h
    · split at h
      · cases h
      · next hfails hbatch hseen =>
          simp only [hbatch, hseen]
          simp [ReplayStore.seen, ReplayStore.insert]

/-- What the store answers is what the event shows. -/
theorem freshness_of {w : GatewayWorld} {deviceId id expiresAt : String} {sequence : JsNum}
    {x : Except RemoteFailure Bool}
    (h : (gatewayHandle env (.acceptInboundMessage deviceId id sequence expiresAt) w).1 = x) :
    freshness env (⟨i, .acceptInboundMessage deviceId id sequence expiresAt, w⟩ :
      Pool.Event GatewayOp ι GatewayWorld) = x.toOption :=
  congrArg Except.toOption h

/-- A step that leaves the stage as it is. -/
theorem Dispatches.stay (h : Dispatches env calls φ s)
    (hstage : φ'.stage = (φ i).stage) (hthrew : φ'.threw = false)
    (hmono : ∀ id, s.1.replay.seen id = true → w'.replay.seen id = true)
    (hfresh : freshness env (⟨i, o, s.1⟩ : Pool.Event GatewayOp ι GatewayWorld) = none)
    (hreads : ∀ payload, ¬Reads env payload (⟨i, o, s.1⟩ : Pool.Event GatewayOp ι GatewayWorld))
    (hdispatches : o.dispatches = false)
    (hacknowledges : o.acknowledges = true → (φ i).stage.answered = true ∧
      (φ i).stage.unacknowledged = false)
    (hrefused : (φ i).stage = .refused → o.rejects = true) :
    Dispatches env calls (Function.update φ i φ') (w', s.2 ++ [⟨i, o, s.1⟩]) := by
  refine h.step ⟨hthrew, hstage ▸ (h.fine i).2⟩ hmono ?_ ?_ ?_ (.inl ⟨hdispatches, by rw [hstage]⟩)
    ?_ ?_ (fun hack => .inl (hacknowledges hack).1) (fun hr => ⟨hstage.trans hr, hrefused hr⟩)
  · rw [hstage]
    exact .inl
  · rw [hstage, hfresh]
    simp
  · rw [hstage]
    exact fun payload hp => hp.resolve_right (hreads payload)
  · rw [hstage]
    intro hun
    refine ⟨hun, ?_⟩
    by_contra hack
    rw [(hacknowledges (Bool.of_not_eq_false hack)).2] at hun
    cases hun
  · rw [hstage]
    exact .inl

/-- Every step that behaves keeps what holds at every moment. -/
theorem dispatches_step {p : GatewayPool ι} {k : GatewayRes o → GatewayProg Unit}
    (ht : p.task i = .await o k) (hb : Behaves env p i)
    (hT : EnvelopeStep (calls i) (φ i) o (Pool.recorded (gatewayHandle env) i o p.state).1 φ')
    (h : Dispatches env calls φ p.state) :
    Dispatches env calls (Function.update φ i φ') (p.step (Pool.recorded (gatewayHandle env)) i).state := by
  rw [Pool.step_of_await ht]
  show Dispatches env calls _ ((gatewayHandle env o p.state.1).2, p.state.2 ++ [⟨i, o, p.state.1⟩])
  have hmono := seen_mono env o p.state.1
  have hfails := hb o k ht
  have hthrew := (h.fine i).1
  generalize hφ : φ i = φi at hT hthrew
  generalize hx : (Pool.recorded (gatewayHandle env) i o p.state).1 = x at hT
  have hx' : (gatewayHandle env o p.state.1).1 = x := hx
  cases hT with
  | lookUp threw o x ho =>
      have hnot : o.acknowledges = false := by cases o <;> first | rfl | cases ho
      refine h.stay (by rw [hφ]) hthrew hmono ?_ ?_ ?_ ?_ (by rw [hφ]; nofun)
      · cases o <;> first | rfl | cases ho
      · rintro payload ⟨device, e, plain, rfl, -⟩
        cases ho
      · cases o <;> first | rfl | cases ho
      · rw [hnot]
        nofun
  | unreadable threw device e x he hno =>
      refine h.stay (by rw [hφ]) hthrew hmono rfl ?_ rfl nofun (by rw [hφ]; nofun)
      rintro payload ⟨device', e', plain, hop, hdecrypt, hparse⟩
      cases hop
      exact hno plain payload (hx'.symm.trans hdecrypt) hparse
  | read threw device e plain payload he hparse =>
      refine h.step ⟨hthrew, nofun⟩ hmono nofun ?_ ?_ (.inl ⟨rfl, by rw [hφ]; rfl⟩)
        (fun _ => ⟨by rw [hφ]; rfl, rfl⟩) nofun nofun (by rw [hφ]; nofun)
      · rw [hφ]
        exact ⟨fun hor => hor.elim nofun nofun, nofun⟩
      · rw [hφ]
        rintro payload' (hno | ⟨device', e', plain', hop, hdecrypt, hparse'⟩)
        · exact absurd hno id
        · cases hop
          cases hx'.symm.trans hdecrypt
          exact Except.ok.inj (hparse'.symm.trans hparse)
  | record threw payload e deviceId sequence expiresAt he =>
      have hid : messageId (calls i) = e.message_id.getD "" := by rw [he]; rfl
      have hfresh := freshness_of (i := i) hx'
      refine h.step ⟨hthrew, nofun⟩ hmono (fun _ => .inr (by rw [hid]; exact seen_of_accepted hx')) ?_ ?_
        (.inl ⟨rfl, by rw [hφ]; rfl⟩) (fun _ => ⟨by rw [hφ]; rfl, rfl⟩) ?_ nofun (by rw [hφ]; nofun)
      · exact ⟨fun _ => rfl, fun _ => .inr hfresh⟩
      · rw [hφ]
        rintro payload' (hp | ⟨_, _, _, hop, -⟩)
        · exact hp
        · cases hop
      · intro _
        right
        rw [hfresh]
        rfl
  | known threw payload deviceId messageId sequence expiresAt =>
      have hfresh := freshness_of (i := i) hx'
      refine h.step ⟨hthrew, nofun⟩ hmono nofun ?_ (fun _ _ => trivial)
        (.inl ⟨rfl, by rw [hφ]; rfl⟩) nofun ?_ nofun (by rw [hφ]; nofun)
      · rw [hφ, hfresh]
        exact ⟨fun hor => hor.elim nofun nofun, nofun⟩
      · intro _
        right
        rw [hfresh]
        rfl
  | storeFailed threw payload deviceId messageId sequence expiresAt failure =>
      refine h.stay (by rw [hφ]) hthrew hmono (freshness_of hx') ?_ rfl nofun (by rw [hφ]; nofun)
      rintro payload' ⟨_, _, _, hop, -⟩
      cases hop
  | acknowledge threw payload id =>
      refine h.step ⟨hthrew, nofun⟩ hmono ?_ ?_ ?_ (.inl ⟨rfl, by rw [hφ]; rfl⟩) nofun ?_ ?_
        (by rw [hφ]; nofun)
      · exact fun _ => .inl (by rw [hφ]; rfl)
      · rw [hφ]
        exact ⟨fun _ => rfl, fun _ => .inl rfl⟩
      · rw [hφ]
        rintro payload' (hp | ⟨_, _, _, hop, -⟩)
        · exact hp
        · cases hop
      · exact fun _ => .inl (by rw [hφ]; rfl)
      · exact fun _ => .inl (by rw [hφ]; rfl)
  | acknowledgeFailed threw payload id failure =>
      have hacc : AcceptedBy env i p.state.2 := (h.accepted i).mpr (by rw [hφ]; rfl)
      have hfirst := h.unacknowledged i (by rw [hφ]; rfl)
      have hok := hfails ⟨hacc, hfirst⟩
      rw [hx'] at hok
      cases hok
  | touch threw payload deviceId =>
      refine h.step ⟨hthrew, nofun⟩ hmono ?_ ?_ ?_ (.inl ⟨rfl, by rw [hφ]; rfl⟩) nofun ?_ nofun
        (by rw [hφ]; nofun)
      · exact fun _ => .inl (by rw [hφ]; rfl)
      · rw [hφ]
        exact ⟨fun _ => rfl, fun _ => .inl rfl⟩
      · rw [hφ]
        rintro payload' (hp | ⟨_, _, _, hop, -⟩)
        · exact hp
        · cases hop
      · exact fun _ => .inl (by rw [hφ]; rfl)
  | touchFailed threw payload deviceId failure =>
      have hok := hfails trivial
      rw [hx'] at hok
      cases hok
  | hand threw payload o x ho =>
      have hnot : o.acknowledges = false := by cases o <;> first | rfl | cases ho
      refine h.step ⟨hthrew, nofun⟩ hmono ?_ ?_ (fun _ _ => trivial) (.inr ⟨ho, by rw [hφ]; rfl, rfl⟩)
        nofun ?_ ?_ (by rw [hφ]; nofun)
      · exact fun _ => .inl (by rw [hφ]; rfl)
      · rw [hφ]
        exact ⟨fun _ => rfl, fun _ => .inl rfl⟩
      · exact fun _ => .inl (by rw [hφ]; rfl)
      · rw [hnot]
        nofun
  | reply threw device requestId x =>
      refine h.stay (by rw [hφ]) hthrew hmono rfl ?_ rfl nofun (by rw [hφ]; nofun)
      rintro payload ⟨_, _, _, hop, -⟩
      cases hop
  | replayed threw summary detail x =>
      refine h.stay (by rw [hφ]) hthrew hmono rfl ?_ rfl nofun (by rw [hφ]; nofun)
      rintro payload ⟨_, _, _, hop, -⟩
      cases hop
  | acknowledgeAgain stage threw id x hsettled =>
      refine h.stay (by rw [hφ]) hthrew hmono rfl ?_ rfl (fun _ => ?_) ?_
      · rintro payload ⟨_, _, _, hop, -⟩
        cases hop
      · rw [hφ]
        cases stage <;> first | exact ⟨rfl, rfl⟩ | cases hsettled
      · rw [hφ]
        rintro rfl
        cases hsettled
  | acknowledgeRefused stage threw id x hunsettled =>
      have hnot : stage.holds = false := by cases stage <;> first | rfl | cases hunsettled
      have hhanded : stage.isHanded = false := by cases stage <;> first | rfl | cases hunsettled
      refine h.step ⟨hthrew, nofun⟩ hmono nofun ?_ (fun _ _ => trivial)
        (.inl ⟨rfl, by rw [hφ]; exact hhanded.symm⟩) nofun nofun (fun _ => .inr rfl) ?_
      · rw [hφ]
        exact ⟨fun hor => hor.elim (fun hh => absurd (hnot.symm.trans hh) nofun) nofun, nofun⟩
      · rw [hφ]
        rintro rfl
        cases hunsettled
  | reject stage threw summary detail hrejects =>
      refine h.stay (by rw [hφ]) hthrew hmono rfl ?_ rfl nofun (fun _ => by rfl)
      rintro payload ⟨_, _, _, hop, -⟩
      cases hop
  | rejectFailed stage threw summary detail failure hrejects =>
      have hok := hfails rfl
      rw [hx'] at hok
      cases hok

end Steps

/-! ## Every schedule -/

variable {env : GatewayEnv} {calls : ι → Option RemoteEnvelopeV1}

/-- No message is dispatched twice, an accepted one whose delivery has come to its end was dispatched if
it came on its channel, no envelope is acknowledged too early, and no delivery rejects. -/
structure DispatchedOnce (env : GatewayEnv) (calls : ι → Option RemoteEnvelopeV1) (p : GatewayPool ι) :
    Prop where
  atMostOnce : ∀ id, p.state.2.countP (dispatched calls id) ≤ 1
  exactlyOnce : ∀ i e payload, calls i = some e → AcceptedBy env i p.state.2 →
    Opened env i p.state.2 payload → e.channel = payload.channel.1 → (p.task i).isDone = true →
    p.state.2.countP (dispatched calls (messageId (calls i))) = 1
  acknowledged : AcknowledgedBehind env p.state.2
  resolves : ∀ i error, p.task i ≠ .done (.error error)

theorem startEnvelopes_dispatches (env : GatewayEnv) (dateParse : String → Option ℤ)
    (calls : ι → Option RemoteEnvelopeV1) (w : GatewayWorld) :
    Dispatches env calls (fun _ => ⟨.entered, false⟩) (startEnvelopes dateParse calls w).state where
  fine := fun _ => ⟨rfl, by simp⟩
  stored := fun _ h => absurd h (by decide)
  apart := fun _ _ _ h => absurd h (by decide)
  accepted := fun _ => by simp [AcceptedBy, startEnvelopes, EnvelopeStage.holds]
  agrees := fun _ _ h => by simp [Opened, startEnvelopes] at h
  once := fun _ => rfl
  unacknowledged := fun _ _ _ h => by simp [startEnvelopes] at h
  answered := fun _ h => absurd h (by decide)
  behind := by
    intro l₁ e l₂ h
    simp [startEnvelopes] at h

/-- A message is dispatched by the delivery that was accepted. -/
theorem Dispatches.dispatchedBy {φ : ι → EnvelopePhase} {s : GatewayWorld × GatewayLog ι}
    (h : Dispatches env calls φ s) {e : Pool.Event GatewayOp ι GatewayWorld} (he : e ∈ s.2)
    (hd : e.op.dispatches = true) : (φ e.task).stage.holds = true := by
  have hpos : 0 < s.2.countP (RemoteGateway.dispatchedBy e.task) :=
    List.countP_pos_iff.mpr ⟨e, he, by simp [RemoteGateway.dispatchedBy, hd]⟩
  rw [h.once] at hpos
  cases hstage : (φ e.task).stage with
  | handed => rfl
  | _ =>
      rw [hstage] at hpos
      cases hpos

theorem Dispatches.countP_le_one {φ : ι → EnvelopePhase} {s : GatewayWorld × GatewayLog ι}
    (h : Dispatches env calls φ s) (id : String) : s.2.countP (dispatched calls id) ≤ 1 := by
  by_cases hnone : ∃ e ∈ s.2, dispatched calls id e = true
  · obtain ⟨e, he, hd⟩ := hnone
    obtain ⟨hid, hop⟩ := (Bool.and_eq_true _ _).mp hd
    have hle : s.2.countP (dispatched calls id) ≤ s.2.countP (RemoteGateway.dispatchedBy e.task) := by
      refine List.countP_mono_left fun e' he' hd' => ?_
      obtain ⟨hid', hop'⟩ := (Bool.and_eq_true _ _).mp hd'
      -- Two deliveries that were both accepted do not bring one message.
      have htask : e'.task = e.task := by
        by_contra hne
        exact h.apart _ _ hne (h.dispatchedBy he' hop') (h.dispatchedBy he hop)
          ((beq_iff_eq.mp hid').trans (beq_iff_eq.mp hid).symm)
      simp [RemoteGateway.dispatchedBy, htask, hop']
    refine hle.trans ?_
    rw [h.once]
    split <;> omega
  · have hzero : s.2.countP (dispatched calls id) = 0 :=
      List.countP_eq_zero.mpr fun e he hd => hnone ⟨e, he, hd⟩
    omega

/-- A delivery that was accepted and has come to its end has dispatched its message, if that came on its
channel. -/
theorem Dispatches.countP_pos {φ : ι → EnvelopePhase} {s : GatewayWorld × GatewayLog ι}
    (h : Dispatches env calls φ s) {i : ι} {e : RemoteEnvelopeV1} {payload : InboundPayload}
    {r : Except RemoteFailure Unit} (he : calls i = some e) (hacc : AcceptedBy env i s.2)
    (hopen : Opened env i s.2 payload) (hchannel : e.channel = payload.channel.1)
    (hend : EnvelopeEnd (calls i) r (φ i)) :
    0 < s.2.countP (dispatched calls (messageId (calls i))) := by
  have hhanded : (φ i).stage.isHanded = true := by
    have hholds := (h.accepted i).mp hacc
    have hagrees := h.agrees i payload hopen
    have hlost := (h.fine i).2
    have hstop := hend.2
    cases hstage : (φ i).stage with
    | handed => rfl
    | touched payload' =>
        rw [hstage] at hagrees hstop
        obtain rfl : payload = payload' := hagrees
        exact absurd hchannel (hstop e he)
    | recorded payload' =>
        rw [hstage] at hstop
        exact absurd hstop id
    | acknowledged payload' =>
        rw [hstage] at hstop
        exact absurd hstop id
    | lost => exact absurd hstage hlost
    | _ =>
        rw [hstage] at hholds
        cases hholds
  have hone := h.once i
  rw [if_pos hhanded] at hone
  have hle : s.2.countP (RemoteGateway.dispatchedBy i) ≤
      s.2.countP (dispatched calls (messageId (calls i))) := by
    refine List.countP_mono_left fun e' _ hd' => ?_
    obtain ⟨htask, hop⟩ := (Bool.and_eq_true _ _).mp hd'
    simp [dispatched, of_decide_eq_true htask, hop]
  omega

/-- Along every schedule of any deliveries in which the operations behind an acceptance and the audit
events of refusals succeed, an accepted message is dispatched exactly once. -/
theorem dispatched_once (env : GatewayEnv) (dateParse : String → Option ℤ) (w : GatewayWorld)
    (calls : ι → Option RemoteEnvelopeV1) (sched : List ι)
    (hb : Pool.Along (Pool.recorded (gatewayHandle env)) (Behaves env) sched
      (startEnvelopes dateParse calls w)) :
    DispatchedOnce env calls
      ((startEnvelopes dateParse calls w).runs (Pool.recorded (gatewayHandle env)) sched) := by
  have hf : Pool.Following (fun i => EnvelopeStep (calls i)) (fun i => EnvelopeEnd (calls i))
      (startEnvelopes dateParse calls w) fun _ => ⟨.entered, false⟩ :=
    fun i => follows_handleEnvelope dateParse (calls i)
  obtain ⟨φ, hf', h⟩ := hf.along (fun φ p => Dispatches env calls φ p.state)
    (fun φ p i o k φ' ht hb hT _ h => dispatches_step ht hb hT h) hb
    (startEnvelopes_dispatches env dateParse calls w)
  refine ⟨h.countP_le_one, ?_, ?_, ?_⟩
  · intro i e payload he hacc hopen hchannel hdone
    have hi := hf' i
    cases htask : ((startEnvelopes dateParse calls w).runs
        (Pool.recorded (gatewayHandle env)) sched).task i with
    | await o k =>
        rw [htask] at hdone
        cases hdone
    | done r =>
        rw [htask] at hi
        exact le_antisymm (h.countP_le_one _) (h.countP_pos he hacc hopen hchannel hi)
  · intro l₁ e l₂ hsplit hack
    exact (h.behind l₁ e l₂ hsplit hack).imp_right And.right
  · intro i error htask
    have hi := hf' i
    rw [htask] at hi
    cases hi.1 (h.fine i).1

/-! ## A command that comes twice -/

/-- A valid envelope with a command. -/
def commandEnvelope : RemoteEnvelopeV1 where
  protocol_version := 1
  message_id := some "msg_0123456789abcdef"
  sender_id := some "route_0123456789abcdef"
  recipient_id := some "node_0123456789abcdef"
  channel := "remote_command"
  created_at := "2026-01-01T05:00:00.000Z"
  expires_at := "2026-01-01T05:10:00.000Z"
  key_id := some sampleDevice.keyId
  sequence := 1
  ciphertext := some "00000000000000000000000000000000"

/-- What `Date.parse` reads in its times. -/
def commandDates : String → Option ℤ
  | "2026-01-01T05:00:00.000Z" => some 1767243600000
  | "2026-01-01T05:10:00.000Z" => some 1767244200000
  | _ => none

/-- Its payload. -/
def commandPayload : Json :=
  .obj [("type", .str "remote.command"), ("request_id", .str "req_1"), ("signed_command", .obj [])]

/-- Nothing fails. -/
def steadyEnv : GatewayEnv where
  now _ := 1767243900000
  nodeIdentity _ := .ok "node_0123456789abcdef"
  activeByRoute _ _ := .ok sampleDevice
  decrypt _ _ _ := .ok commandPayload
  storeFails _ := none
  batchFails _ := false
  acknowledge _ := .ok ()
  touch _ := .ok ()
  handler _ := .ok ()
  audit _ := .ok ()

/-- The registry cannot be written when the first delivery has been acknowledged. -/
def touchlessEnv : GatewayEnv :=
  { steadyEnv with touch := fun n => if n = 6 then .error (.thrown "disk full") else .ok () }

/-- Two deliveries of the envelope, one after the other. -/
def deliverTwice (env : GatewayEnv) : GatewayPool (Fin 2) :=
  (startEnvelopes commandDates (fun _ => some commandEnvelope) ⟨ReplayStore.empty, 0⟩).runs
    (Pool.recorded (gatewayHandle env)) (List.replicate 10 0 ++ List.replicate 10 1)

/-- The command is dispatched once. -/
theorem deliverTwice_dispatched : DispatchedOnce steadyEnv (fun _ => some commandEnvelope)
    (deliverTwice steadyEnv) ∧ ((deliverTwice steadyEnv).task 1).isDone = true ∧
    (deliverTwice steadyEnv).state.2.countP
      (dispatched (fun _ => some commandEnvelope) "msg_0123456789abcdef") = 1 :=
  ⟨dispatched_once _ _ _ _ _ (Pool.Along.of_forall fun _ _ o _ _ _ => by cases o <;> rfl),
    by decide +kernel, by decide +kernel⟩

/-- A payload is decrypted. -/
def GatewayOp.decrypts : GatewayOp → Bool
  | decryptFromDevice _ _ => true
  | _ => false

theorem commandPayload_parsed :
    parseRemoteInboundPayload commandPayload = .ok (.command "req_1" (.obj [])) := by
  rfl

/-- Accepted, acknowledged and never dispatched: the second delivery is a replay. -/
theorem deliverTwice_lost : ¬DispatchedOnce touchlessEnv (fun _ => some commandEnvelope)
    (deliverTwice touchlessEnv) := by
  intro h
  have haccepted : ∃ e ∈ (deliverTwice touchlessEnv).state.2,
      e.task = 0 ∧ freshness touchlessEnv e = some true := by decide +kernel
  have hdecrypts : ∃ e ∈ (deliverTwice touchlessEnv).state.2,
      e.task = 0 ∧ e.op.decrypts = true := by decide +kernel
  have hopened : Opened touchlessEnv 0 (deliverTwice touchlessEnv).state.2
      (.command "req_1" (.obj [])) := by
    obtain ⟨⟨i, o, w⟩, he, htask, hop⟩ := hdecrypts
    cases o with
    | decryptFromDevice device e =>
        exact ⟨_, he, htask, device, e, commandPayload, rfl, rfl, commandPayload_parsed⟩
    | _ => cases hop
  have hone := h.exactlyOnce 0 commandEnvelope _ rfl haccepted hopened rfl (by decide +kernel)
  have hzero : (deliverTwice touchlessEnv).state.2.countP
      (dispatched (fun _ => some commandEnvelope) "msg_0123456789abcdef") = 0 := by decide +kernel
  cases hone.symm.trans hzero

end Vops.RemoteGateway
