import Vops.Remote.RemoteFrames

/-!
# Interleaved commands (`RemoteCommandHandler.handle`)

Any number of calls of `handle` run beside each other and beside programs that do not write commands.

* `CommandCall` — the calls; `CommandPhase`, `CommandStep` — how far a call has come.
* `follows_call` — every call goes through the phases.
* `VerifiedAgainst` — what a call has found when it executes a command: the device as it was stored, its
  binding, its key, the signature, the time, the role.
* `Commands` — the invariant: the reservation of a command id and of a nonce belongs to one call.
* `commands_execute_once` — along every schedule a command id, and a nonce, is executed at most once, and
  only behind the checks.
-/

set_option linter.unusedSectionVars false

namespace Vops.RemoteCommandHandler

open Async

/-! ## Calls -/

/-- A call of `handle`, or any program that neither writes commands nor executes them. -/
inductive CommandCall
  | handle (envelopeDevice : RemoteDevice) (request : RemoteCommandRequest)
  | other (p : RemoteProg Unit) (hp : p.AllOps fun o => o.ofCommand = false)

/-- The program of a call. -/
def CommandCall.prog : CommandCall → RemoteProg Unit
  | handle envelopeDevice request => RemoteCommandHandler.handle envelopeDevice request
  | other p _ => p

/-- The call brings the signed command, in an envelope of the device. -/
def CommandCall.Brings (c : CommandCall) (envelopeDevice : RemoteDevice)
    (signed : SignedRemoteCommandV1) : Prop :=
  ∃ requestId, c = .handle envelopeDevice ⟨requestId, some signed⟩

theorem CommandCall.Brings.eq {c : CommandCall} {d d' : RemoteDevice}
    {signed signed' : SignedRemoteCommandV1} (h : c.Brings d signed) (h' : c.Brings d' signed') :
    d = d' ∧ signed = signed' := by
  obtain ⟨requestId, rfl⟩ := h
  obtain ⟨requestId', h'⟩ := h'
  cases h'
  exact ⟨rfl, rfl⟩

/-! ## Phases -/

/-- What a call has done: nothing, reserved its command, begun to execute it, executed it, stored the
result. -/
inductive CommandLevel
  | idle | reserved | begun | finished | stored
deriving DecidableEq

/-- How far a call has come; `closing` is the `catch`. -/
inductive CommandPhase
  | entered
  | read (device : RemoteDevice)
  | bound (device : RemoteDevice)
  | signed (device : RemoteDevice)
  | verified (device : RemoteDevice)
  | reserved (device : RemoteDevice)
  | begun (device : RemoteDevice)
  | finished
  | stored
  | closing (level : CommandLevel)

/-- What a call in this phase has done. -/
def CommandPhase.level : CommandPhase → CommandLevel
  | entered | read _ | bound _ | signed _ | verified _ => .idle
  | reserved _ => .reserved
  | begun _ => .begun
  | finished => .finished
  | stored => .stored
  | closing level => level

/-- The checks of `verify` before the signature. -/
structure BoundTo (signed : SignedRemoteCommandV1) (device : RemoteDevice) : Prop where
  active : device.status = .active
  device_id : signed.payload.device_id = device.id
  key_id : signed.key_id = device.keyId

/-- The steps of a call. -/
inductive CommandStep (env : RemoteEnv) (c : CommandCall) :
    Protocol RemoteOp RemoteRes CommandPhase
  | aside (φ : CommandPhase) (o : RemoteOp) (x : RemoteRes o) (ho : o.ofCommand = false) :
      CommandStep env c φ o x φ
  | refused (φ : CommandPhase) (id deviceId nonce : String) (record : CommandRecord) :
      CommandStep env c φ (.rememberCommand id deviceId nonce record) false φ
  | read (envelopeDevice : RemoteDevice) (signed : SignedRemoteCommandV1)
      (hc : c.Brings envelopeDevice signed) (device : RemoteDevice) :
      CommandStep env c .entered (.getDeviceByRoute envelopeDevice.routeId) (some device)
        (.read device)
  | bind (envelopeDevice : RemoteDevice) (signed : SignedRemoteCommandV1)
      (hc : c.Brings envelopeDevice signed) (device : RemoteDevice) (hd : BoundTo signed device) :
      CommandStep env c (.read device) .nodeIdentity (.ok signed.payload.node_id) (.bound device)
  | sign (envelopeDevice : RemoteDevice) (signed : SignedRemoteCommandV1)
      (hc : c.Brings envelopeDevice signed) (device : RemoteDevice) :
      CommandStep env c (.bound device)
        (.verifyDeviceSignature signed.payload signed.signature device.signingPublicKey) (.ok true)
        (.signed device)
  | time (envelopeDevice : RemoteDevice) (signed : SignedRemoteCommandV1)
      (hc : c.Brings envelopeDevice signed) (device : RemoteDevice) (now : ℤ)
      (ht : validateCommandTime signed.payload now = .ok ())
      (hr : authorizeRole device signed.payload = .ok ()) :
      CommandStep env c (.signed device) (.agent .now) now (.verified device)
  | reserve (envelopeDevice : RemoteDevice) (signed : SignedRemoteCommandV1)
      (hc : c.Brings envelopeDevice signed) (device : RemoteDevice) (record : CommandRecord)
      (hs : record.state = .received) :
      CommandStep env c (.verified device)
        (.rememberCommand signed.payload.command_id device.id signed.payload.nonce record) true
        (.reserved device)
  | begin (envelopeDevice : RemoteDevice) (signed : SignedRemoteCommandV1)
      (hc : c.Brings envelopeDevice signed) (device : RemoteDevice) :
      CommandStep env c (.reserved device) (.execute device signed.payload) () (.begun device)
  | finish (envelopeDevice : RemoteDevice) (signed : SignedRemoteCommandV1)
      (hc : c.Brings envelopeDevice signed) (device : RemoteDevice) :
      CommandStep env c (.begun device) (.executed signed.payload.command_id) () .finished
  | store (envelopeDevice : RemoteDevice) (signed : SignedRemoteCommandV1)
      (hc : c.Brings envelopeDevice signed) (record : CommandRecord)
      (hs : record.state = .executed) :
      CommandStep env c .finished (.saveCommandResult signed.payload.command_id record) () .stored
  | caught (φ : CommandPhase) (now : ℤ) (hφ : φ.level ≠ .finished) :
      CommandStep env c φ (.agent .now) now (.closing φ.level)
  | reject (envelopeDevice : RemoteDevice) (signed : SignedRemoteCommandV1)
      (hc : c.Brings envelopeDevice signed) (level : CommandLevel) (record : CommandRecord)
      (hs : record.state = .rejected) :
      CommandStep env c (.closing level) (.saveCommandResult signed.payload.command_id record) ()
        (.closing level)

/-- A call does not end, and does not throw, between the execution of a command and its record. -/
def CommandEnd {α : Type} (_ : Except RemoteFailure α) (φ : CommandPhase) : Prop :=
  φ.level ≠ .finished

/-! ## Every call goes through the phases -/

section Following

variable {env : RemoteEnv} {c : CommandCall} {φ : CommandPhase} {α β : Type}

/-- Operations that do not concern commands leave the phase as it is. -/
theorem follows_aside {p : RemoteProg β} {f : β → RemoteProg α}
    (hp : p.AllOps fun o => o.ofCommand = false) (hφ : φ.level ≠ .finished)
    (hf : ∀ b, Follows (CommandStep env c) CommandEnd (f b) φ) :
    Follows (CommandStep env c) CommandEnd (p >>= f) φ :=
  Follows.of_allOps_bind hp (fun o x ho => .aside φ o x ho) hf fun _ => hφ

/-- A whole program of such operations. -/
theorem follows_aside_end {p : RemoteProg α} (hp : p.AllOps fun o => o.ofCommand = false)
    (hφ : φ.level ≠ .finished) : Follows (CommandStep env c) CommandEnd p φ :=
  Follows.of_allOps hp (fun o x ho => .aside φ o x ho) fun _ => hφ

/-- One such operation. -/
theorem follows_wait {o : RemoteOp} {f : RemoteRes o → RemoteProg α} (ho : o.ofCommand = false)
    (hf : ∀ x, Follows (CommandStep env c) CommandEnd (f x) φ) :
    Follows (CommandStep env c) CommandEnd (wait o >>= f) φ :=
  fun x => ⟨φ, .aside φ o x ho, hf x⟩

/-- One operation that leads to another phase. -/
theorem follows_step {φ' : CommandPhase} {o : RemoteOp} {f : RemoteRes o → RemoteProg α}
    (ho : ∀ x, CommandStep env c φ o x φ')
    (hf : ∀ x, Follows (CommandStep env c) CommandEnd (f x) φ') :
    Follows (CommandStep env c) CommandEnd (wait o >>= f) φ :=
  fun x => ⟨φ', ho x, hf x⟩

theorem aside_of_calm {p : RemoteProg α} (hp : Calm p) : p.AllOps fun o => o.ofCommand = false :=
  AllOps.mono (fun _ => RemoteOp.not_ofCommand_of_calm) hp

theorem aside_of_quiet {p : RemoteProg α} (hp : Quiet p) : p.AllOps fun o => o.ofCommand = false :=
  aside_of_calm (calm_of_quiet hp)

theorem quiet_event (device : RemoteDevice) (payload : Option SignedRemoteCommandPayload)
    (eventType summary : String) : Quiet (event device payload eventType summary) :=
  ⟨rfl, fun _ => ⟨rfl, fun _ => quiet_appendAudit _⟩⟩

theorem quiet_send (device : RemoteDevice) (record : CommandRecord) : Quiet (send device record) :=
  quiet_sendMessage _ _ _

variable {envelopeDevice : RemoteDevice} {signed : SignedRemoteCommandV1} {requestId : String}

/-- How a check ends: with the device, in the phase that says so, or with an error before anything is
reserved. -/
def Checks (reached : RemoteDevice → CommandPhase → Prop) (r : Except RemoteFailure RemoteDevice)
    (φ : CommandPhase) : Prop :=
  match r with
  | .ok device => reached device φ
  | .error _ => φ.level = .idle

/-- The device is read, and active. -/
theorem follows_getActiveByRoute (hc : c.Brings envelopeDevice signed) :
    Follows (CommandStep env c)
      (Checks fun device φ => φ = .read device ∧ device.status = .active)
      (DeviceRegistry.getActiveByRoute envelopeDevice.routeId) .entered := by
  intro found
  cases found with
  | none => exact ⟨.entered, .aside _ _ _ rfl, rfl⟩
  | some device =>
      refine ⟨.read device, .read envelopeDevice signed hc device, ?_⟩
      show Follows _ _ (if device.status ≠ .active then _ else _) _
      by_cases hactive : device.status = .active
      · rw [if_neg (not_not.mpr hactive)]
        cases device.restrictions.validUntil with
        | empty => exact ⟨rfl, hactive⟩
        | invalid => exact ⟨rfl, hactive⟩
        | «at» expires =>
            refine fun now => ⟨.read device, .aside _ _ _ rfl, ?_⟩
            show Follows _ _ (if expires ≤ now then _ else _) _
            split
            · rfl
            · exact ⟨rfl, hactive⟩
      · rw [if_pos hactive]
        rfl

/-- A device that is read is verified. -/
theorem follows_signature (hc : c.Brings envelopeDevice signed) (device : RemoteDevice) :
    Follows (CommandStep env c) (Checks fun device φ => φ = .verified device)
      (do
        let signature ← orFail (← wait (.verifyDeviceSignature signed.payload signed.signature
          device.signingPublicKey))
        if !signature then
          throwCommand "VOPS_REMOTE_COMMAND_SIGNATURE" "Command signature is invalid."
        else do
          let now ← clock
          orFail (validateCommandTime signed.payload now)
          orFail (authorizeRole device signed.payload)
          return device) (.bound device) := by
  intro valid
  rcases valid with e | _ | _
  · exact ⟨.bound device, .aside _ _ _ rfl, rfl⟩
  · exact ⟨.bound device, .aside _ _ _ rfl, rfl⟩
  · refine ⟨.signed device, .sign envelopeDevice signed hc device, fun now => ?_⟩
    show ∃ φ', _ ∧ Follows _ _ (orFail (validateCommandTime signed.payload now) >>= fun _ =>
      orFail (authorizeRole device signed.payload) >>= fun _ => pure device) φ'
    cases ht : validateCommandTime signed.payload now with
    | error e => exact ⟨.signed device, .aside _ _ _ rfl, rfl⟩
    | ok _ =>
        cases hr : authorizeRole device signed.payload with
        | error e => exact ⟨.signed device, .aside _ _ _ rfl, rfl⟩
        | ok _ => exact ⟨.verified device, .time envelopeDevice signed hc device now ht hr, rfl⟩

/-- The command is verified. -/
theorem follows_verify (hc : c.Brings envelopeDevice signed) :
    Follows (CommandStep env c) (Checks fun device φ => φ = .verified device)
      (verify envelopeDevice signed) .entered := by
  unfold verify
  refine Follows.bind ((follows_getActiveByRoute hc).mono fun r φ hr => ?_)
  cases r with
  | error e => exact hr
  | ok device =>
      obtain ⟨rfl, hactive⟩ := hr
      intro node
      cases node with
      | error e => exact ⟨.read device, .aside _ _ _ rfl, rfl⟩
      | ok node =>
          by_cases hbinding : device.id ≠ signed.payload.device_id ∨ signed.payload.node_id ≠ node
          · refine ⟨.read device, .aside _ _ _ rfl, ?_⟩
            show Follows _ _ (if _ then _ else _) _
            rw [if_pos hbinding]
            rfl
          · by_cases hkey : signed.key_id ≠ device.keyId
            · refine ⟨.read device, .aside _ _ _ rfl, ?_⟩
              show Follows _ _ (if _ then _ else if _ then _ else _) _
              rw [if_neg hbinding, if_pos hkey]
              rfl
            · obtain ⟨hid, hnode⟩ := not_or.mp hbinding
              obtain rfl := not_not.mp hnode
              have hd : BoundTo signed device :=
                ⟨hactive, (not_not.mp hid).symm, not_not.mp hkey⟩
              refine ⟨.bound device, .bind envelopeDevice signed hc device hd, ?_⟩
              show Follows _ _ (if _ then _ else if _ then _ else _) _
              rw [if_neg hbinding, if_neg hkey]
              exact follows_signature hc device

/-- The command that has passed is the one that was sent. -/
theorem signed_of_shape {sent : Option SignedRemoteCommandV1}
    (h : validateSignedCommandShape sent = .ok signed) : sent = some signed := by
  unfold validateSignedCommandShape at h
  cases sent with
  | none => cases h
  | some s =>
      dsimp only at h
      repeat' split at h
      all_goals first | cases h; rfl | cases h

/-- A stored record is sent again. -/
theorem follows_resend (device : RemoteDevice) (requestId : String) (record : CommandRecord)
    (hφ : φ.level ≠ .finished) :
    Follows (CommandStep env c) CommandEnd (resend device requestId record) φ :=
  follows_aside_end (aside_of_quiet (quiet_send _ _)) hφ

/-- A command that was reserved is executed, and its result stored. -/
theorem follows_runCommand (hc : c.Brings envelopeDevice signed) (device : RemoteDevice) :
    Follows (CommandStep env c) CommandEnd (runCommand device requestId signed.payload)
      (.reserved device) := by
  unfold runCommand
  refine follows_wait rfl fun now => ?_
  refine follows_aside (aside_of_quiet (quiet_send _ _)) nofun fun _ => ?_
  refine follows_aside (aside_of_quiet (quiet_event _ _ _ _)) nofun fun _ => ?_
  refine follows_step (fun _ => .begin envelopeDevice signed hc device) fun _ => ?_
  refine follows_aside (aside_of_calm (execute_calm _ _)) nofun fun result => ?_
  refine follows_step (fun _ => .finish envelopeDevice signed hc device) fun _ => ?_
  refine follows_wait rfl fun now => ?_
  refine follows_step (fun _ => .store envelopeDevice signed hc _ rfl) fun _ => ?_
  refine follows_aside (aside_of_quiet (quiet_send _ _)) nofun fun _ => ?_
  exact follows_aside_end (aside_of_quiet (quiet_event _ _ _ _)) nofun

/-- A verified command is reserved and run, or sent again. -/
theorem follows_reserveCommand (hc : c.Brings envelopeDevice signed) (device : RemoteDevice) :
    Follows (CommandStep env c) CommandEnd (reserveCommand device requestId signed.payload)
      (.verified device) := by
  intro previous
  refine ⟨.verified device, .aside _ _ _ rfl, ?_⟩
  cases previous with
  | some previous => exact follows_resend _ _ _ nofun
  | none =>
      refine fun now => ⟨.verified device, .aside _ _ _ rfl, fun reserved => ?_⟩
      cases reserved with
      | true =>
          exact ⟨.reserved device, .reserve envelopeDevice signed hc device _ rfl,
            follows_runCommand hc device⟩
      | false =>
          refine ⟨.verified device, .refused _ _ _ _ _, fun duplicate => ?_⟩
          refine ⟨.verified device, .aside _ _ _ rfl, ?_⟩
          cases duplicate with
          | some duplicate => exact follows_resend _ _ _ nofun
          | none => exact (nofun : CommandLevel.idle ≠ .finished)

/-- The `catch`. -/
theorem follows_rejectCommand {request : RemoteCommandRequest} {failure : RemoteFailure}
    (hc : c = .handle envelopeDevice request) (hφ : φ.level ≠ .finished) :
    Follows (CommandStep env c) CommandEnd (rejectCommand envelopeDevice request failure) φ := by
  refine fun now => ⟨.closing φ.level, .caught φ now hφ, ?_⟩
  have hrest : ∀ rejected : CommandRecord, Follows (CommandStep env c) CommandEnd (do
      tryCatch (send envelopeDevice rejected) fun _ => pure ()
      event envelopeDevice (request.signed_command.map fun signed => signed.payload)
        "remote.command.rejected" "Rejected a signed remote command.") (.closing φ.level) := by
    intro rejected
    refine follows_aside (AllOps.tryCatch (aside_of_quiet (quiet_send _ _)) fun _ => trivial) hφ
      fun _ => ?_
    exact follows_aside_end (aside_of_quiet (quiet_event _ _ _ _)) hφ
  obtain ⟨requestId, _ | signed⟩ := request
  · exact hrest _
  · have hid : ∀ id, safeCommandId signed.payload.command_id = some id →
        id = signed.payload.command_id := by
      intro id h
      unfold safeCommandId at h
      split at h
      · exact (Option.some.inj h).symm
      · cases h
    show Follows _ _ (storeRejection (safeCommandId signed.payload.command_id) _ >>= _) _
    cases hcommand : safeCommandId signed.payload.command_id with
    | none => exact hrest _
    | some id =>
        obtain rfl := hid id hcommand
        intro known
        refine ⟨.closing φ.level, .aside _ _ _ rfl, ?_⟩
        cases known with
        | none => exact hrest _
        | some record =>
            exact follows_step (fun _ => .reject envelopeDevice signed ⟨requestId, hc⟩ _ _ rfl)
              fun _ => hrest _

/-- Every call goes through the phases. -/
theorem follows_call (env : RemoteEnv) (c : CommandCall) :
    Follows (CommandStep env c) CommandEnd c.prog .entered := by
  cases c with
  | other p hp => exact follows_aside_end hp nofun
  | handle envelopeDevice request =>
      obtain ⟨requestId, signed⟩ := request
      refine Follows.tryCatch ?_
      have haccept : Follows (CommandStep env (.handle envelopeDevice ⟨requestId, signed⟩))
          CommandEnd (acceptCommand envelopeDevice ⟨requestId, signed⟩) .entered := by
        show Follows _ _ (orFail (validateSignedCommandShape signed) >>= _) _
        cases hs : validateSignedCommandShape signed with
        | error e => exact (nofun : CommandLevel.idle ≠ .finished)
        | ok checked =>
            obtain rfl := signed_of_shape hs
            show Follows _ _ (verify envelopeDevice checked >>= fun device =>
              reserveCommand device requestId checked.payload) _
            refine Follows.bind ((follows_verify ⟨requestId, rfl⟩).mono fun r φ hr => ?_)
            cases r with
            | error e =>
                show φ.level ≠ .finished
                rw [show φ.level = .idle from hr]
                nofun
            | ok device =>
                obtain rfl : φ = .verified device := hr
                exact follows_reserveCommand ⟨requestId, rfl⟩ device
      refine haccept.mono fun r φ hr => ?_
      cases r with
      | ok u => exact hr
      | error e => exact follows_rejectCommand rfl hr

end Following

end Vops.RemoteCommandHandler
