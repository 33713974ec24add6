import Vops.Lib.AsyncRuns
import Vops.Remote.DeviceRegistry
import Vops.Remote.OutboundSequence
import Vops.Remote.RegistryThms

/-!
# Pairing a route again

`confirm` registers the device before it has told the device, and stores the confirmed pairing last.
Where something fails in between, the device stays registered, and active.

* `Surround` — what an operation of a run can answer.
* `Reached`, `reached` — how far a run of `confirm` has come, by its answers: to the write of the
  device, to a failure after it, or to the write of the pairing.
* `LeftBehind` — an active device is stored whose pairing is not confirmed.
* `ConfirmStep`, `follows_confirm`, `Confirming` — the steps of `confirm`, and what holds between
  them.
* `repairs_iff` — `register` succeeds as it should where the route has no revoked device, and
  `confirm` leaves nothing behind where nothing fails after the write of the device.
-/

/-!
## Pairing (`remote/pairing.service.ts`)

* `RemotePairingSession` — a pairing, with what the device has proved.
* `PairingOp`, `PairingWorld`, `pairingHandle` — the operations of the pairing service: those of
  remote control, those on the counters, and its own.
* `requireLive`, `handleHello`, `confirm`, `list` — the methods.
* `lift`, `counting` — a program of remote control, and a call on the counters, as programs here.

Of a node's identity the route is kept. `create` only stores a new pairing, and is not modelled.
-/

namespace Vops

/-! ## The records -/

/-- `RemotePairingStatus` -/
inductive PairingStatus
  | pending | hello_received | confirmed | expired | cancelled
deriving DecidableEq

/-- The text of a pairing status. -/
def PairingStatus.text : PairingStatus → String
  | pending => "pending"
  | hello_received => "hello_received"
  | confirmed => "confirmed"
  | expired => "expired"
  | cancelled => "cancelled"

/-- `RemotePairingSession` -/
structure RemotePairingSession where
  id : String
  nodeId : String
  challenge : String
  status : PairingStatus
  createdAt : ℤ
  expiresAt : ℤ
  deviceRouteId : Option String
  deviceSigningPublicKey : Option String
  deviceExchangePublicKey : Option String
  challengeSignature : Option String
  confirmedDeviceId : Option String
deriving DecidableEq

/-- `PairingHelloFrame` -/
structure PairingHelloFrame where
  pairing_id : String
  device_route_id : String
  signing_public_key : String
  exchange_public_key : String
  challenge_signature : String
deriving DecidableEq

/-- `PairingChallengePayload` -/
structure PairingChallengePayload where
  protocol_version : ℕ
  pairing_id : String
  challenge : String
  device_route_id : String
  signing_public_key : String
  exchange_public_key : String
  expires_at : ℤ
deriving DecidableEq

/-- The envelope of the confirmation, before it is encrypted. -/
structure ConfirmationEnvelope where
  protocol_version : ℕ
  sender_id : String
  recipient_id : String
  channel : String
  created_at : ℤ
  expires_at : ℤ
  key_id : String
  sequence : ℕ
deriving DecidableEq

namespace PairingService

/-! ## Operations -/

/-- The operations a program of the pairing service waits for. -/
inductive PairingOp
  | remote (o : RemoteOp)
  | counter (o : RemoteStore.CounterOp)
  | relayOnline
  | getPairing (id : String)
  | listPairings
  | savePairing (pairing : RemotePairingSession)
  | verifyPairingChallenge (payload : PairingChallengePayload) (signature key : String)
  | deviceKeyId (signingPublicKey exchangePublicKey : String)
  | encryptForDevice (device : RemoteDevice) (envelope : ConfirmationEnvelope) (node : String)
  | sendEnvelope (envelope : ConfirmationEnvelope) (ciphertext : String)

/-- The answer of an operation. -/
abbrev PairingRes : PairingOp → Type
  | .remote o => RemoteRes o
  | .counter o => RemoteStore.CounterRes o
  | .relayOnline => Bool
  | .getPairing _ => Option RemotePairingSession
  | .listPairings => List RemotePairingSession
  | .savePairing _ => Except RemoteFailure Unit
  | .verifyPairingChallenge _ _ _ => Except RemoteFailure Bool
  | .deviceKeyId _ _ => Except RemoteFailure String
  | .encryptForDevice _ _ _ => Except RemoteFailure String
  | .sendEnvelope _ _ => Except RemoteFailure Unit

/-- A program of the pairing service. -/
abbrev PairingProg (α : Type) := Async PairingOp PairingRes RemoteFailure α

/-- Wait for one operation. -/
abbrev ask (o : PairingOp) : PairingProg (PairingRes o) := Async.perform o

/-- Go on with a result, or throw its error. -/
def orThrow {α : Type} (r : Except RemoteFailure α) : PairingProg α := .done r

/-- A program of remote control. -/
def lift {α : Type} : RemoteProg α → PairingProg α
  | .done r => .done r
  | .await o k => .await (.remote o) fun x => lift (k x)

/-- A call on the counters. -/
def counting {α : Type} : RemoteStore.CounterProg α → PairingProg α
  | .done (.ok a) => .done (.ok a)
  | .await o k => .await (.counter o) fun x => counting (k x)

/-- Throw an error by its message. -/
def throwPairing {α : Type} (message : String) : PairingProg α := throw (.thrown message)

/-! ## The world -/

/-- What is outside the program and answers arbitrarily. -/
structure PairingEnv where
  remote : RemoteEnv
  relayOnline : ℕ → Bool
  savePairing : ℕ → Except RemoteFailure Unit
  verifyPairingChallenge : PairingChallengePayload → String → String → Except RemoteFailure Bool
  deviceKeyId : String → String → Except RemoteFailure String
  encryptForDevice : ℕ → Except RemoteFailure String
  sendEnvelope : ℕ → Except RemoteFailure Unit

/-- The state the operations act on. -/
structure PairingWorld where
  remote : RemoteWorld
  counters : List RemoteStore.CounterRow
  pairings : List RemotePairingSession
  /-- How many answers were drawn from outside. -/
  answers : ℕ

/-- The stored record of a pairing. -/
def PairingWorld.pairing (w : PairingWorld) (id : String) : Option RemotePairingSession :=
  Table.get RemotePairingSession.id id w.pairings

/-- Upsert of a pairing. -/
def PairingWorld.savePairing (w : PairingWorld) (pairing : RemotePairingSession) : PairingWorld :=
  { w with pairings := Table.upsert RemotePairingSession.id pairing w.pairings }

/-- One more answer was drawn from outside. -/
def PairingWorld.drawn (w : PairingWorld) : PairingWorld := { w with answers := w.answers + 1 }

/-- What an operation answers, and the world it leaves. -/
def pairingHandle (env : PairingEnv) : Async.Handler PairingOp PairingRes PairingWorld
  | .remote o, w =>
      let (x, remote) := remoteHandle env.remote o w.remote
      (x, { w with remote := remote })
  | .counter o, w =>
      let (x, counters) := RemoteStore.handleCounter o w.counters
      (x, { w with counters := counters })
  | .relayOnline, w => (env.relayOnline w.answers, w.drawn)
  | .getPairing id, w => (w.pairing id, w)
  | .listPairings, w => (w.pairings.insertionSort fun a b => b.createdAt ≤ a.createdAt, w)
  | .savePairing pairing, w =>
      match env.savePairing w.answers with
      | .ok _ => (.ok (), (w.savePairing pairing).drawn)
      | .error failure => (.error failure, w.drawn)
  | .verifyPairingChallenge payload signature key, w =>
      (env.verifyPairingChallenge payload signature key, w)
  | .deviceKeyId signing exchange, w => (env.deviceKeyId signing exchange, w)
  | .encryptForDevice _ _ _, w => (env.encryptForDevice w.answers, w.drawn)
  | .sendEnvelope _ _, w => (env.sendEnvelope w.answers, w.drawn)

/-! ## The methods -/

/-- `event` -/
def event (eventType summary : String) (detail : Json) : PairingProg Unit := do
  let eventId ← ask (.remote (.agent .localId))
  let timestamp ← ask (.remote (.agent .now))
  lift (appendAudit
    { eventId := eventId
      timestamp := timestamp
      sessionId := none
      actor := "vops"
      operationId := none
      eventType := eventType
      capability := none
      target := none
      summary := summary
      detail := some detail })

/-- `requireLive` -/
def requireLive (id : String) (expected : PairingStatus) : PairingProg RemotePairingSession := do
  match ← ask (.getPairing id) with
  | none => throwPairing s!"Pairing '{id}' was not found."
  | some pairing => do
      let now ← ask (.remote (.agent .now))
      if pairing.expiresAt ≤ now then do
        orThrow (← ask (.savePairing { pairing with status := .expired }))
        throwPairing "Pairing session expired."
      else if pairing.status ≠ expected then
        throwPairing s!"Pairing '{id}' is {pairing.status.text}; expected {expected.text}."
      else return pairing

/-- The challenge that a hello has to have signed. -/
def challengePayload (pairing : RemotePairingSession) (frame : PairingHelloFrame) :
    PairingChallengePayload where
  protocol_version := 1
  pairing_id := pairing.id
  challenge := pairing.challenge
  device_route_id := frame.device_route_id
  signing_public_key := frame.signing_public_key
  exchange_public_key := frame.exchange_public_key
  expires_at := pairing.expiresAt

/-- The record of a hello whose proof was verified. -/
def helloRecord (pairing : RemotePairingSession) (frame : PairingHelloFrame) :
    RemotePairingSession :=
  { pairing with
    status := .hello_received
    deviceRouteId := some frame.device_route_id
    deviceSigningPublicKey := some frame.signing_public_key
    deviceExchangePublicKey := some frame.exchange_public_key
    challengeSignature := some frame.challenge_signature }

/-- `handleHello` -/
def handleHello (frame : PairingHelloFrame) : PairingProg Unit := do
  let pairing ← requireLive frame.pairing_id .pending
  let valid ← orThrow (← ask (.verifyPairingChallenge (challengePayload pairing frame)
    frame.challenge_signature frame.signing_public_key))
  if valid then do
    orThrow (← ask (.savePairing (helloRecord pairing frame)))
    event "remote.pairing.hello_received" "A remote device is waiting for local confirmation."
      (.obj [("pairingId", .str pairing.id), ("deviceRouteId", .str frame.device_route_id)])
  else do
    event "remote.pairing.rejected" "Rejected invalid device proof during pairing."
      (.obj [("pairingId", .str pairing.id)])
    throwPairing "Device proof did not match the pairing challenge."

/-- The argument of `confirm`. -/
structure ConfirmInput where
  label : String
  role : RemoteDeviceRole
  restrictions : DeviceRegistry.RestrictionsInput

/-- The identity that a device has proved: its route and its two keys, none of them empty. -/
def provedIdentity (pairing : RemotePairingSession) : Option (String × String × String) :=
  match pairing.deviceRouteId, pairing.deviceSigningPublicKey, pairing.deviceExchangePublicKey with
  | some route, some signing, some exchange =>
      if route = "" ∨ signing = "" ∨ exchange = "" then none else some (route, signing, exchange)
  | _, _, _ => none

/-- The device that is registered for a pairing. -/
def registration (input : ConfirmInput) (keyId : String) :
    String × String × String → DeviceRegistry.RegisterInput
  | (route, signing, exchange) =>
    { routeId := route
      label := input.label
      role := input.role
      signingPublicKey := signing
      exchangePublicKey := exchange
      keyId := keyId
      restrictions := input.restrictions }

/-- The confirmation is sent to the device. -/
def sendConfirmation (device : RemoteDevice) : PairingProg Unit := do
  let node ← orThrow (← ask (.remote .nodeIdentity))
  let now ← ask (.remote (.agent .now))
  let sequence ← counting (RemoteStore.nextOutboundSequence device.id)
  let envelope : ConfirmationEnvelope :=
    { protocol_version := 1
      sender_id := node
      recipient_id := device.routeId
      channel := "key_management"
      created_at := now
      expires_at := now + 5 * 60000
      key_id := device.keyId
      sequence := sequence }
  let ciphertext ← orThrow (← ask (.encryptForDevice device envelope node))
  orThrow (← ask (.sendEnvelope envelope ciphertext))

/-- The record of a pairing that is confirmed. -/
def confirmedRecord (pairing : RemotePairingSession) (device : RemoteDevice) :
    RemotePairingSession :=
  { pairing with status := .confirmed, confirmedDeviceId := some device.id }

/-- What `confirm` does once the device is registered. -/
def finishConfirm (pairing : RemotePairingSession) (device : RemoteDevice) :
    PairingProg (RemotePairingSession × RemoteDevice) := do
  sendConfirmation device
  orThrow (← ask (.savePairing (confirmedRecord pairing device)))
  event "remote.pairing.confirmed" s!"Confirmed remote device '{device.label}'."
    (.obj [("pairingId", .str pairing.id), ("deviceId", .str device.id),
      ("role", .str device.role.text)])
  return (confirmedRecord pairing device, device)

/-- What `confirm` does with the identity that the device has proved. -/
def confirmProved (input : ConfirmInput) (pairing : RemotePairingSession) :
    Option (String × String × String) → PairingProg (RemotePairingSession × RemoteDevice)
  | none => throwPairing "Pairing has no verified device identity."
  | some proved => do
      let keyId ← orThrow (← ask (.deviceKeyId proved.2.1 proved.2.2))
      let device ← lift (DeviceRegistry.register (registration input keyId proved))
      finishConfirm pairing device

/-- `confirm` -/
def confirm (pairingId : String) (input : ConfirmInput) :
    PairingProg (RemotePairingSession × RemoteDevice) := do
  if ← ask .relayOnline then do
    let pairing ← requireLive pairingId .hello_received
    confirmProved input pairing (provedIdentity pairing)
  else throwPairing "The relay must be connected to confirm a device."

/-- The pairings that `list` writes back as expired. -/
def overdue (now : ℤ) (rows : List RemotePairingSession) : List RemotePairingSession :=
  rows.filter fun row => (row.status == .pending || row.status == .hello_received) &&
    row.expiresAt ≤ now

/-- The writes of `list`. -/
def expireAll : List RemotePairingSession → PairingProg Unit
  | [] => return ()
  | row :: rows => do
      orThrow (← ask (.savePairing { row with status := .expired }))
      expireAll rows

/-- `list`; the writes of `Promise.all` are executed one after the other. -/
def list : PairingProg (List RemotePairingSession) := do
  let rows ← ask .listPairings
  let now ← ask (.remote (.agent .now))
  expireAll (overdue now rows)
  ask .listPairings

end PairingService

end Vops

namespace Vops.PairingService

open Async DeviceRegistry

/-! ## What is left behind -/

/-- What an operation can answer: what it answers in some environment. -/
def Surround : Surroundings PairingOp PairingRes PairingWorld :=
  fun o w x w' => ∃ env, pairingHandle env o w = (x, w')

/-- Answers of the pairing service. -/
abbrev PairingTrace := Trace PairingOp PairingRes

/-- The operation of remote control failed. -/
def remoteFailed : (o : RemoteOp) → RemoteRes o → Bool
  | .auditWrite, .error _ => true
  | .nodeIdentity, .error _ => true
  | _, _ => false

/-- The operation failed: the audit, the identity of the node, the encryption, the relay or the
write of the pairing. -/
def failed : (o : PairingOp) → PairingRes o → Bool
  | .remote o, x => remoteFailed o x
  | .encryptForDevice _ _ _, .error _ => true
  | .sendEnvelope _ _, .error _ => true
  | .savePairing _, .error _ => true
  | _, _ => false

/-- The device that was written. -/
def storedDevice : (o : PairingOp) → PairingRes o → Option RemoteDevice
  | .remote (.saveDevice device), .ok _ => some device
  | _, _ => none

/-- The pairing was written. -/
def storedPairing : (o : PairingOp) → PairingRes o → Bool
  | .savePairing _, .ok _ => true
  | _, _ => false

/-- How far a run has come. -/
inductive Reached
  | nothing
  | device (device : RemoteDevice)
  | failure (device : RemoteDevice)
  | pairing (device : RemoteDevice)

/-- One more answer. -/
def Reached.next : Reached → (Σ o : PairingOp, PairingRes o) → Reached
  | .nothing, e => ((storedDevice e.1 e.2).map .device).getD .nothing
  | .device d, e =>
      if failed e.1 e.2 then .failure d
      else if storedPairing e.1 e.2 then .pairing d
      else .device d
  | .failure d, _ => .failure d
  | .pairing d, _ => .pairing d

/-- How far a run has come, by its answers. -/
def reached (t : PairingTrace) : Reached := t.foldl Reached.next .nothing

/-- Something failed after the write of the device, and before that of the pairing. -/
def Reached.isFailure : Reached → Bool
  | .failure _ => true
  | _ => false

/-- The device that a run has written. -/
def Reached.stored : Reached → Option RemoteDevice
  | .nothing => none
  | .device d => some d
  | .failure d => some d
  | .pairing d => some d

/-- The pairing is stored as confirmed with the device. -/
def ConfirmedWith (pairingId : String) (device : RemoteDevice) (w : PairingWorld) : Prop :=
  ∃ p, w.pairing pairingId = some p ∧ p.status = .confirmed ∧ p.confirmedDeviceId = some device.id

/-- The run has written a device that is active, and its pairing is not confirmed. -/
def LeftBehind (pairingId : String) (t : PairingTrace) (w : PairingWorld) : Prop :=
  ∃ device, (reached t).stored = some device ∧ w.remote.device device.id = some device ∧
    device.status = .active ∧ ¬ ConfirmedWith pairingId device w

/-! ## The steps of `confirm` -/

/-- The operation writes a device or a pairing. -/
def writes : PairingOp → Bool
  | .remote o => isSave o
  | .savePairing _ => true
  | _ => false

/-- How far a call has come: not to the pairing, to a pairing that waits for its confirmation, to
the write of the device, to a failure after it, to the write of the pairing. -/
inductive ConfirmPhase
  | entered
  | live (pairing : RemotePairingSession)
  | saved (pairing : RemotePairingSession) (device : RemoteDevice)
  | broken (pairing : RemotePairingSession) (device : RemoteDevice)
  | stored (device : RemoteDevice)

/-- The steps of `confirm`. -/
inductive ConfirmStep (pairingId : String) : Protocol PairingOp PairingRes ConfirmPhase
  | ask (o : PairingOp) (x : PairingRes o) (ho : writes o = false) :
      ConfirmStep pairingId .entered o x .entered
  | found (pairing : RemotePairingSession) :
      ConfirmStep pairingId .entered (.getPairing pairingId) (some pairing) (.live pairing)
  | expire (pairing expired : RemotePairingSession) (x : Except RemoteFailure Unit) :
      ConfirmStep pairingId (.live pairing) (.savePairing expired) x .entered
  | check (pairing : RemotePairingSession) (o : PairingOp) (x : PairingRes o)
      (ho : writes o = false) : ConfirmStep pairingId (.live pairing) o x (.live pairing)
  | refused (pairing : RemotePairingSession) (device : RemoteDevice) (failure : RemoteFailure) :
      ConfirmStep pairingId (.live pairing) (.remote (.saveDevice device)) (.error failure)
        (.live pairing)
  | save (pairing : RemotePairingSession) (device : RemoteDevice)
      (hp : pairing.status = .hello_received) (hs : device.status = .active) :
      ConfirmStep pairingId (.live pairing) (.remote (.saveDevice device)) (.ok ())
        (.saved pairing device)
  | tell (pairing : RemotePairingSession) (device : RemoteDevice) (o : PairingOp)
      (x : PairingRes o) (ho : writes o = false) (hx : failed o x = false) :
      ConfirmStep pairingId (.saved pairing device) o x (.saved pairing device)
  | fail (pairing : RemotePairingSession) (device : RemoteDevice) (o : PairingOp)
      (x : PairingRes o) (hx : failed o x = true) :
      ConfirmStep pairingId (.saved pairing device) o x (.broken pairing device)
  | store (pairing : RemotePairingSession) (device : RemoteDevice) :
      ConfirmStep pairingId (.saved pairing device) (.savePairing (confirmedRecord pairing device))
        (.ok ()) (.stored device)
  | record (device : RemoteDevice) (o : PairingOp) (x : PairingRes o) (ho : writes o = false) :
      ConfirmStep pairingId (.stored device) o x (.stored device)

/-- A call ends in a value once the pairing is written only, and does not stop between the two
writes without a failure. -/
def ConfirmEnd {α : Type} (r : Except RemoteFailure α) : ConfirmPhase → Prop
  | .entered => ∀ a, r ≠ .ok a
  | .live _ => ∀ a, r ≠ .ok a
  | .saved _ _ => False
  | .broken _ _ => ∀ a, r ≠ .ok a
  | .stored _ => True

/-- A call that throws before the write of the device, or after a failure. -/
theorem confirmEnd_error {α : Type} (failure : RemoteFailure) :
    ∀ a : α, (.error failure : Except RemoteFailure α) ≠ .ok a := by
  rintro a ⟨⟩

section Following

variable {pairingId : String} {α β : Type} {pairing : RemotePairingSession} {device : RemoteDevice}

/-- The steps that are steps of remote control. -/
def RemoteStep (pairingId : String) : Protocol RemoteOp RemoteRes ConfirmPhase :=
  fun φ o x φ' => ConfirmStep pairingId φ (.remote o) x φ'

theorem follows_lift {Q : Except RemoteFailure α → ConfirmPhase → Prop} {p : RemoteProg α}
    {φ : ConfirmPhase} (hp : Follows (RemoteStep pairingId) Q p φ) :
    Follows (ConfirmStep pairingId) Q (lift p) φ := by
  induction p generalizing φ with
  | done r => exact hp
  | await o k ih =>
      intro x
      obtain ⟨φ', hT, hk⟩ := hp x
      exact ⟨φ', hT, ih x hk⟩

/-- What a registration in `confirm` ends in. -/
def RegisterEnd (pairing : RemotePairingSession) (r : Except RemoteFailure RemoteDevice)
    (φ : ConfirmPhase) : Prop :=
  match r with
  | .ok device => φ = .saved pairing device
  | .error _ => φ = .live pairing ∨ ∃ device, φ = .broken pairing device

/-- An operation of the agent control plane, after the write of the device. -/
theorem agent_told (o : Op) (x : Res o) : RemoteStep pairingId (.saved pairing device) (.agent o) x
    (.saved pairing device) :=
  .tell pairing device (.remote (.agent o)) x rfl rfl

/-- The event of a registration. -/
theorem follows_paired (e : AgentEvent) :
    Follows (RemoteStep pairingId) (fun r φ =>
      match r with
      | .ok _ => φ = .saved pairing device
      | .error _ => φ = .broken pairing device) (appendAudit e) (.saved pairing device) := by
  intro x
  cases x with
  | error failure => exact ⟨_, .fail pairing device (.remote .auditWrite) (.error failure) rfl, rfl⟩
  | ok _ =>
      refine ⟨_, .tell pairing device (.remote .auditWrite) (.ok ()) rfl rfl, ?_⟩
      intro previous
      refine ⟨.saved pairing device, agent_told .lastEventHash previous, fun hash => ?_⟩
      refine ⟨.saved pairing device, agent_told (.digest _) hash, fun inserted => ?_⟩
      exact ⟨.saved pairing device, agent_told (.insertEvent _) inserted, rfl⟩

/-- The write of the device, and what follows it in `register`. -/
theorem follows_savePaired (device : RemoteDevice) (hp : pairing.status = .hello_received)
    (hs : device.status = .active) :
    Follows (RemoteStep pairingId) (RegisterEnd pairing) (savePaired device) (.live pairing) := by
  intro saved
  cases saved with
  | error failure => exact ⟨_, .refused pairing device failure, .inl rfl⟩
  | ok _ =>
      refine ⟨_, .save pairing device hp hs, fun id => ?_⟩
      refine ⟨.saved pairing device, agent_told .localId id, fun now => ?_⟩
      refine ⟨.saved pairing device, agent_told .now now, Follows.bind ((follows_paired _).mono ?_)⟩
      intro r φ hr
      cases r with
      | ok _ => exact hr
      | error failure => exact .inr ⟨device, hr⟩

/-- An operation of `register` before the write. -/
theorem remote_checked (o : RemoteOp) (x : RemoteRes o) (ho : isSave o = false) :
    RemoteStep pairingId (.live pairing) o x (.live pairing) :=
  .check pairing (.remote o) x ho

/-- The registration of a device for a pairing that waits for its confirmation. -/
theorem follows_registration (hp : pairing.status = .hello_received) (input : RegisterInput) :
    Follows (RemoteStep pairingId) (RegisterEnd pairing) (register input) (.live pairing) := by
  refine fun existing => ⟨_, remote_checked (.getDeviceByRoute input.routeId) existing rfl, ?_⟩
  show Follows _ _ (if _ then _ else _) _
  split
  · exact Follows.of_done (.inl rfl)
  refine fun now => ⟨_, remote_checked (.agent .now) now rfl, fun id =>
    ⟨_, remote_checked (.agent .localId) id rfl, ?_⟩⟩
  show Follows _ _ (cleanLabel input.label >>= _) _
  refine Follows.of_allOps_bind (allOps_cleanLabel (fun o => isSave o = false) input.label)
    (fun o x ho => remote_checked o x ho) (fun label => ?_) fun _ => .inl rfl
  exact follows_savePaired (pairedRecord input now id label) hp rfl

/-! ## The programs of the service -/

/-- A record that waits for its confirmation is read, or the call throws. -/
theorem follows_requireLive :
    Follows (ConfirmStep pairingId) (fun r φ =>
      match r with
      | .ok pairing => φ = .live pairing ∧ pairing.status = .hello_received
      | .error _ => φ = .entered ∨ ∃ pairing, φ = .live pairing)
      (requireLive pairingId .hello_received) .entered := by
  intro found
  cases found with
  | none => exact ⟨.entered, .ask (.getPairing pairingId) none rfl, .inl rfl⟩
  | some pairing =>
      refine ⟨.live pairing, .found pairing, fun now => ?_⟩
      refine ⟨.live pairing, .check pairing (.remote (.agent .now)) now rfl, ?_⟩
      show Follows _ _ (if _ then _ else (if _ then _ else _)) _
      split
      · intro saved
        refine ⟨.entered, .expire pairing _ saved, ?_⟩
        cases saved with
        | ok _ => exact .inl rfl
        | error failure => exact .inl rfl
      · split
        · exact Follows.of_done (.inr ⟨pairing, rfl⟩)
        next hs => exact Follows.of_done ⟨rfl, not_not.mp hs⟩

/-- A call on the counters, after the write of the device. -/
theorem follows_counting {Q : Except RemoteFailure α → ConfirmPhase → Prop}
    {p : RemoteStore.CounterProg β} {f : β → PairingProg α}
    (hf : ∀ b, Follows (ConfirmStep pairingId) Q (f b) (.saved pairing device)) :
    Follows (ConfirmStep pairingId) Q (counting p >>= f) (.saved pairing device) := by
  induction p with
  | done r =>
      cases r with
      | ok b => exact hf b
      | error e => cases e
  | await o k ih => exact fun x => ⟨_, .tell pairing device (.counter o) x rfl rfl, ih x⟩

/-- The device is told: between the two writes, unless something fails. -/
theorem follows_sendConfirmation :
    Follows (ConfirmStep pairingId) (fun r φ =>
      match r with
      | .ok _ => φ = .saved pairing device
      | .error _ => φ = .broken pairing device) (sendConfirmation device)
      (.saved pairing device) := by
  intro node
  cases node with
  | error failure =>
      exact ⟨_, .fail pairing device (.remote .nodeIdentity) (.error failure) rfl, rfl⟩
  | ok node =>
      refine ⟨_, .tell pairing device (.remote .nodeIdentity) (.ok node) rfl rfl, fun now => ?_⟩
      refine ⟨_, .tell pairing device (.remote (.agent .now)) now rfl rfl, ?_⟩
      refine follows_counting fun sequence ciphertext => ?_
      cases ciphertext with
      | error failure =>
          exact ⟨_, .fail pairing device (.encryptForDevice _ _ _) (.error failure) rfl, rfl⟩
      | ok ciphertext =>
          refine ⟨_, .tell pairing device (.encryptForDevice _ _ _) (.ok ciphertext) rfl rfl, ?_⟩
          intro sent
          cases sent with
          | error failure =>
              exact ⟨_, .fail pairing device (.sendEnvelope _ _) (.error failure) rfl, rfl⟩
          | ok _ => exact ⟨_, .tell pairing device (.sendEnvelope _ _) (.ok ()) rfl rfl, rfl⟩

theorem allOps_lift_writes {p : RemoteProg α} (hp : Calm p) :
    (lift p).AllOps fun o => writes o = false := by
  induction p with
  | done r => trivial
  | await o k ih =>
      refine ⟨?_, fun x => ih x (hp.2 x)⟩
      have ho := hp.1
      cases o <;> first | rfl | cases ho

theorem writes_event (eventType summary : String) (detail : Json) :
    (event eventType summary detail).AllOps fun o => writes o = false := by
  refine ⟨rfl, fun id => ⟨rfl, fun now => ?_⟩⟩
  exact allOps_lift_writes (calm_of_quiet (quiet_appendAudit _))

/-- What follows the write of the device. -/
theorem follows_finishConfirm :
    Follows (ConfirmStep pairingId) ConfirmEnd (finishConfirm pairing device)
      (.saved pairing device) := by
  refine Follows.bind (follows_sendConfirmation.mono fun r φ hr => ?_)
  cases r with
  | error failure =>
      subst hr
      exact confirmEnd_error failure
  | ok _ =>
      subst hr
      intro saved
      cases saved with
      | error failure =>
          refine ⟨.broken pairing device, ?_, confirmEnd_error failure⟩
          exact .fail pairing device (.savePairing _) (.error failure) rfl
      | ok _ =>
          refine ⟨.stored device, .store pairing device, ?_⟩
          refine Follows.of_allOps ((writes_event _ _ _).bind fun _ => trivial)
            (fun o x ho => .record device o x ho) fun _ => trivial

/-- The registration and the confirmation of a pairing that waits for it. -/
theorem follows_confirmProved (input : ConfirmInput) (hp : pairing.status = .hello_received)
    (proved : Option (String × String × String)) :
    Follows (ConfirmStep pairingId) ConfirmEnd (confirmProved input pairing proved)
      (.live pairing) := by
  cases proved with
  | none => exact Follows.of_done (confirmEnd_error _)
  | some proved =>
      intro keyId
      refine ⟨.live pairing, .check pairing (.deviceKeyId _ _) keyId rfl, ?_⟩
      cases keyId with
      | error failure => exact confirmEnd_error failure
      | ok keyId =>
          show Follows _ _ (lift (register (registration input keyId proved)) >>= _) _
          have hregister : Follows (ConfirmStep pairingId) _ _ _ :=
            follows_lift (follows_registration hp (registration input keyId proved))
          refine Follows.bind (hregister.mono fun r φ hr => ?_)
          cases r with
          | error failure =>
              rcases hr with rfl | ⟨device, rfl⟩
              · exact confirmEnd_error failure
              · exact confirmEnd_error failure
          | ok device =>
              have hφ : φ = .saved pairing device := hr
              subst hφ
              exact follows_finishConfirm

/-- `confirm` goes through the phases. -/
theorem follows_confirm (input : ConfirmInput) :
    Follows (ConfirmStep pairingId) ConfirmEnd (confirm pairingId input) .entered := by
  intro online
  refine ⟨.entered, .ask .relayOnline online rfl, ?_⟩
  show Follows _ _ (if _ then _ else _) _
  split
  · refine Follows.bind (follows_requireLive.mono fun r φ hr => ?_)
    cases r with
    | error failure =>
        rcases hr with rfl | ⟨pairing, rfl⟩
        · exact confirmEnd_error failure
        · exact confirmEnd_error failure
    | ok pairing =>
        obtain ⟨rfl, hp⟩ := hr
        exact follows_confirmProved input hp _
  · exact Follows.of_done (confirmEnd_error _)

end Following

/-! ## What holds between the steps -/

section Steps

variable {pairingId : String} {pairing : RemotePairingSession} {device : RemoteDevice}
  {env : PairingEnv} {w w' : PairingWorld} {o : PairingOp} {x : PairingRes o} {t : PairingTrace}

/-- Two states with the same devices and pairings. -/
structure SameRows (w w' : PairingWorld) : Prop where
  devices : w'.remote.devices = w.remote.devices
  pairings : w'.pairings = w.pairings

/-- The rows change with the writes only. -/
theorem sameRows_of_not_writes (ho : writes o = false) (h : pairingHandle env o w = (x, w')) :
    SameRows w w' := by
  obtain rfl : (pairingHandle env o w).2 = w' := congrArg Prod.snd h
  cases o with
  | remote o => exact ⟨devices_of_not_isSave ho, rfl⟩
  | savePairing pairing => cases ho
  | _ => exact ⟨rfl, rfl⟩

/-- An operation that fails leaves the rows. -/
theorem sameRows_of_failed (hx : failed o x = true) (h : pairingHandle env o w = (x, w')) :
    SameRows w w' := by
  cases ho : writes o with
  | false => exact sameRows_of_not_writes ho h
  | true =>
      cases o with
      | remote o => cases o <;> first | cases hx | cases ho
      | savePairing pairing =>
          simp only [pairingHandle] at h
          split at h
          · cases h
            cases hx
          · cases h
            exact ⟨rfl, rfl⟩
      | _ => cases ho

/-- The pairing waits for its confirmation, and the device is stored and active. -/
structure Open (pairingId : String) (pairing : RemotePairingSession) (device : RemoteDevice)
    (w : PairingWorld) : Prop where
  found : w.pairing pairingId = some pairing
  waits : pairing.status = .hello_received
  kept : w.remote.device device.id = some device
  active : device.status = .active

theorem SameRows.found (h : SameRows w w') : w'.pairing pairingId = w.pairing pairingId :=
  congrArg (Table.get RemotePairingSession.id pairingId) h.pairings

theorem Open.sameRows (h : Open pairingId pairing device w) (hw : SameRows w w') :
    Open pairingId pairing device w' where
  found := hw.found.trans h.found
  waits := h.waits
  kept := (congrArg (Table.get RemoteDevice.id device.id) hw.devices).trans h.kept
  active := h.active

/-- An open pairing is not confirmed. -/
theorem Open.not_confirmed (h : Open pairingId pairing device w) :
    ¬ ConfirmedWith pairingId device w := by
  rintro ⟨p, hp, hs, -⟩
  cases Option.some.inj (h.found.symm.trans hp)
  cases hs.symm.trans h.waits

/-- What holds in a phase. -/
def Confirming (pairingId : String) : ConfirmPhase → PairingTrace → PairingWorld → Prop
  | .entered, t, _ => reached t = .nothing
  | .live pairing, t, w => reached t = .nothing ∧ w.pairing pairingId = some pairing
  | .saved pairing device, t, w => reached t = .device device ∧ Open pairingId pairing device w
  | .broken pairing device, t, w => reached t = .failure device ∧ Open pairingId pairing device w
  | .stored device, t, w => reached t = .pairing device ∧ ConfirmedWith pairingId device w

@[simp] theorem reached_append (t : PairingTrace) (e : Σ o : PairingOp, PairingRes o) :
    reached (t ++ [e]) = (reached t).next e := by
  simp [reached]

theorem storedDevice_of_not_writes (ho : writes o = false) : storedDevice o x = none := by
  cases o with
  | remote o => cases o <;> first | rfl | cases ho
  | _ => rfl

theorem storedPairing_of_not_writes (ho : writes o = false) : storedPairing o x = false := by
  cases o with
  | savePairing pairing => cases ho
  | _ => rfl

theorem reached_nothing (h : reached t = .nothing) (hx : storedDevice o x = none) :
    reached (t ++ [⟨o, x⟩]) = .nothing := by
  rw [reached_append, h, Reached.next, hx]
  rfl

/-- One step keeps what holds in the phases. -/
theorem Confirming.step {φ φ' : ConfirmPhase} (h : Confirming pairingId φ t w)
    (hT : ConfirmStep pairingId φ o x φ') (hw : pairingHandle env o w = (x, w')) :
    Confirming pairingId φ' (t ++ [⟨o, x⟩]) w' := by
  cases hT with
  | ask _ _ ho => exact reached_nothing h (storedDevice_of_not_writes ho)
  | found pairing =>
      obtain ⟨hx, rfl⟩ := Prod.mk.inj hw
      exact ⟨reached_nothing h rfl, hx⟩
  | expire pairing expired => exact reached_nothing h.1 rfl
  | check pairing _ _ ho =>
      have hsame := sameRows_of_not_writes ho hw
      exact ⟨reached_nothing h.1 (storedDevice_of_not_writes ho), hsame.found.trans h.2⟩
  | refused pairing device failure =>
      have hpairings : w'.pairings = w.pairings := congrArg (fun r => r.2.pairings) hw.symm
      exact ⟨reached_nothing h.1 rfl, (congrArg (Table.get _ _) hpairings).trans h.2⟩
  | save pairing device hp hs =>
      obtain ⟨hreached, hfound⟩ := h
      have hsaved : w'.remote = w.remote.saveDevice device := by
        have hremote : remoteHandle env.remote (.saveDevice device) w.remote =
            (.ok (), w'.remote) :=
          congrArg (fun r => (r.1, r.2.remote)) hw
        rcases RemoteWorld.saveDevice_cases env.remote w.remote device with ⟨-, hok⟩ | ⟨-, herr⟩
        · exact congrArg Prod.snd (hremote.symm.trans hok)
        · cases hremote.symm.trans herr
      have hpairings : w'.pairings = w.pairings := congrArg (fun r => r.2.pairings) hw.symm
      refine ⟨?_, (congrArg (Table.get _ _) hpairings).trans hfound, hp, ?_, hs⟩
      · rw [reached_append, hreached]
        rfl
      · rw [hsaved, RemoteWorld.device_saveDevice, if_pos rfl]
  | tell pairing device _ _ ho hx =>
      obtain ⟨hreached, hopen⟩ := h
      refine ⟨?_, hopen.sameRows (sameRows_of_not_writes ho hw)⟩
      rw [reached_append, hreached, Reached.next, hx, storedPairing_of_not_writes ho]
      rfl
  | fail pairing device _ _ hx =>
      obtain ⟨hreached, hopen⟩ := h
      refine ⟨?_, hopen.sameRows (sameRows_of_failed hx hw)⟩
      rw [reached_append, hreached, Reached.next, hx]
      rfl
  | store pairing device =>
      obtain ⟨hreached, hopen⟩ := h
      have hid : pairing.id = pairingId := Table.key_of_get hopen.found
      refine ⟨?_, confirmedRecord pairing device, ?_, rfl, rfl⟩
      · rw [reached_append, hreached]
        rfl
      · simp only [pairingHandle] at hw
        split at hw
        · obtain ⟨-, rfl⟩ := Prod.mk.inj hw
          show Table.get RemotePairingSession.id pairingId
            (Table.upsert RemotePairingSession.id (confirmedRecord pairing device) w.pairings) = _
          rw [Table.get_upsert]
          exact if_pos hid
        · cases hw
  | record device _ _ ho =>
      obtain ⟨hreached, p, hp, hs, hd⟩ := h
      refine ⟨?_, p, (sameRows_of_not_writes ho hw).found.trans hp, hs, hd⟩
      rw [reached_append, hreached]
      rfl

end Steps

/-! ## When nothing is left behind -/

/-- Where `confirm` throws, it leaves nothing behind exactly where nothing failed after the write of
the device. -/
theorem confirm_leaves_nothing_iff {pairingId : String} {input : ConfirmInput} {w w' : PairingWorld}
    {t : PairingTrace} {r : Except RemoteFailure (RemotePairingSession × RemoteDevice)}
    (hrun : Steps Surround (confirm pairingId input) w t (.done r) w') :
    (∀ failure, r = .error failure → ¬ LeftBehind pairingId t w') ↔
      (reached t).isFailure = false := by
  have hstart : Confirming pairingId .entered [] w := rfl
  obtain ⟨φ, hend, hφ⟩ := (follows_confirm input).steps hstart
    (fun _ _ _ _ _ _ _ hT hR hJ => hJ.step hT hR.choose_spec) hrun
  rw [List.nil_append] at hφ
  cases φ with
  | entered =>
      have hreached : reached t = .nothing := hφ
      simp [LeftBehind, hreached, Reached.stored, Reached.isFailure]
  | live pairing => simp [LeftBehind, hφ.1, Reached.stored, Reached.isFailure]
  | saved pairing device => exact hend.elim
  | broken pairing device =>
      obtain ⟨hreached, hopen⟩ := hφ
      have hleft : LeftBehind pairingId t w' :=
        ⟨device, by rw [hreached]; rfl, hopen.kept, hopen.active, hopen.not_confirmed⟩
      cases r with
      | ok a => exact absurd rfl (hend a)
      | error failure =>
          rw [hreached]
          exact ⟨fun h => absurd hleft (h failure rfl), nofun⟩
  | stored device =>
      obtain ⟨hreached, hconfirmed⟩ := hφ
      rw [hreached]
      refine ⟨fun _ => rfl, fun _ failure _ hleft => ?_⟩
      obtain ⟨device', hstored, -, -, hno⟩ := hleft
      rw [hreached] at hstored
      cases hstored
      exact hno hconfirmed

/-- In every state that calls on the registry reach, `register` succeeds exactly as permitted where
a device that is not revoked has the route, or else no device has it, the label fits and the audit
can be written; and a run of `confirm` that throws leaves no active device behind exactly where
nothing failed between the write of the device and that of the pairing. -/
theorem repairs_iff (env : RemoteEnv) (w : RemoteWorld) (hw : Reachable env w)
    (input : RegisterInput) (pairingId : String) (confirmInput : ConfirmInput) (v v' : PairingWorld)
    (t : PairingTrace) (r : Except RemoteFailure (RemotePairingSession × RemoteDevice))
    (hrun : Steps Surround (confirm pairingId confirmInput) v t (.done r) v') :
    ((Registers env w input ↔ ¬ ActiveRoute w input.routeId) ↔
      ActiveRoute w input.routeId ∨ ¬ RevokedRoute w input.routeId ∧ LabelFits input.label ∧
        env.auditWrite w.answers = .ok ()) ∧
    ((∀ failure, r = .error failure → ¬ LeftBehind pairingId t v') ↔
      (reached t).isFailure = false) :=
  ⟨(registered_of_reachable hw).registers_as_permitted input, confirm_leaves_nothing_iff hrun⟩

/-! ## A route that was revoked, and a message that is not sent -/

/-- The sample environment; the relay does what it is told to. -/
def PairingEnv.sample (sendEnvelope : Except RemoteFailure Unit) : PairingEnv where
  remote := .sample
  relayOnline := fun _ => true
  savePairing := fun _ => .ok ()
  verifyPairingChallenge := fun _ _ _ => .ok true
  deviceKeyId := fun _ _ => .ok "key_0123456789abcdef"
  encryptForDevice := fun _ => .ok "ciphertext"
  sendEnvelope := fun _ => sendEnvelope

/-- A phone that is paired by hand. -/
def sampleInput : RegisterInput where
  routeId := "route_1"
  label := "Phone"
  role := .approver
  signingPublicKey := "signing"
  exchangePublicKey := "exchange"
  keyId := "key_0123456789abcdef"
  restrictions := {}

/-- The phone is paired, and then revoked. -/
def pairedThenRevoked (revoking : Bool) : RegistryCall :=
  if revoking then .setStatus (idText "device" 0) .revoked else .register sampleInput

/-- After both calls. -/
def afterRevocation : RemoteWorld :=
  ((startRegistry pairedThenRevoked).runs (fun _ => remoteHandle .sample)
    (List.replicate 20 false ++ List.replicate 20 true)).state

/-- A pairing that waits for its confirmation. -/
def samplePairing : RemotePairingSession where
  id := "pair_1"
  nodeId := "node_0123456789abcdef"
  challenge := "challenge"
  status := .hello_received
  createdAt := 0
  expiresAt := 600000
  deviceRouteId := some "route_1"
  deviceSigningPublicKey := some "signing"
  deviceExchangePublicKey := some "exchange"
  challengeSignature := some "signature"
  confirmedDeviceId := none

/-- One pairing waits, and no device is paired. -/
def waiting : PairingWorld where
  remote := .empty
  counters := []
  pairings := [samplePairing]
  answers := 0

/-- The confirmation of the sample pairing. -/
def sampleConfirm : PairingProg (RemotePairingSession × RemoteDevice) :=
  confirm "pair_1" ⟨"Phone", .approver, {}⟩

theorem reachable_afterRevocation : Reachable .sample afterRevocation :=
  ⟨Bool, inferInstance, pairedThenRevoked, List.replicate 20 false ++ List.replicate 20 true, rfl⟩

/-- The relay goes offline. -/
def offline : PairingEnv := .sample (.error (.thrown "The relay is offline."))

theorem surround_handle (env : PairingEnv) (o : PairingOp) (w : PairingWorld) :
    Surround o w (pairingHandle env o w).1 (pairingHandle env o w).2 :=
  ⟨env, rfl⟩

/-- The theorem at a route that nobody has, and at a confirmation that is sent. -/
theorem repairs_first_pairing :
    ((Registers .sample .empty sampleInput ↔ ¬ ActiveRoute .empty "route_1") ↔
      ActiveRoute .empty "route_1" ∨ ¬ RevokedRoute .empty "route_1" ∧ LabelFits "Phone" ∧
        RemoteEnv.sample.auditWrite 0 = .ok ()) ∧
    ((∀ failure, (run (pairingHandle (.sample (.ok ()))) sampleConfirm waiting).1 = .error failure →
        ¬ LeftBehind "pair_1" (trace (pairingHandle (.sample (.ok ()))) sampleConfirm waiting)
          (run (pairingHandle (.sample (.ok ()))) sampleConfirm waiting).2) ↔
      (reached (trace (pairingHandle (.sample (.ok ()))) sampleConfirm waiting)).isFailure =
        false) :=
  repairs_iff .sample .empty ⟨Unit, inferInstance, fun _ => .register sampleInput, [], rfl⟩
    sampleInput "pair_1" ⟨"Phone", .approver, {}⟩ waiting _ _ _
    (Steps.of_run (surround_handle (.sample (.ok ()))) sampleConfirm waiting)

/-- The device of a route is revoked, and the route cannot be paired again; the relay goes offline
before the confirmation is sent, and the device stays active. -/
theorem repair_fails :
    (¬ ∀ (env : RemoteEnv) (w : RemoteWorld), Reachable env w → ∀ input : RegisterInput,
      Registers env w input ↔ ¬ ActiveRoute w input.routeId) ∧
    ¬ ∀ (pairingId : String) (input : ConfirmInput) (w w' : PairingWorld) (t : PairingTrace)
      (failure : RemoteFailure),
      Steps Surround (confirm pairingId input) w t (.done (.error failure)) w' →
        ¬ LeftBehind pairingId t w' := by
  constructor
  · intro h
    have hregisters := (h .sample afterRevocation reachable_afterRevocation sampleInput).mpr (by
      rintro ⟨d, hd, -, hs⟩
      have hall : afterRevocation.devices.all fun d => d.status == .revoked := by decide +kernel
      exact hs (by simpa using List.all_eq_true.mp hall d hd))
    have hfree := ((registered_of_reachable reachable_afterRevocation).registers_iff
      sampleInput).mp hregisters
    have hany : afterRevocation.devices.any fun d => d.routeId == "route_1" := by decide +kernel
    obtain ⟨d, hd, hroute⟩ := List.any_eq_true.mp hany
    exact hfree.1 d hd (beq_iff_eq.mp hroute)
  · intro h
    have hrun := Steps.of_run (surround_handle offline) sampleConfirm waiting
    have hthrown : (run (pairingHandle offline) sampleConfirm waiting).1.toOption.isNone := by
      decide +kernel
    have hfailure : (reached (trace (pairingHandle offline) sampleConfirm waiting)).isFailure := by
      decide +kernel
    cases hr : (run (pairingHandle offline) sampleConfirm waiting).1 with
    | ok confirmed =>
        rw [hr] at hthrown
        cases hthrown
    | error failure =>
        rw [hr] at hrun
        have hnothing := (confirm_leaves_nothing_iff hrun).mp fun _ _ => h _ _ _ _ _ failure hrun
        exact absurd hfailure (by simp [hnothing])

end Vops.PairingService
