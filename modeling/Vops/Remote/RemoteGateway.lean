import Vops.Keyring.KeyringServer
import Vops.Remote.RemoteWorld

/-!
# The gateway of remote control (`remote/remote-gateway.ts`)

Envelopes arrive through the relay, each of them any number of times.

* `RemoteEnvelopeV1`, `validateEnvelope` — an envelope and what it is checked for; `dateParse` is
  `Date.parse`, which gives no time for a text it cannot read.
* `ReplayStore` — the tables behind `acceptInboundMessage` and `pruneReplay` (`remote/remote-store.ts`).
* `parseRemoteInboundPayload` — the payload of an envelope (`remote/remote-message.types.ts`).
* `GatewayOp`, `handleEnvelope` — what the gateway waits for, and what it does with an envelope.
* `GatewayWorld`, `GatewayEnv`, `gatewayHandle` — the state, and what answers from outside.

Fields whose type is checked when an envelope arrives are `none` where they are no text.
-/

namespace Vops.RemoteGateway

open Async Keyring

/-! ## Envelopes -/

/-- `RemoteEnvelopeV1` -/
structure RemoteEnvelopeV1 where
  protocol_version : JsNum
  message_id : Option String
  sender_id : Option String
  recipient_id : Option String
  channel : String
  created_at : String
  expires_at : String
  key_id : Option String
  sequence : JsNum
  ciphertext : Option String
deriving DecidableEq

/-- `CHANNELS` -/
def CHANNELS : List String :=
  ["presence", "notification", "state_sync", "chat_request", "chat_stream", "approval",
    "remote_command", "delivery_ack", "key_management"]

/-- `Number.isSafeInteger(n)` -/
def isSafeInteger : JsNum → Bool
  | .fin q => q.den == 1 && decide (|q| ≤ 2 ^ 53 - 1)
  | _ => false

/-- A text whose length is between two bounds. -/
def lengthBetween (lo hi : ℕ) : Option String → Bool
  | some text => decide (lo ≤ utf16Length text.toList ∧ utf16Length text.toList ≤ hi)
  | none => false

/-- `if (!ok) throw new Error(message)` -/
def check (ok : Bool) (message : String) : Except RemoteFailure Unit :=
  if ok then .ok () else .error (.thrown message)

/-- An identifier of an envelope has from 3 to 160 characters. -/
def checkId (field : String) (value : Option String) : Except RemoteFailure Unit :=
  check (lengthBetween 3 160 value) s!"Remote envelope {field} is invalid."

/-- The times of an envelope, as far as they can be read, against the clock. -/
def checkTimes (created expires : Option ℤ) (now : ℤ) : Except RemoteFailure Unit :=
  match created, expires with
  | some created, some expires =>
      if expires ≤ created then .error (.thrown "Remote envelope timestamps are invalid.")
      else if now + 2 * 60000 < created ∨ expires ≤ now then
        .error (.thrown "Remote envelope is expired or from the future.")
      else if 15 * 60000 < expires - created then
        .error (.thrown "Remote envelope lifetime exceeds the accepted window.")
      else .ok ()
  | _, _ => .error (.thrown "Remote envelope timestamps are invalid.")

/-- `validateEnvelope`, at a reading of the clock. -/
def validateEnvelope (dateParse : String → Option ℤ) (now : ℤ) :
    Option RemoteEnvelopeV1 → Except RemoteFailure Unit
  | none => .error (.thrown "Unsupported remote envelope protocol.")
  | some e => do
      check (e.protocol_version == 1) "Unsupported remote envelope protocol."
      checkId "message_id" e.message_id
      checkId "sender_id" e.sender_id
      checkId "recipient_id" e.recipient_id
      checkId "key_id" e.key_id
      check (CHANNELS.contains e.channel) "Remote envelope channel is invalid."
      check (isSafeInteger e.sequence && !e.sequence.lt 1) "Remote envelope sequence is invalid."
      check (lengthBetween 32 512000 e.ciphertext) "Remote envelope ciphertext length is invalid."
      checkTimes (dateParse e.created_at) (dateParse e.expires_at) now

/-! ## Messages that were received -/

/-- A row of `remote_replay_messages`. -/
structure ReplayRow where
  message_id : String
  device_id : String
  sequence : JsNum
  expires_at : String
deriving DecidableEq

/-- The tables that an accepted message is written to: `remote_replay_messages`, and the inbound counters
of `remote_device_counters`. -/
structure ReplayStore where
  rows : List ReplayRow
  inbound : List (String × JsNum)

namespace ReplayStore

/-- The message id, a primary key, is taken. -/
def seen (s : ReplayStore) (messageId : String) : Bool :=
  s.rows.any fun r => r.message_id == messageId

/-- The inbound counter of a device. -/
def counter (s : ReplayStore) (deviceId : String) : JsNum :=
  ((Table.get Prod.fst deviceId s.inbound).map Prod.snd).getD 0

/-- Both statements of `acceptInboundMessage`. -/
def insert (s : ReplayStore) (deviceId messageId : String) (sequence : JsNum) (expiresAt : String) :
    ReplayStore where
  rows := s.rows ++ [⟨messageId, deviceId, sequence, expiresAt⟩]
  inbound := Table.upsert Prod.fst (deviceId, (s.counter deviceId).max sequence) s.inbound

/-- `acceptInboundMessage`: one transaction, undone where the message id is taken. -/
def acceptInboundMessage (s : ReplayStore) (deviceId messageId : String) (sequence : JsNum)
    (expiresAt : String) : Bool × ReplayStore :=
  if s.seen messageId then (false, s) else (true, s.insert deviceId messageId sequence expiresAt)

/-- `pruneReplay`: texts are compared character by character. -/
def pruneReplay (s : ReplayStore) (now : String) : ReplayStore :=
  { s with rows := s.rows.filter fun r => !decide (r.expires_at < now) }

/-- Nothing was received. -/
def empty : ReplayStore := ⟨[], []⟩

end ReplayStore

/-! ## Payloads -/

/-- `RemoteChatUserMessage` -/
structure RemoteChatUserMessage where
  request_id : String
  conversation_id : Option String
  provider : Option String
  content : String
deriving DecidableEq

/-- `RemoteChatCancelMessage` -/
structure RemoteChatCancelMessage where
  request_id : String
  target_request_id : String
  conversation_id : Option String
deriving DecidableEq

/-- `RemoteInboundPayload` -/
inductive InboundPayload
  | syncRequest (request_id : String)
  | userMessage (message : RemoteChatUserMessage)
  | chatCancel (message : RemoteChatCancelMessage)
  | command (request_id : String) (signed_command : Json)

/-- `[\\u0000-\\u0008\\u000b\\u000c\\u000e-\\u001f]` -/
def isUnsupportedControl (c : Char) : Bool :=
  decide (c.toNat ≤ 0x1f) && c != '\t' && c != '\n' && c != '\r'

/-- `boundedString` -/
def boundedString (value : Option Json) (field : String) (max : ℕ) : Except RemoteFailure String :=
  match value with
  | some (.str text) =>
      if lengthBetween 1 max (some text) then
        if text.toList.any isUnsupportedControl then
          .error (.thrown s!"Remote {field} contains unsupported control characters.")
        else .ok text
      else .error (.thrown s!"Remote {field} must be between 1 and {max} characters.")
  | _ => .error (.thrown s!"Remote {field} must be between 1 and {max} characters.")

/-- `parseProvider` -/
def parseProvider (value : Option Json) : Except RemoteFailure String := do
  let provider ← boundedString value "provider" 80
  if provider ∈ ["codex", "claude-code", "opencode", "antigravity", "openai-compatible"] then
    return provider
  else throw (.thrown s!"Unsupported remote provider '{provider}'.")

/-- A field that is read only where its value is truthy. -/
def optional (value : Option Json) (read : Option Json → Except RemoteFailure String) :
    Except RemoteFailure (Option String) :=
  if Json.truthyOf value then (read value).map some else .ok none

/-- The fields of a payload, by its type. -/
def parseFields (row : Json) (requestId : String) : Except RemoteFailure InboundPayload :=
  match row.get? "type" with
  | some (.str "sync.request") => .ok (.syncRequest requestId)
  | some (.str "chat.user_message") => do
      let content := jsTrim (← boundedString (row.get? "content") "content" 8000)
      if content = "" then throw (.thrown "Remote chat content cannot be empty.")
      let provider ← optional (row.get? "provider") parseProvider
      let conversationId ← optional (row.get? "conversation_id") fun value =>
        boundedString value "conversation_id" 128
      return .userMessage ⟨requestId, conversationId, provider, content⟩
  | some (.str "chat.cancel") => do
      let target ← boundedString (row.get? "target_request_id") "target_request_id" 128
      let conversationId ← optional (row.get? "conversation_id") fun value =>
        boundedString value "conversation_id" 128
      return .chatCancel ⟨requestId, target, conversationId⟩
  | some (.str "remote.command") =>
      match row.get? "signed_command" with
      | some (.obj fields) => .ok (.command requestId (.obj fields))
      | _ => .error (.thrown "Remote signed_command must be an object.")
  | type =>
      let text := Json.textOf type
      .error (.thrown s!"Unsupported remote payload type '{text}'.")

/-- `parseRemoteInboundPayload` -/
def parseRemoteInboundPayload : Json → Except RemoteFailure InboundPayload
  | .obj fields => do
      let requestId ← boundedString ((Json.obj fields).get? "request_id") "request_id" 128
      parseFields (.obj fields) requestId
  | _ => .error (.thrown "Remote payload must be an object.")

/-- The channel on which a payload may come, and the error where it comes on another. -/
def InboundPayload.channel : InboundPayload → String × String
  | syncRequest _ => ("state_sync", "Remote sync request used the wrong encrypted channel.")
  | userMessage _ => ("chat_request", "Remote chat request used the wrong encrypted channel.")
  | chatCancel _ => ("chat_request", "Remote chat cancellation used the wrong encrypted channel.")
  | command _ _ => ("remote_command", "Remote command used the wrong encrypted channel.")

/-! ## Operations -/

/-- The operations the gateway waits for. -/
inductive GatewayOp
  | now
  | ensureNodeIdentity
  | getActiveByRoute (routeId : String)
  | decryptFromDevice (device : RemoteDevice) (envelope : RemoteEnvelopeV1)
  | acceptInboundMessage (deviceId messageId : String) (sequence : JsNum) (expiresAt : String)
  | acknowledge (messageId : Option String)
  | touch (deviceId : String)
  | snapshot (device : RemoteDevice) (requestId : String)
  | sendSnapshot (device : RemoteDevice) (requestId : String)
  | chat (device : RemoteDevice) (message : RemoteChatUserMessage)
  | cancelChat (device : RemoteDevice) (message : RemoteChatCancelMessage)
  | command (device : RemoteDevice) (requestId : String) (signed : Json)
  | appendEvent (eventType summary : String) (detail : List (String × Option String))

/-- The answer of an operation. -/
abbrev GatewayRes : GatewayOp → Type
  | .now => ℤ
  | .ensureNodeIdentity => Except RemoteFailure String
  | .getActiveByRoute _ => Except RemoteFailure RemoteDevice
  | .decryptFromDevice _ _ => Except RemoteFailure Json
  | .acceptInboundMessage _ _ _ _ => Except RemoteFailure Bool
  | .chat _ _ => Unit
  | .command _ _ _ => Unit
  | _ => Except RemoteFailure Unit

/-- A program of the gateway. -/
abbrev GatewayProg (α : Type) := Async GatewayOp GatewayRes RemoteFailure α

/-- Wait for one operation. -/
abbrev ask (o : GatewayOp) : GatewayProg (GatewayRes o) := Async.perform o

/-- Go on with a result, or throw its error. -/
def orThrow {α : Type} (r : Except RemoteFailure α) : GatewayProg α := .done r

/-! ## `handleEnvelope` -/

/-- `event` for an envelope that was accepted before. -/
def replayed (device : RemoteDevice) (e : RemoteEnvelopeV1) : GatewayProg Unit := do
  orThrow (← ask (.appendEvent "remote.message.replayed" "Rejected a replayed remote message."
    [("deviceId", some device.id), ("messageId", e.message_id)]))

/-- A fresh payload goes to its handler, when it came on its channel. Neither a chat turn nor a command
is waited for. -/
def dispatch (device : RemoteDevice) (e : RemoteEnvelopeV1) (payload : InboundPayload) :
    GatewayProg Unit := do
  if e.channel ≠ payload.channel.1 then throw (.thrown payload.channel.2)
  else
    match payload with
    | .syncRequest requestId => do
        orThrow (← ask (.snapshot device requestId))
        orThrow (← ask (.sendSnapshot device requestId))
    | .userMessage message => ask (.chat device message)
    | .chatCancel message => do orThrow (← ask (.cancelChat device message))
    | .command requestId signed => ask (.command device requestId signed)

/-- What becomes of a payload once `acceptInboundMessage` has answered. -/
def accepted (device : RemoteDevice) (e : RemoteEnvelopeV1) (payload : InboundPayload) (fresh : Bool) :
    GatewayProg Unit := do
  orThrow (← ask (.acknowledge e.message_id))
  if !fresh then replayed device e
  else do
    orThrow (← ask (.touch device.id))
    dispatch device e payload

/-- An envelope that is valid for its form: who sent it, what it holds, whether it is new. -/
def receive (e : RemoteEnvelopeV1) : GatewayProg Unit := do
  let nodeId ← orThrow (← ask .ensureNodeIdentity)
  if e.recipient_id ≠ some nodeId then
    throw (.thrown "Remote envelope is addressed to a different control node.")
  else do
    let device ← orThrow (← ask (.getActiveByRoute (e.sender_id.getD "")))
    if e.key_id ≠ some device.keyId then
      throw (.thrown "Remote envelope key binding does not match the paired device.")
    else do
      let plain ← orThrow (← ask (.decryptFromDevice device e))
      let payload ← orThrow (parseRemoteInboundPayload plain)
      let fresh ← orThrow (← ask (.acceptInboundMessage device.id (e.message_id.getD "")
        e.sequence e.expires_at))
      accepted device e payload fresh

/-- `safeId` -/
def safeId (value : Option String) : Option String := value.map (sliceText 160)

/-- The `catch` block: the envelope is acknowledged, if that is possible, and the refusal recorded. -/
def refuse (envelope : Option RemoteEnvelopeV1) (error : RemoteFailure) : GatewayProg Unit := do
  let event : GatewayProg Unit := do
    orThrow (← ask (.appendEvent "remote.message.rejected" "Rejected a remote encrypted message."
      [("senderId", safeId (envelope.bind RemoteEnvelopeV1.sender_id)),
        ("messageId", safeId (envelope.bind RemoteEnvelopeV1.message_id)),
        ("reason", some (sliceText 240 error.message))]))
  match envelope with
  | none => event
  | some e => do
      let _ ← ask (.acknowledge e.message_id)
      event

/-- `handleEnvelope` -/
def handleEnvelope (dateParse : String → Option ℤ) (envelope : Option RemoteEnvelopeV1) :
    GatewayProg Unit :=
  tryCatch
    (do
      let now ← ask .now
      orThrow (validateEnvelope dateParse now envelope)
      match envelope with
      | none => return ()
      | some e => receive e)
    (refuse envelope)

/-! ## The world -/

/-- What is outside the gateway and answers arbitrarily, one answer after the other. -/
structure GatewayEnv where
  now : ℕ → ℤ
  nodeIdentity : ℕ → Except RemoteFailure String
  activeByRoute : ℕ → String → Except RemoteFailure RemoteDevice
  decrypt : ℕ → RemoteDevice → RemoteEnvelopeV1 → Except RemoteFailure Json
  /-- The database cannot be opened. -/
  storeFails : ℕ → Option RemoteFailure
  /-- The transaction of `acceptInboundMessage` fails for a reason of its own. -/
  batchFails : ℕ → Bool
  acknowledge : ℕ → Except RemoteFailure Unit
  touch : ℕ → Except RemoteFailure Unit
  /-- Snapshots, their sending, the cancelling of a turn. -/
  handler : ℕ → Except RemoteFailure Unit
  audit : ℕ → Except RemoteFailure Unit

/-- The state the operations act on. -/
structure GatewayWorld where
  replay : ReplayStore
  /-- How many answers were drawn from outside. -/
  answers : ℕ

/-- One more answer was drawn. -/
def GatewayWorld.drawn (w : GatewayWorld) : GatewayWorld := { w with answers := w.answers + 1 }

/-- What an operation answers, and the world it leaves. -/
def gatewayHandle (env : GatewayEnv) : Handler GatewayOp GatewayRes GatewayWorld
  | .now, w => (env.now w.answers, w.drawn)
  | .ensureNodeIdentity, w => (env.nodeIdentity w.answers, w.drawn)
  | .getActiveByRoute routeId, w => (env.activeByRoute w.answers routeId, w.drawn)
  | .decryptFromDevice device e, w => (env.decrypt w.answers device e, w.drawn)
  | .acceptInboundMessage deviceId messageId sequence expiresAt, w =>
      match env.storeFails w.answers with
      | some failure => (.error failure, w.drawn)
      | none =>
          if env.batchFails w.answers then (.ok false, w.drawn)
          else
            let (fresh, replay) := w.replay.acceptInboundMessage deviceId messageId sequence expiresAt
            (.ok fresh, { w.drawn with replay := replay })
  | .acknowledge _, w => (env.acknowledge w.answers, w.drawn)
  | .touch _, w => (env.touch w.answers, w.drawn)
  | .snapshot _ _, w => (env.handler w.answers, w.drawn)
  | .sendSnapshot _ _, w => (env.handler w.answers, w.drawn)
  | .chat _ _, w => ((), w)
  | .cancelChat _ _, w => (env.handler w.answers, w.drawn)
  | .command _ _ _, w => ((), w)
  | .appendEvent _ _ _, w => (env.audit w.answers, w.drawn)

end Vops.RemoteGateway
