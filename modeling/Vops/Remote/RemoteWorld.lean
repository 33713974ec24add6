import Vops.AgentControl.AgentSessionManager
import Vops.Lib.Interleave
import Mathlib.Data.List.Sort

/-!
# The operations of remote control and the world they act on (`remote/remote-store.ts`)

Remote control has tables of its own and calls the agent control plane: an operation is one of the
agent control plane, or one on the tables of remote control, the vault, the relay, the catalog.

* `RemoteOp`, `RemoteRes` — the operations and the type of their answers.
* `RemoteWorld` — the tables, and the world of the agent control plane.
* `RemoteEnv` — what the world answers from outside: arbitrary, and drawn one answer after the other.
* `remoteHandle` — what an operation answers and changes. `rememberCommand` is one transaction: both rows
  are inserted, or none.
* `lift` — a program of the agent control plane, as a program of remote control.

`auditWrite` stands before every audit event of remote control: the write may fail. Three operations only
mark a call for the properties that speak of it: `execute` and `executed` (a command's execution begins,
and has ended without an error) and `executePlan` (`ActionBroker.executePlan`).
-/

/-!
## The records of remote control (`remote/remote-model.ts`, `remote/remote-message.types.ts`)

* `RemoteDevice` — a paired device with its role, its status and what it is granted.
* `SignedRemoteCommandV1`, `RemoteCommandRequest` — a signed command as a device sends it.
* `CommandRecord` — what is stored for a command and sent back.
* `RemoteIntent`, `RemoteIntentProposal` — a conditional intent.
* `RemoteFailure` — what a call throws: an error with a code of its own, or one of the agent control
  plane.

Dates are what `Date.parse` makes of them. Of the parameters of a command the ones that are read have a
field; `size` is how many there are.
-/

namespace Vops

open AgentSessionManager (DateText)

/-! ## Devices -/

/-- `RemoteDeviceRole` -/
inductive RemoteDeviceRole
  | viewer | approver | admin
deriving DecidableEq

/-- The text of a role. -/
def RemoteDeviceRole.text : RemoteDeviceRole → String
  | viewer => "viewer"
  | approver => "approver"
  | admin => "admin"

/-- `RemoteDeviceStatus` -/
inductive RemoteDeviceStatus
  | pending | active | suspended | revoked
deriving DecidableEq

/-- The text of a device status. -/
def RemoteDeviceStatus.text : RemoteDeviceStatus → String
  | pending => "pending"
  | active => "active"
  | suspended => "suspended"
  | revoked => "revoked"

/-- `RemoteDeviceRestrictions` -/
structure RemoteDeviceRestrictions where
  projects : List String
  targets : List String
  environments : List AgentEnvironment
  maxRisk : CapabilityRisk
  approvalKinds : List String
  maxProviderSpendEur : ℚ
  validUntil : DateText
deriving DecidableEq

/-- `RemoteDevice` -/
structure RemoteDevice where
  id : String
  routeId : String
  label : String
  role : RemoteDeviceRole
  status : RemoteDeviceStatus
  signingPublicKey : String
  exchangePublicKey : String
  keyId : String
  restrictions : RemoteDeviceRestrictions
  pairedAt : ℤ
  updatedAt : ℤ
  lastSeenAt : Option ℤ
  revokedAt : Option ℤ
  suspendedAt : Option ℤ
deriving DecidableEq

/-! ## Intents -/

/-- `RemoteIntent.status` -/
inductive IntentStatus
  | active | paused | triggered | executing | succeeded | failed | expired | revoked
deriving DecidableEq

/-- The text of an intent status. -/
def IntentStatus.text : IntentStatus → String
  | active => "active"
  | paused => "paused"
  | triggered => "triggered"
  | executing => "executing"
  | succeeded => "succeeded"
  | failed => "failed"
  | expired => "expired"
  | revoked => "revoked"

/-- `RemoteIntent.trigger` -/
structure IntentTrigger where
  type : String
  provider : String
  serverType : String
  location : Option String
deriving DecidableEq

/-- `RemoteIntent.action` -/
structure IntentAction where
  capability : String
  input : Json
  environment : AgentEnvironment
  target : Option String

/-- `RemoteIntent.constraints` -/
structure IntentConstraints where
  expiresAt : DateText
  maxExecutions : JsNum
  maxSpendEur : JsNum
  failureBehavior : String
deriving DecidableEq

/-- `RemoteIntentProposal` -/
structure RemoteIntentProposal where
  id : String
  objective : String
  trigger : IntentTrigger
  action : IntentAction
  constraints : IntentConstraints

/-- `RemoteIntent` -/
structure RemoteIntent extends RemoteIntentProposal where
  deviceId : String
  version : ℕ
  status : IntentStatus
  agentSessionId : ℕ
  planId : ℕ
  planHash : String
  approvalId : ℕ
  executionCount : ℕ
  createdAt : ℤ
  updatedAt : ℤ
  lastCheckedAt : Option ℤ
  matchedAt : Option ℤ
  operationId : Option ℕ
  lastError : Option String

/-! ## Signed commands -/

/-- `SignedRemoteCommandType`, and any other text. -/
inductive CommandType
  | approvalDecision | operationCancel | operationRollback | agentPause | agentResume | agentRevoke
  | agentsStopAll | notificationDismiss | intentCreate | intentPause | intentRevoke
  | unknown (text : String)
deriving DecidableEq

/-- The text of a command type. -/
def CommandType.text : CommandType → String
  | approvalDecision => "approval.decision"
  | operationCancel => "operation.cancel_request"
  | operationRollback => "operation.rollback_request"
  | agentPause => "agent.pause_request"
  | agentResume => "agent.resume_request"
  | agentRevoke => "agent.revoke_request"
  | agentsStopAll => "agents.stop_all_request"
  | notificationDismiss => "notification.dismiss_request"
  | intentCreate => "intent.create_request"
  | intentPause => "intent.pause_request"
  | intentRevoke => "intent.revoke_request"
  | unknown text => text

/-- `SignedRemoteCommandPayload.subject.kind` -/
inductive SubjectKind
  | approval | operation | agent_session | notification | intent | control_node
deriving DecidableEq

/-- The text of a kind of subject. -/
def SubjectKind.text : SubjectKind → String
  | approval => "approval"
  | operation => "operation"
  | agent_session => "agent_session"
  | notification => "notification"
  | intent => "intent"
  | control_node => "control_node"

/-- `SignedRemoteCommandPayload.subject` -/
structure CommandSubject where
  kind : SubjectKind
  id : String
  version : JsNum
deriving DecidableEq

/-- `SignedRemoteCommandPayload.parameters` -/
structure CommandParameters where
  size : ℕ
  decision : Option Json := none
  reason : Option Json := none
  intent : Option RemoteIntentProposal := none

/-- `SignedRemoteCommandPayload` -/
structure SignedRemoteCommandPayload where
  protocol_version : JsNum
  command_id : String
  device_id : String
  node_id : String
  type : CommandType
  subject : CommandSubject
  plan_hash : Option String
  issued_at : DateText
  expires_at : DateText
  nonce : String
  parameters : CommandParameters

/-- `SignedRemoteCommandV1` -/
structure SignedRemoteCommandV1 where
  payload : SignedRemoteCommandPayload
  key_id : String
  signature : String

/-- `RemoteCommandRequest`; a command that is no object, or has no payload, is `none`. -/
structure RemoteCommandRequest where
  request_id : String
  signed_command : Option SignedRemoteCommandV1

/-! ## Results -/

/-- What the execution of a command answers. -/
inductive CommandResult
  | approval (approval : AgentApproval)
  | operation (operation : AgentOperation)
  | session (session : AgentSession)
  | stopped (sessionIds : List ℕ)
  | intent (intent : RemoteIntent)

/-- `state`, and with it the `type`, of a record about a command. -/
inductive CommandState
  | received | executed | rejected
deriving DecidableEq

/-- The `type` of a record about a command. -/
def CommandState.type : CommandState → String
  | received => "command.received"
  | executed => "command.completed"
  | rejected => "command.rejected"

/-- `RemoteCommandResult.error` -/
structure CommandError where
  code : String
  message : String
deriving DecidableEq

/-- `RemoteCommandResult`, and the record of a command that was received; `time` is `received_at` or
`completed_at`. -/
structure CommandRecord where
  request_id : String
  command_id : Option String
  state : CommandState
  duplicate : Bool := false
  result : Option CommandResult := none
  error : Option CommandError := none
  time : ℤ

/-- What is sent to a device. -/
inductive RemoteMessage
  | command (record : CommandRecord)
  | intentUpdated (intent : RemoteIntent)

/-! ## Errors -/

/-- What a call of remote control throws. -/
inductive RemoteFailure
  | command (code message : String)
  | agent (failure : Failure)
deriving DecidableEq

/-- Any other error, by its message. -/
def RemoteFailure.thrown (message : String) : RemoteFailure := .agent (.thrown message)

/-- `error.message` -/
def RemoteFailure.message : RemoteFailure → String
  | command _ message => message
  | agent (.control error) => error.message
  | agent (.thrown message) => message

/-- `error.code`, where it is a text. -/
def RemoteFailure.code : RemoteFailure → Option String
  | command code _ => some code
  | agent (.control error) => some error.code.text
  | agent (.thrown _) => none

/-! ## Sample records -/

/-- An admin device for the examples of this development, granted one target. -/
def sampleDevice : RemoteDevice where
  id := "device_0123456789abcdef"
  routeId := "route_0123456789abcdef"
  label := "phone"
  role := .admin
  status := .active
  signingPublicKey := "signing"
  exchangePublicKey := "exchange"
  keyId := "key_0123456789abcdef"
  restrictions := ⟨[], ["demo"], [.development, .staging], .medium, ["plan", "operation"], 0, .empty⟩
  pairedAt := 0
  updatedAt := 0
  lastSeenAt := none
  revokedAt := none
  suspendedAt := none

/-- A command of that device, about the approval `2`. -/
def samplePayload : SignedRemoteCommandPayload where
  protocol_version := 1
  command_id := "cmd_0123456789abcdef"
  device_id := "device_0123456789abcdef"
  node_id := "node_0123456789abcdef"
  type := .approvalDecision
  subject := ⟨.approval, "apr_2", 0⟩
  plan_hash := some "0123456789abcdef0123456789abcdef0123456789abcdef0123456789abcdef"
  issued_at := .at 0
  expires_at := .at 1000
  nonce := "0123456789abcdef"
  parameters := { size := 1, decision := some (.str "approve") }

/-! ## Texts -/

/-- `[A-Za-z0-9_-]` -/
def isTokenChar (c : Char) : Bool := c.isAlphanum || c == '_' || c == '-'

/-- `/^pre[A-Za-z0-9_-]{lo,hi}$/` -/
def isToken (pre : String) (lo hi : ℕ) (text : String) : Bool :=
  let rest := text.toList.drop pre.toList.length
  pre.toList.isPrefixOf text.toList && decide (lo ≤ rest.length ∧ rest.length ≤ hi) &&
    rest.all isTokenChar

/-- `text.slice(0, n)`, where every character is one code unit. -/
def sliceText (n : ℕ) (text : String) : String := String.ofList (text.toList.take n)

/-- The text contains one of the words, whatever the case of its ASCII letters. -/
def mentions (words : List String) (text : String) : Bool :=
  let lower := text.toList.map Char.toLower
  words.any fun word => lower.tails.any fun rest => word.toList.isPrefixOf rest

/-- The value of decimal digits, without a leading zero. -/
def decimal? : List Char → Option ℕ
  | [] => none
  | ['0'] => some 0
  | '0' :: _ => none
  | cs => if cs.all Char.isDigit then some (digitsValue 10 (decimalDigits cs)) else none

/-- The identifier whose text is given. -/
def recordId (kind text : String) : Option ℕ :=
  let start := (kind ++ "_").toList
  if start.isPrefixOf text.toList then decimal? (text.toList.drop start.length) else none

end Vops

namespace Vops

/-! ## Operations -/

/-- An element of `VopsAvailabilityResult.plans`: the locations with `available`. -/
structure PlanAvailability where
  id : String
  name : String
  everywhere : Bool
  locations : List (String × Option Bool)
deriving DecidableEq

/-- `RemoteEnvelopeV1.channel`, of the messages that are modelled. -/
inductive RemoteChannel
  | remote_command | notification
deriving DecidableEq

/-- The operations a program of remote control waits for. -/
inductive RemoteOp
  | agent (o : Op)
  | auditWrite
  | getDevice (id : String)
  | getDeviceByRoute (routeId : String)
  | saveDevice (device : RemoteDevice)
  | getCommand (id : String)
  | rememberCommand (id deviceId nonce : String) (record : CommandRecord)
  | saveCommandResult (id : String) (record : CommandRecord)
  | getIntent (id : String)
  | listIntents
  | saveIntent (intent : RemoteIntent)
  | nodeIdentity
  | verifyDeviceSignature (payload : SignedRemoteCommandPayload) (signature key : String)
  | deliver (device : RemoteDevice) (channel : RemoteChannel) (message : RemoteMessage)
  | setDeviceRouteState (routeId : String) (status : RemoteDeviceStatus)
  | recordTime (kind : String) (id : ℕ)
  | setEmergencyStop
  | intentWorkspace
  | availability (provider serverType : String)
  | beginCheck
  | endCheck
  | getToken (intentId : String)
  | setToken (intentId : String) (token : ℕ)
  | removeToken (intentId : String)
  | execute (device : RemoteDevice) (payload : SignedRemoteCommandPayload)
  | executed (commandId : String)
  | executePlan (intentId : String) (token planId : ℕ)

/-- The answer of an operation. -/
abbrev RemoteRes : RemoteOp → Type
  | .agent o => Res o
  | .auditWrite => Except RemoteFailure Unit
  | .getDevice _ => Option RemoteDevice
  | .getDeviceByRoute _ => Option RemoteDevice
  | .saveDevice _ => Except RemoteFailure Unit
  | .getCommand _ => Option CommandRecord
  | .rememberCommand _ _ _ _ => Bool
  | .saveCommandResult _ _ => Unit
  | .getIntent _ => Option RemoteIntent
  | .listIntents => List RemoteIntent
  | .saveIntent _ => Unit
  | .nodeIdentity => Except RemoteFailure String
  | .verifyDeviceSignature _ _ _ => Except RemoteFailure Bool
  | .deliver _ _ _ => Except RemoteFailure Unit
  | .setDeviceRouteState _ _ => Unit
  | .recordTime _ _ => JsNum
  | .setEmergencyStop => Unit
  | .intentWorkspace => Except RemoteFailure String
  | .availability _ _ => Except RemoteFailure (List PlanAvailability)
  | .beginCheck => Bool
  | .endCheck => Unit
  | .getToken _ => Except RemoteFailure (Option ℕ)
  | .setToken _ _ => Except RemoteFailure Unit
  | .removeToken _ => Except RemoteFailure Unit
  | .execute _ _ => Unit
  | .executed _ => Unit
  | .executePlan _ _ _ => Unit

/-- A program of remote control. -/
abbrev RemoteProg (α : Type) := Async RemoteOp RemoteRes RemoteFailure α

/-- Wait for one operation. -/
abbrev wait (o : RemoteOp) : RemoteProg (RemoteRes o) := Async.perform o

/-- Go on with a result, or throw its error. -/
def orFail {α : Type} : Except RemoteFailure α → RemoteProg α
  | .ok a => pure a
  | .error e => throw e

@[simp] theorem orFail_eq {α : Type} (r : Except RemoteFailure α) : orFail r = .done r := by
  cases r <;> rfl

/-- `if (c) await p` -/
def onlyWhen (c : Bool) (p : RemoteProg Unit) : RemoteProg Unit := if c then p else pure ()

/-- What follows also when the program throws: its result or its error. -/
def attempt {α : Type} (p : RemoteProg α) : RemoteProg (Except RemoteFailure α) :=
  tryCatch (p >>= fun a => pure (.ok a)) fun e => pure (.error e)

/-- A program of the agent control plane. -/
def lift {α : Type} : Prog α → RemoteProg α
  | .done (.ok a) => .done (.ok a)
  | .done (.error e) => .done (.error (.agent e))
  | .await o k => .await (.agent o) fun x => lift (k x)

/-- A reading of the clock. -/
def clock : RemoteProg ℤ := wait (.agent .now)

/-- `audit.appendEvent` -/
def appendAudit (e : AgentEvent) : RemoteProg Unit := do
  orFail (← wait .auditWrite)
  let _ ← lift (appendEvent e)
  return ()

/-- Throw an error with a code. -/
def throwCommand {α : Type} (code message : String) : RemoteProg α := throw (.command code message)

/-- Throw any other error. -/
def throwRemote {α : Type} (message : String) : RemoteProg α := throw (.thrown message)

/-- `RemoteMessenger.send` -/
def sendMessage (device : RemoteDevice) (channel : RemoteChannel) (message : RemoteMessage) :
    RemoteProg Unit := do
  if device.status ≠ .active then throwRemote "Cannot send to an inactive remote device."
  else orFail (← wait (.deliver device channel message))

/-! ## The world -/

/-- A row of `remote_commands`. -/
structure CommandRow where
  command_id : String
  device_id : String
  record : CommandRecord

/-- A row of `remote_command_nonces`. -/
structure NonceRow where
  nonce : String
  command_id : String
  device_id : String

/-- What is outside the program and answers arbitrarily. -/
structure RemoteEnv where
  agent : Env
  auditWrite : ℕ → Except RemoteFailure Unit
  nodeIdentity : ℕ → Except RemoteFailure String
  verifyDeviceSignature :
    SignedRemoteCommandPayload → String → String → Except RemoteFailure Bool
  deliver : ℕ → Except RemoteFailure Unit
  /-- The transaction of `rememberCommand` fails for a reason of its own. -/
  batchFails : ℕ → Bool
  /-- `Date.parse(record.updatedAt)`, or of an approval `requestedAt`. -/
  recordTime : ℕ → JsNum
  intentWorkspace : ℕ → Except RemoteFailure String
  availability : ℕ → Except RemoteFailure (List PlanAvailability)
  /-- Whether the vault can be read and written. -/
  vault : ℕ → Except RemoteFailure Unit

/-- The state the operations act on. -/
structure RemoteWorld where
  agent : World
  devices : List RemoteDevice
  commands : List CommandRow
  nonces : List NonceRow
  intents : List RemoteIntent
  /-- The session tokens of the intents, in the vault. -/
  tokens : List (String × ℕ)
  /-- `IntentService.checking` -/
  checking : Bool
  /-- How many answers were drawn from outside. -/
  answers : ℕ

namespace RemoteWorld

/-- The stored record of a device. -/
def device (w : RemoteWorld) (id : String) : Option RemoteDevice :=
  Table.get RemoteDevice.id id w.devices

/-- The record stored under a route. -/
def deviceByRoute (w : RemoteWorld) (routeId : String) : Option RemoteDevice :=
  w.devices.find? fun d => d.routeId == routeId

/-- The stored record of a command. -/
def command (w : RemoteWorld) (id : String) : Option CommandRecord :=
  (Table.get CommandRow.command_id id w.commands).map CommandRow.record

/-- The stored record of an intent. -/
def intent (w : RemoteWorld) (id : String) : Option RemoteIntent :=
  Table.get (fun i : RemoteIntent => i.id) id w.intents

/-- `ORDER BY updated_at DESC` -/
def intentsNewestFirst (w : RemoteWorld) : List RemoteIntent :=
  w.intents.insertionSort fun a b => b.updatedAt ≤ a.updatedAt

/-- A primary key or a unique column of one of the two tables is taken. -/
def taken (w : RemoteWorld) (commandId nonce : String) : Bool :=
  (w.commands.any fun r => r.command_id == commandId) ||
    w.nonces.any fun r => r.nonce == nonce || r.command_id == commandId

/-- Both rows of `rememberCommand`. -/
def insertCommand (w : RemoteWorld) (id deviceId nonce : String) (record : CommandRecord) :
    RemoteWorld :=
  { w with
    commands := w.commands ++ [⟨id, deviceId, record⟩]
    nonces := w.nonces ++ [⟨nonce, id, deviceId⟩] }

/-- `UPDATE remote_commands SET record = ? WHERE command_id = ?` -/
def updateCommand (w : RemoteWorld) (id : String) (record : CommandRecord) : RemoteWorld :=
  { w with
    commands := w.commands.map fun r => if r.command_id = id then { r with record := record } else r }

/-- Upsert of a device. -/
def saveDevice (w : RemoteWorld) (device : RemoteDevice) : RemoteWorld :=
  { w with devices := Table.upsert RemoteDevice.id device w.devices }

/-- Another device is stored under the route: `route_id` is unique, and the upsert looks at `id` only. -/
def routeTaken (w : RemoteWorld) (device : RemoteDevice) : Bool :=
  w.devices.any fun d => d.routeId == device.routeId && d.id != device.id

/-- Upsert of an intent. -/
def saveIntent (w : RemoteWorld) (intent : RemoteIntent) : RemoteWorld :=
  { w with intents := Table.upsert (fun i : RemoteIntent => i.id) intent w.intents }

/-- The stored token of an intent. -/
def token (w : RemoteWorld) (intentId : String) : Option ℕ :=
  (Table.get Prod.fst intentId w.tokens).map Prod.snd

/-- One more answer was drawn from outside. -/
def drawn (w : RemoteWorld) : RemoteWorld := { w with answers := w.answers + 1 }

end RemoteWorld

/-- What an operation on the vault answers. -/
def vaultAnswer {α : Type} (env : RemoteEnv) (w : RemoteWorld) (a : α) : Except RemoteFailure α :=
  (env.vault w.answers).map fun _ => a

/-- The world, where the vault could be written. -/
def vaultWritten (env : RemoteEnv) (w w' : RemoteWorld) : RemoteWorld :=
  match env.vault w.answers with
  | .ok _ => w'
  | .error _ => w

/-- The error of a statement that would store two devices under one route. -/
def routeConflict : RemoteFailure := .thrown "UNIQUE constraint failed: remote_devices.route_id"

/-- What an operation answers, and the world it leaves. -/
def remoteHandle (env : RemoteEnv) : Async.Handler RemoteOp RemoteRes RemoteWorld
  | .agent o, w =>
      let (x, agent) := handle env.agent o w.agent
      (x, { w with agent := agent })
  | .auditWrite, w => (env.auditWrite w.answers, w.drawn)
  | .getDevice id, w => (w.device id, w)
  | .getDeviceByRoute routeId, w => (w.deviceByRoute routeId, w)
  | .saveDevice device, w =>
      if w.routeTaken device then (.error routeConflict, w) else (.ok (), w.saveDevice device)
  | .getCommand id, w => (w.command id, w)
  | .rememberCommand id deviceId nonce record, w =>
      if w.taken id nonce || env.batchFails w.answers then (false, w.drawn)
      else (true, (w.insertCommand id deviceId nonce record).drawn)
  | .saveCommandResult id record, w => ((), w.updateCommand id record)
  | .getIntent id, w => (w.intent id, w)
  | .listIntents, w => (w.intentsNewestFirst, w)
  | .saveIntent intent, w => ((), w.saveIntent intent)
  | .nodeIdentity, w => (env.nodeIdentity w.answers, w.drawn)
  | .verifyDeviceSignature payload signature key, w =>
      (env.verifyDeviceSignature payload signature key, w)
  | .deliver _ _ _, w => (env.deliver w.answers, w.drawn)
  | .setDeviceRouteState _ _, w => ((), w)
  | .recordTime _ _, w => (env.recordTime w.answers, w.drawn)
  | .setEmergencyStop, w => ((), { w with agent := { w.agent with emergencyStop := true } })
  | .intentWorkspace, w => (env.intentWorkspace w.answers, w.drawn)
  | .availability _ _, w => (env.availability w.answers, w.drawn)
  | .beginCheck, w => (!w.checking, { w with checking := true })
  | .endCheck, w => ((), { w with checking := false })
  | .getToken intentId, w => (vaultAnswer env w (w.token intentId), w.drawn)
  | .setToken intentId token, w =>
      (vaultAnswer env w (), (vaultWritten env w
        { w with tokens := Table.upsert Prod.fst (intentId, token) w.tokens }).drawn)
  | .removeToken intentId, w =>
      (vaultAnswer env w (), (vaultWritten env w
        { w with tokens := w.tokens.filter fun t => t.1 ≠ intentId }).drawn)
  | .execute _ _, w => ((), w)
  | .executed _, w => ((), w)
  | .executePlan _ _ _, w => ((), w)

/-- Nothing is paired, sent or planned. -/
def RemoteWorld.empty : RemoteWorld where
  agent := World.empty
  devices := []
  commands := []
  nonces := []
  intents := []
  tokens := []
  checking := false
  answers := 0

/-- An environment to evaluate runs in: nothing fails, every signature is valid, every record was written
at time zero. -/
def RemoteEnv.sample : RemoteEnv where
  agent := Env.sample
  auditWrite := fun _ => .ok ()
  nodeIdentity := fun _ => .ok "node_0123456789abcdef"
  verifyDeviceSignature := fun _ _ _ => .ok true
  deliver := fun _ => .ok ()
  batchFails := fun _ => false
  recordTime := fun _ => 0
  intentWorkspace := fun _ => .ok "/home/me/.config/vops/remote-intent-workspace"
  availability := fun _ => .ok []
  vault := fun _ => .ok ()

/-! ## Programs of the agent control plane -/

/-- A program of the agent control plane, executed alone, acts on the world of the agent control plane. -/
theorem run_lift {α : Type} (env : RemoteEnv) (p : Prog α) (w : RemoteWorld) :
    Async.run (remoteHandle env) (lift p) w =
      ((Async.run (handle env.agent) p w.agent).1.mapError .agent,
        { w with agent := (Async.run (handle env.agent) p w.agent).2 }) := by
  induction p generalizing w with
  | done r => cases r <;> rfl
  | await o k ih => exact ih _ _

/-- It ends in a value where the program itself does. -/
theorem run_lift_eq_ok {α : Type} {env : RemoteEnv} {p : Prog α} {w w' : RemoteWorld} {a : α} :
    Async.run (remoteHandle env) (lift p) w = (.ok a, w') ↔
      ∃ agent, Async.run (handle env.agent) p w.agent = (.ok a, agent) ∧
        w' = { w with agent := agent } := by
  rw [run_lift]
  cases hr : Async.run (handle env.agent) p w.agent with
  | mk r agent =>
      cases r with
      | ok b =>
          constructor
          · rintro ⟨⟩
            exact ⟨agent, rfl, rfl⟩
          · rintro ⟨_, ⟨⟩, rfl⟩
            rfl
      | error e =>
          constructor
          · rintro ⟨⟩
          · rintro ⟨_, ⟨⟩, -⟩

/-- Its operations are operations of the agent control plane. -/
theorem allOps_lift {α : Type} {P : RemoteOp → Prop} (hP : ∀ o, P (.agent o)) (p : Prog α) :
    (lift p).AllOps P := by
  induction p with
  | done r => cases r <;> trivial
  | await o k ih => exact ⟨hP o, ih⟩

end Vops
