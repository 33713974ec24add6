import Vops.Remote.DeviceRegistry

/-!
# Signed commands (`remote/remote-command.handler.ts`)

* `handle` — a signed command: verified (`verify`), reserved under its id and nonce, executed, its outcome
  stored and sent. `rejectCommand` is the `catch`.
* `execute` — what the command asks for; `decideApproval` — a decision about a plan.
* `validateSignedCommandShape`, `validateCommandTime`, `authorizeRole`, `requireDeviceScope` — the checks.
-/

namespace Vops.RemoteCommandHandler

open AgentSessionManager (DateText)

/-! ## Errors -/

/-- `remoteCommandCode` -/
def remoteCommandCode (failure : RemoteFailure) : String :=
  failure.code.getD "VOPS_REMOTE_COMMAND_REJECTED"

/-- `safeCommandError` -/
def safeCommandError (failure : RemoteFailure) : String :=
  if mentions ["token", "credential", "secret", "private key"] failure.message then
    "Remote command was rejected by the local control plane."
  else sliceText 500 failure.message

/-- `safeCommandId` -/
def safeCommandId (id : String) : Option String := if isToken "cmd_" 16 128 id then some id else none

/-! ## Checks -/

/-- The largest safe integer. -/
def maxSafeInteger : ℚ := 9007199254740991

/-- `Number.isSafeInteger(n) && n >= 0` -/
def isVersion : JsNum → Bool
  | .fin q => decide (q.den = 1 ∧ 0 ≤ q ∧ q ≤ maxSafeInteger)
  | _ => false

/-- `/^[a-f0-9]{64}$/` -/
def isHash (text : String) : Bool :=
  text.toList.length == 64 && text.toList.all fun c => c.isDigit || ('a' ≤ c && c ≤ 'f')

/-- The refusal of a malformed command. -/
def invalid {α : Type} (message : String) : Except RemoteFailure α :=
  .error (.command "VOPS_REMOTE_COMMAND_INVALID" message)

/-- `validateSignedCommandShape`: the command that has passed. -/
def validateSignedCommandShape :
    Option SignedRemoteCommandV1 → Except RemoteFailure SignedRemoteCommandV1
  | none => invalid "Signed command is malformed."
  | some signed =>
      let payload := signed.payload
      if payload.protocol_version ≠ 1 ∨ (payload.type matches .unknown _) then
        invalid "Signed command protocol or type is unsupported."
      else if !isToken "cmd_" 16 128 payload.command_id then invalid "Command ID is invalid."
      else if !isToken "device_" 16 128 payload.device_id then invalid "Device ID is invalid."
      else if !isToken "node_" 16 128 payload.node_id then invalid "Control-node ID is invalid."
      else if !isToken "key_" 8 96 signed.key_id || !isToken "" 80 128 signed.signature then
        invalid "Command signature encoding is invalid."
      else if !isToken "" 16 128 payload.nonce then invalid "Command nonce is invalid."
      else if payload.subject.id = "" ∨ 160 < payload.subject.id.toList.length ∨
          !isVersion payload.subject.version then
        invalid "Command subject is invalid."
      else if 32 < payload.parameters.size then invalid "Command has too many parameters."
      else if payload.plan_hash.any fun hash => hash != "" && !isHash hash then
        invalid "Plan hash is invalid."
      else .ok signed

/-- `validateCommandTime`, at one reading of the clock. -/
def validateCommandTime (payload : SignedRemoteCommandPayload) (now : ℤ) :
    Except RemoteFailure Unit :=
  match payload.issued_at, payload.expires_at with
  | .at issued, .at expires =>
      if expires ≤ issued then invalid "Command timestamps are invalid."
      else if now + 30000 < issued ∨ expires < now - 30000 then
        .error (.command "VOPS_REMOTE_COMMAND_EXPIRED"
          "Command is expired or materially from the future.")
      else if 5 * 60000 < expires - issued then
        .error (.command "VOPS_REMOTE_COMMAND_EXPIRED" "Command lifetime exceeds five minutes.")
      else .ok ()
  | _, _ => invalid "Command timestamps are invalid."

/-- `adminOnly` -/
def adminOnly : List CommandType := [.agentsStopAll, .intentCreate, .intentPause, .intentRevoke]

/-- `authorizeRole` -/
def authorizeRole (device : RemoteDevice) (payload : SignedRemoteCommandPayload) :
    Except RemoteFailure Unit :=
  if device.role = .viewer then
    .error (.command "VOPS_REMOTE_ROLE_DENIED" "Viewer devices cannot send commands.")
  else if payload.type ∈ adminOnly ∧ device.role ≠ .admin then
    .error (.command "VOPS_REMOTE_ROLE_DENIED" "This command requires an admin device.")
  else .ok ()

/-- `requireSubject` -/
def requireSubject (payload : SignedRemoteCommandPayload) (kind : SubjectKind) : RemoteProg Unit :=
  if payload.subject.kind ≠ kind then
    throwCommand "VOPS_REMOTE_COMMAND_INVALID" s!"Command subject must be {kind.text}."
  else pure ()

/-- `requireVersion`: `NaN` is no version. -/
def requireVersion (payload : SignedRemoteCommandPayload) (version : JsNum) : RemoteProg Unit :=
  if payload.subject.version ≠ version ∨ version = .nan then
    throwCommand "VOPS_REMOTE_COMMAND_STALE" "Command subject changed after it was displayed."
  else pure ()

/-- `riskRank` -/
abbrev riskRank := ApprovalManager.riskRank

/-- `requireDeviceScope` -/
def requireDeviceScope (device : RemoteDevice) (target : Option String)
    (environment : AgentEnvironment) (risk : CapabilityRisk) : Except RemoteFailure Unit :=
  if target.any fun t => t != "" && !device.restrictions.targets.isEmpty &&
      !device.restrictions.targets.contains t then
    let name := target.getD ""
    .error (.command "VOPS_REMOTE_SCOPE_DENIED" s!"Target '{name}' is outside the device grant.")
  else if environment ∉ device.restrictions.environments then
    .error (.command "VOPS_REMOTE_SCOPE_DENIED"
      s!"Environment '{environment.text}' is outside the device grant.")
  else if riskRank device.restrictions.maxRisk < riskRank risk then
    .error (.command "VOPS_REMOTE_SCOPE_DENIED" s!"Risk '{risk.text}' exceeds the device grant.")
  else .ok ()

/-- `requireProjectScope` -/
def requireProjectScope (device : RemoteDevice) (project : String) : RemoteProg Unit :=
  if device.restrictions.projects ≠ [] ∧ project ∉ device.restrictions.projects then
    throwCommand "VOPS_REMOTE_SCOPE_DENIED" s!"Project '{project}' is outside the device grant."
  else pure ()

/-- `commandReason` -/
def commandReason (payload : SignedRemoteCommandPayload) : String :=
  match payload.parameters.reason with
  | some (.str reason) => sliceText 500 (jsTrim reason)
  | _ => ""

/-! ## `verify` -/

/-- `verify` -/
def verify (envelopeDevice : RemoteDevice) (signed : SignedRemoteCommandV1) :
    RemoteProg RemoteDevice := do
  let payload := signed.payload
  let device ← DeviceRegistry.getActiveByRoute envelopeDevice.routeId
  let nodeId ← orFail (← wait .nodeIdentity)
  if device.id ≠ payload.device_id ∨ payload.node_id ≠ nodeId then
    throwCommand "VOPS_REMOTE_COMMAND_BINDING" "Command identity binding failed."
  else if signed.key_id ≠ device.keyId then
    throwCommand "VOPS_REMOTE_COMMAND_KEY" "Command signing key is not current."
  else do
    let signature ← orFail
      (← wait (.verifyDeviceSignature payload signed.signature device.signingPublicKey))
    if !signature then
      throwCommand "VOPS_REMOTE_COMMAND_SIGNATURE" "Command signature is invalid."
    else do
      let now ← clock
      orFail (validateCommandTime payload now)
      orFail (authorizeRole device payload)
      return device

/-! ## `execute` -/

/-- `requirePlanScope` -/
def requirePlanScope (device : RemoteDevice) (planId : ℕ) : RemoteProg Unit := do
  let plan ← lift (PlanEngine.get planId)
  orFail (requireDeviceScope device plan.target plan.environment
    (ApprovalManager.highestRisk plan.steps))

/-- `this.operations.get(payload.subject.id)` -/
def getOperation (id : String) : RemoteProg AgentOperation :=
  match recordId "op" id with
  | some id => lift (OperationManager.get id)
  | none => throw (.agent (.control
      { code := .notFound, message := s!"Operation '{id}' was not found." }))

/-- `this.sessions.show(payload.subject.id)` -/
def getSession (id : String) : RemoteProg AgentSession :=
  match recordId "ses" id with
  | some id => lift (AgentSessionManager.showSession id)
  | none => throw (.agent (.control
      { code := .notFound, message := s!"Agent session '{id}' was not found." }))

/-- `this.audit.getApproval(payload.subject.id)` -/
def getApproval (id : String) : RemoteProg (Option AgentApproval) :=
  match recordId "apr" id with
  | some id => wait (.agent (.getApproval id))
  | none => pure none

/-- `Date.parse(payload.expires_at) > Date.parse(approval.expiresAt)` -/
def outlives (payload : SignedRemoteCommandPayload) (approval : AgentApproval) : Bool :=
  match payload.expires_at with
  | .at expires => decide (approval.expiresAt < expires)
  | _ => false

/-- The plan that an approval decision is about: everything `decideApproval` requires before it looks at
the decision. -/
def planToDecide (device : RemoteDevice) (payload : SignedRemoteCommandPayload)
    (approval : AgentApproval) : RemoteProg AgentPlan := do
  let requestedAt ← wait (.recordTime "approval" approval.id)
  requireVersion payload requestedAt
  if approval.status ≠ .pending then
    throwCommand "VOPS_REMOTE_COMMAND_STALE" s!"Approval is already {approval.status.text}."
  else do
    let now ← clock
    if approval.expiresAt ≤ now then
      throwCommand "VOPS_REMOTE_COMMAND_EXPIRED" "Approval expired."
    else if outlives payload approval then
      throwCommand "VOPS_REMOTE_COMMAND_EXPIRED" "Command outlives the authoritative approval."
    else
      match approval.planId, payload.plan_hash.filter (· ≠ "") with
      | some planId, some planHash => do
          let plan ← lift (PlanEngine.get planId)
          if plan.hash ≠ planHash then
            throwCommand "VOPS_REMOTE_PLAN_HASH" "Plan changed after it was displayed."
          else do
            let validation ← lift (PlanEngine.validate plan)
            if !validation.valid ∨ plan.status ≠ .awaiting_approval then
              throwCommand "VOPS_REMOTE_COMMAND_STALE" "Plan is no longer approval-eligible."
            else do
              orFail (requireDeviceScope device plan.target plan.environment approval.risk)
              if "plan" ∉ device.restrictions.approvalKinds then
                throwCommand "VOPS_REMOTE_SCOPE_DENIED" "This device cannot approve plans."
              else return plan
      | _, _ =>
          throwCommand "VOPS_REMOTE_PLAN_HASH" "Approval decision requires an exact plan hash."

/-- `reason || text` -/
def reasonOr (payload : SignedRemoteCommandPayload) (text : String) : String :=
  if commandReason payload = "" then text else commandReason payload

/-- `String(payload.parameters.decision ?? '')` -/
def decisionText : Option Json → String
  | none => ""
  | some .null => ""
  | some v => v.toText

/-- `decideApproval` -/
def decideApproval (device : RemoteDevice) (payload : SignedRemoteCommandPayload) :
    RemoteProg CommandResult := do
  requireSubject payload .approval
  match ← getApproval payload.subject.id with
  | none => throwCommand "VOPS_REMOTE_APPROVAL_NOT_FOUND" "Approval was not found."
  | some approval => do
      let _ ← planToDecide device payload approval
      let decision := decisionText payload.parameters.decision
      if decision = "approve" then do
        let decided ← lift (ApprovalManager.approve approval.id
          (reasonOr payload s!"Approved by remote device {device.label}.")
          s!"remote_device:{device.id}")
        return .approval decided
      else if decision = "deny" then do
        let decided ← lift (ApprovalManager.deny approval.id
          (reasonOr payload s!"Denied by remote device {device.label}.")
          s!"remote_device:{device.id}")
        return .approval decided
      else
        throwCommand "VOPS_REMOTE_COMMAND_INVALID" "Approval decision must be approve or deny."

/-- `operation.cancel_request` -/
def cancelOperation (device : RemoteDevice) (payload : SignedRemoteCommandPayload) :
    RemoteProg CommandResult := do
  requireSubject payload .operation
  let operation ← getOperation payload.subject.id
  let updatedAt ← wait (.recordTime "operation" operation.id)
  requireVersion payload updatedAt
  requirePlanScope device operation.planId
  let cancelled ← lift (OperationManager.requestCancel operation.id)
  return .operation cancelled

/-- `operation.rollback_request` -/
def rollbackOperation (device : RemoteDevice) (payload : SignedRemoteCommandPayload) :
    RemoteProg CommandResult := do
  requireSubject payload .operation
  let operation ← getOperation payload.subject.id
  let updatedAt ← wait (.recordTime "operation" operation.id)
  requireVersion payload updatedAt
  requirePlanScope device operation.planId
  if !operation.rollbackAvailable then
    throwCommand "VOPS_REMOTE_ROLLBACK_UNAVAILABLE" "This operation has no rollback contract."
  else if operation.state ≠ .succeeded ∧ operation.state ≠ .failed then
    throwCommand "VOPS_REMOTE_COMMAND_STALE"
      s!"Operation is {operation.state.text}, not rollback-eligible."
  else do
    let requested ← lift (OperationManager.transition operation.id .rollback_requested {})
    return .operation requested

/-- The `agent.` commands. -/
def controlAgent (device : RemoteDevice) (payload : SignedRemoteCommandPayload) :
    RemoteProg CommandResult := do
  requireSubject payload .agent_session
  let session ← getSession payload.subject.id
  let updatedAt ← wait (.recordTime "agent_session" session.id)
  requireVersion payload updatedAt
  requireProjectScope device session.repository.name
  let changed ← lift
    (if payload.type = .agentPause then AgentSessionManager.pause session.id
    else if payload.type = .agentResume then AgentSessionManager.resume session.id
    else AgentSessionManager.revoke session.id)
  return .session changed

/-- `AgentSafetyState.activate` -/
def activateStop (actor reason : String) : RemoteProg Unit := do
  if ← wait (.agent .emergencyStop) then return ()
  else do
    wait .setEmergencyStop
    let eventId ← wait (.agent .localId)
    let timestamp ← clock
    appendAudit
      { eventId := eventId
        timestamp := timestamp
        sessionId := none
        actor := actor
        operationId := none
        eventType := "agent.emergency_stop.activated"
        capability := none
        target := none
        summary := "Agent emergency stop activated."
        detail := some (.obj [("active", .bool true), ("activatedBy", .str actor),
          ("reason", .str reason)]) }

/-- `agents.stop_all_request` -/
def stopAll (device : RemoteDevice) (payload : SignedRemoteCommandPayload) :
    RemoteProg CommandResult := do
  requireSubject payload .control_node
  activateStop s!"remote_device:{device.id}" (commandReason payload)
  let sessions ← lift AgentSessionManager.stopAll
  return .stopped (sessions.map AgentSession.id)

/-- `intent.create_request` -/
def createIntent (device : RemoteDevice) (payload : SignedRemoteCommandPayload) :
    RemoteProg CommandResult := do
  requireSubject payload .intent
  requireVersion payload 0
  match payload.parameters.intent with
  | none =>
      throwCommand "VOPS_REMOTE_COMMAND_INVALID"
        "Signed intent subject does not match its proposal."
  | some proposal =>
      if proposal.id ≠ payload.subject.id then
        throwCommand "VOPS_REMOTE_COMMAND_INVALID"
          "Signed intent subject does not match its proposal."
      else do
        let intent ← IntentService.create device proposal
        return .intent intent

/-- `intent.pause_request` and `intent.revoke_request` -/
def stopIntent (device : RemoteDevice) (payload : SignedRemoteCommandPayload) :
    RemoteProg CommandResult := do
  requireSubject payload .intent
  match ← wait (.getIntent payload.subject.id) with
  | none => throwCommand "VOPS_REMOTE_SCOPE_DENIED" "Intent is unavailable to this device."
  | some intent =>
      if intent.deviceId ≠ device.id then
        throwCommand "VOPS_REMOTE_SCOPE_DENIED" "Intent is unavailable to this device."
      else do
        requireVersion payload (.fin intent.version)
        let stopped ←
          if payload.type = .intentPause then IntentService.pause intent.id device.id
          else IntentService.revoke intent.id device.id
        return .intent stopped

/-- `execute` -/
def execute (device : RemoteDevice) (payload : SignedRemoteCommandPayload) :
    RemoteProg CommandResult :=
  match payload.type with
  | .approvalDecision => decideApproval device payload
  | .operationCancel => cancelOperation device payload
  | .operationRollback => rollbackOperation device payload
  | .agentPause | .agentResume | .agentRevoke => controlAgent device payload
  | .agentsStopAll => stopAll device payload
  | .intentCreate => createIntent device payload
  | .intentPause | .intentRevoke => stopIntent device payload
  | type =>
      throwCommand "VOPS_REMOTE_COMMAND_UNSUPPORTED" s!"Command '{type.text}' is not enabled yet."

/-! ## `handle` -/

/-- `send` -/
def send (device : RemoteDevice) (record : CommandRecord) : RemoteProg Unit :=
  sendMessage device .remote_command (.command record)

/-- `detail` of a command's event. -/
def eventDetail (payload : Option SignedRemoteCommandPayload) : Json :=
  .obj (((payload.bind fun p => safeCommandId p.command_id).map fun id =>
      ("commandId", Json.str id)).toList ++
    (payload.map fun p => ("commandType", Json.str p.type.text)).toList ++
    (payload.map fun p => ("subject", Json.obj [("kind", .str p.subject.kind.text),
      ("id", .str p.subject.id), ("version", .num p.subject.version)])).toList)

/-- `event` -/
def event (device : RemoteDevice) (payload : Option SignedRemoteCommandPayload)
    (eventType summary : String) : RemoteProg Unit := do
  let eventId ← wait (.agent .localId)
  let timestamp ← clock
  appendAudit
    { eventId := eventId
      timestamp := timestamp
      sessionId := none
      actor := s!"remote_device:{device.id}"
      operationId := none
      eventType := eventType
      capability := none
      target := none
      summary := summary
      detail := some (eventDetail payload) }

/-- The record of a command that was received. -/
def receivedRecord (requestId commandId : String) (now : ℤ) : CommandRecord where
  request_id := requestId
  command_id := some commandId
  state := .received
  time := now

/-- The record of a command that was executed. -/
def completedRecord (requestId commandId : String) (result : CommandResult) (now : ℤ) :
    CommandRecord where
  request_id := requestId
  command_id := some commandId
  state := .executed
  result := some result
  time := now

/-- The record of a command that was rejected. -/
def rejectedRecord (requestId : String) (commandId : Option String) (failure : RemoteFailure)
    (now : ℤ) : CommandRecord where
  request_id := requestId
  command_id := commandId
  state := .rejected
  error := some ⟨remoteCommandCode failure, safeCommandError failure⟩
  time := now

/-- A stored record is sent again. -/
def resend (device : RemoteDevice) (requestId : String) (record : CommandRecord) : RemoteProg Unit :=
  send device { record with request_id := requestId, duplicate := true }

/-- A command that was reserved: it is acknowledged, executed, and its result stored and sent. -/
def runCommand (device : RemoteDevice) (requestId : String) (payload : SignedRemoteCommandPayload) :
    RemoteProg Unit := do
  let now ← clock
  send device (receivedRecord requestId payload.command_id now)
  event device (some payload) "remote.command.received" "Accepted a signed remote command."
  wait (.execute device payload)
  let result ← execute device payload
  wait (.executed payload.command_id)
  let now ← clock
  let completed := completedRecord requestId payload.command_id result now
  wait (.saveCommandResult payload.command_id completed)
  send device completed
  event device (some payload) "remote.command.completed" "Completed a signed remote command."

/-- A verified command: known already, or reserved and run. -/
def reserveCommand (device : RemoteDevice) (requestId : String)
    (payload : SignedRemoteCommandPayload) : RemoteProg Unit := do
  match ← wait (.getCommand payload.command_id) with
  | some previous => resend device requestId previous
  | none => do
      let now ← clock
      let reserved ← wait (.rememberCommand payload.command_id device.id payload.nonce
        (receivedRecord requestId payload.command_id now))
      if reserved then runCommand device requestId payload
      else
        match ← wait (.getCommand payload.command_id) with
        | some duplicate => resend device requestId duplicate
        | none =>
            throwCommand "VOPS_REMOTE_COMMAND_REPLAYED" "Command ID or nonce was already used."

/-- The `try` of `handle`. -/
def acceptCommand (envelopeDevice : RemoteDevice) (request : RemoteCommandRequest) :
    RemoteProg Unit := do
  let signed ← orFail (validateSignedCommandShape request.signed_command)
  let device ← verify envelopeDevice signed
  reserveCommand device request.request_id signed.payload

/-- The `command_id` of a request, where it has the form of one. -/
def commandIdOf (request : RemoteCommandRequest) : Option String :=
  request.signed_command.bind fun signed => safeCommandId signed.payload.command_id

/-- The rejection is stored where the command is known. -/
def storeRejection (commandId : Option String) (rejected : CommandRecord) : RemoteProg Unit := do
  match commandId with
  | none => return ()
  | some id => do
      match ← wait (.getCommand id) with
      | none => return ()
      | some _ => wait (.saveCommandResult id rejected)

/-- The `catch` of `handle`. -/
def rejectCommand (envelopeDevice : RemoteDevice) (request : RemoteCommandRequest)
    (failure : RemoteFailure) : RemoteProg Unit := do
  let now ← clock
  let rejected := rejectedRecord request.request_id (commandIdOf request) failure now
  storeRejection (commandIdOf request) rejected
  tryCatch (send envelopeDevice rejected) fun _ => pure ()
  event envelopeDevice (request.signed_command.map fun signed => signed.payload)
    "remote.command.rejected" "Rejected a signed remote command."

/-- `handle` -/
def handle (envelopeDevice : RemoteDevice) (request : RemoteCommandRequest) : RemoteProg Unit :=
  tryCatch (acceptCommand envelopeDevice request) (rejectCommand envelopeDevice request)

end Vops.RemoteCommandHandler
