import Vops.AgentControl.ActionBroker
import Vops.Remote.RemoteWorld

/-!
# Conditional intents (`remote/intent.service.ts`)

* `create` — a signed intent gets a session and an approved plan of its own.
* `pause`, `revoke`, `disableForDevice` — an intent is stopped.
* `tick`, `evaluate`, `execute` — the watcher: what it finds available triggers the intent.
* `update` — every change is written over a copy of the whole record, with the next version.
-/

namespace Vops.IntentService

open AgentSessionManager (DateText)

/-! ## Texts -/

/-- `publicIntent` -/
def publicIntent (i : RemoteIntent) : Json :=
  let dateJson (d : DateText) : Json :=
    match d with
    | .at ms => .num (.fin ms)
    | _ => .null
  let optional (key : String) (v : Option Json) : List (String × Json) :=
    (v.map fun v => (key, v)).toList
  .obj ([("id", .str i.id), ("device_id", .str i.deviceId), ("version", .num (.fin i.version)),
      ("objective", .str i.objective), ("status", .str i.status.text),
      ("trigger", .obj ([("type", .str i.trigger.type), ("provider", .str i.trigger.provider),
        ("serverType", .str i.trigger.serverType)] ++
        optional "location" (i.trigger.location.map .str))),
      ("action", .obj ([("capability", .str i.action.capability), ("input", i.action.input),
        ("environment", .str i.action.environment.text)] ++
        optional "target" (i.action.target.map .str))),
      ("constraints", .obj [("expiresAt", dateJson i.constraints.expiresAt),
        ("maxExecutions", .num i.constraints.maxExecutions),
        ("maxSpendEur", .num i.constraints.maxSpendEur),
        ("failureBehavior", .str i.constraints.failureBehavior)]),
      ("plan_id", .str (idText "plan" i.planId)), ("plan_hash", .str i.planHash),
      ("execution_count", .num (.fin i.executionCount)),
      ("created_at", .num (.fin i.createdAt)), ("updated_at", .num (.fin i.updatedAt))] ++
    optional "last_checked_at" (i.lastCheckedAt.map fun t => .num (.fin t)) ++
    optional "matched_at" (i.matchedAt.map fun t => .num (.fin t)) ++
    optional "operation_id" (i.operationId.map fun id => .str (idText "op" id)) ++
    optional "last_error" (i.lastError.map .str))

/-- `safeError` -/
def safeError (failure : RemoteFailure) : String :=
  if mentions ["token", "credential", "secret", "key"] failure.message then
    "Intent failed inside the local control plane."
  else sliceText 500 failure.message

/-- `bounded` -/
def bounded (max : ℕ) (text : String) : Bool :=
  decide (0 < text.toList.length ∧ text.toList.length ≤ max)

/-- `riskRank` -/
abbrev riskRank := ApprovalManager.riskRank

/-! ## Events and messages -/

/-- `event` -/
def event (intent : RemoteIntent) (eventType summary : String) : RemoteProg Unit := do
  let eventId ← wait (.agent .localId)
  let timestamp ← clock
  appendAudit
    { eventId := eventId
      timestamp := timestamp
      sessionId := some intent.agentSessionId
      actor := "intent_watcher"
      operationId := none
      eventType := eventType
      capability := none
      target := none
      summary := summary
      detail := some (publicIntent intent) }

/-- `notify`: the message is best effort. -/
def notify (intent : RemoteIntent) : RemoteProg Unit := do
  match ← wait (.getDevice intent.deviceId) with
  | some device =>
      if device.status = .active then
        tryCatch (sendMessage device .notification (.intentUpdated intent)) fun _ => pure ()
      else return ()
  | none => return ()

/-- `deactivate`: the session is revoked where that succeeds, and the token removed. -/
def deactivate (intent : RemoteIntent) : RemoteProg Unit := do
  tryCatch (do
    let _ ← lift (AgentSessionManager.revoke intent.agentSessionId)
    return ()) fun _ => pure ()
  orFail (← wait (.removeToken intent.id))

/-! ## `create` -/

/-- A value that is an object and no array. -/
def isObject : Json → Bool
  | .obj _ => true
  | _ => false

/-- `Number.isFinite(n) && n >= 0` -/
def isSpend : JsNum → Bool
  | .fin q => decide (0 ≤ q)
  | _ => false

/-- `validateProposal` -/
def validateProposal (proposal : RemoteIntentProposal) : RemoteProg Unit := do
  if !isToken "intent_" 16 128 proposal.id then throwRemote "Intent ID is invalid."
  else if jsTrim proposal.objective = "" ∨ 500 < proposal.objective.toList.length then
    throwRemote "Intent objective is invalid."
  else if proposal.trigger.type ≠ "catalog.availability" ∨
      !bounded 80 proposal.trigger.provider ∨ !bounded 120 proposal.trigger.serverType ∨
      proposal.trigger.location.any fun location => !bounded 120 location then
    throwRemote "Intent availability trigger is invalid."
  else if !bounded 120 proposal.action.capability ∨
      !isObject proposal.action.input then
    throwRemote "Intent action is invalid."
  else
    match proposal.constraints.expiresAt with
    | .at expires => do
        let now ← clock
        if expires ≤ now then throwRemote "Intent constraints are invalid."
        else do
          let now ← clock
          if 30 * 24 * 60 * 60000 < expires - now ∨ proposal.constraints.maxExecutions ≠ 1 ∨
              !isSpend proposal.constraints.maxSpendEur ∨
              proposal.constraints.failureBehavior ≠ "stop" then
            throwRemote "Intent constraints are invalid."
          else return ()
    | _ => throwRemote "Intent constraints are invalid."

/-- What `create` requires of the capability and of the device's grant. -/
def requireGrant (device : RemoteDevice) (proposal : RemoteIntentProposal) : RemoteProg Unit := do
  match CapabilityRegistry.describe proposal.action.capability with
  | .error e => throw (.agent e)
  | .ok capability =>
      -- `supportsPlan` is true of exactly the capabilities that do not only read.
      if !capability.enabled ∨ capability.access = .read then
        throwRemote "Intent action must be an enabled planned mutation."
      else if capability.risk = .destructive ∨
          riskRank device.restrictions.maxRisk < riskRank capability.risk then
        throwRemote "Intent action risk exceeds the device grant."
      else if proposal.action.environment ∉ device.restrictions.environments then
        throwRemote "Intent environment is outside the device grant."
      else if proposal.action.target.any fun target =>
          target != "" && !device.restrictions.targets.isEmpty &&
            !device.restrictions.targets.contains target then
        throwRemote "Intent target is outside the device grant."
      else if (JsNum.fin device.restrictions.maxProviderSpendEur).lt
          proposal.constraints.maxSpendEur then
        throwRemote "Intent spending cap exceeds the device grant."
      else return ()

/-- The session of an intent. -/
def sessionInput (device : RemoteDevice) (proposal : RemoteIntentProposal) (workspace : String) :
    AgentSessionManager.CreateAgentSessionInput where
  client := .other
  displayName := some s!"Conditional intent {proposal.id}"
  objective := proposal.objective
  repository := workspace
  mode := some .advisory
  targets := match proposal.action.target.filter (· ≠ "") with
    | some target => some [target]
    | none => some device.restrictions.targets
  environments := some [proposal.action.environment]
  permissions :=
    { allow := some []
      allowWithinApprovedPlan := some [proposal.action.capability]
      requireApproval := some []
      deny := some ((capabilities.map CapabilityDefinition.id).filter
        (· ≠ proposal.action.capability)) }
  expiresInMinutes := some (.fin (12 * 60))
  maxOperations := some 1
  maxProviderSpendEur := some proposal.constraints.maxSpendEur

/-- The plan of an intent. -/
def planInput (proposal : RemoteIntentProposal) : PlanEngine.CreatePlanInput where
  objective := proposal.objective
  environment := some proposal.action.environment
  target := proposal.action.target
  steps := [⟨proposal.action.capability, some proposal.action.input⟩]
  successCriteria := some ["The deterministic trigger matched within the approved intent window."]
  excludedEffects := some ["No action outside the signed intent constraints is authorized."]

/-- The record of a new intent. -/
def newIntent (device : RemoteDevice) (proposal : RemoteIntentProposal) (sessionId : ℕ)
    (plan : AgentPlan) (approvalId : ℕ) (now : ℤ) : RemoteIntent where
  toRemoteIntentProposal := proposal
  deviceId := device.id
  version := 1
  status := .active
  agentSessionId := sessionId
  planId := plan.id
  planHash := plan.hash
  approvalId := approvalId
  executionCount := 0
  createdAt := now
  updatedAt := now
  lastCheckedAt := none
  matchedAt := none
  operationId := none
  lastError := none

/-- `create` -/
def create (device : RemoteDevice) (proposal : RemoteIntentProposal) : RemoteProg RemoteIntent := do
  validateProposal proposal
  match ← wait (.getIntent proposal.id) with
  | some _ => throwRemote "Intent ID already exists."
  | none => do
      requireGrant device proposal
      let workspace ← orFail (← wait .intentWorkspace)
      let (session, token) ←
        lift (AgentSessionManager.create (sessionInput device proposal workspace))
      let _ ← lift (AgentSessionManager.extendForConditionalIntent session.id
        proposal.constraints.expiresAt)
      let (plan, approval) ← lift (ActionBroker.createPlan (some token) (planInput proposal))
      match approval with
      | none =>
          throwRemote "Conditional intent action must produce an explicit plan approval."
      | some approval => do
          let _ ← lift (ApprovalManager.approve approval.id
            s!"Pre-authorized by signed admin intent {proposal.id}." s!"remote_device:{device.id}")
          let now ← clock
          let intent := newIntent device proposal session.id plan approval.id now
          wait (.saveIntent intent)
          orFail (← wait (.setToken intent.id token))
          event intent "remote.intent.activated" "Activated a signed conditional intent."
          return intent

/-! ## Changes of an intent -/

/-- `Partial<RemoteIntent>`: the fields that are set. -/
structure IntentPatch where
  status : Option IntentStatus := none
  executionCount : Option ℕ := none
  lastCheckedAt : Option ℤ := none
  matchedAt : Option ℤ := none
  operationId : Option ℕ := none
  lastError : Option String := none

/-- `{ ...intent, ...patch, version: intent.version + 1, updatedAt }` -/
def patched (intent : RemoteIntent) (patch : IntentPatch) (now : ℤ) : RemoteIntent :=
  { intent with
    status := patch.status.getD intent.status
    executionCount := patch.executionCount.getD intent.executionCount
    lastCheckedAt := patch.lastCheckedAt.or intent.lastCheckedAt
    matchedAt := patch.matchedAt.or intent.matchedAt
    operationId := patch.operationId.or intent.operationId
    lastError := patch.lastError.or intent.lastError
    version := intent.version + 1
    updatedAt := now }

/-- `update` -/
def update (intent : RemoteIntent) (patch : IntentPatch) : RemoteProg RemoteIntent := do
  let now ← clock
  let updated := patched intent patch now
  wait (.saveIntent updated)
  return updated

/-- `transition` -/
def transition (id deviceId : String) (status : IntentStatus) : RemoteProg RemoteIntent := do
  match ← wait (.getIntent id) with
  | none => throwRemote "Intent is unavailable to this device."
  | some intent =>
      if intent.deviceId ≠ deviceId then throwRemote "Intent is unavailable to this device."
      else if intent.status = .active ∨ intent.status = .paused then do
        let updated ← update intent { status := some status }
        event updated s!"remote.intent.{status.text}" s!"Conditional intent {status.text}."
        return updated
      else if intent.status = status then return intent
      else throwRemote s!"Intent is {intent.status.text} and cannot become {status.text}."

/-- `pause` -/
def pause (id deviceId : String) : RemoteProg RemoteIntent := transition id deviceId .paused

/-- `revoke` -/
def revoke (id deviceId : String) : RemoteProg RemoteIntent := do
  let intent ← transition id deviceId .revoked
  deactivate intent
  return intent

/-- The loop of `disableForDevice` over the intents that are left. -/
def disableAll (revoke : Bool) : List RemoteIntent → RemoteProg Unit
  | [] => return ()
  | intent :: intents => do
      let status : IntentStatus := if revoke then .revoked else .paused
      let updated ← update intent { status := some status }
      let cause := if revoke then "revoked" else "suspended"
      event updated s!"remote.intent.{status.text}"
        s!"Conditional intent {status.text} because its authorizing device was {cause}."
      onlyWhen revoke (deactivate updated)
      disableAll revoke intents

/-- `disableForDevice` -/
def disableForDevice (deviceId : String) (revoke : Bool) : RemoteProg Unit := do
  let intents ← wait .listIntents
  disableAll revoke (intents.filter fun i =>
    i.deviceId == deviceId && (i.status == .active || i.status == .paused))

/-! ## The watcher -/

/-- The plan is the one the intent waits for, and it is available. -/
def triggerMatches (trigger : IntentTrigger) (plans : List PlanAvailability) : Bool :=
  let lower := fun (text : String) => text.toList.map Char.toLower
  match plans.find? fun p =>
      lower p.id == lower trigger.serverType || lower p.name == lower trigger.serverType with
  | none => false
  | some plan =>
      plan.everywhere ||
        plan.locations.any fun entry =>
          entry.2 == some true &&
            (trigger.location.filter (· ≠ "")).all fun location => lower entry.1 == lower location

/-- What follows the record of an outcome. -/
def conclude (intent : RemoteIntent) (eventType summary : String) : RemoteProg Unit := do
  event intent eventType summary
  deactivate intent
  notify intent

/-- What a `catch` does: the intent has failed. -/
def failIntent (intent : RemoteIntent) (executionCount : Option ℕ) (summary : String)
    (failure : RemoteFailure) : RemoteProg Unit := do
  let failed ← update intent
    { status := some .failed
      executionCount := executionCount
      lastError := some (safeError failure) }
  conclude failed "remote.intent.failed" summary

/-- What is recorded when the broker has executed the plan. -/
def outcomePatch (operation : AgentOperation) : IntentPatch where
  status := if operation.state = .succeeded then some .succeeded else some .failed
  executionCount := some 1
  operationId := some operation.id
  lastError := operation.error.map OperationError.message

/-- The first part of the `try` of `execute`: the plan is executed, and its outcome recorded. -/
def executeOnce (token : ℕ) (executing : RemoteIntent) :
    RemoteProg (RemoteIntent × AgentOperation) := do
  wait (.executePlan executing.id token executing.planId)
  let operation ← lift (ActionBroker.executePlan (some token) executing.planId)
  let recorded ← update executing (outcomePatch operation)
  return (recorded, operation)

/-- `execute`; its `catch` writes over the record that was written last. -/
def execute (intent : RemoteIntent) : RemoteProg Unit := do
  match ← orFail (← wait (.getToken intent.id)) with
  | none => throwRemote "Intent execution credential is unavailable."
  | some token => do
      let executing ← update intent { status := some .executing }
      match ← attempt (executeOnce token executing) with
      | .error e => failIntent executing (some 1) "Conditional intent execution failed." e
      | .ok (recorded, operation) =>
          tryCatch
            (conclude recorded
              (if operation.state = .succeeded then "remote.intent.succeeded"
                else "remote.intent.failed")
              s!"Conditional intent execution {operation.state.text}.")
            (failIntent recorded (some 1) "Conditional intent execution failed.")

/-- The `try` of `evaluate`. -/
def check (intent : RemoteIntent) (now : ℤ) : RemoteProg Unit := do
  let plans ← orFail (← wait (.availability intent.trigger.provider intent.trigger.serverType))
  let checked ← update intent { lastCheckedAt := some now }
  if triggerMatches intent.trigger plans then do
    let triggered ← update checked { status := some .triggered, matchedAt := some now }
    event triggered "remote.intent.matched" "Conditional intent trigger matched."
    execute triggered
  else return ()

/-- `evaluate` -/
def evaluate (intent : RemoteIntent) (now : ℤ) : RemoteProg Unit :=
  tryCatch (check intent now) (failIntent intent none "Conditional intent evaluation failed.")

/-- The intent's time is over. -/
def expiredBy (intent : RemoteIntent) (now : ℤ) : Bool :=
  match intent.constraints.expiresAt with
  | .at expires => decide (expires ≤ now)
  | _ => false

/-- What `tick` does with one intent. -/
def visit (intent : RemoteIntent) (now : ℤ) : RemoteProg Unit := do
  if expiredBy intent now then do
    let expired ← update intent { status := some .expired }
    conclude expired "remote.intent.expired" "Conditional intent expired."
  else evaluate intent now

/-- The loop of `tick` over the intents that are left. -/
def visitAll (now : ℤ) : List RemoteIntent → RemoteProg Unit
  | [] => return ()
  | intent :: intents => do
      visit intent now
      visitAll now intents

/-- The `try` of `tick`. -/
def watch (now : ℤ) : RemoteProg Unit := do
  let intents ← wait .listIntents
  visitAll now (intents.filter fun i => i.status == .active)

/-- `tick` -/
def tick (now : ℤ) : RemoteProg Unit := do
  if ← wait .beginCheck then do
    let ended ← attempt (watch now)
    wait .endCheck
    orFail ended
  else return ()

end Vops.IntentService
