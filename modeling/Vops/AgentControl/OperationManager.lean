import Vops.AgentControl.AgentStore

/-!
# The operation manager (`agent-control/operation-manager.ts`)

* `transitions` — which state may follow which.
* `create`, `get`, `transition`, `requestCancel`, `shouldCancel` — the methods.

An operation that is in the requested state already is answered as it is: the patch is not saved.
-/

namespace Vops.OperationManager

/-! ## The states -/

/-- `TRANSITIONS` -/
def transitions : AgentOperationState → List AgentOperationState
  | .proposed => [.awaiting_approval, .approved, .queued, .cancelled]
  | .awaiting_approval => [.approved, .cancelled]
  | .approved => [.queued, .cancelled]
  | .queued => [.running, .cancelling, .cancelled]
  | .running => [.verifying, .succeeded, .failed, .cancelling]
  | .verifying => [.succeeded, .failed, .cancelling]
  | .succeeded => [.rollback_requested]
  | .failed => [.rollback_requested]
  | .cancelling => [.cancelled, .failed]
  | .cancelled => []
  | .rollback_requested => [.rolling_back, .rollback_failed]
  | .rolling_back => [.rolled_back, .rollback_failed]
  | .rolled_back => []
  | .rollback_failed => []

/-- The states in which a request to cancel has no effect. -/
def ended : List AgentOperationState :=
  [.succeeded, .failed, .cancelled, .rolled_back, .rollback_failed]

/-- The `patch` of `transition`: the fields that are set. -/
structure Patch where
  currentStep : Option String := none
  capability : Option String := none
  result : Option (List StepResult) := none
  error : Option OperationError := none
  cancelRequested : Option Bool := none
  verification : Option Verification := none

/-- `{ ...operation, ...patch, state }` -/
def patched (operation : AgentOperation) (state : AgentOperationState) (patch : Patch) :
    AgentOperation :=
  { operation with
    currentStep := patch.currentStep.or operation.currentStep
    capability := patch.capability.or operation.capability
    result := patch.result.or operation.result
    error := patch.error.or operation.error
    cancelRequested := patch.cancelRequested.getD operation.cancelRequested
    verification := patch.verification.or operation.verification
    state := state }

/-! ## Events -/

/-- `operationSummary` -/
def operationSummary (operation : AgentOperation) : String :=
  let suffix := match operation.currentStep with
    | some step => if step = "" then "" else " at " ++ step
    | none => ""
  s!"Operation {operation.state.text}{suffix}."

/-- `detail` of an operation's event. -/
def eventDetail (operation : AgentOperation) : Json :=
  .obj ([("planId", .str (idText "plan" operation.planId))] ++
    (operation.currentStep.map fun step => ("currentStep", Json.str step)).toList ++
    (operation.error.map fun e => ("error", Json.obj [("code", .str e.code.text),
      ("message", .str e.message), ("recoverable", .bool e.recoverable)])).toList)

/-- `event` -/
def event (operation : AgentOperation) (eventType summary : String) : Prog Unit := do
  let eventId ← perform .localId
  let timestamp ← perform .now
  let _ ← appendEvent
    { eventId := eventId
      timestamp := timestamp
      sessionId := some operation.sessionId
      actor := "vops"
      operationId := some operation.id
      eventType := eventType
      capability := operation.capability
      target := none
      summary := summary
      detail := some (eventDetail operation) }
  return ()

/-! ## The methods -/

/-- The record of a new operation. -/
def newOperation (id sessionId planId : ℕ) (rollbackAvailable : Bool) : AgentOperation where
  id := id
  sessionId := sessionId
  planId := planId
  capability := none
  state := .queued
  currentStep := none
  result := none
  verification := none
  error := none
  rollbackAvailable := rollbackAvailable
  cancelRequested := false

/-- `create` -/
def create (sessionId planId : ℕ) (rollbackAvailable : Bool) : Prog AgentOperation := do
  let id ← perform .localId
  let operation := newOperation id sessionId planId rollbackAvailable
  perform (.saveOperation operation)
  event operation "operation.queued" "Operation queued."
  return operation

/-- `get` -/
def get (id : ℕ) : Prog AgentOperation := do
  match ← perform (.getOperation id) with
  | some operation => return operation
  | none =>
      let name := idText "op" id
      throwControl { code := .notFound, message := s!"Operation '{name}' was not found." }

/-- `transition` -/
def transition (id : ℕ) (state : AgentOperationState) (patch : Patch) : Prog AgentOperation := do
  let operation ← get id
  if operation.state = state then return operation
  else if state ∈ transitions operation.state then do
    let updated := patched operation state patch
    perform (.saveOperation updated)
    event updated s!"operation.{state.text}" (operationSummary updated)
    return updated
  else
    throwControl
      { code := .operationFailed
        message := s!"Invalid operation transition {operation.state.text} → {state.text}." }

/-- `requestCancel` -/
def requestCancel (id : ℕ) : Prog AgentOperation := do
  let operation ← get id
  if operation.state ∈ ended then return operation
  else
    transition id (if operation.state = .queued then .cancelled else .cancelling)
      { cancelRequested := some true }

/-- `shouldCancel` -/
def shouldCancel (id : ℕ) : Prog Bool := do
  let operation ← get id
  return operation.cancelRequested

end Vops.OperationManager
