import Vops.AgentControl.AgentModel
import Vops.AgentControl.ApprovalManager
import Vops.AgentControl.CoreActionExecutor
import Vops.AgentControl.OperationManager
import Vops.AgentControl.PlanEngine

/-!
# The action broker (`agent-control/action-broker.ts`)

* `createPlan`, `invoke`, `executePlan`, `validatePlan`, `requestScopeExpansion` — what an agent calls
  with its token.
* `executePlanForSession` — claim the plan (`claimPlan`), run its steps (`runSteps`), record the
  outcome (`failOperation` on an error).
* `requireStepAllowed` — the policy check of one step, on the session that was authenticated.
-/

/-!
## The verdict of an operation (`agent-control/verification.ts`)

`summariseVerification` reads the verification steps of a plan back from what they answered.
-/

namespace Vops

/-- `record(value)?.key` -/
def recordField (value : Json) (key : String) : Option Json :=
  match value with
  | .obj _ => value.get? key
  | _ => none

/-- `reportStatus` -/
def reportStatus (output : Json) : String :=
  match recordField output "status" with
  | some (.str status) => status
  | _ => "unknown"

/-- `failedCheckNames` -/
def failedCheckNames (output : Json) : List String :=
  match recordField output "checks" with
  | some (.arr checks) =>
      (checks.filter fun check => (recordField check "status").bind Json.str? == some "fail").map
        fun check => ((recordField check "name").bind Json.str?).getD "check"
  | _ => []

/-- `VERDICT[status] ?? 'not_verified'` -/
def verdict (status : String) : VerificationStatus :=
  if status = "healthy" then .passed
  else if status = "degraded" then .degraded
  else .not_verified

/-- `summariseVerification` -/
def summariseVerification (results : List StepResult) : Verification :=
  let checks := (results.filter fun entry => entry.capability == "healthcheck.run").map fun entry =>
    (⟨entry.capability, entry.step, reportStatus entry.output, failedCheckNames entry.output⟩ :
      VerificationCheck)
  let verdicts := checks.map fun check => verdict check.status
  if checks = [] then ⟨.not_verified, checks⟩
  else if checks.any fun check => !check.failed.isEmpty then ⟨.degraded, checks⟩
  else if .degraded ∈ verdicts then ⟨.degraded, checks⟩
  else if .not_verified ∈ verdicts then ⟨.not_verified, checks⟩
  else ⟨.passed, checks⟩

end Vops

namespace Vops.ActionBroker

open PolicyEngine

/-! ## The check of a step -/

/-- The request that `requireStepAllowed` puts to the policy engine. -/
def stepRequest (session : AgentSession) (plan : AgentPlan) (step : AgentPlanStep) :
    PolicyRequest :=
  ⟨session, step.capability, step.input, plan.environment,
    some { plan with status := .approved }⟩

/-- What `requireStepAllowed` makes of a decision. -/
def requireDecision (decision : PolicyDecision) : Except Failure Unit :=
  match decision.effect with
  | .allow => .ok ()
  | .approval_required =>
      .error (.control ⟨.approvalRequired, decision.reason, .approval_required, true, .none⟩)
  | .deny => .error (.control ⟨.scopeDenied, decision.reason, .denied, true, .none⟩)

/-- `requireStepAllowed` -/
def requireStepAllowed (session : AgentSession) (plan : AgentPlan) (step : AgentPlanStep) :
    Prog Unit := do
  let emergencyStop ← perform .emergencyStop
  liftExcept ((evaluate emergencyStop (stepRequest session plan step)).bind requireDecision)

/-! ## The steps of a plan -/

/-- The event of a step that succeeded. -/
def stepEvent (session : AgentSession) (plan : AgentPlan) (operationId : ℕ) (step : AgentPlanStep) :
    Prog Unit := do
  let eventId ← perform .localId
  let timestamp ← perform .now
  let _ ← appendEvent
    { eventId := eventId
      timestamp := timestamp
      sessionId := some session.id
      actor := session.actor.client.text
      operationId := some operationId
      eventType := "operation.step_succeeded"
      capability := some step.capability
      target := plan.target
      summary := s!"{step.id} {step.capability} succeeded."
      detail := some (.obj [("step", .str step.id)]) }
  return ()

/-- One step: check it, record it, execute it. -/
def runStep (session : AgentSession) (plan : AgentPlan) (operationId : ℕ) (step : AgentPlanStep) :
    Prog StepResult := do
  requireStepAllowed session plan step
  let _ ← OperationManager.transition operationId .running
    { currentStep := some step.id, capability := some step.capability }
  let output ← CoreActionExecutor.execute ⟨step, session, plan, operationId⟩
  stepEvent session plan operationId step
  return ⟨step.id, step.capability, redactSecrets output⟩

/-- What is recorded when every step has been executed. -/
def finish (plan : AgentPlan) (operationId : ℕ) (results : List StepResult) :
    Prog AgentOperation := do
  let _ ← OperationManager.transition operationId .verifying {}
  let succeeded ← OperationManager.transition operationId .succeeded
    { result := some results, verification := some (summariseVerification results) }
  let _ ← PlanEngine.setStatus plan.id .succeeded
  return succeeded

/-- The loop over the steps; `none` when the operation was cancelled. -/
def runSteps (session : AgentSession) (plan : AgentPlan) (operationId : ℕ) :
    List AgentPlanStep → List StepResult → Prog (Option AgentOperation)
  | [], results => do
      let succeeded ← finish plan operationId results
      return some succeeded
  | step :: steps, results => do
      if ← OperationManager.shouldCancel operationId then do
        let _ ← OperationManager.transition operationId .cancelled {}
        let _ ← PlanEngine.setStatus plan.id .cancelled
        return none
      else do
        let result ← runStep session plan operationId step
        runSteps session plan operationId steps (results ++ [result])

/-- What is recorded when the loop throws; the error is thrown on. -/
def failOperation (plan : AgentPlan) (operationId : ℕ) (failure : Failure) :
    Prog (Option AgentOperation) := do
  let control := asControlError failure
  let _ ← OperationManager.transition operationId .failed
    { error := some ⟨control.code, control.message, control.recoverable⟩ }
  let _ ← PlanEngine.setStatus plan.id .failed
  throwControl control

/-! ## `executePlanForSession` -/

/-- The plan is read and, if its approval has been granted meanwhile, set to `approved`. -/
def claimPlan (session : AgentSession) (planId : ℕ) : Prog AgentPlan := do
  let plan ← PlanEngine.get planId
  if plan.sessionId ≠ session.id then PlanEngine.refuseForeign
  else if plan.status = .awaiting_approval then do
    let _ ← ApprovalManager.requireApprovedForPlan plan.id
    let approved ← PlanEngine.setStatus plan.id .approved
    PlanEngine.requireExecutable approved.id session.id
  else PlanEngine.requireExecutable plan.id session.id

/-- The operation of a claimed plan is created, counted and started. -/
def startOperation (session : AgentSession) (plan : AgentPlan) : Prog AgentOperation := do
  let operation ← OperationManager.create session.id plan.id plan.rollback.available
  let _ ← AgentSessionManager.incrementOperation session.id
  let _ ← PlanEngine.setStatus plan.id .running
  let _ ← OperationManager.transition operation.id .running {}
  return operation

/-- `executePlanForSession` -/
def executePlanForSession (session : AgentSession) (planId : ℕ) : Prog AgentOperation := do
  let plan ← claimPlan session planId
  let operation ← startOperation session plan
  let ended ← tryCatch (runSteps session plan operation.id plan.steps [])
    (failOperation plan operation.id)
  match ended with
  | some succeeded => return succeeded
  | none => OperationManager.get operation.id

/-! ## The methods -/

/-- `executePlan` -/
def executePlan (token : Option ℕ) (planId : ℕ) : Prog AgentOperation := do
  let session ← AgentSessionManager.authenticate token
  executePlanForSession session planId

/-- `createPlan` -/
def createPlan (token : Option ℕ) (input : PlanEngine.CreatePlanInput) :
    Prog (AgentPlan × Option AgentApproval) := do
  let session ← AgentSessionManager.authenticate token
  let plan ← PlanEngine.create session input
  if plan.status = .awaiting_approval then do
    let approval ← ApprovalManager.requestForPlan plan s!"Approve: {plan.objective}"
    return (plan, some approval)
  else return (plan, none)

/-- The options of `invoke`. -/
structure InvokeOptions where
  objective : Option String := none
  environment : Option AgentEnvironment := none
  target : Option String := none

/-- The answer of `invoke`. -/
inductive InvokeResult
  | approval (plan : AgentPlan) (approval : AgentApproval)
  | operation (plan : AgentPlan) (operation : AgentOperation)

/-- `invoke` -/
def invoke (token : Option ℕ) (capability : String) (input : Json) (opts : InvokeOptions) :
    Prog InvokeResult := do
  let session ← AgentSessionManager.authenticate token
  let plan ← PlanEngine.create session
    { objective := opts.objective.getD s!"Run {capability}"
      environment := opts.environment
      target := opts.target
      steps := [⟨capability, some input⟩] }
  if plan.status = .awaiting_approval then do
    let approval ← ApprovalManager.requestForPlan plan s!"Approve {capability}."
    return .approval plan approval
  else do
    let operation ← executePlanForSession session plan.id
    return .operation plan operation

/-- `validatePlan` -/
def validatePlan (token : Option ℕ) (planId : ℕ) :
    Prog (AgentPlan × PlanEngine.PlanValidationResult) := do
  let session ← AgentSessionManager.authenticate token
  let plan ← PlanEngine.get planId
  if plan.sessionId ≠ session.id then PlanEngine.refuseForeign
  else do
    let validation ← PlanEngine.validate plan
    return (plan, validation)

/-- The argument of `requestScopeExpansion`. -/
structure ScopeRequest where
  capability : String
  reason : String
  target : Option String := none
  environment : Option AgentEnvironment := none

/-- `requestScopeExpansion` -/
def requestScopeExpansion (token : Option ℕ) (input : ScopeRequest) : Prog AgentApproval := do
  let session ← AgentSessionManager.authenticate token
  let capability ← liftExcept (CapabilityRegistry.describe input.capability)
  ApprovalManager.requestScopeExpansion
    { sessionId := session.id
      capability := input.capability
      reason := input.reason
      risk := capability.risk
      target := input.target
      environment := input.environment
      effects := capability.possibleEffects
      reversible := capability.reversible }

end Vops.ActionBroker
