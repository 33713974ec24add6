import Vops.AgentControl.AgentStore
import Vops.AgentControl.PolicyEngine

/-!
# The plan engine (`agent-control/plan-engine.ts`)

* `create` — check every step, then store the plan with the hash of its body.
* `get`, `validate`, `requireExecutable`, `setStatus` — the other methods.
* `checkStep` — what `create` makes of one proposed step.
-/

namespace Vops.PlanEngine

open PolicyEngine CapabilityRegistry

/-! ## Arguments -/

/-- A proposed step. -/
structure StepInput where
  capability : String
  input : Option Json := none

/-- `CreatePlanInput` -/
structure CreatePlanInput where
  objective : String
  environment : Option AgentEnvironment := none
  target : Option String := none
  steps : List StepInput
  successCriteria : Option (List String) := none
  excludedEffects : Option (List String) := none

/-- `PlanValidationResult` -/
structure PlanValidationResult where
  valid : Bool
  requiresApproval : Bool
  errors : List PlanError

/-! ## The body of a plan -/

/-- A step as JSON. -/
def stepJson (step : AgentPlanStep) : Json :=
  .obj [("id", .str step.id), ("capability", .str step.capability), ("input", step.input),
    ("risk", .str step.risk.text)]

/-- `planBody` -/
def planBody (plan : AgentPlan) : Json :=
  .obj ([("sessionId", .str (idText "ses" plan.sessionId)), ("objective", .str plan.objective),
      ("environment", .str plan.environment.text)] ++
    (plan.target.map fun target => ("target", Json.str target)).toList ++
    [("steps", .arr (plan.steps.map stepJson)),
      ("successCriteria", .arr (plan.successCriteria.map .str)),
      ("estimatedEffects", .arr (plan.estimatedEffects.map .str)),
      ("excludedEffects", .arr (plan.excludedEffects.map .str)),
      ("rollback", .obj [("available", .bool plan.rollback.available),
        ("limitations", .arr (plan.rollback.limitations.map .str))])])

/-- `rollbackLimitations` -/
def rollbackLimitations (values : List Reversible) : List String :=
  if .no ∈ values then ["At least one plan step has no rollback operation."]
  else if .conditional ∈ values then
    ["Rollback depends on state captured by the underlying capability and may not restore " ++
      "persistent data."]
  else []

/-! ## Proposed steps -/

/-- What `create` makes of a proposed step: the step, its errors, whether it needs an approval. -/
structure CheckedStep where
  step : AgentPlanStep
  definition : CapabilityDefinition
  errors : List PlanError
  requiresApproval : Bool

/-- The name of the step at `index`. -/
def stepName (index : ℕ) : String := "step_" ++ toString (index + 1)

/-- The request that `create` puts to the policy engine. -/
def requestFor (session : AgentSession) (environment : AgentEnvironment) (capability : String)
    (input : Json) : PolicyRequest :=
  ⟨session, capability, input, environment, none⟩

/-- The checks of one proposed step, in the order in which their errors are listed. -/
def checkStep (emergencyStop : Bool) (session : AgentSession) (environment : AgentEnvironment)
    (index : ℕ) (step : StepInput) : Except Failure CheckedStep := do
  let definition ← describe step.capability
  let (invalid, input) := CapabilityRegistry.validate step.capability (step.input.getD (.obj []))
  let policy ← evaluate emergencyStop (requestFor session environment step.capability input)
  return {
    step := ⟨stepName index, definition.id, input, definition.risk⟩
    definition := definition
    errors :=
      (invalid.map fun e => ⟨some (stepName index), some e.path, e.message⟩) ++
      (if containsSecretLikeField input then
        [⟨some (stepName index), none, "Plans may contain logical credential references, never " ++
          "credential values or secret fields."⟩]
      else []) ++
      (if policy.effect = .deny then [⟨some (stepName index), none, policy.reason⟩] else [])
    requiresApproval := policy.effect == .approval_required }

/-- The checks of all proposed steps, from `index` on. -/
def checkSteps (emergencyStop : Bool) (session : AgentSession) (environment : AgentEnvironment) :
    ℕ → List StepInput → Except Failure (List CheckedStep)
  | _, [] => return []
  | index, step :: steps => do
      let checked ← checkStep emergencyStop session environment index step
      let rest ← checkSteps emergencyStop session environment (index + 1) steps
      return checked :: rest

/-! ## `create` -/

/-- `input.environment ?? session.scope.environments[0] ?? 'staging'` -/
def environmentFor (session : AgentSession) (input : CreatePlanInput) : AgentEnvironment :=
  (input.environment.or session.scope.environments.head?).getD .staging

/-- The plan that `create` stores, but for its hash. -/
def newPlan (session : AgentSession) (input : CreatePlanInput) (checked : List CheckedStep)
    (id : ℕ) (hash : String) : AgentPlan where
  id := id
  hash := hash
  sessionId := session.id
  objective := jsTrim input.objective
  status := if checked.any CheckedStep.requiresApproval then .awaiting_approval else .approved
  environment := environmentFor session input
  target := input.target.filter (· ≠ "")
  steps := checked.map CheckedStep.step
  successCriteria := input.successCriteria.getD []
  estimatedEffects := unique (checked.flatMap fun c => c.definition.possibleEffects)
  excludedEffects := input.excludedEffects.getD []
  rollback :=
    ⟨checked.all fun c => c.definition.reversible == .yes,
      rollbackLimitations (checked.map fun c => c.definition.reversible)⟩

/-- A plan error as JSON. -/
def errorJson (e : PlanError) : Json :=
  .obj ((e.step.map fun step => ("step", Json.str step)).toList ++
    (e.path.map fun path => ("path", Json.str path)).toList ++ [("message", .str e.message)])

/-- The refusal of a plan with errors. -/
def refusePlan (session : AgentSession) (input : CreatePlanInput) (errors : List PlanError) :
    Prog AgentPlan := do
  let eventId ← perform .localId
  let timestamp ← perform .now
  let _ ← appendEvent
    { eventId := eventId
      timestamp := timestamp
      sessionId := some session.id
      actor := session.actor.client.text
      operationId := none
      eventType := "plan.denied"
      capability := none
      target := input.target
      summary := "Rejected an invalid or out-of-scope plan."
      detail := some (.obj [("objective", .str input.objective),
        ("errors", .arr (errors.map errorJson))]) }
  throwControl
    { code := .planInvalid, message := "The proposed plan is invalid.", recoverable := true
      detail := .errors errors }

/-- The event of a new plan. -/
def createdEvent (session : AgentSession) (plan : AgentPlan) : Prog Unit := do
  let eventId ← perform .localId
  let timestamp ← perform .now
  let _ ← appendEvent
    { eventId := eventId
      timestamp := timestamp
      sessionId := some session.id
      actor := session.actor.client.text
      operationId := none
      eventType := "plan.created"
      capability := none
      target := plan.target
      summary := s!"Created {plan.steps.length}-step plan."
      detail := some (.obj [("planId", .str (idText "plan" plan.id)), ("hash", .str plan.hash),
        ("effects", .arr (plan.estimatedEffects.map .str))]) }
  return ()

/-- `create` -/
def create (session : AgentSession) (input : CreatePlanInput) : Prog AgentPlan := do
  if input.steps = [] then
    throwControl { code := .planInvalid, message := "A plan must contain at least one step." }
  else do
    let emergencyStop ← perform .emergencyStop
    let checked ← liftExcept
      (checkSteps emergencyStop session (environmentFor session input) 0 input.steps)
    let errors := checked.flatMap CheckedStep.errors
    if errors ≠ [] then refusePlan session input errors
    else do
      let id ← perform .localId
      let hash ← perform (.digest (planBody (newPlan session input checked id "")))
      let plan := newPlan session input checked id hash
      perform (.savePlan plan)
      createdEvent session plan
      return plan

/-! ## The other methods -/

/-- `get` -/
def get (id : ℕ) : Prog AgentPlan := do
  match ← perform (.getPlan id) with
  | some plan => return plan
  | none =>
      let name := idText "plan" id
      throwControl { code := .notFound, message := s!"Plan '{name}' was not found." }

/-- The errors of a plan whose body hashes to `expected`. -/
def planErrors (plan : AgentPlan) (expected : String) : List PlanError :=
  (if expected ≠ plan.hash then [⟨none, none, "Plan content changed after it was created."⟩]
    else []) ++
  plan.steps.flatMap fun step => (CapabilityRegistry.validate step.capability step.input).1.map
    fun e => ⟨some step.id, some e.path, e.message⟩

/-- `validate` -/
def validate (plan : AgentPlan) : Prog PlanValidationResult := do
  let expected ← perform (.digest (planBody plan))
  let errors := planErrors plan expected
  return ⟨errors.isEmpty, plan.status == .awaiting_approval, errors⟩

/-- The refusal of a plan of another session. -/
def refuseForeign {α : Type} : Prog α :=
  throwControl
    { code := .scopeDenied, message := "The plan belongs to a different session."
      status := .denied }

/-- `requireExecutable` -/
def requireExecutable (id sessionId : ℕ) : Prog AgentPlan := do
  let plan ← get id
  if plan.sessionId ≠ sessionId then refuseForeign
  else do
    let validation ← validate plan
    if !validation.valid then
      throwControl
        { code := .planStale, message := "The approved plan no longer matches its content hash."
          status := .denied, recoverable := true, detail := .errors validation.errors }
    else if plan.status ≠ .approved then
      let name := idText "plan" id
      throwControl
        { code := .approvalRequired, message := s!"Plan '{name}' is {plan.status.text}."
          status := .approval_required, recoverable := true }
    else return plan

/-- `setStatus` -/
def setStatus (id : ℕ) (status : AgentPlanStatus) : Prog AgentPlan := do
  let plan ← get id
  let updated := { plan with status := status }
  perform (.savePlan updated)
  return updated

end Vops.PlanEngine
