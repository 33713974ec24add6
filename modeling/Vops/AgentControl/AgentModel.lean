import Vops.Lib.Json

/-!
# The records of the agent control plane (`agent-control/agent-model.ts`)

* `AgentSession`, `AgentPlan`, `AgentApproval`, `AgentOperation`, `AgentAuditEvent` — the five kinds
  of record the store keeps.
* `AgentControlError`, `Failure` — the errors of the control plane, and every other error by its
  message.

Identifiers are natural numbers, drawn fresh; `idText` is their text. Times are milliseconds. A
number field that JSON may have turned into `null` is an `Option JsNum`. The times at which a record
was created, updated or decided are left out where no function reads them back.
-/

namespace Vops

/-! ## Identifiers and tokens -/

/-- The text of an identifier: `ses_…`, `plan_…`, `apr_…`, `op_…`, `evt_…`. -/
def idText (kind : String) (id : ℕ) : String := kind ++ "_" ++ toString id

/-- `hashToken`: a digest from which the token is not recovered, different for different tokens. -/
structure TokenHash where
  token : ℕ
deriving DecidableEq

/-- `hashToken` -/
def hashToken (token : ℕ) : TokenHash := ⟨token⟩

/-! ## Sessions -/

/-- `AgentClient` -/
inductive AgentClient
  | claudeCode | codex | opencode | antigravity | other
deriving DecidableEq

/-- The text of a client. -/
def AgentClient.text : AgentClient → String
  | claudeCode => "claude-code"
  | codex => "codex"
  | opencode => "opencode"
  | antigravity => "antigravity"
  | other => "other"

/-- `AgentSessionMode` -/
inductive AgentSessionMode
  | advisory | guarded
deriving DecidableEq

/-- The text of a mode; the source calls the second one `protected`. -/
def AgentSessionMode.text : AgentSessionMode → String
  | advisory => "advisory"
  | guarded => "protected"

/-- `AgentSessionStatus` -/
inductive AgentSessionStatus
  | active | paused | revoked | expired | completed
deriving DecidableEq

/-- The text of a session status. -/
def AgentSessionStatus.text : AgentSessionStatus → String
  | active => "active"
  | paused => "paused"
  | revoked => "revoked"
  | expired => "expired"
  | completed => "completed"

/-- `AgentEnvironment` -/
inductive AgentEnvironment
  | development | staging | production
deriving DecidableEq

/-- The text of an environment. -/
def AgentEnvironment.text : AgentEnvironment → String
  | development => "development"
  | staging => "staging"
  | production => "production"

/-- `AgentSessionPermissions` -/
structure AgentSessionPermissions where
  allow : List String
  allowWithinApprovedPlan : List String
  requireApproval : List String
  deny : List String
deriving DecidableEq

/-- `AgentSession.actor` -/
structure AgentActor where
  client : AgentClient
  clientVersion : Option String
  displayName : String
deriving DecidableEq

/-- `AgentSession.repository` -/
structure AgentRepository where
  path : String
  name : String
deriving DecidableEq

/-- `AgentSession.scope` -/
structure AgentScope where
  projects : List String
  targets : List String
  environments : List AgentEnvironment
deriving DecidableEq

/-- `AgentSession.limits` -/
structure AgentLimits where
  expiresAt : ℤ
  maxOperations : Option JsNum
  maxProviderSpendEur : Option JsNum
deriving DecidableEq

/-- `AgentSession` -/
structure AgentSession where
  id : ℕ
  actor : AgentActor
  objective : String
  mode : AgentSessionMode
  status : AgentSessionStatus
  repository : AgentRepository
  scope : AgentScope
  permissions : AgentSessionPermissions
  limits : AgentLimits
  operationCount : ℕ
  providerSpendEur : Option JsNum
  createdAt : ℤ
deriving DecidableEq

/-! ## Plans -/

/-- `CapabilityRisk` -/
inductive CapabilityRisk
  | read_only | low | medium | high | destructive
deriving DecidableEq

/-- The text of a risk. -/
def CapabilityRisk.text : CapabilityRisk → String
  | read_only => "read_only"
  | low => "low"
  | medium => "medium"
  | high => "high"
  | destructive => "destructive"

/-- `AgentPlanStatus` -/
inductive AgentPlanStatus
  | proposed | awaiting_approval | approved | queued | running | succeeded | failed | cancelled
  | rejected
deriving DecidableEq

/-- The text of a plan status. -/
def AgentPlanStatus.text : AgentPlanStatus → String
  | proposed => "proposed"
  | awaiting_approval => "awaiting_approval"
  | approved => "approved"
  | queued => "queued"
  | running => "running"
  | succeeded => "succeeded"
  | failed => "failed"
  | cancelled => "cancelled"
  | rejected => "rejected"

/-- `AgentPlanStep` -/
structure AgentPlanStep where
  id : String
  capability : String
  input : Json
  risk : CapabilityRisk

/-- `AgentPlan.rollback` -/
structure AgentRollback where
  available : Bool
  limitations : List String
deriving DecidableEq

/-- `AgentPlan` -/
structure AgentPlan where
  id : ℕ
  hash : String
  sessionId : ℕ
  objective : String
  status : AgentPlanStatus
  environment : AgentEnvironment
  target : Option String
  steps : List AgentPlanStep
  successCriteria : List String
  estimatedEffects : List String
  excludedEffects : List String
  rollback : AgentRollback

/-! ## Approvals -/

/-- `ApprovalStatus` -/
inductive ApprovalStatus
  | pending | approved | denied | expired
deriving DecidableEq

/-- The text of an approval status. -/
def ApprovalStatus.text : ApprovalStatus → String
  | pending => "pending"
  | approved => "approved"
  | denied => "denied"
  | expired => "expired"

/-- `boolean | 'conditional'` -/
inductive Reversible
  | yes | no | conditional
deriving DecidableEq

/-- `AgentApproval` -/
structure AgentApproval where
  id : ℕ
  sessionId : ℕ
  planId : Option ℕ
  capability : Option String
  status : ApprovalStatus
  reason : String
  risk : CapabilityRisk
  target : Option String
  environment : Option AgentEnvironment
  expectedEffects : List String
  reversible : Reversible
  expiresAt : ℤ
  decisionReason : Option String
deriving DecidableEq

/-! ## Operations -/

/-- `AgentOperationState` -/
inductive AgentOperationState
  | proposed | awaiting_approval | approved | queued | running | verifying | succeeded | failed
  | cancelling | cancelled | rollback_requested | rolling_back | rolled_back | rollback_failed
deriving DecidableEq

/-- The text of an operation state. -/
def AgentOperationState.text : AgentOperationState → String
  | proposed => "proposed"
  | awaiting_approval => "awaiting_approval"
  | approved => "approved"
  | queued => "queued"
  | running => "running"
  | verifying => "verifying"
  | succeeded => "succeeded"
  | failed => "failed"
  | cancelling => "cancelling"
  | cancelled => "cancelled"
  | rollback_requested => "rollback_requested"
  | rolling_back => "rolling_back"
  | rolled_back => "rolled_back"
  | rollback_failed => "rollback_failed"

/-- `AgentOperation.verification.status` -/
inductive VerificationStatus
  | passed | degraded | failed | not_verified
deriving DecidableEq

/-- An element of `AgentOperation.verification.checks`. -/
structure VerificationCheck where
  capability : String
  step : String
  status : String
  failed : List String
deriving DecidableEq

/-- `AgentOperation.verification` -/
structure Verification where
  status : VerificationStatus
  checks : List VerificationCheck
deriving DecidableEq

/-- One entry of an operation's result: what a step answered, redacted. -/
structure StepResult where
  step : String
  capability : String
  output : Json

/-! ## Errors -/

/-- `AgentControlErrorCode` -/
inductive AgentControlErrorCode
  | authRequired | tokenInvalid | sessionExpired | sessionInactive | scopeDenied
  | approvalRequired | planInvalid | planStale | notFound | unsupported | operationFailed
deriving DecidableEq

/-- The text of an error code. -/
def AgentControlErrorCode.text : AgentControlErrorCode → String
  | authRequired => "VOPS_AGENT_AUTH_REQUIRED"
  | tokenInvalid => "VOPS_AGENT_TOKEN_INVALID"
  | sessionExpired => "VOPS_AGENT_SESSION_EXPIRED"
  | sessionInactive => "VOPS_AGENT_SESSION_INACTIVE"
  | scopeDenied => "VOPS_AGENT_SCOPE_DENIED"
  | approvalRequired => "VOPS_AGENT_APPROVAL_REQUIRED"
  | planInvalid => "VOPS_AGENT_PLAN_INVALID"
  | planStale => "VOPS_AGENT_PLAN_STALE"
  | notFound => "VOPS_AGENT_NOT_FOUND"
  | unsupported => "VOPS_AGENT_UNSUPPORTED"
  | operationFailed => "VOPS_AGENT_OPERATION_FAILED"

/-- The `status` of an `AgentControlError`. -/
inductive ControlStatus
  | denied | approval_required | failed
deriving DecidableEq

/-- An element of `PlanValidationResult.errors`. -/
structure PlanError where
  step : Option String
  path : Option String
  message : String
deriving DecidableEq

/-- The `detail` of an `AgentControlError`. -/
inductive ErrorDetail
  | none
  | errors (errors : List PlanError)
  | approval (approval : Option AgentApproval)
deriving DecidableEq

/-- `AgentControlError`, its optional arguments with their defaults. -/
structure AgentControlError where
  code : AgentControlErrorCode
  message : String
  status : ControlStatus := .failed
  recoverable : Bool := false
  detail : ErrorDetail := .none
deriving DecidableEq

/-- What a call throws: an error of the control plane, or any other error, by its message. -/
inductive Failure
  | control (error : AgentControlError)
  | thrown (message : String)
deriving DecidableEq

/-- `asControlError` -/
def asControlError : Failure → AgentControlError
  | .control error => error
  | .thrown message => ⟨.operationFailed, message, .failed, true, .none⟩

/-- `AgentOperation.error` -/
structure OperationError where
  code : AgentControlErrorCode
  message : String
  recoverable : Bool
deriving DecidableEq

/-- `AgentOperation` -/
structure AgentOperation where
  id : ℕ
  sessionId : ℕ
  planId : ℕ
  capability : Option String
  state : AgentOperationState
  currentStep : Option String
  result : Option (List StepResult)
  verification : Option Verification
  error : Option OperationError
  rollbackAvailable : Bool
  cancelRequested : Bool

/-! ## The audit log -/

/-- `AgentAuditEvent`, before `appendEvent` adds the hashes. -/
structure AgentEvent where
  eventId : ℕ
  timestamp : ℤ
  sessionId : Option ℕ
  actor : String
  operationId : Option ℕ
  eventType : String
  capability : Option String
  target : Option String
  summary : String
  detail : Option Json

/-- `AgentAuditEvent` -/
structure AgentAuditEvent where
  event : AgentEvent
  redactionsApplied : Bool
  previousHash : Option String
  hash : String

/-! ## Sample records -/

/-- A session for the examples of this development: the default grants, on one target. -/
def sampleSession : AgentSession where
  id := 0
  actor := ⟨.codex, none, "Codex"⟩
  objective := "Deploy"
  mode := .advisory
  status := .active
  repository := ⟨"/repo", "repo"⟩
  scope := ⟨["repo"], ["demo"], [.staging]⟩
  permissions :=
    { allow := ["target.inspect", "application.status"]
      allowWithinApprovedPlan := ["application.deploy", "application.restart"]
      requireApproval := ["server.provision"]
      deny := ["server.destroy"] }
  limits := ⟨3600000, some (.fin 50), some (.fin 6)⟩
  operationCount := 0
  providerSpendEur := some (.fin 0)
  createdAt := 0

/-- A plan for the examples of this development. -/
def samplePlan : AgentPlan where
  id := 1
  hash := "sha256"
  sessionId := 0
  objective := "Deploy"
  status := .awaiting_approval
  environment := .staging
  target := none
  steps := []
  successCriteria := []
  estimatedEffects := []
  excludedEffects := []
  rollback := ⟨true, []⟩

end Vops
