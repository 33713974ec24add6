import Vops.AgentControl.AgentSessionManager

/-!
# The approval manager (`agent-control/approval-manager.ts`)

* `requestForPlan`, `requestScopeExpansion` — a pending approval is created.
* `approve`, `deny`, `list` — a pending approval is decided, or expires (`decide`).
* `requireApprovedForPlan` — the newest approval of a plan has to be approved.
-/

namespace Vops.ApprovalManager

/-! ## Events -/

/-- `event` -/
def event (approval : AgentApproval) (eventType summary : String) (actor : String) : Prog Unit := do
  let eventId ← perform .localId
  let timestamp ← perform .now
  let _ ← appendEvent
    { eventId := eventId
      timestamp := timestamp
      sessionId := some approval.sessionId
      actor := actor
      operationId := none
      eventType := eventType
      capability := approval.capability
      target := approval.target
      summary := summary
      detail := some (.obj ([("approvalId", .str (idText "apr" approval.id))] ++
        (approval.planId.map fun id => ("planId", Json.str (idText "plan" id))).toList ++
        [("reason", .str approval.reason)])) }
  return ()

/-! ## Requests -/

/-- `riskRank` -/
def riskRank : CapabilityRisk → ℕ
  | .read_only => 0
  | .low => 1
  | .medium => 2
  | .high => 3
  | .destructive => 4

/-- The highest risk among the steps. -/
def highestRisk (steps : List AgentPlanStep) : CapabilityRisk :=
  ((steps.mergeSort fun a b => decide (riskRank b.risk ≤ riskRank a.risk)).head?.map
    AgentPlanStep.risk).getD .read_only

/-- `requestForPlan` -/
def requestForPlan (plan : AgentPlan) (reason : String) : Prog AgentApproval := do
  let pending ← perform (.listApprovals (some .pending))
  match pending.find? fun entry => entry.planId == some plan.id with
  | some existing => return existing
  | none => do
      let now ← perform .now
      let id ← perform .localId
      let approval : AgentApproval :=
        { id := id
          sessionId := plan.sessionId
          planId := some plan.id
          capability := none
          status := .pending
          reason := reason
          risk := highestRisk plan.steps
          target := plan.target.filter (· ≠ "")
          environment := some plan.environment
          expectedEffects := plan.estimatedEffects
          reversible := if plan.rollback.available then .conditional else .no
          expiresAt := now + 60 * 60000
          decisionReason := none }
      perform (.saveApproval approval)
      event approval "approval.requested" "Plan approval requested." "vops"
      return approval

/-- The argument of `requestScopeExpansion`. -/
structure ScopeExpansion where
  sessionId : ℕ
  capability : String
  reason : String
  risk : CapabilityRisk
  target : Option String
  environment : Option AgentEnvironment
  effects : List String
  reversible : Reversible

/-- `requestScopeExpansion` -/
def requestScopeExpansion (input : ScopeExpansion) : Prog AgentApproval := do
  let now ← perform .now
  let id ← perform .localId
  let approval : AgentApproval :=
    { id := id
      sessionId := input.sessionId
      planId := none
      capability := some input.capability
      status := .pending
      reason := input.reason
      risk := input.risk
      target := input.target.filter (· ≠ "")
      environment := input.environment
      expectedEffects := input.effects
      reversible := input.reversible
      expiresAt := now + 60 * 60000
      decisionReason := none }
  perform (.saveApproval approval)
  event approval "approval.scope_requested"
    s!"Scope expansion requested for {input.capability}." "vops"
  return approval

/-! ## Decisions -/

/-- The record of a decided approval. -/
def decided (approval : AgentApproval) (status : ApprovalStatus) (reason : String) :
    AgentApproval :=
  { approval with status := status, decisionReason := some reason }

/-- The scope that an approved request for a capability grants. -/
def grantFor (status : ApprovalStatus) (approval : AgentApproval) :
    Option AgentSessionManager.GrantInput :=
  match approval.capability, approval.planId with
  | some capability, none =>
      if status = .approved ∧ capability ≠ "" then
        some ⟨capability, approval.target, approval.environment⟩
      else none
  | _, _ => none

/-- `decide` on a pending approval: save, grant the scope if one was approved, record the event. -/
def settle (approval : AgentApproval) (status : ApprovalStatus) (reason actor : String) :
    Prog AgentApproval := do
  let updated := decided approval status reason
  perform (.saveApproval updated)
  match grantFor status updated with
  | some grant => do
      let _ ← AgentSessionManager.grantScope updated.sessionId grant
      event updated s!"approval.{status.text}" s!"Approval {status.text}." actor
      return updated
  | none => do
      event updated s!"approval.{status.text}" s!"Approval {status.text}." actor
      return updated

/-- The approval that `decide` reads. -/
def showApproval (id : ℕ) : Prog AgentApproval := do
  match ← perform (.getApproval id) with
  | some approval => return approval
  | none =>
      let name := idText "apr" id
      throwControl { code := .notFound, message := s!"Approval '{name}' was not found." }

/-- The refusal to decide an approval again. -/
def refuseDecided {α : Type} (approval : AgentApproval) (id : ℕ) : Prog α :=
  let name := idText "apr" id
  throwControl
    { code := .planInvalid, message := s!"Approval '{name}' is already {approval.status.text}." }

/-- `decide` with status `expired` or `denied`. -/
def decideAgainst (id : ℕ) (status : ApprovalStatus) (reason actor : String) :
    Prog AgentApproval := do
  let approval ← showApproval id
  if approval.status ≠ .pending then
    if approval.status = status then return approval else refuseDecided approval id
  else settle approval status reason actor

/-- `approve`: `decide` with status `approved`; an approval whose time is over expires instead. -/
def approve (id : ℕ) (reason actor : String) : Prog AgentApproval := do
  let approval ← showApproval id
  if approval.status ≠ .pending then
    if approval.status = .approved then return approval else refuseDecided approval id
  else do
    let now ← perform .now
    if approval.expiresAt ≤ now then
      decideAgainst id .expired "Approval window expired." "vops"
    else settle approval .approved reason actor

/-- `deny` -/
def deny (id : ℕ) (reason actor : String) : Prog AgentApproval :=
  decideAgainst id .denied reason actor

/-- The pending approvals whose time is over, by a reading of the clock for each of them. -/
def expiredAmong : List AgentApproval → Prog (List AgentApproval)
  | [] => return []
  | approval :: approvals => do
      if approval.status = .pending then do
        let now ← perform .now
        let rest ← expiredAmong approvals
        return if approval.expiresAt ≤ now then approval :: rest else rest
      else expiredAmong approvals

/-- The decisions that `list` makes. -/
def expireAll : List AgentApproval → Prog Unit
  | [] => return ()
  | approval :: approvals => do
      let _ ← decideAgainst approval.id .expired "Approval window expired." "vops"
      expireAll approvals

/-- `list` -/
def list (status : Option ApprovalStatus) : Prog (List AgentApproval) := do
  let approvals ← perform (.listApprovals status)
  let expired ← expiredAmong approvals
  expireAll expired
  if expired = [] then return approvals else perform (.listApprovals status)

/-- `requireApprovedForPlan` -/
def requireApprovedForPlan (planId : ℕ) : Prog AgentApproval := do
  let approvals ← perform (.listApprovals none)
  let approval := approvals.find? fun entry => entry.planId == some planId
  let name := idText "plan" planId
  let refusal : AgentControlError :=
    { code := .approvalRequired, message := s!"Plan '{name}' has not been approved."
      status := .approval_required, recoverable := true, detail := .approval approval }
  match approval with
  | some approval => if approval.status = .approved then return approval else throwControl refusal
  | none => throwControl refusal

end Vops.ApprovalManager
