import Vops.AgentControl.CapabilityRegistry

/-!
# The policy engine (`agent-control/policy-engine.ts`)

* `scopeDenial`, `permits`, `targetFrom` — the parts of the decision.
* `decideFor` — the decision for a capability that the registry knows.
* `evaluate` — `PolicyEngine.evaluate`; the emergency stop is an argument.
* `Passes` — the gates before the grants: a request that is not denied has passed them
  (`passes_of_not_deny`), and behind them the grants decide (`decideFor_of_passes`).
-/

namespace Vops.PolicyEngine

open CapabilityRegistry

/-- `PolicyRequest` -/
structure PolicyRequest where
  session : AgentSession
  capability : String
  input : Json
  environment : AgentEnvironment
  approvedPlan : Option AgentPlan

/-- `PolicyDecision['effect']` -/
inductive PolicyEffect
  | allow | approval_required | deny
deriving DecidableEq

/-- `PolicyDecision` -/
structure PolicyDecision where
  effect : PolicyEffect
  reason : String
  capability : CapabilityDefinition

/-- `matches` -/
def permits (patterns : List String) (capability : String) : Bool :=
  patterns.any fun pattern => pattern == "*" || pattern == capability

/-- `targetFrom`: the first of the three keys that holds a non-empty text. -/
def targetFrom (input : Json) : Option String :=
  ["target", "host", "id"].findSome? fun key =>
    match input.get? key with
    | some (.str s) => if s = "" then none else some s
    | _ => none

/-- A target is never the empty text. -/
theorem targetFrom_ne_empty (input : Json) : targetFrom input ≠ some "" := by
  intro h
  obtain ⟨key, -, hkey⟩ := List.exists_of_findSome?_eq_some h
  cases hv : input.get? key with
  | none => simp [hv] at hkey
  | some v => cases v <;> simp [hv] at hkey

/-- `scopeDenial`: why the request is out of scope, if it is. -/
def scopeDenial (session : AgentSession) (capability : CapabilityDefinition) (input : Json)
    (environment : AgentEnvironment) : Option String :=
  if environment ∉ session.scope.environments then
    some s!"Environment '{environment.text}' is outside the session scope."
  else if session.scope.targets = [] then none
  else match targetFrom input with
    | some target =>
        if target ∈ session.scope.targets then none
        else some s!"Target '{target}' is outside the session scope."
    | none =>
        if capability.hostScoped then
          let hosts := ", ".intercalate session.scope.targets
          some s!"{capability.id} acts on one host: set 'host' to one of {hosts}."
        else none

/-- The plan is approved and belongs to the session. -/
def approvedFor (session : AgentSession) : Option AgentPlan → Bool
  | some plan => plan.status == .approved && plan.sessionId == session.id
  | none => false

/-- `evaluate`, once the capability is known. -/
def decideFor (emergencyStop : Bool) (c : CapabilityDefinition) (request : PolicyRequest) :
    PolicyDecision :=
  let session := request.session
  let permissions := session.permissions
  if emergencyStop ∧ c.access ≠ .read then
    ⟨.deny, "Agent mutations are disabled by the emergency stop.", c⟩
  else if !c.enabled then ⟨.deny, c.unavailableReason.getD "Capability unavailable.", c⟩
  else if session.status ≠ .active then ⟨.deny, s!"Session is {session.status.text}.", c⟩
  else match scopeDenial session c request.input request.environment with
    | some outOfScope => ⟨.deny, outOfScope, c⟩
    | none =>
        if permits permissions.deny c.id then
          ⟨.deny, s!"{c.id} is denied by the session policy.", c⟩
        else if c.id = "server.provision" ∧
            (JsNum.ofField session.limits.maxProviderSpendEur).le 0 then
          ⟨.deny, "This session has a zero provider-spend limit.", c⟩
        else if c.risk = .read_only ∧ permits permissions.allow c.id then
          ⟨.allow, "Read-only capability is included in the session grant.", c⟩
        else if permits permissions.allow c.id then
          ⟨.allow, "Capability is included in the session grant.", c⟩
        else if approvedFor session request.approvedPlan ∧
            (permits permissions.allowWithinApprovedPlan c.id ∨
              permits permissions.requireApproval c.id) then
          ⟨.allow, "Capability is included in the approved plan.", c⟩
        else if permits permissions.requireApproval c.id ∨
            permits permissions.allowWithinApprovedPlan c.id ∨
            c.approvalDefaults.get request.environment ≠ .session_grant then
          ⟨.approval_required, "The capability requires an approved plan or explicit grant.", c⟩
        else ⟨.deny, s!"{c.id} is not granted to this session.", c⟩

/-- `PolicyEngine.evaluate`; an unknown capability is an error. -/
def evaluate (emergencyStop : Bool) (request : PolicyRequest) : Except Failure PolicyDecision :=
  (describe request.capability).map fun c => decideFor emergencyStop c request

/-- The decision is `effect`. -/
def Answers (emergencyStop : Bool) (request : PolicyRequest) (effect : PolicyEffect) : Prop :=
  ∃ d, evaluate emergencyStop request = .ok d ∧ d.effect = effect

/-- An answer is the decision for the capability of that name. -/
theorem answers_iff {emergencyStop : Bool} {request : PolicyRequest} {effect : PolicyEffect} :
    Answers emergencyStop request effect ↔
      ∃ c, find request.capability = some c ∧
        (decideFor emergencyStop c request).effect = effect := by
  unfold Answers evaluate describe
  cases find request.capability with
  | none => simp [Except.map]
  | some c => simp [Except.map]

/-! ## The gates -/

/-- The gates that deny before any grant is looked at. -/
structure Passes (emergencyStop : Bool) (c : CapabilityDefinition) (session : AgentSession)
    (input : Json) (environment : AgentEnvironment) : Prop where
  running : ¬ (emergencyStop = true ∧ c.access ≠ .read)
  enabled : c.enabled = true
  active : session.status = .active
  in_scope : scopeDenial session c input environment = none
  not_denied : permits session.permissions.deny c.id = false
  can_spend : ¬ (c.id = "server.provision" ∧
    (JsNum.ofField session.limits.maxProviderSpendEur).le 0 = true)

/-- The approved-plan grant of a session covers the capability. -/
def planGrant (session : AgentSession) (capability : String) : Bool :=
  permits session.permissions.allowWithinApprovedPlan capability ||
    permits session.permissions.requireApproval capability

variable {emergencyStop : Bool} {c : CapabilityDefinition} {request : PolicyRequest}

/-- Behind the gates the decision depends on the grants alone. -/
theorem decideFor_of_passes
    (h : Passes emergencyStop c request.session request.input request.environment) :
    (decideFor emergencyStop c request).effect =
      if permits request.session.permissions.allow c.id then .allow
      else if approvedFor request.session request.approvedPlan ∧
        planGrant request.session c.id = true then .allow
      else if planGrant request.session c.id = true ∨
        c.approvalDefaults.get request.environment ≠ .session_grant then .approval_required
      else .deny := by
  obtain ⟨h1, h2, h3, h4, h5, h6⟩ := h
  unfold decideFor
  simp only [h1, h2, h3, h4, h5, h6, if_false, Bool.not_true, Bool.false_eq_true, ne_eq,
    not_true_eq_false]
  by_cases ha : permits request.session.permissions.allow c.id = true
  · by_cases hr : c.risk = .read_only <;> simp [ha, hr]
  · by_cases hp : approvedFor request.session request.approvedPlan = true <;>
      by_cases hw : permits request.session.permissions.allowWithinApprovedPlan c.id = true <;>
      by_cases hq : permits request.session.permissions.requireApproval c.id = true <;>
      by_cases hd : c.approvalDefaults.get request.environment = .session_grant <;>
      simp [ha, hp, hw, hq, hd, planGrant]

/-- A request that is not denied has passed the gates. -/
theorem passes_of_not_deny (h : (decideFor emergencyStop c request).effect ≠ .deny) :
    Passes emergencyStop c request.session request.input request.environment := by
  unfold decideFor at h
  by_cases h1 : emergencyStop = true ∧ c.access ≠ .read
  · simp [h1] at h
  by_cases h2 : c.enabled = true
  swap
  · simp [h1, h2] at h
  by_cases h3 : request.session.status = .active
  swap
  · simp [h1, h2, h3] at h
  cases h4 : scopeDenial request.session c request.input request.environment with
  | some outOfScope => simp [h1, h2, h3, h4] at h
  | none =>
      by_cases h5 : permits request.session.permissions.deny c.id = true
      · simp [h1, h2, h3, h4, h5] at h
      by_cases h6 : c.id = "server.provision" ∧
          (JsNum.ofField request.session.limits.maxProviderSpendEur).le 0 = true
      · refine absurd ?_ h
        simp only [h1, h2, h3, h4, h5, if_false, Bool.not_true, ne_eq, not_true_eq_false,
          Bool.false_eq_true]
        rw [if_pos h6]
      exact ⟨h1, h2, h3, h4, by simpa using h5, h6⟩

end Vops.PolicyEngine
