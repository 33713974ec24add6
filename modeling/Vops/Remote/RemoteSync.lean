import Vops.Remote.IntentService

/-!
# What a device is shown (`remote/remote-sync.service.ts`)

* `ControlNode` — what the services list when a snapshot is made.
* `RemoteSyncSnapshot`, `snapshot` — what a device receives.

A time is what `Date.parse` makes of it. Of a conversation and of an app the fields that are read are
modelled; the providers of agents are shown as they are reported.
-/

namespace Vops.RemoteSync

open IntentService (publicIntent)

/-! ## The control node -/

/-- `RemoteConversation` -/
structure RemoteConversation where
  id : String
  deviceId : String
  title : String
  status : String
  agentProvider : String
  updatedAt : ℤ
deriving DecidableEq

/-- `AppInstallSummary` -/
structure AppInstallSummary where
  name : String
  host : String
  status : String
deriving DecidableEq

/-- `VopsHost` -/
structure HostRow where
  name : String
  provider : Option String
deriving DecidableEq

/-- The policy for agents. -/
structure AgentPolicy where
  defaultProvider : String
  fallbackOrder : List String
  deterministicFallback : Bool
deriving DecidableEq

/-- What is stored on the control node, each table in the order in which it is listed; a session, an
approval and an operation with its time. Rows have ids of their own, and hosts have names. -/
structure ControlNode where
  now : ℤ
  emergencyStop : Bool
  sessions : List (AgentSession × ℤ)
  approvals : List (AgentApproval × ℤ)
  plans : List AgentPlan
  operations : List (AgentOperation × ℤ)
  devices : List RemoteDevice
  applications : List AppInstallSummary
  conversations : List RemoteConversation
  intents : List RemoteIntent
  agentProviders : List Json
  policy : AgentPolicy
  hosts : List HostRow
  sessionsKeyed : (sessions.map fun e => e.1.id).Nodup
  approvalsKeyed : (approvals.map fun e => e.1.id).Nodup
  plansKeyed : Table.Keyed AgentPlan.id plans
  operationsKeyed : (operations.map fun e => e.1.id).Nodup
  hostsNamed : ∀ h ∈ hosts, h.name ≠ ""
  applicationsNamed : ∀ a ∈ applications, a.host ≠ ""

/-- A session that is listed: one that is due has expired. -/
def expireDue (now : ℤ) (e : AgentSession × ℤ) : AgentSession × ℤ :=
  if e.1.status = .active ∧ e.1.limits.expiresAt ≤ now then ({ e.1 with status := .expired }, now) else e

/-- `sessions.list()` -/
def ControlNode.listed (n : ControlNode) : List (AgentSession × ℤ) := n.sessions.map (expireDue n.now)

/-- `plans.find((plan) => plan.id === entry.planId)` -/
def ControlNode.planOf (n : ControlNode) (approval : AgentApproval) : Option AgentPlan :=
  approval.planId.bind fun id => Table.get AgentPlan.id id n.plans

/-! ## The snapshot -/

/-- An element of `agent_sessions`. -/
structure SessionView where
  id : ℕ
  version : ℤ
  displayName : String
  objective : String
  status : AgentSessionStatus
  project : String
  expiresAt : ℤ
deriving DecidableEq

/-- A step of a plan that is shown. -/
structure StepView where
  id : String
  capability : String
  input : Json
  risk : CapabilityRisk

/-- The `plan` of an approval that is shown. -/
structure PlanView where
  id : ℕ
  hash : String
  objective : String
  sessionId : ℕ
  steps : List StepView
  expectedEffects : List String
  excludedEffects : List String
  rollback : AgentRollback

/-- An element of `approvals`. -/
structure ApprovalView where
  id : ℕ
  version : ℤ
  status : ApprovalStatus
  reason : String
  risk : CapabilityRisk
  target : Option String
  environment : Option AgentEnvironment
  expiresAt : ℤ
  plan : Option PlanView

/-- An element of `operations`. -/
structure OperationView where
  id : ℕ
  version : ℤ
  state : AgentOperationState
  capability : Option String
  updatedAt : ℤ
  rollbackAvailable : Bool
deriving DecidableEq

/-- An element of `targets`. -/
structure TargetView where
  name : String
  provider : Option String
deriving DecidableEq

/-- An element of `applications`. -/
structure ApplicationView where
  name : String
  status : Option String
  target : String
deriving DecidableEq

/-- An element of `conversations`. -/
structure ConversationView where
  id : String
  title : String
  status : String
  provider : String
  updatedAt : ℤ
deriving DecidableEq

/-- `RemoteSyncSnapshot` -/
structure RemoteSyncSnapshot where
  requestId : String
  generatedAt : ℤ
  emergencyStop : Bool
  activeDevices : ℕ
  activeAgents : ℕ
  pausedAgents : ℕ
  agentProviders : List Json
  agentPolicy : AgentPolicy
  agentSessions : List SessionView
  approvals : List ApprovalView
  operations : List OperationView
  targets : List TargetView
  applications : List ApplicationView
  conversations : List ConversationView
  intents : List Json

/-- A text that is left out when it is empty. -/
def unlessEmpty (text : Option String) : Option String := text.filter (· ≠ "")

/-- A session as it is shown. -/
def sessionView (e : AgentSession × ℤ) : SessionView :=
  ⟨e.1.id, e.2, e.1.actor.displayName, e.1.objective, e.1.status, e.1.repository.name, e.1.limits.expiresAt⟩

/-- `approvalPlan` -/
def approvalPlan (plan : AgentPlan) : PlanView where
  id := plan.id
  hash := plan.hash
  objective := plan.objective
  sessionId := plan.sessionId
  steps := plan.steps.map fun s => ⟨s.id, s.capability, s.input, s.risk⟩
  expectedEffects := plan.estimatedEffects
  excludedEffects := plan.excludedEffects
  rollback := plan.rollback

/-- An approval as it is shown, with its plan. -/
def approvalView (n : ControlNode) (e : AgentApproval × ℤ) : ApprovalView where
  id := e.1.id
  version := e.2
  status := e.1.status
  reason := e.1.reason
  risk := e.1.risk
  target := unlessEmpty e.1.target
  environment := e.1.environment
  expiresAt := e.1.expiresAt
  plan := (n.planOf e.1).map approvalPlan

/-- An operation as it is shown. -/
def operationView (e : AgentOperation × ℤ) : OperationView :=
  ⟨e.1.id, e.2, e.1.state, unlessEmpty e.1.capability, e.2, e.1.rollbackAvailable⟩

/-- `inScope` -/
def inScope (targets : List String) (target : Option String) : Bool :=
  targets = [] || ((unlessEmpty target).all fun t => t ∈ targets)

/-- `snapshot` -/
def snapshot (n : ControlNode) (device : RemoteDevice) (requestId : String) : RemoteSyncSnapshot :=
  let targets := device.restrictions.targets
  { requestId := requestId
    generatedAt := n.now
    emergencyStop := n.emergencyStop
    activeDevices := n.devices.countP fun d => d.status = .active
    activeAgents := n.listed.countP fun e => e.1.status = .active
    pausedAgents := n.listed.countP fun e => e.1.status = .paused
    agentProviders := n.agentProviders
    agentPolicy := n.policy
    agentSessions := (n.listed.take 50).map sessionView
    approvals := ((n.approvals.filter fun e => inScope targets e.1.target).take 50).map (approvalView n)
    operations := (n.operations.take 50).map operationView
    targets := (n.hosts.filter fun h => inScope targets (some h.name)).map fun h =>
      ⟨h.name, unlessEmpty h.provider⟩
    applications := (n.applications.filter fun a => inScope targets (some a.host)).map fun a =>
      ⟨a.name, unlessEmpty (some a.status), a.host⟩
    conversations := (n.conversations.filter fun c => c.deviceId == device.id).map fun c =>
      ⟨c.id, c.title, c.status, c.agentProvider, c.updatedAt⟩
    intents := (n.intents.filter fun i => i.deviceId == device.id).map publicIntent }

end Vops.RemoteSync
