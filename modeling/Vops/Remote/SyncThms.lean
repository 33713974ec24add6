import Vops.Remote.RemoteSync
import Vops.Lib.Window

/-!
# What a snapshot shows of other hosts

* `planHosts`, `approvalHosts`, `operationHosts` — the hosts that a record names.
* `Elsewhere` — a record names hosts, and only ones outside the targets of a device.
* `AgreeOutside` — two control nodes that differ in such records only.
* `SameView`, `HostsInScope` — what is expected of two snapshots, and of one.
* `SameElsewhere`, `StepsInScope`, `snapshot_scope_iff` — that is so exactly when the first fifty rows
  agree where they are about other hosts, and no plan that is shown has a step for another host.
-/

namespace Vops.RemoteSync

open PolicyEngine (targetFrom)

/-! ## The hosts a record names -/

/-- The hosts that the steps of a plan name. -/
def stepHosts (plan : AgentPlan) : List String := plan.steps.filterMap fun s => targetFrom s.input

/-- The hosts that a plan names: its label and its steps. -/
def planHosts (plan : AgentPlan) : List String := (unlessEmpty plan.target).toList ++ stepHosts plan

/-- The hosts that an approval names: its label and its plan. -/
def approvalHosts (n : ControlNode) (a : AgentApproval) : List String :=
  (unlessEmpty a.target).toList ++ ((n.planOf a).map planHosts).getD []

/-- The hosts that an operation names: those of its plan, or of the session it belongs to. -/
def operationHosts (n : ControlNode) (o : AgentOperation) : List String :=
  match Table.get AgentPlan.id o.planId n.plans with
  | some plan => planHosts plan
  | none => ((Table.get (fun e => e.1.id) o.sessionId n.sessions).map fun e => e.1.scope.targets).getD []

/-- Hosts are named, and all of them are outside the targets. -/
def elsewhere (targets names : List String) : Bool := names ≠ [] && names.all fun h => h ∉ targets

/-- Two control nodes that agree on everything but records about hosts outside the targets. -/
structure AgreeOutside (targets : List String) (n n' : ControlNode) : Prop where
  now : n.now = n'.now
  emergencyStop : n.emergencyStop = n'.emergencyStop
  devices : n.devices = n'.devices
  conversations : n.conversations = n'.conversations
  intents : n.intents = n'.intents
  agentProviders : n.agentProviders = n'.agentProviders
  policy : n.policy = n'.policy
  hosts : n.hosts.filter (fun h => !elsewhere targets [h.name]) =
    n'.hosts.filter fun h => !elsewhere targets [h.name]
  applications : n.applications.filter (fun a => !elsewhere targets [a.host]) =
    n'.applications.filter fun a => !elsewhere targets [a.host]
  plans : n.plans.filter (fun p => !elsewhere targets (planHosts p)) =
    n'.plans.filter fun p => !elsewhere targets (planHosts p)
  approvals : n.approvals.filter (fun e => !elsewhere targets (approvalHosts n e.1)) =
    n'.approvals.filter fun e => !elsewhere targets (approvalHosts n' e.1)
  operations : n.operations.filter (fun e => !elsewhere targets (operationHosts n e.1)) =
    n'.operations.filter fun e => !elsewhere targets (operationHosts n' e.1)
  sessions : n.sessions.filter (fun e => !elsewhere targets e.1.scope.targets) =
    n'.sessions.filter fun e => !elsewhere targets e.1.scope.targets

/-! ## What is expected -/

/-- Two snapshots show the same approvals, operations, targets, applications and agent sessions. -/
structure SameView (v v' : RemoteSyncSnapshot) : Prop where
  approvals : v.approvals = v'.approvals
  operations : v.operations = v'.operations
  targets : v.targets = v'.targets
  applications : v.applications = v'.applications
  agentSessions : v.agentSessions = v'.agentSessions

/-- Every host that a snapshot names as a target or in a step of a plan is one of the targets. -/
structure HostsInScope (allowed : List String) (v : RemoteSyncSnapshot) : Prop where
  targets : ∀ t ∈ v.targets, t.name ∈ allowed
  steps : ∀ a ∈ v.approvals, ∀ plan ∈ a.plan, ∀ step ∈ plan.steps, ∀ h ∈ targetFrom step.input,
    h ∈ allowed

/-! ## When it is so -/

/-- The approvals without a label, or with one of the targets as their label. -/
def labelled (targets : List String) (n : ControlNode) : List (AgentApproval × ℤ) :=
  n.approvals.filter fun e => inScope targets e.1.target

/-- The approval, or the plan it is for, is about other hosts. -/
def approvalElsewhere (targets : List String) (n : ControlNode) (e : AgentApproval × ℤ) : Bool :=
  elsewhere targets (approvalHosts n e.1) || (n.planOf e.1).any fun p => elsewhere targets (planHosts p)

/-- Wherever one of the first fifty sessions, operations or labelled approvals of either node is about
other hosts, the other node has a row there that looks the same. -/
structure SameElsewhere (targets : List String) (n n' : ControlNode) : Prop where
  sessions : ∀ i < 50, n.listed[i]?.any (fun e => elsewhere targets e.1.scope.targets) = true ∨
      n'.listed[i]?.any (fun e => elsewhere targets e.1.scope.targets) = true →
    n.listed[i]?.map sessionView = n'.listed[i]?.map sessionView
  operations : ∀ i < 50, n.operations[i]?.any (fun e => elsewhere targets (operationHosts n e.1)) = true ∨
      n'.operations[i]?.any (fun e => elsewhere targets (operationHosts n' e.1)) = true →
    n.operations[i]?.map operationView = n'.operations[i]?.map operationView
  approvals : ∀ i < 50, (labelled targets n)[i]?.any (approvalElsewhere targets n) = true ∨
      (labelled targets n')[i]?.any (approvalElsewhere targets n') = true →
    (labelled targets n)[i]?.map (approvalView n) = (labelled targets n')[i]?.map (approvalView n')

/-- The plans of the first fifty labelled approvals have steps for the targets only. -/
def StepsInScope (targets : List String) (n : ControlNode) : Prop :=
  ∀ e ∈ (labelled targets n).take 50, ∀ plan ∈ n.planOf e.1, ∀ h ∈ stepHosts plan, h ∈ targets

variable {targets : List String} {n n' : ControlNode} {device : RemoteDevice}

/-! ## Hosts and applications -/

/-- A host that is shown is one of the targets. -/
theorem inScope_iff {name : String} (htargets : targets ≠ []) (hname : name ≠ "") :
    inScope targets (some name) = true ↔ name ∈ targets := by
  simp [inScope, unlessEmpty, htargets, hname]

/-- A named host is shown exactly when it is not elsewhere. -/
theorem inScope_eq {name : String} (htargets : targets ≠ []) (hname : name ≠ "") :
    inScope targets (some name) = !elsewhere targets [name] := by
  rw [Bool.eq_iff_iff, inScope_iff htargets hname]
  simp [elsewhere]

/-- The hosts and the applications that are shown are the same. -/
theorem shown_hosts (htargets : device.restrictions.targets ≠ [])
    (h : AgreeOutside device.restrictions.targets n n') (r : String) :
    (snapshot n device r).targets = (snapshot n' device r).targets ∧
      (snapshot n device r).applications = (snapshot n' device r).applications := by
  have hhosts (m : ControlNode) : (m.hosts.filter fun h =>
      inScope device.restrictions.targets (some h.name)) =
        m.hosts.filter fun h => !elsewhere device.restrictions.targets [h.name] :=
    List.filter_congr fun h hh => inScope_eq htargets (m.hostsNamed h hh)
  have happs (m : ControlNode) : (m.applications.filter fun a =>
      inScope device.restrictions.targets (some a.host)) =
        m.applications.filter fun a => !elsewhere device.restrictions.targets [a.host] :=
    List.filter_congr fun a ha => inScope_eq htargets (m.applicationsNamed a ha)
  constructor
  · unfold snapshot
    dsimp only
    rw [hhosts, hhosts, h.hosts]
  · unfold snapshot
    dsimp only
    rw [happs, happs, h.applications]

/-! ## Sessions and operations -/

theorem expireDue_id (now : ℤ) (e : AgentSession × ℤ) : (expireDue now e).1.id = e.1.id := by
  unfold expireDue
  split <;> rfl

theorem expireDue_scope (now : ℤ) (e : AgentSession × ℤ) : (expireDue now e).1.scope = e.1.scope := by
  unfold expireDue
  split <;> rfl

/-- The sessions that are listed are those that are stored, due or not. -/
theorem twins_listed (h : AgreeOutside targets n n') :
    Window.Twins (fun e : AgentSession × ℤ => e.1.id) (fun e => !elsewhere targets e.1.scope.targets)
      (fun e => !elsewhere targets e.1.scope.targets) n.listed n'.listed := by
  have hkeys (m : ControlNode) : (m.listed.map fun e => e.1.id).Nodup := by
    have hids : (m.listed.map fun e => e.1.id) = m.sessions.map fun e => e.1.id := by
      unfold ControlNode.listed
      rw [List.map_map]
      exact List.map_congr_left fun e _ => expireDue_id m.now e
    rw [hids]
    exact m.sessionsKeyed
  refine ⟨hkeys n, hkeys n', ?_⟩
  unfold ControlNode.listed
  rw [List.filter_map, List.filter_map]
  simp only [Function.comp_def, expireDue_scope]
  rw [h.sessions, h.now]

/-- The sessions that are shown. -/
theorem sessions_iff (h : AgreeOutside device.restrictions.targets n n') (r : String) :
    (snapshot n device r).agentSessions = (snapshot n' device r).agentSessions ↔
      ∀ i < 50, n.listed[i]?.any (fun e => elsewhere device.restrictions.targets e.1.scope.targets) = true ∨
        n'.listed[i]?.any (fun e => elsewhere device.restrictions.targets e.1.scope.targets) = true →
      n.listed[i]?.map sessionView = n'.listed[i]?.map sessionView := by
  unfold snapshot
  dsimp only
  rw [List.map_take, List.map_take]
  exact Window.take_map_eq_iff 50 (twins_listed h) (fun _ _ he => by rw [he]; rfl)
    (fun _ _ he => by rw [he]; rfl) (fun _ _ hview => (SessionView.mk.inj hview).1) fun _ _ _ _ _ => rfl

/-- The operations that are shown. -/
theorem operations_iff (h : AgreeOutside device.restrictions.targets n n') (r : String) :
    (snapshot n device r).operations = (snapshot n' device r).operations ↔
      ∀ i < 50,
        n.operations[i]?.any (fun e => elsewhere device.restrictions.targets (operationHosts n e.1)) = true ∨
        n'.operations[i]?.any (fun e => elsewhere device.restrictions.targets (operationHosts n' e.1)) = true →
      n.operations[i]?.map operationView = n'.operations[i]?.map operationView := by
  unfold snapshot
  dsimp only
  rw [List.map_take, List.map_take]
  exact Window.take_map_eq_iff 50 ⟨n.operationsKeyed, n'.operationsKeyed, h.operations⟩
    (fun _ _ he => by rw [he]; rfl) (fun _ _ he => by rw [he]; rfl)
    (fun _ _ hview => (OperationView.mk.inj hview).1) fun _ _ _ _ _ => rfl

/-! ## Approvals -/

/-- A plan that is not about other hosts is found in both nodes. -/
theorem get_plan_of (h : AgreeOutside targets n n') {id : ℕ} {plan : AgentPlan}
    (hget : Table.get AgentPlan.id id n.plans = some plan)
    (hplan : elsewhere targets (planHosts plan) = false) :
    Table.get AgentPlan.id id n'.plans = some plan := by
  have hmem : plan ∈ n'.plans := by
    refine List.mem_of_mem_filter (h.plans ▸ List.mem_filter.mpr ⟨Table.mem_of_get hget, ?_⟩)
    rw [hplan]
    rfl
  rw [← Table.key_of_get hget]
  exact n'.plansKeyed.get_eq hmem

theorem AgreeOutside.symm (h : AgreeOutside targets n n') : AgreeOutside targets n' n :=
  ⟨h.now.symm, h.emergencyStop.symm, h.devices.symm, h.conversations.symm, h.intents.symm,
    h.agentProviders.symm, h.policy.symm, h.hosts.symm, h.applications.symm, h.plans.symm,
    h.approvals.symm, h.operations.symm, h.sessions.symm⟩

/-- An approval whose plan is not about other hosts in either node is for the same plan. -/
theorem planOf_eq (h : AgreeOutside targets n n') {a : AgentApproval}
    (hn : (n.planOf a).any (fun p => elsewhere targets (planHosts p)) = false)
    (hn' : (n'.planOf a).any (fun p => elsewhere targets (planHosts p)) = false) :
    n.planOf a = n'.planOf a := by
  unfold ControlNode.planOf at hn hn' ⊢
  cases hid : a.planId with
  | none => rfl
  | some id =>
      rw [hid, Option.bind_some] at hn hn'
      rw [Option.bind_some, Option.bind_some]
      cases hget : Table.get AgentPlan.id id n.plans with
      | some plan =>
          rw [hget, Option.any_some] at hn
          exact (get_plan_of h hget hn).symm
      | none =>
          cases hget' : Table.get AgentPlan.id id n'.plans with
          | none => rfl
          | some plan =>
              rw [hget', Option.any_some] at hn'
              cases hget.symm.trans (get_plan_of h.symm hget' hn')

/-- The approvals that are shown. -/
theorem approvals_iff (h : AgreeOutside device.restrictions.targets n n') (r : String) :
    (snapshot n device r).approvals = (snapshot n' device r).approvals ↔
      ∀ i < 50,
        (labelled device.restrictions.targets n)[i]?.any
            (approvalElsewhere device.restrictions.targets n) = true ∨
          (labelled device.restrictions.targets n')[i]?.any
            (approvalElsewhere device.restrictions.targets n') = true →
        (labelled device.restrictions.targets n)[i]?.map (approvalView n) =
          (labelled device.restrictions.targets n')[i]?.map (approvalView n') := by
  have htwins : Window.Twins (fun e : AgentApproval × ℤ => e.1.id)
      (fun e => !elsewhere device.restrictions.targets (approvalHosts n e.1))
      (fun e => !elsewhere device.restrictions.targets (approvalHosts n' e.1))
      (labelled device.restrictions.targets n) (labelled device.restrictions.targets n') := by
    have hkeys (m : ControlNode) : ((labelled device.restrictions.targets m).map fun e => e.1.id).Nodup :=
      m.approvalsKeyed.sublist (List.filter_sublist.map _)
    refine ⟨hkeys n, hkeys n', ?_⟩
    unfold labelled
    rw [List.filter_comm, h.approvals, List.filter_comm]
  have hkept (m : ControlNode) (e : AgentApproval × ℤ)
      (he : approvalElsewhere device.restrictions.targets m e = false) :
      (!elsewhere device.restrictions.targets (approvalHosts m e.1)) = true := by
    rw [(Bool.or_eq_false_iff.mp he).1]
    rfl
  unfold snapshot
  dsimp only
  rw [List.map_take, List.map_take]
  refine Window.take_map_eq_iff 50 htwins (fun e _ => hkept n e) (fun e _ => hkept n' e)
    (fun _ _ hview => congrArg ApprovalView.id hview) ?_
  intro e _ _ he he'
  unfold approvalView
  rw [planOf_eq h (Bool.or_eq_false_iff.mp he).2 (Bool.or_eq_false_iff.mp he').2]

/-! ## Steps -/

/-- The hosts that a snapshot names are targets exactly when the plans that are shown have steps for
targets only. -/
theorem hostsInScope_iff (htargets : device.restrictions.targets ≠ []) (n : ControlNode) (r : String) :
    HostsInScope device.restrictions.targets (snapshot n device r) ↔
      StepsInScope device.restrictions.targets n := by
  constructor
  · intro h e he plan hplan host hhost
    obtain ⟨step, hstep, htarget⟩ := List.mem_filterMap.mp hhost
    refine h.steps (approvalView n e) (List.mem_map_of_mem he) (approvalPlan plan) ?_
      ⟨step.id, step.capability, step.input, step.risk⟩ (List.mem_map_of_mem hstep) host htarget
    exact Option.mem_map_of_mem approvalPlan hplan
  · intro h
    constructor
    · intro t ht
      obtain ⟨host, hhost, rfl⟩ := List.mem_map.mp ht
      obtain ⟨hmem, hscope⟩ := List.mem_filter.mp hhost
      exact (inScope_iff htargets (n.hostsNamed host hmem)).mp hscope
    · intro a ha plan hplan step hstep host hhost
      obtain ⟨e, he, rfl⟩ := List.mem_map.mp ha
      obtain ⟨p, hp, rfl⟩ := Option.mem_map.mp hplan
      obtain ⟨s, hs, rfl⟩ := List.mem_map.mp hstep
      exact h e he p hp host (List.mem_filterMap.mpr ⟨s, hs, hhost⟩)

/-- A device with targets is shown the same of two nodes that differ elsewhere only, and no other host,
exactly when the first fifty rows of the two agree where they are about other hosts and no plan that is
shown has a step for another host. -/
theorem snapshot_scope_iff (device : RemoteDevice) (htargets : device.restrictions.targets ≠ [])
    (n n' : ControlNode) (h : AgreeOutside device.restrictions.targets n n') (r : String) :
    SameView (snapshot n device r) (snapshot n' device r) ∧
        HostsInScope device.restrictions.targets (snapshot n device r) ∧
        HostsInScope device.restrictions.targets (snapshot n' device r) ↔
      SameElsewhere device.restrictions.targets n n' ∧ StepsInScope device.restrictions.targets n ∧
        StepsInScope device.restrictions.targets n' := by
  rw [hostsInScope_iff htargets, hostsInScope_iff htargets]
  refine and_congr_left fun _ => ?_
  obtain ⟨hhosts, happlications⟩ := shown_hosts htargets h r
  constructor
  · rintro ⟨happrovals, hoperations, -, -, hsessions⟩
    exact ⟨(sessions_iff h r).mp hsessions, (operations_iff h r).mp hoperations,
      (approvals_iff h r).mp happrovals⟩
  · rintro ⟨hsessions, hoperations, happrovals⟩
    exact ⟨(approvals_iff h r).mpr happrovals, (operations_iff h r).mpr hoperations, hhosts, happlications,
      (sessions_iff h r).mpr hsessions⟩

/-! ## A device for one host -/

/-- A device that may see `web` only. -/
def webDevice : RemoteDevice where
  id := "device_web"
  routeId := "route_web"
  label := "Phone"
  role := .viewer
  status := .active
  signingPublicKey := ""
  exchangePublicKey := ""
  keyId := ""
  restrictions := ⟨[], ["web"], [], .read_only, [], 0, .invalid⟩
  pairedAt := 0
  updatedAt := 0
  lastSeenAt := none
  revokedAt := none
  suspendedAt := none

/-- A control node with some hosts and sessions. -/
def nodeOf (hosts : List HostRow) (sessions : List (AgentSession × ℤ))
    (hnamed : ∀ h ∈ hosts, h.name ≠ "") (hkeyed : (sessions.map fun e => e.1.id).Nodup) : ControlNode where
  now := 0
  emergencyStop := false
  sessions := sessions
  approvals := []
  plans := []
  operations := []
  devices := [webDevice]
  applications := []
  conversations := []
  intents := []
  agentProviders := []
  policy := ⟨"codex", [], true⟩
  hosts := hosts
  sessionsKeyed := hkeyed
  approvalsKeyed := List.nodup_nil
  plansKeyed := List.nodup_nil
  operationsKeyed := List.nodup_nil
  hostsNamed := hnamed
  applicationsNamed := fun _ h => absurd h List.not_mem_nil

/-- A node with the host `web`. -/
def webNode : ControlNode := nodeOf [⟨"web", none⟩] [] (by decide) List.nodup_nil

/-- The same node, with another host. -/
def twoHosts : ControlNode := nodeOf [⟨"web", none⟩, ⟨"demo", none⟩] [] (by decide) List.nodup_nil

/-- The same node, with an agent at work on another host. -/
def demoSession : ControlNode := nodeOf [⟨"web", none⟩] [(sampleSession, 0)] (by decide) (by decide)

/-- Another host is not seen. -/
theorem twoHosts_hidden : SameView (snapshot webNode webDevice "r") (snapshot twoHosts webDevice "r") ∧
    HostsInScope ["web"] (snapshot webNode webDevice "r") ∧
    HostsInScope ["web"] (snapshot twoHosts webDevice "r") := by
  have hsteps (n : ControlNode) (hnone : n.approvals = []) : StepsInScope ["web"] n := by
    intro e he
    unfold labelled at he
    rw [hnone] at he
    cases he
  refine (snapshot_scope_iff webDevice (by decide) webNode twoHosts ?_ "r").mpr
    ⟨⟨fun _ _ _ => rfl, fun _ _ _ => rfl, fun _ _ _ => rfl⟩, hsteps _ rfl, hsteps _ rfl⟩
  exact ⟨rfl, rfl, rfl, rfl, rfl, rfl, rfl, by decide, rfl, rfl, rfl, rfl, rfl⟩

/-- An agent that works on another host is seen. -/
theorem demoSession_seen : AgreeOutside ["web"] webNode demoSession ∧
    ¬SameView (snapshot webNode webDevice "r") (snapshot demoSession webDevice "r") := by
  constructor
  · exact ⟨rfl, rfl, rfl, rfl, rfl, rfl, rfl, rfl, rfl, rfl, rfl, rfl, by decide⟩
  · intro h
    exact absurd h.agentSessions (by decide)

end Vops.RemoteSync
