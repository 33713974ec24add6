import Vops.Remote.RemoteCommandHandler

/-!
# What a remote approval is about

`decideApproval` compares the plan's label, its environment and the risk of the approval with the device's
grant. The effects are in the inputs of the steps.

* `InGrant` — every host that a step names, the environment and every step's risk are within the grant.
* `Approves` — `decideApproval` answers with the approved approval of the plan.
* `planToDecide_ok` — what it has required when it looks at the decision.
* `approved_in_grant_iff` — an approved plan is within the grant exactly when its steps name no other host
  than the label, or one of the grant, and the approval has the risk of its steps.
* `requestForPlan_risk` — the approvals that are made for a plan have the risk of its steps.
-/

namespace Vops.RemoteCommandHandler

open Async

/-! ## The grant -/

/-- The hosts that the input of a step names, under `target` or `host`. -/
def namedHosts (input : Json) : List String :=
  (["target", "host"].filterMap fun key => (input.get? key).bind Json.str?).filter (· ≠ "")

/-- The plan is within the device's grant. -/
def InGrant (device : RemoteDevice) (plan : AgentPlan) : Prop :=
  (device.restrictions.targets ≠ [] → ∀ step ∈ plan.steps, ∀ host ∈ namedHosts step.input,
    host ∈ device.restrictions.targets) ∧
  plan.environment ∈ device.restrictions.environments ∧
  ∀ step ∈ plan.steps, riskRank step.risk ≤ riskRank device.restrictions.maxRisk

/-- The host is the label of the plan, or the device is granted it. -/
def Labelled (device : RemoteDevice) (plan : AgentPlan) (host : String) : Prop :=
  plan.target = some host ∨ host ∈ device.restrictions.targets

/-- `decideApproval` answers with `approval`, which is approved, and is about `plan`. -/
structure Approves (env : RemoteEnv) (w : RemoteWorld) (device : RemoteDevice)
    (payload : SignedRemoteCommandPayload) (approval : AgentApproval) (plan : AgentPlan) : Prop where
  answers : (run (remoteHandle env) (decideApproval device payload) w).1 = .ok (.approval approval)
  approved : approval.status = .approved
  about : ∃ planId, approval.planId = some planId ∧ w.agent.plan planId = some plan

/-- What `requireDeviceScope` has compared. -/
theorem requireDeviceScope_ok {device : RemoteDevice} {target : Option String}
    {environment : AgentEnvironment} {risk : CapabilityRisk}
    (h : requireDeviceScope device target environment risk = .ok ()) :
    (∀ t, target = some t → t ≠ "" → device.restrictions.targets ≠ [] →
      t ∈ device.restrictions.targets) ∧
    environment ∈ device.restrictions.environments ∧
    riskRank risk ≤ riskRank device.restrictions.maxRisk := by
  unfold requireDeviceScope at h
  split at h
  · cases h
  next htarget =>
    split at h
    · cases h
    next henv =>
      split at h
      · cases h
      next hrisk =>
        refine ⟨?_, not_not.mp henv, not_lt.mp hrisk⟩
        rintro t rfl ht hne
        simpa [ht, hne] using htarget

/-! ## What is read -/

section Reads

variable {env : RemoteEnv} {w w' : RemoteWorld} {device : RemoteDevice}
  {payload : SignedRemoteCommandPayload} {approval : AgentApproval} {plan : AgentPlan}

/-- A refusal does not end in a value. -/
theorem run_throwCommand {α : Type} {code message : String} {a : α} :
    run (remoteHandle env) (throwCommand code message : RemoteProg α) w ≠ (.ok a, w') := by
  rintro ⟨⟩

theorem requireVersion_ok {version : JsNum}
    (h : run (remoteHandle env) (requireVersion payload version) w = (.ok (), w')) : w' = w := by
  unfold requireVersion at h
  split at h
  · exact absurd h run_throwCommand
  · exact (congrArg Prod.snd h).symm

/-- `PlanEngine.get` answers with the stored plan and changes nothing. -/
theorem get_ok {envA : Env} {v v' : World} {id : ℕ} {p : AgentPlan}
    (h : run (Vops.handle envA) (PlanEngine.get id) v = (.ok p, v')) : v.plan id = some p ∧ v' = v := by
  have hplan : Vops.handle envA (.getPlan id) v = (v.plan id, v) := rfl
  simp only [PlanEngine.get, perform_bind, run_await, hplan] at h
  cases hp : v.plan id with
  | none =>
      rw [hp] at h
      cases h
  | some p' =>
      rw [hp] at h
      obtain ⟨⟨⟩, rfl⟩ := Prod.mk.inj h
      exact ⟨rfl, rfl⟩

/-- `PlanEngine.validate` changes nothing. -/
theorem validate_ok {envA : Env} {v v' : World} {p : AgentPlan}
    {result : PlanEngine.PlanValidationResult}
    (h : run (Vops.handle envA) (PlanEngine.validate p) v = (.ok result, v')) : v' = v :=
  (congrArg Prod.snd h).symm

/-- The plan that is decided about is the stored plan of the approval, and has passed
`requireDeviceScope`; nothing has been written. -/
theorem planToDecide_ok
    (h : run (remoteHandle env) (planToDecide device payload approval) w = (.ok plan, w')) :
    (∃ planId, approval.planId = some planId ∧ w.agent.plan planId = some plan) ∧
      requireDeviceScope device plan.target plan.environment approval.risk = .ok () ∧
      w'.agent.approvals = w.agent.approvals := by
  unfold planToDecide at h
  obtain ⟨requestedAt, w₁, hw₁, g⟩ := run_bind_eq_ok.mp h
  obtain rfl : w₁ = w.drawn := (congrArg Prod.snd hw₁).symm
  obtain ⟨⟨⟩, w₂, hw₂, g₂⟩ := run_bind_eq_ok.mp g
  obtain rfl := requireVersion_ok hw₂
  split at g₂
  · exact absurd g₂ run_throwCommand
  obtain ⟨now, w₃, hw₃, g₃⟩ := run_bind_eq_ok.mp g₂
  obtain rfl : w₃ = { w.drawn with agent := w.agent.drawn } := (congrArg Prod.snd hw₃).symm
  split at g₃
  · exact absurd g₃ run_throwCommand
  split at g₃
  · exact absurd g₃ run_throwCommand
  split at g₃
  next planId planHash hid hhash =>
    obtain ⟨plan', w₄, hw₄, g₄⟩ := run_bind_eq_ok.mp g₃
    obtain ⟨agent, hget, rfl⟩ := run_lift_eq_ok.mp hw₄
    obtain ⟨hplan, rfl⟩ := get_ok hget
    split at g₄
    · exact absurd g₄ run_throwCommand
    obtain ⟨validation, w₅, hw₅, g₅⟩ := run_bind_eq_ok.mp g₄
    obtain ⟨agent, hvalidate, rfl⟩ := run_lift_eq_ok.mp hw₅
    obtain rfl := validate_ok hvalidate
    split at g₅
    · exact absurd g₅ run_throwCommand
    obtain ⟨⟨⟩, w₆, hw₆, g₆⟩ := run_bind_eq_ok.mp g₅
    rw [orFail_eq] at hw₆
    obtain ⟨hscope, rfl⟩ := Prod.mk.inj hw₆
    split at g₆
    · exact absurd g₆ run_throwCommand
    obtain ⟨⟨⟩, rfl⟩ := Prod.mk.inj g₆
    exact ⟨⟨planId, hid, hplan⟩, hscope, rfl⟩
  next => exact absurd g₃ run_throwCommand

end Reads

/-! ## What `approve` answers -/

section Approve

variable {α : Type}

/-- Every value that the program can end in satisfies `Q`. -/
def Answers (Q : α → Prop) (p : Prog α) : Prop :=
  Follows (fun _ _ _ _ => True) (fun r _ => ∀ a, r = .ok a → Q a) p ()

/-- A first part that is only waited for. -/
theorem Answers.bind {β : Type} {Q : β → Prop} {p : Prog α} {f : α → Prog β}
    (hf : ∀ a, Answers Q (f a)) : Answers Q (p >>= f) := by
  refine Follows.bind ?_
  induction p with
  | done r =>
      cases r with
      | ok a => exact hf a
      | error e => exact fun _ => nofun
  | await o k ih => exact fun x => ⟨(), trivial, ih x⟩

theorem Answers.run {Q : α → Prop} {p : Prog α} (hp : Answers Q p) {env : Env} {w w' : World} {a : α}
    (h : run (Vops.handle env) p w = (.ok a, w')) : Q a := by
  obtain ⟨-, hQ, -⟩ := Follows.run_keeps (h := Vops.handle env) (J := fun _ _ => True) hp
    (fun _ _ _ _ _ _ => trivial) trivial
  exact hQ a (congrArg Prod.fst h)

/-- The record about the same plan, with the same risk. -/
def SameRequest (b a : AgentApproval) : Prop := a.planId = b.planId ∧ a.risk = b.risk

theorem answers_settle (b : AgentApproval) (status : ApprovalStatus) (reason actor : String) :
    Answers (SameRequest b) (ApprovalManager.settle b status reason actor) := by
  have hb : Answers (SameRequest b) (pure (ApprovalManager.decided b status reason)) := by
    rintro a ⟨⟩
    exact ⟨rfl, rfl⟩
  unfold ApprovalManager.settle
  refine Answers.bind fun _ => ?_
  split
  · exact Answers.bind fun _ => Answers.bind fun _ => hb
  · exact Answers.bind fun _ => hb

variable {env : Env} {v v' : World} {id : ℕ} {a : AgentApproval} {reason actor : String}

/-- The approval that is decided is the stored one. -/
theorem showApproval_ok {b : AgentApproval}
    (h : run (Vops.handle env) (ApprovalManager.showApproval id) v = (.ok b, v')) :
    v.approval id = some b ∧ v' = v := by
  have hread : Vops.handle env (.getApproval id) v = (v.approval id, v) := rfl
  simp only [ApprovalManager.showApproval, perform_bind, run_await, hread] at h
  cases hb : v.approval id with
  | none =>
      rw [hb] at h
      cases h
  | some b' =>
      rw [hb] at h
      obtain ⟨⟨⟩, rfl⟩ := Prod.mk.inj h
      exact ⟨rfl, rfl⟩

theorem decideAgainst_ok {status : ApprovalStatus}
    (h : run (Vops.handle env) (ApprovalManager.decideAgainst id status reason actor) v =
      (.ok a, v')) : ∃ b, v.approval id = some b ∧ SameRequest b a := by
  obtain ⟨b, v₁, hv₁, g⟩ := run_bind_eq_ok.mp h
  obtain ⟨hb, rfl⟩ := showApproval_ok hv₁
  refine ⟨b, hb, ?_⟩
  split at g
  · split at g
    · obtain ⟨⟨⟩, -⟩ := Prod.mk.inj g
      exact ⟨rfl, rfl⟩
    · cases g
  · exact (answers_settle b status reason actor).run g

/-- `approve` answers with a record of the stored approval. -/
theorem approve_ok (h : run (Vops.handle env) (ApprovalManager.approve id reason actor) v =
    (.ok a, v')) : ∃ b, v.approval id = some b ∧ SameRequest b a := by
  obtain ⟨b, v₁, hv₁, g⟩ := run_bind_eq_ok.mp h
  obtain ⟨hb, rfl⟩ := showApproval_ok hv₁
  split at g
  · split at g
    · obtain ⟨⟨⟩, -⟩ := Prod.mk.inj g
      exact ⟨_, hb, rfl, rfl⟩
    · cases g
  · obtain ⟨now, v₂, hv₂, g₂⟩ := run_bind_eq_ok.mp g
    obtain rfl : v₂ = v₁.drawn := (congrArg Prod.snd hv₂).symm
    split at g₂
    · obtain ⟨b', hb', hsame⟩ := decideAgainst_ok g₂
      exact ⟨b', hb', hsame⟩
    · exact ⟨b, hb, (answers_settle b .approved reason actor).run g₂⟩

end Approve

/-! ## The law -/

variable {env : RemoteEnv} {w w' : RemoteWorld} {device : RemoteDevice}
  {payload : SignedRemoteCommandPayload} {approval : AgentApproval} {plan : AgentPlan}

/-- An approval that is read is the stored one. -/
theorem getApproval_ok {id : String} {b : AgentApproval}
    (h : run (remoteHandle env) (getApproval id) w = (.ok (some b), w')) :
    w.agent.approval b.id = some b ∧ w' = w := by
  unfold getApproval at h
  split at h
  next id _ =>
    have hb : w.agent.approval id = some b := Except.ok.inj (congrArg Prod.fst h)
    rw [approval_id hb]
    exact ⟨hb, (congrArg Prod.snd h).symm⟩
  next => cases h

/-- An approved plan has passed `requireDeviceScope` with the risk of its approval. -/
theorem scope_of_approves (h : Approves env w device payload approval plan) :
    requireDeviceScope device plan.target plan.environment approval.risk = .ok () := by
  obtain ⟨w', hrun⟩ : ∃ w', run (remoteHandle env) (decideApproval device payload) w =
      (.ok (.approval approval), w') := ⟨_, Prod.ext h.answers rfl⟩
  obtain ⟨⟨⟩, w₁, hw₁, g⟩ := run_bind_eq_ok.mp hrun
  obtain rfl : w₁ = w := by
    unfold requireSubject at hw₁
    split at hw₁
    · exact absurd hw₁ run_throwCommand
    · exact (congrArg Prod.snd hw₁).symm
  obtain ⟨found, w₂, hw₂, g₂⟩ := run_bind_eq_ok.mp g
  cases found with
  | none => exact absurd g₂ run_throwCommand
  | some b =>
      obtain ⟨hb, rfl⟩ := getApproval_ok hw₂
      obtain ⟨plan', w₃, hw₃, g₃⟩ := run_bind_eq_ok.mp g₂
      obtain ⟨⟨planId, hid, hplan⟩, hscope, happrovals⟩ := planToDecide_ok hw₃
      have hb₃ : w₃.agent.approval b.id = some b := by
        rw [World.approval, happrovals]
        exact hb
      -- Either decision answers with a record of the approval that was read.
      have hsame : SameRequest b approval := by
        dsimp only at g₃
        split at g₃
        · obtain ⟨decided, w₄, hw₄, g₄⟩ := run_bind_eq_ok.mp g₃
          obtain ⟨agent, happrove, -⟩ := run_lift_eq_ok.mp hw₄
          obtain ⟨b', hb', hsame⟩ := approve_ok happrove
          obtain rfl : b = b' := Option.some.inj (hb₃.symm.trans hb')
          obtain ⟨⟨⟩, -⟩ := Prod.mk.inj g₄
          exact hsame
        · split at g₃
          · obtain ⟨decided, w₄, hw₄, g₄⟩ := run_bind_eq_ok.mp g₃
            obtain ⟨agent, hdeny, -⟩ := run_lift_eq_ok.mp hw₄
            obtain ⟨b', hb', hsame⟩ := decideAgainst_ok hdeny
            obtain rfl : b = b' := Option.some.inj (hb₃.symm.trans hb')
            obtain ⟨⟨⟩, -⟩ := Prod.mk.inj g₄
            exact hsame
          · exact absurd g₃ run_throwCommand
      obtain ⟨planId', hid', hplan'⟩ := h.about
      rw [hsame.1, hid] at hid'
      obtain rfl := Option.some.inj hid'
      obtain rfl : plan' = plan := Option.some.inj (hplan.symm.trans hplan')
      rw [hsame.2]
      exact hscope

/-- A plan that a device approves is within its grant exactly when no step names a host that is neither
the label of the plan nor granted, and no step has a risk that is neither the approval's nor granted. -/
theorem approved_in_grant_iff (env : RemoteEnv) (w : RemoteWorld) (device : RemoteDevice)
    (payload : SignedRemoteCommandPayload) (approval : AgentApproval) (plan : AgentPlan)
    (h : Approves env w device payload approval plan) :
    InGrant device plan ↔
      (device.restrictions.targets ≠ [] → ∀ step ∈ plan.steps, ∀ host ∈ namedHosts step.input,
        Labelled device plan host) ∧
      ∀ step ∈ plan.steps, riskRank step.risk ≤ riskRank approval.risk ∨
        riskRank step.risk ≤ riskRank device.restrictions.maxRisk := by
  obtain ⟨htarget, henv, hrisk⟩ := requireDeviceScope_ok (scope_of_approves h)
  constructor
  · rintro ⟨hhosts, -, hrisks⟩
    exact ⟨fun hne step hs host hh => .inr (hhosts hne step hs host hh),
      fun step hs => .inr (hrisks step hs)⟩
  · rintro ⟨hhosts, hrisks⟩
    refine ⟨fun hne step hs host hh => ?_, henv, fun step hs => ?_⟩
    · rcases hhosts hne step hs host hh with hlabel | hgranted
      · have hnonempty : host ≠ "" := by simpa using (List.mem_filter.mp hh).2
        exact htarget host hlabel hnonempty hne
      · exact hgranted
    · rcases hrisks step hs with hstep | hstep
      · exact hstep.trans hrisk
      · exact hstep

/-! ## A plan without a label -/

/-- The hash of every text. -/
def sampleHash : String := "0123456789abcdef0123456789abcdef0123456789abcdef0123456789abcdef"

def sampleEnv : RemoteEnv :=
  { RemoteEnv.sample with agent := { Env.sample with sha256 := fun _ => sampleHash } }

/-- A plan without a label that restarts an application on the host. -/
def restartPlan (host : String) : AgentPlan :=
  { samplePlan with
    hash := sampleHash
    steps := [⟨"step_1", "application.restart",
      .obj [("name", .str "web"), ("host", .str host)], .medium⟩] }

/-- Its approval. -/
def restartApproval : AgentApproval where
  id := 2
  sessionId := 0
  planId := some 1
  capability := none
  status := .pending
  reason := "Approve: Deploy"
  risk := .medium
  target := none
  environment := some .staging
  expectedEffects := []
  reversible := .conditional
  expiresAt := 3600000
  decisionReason := none

def restartWorld (host : String) : RemoteWorld :=
  { RemoteWorld.empty with
    agent := { World.empty with
      plans := [restartPlan host]
      approvals := [⟨0, restartApproval⟩]
      nextId := 3 }
    devices := [sampleDevice] }

/-- The approval that a program answers with. -/
def answeredApproval : Except RemoteFailure CommandResult → Option AgentApproval
  | .ok (.approval a) => some a
  | _ => none

theorem eq_of_answeredApproval {r : Except RemoteFailure CommandResult} {a : AgentApproval}
    (h : answeredApproval r = some a) : r = .ok (.approval a) := by
  unfold answeredApproval at h
  split at h
  · cases h
    rfl
  · cases h

/-- The approval, approved. -/
def approvedRestart : AgentApproval :=
  ApprovalManager.decided restartApproval .approved "Approved by remote device phone."

theorem approves_restart_demo : Approves sampleEnv (restartWorld "demo") sampleDevice samplePayload
    approvedRestart (restartPlan "demo") where
  answers := eq_of_answeredApproval (by decide)
  approved := rfl
  about := ⟨1, rfl, rfl⟩

theorem approves_restart_prod : Approves sampleEnv (restartWorld "prod") sampleDevice samplePayload
    approvedRestart (restartPlan "prod") where
  answers := eq_of_answeredApproval (by decide)
  approved := rfl
  about := ⟨1, rfl, rfl⟩

/-- The theorem at a plan that restarts an application on the granted host. -/
theorem approved_in_grant_iff_demo : InGrant sampleDevice (restartPlan "demo") ↔
    (sampleDevice.restrictions.targets ≠ [] → ∀ step ∈ (restartPlan "demo").steps,
      ∀ host ∈ namedHosts step.input, Labelled sampleDevice (restartPlan "demo") host) ∧
    ∀ step ∈ (restartPlan "demo").steps, riskRank step.risk ≤ riskRank approvedRestart.risk ∨
      riskRank step.risk ≤ riskRank sampleDevice.restrictions.maxRisk :=
  approved_in_grant_iff sampleEnv (restartWorld "demo") sampleDevice samplePayload approvedRestart
    (restartPlan "demo") approves_restart_demo

/-- A plan without a label names a host that the device is not granted, and is approved. -/
theorem approved_outside_grant : ¬ ∀ (env : RemoteEnv) (w : RemoteWorld) (device : RemoteDevice)
    (payload : SignedRemoteCommandPayload) (approval : AgentApproval) (plan : AgentPlan),
    Approves env w device payload approval plan → InGrant device plan := by
  intro h
  have hgrant := h sampleEnv (restartWorld "prod") sampleDevice samplePayload approvedRestart
    (restartPlan "prod") approves_restart_prod
  have hprod : "prod" ∈ sampleDevice.restrictions.targets :=
    hgrant.1 (by decide) _ (List.mem_singleton_self _) "prod" (by decide +kernel)
  exact absurd hprod (by decide)

end Vops.RemoteCommandHandler
