import Vops.AgentControl.ActionBroker
import Vops.AgentControl.ExecutorThms
import Vops.Lib.AsyncRuns

/-!
# The progress that an operation records

`transition` answers an operation that is in the requested state already as it is, and the loop over
the steps of a plan asks for the state `running` at every step.

* `OperationManager.Recorded` — the stored operation has the state and every field of the patch.
* `OperationManager.transition_cases` — what `transition` reads and leaves.
* `ActionBroker.Running` — the operation is running, and no step was recorded; the loop over the
  steps keeps it.
* `progress_recorded_iff` — no step of a plan is recorded while it is executed, and `transition`
  records its patch exactly where the state changes and nothing is redacted, or the fields were
  there before.
-/

namespace Vops

open Async

variable {env : Env} {w w' : World}

namespace OperationManager

/-! ## What is recorded -/

/-- The operation has every field of the patch. -/
structure Patch.In (patch : Patch) (operation : AgentOperation) : Prop where
  currentStep : ∀ s ∈ patch.currentStep, operation.currentStep = some s
  capability : ∀ c ∈ patch.capability, operation.capability = some c
  result : ∀ r ∈ patch.result, operation.result = some r
  error : ∀ e ∈ patch.error, operation.error = some e
  cancelRequested : ∀ c ∈ patch.cancelRequested, operation.cancelRequested = c
  verification : ∀ v ∈ patch.verification, operation.verification = some v

/-- The stored operation has the given state and every field of the patch. -/
def Recorded (w : World) (id : ℕ) (state : AgentOperationState) (patch : Patch) : Prop :=
  ∃ operation, w.operation id = some operation ∧ operation.state = state ∧ patch.In operation

/-- Nothing in the patch is redacted when it is stored. -/
structure Patch.Plain (patch : Patch) : Prop where
  currentStep : ∀ s ∈ patch.currentStep, redactText s = s
  capability : ∀ c ∈ patch.capability, redactText c = c
  result : ∀ results ∈ patch.result, (results.map fun r =>
    ⟨redactText r.step, redactText r.capability, storedJson r.output⟩) = results
  error : ∀ e ∈ patch.error, (⟨e.code, redactText e.message, e.recoverable⟩ : OperationError) = e
  verification : ∀ v ∈ patch.verification, (⟨v.status, v.checks.map fun c =>
    ⟨redactText c.capability, redactText c.step, redactText c.status, c.failed.map redactText⟩⟩ :
    Verification) = v

/-- A patch ends up in the record: the state changes and nothing is redacted, or the state is the
requested one and the fields are there already. -/
def Patch.Lands (patch : Patch) (operation : AgentOperation) (state : AgentOperationState) : Prop :=
  (operation.state ≠ state ∧ patch.Plain) ∨ (operation.state = state ∧ patch.In operation)

/-- A field of the patch is stored as it is where it is not redacted. -/
theorem or_map_iff {α : Type} (f : α → α) (x y : Option α) :
    (∀ a ∈ x, (x.or y).map f = some a) ↔ ∀ a ∈ x, f a = a := by
  cases x <;> simp

/-- A merged record has every field of the patch as it is stored exactly where nothing is redacted.
-/
theorem Patch.in_storedOperation_iff (patch : Patch) (operation : AgentOperation)
    (state : AgentOperationState) :
    patch.In (storedOperation (patched operation state patch)) ↔ patch.Plain := by
  have hcancel : ∀ c ∈ patch.cancelRequested,
      patch.cancelRequested.getD operation.cancelRequested = c := by
    cases patch.cancelRequested <;> simp
  constructor
  · intro h
    exact ⟨(or_map_iff _ _ _).mp h.currentStep, (or_map_iff _ _ _).mp h.capability,
      (or_map_iff _ _ _).mp h.result, (or_map_iff _ _ _).mp h.error,
      (or_map_iff _ _ _).mp h.verification⟩
  · intro h
    exact ⟨(or_map_iff _ _ _).mpr h.currentStep, (or_map_iff _ _ _).mpr h.capability,
      (or_map_iff _ _ _).mpr h.result, (or_map_iff _ _ _).mpr h.error, hcancel,
      (or_map_iff _ _ _).mpr h.verification⟩

/-! ## What `transition` does -/

/-- The operation neither writes an operation record nor begins the execution of a step. -/
def Op.aside : Op → Bool
  | .saveOperation _ | .execute _ => false
  | _ => true

theorem event_aside (operation : AgentOperation) (eventType summary : String) :
    (event operation eventType summary).AllOps (Op.aside · = true) :=
  ⟨rfl, fun _ => ⟨rfl, fun _ => ⟨rfl, fun _ => ⟨rfl, fun _ => ⟨rfl, fun _ => trivial⟩⟩⟩⟩⟩

/-- What a program leaves of the operation records, if it writes none. -/
theorem run_aside (env : Env) {α : Type} {p : Prog α} (hp : p.AllOps (Op.aside · = true))
    (w : World) :
    (run (handle env) p w).2.operations = w.operations := by
  refine hp.run_keeps (I := fun w' : World => w'.operations = w.operations)
    (fun o w' ho h => (handle_operations ?_).trans h) rfl
  cases o <;> first | rfl | cases ho

/-- `get` that succeeds. -/
theorem run_get {id : ℕ} {operation : AgentOperation}
    (h : run (handle env) (get id) w = (.ok operation, w')) :
    w.operation id = some operation ∧ w' = w := by
  have hread : handle env (.getOperation id) w = (w.operation id, w) := rfl
  rw [get, perform_bind, run_await, hread] at h
  cases hop : w.operation id with
  | none => simp [hop, throwControl] at h
  | some found =>
      simp only [hop] at h
      cases h
      exact ⟨rfl, rfl⟩

/-- `transition` that succeeds: the state is the requested one and nothing is written, or the merged
record is. -/
theorem transition_cases {id : ℕ} {state : AgentOperationState} {patch : Patch}
    {updated : AgentOperation}
    (h : run (handle env) (transition id state patch) w = (.ok updated, w')) :
    ∃ operation, w.operation id = some operation ∧
      ((operation.state = state ∧ updated = operation ∧ w' = w) ∨
        (operation.state ≠ state ∧ state ∈ transitions operation.state ∧
          updated = patched operation state patch ∧
          w'.operations = (w.saveOperation updated).operations)) := by
  obtain ⟨operation, w₁, hget, hrest⟩ := run_bind_eq_ok.mp h
  obtain ⟨hop, rfl⟩ := run_get hget
  refine ⟨operation, hop, ?_⟩
  clear h
  split_ifs at hrest with hstate hallowed
  · cases hrest
    exact .inl ⟨hstate, rfl, rfl⟩
  · dsimp only at hrest
    rw [perform_bind, run_await] at hrest
    obtain ⟨_, w₂, hevent, hdone⟩ := run_bind_eq_ok.mp hrest
    cases hdone
    have haside := run_aside env
      (event_aside (patched operation state patch) s!"operation.{state.text}"
        (operationSummary (patched operation state patch)))
      (w₁.saveOperation (patched operation state patch))
    refine .inr ⟨hstate, hallowed, rfl, ?_⟩
    rw [← haside]
    exact congrArg (fun r => r.2.operations) hevent.symm
  · cases hrest

/-- The record that `transition` leaves. -/
theorem operation_transition {id : ℕ} {state : AgentOperationState} {patch : Patch}
    {updated : AgentOperation}
    (h : run (handle env) (transition id state patch) w = (.ok updated, w')) :
    ∃ operation, w.operation id = some operation ∧ w'.operation id = some
      (if operation.state = state then operation
        else storedOperation (patched operation state patch)) := by
  obtain ⟨operation, hop, ⟨hstate, -, rfl⟩ | ⟨hstate, -, rfl, hops⟩⟩ := transition_cases h
  · exact ⟨operation, hop, by rw [if_pos hstate]; exact hop⟩
  · have hid : operation.id = id := operation_id hop
    have hsaved := operation_saveOperation (w := w) (patched operation state patch) id
    rw [if_pos (show (patched operation state patch).id = id from hid)] at hsaved
    refine ⟨operation, hop, ?_⟩
    rw [if_neg hstate, ← hsaved, World.operation, hops]
    rfl

/-- `transition` that succeeds leaves the state and the patch stored exactly where the patch lands.
-/
theorem recorded_iff_lands {id : ℕ} {state : AgentOperationState} {patch : Patch}
    {updated : AgentOperation}
    (h : run (handle env) (transition id state patch) w = (.ok updated, w')) :
    Recorded w' id state patch ↔
      ∃ operation, w.operation id = some operation ∧ patch.Lands operation state := by
  obtain ⟨operation, hop, hop'⟩ := operation_transition h
  simp only [Recorded, hop, hop', Option.some.injEq, exists_eq_left']
  by_cases hstate : operation.state = state
  · simp [Patch.Lands, hstate]
  · have hnew : (storedOperation (patched operation state patch)).state = state := rfl
    simp [Patch.Lands, hstate, hnew, patch.in_storedOperation_iff operation state]

end OperationManager

namespace ActionBroker

open OperationManager (Op.aside run_aside)

/-! ## The loop over the steps -/

/-- The operation is running, and no step was recorded. -/
def Running (id : ℕ) (w : World) : Prop :=
  ∃ operation, w.operation id = some operation ∧ operation.state = .running ∧
    operation.currentStep = none ∧ operation.capability = none

/-- The step that is executed is the one that the stored operation names. -/
def Progress (d : Dispatch) (w : World) : Prop :=
  ∃ operation, w.operation d.operationId = some operation ∧
    operation.currentStep = some d.step.id ∧ operation.capability = some d.step.capability

/-- Where the execution of a step begins, it has not been recorded. -/
def Unrecorded (o : Op) (w : World) (_ : Res o) : Prop := ∀ d, o = .execute d → ¬ Progress d w

/-- The operation does not begin the execution of a step. -/
def Op.begins : Op → Bool
  | .execute _ => true
  | _ => false

theorem begins_of_aside {o : Op} (h : Op.aside o = true) : Op.begins o = false := by
  cases o <;> first | rfl | cases h

/-- A program that executes no step. -/
theorem checked_of_idle {α : Type} {p : Prog α} (hp : p.AllOps (Op.begins · = false)) (w : World) :
    Checked (handle env) Unrecorded p w := by
  refine .of_allOps hp (fun o s ho d hd => ?_) w
  subst hd
  cases ho

theorem idle_of_aside {α : Type} {p : Prog α} (hp : p.AllOps (Op.aside · = true)) :
    p.AllOps (Op.begins · = false) := hp.mono fun _ => begins_of_aside

/-- What a program that writes no operation record leaves of the running operation. -/
theorem Running.run_aside {α : Type} {id : ℕ} {p : Prog α} (h : Running id w)
    (hp : p.AllOps (Op.aside · = true)) : Running id (run (handle env) p w).2 := by
  obtain ⟨operation, hop, hrest⟩ := h
  refine ⟨operation, ?_, hrest⟩
  rw [World.operation, OperationManager.run_aside env hp w]
  exact hop

theorem liftExcept_aside {α : Type} (r : Except Failure α) :
    (liftExcept r).AllOps (Op.aside · = true) := by
  rw [liftExcept_eq]
  trivial

theorem get_aside (id : ℕ) : (OperationManager.get id).AllOps (Op.aside · = true) :=
  ⟨rfl, fun found => by cases found <;> trivial⟩

theorem plan_get_aside (id : ℕ) : (PlanEngine.get id).AllOps (Op.aside · = true) :=
  ⟨rfl, fun found => by cases found <;> trivial⟩

theorem setStatus_aside (id : ℕ) (status : AgentPlanStatus) :
    (PlanEngine.setStatus id status).AllOps (Op.aside · = true) :=
  (plan_get_aside id).bind fun _ => ⟨rfl, fun _ => trivial⟩

theorem requireExecutable_aside (id sessionId : ℕ) :
    (PlanEngine.requireExecutable id sessionId).AllOps (Op.aside · = true) := by
  refine (plan_get_aside id).bind fun plan => ?_
  split
  · trivial
  · have hvalidate : (PlanEngine.validate plan).AllOps (Op.aside · = true) :=
      ⟨rfl, fun _ => trivial⟩
    refine hvalidate.bind fun validation => ?_
    split
    · trivial
    · split <;> trivial

theorem requireApprovedForPlan_aside (planId : ℕ) :
    (ApprovalManager.requireApprovedForPlan planId).AllOps (Op.aside · = true) := by
  refine AllOps.bind (AllOps.of_perform rfl) fun approvals => ?_
  dsimp only
  split
  · split <;> trivial
  · trivial

theorem claimPlan_aside (session : AgentSession) (planId : ℕ) :
    (claimPlan session planId).AllOps (Op.aside · = true) := by
  refine (plan_get_aside planId).bind fun plan => ?_
  split
  · trivial
  · split
    · exact (requireApprovedForPlan_aside _).bind fun _ =>
        (setStatus_aside _ _).bind fun approved => requireExecutable_aside _ _
    · exact requireExecutable_aside _ _

theorem transition_idle (id : ℕ) (state : AgentOperationState) (patch : OperationManager.Patch) :
    (OperationManager.transition id state patch).AllOps (Op.begins · = false) := by
  refine (idle_of_aside (get_aside id)).bind fun operation => ?_
  split
  · trivial
  · split
    · exact ⟨rfl, fun _ => (idle_of_aside (OperationManager.event_aside _ _ _)).bind fun _ =>
        trivial⟩
    · trivial

theorem create_idle (sessionId planId : ℕ) (rollbackAvailable : Bool) :
    (OperationManager.create sessionId planId rollbackAvailable).AllOps (Op.begins · = false) :=
  ⟨rfl, fun _ => ⟨rfl, fun _ => (idle_of_aside (OperationManager.event_aside _ _ _)).bind fun _ =>
    trivial⟩⟩

theorem incrementOperation_aside (id : ℕ) :
    (AgentSessionManager.incrementOperation id).AllOps (Op.aside · = true) :=
  AllOps.bind ⟨rfl, fun found => by cases found <;> trivial⟩ fun _ => ⟨rfl, fun _ => trivial⟩

theorem startOperation_idle (session : AgentSession) (plan : AgentPlan) :
    (startOperation session plan).AllOps (Op.begins · = false) := by
  refine AllOps.bind (create_idle _ _ _) fun operation => ?_
  refine (idle_of_aside (incrementOperation_aside _)).bind fun _ => ?_
  refine (idle_of_aside (setStatus_aside _ _)).bind fun _ => ?_
  exact (transition_idle _ _ _).bind fun _ => trivial

theorem finish_idle (plan : AgentPlan) (id : ℕ) (results : List StepResult) :
    (finish plan id results).AllOps (Op.begins · = false) :=
  (transition_idle _ _ _).bind fun _ => (transition_idle _ _ _).bind fun _ =>
    (idle_of_aside (setStatus_aside _ _)).bind fun _ => trivial

theorem failOperation_idle (plan : AgentPlan) (id : ℕ) (failure : Failure) :
    (failOperation plan id failure).AllOps (Op.begins · = false) :=
  (transition_idle _ _ _).bind fun _ => (idle_of_aside (setStatus_aside _ _)).bind fun _ => trivial

theorem requireStepAllowed_aside (session : AgentSession) (plan : AgentPlan)
    (step : AgentPlanStep) : (requireStepAllowed session plan step).AllOps (Op.aside · = true) :=
  AllOps.bind (AllOps.of_perform rfl) fun _ => liftExcept_aside _

theorem stepEvent_aside (session : AgentSession) (plan : AgentPlan) (id : ℕ)
    (step : AgentPlanStep) : (stepEvent session plan id step).AllOps (Op.aside · = true) :=
  ⟨rfl, fun _ => ⟨rfl, fun _ => ⟨rfl, fun _ => ⟨rfl, fun _ => ⟨rfl, fun _ => trivial⟩⟩⟩⟩⟩

/-- Every step of an execution writes no operation record, and begins no other. -/
theorem aside_of_execStep {d : Dispatch} {a a' : CoreActionExecutor.Activity} {o : Op} {x : Res o}
    (h : CoreActionExecutor.ExecStep d a o x a') : Op.aside o = true := by
  cases h with
  | outside ho => cases o <;> first | rfl | cases ho
  | _ => rfl

/-- An execution leaves a running operation as it is. -/
theorem Running.run_execute {id : ℕ} (h : Running id w) (d : Dispatch) :
    Running id (run (handle env) (CoreActionExecutor.execute d) w).2 := by
  have hstart : (handle env (.execute d) w).2 = w := rfl
  rw [CoreActionExecutor.execute, perform_bind, run_await, hstart]
  have hkeep (φ : CoreActionExecutor.Activity) (o : Op) (φ' : CoreActionExecutor.Activity)
      (s : World) (ho : CoreActionExecutor.ExecStep d φ o (handle env o s).1 φ')
      (hs : Running id s) :
      Running id (handle env o s).2 :=
    hs.run_aside (p := Async.perform o) (AllOps.of_perform (aside_of_execStep ho))
  obtain ⟨_, -, hw⟩ := CoreActionExecutor.follows_execute.run_keeps hkeep h
  exact hw

/-- The execution of a step begins in a state in which it was not recorded. -/
theorem Running.checked_execute {d : Dispatch} (h : Running d.operationId w) :
    Checked (handle env) Unrecorded (CoreActionExecutor.execute d) w := by
  refine ⟨?_, ?_⟩
  · rintro d' ⟨⟩ ⟨operation, hop, hstep, -⟩
    obtain ⟨operation', hop', -, hnone, -⟩ := h
    rw [hop] at hop'
    cases hop'
    rw [hnone] at hstep
    cases hstep
  · refine CoreActionExecutor.follows_execute.checked (fun φ o φ' s ho d' hd => ?_) _
    subst hd
    cases aside_of_execStep ho

/-- Asked for the state `running` again, `transition` writes nothing. -/
theorem Running.run_transition {id : ℕ} (h : Running id w) (env : Env)
    (patch : OperationManager.Patch) :
    ∃ operation, run (handle env) (OperationManager.transition id .running patch) w =
      (.ok operation, w) := by
  obtain ⟨operation, hop, hstate, -⟩ := h
  have hread : handle env (.getOperation id) w = (w.operation id, w) := rfl
  refine ⟨operation, ?_⟩
  rw [OperationManager.transition, OperationManager.get, perform_bind]
  simp [hread, hop, hstate]

/-- Executed from here, a program begins the execution of no step that was recorded, and the
operation is running after it. -/
structure Steady (env : Env) (id : ℕ) {α : Type} (p : Prog α) (w : World) : Prop where
  checked : Checked (handle env) Unrecorded p w
  running : Running id (run (handle env) p w).2

namespace Steady

variable {id : ℕ} {α β : Type}

theorem of_aside (env : Env) (h : Running id w) {p : Prog α} (hp : p.AllOps (Op.aside · = true)) :
    Steady env id p w :=
  ⟨checked_of_idle (idle_of_aside hp) w, h.run_aside hp⟩

theorem bind {p : Prog α} {f : α → Prog β} (hp : Steady env id p w)
    (hf : ∀ a w', Running id w' → Steady env id (f a) w') : Steady env id (p >>= f) w where
  checked := hp.checked.bind fun a w' hr => (hf a w' (by simpa [hr] using hp.running)).checked
  running := run_bind_keeps (I := Running id) hp.running fun a w' hw' => (hf a w' hw').running

theorem execute {d : Dispatch} (h : Running d.operationId w) :
    Steady env d.operationId (CoreActionExecutor.execute d) w :=
  ⟨h.checked_execute, h.run_execute d⟩

theorem transition (h : Running id w) (patch : OperationManager.Patch) :
    Steady env id (OperationManager.transition id .running patch) w := by
  refine ⟨checked_of_idle (transition_idle _ _ _) w, ?_⟩
  obtain ⟨operation, hrun⟩ := h.run_transition env patch
  rw [hrun]
  exact h

/-- One step of the loop. -/
theorem runStep (env : Env) (h : Running id w) (session : AgentSession) (plan : AgentPlan)
    (step : AgentPlanStep) : Steady env id (runStep session plan id step) w := by
  refine (of_aside env h (requireStepAllowed_aside _ _ _)).bind fun _ w₁ h₁ => ?_
  refine (transition h₁ _).bind fun _ w₂ h₂ => ?_
  refine (execute (d := ⟨step, session, plan, id⟩) h₂).bind fun output w₃ h₃ => ?_
  exact (of_aside env h₃ (stepEvent_aside _ _ _ _)).bind fun _ w₄ h₄ => of_aside env h₄ trivial

end Steady

/-- The loop: no step was recorded when its execution began. -/
theorem Running.checked_runSteps {id : ℕ} (session : AgentSession) (plan : AgentPlan)
    (steps : List AgentPlanStep) (results : List StepResult) (h : Running id w) :
    Checked (handle env) Unrecorded (runSteps session plan id steps results) w := by
  induction steps generalizing results w with
  | nil => exact checked_of_idle ((finish_idle _ _ _).bind fun _ => AllOps.of_done _) w
  | cons step steps ih =>
      have hcancel : (OperationManager.shouldCancel id).AllOps (Op.aside · = true) :=
        (get_aside id).bind fun _ => trivial
      refine (Steady.of_aside env h hcancel).checked.bind fun cancelled w₁ hr => ?_
      have h₁ : Running id w₁ := by
        simpa [hr] using (Steady.of_aside env h hcancel).running
      split
      · exact checked_of_idle ((transition_idle _ _ _).bind fun _ =>
          (idle_of_aside (setStatus_aside _ _)).bind fun _ => AllOps.of_done _) w₁
      · have hstep := Steady.runStep env h₁ session plan step
        refine hstep.checked.bind fun result w₂ hr₂ => ih _ ?_
        simpa [hr₂] using hstep.running

/-- The record of a new operation. -/
theorem operation_create {sessionId planId : ℕ} {rollbackAvailable : Bool}
    {operation : AgentOperation}
    (h : run (handle env) (OperationManager.create sessionId planId rollbackAvailable) w =
      (.ok operation, w')) :
    w'.operation operation.id = some (storedOperation
      (OperationManager.newOperation operation.id sessionId planId rollbackAvailable)) := by
  rw [OperationManager.create, perform_bind, run_await] at h
  dsimp only at h
  rw [perform_bind, run_await] at h
  obtain ⟨_, w₁, hevent, h⟩ := run_bind_eq_ok.mp h
  cases h
  have haside := OperationManager.run_aside env (OperationManager.event_aside
    (OperationManager.newOperation (handle env .localId w).1 sessionId planId rollbackAvailable)
    "operation.queued" "Operation queued.")
    (handle env (.saveOperation (OperationManager.newOperation (handle env .localId w).1 sessionId
      planId rollbackAvailable)) (handle env .localId w).2).2
  rw [hevent] at haside
  have hsaved := operation_saveOperation (w := (handle env .localId w).2)
    (OperationManager.newOperation (handle env .localId w).1 sessionId planId rollbackAvailable)
    (handle env .localId w).1
  rw [World.operation, haside]
  exact hsaved.trans (if_pos rfl)

/-- What a program that writes no operation record leaves of a record. -/
theorem operation_run_aside {α : Type} {p : Prog α} {r : Except Failure α} {id : ℕ}
    (hp : p.AllOps (Op.aside · = true)) (h : run (handle env) p w = (r, w')) :
    w'.operation id = w.operation id := by
  have hops := OperationManager.run_aside env hp w
  rw [h] at hops
  rw [World.operation, hops, World.operation]

/-- The operation of a plan, once it is started. -/
theorem running_startOperation {session : AgentSession} {plan : AgentPlan}
    {operation : AgentOperation}
    (h : run (handle env) (startOperation session plan) w = (.ok operation, w')) :
    Running operation.id w' := by
  obtain ⟨created, w₁, hcreate, h⟩ := run_bind_eq_ok.mp h
  obtain ⟨_, w₂, hcount, h⟩ := run_bind_eq_ok.mp h
  obtain ⟨_, w₃, hplan, h⟩ := run_bind_eq_ok.mp h
  obtain ⟨_, w₄, hrunning, h⟩ := run_bind_eq_ok.mp h
  cases h
  have hnew := operation_create hcreate
  rw [← operation_run_aside (incrementOperation_aside _) hcount,
    ← operation_run_aside (setStatus_aside _ _) hplan] at hnew
  obtain ⟨found, hfound, hstored⟩ := OperationManager.operation_transition hrunning
  obtain rfl := Option.some.inj (hnew.symm.trans hfound)
  exact ⟨_, hstored, rfl, rfl, rfl⟩

/-- Executing a plan, no step was recorded when its execution began. -/
theorem checked_executePlanForSession (env : Env) (session : AgentSession) (planId : ℕ)
    (w : World) :
    Checked (handle env) Unrecorded (executePlanForSession session planId) w := by
  refine (checked_of_idle (idle_of_aside (claimPlan_aside _ _)) w).bind fun plan w₁ _ => ?_
  refine (checked_of_idle (startOperation_idle _ _) w₁).bind fun operation w₂ hstart => ?_
  have h := running_startOperation hstart
  refine Checked.bind (Checked.tryCatch (h.checked_runSteps _ _ _ _) fun failure w₃ _ =>
    checked_of_idle (failOperation_idle _ _ _) w₃) fun ended w₄ _ => ?_
  cases ended with
  | some succeeded => trivial
  | none => exact checked_of_idle (idle_of_aside (get_aside _)) w₄

/-- No step of a plan is recorded in the stored operation while it is executed; and `transition`
leaves the state and every field of its patch stored exactly where the state changes and nothing in
the patch is redacted, or the operation is in the state already and has the fields. -/
theorem progress_recorded_iff (env : Env) :
    (∀ session planId w, Checked (handle env) (fun o w _ => ∀ d, o = .execute d → ¬ Progress d w)
      (executePlanForSession session planId) w) ∧
    ∀ id state patch w updated w',
      run (handle env) (OperationManager.transition id state patch) w = (.ok updated, w') →
      (OperationManager.Recorded w' id state patch ↔
        ∃ operation, w.operation id = some operation ∧ patch.Lands operation state) :=
  ⟨checked_executePlanForSession env, fun _ _ _ _ _ _ h => OperationManager.recorded_iff_lands h⟩

/-- An approved plan of one step, and the world that stores it. -/
def inspectWorld : World :=
  { sampleWorld with
    plans := [{ samplePlan with
      status := .approved
      steps := [⟨"step_1", "target.inspect", .obj [("target", .str "demo")], .read_only⟩] }] }

/-- An operation that is running. -/
def runningWorld : World :=
  { sampleWorld with
    operations := [{ OperationManager.newOperation 2 0 1 true with state := .running }] }

/-- Recording the outcome of a running operation. -/
theorem progress_recorded_succeeded : OperationManager.Recorded
    (run (handle Env.sample) (OperationManager.transition 2 .succeeded { result := some [] })
      runningWorld).2 2 .succeeded { result := some [] } := by
  have hrun : ∃ updated, run (handle Env.sample)
      (OperationManager.transition 2 .succeeded { result := some [] }) runningWorld =
        (.ok updated, (run (handle Env.sample)
          (OperationManager.transition 2 .succeeded { result := some [] }) runningWorld).2) :=
    ⟨_, rfl⟩
  obtain ⟨updated, hrun⟩ := hrun
  refine ((progress_recorded_iff Env.sample).2 2 .succeeded { result := some [] } runningWorld
    updated _ hrun).mpr ⟨_, rfl, .inl ⟨by decide, ?_⟩⟩
  constructor <;> simp

/-- The step of a plan is executed while the stored operation does not name it; and a running
operation that is set to `running` with a step does not name the step. -/
theorem progress_not_recorded :
    (¬ Checked (handle Env.sample) (fun o w _ => ∀ d, o = .execute d → Progress d w)
      (executePlanForSession sampleSession 1) inspectWorld) ∧
    ∃ updated w', run (handle Env.sample) (OperationManager.transition 2 .running
        { currentStep := some "step_1" }) runningWorld = (.ok updated, w') ∧
      ¬ OperationManager.Recorded w' 2 .running { currentStep := some "step_1" } := by
  constructor
  · intro h
    have hbegins : ¬ Checked (handle Env.sample) (fun o _ _ => Op.begins o = false)
        (executePlanForSession sampleSession 1) inspectWorld := by decide +kernel
    refine hbegins ((h.and (checked_executePlanForSession Env.sample sampleSession 1
      inspectWorld)).mono fun o w x hC => ?_)
    cases o with
    | execute d => exact absurd (hC.1 d rfl) (hC.2 d rfl)
    | _ => rfl
  · refine ⟨_, _, rfl, ?_⟩
    rintro ⟨operation, hop, -, hin⟩
    have hstep := hin.currentStep "step_1" rfl
    obtain rfl := Option.some.inj (show some _ = some operation from hop)
    cases hstep

end ActionBroker

end Vops
