import Vops.Lib.Async
import Mathlib.Logic.Function.Basic

/-!
# Interleaved programs

A `Pool` is a shared state and a family of programs, of any size. A schedule names, step by step,
the program that performs its next operation; every interleaving is some schedule.

* `Pool.step`, `Pool.runs` — one scheduled operation, a whole schedule.
* `Pool.Along C sched p` — every step of the schedule satisfies the scheduling condition `C` in
  the pool it is taken from.
* `Pool.induction_along` — what each step preserves, a whole schedule preserves.
* `Pool.Following` and `Pool.Following.along` — every program follows a protocol, and what relates
  the phases of all of them to the state is kept along a schedule.
* `Pool.recorded` — a handler that records who performed what, and in which state.

Nothing here mentions a particular operation or state.
-/

set_option linter.unusedSectionVars false

/-- A shared state and the programs at work on it. -/
structure Pool (Op : Type) (Res : Op → Type) (ε α ι S : Type) where
  state : S
  task : ι → Async Op Res ε α

namespace Pool

variable {Op : Type} {Res : Op → Type} {ε α ι S : Type} [DecidableEq ι]
variable (h : ι → Async.Handler Op Res S)

/-! ## Schedules -/

/-- Program `i` performs its next operation, if it has one. -/
def step (p : Pool Op Res ε α ι S) (i : ι) : Pool Op Res ε α ι S :=
  match p.task i with
  | .done _ => p
  | .await o k => ⟨(h i o p.state).2, Function.update p.task i (k (h i o p.state).1)⟩

/-- A whole schedule. -/
def runs (sched : List ι) (p : Pool Op Res ε α ι S) : Pool Op Res ε α ι S := sched.foldl (step h) p

/-- Every step of the schedule satisfies `C` in the pool from which it is taken. -/
def Along (C : Pool Op Res ε α ι S → ι → Prop) : List ι → Pool Op Res ε α ι S → Prop
  | [], _ => True
  | i :: sched, p => C p i ∧ Along C sched (p.step h i)

instance decidableAlong (C : Pool Op Res ε α ι S → ι → Prop) [∀ p i, Decidable (C p i)] :
    (sched : List ι) → (p : Pool Op Res ε α ι S) → Decidable (Along h C sched p)
  | [], _ => inferInstanceAs (Decidable True)
  | i :: sched, p =>
      have := decidableAlong C sched (p.step h i)
      inferInstanceAs (Decidable (C p i ∧ Along h C sched (p.step h i)))

/-- Program `i` still has an operation to perform. -/
def live (p : Pool Op Res ε α ι S) (i : ι) : Bool := !(p.task i).isDone

variable {h} {p : Pool Op Res ε α ι S} {i j : ι}

@[simp] theorem runs_nil : p.runs h [] = p := rfl

@[simp] theorem runs_cons (sched : List ι) : p.runs h (i :: sched) = (p.step h i).runs h sched := rfl

theorem runs_append (sched sched' : List ι) :
    p.runs h (sched ++ sched') = (p.runs h sched).runs h sched' := by
  simp [runs]

theorem step_of_done {r : Except ε α} (hp : p.task i = .done r) : p.step h i = p := by
  simp [step, hp]

theorem step_of_await {o : Op} {k : Res o → Async Op Res ε α} (hp : p.task i = .await o k) :
    p.step h i = ⟨(h i o p.state).2, Function.update p.task i (k (h i o p.state).1)⟩ := by
  simp [step, hp]

theorem live_of_await {o : Op} {k : Res o → Async Op Res ε α} (hp : p.task i = .await o k) :
    p.live i = true := by
  simp [live, hp, Async.isDone]

/-- A condition that always holds. -/
theorem Along.of_forall {C : Pool Op Res ε α ι S → ι → Prop} {sched : List ι}
    (hC : ∀ p i, C p i) : Along h C sched p := by
  induction sched generalizing p with
  | nil => trivial
  | cons i sched ih => exact ⟨hC p i, ih⟩

/-- A condition along a schedule holds along its first part. -/
theorem Along.append_left {C : Pool Op Res ε α ι S → ι → Prop} {sched sched' : List ι}
    (hC : Along h C (sched ++ sched') p) : Along h C sched p := by
  induction sched generalizing p with
  | nil => trivial
  | cons i sched ih => exact ⟨hC.1, ih hC.2⟩

/-- A condition along a schedule holds along the rest of it. -/
theorem Along.append_right {C : Pool Op Res ε α ι S → ι → Prop} {sched sched' : List ι}
    (hC : Along h C (sched ++ sched') p) : Along h C sched' (p.runs h sched) := by
  induction sched generalizing p with
  | nil => exact hC
  | cons i sched ih => exact ih hC.2

/-- What every step taken under the condition preserves, the whole schedule preserves. -/
theorem induction_along {C : Pool Op Res ε α ι S → ι → Prop} (J : Pool Op Res ε α ι S → Prop)
    (hJ : ∀ p i, C p i → J p → J (p.step h i)) {sched : List ι} (hC : Along h C sched p)
    (hp : J p) : J (p.runs h sched) := by
  induction sched generalizing p with
  | nil => exact hp
  | cons i sched ih => exact ih hC.2 (hJ p i hC.1 hp)

/-! ## Protocols -/

variable {Φ : Type} {T : ι → Async.Protocol Op Res Φ} {Q : ι → Except ε α → Φ → Prop}
  {φ : ι → Φ}

/-- Every program follows its protocol from its phase on. -/
def Following (T : ι → Async.Protocol Op Res Φ) (Q : ι → Except ε α → Φ → Prop)
    (p : Pool Op Res ε α ι S) (φ : ι → Φ) : Prop :=
  ∀ j, Async.Follows (T j) (Q j) (p.task j) (φ j)

/-- The scheduled operation is a step of its program's protocol. -/
theorem Following.step {o : Op} {k : Res o → Async Op Res ε α} (hf : Following T Q p φ)
    (hp : p.task i = .await o k) :
    ∃ φ', T i (φ i) o (h i o p.state).1 φ' ∧
      Following T Q (p.step h i) (Function.update φ i φ') := by
  have hi := hf i
  rw [hp] at hi
  obtain ⟨φ', hT, hk⟩ := hi (h i o p.state).1
  refine ⟨φ', hT, fun j => ?_⟩
  rw [step_of_await hp]
  by_cases hij : j = i
  · subst hij
    simpa using hk
  · simpa [Function.update_of_ne hij] using hf j

/-- The invariant rule: `J` relates the phases of all programs to the pool; a step of a protocol, taken
under the condition, keeps it. -/
theorem Following.along {C : Pool Op Res ε α ι S → ι → Prop}
    (J : (ι → Φ) → Pool Op Res ε α ι S → Prop)
    (hJ : ∀ (φ : ι → Φ) (p : Pool Op Res ε α ι S) i o k φ', p.task i = .await o k → C p i →
      T i (φ i) o (h i o p.state).1 φ' → Following T Q p φ → J φ p →
      J (Function.update φ i φ') (p.step h i))
    {sched : List ι} (hC : Along h C sched p) (hf : Following T Q p φ) (hp : J φ p) :
    ∃ φ', Following T Q (p.runs h sched) φ' ∧ J φ' (p.runs h sched) := by
  induction sched generalizing p φ with
  | nil => exact ⟨φ, hf, hp⟩
  | cons i sched ih =>
      cases ht : p.task i with
      | done r =>
          rw [runs_cons, step_of_done ht]
          rw [Along, step_of_done ht] at hC
          exact ih hC.2 hf hp
      | await o k =>
          obtain ⟨φ', hT, hf'⟩ := hf.step (h := h) ht
          exact ih hC.2 hf' (hJ φ p i o k φ' ht hC.1 hT hf hp)

/-! ## Recorded runs -/

/-- One operation of a run: which program performed it, and the state in which it did. -/
structure Event (Op ι S : Type) where
  task : ι
  op : Op
  before : S

/-- The handler that also records every operation. -/
def recorded (h : Async.Handler Op Res S) : ι → Async.Handler Op Res (S × List (Event Op ι S)) :=
  fun i o s => ((h o s.1).1, ((h o s.1).2, s.2 ++ [⟨i, o, s.1⟩]))

variable {h : Async.Handler Op Res S} {s : S × List (Event Op ι S)}

/-- Recording does not change what a program does. -/
theorem run_recorded (p : Async Op Res ε α) :
    (Async.run (recorded h i) p s).1 = (Async.run h p s.1).1 ∧
      (Async.run (recorded h i) p s).2.1 = (Async.run h p s.1).2 := by
  induction p generalizing s with
  | done r => exact ⟨rfl, rfl⟩
  | await o k ih => exact ih _

/-- What was recorded stays recorded. -/
theorem prefix_run_recorded (p : Async Op Res ε α) :
    s.2 <+: (Async.run (recorded h i) p s).2.2 := by
  induction p generalizing s with
  | done r => exact List.prefix_rfl
  | await o k ih =>
      have hstep : s.2 <+: (recorded h i o s).2.2 := List.prefix_append _ _
      exact hstep.trans (ih _)

end Pool
