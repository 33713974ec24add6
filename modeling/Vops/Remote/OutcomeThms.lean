import Vops.Remote.CommandOnceThms

/-!
# What is stored as the outcome of a command

The `catch` of `handle` stores a rejection for every command that is known: also for one that another
call has reserved, and for one that this call has executed. Where a rejection is stored only by the call
that reserved the command and did not execute it to its end, or over a rejection, the outcome that is
stored is the one that was reached, and stays.

* `RejectsOwn` — that condition, on a step of a schedule.
* `Truthful`, `Final` — what is stored against what was executed, and at two moments of a schedule.
* `Outcomes` — the invariant: what is stored for the command of a call, phase by phase.
* `outcomes_truthful_final` — along every schedule of any calls that meets the condition.
* `stopAll_rejected` — a command that was executed, and is stored as rejected.
-/

set_option linter.unusedSectionVars false

namespace Vops.RemoteCommandHandler

open Async

variable {ι : Type} [DecidableEq ι]

/-! ## Outcomes -/

/-- The state of the record that is stored for a command. -/
def commandState (w : RemoteWorld) (id : String) : Option CommandState :=
  (w.command id).map CommandRecord.state

/-- The event is a reservation of the command that succeeded. -/
def reserves (env : RemoteEnv) (id : String) (e : Pool.Event RemoteOp ι RemoteWorld) : Bool :=
  match e.op with
  | .rememberCommand id' deviceId nonce record =>
      id' == id && (remoteHandle env (.rememberCommand id' deviceId nonce record) e.before).1
  | _ => false

/-- The event is the end, without an error, of the execution of the command. -/
def completes (id : String) (e : Pool.Event RemoteOp ι RemoteWorld) : Bool :=
  match e.op with
  | .executed id' => id' == id
  | _ => false

/-- The event stores an outcome. -/
def storesOutcome (e : Pool.Event RemoteOp ι RemoteWorld) : Bool :=
  match e.op with
  | .saveCommandResult _ _ => true
  | _ => false

/-- The command for which the next operation of a call stores a rejection. -/
def rejecting : RemoteProg Unit → Option String
  | .await (.saveCommandResult id record) _ => if record.state = .rejected then some id else none
  | _ => none

/-- A rejection is stored over a rejection, or by the call that reserved the command and did not execute
it to its end. -/
def RejectsOwn (env : RemoteEnv) (p : CommandPool ι) (i : ι) : Prop :=
  ∀ id ∈ rejecting (p.task i), commandState p.state.1 id = some .rejected ∨
    (∃ e ∈ p.state.2, e.task = i ∧ reserves env id e = true) ∧
      ∀ e ∈ p.state.2, e.task = i → completes id e = false

instance (env : RemoteEnv) (p : CommandPool ι) (i : ι) : Decidable (RejectsOwn env p i) :=
  inferInstanceAs (Decidable (∀ id ∈ rejecting (p.task i),
    commandState p.state.1 id = some .rejected ∨
      (∃ e ∈ p.state.2, e.task = i ∧ reserves env id e = true) ∧
        ∀ e ∈ p.state.2, e.task = i → completes id e = false))

/-- A command is stored as executed exactly when it was executed before the schedule or in it; the call
that has executed it may still be on its way to store it. -/
structure Truthful (w : RemoteWorld) (p : CommandPool ι) (id : String) : Prop where
  sound : commandState p.state.1 id = some .executed →
    commandState w id = some .executed ∨ ∃ e ∈ p.state.2, completes id e = true
  complete : ∀ e ∈ p.state.2, completes id e = true →
    commandState p.state.1 id = some .executed ∨
      p.live e.task = true ∧ ∀ e' ∈ p.state.2, e'.task = e.task → storesOutcome e' = false

/-- An outcome that is stored stays: the whole record of an execution, and a rejection as a rejection. -/
structure Final (w w' : RemoteWorld) (id : String) : Prop where
  executed : commandState w id = some .executed → w'.command id = w.command id
  rejected : commandState w id = some .rejected → commandState w' id = some .rejected

theorem Final.refl (w : RemoteWorld) (id : String) : Final w w id := ⟨fun _ => rfl, fun h => h⟩

theorem Final.trans {w w' w'' : RemoteWorld} {id : String} (h : Final w w' id)
    (h' : Final w' w'' id) : Final w w'' id where
  executed := by
    intro he
    have hsame := h.executed he
    have he' : commandState w' id = some .executed := by
      unfold commandState
      rw [hsame]
      exact he
    exact (h'.executed he').trans hsame
  rejected := fun hr => h'.rejected (h.rejected hr)

theorem Final.of_command {w w' : RemoteWorld} {id : String} (h : w'.command id = w.command id) :
    Final w w' id where
  executed := fun _ => h
  rejected := fun hr => by
    unfold commandState
    rw [h]
    exact hr

/-- What is stored over a record that is no outcome. -/
theorem Final.of_received {w w' : RemoteWorld} {id : String}
    (h : commandState w id = none ∨ commandState w id = some .received) : Final w w' id := by
  constructor
  · intro he
    rcases h with h | h <;> simp [h] at he
  · intro hr
    rcases h with h | h <;> simp [h] at hr

/-! ## The invariant -/

/-- A call at one of these levels has executed its command to its end. -/
def CommandLevel.ended : CommandLevel → Bool
  | finished | stored => true
  | idle | reserved | begun => false

/-- In this phase a call may have stored an outcome. -/
def CommandPhase.mayHaveStored : CommandPhase → Bool
  | stored | closing _ => true
  | _ => false

/-- What is stored for the command of a call in this phase. -/
def StoredIn (state : Option CommandState) : CommandPhase → Prop
  | .reserved _ | .begun _ | .finished => state = some .received
  | .stored | .closing .stored => state = some .executed
  | .closing .reserved | .closing .begun => state = some .received ∨ state = some .rejected
  | .closing .finished => False
  | _ => True

/-- A call that holds the reservation of its command finds it stored. -/
theorem StoredIn.not_holds {state : Option CommandState} {φ : CommandPhase} (h : StoredIn state φ)
    (hnone : state = none) : ¬ φ.Holds := by
  subst hnone
  intro hholds
  rcases φ with _ | _ | _ | _ | _ | _ | _ | _ | _ | _ | _ | _ | _ | _ <;>
    first | exact hholds rfl | cases h
  all_goals rename_i h; cases h

/-- What holds at every moment. -/
structure Outcomes (env : RemoteEnv) (calls : ι → CommandCall) (w₀ : RemoteWorld)
    (φ : ι → CommandPhase) (s : RemoteWorld × CommandLog ι) : Prop where
  record : ∀ i d signed, (calls i).Brings d signed →
    StoredIn (commandState s.1 signed.payload.command_id) (φ i)
  reservation : ∀ e ∈ s.2, ∀ id, reserves env id e = true → (φ e.task).Holds
  completed : ∀ e ∈ s.2, ∀ id, completes id e = true → (φ e.task).level.ended = true ∧
    ∃ d signed, (calls e.task).Brings d signed ∧ id = signed.payload.command_id
  ended : ∀ i, (φ i).level.ended = true → ∀ d signed, (calls i).Brings d signed →
    ∃ e ∈ s.2, e.task = i ∧ completes signed.payload.command_id e = true
  unstored : ∀ i, (φ i).mayHaveStored = false → ∀ e ∈ s.2, e.task = i → storesOutcome e = false
  sound : ∀ id, commandState s.1 id = some .executed →
    commandState w₀ id = some .executed ∨ ∃ e ∈ s.2, completes id e = true

section Steps

variable {env : RemoteEnv} {calls : ι → CommandCall} {φ : ι → CommandPhase} {w₀ w' : RemoteWorld}
  {s : RemoteWorld × CommandLog ι} {i : ι} {φ' : CommandPhase} {o : RemoteOp}

theorem commandState_updateCommand (w : RemoteWorld) (id id' : String) (record : CommandRecord) :
    commandState (w.updateCommand id record) id' =
      if id = id' then (commandState w id').map fun _ => record.state else commandState w id' := by
  unfold commandState
  rw [RemoteWorld.command_updateCommand]
  split
  · cases w.command id' <;> rfl
  · rfl

/-- Nothing is stored for a command that is not taken. -/
theorem commandState_of_free {w : RemoteWorld} {id nonce : String} (h : w.taken id nonce = false) :
    commandState w id = none := by
  simp only [RemoteWorld.taken, Bool.or_eq_false_iff, List.any_eq_false, beq_iff_eq] at h
  unfold commandState RemoteWorld.command
  cases hrow : Table.get CommandRow.command_id id w.commands with
  | none => rfl
  | some r => exact absurd (Table.key_of_get hrow) (h.1 r (Table.mem_of_get hrow))

theorem commandState_insertCommand {w : RemoteWorld} {id nonce : String}
    (h : w.taken id nonce = false) (id' deviceId : String) (record : CommandRecord) :
    commandState (w.insertCommand id deviceId nonce record) id' =
      if id = id' then some record.state else commandState w id' := by
  unfold commandState
  rw [RemoteWorld.command_insertCommand h]
  split <;> rfl

/-- A reservation that fails changes nothing. -/
theorem refused {w : RemoteWorld} {id deviceId nonce : String} {record : CommandRecord}
    (h : (remoteHandle env (.rememberCommand id deviceId nonce record) w).1 = false) :
    (remoteHandle env (.rememberCommand id deviceId nonce record) w).2 = w.drawn := by
  simp only [remoteHandle] at h ⊢
  split at h
  next htaken => simp [htaken]
  · cases h

/-- What a step has to show. -/
theorem Outcomes.step (h : Outcomes env calls w₀ φ s)
    (hrecord : ∀ d signed, (calls i).Brings d signed →
      StoredIn (commandState w' signed.payload.command_id) φ')
    (hothers : ∀ j ≠ i, (φ j).Holds → ∀ d signed, (calls j).Brings d signed →
      commandState w' signed.payload.command_id = commandState s.1 signed.payload.command_id)
    (hholds : (φ i).Holds → φ'.Holds)
    (hreserves : ∀ id, reserves env id (⟨i, o, s.1⟩ : Pool.Event RemoteOp ι RemoteWorld) = true →
      φ'.Holds)
    (hended : (φ i).level.ended = true → φ'.level.ended = true)
    (hcompletes : ∀ id, completes id (⟨i, o, s.1⟩ : Pool.Event RemoteOp ι RemoteWorld) = true →
      φ'.level.ended = true ∧ ∃ d signed, (calls i).Brings d signed ∧ id = signed.payload.command_id)
    (hcompleted : φ'.level.ended = true → (φ i).level.ended = true ∨
      ∀ d signed, (calls i).Brings d signed → completes signed.payload.command_id
        (⟨i, o, s.1⟩ : Pool.Event RemoteOp ι RemoteWorld) = true)
    (hunstored : φ'.mayHaveStored = false → (φ i).mayHaveStored = false ∧
      storesOutcome (⟨i, o, s.1⟩ : Pool.Event RemoteOp ι RemoteWorld) = false)
    (hsound : ∀ id, commandState w' id = some .executed → commandState s.1 id = some .executed ∨
      ∃ e ∈ s.2, completes id e = true) :
    Outcomes env calls w₀ (Function.update φ i φ') (w', s.2 ++ [⟨i, o, s.1⟩]) := by
  have hlast : ∀ {P : Pool.Event RemoteOp ι RemoteWorld → Prop}, (∀ e ∈ s.2, P e) →
      P ⟨i, o, s.1⟩ → ∀ e ∈ s.2 ++ [⟨i, o, s.1⟩], P e :=
    fun hall hnew => List.forall_mem_append.mpr ⟨hall, List.forall_mem_singleton.mpr hnew⟩
  refine ⟨?_, ?_, ?_, ?_, ?_, ?_⟩
  · refine (Function.forall_update_iff φ fun j ψ => ∀ d signed, (calls j).Brings d signed →
      StoredIn (commandState w' signed.payload.command_id) ψ).mpr ⟨hrecord, fun j hj d signed hb => ?_⟩
    have hold := h.record j d signed hb
    by_cases hholds' : (φ j).Holds
    · rw [hothers j hj hholds' d signed hb]
      exact hold
    · have hidle : (φ j).level = .idle := not_not.mp hholds'
      generalize φ j = ψ at hidle
      rcases ψ with _ | _ | _ | _ | _ | _ | _ | _ | _ | level <;> first | trivial | cases hidle
      trivial
  · refine hlast (fun e he id hid => ?_) fun id hid => ?_
    · by_cases hi : e.task = i
      · rw [hi, Function.update_self]
        exact hholds (hi ▸ h.reservation e he id hid)
      · rw [Function.update_of_ne hi]
        exact h.reservation e he id hid
    · rw [Function.update_self]
      exact hreserves id hid
  · refine hlast (fun e he id hid => ?_) fun id hid => ?_
    · obtain ⟨hend, hbrings⟩ := h.completed e he id hid
      refine ⟨?_, hbrings⟩
      by_cases hi : e.task = i
      · rw [hi, Function.update_self]
        exact hended (hi ▸ hend)
      · rw [Function.update_of_ne hi]
        exact hend
    · rw [Function.update_self]
      exact hcompletes id hid
  · refine (Function.forall_update_iff φ fun j ψ => ψ.level.ended = true → ∀ d signed,
      (calls j).Brings d signed → ∃ e ∈ s.2 ++ [⟨i, o, s.1⟩], e.task = j ∧
        completes signed.payload.command_id e = true).mpr ⟨fun hend d signed hb => ?_, ?_⟩
    · rcases hcompleted hend with hold | hnew
      · obtain ⟨e, he, hfound⟩ := h.ended i hold d signed hb
        exact ⟨e, List.mem_append_left _ he, hfound⟩
      · exact ⟨_, List.mem_append_right _ (List.mem_singleton_self _), rfl, hnew d signed hb⟩
    · intro j _ hend d signed hb
      obtain ⟨e, he, hfound⟩ := h.ended j hend d signed hb
      exact ⟨e, List.mem_append_left _ he, hfound⟩
  · refine (Function.forall_update_iff φ fun j ψ => ψ.mayHaveStored = false →
      ∀ e ∈ s.2 ++ [⟨i, o, s.1⟩], e.task = j → storesOutcome e = false).mpr ⟨fun hno => ?_, ?_⟩
    · obtain ⟨hold, hnew⟩ := hunstored hno
      exact hlast (h.unstored i hold) fun _ => hnew
    · intro j hj hno
      exact hlast (h.unstored j hno) fun hij => absurd hij.symm hj
  · intro id hid
    have hmono : (∃ e ∈ s.2, completes id e = true) →
        ∃ e ∈ s.2 ++ [⟨i, o, s.1⟩], completes id e = true := by
      rintro ⟨e, he, hfound⟩
      exact ⟨e, List.mem_append_left _ he, hfound⟩
    rcases hsound id hid with hold | hnew
    · exact (h.sound id hold).imp_right hmono
    · exact .inr (hmono hnew)

/-- A step that leaves the commands as they are, and completes none. -/
theorem Outcomes.step_same (h : Outcomes env calls w₀ φ s) (hw : w'.commands = s.1.commands)
    (ho : (∀ id, reserves env id (⟨i, o, s.1⟩ : Pool.Event RemoteOp ι RemoteWorld) = false) ∧
      (∀ id, completes id (⟨i, o, s.1⟩ : Pool.Event RemoteOp ι RemoteWorld) = false) ∧
      storesOutcome (⟨i, o, s.1⟩ : Pool.Event RemoteOp ι RemoteWorld) = false)
    (hholds : (φ i).Holds → φ'.Holds) (hended : φ'.level.ended = (φ i).level.ended)
    (hunstored : φ'.mayHaveStored = false → (φ i).mayHaveStored = false)
    (hstored : ∀ state, StoredIn state (φ i) → StoredIn state φ') :
    Outcomes env calls w₀ (Function.update φ i φ') (w', s.2 ++ [⟨i, o, s.1⟩]) := by
  obtain ⟨hreserves, hcompletes, hstores⟩ := ho
  have hstate : ∀ id, commandState w' id = commandState s.1 id := by
    intro id
    unfold commandState RemoteWorld.command
    rw [hw]
  refine h.step (fun d signed hb => ?_) (fun j _ _ d signed _ => hstate _) hholds (fun id hid => ?_)
    (fun hend => hended.trans hend) (fun id hid => ?_) (fun hend => .inl (hended.symm.trans hend))
    (fun hno => ⟨hunstored hno, hstores⟩) (fun id hid => .inl ((hstate id).symm.trans hid))
  · rw [hstate]
    exact hstored _ (h.record i d signed hb)
  · rw [hreserves id] at hid
    cases hid
  · rw [hcompletes id] at hid
    cases hid

/-- What a rejection is stored for, under the condition: a rejection, or the command that the call has
reserved and not executed. -/
theorem Outcomes.rejected {p : CommandPool ι} (h : Outcomes env calls w₀ φ p.state)
    (hC : RejectsOwn env p i) {id : String} {record : CommandRecord} {k : Unit → RemoteProg Unit}
    (ht : p.task i = .await (.saveCommandResult id record) k) (hs : record.state = .rejected) :
    commandState p.state.1 id = some .rejected ∨ (φ i).Holds ∧
      ∀ d signed, (calls i).Brings d signed → id = signed.payload.command_id →
        (φ i).level.ended = false := by
  have hid : id ∈ rejecting (p.task i) := by
    rw [ht]
    simp [rejecting, hs]
  rcases hC id hid with hold | ⟨⟨e, he, rfl, hreserved⟩, hno⟩
  · exact .inl hold
  · refine .inr ⟨h.reservation e he id hreserved, fun d signed hb hsigned => ?_⟩
    by_contra hend
    obtain ⟨e', he', htask, hcompletes⟩ := h.ended _ (Bool.not_eq_false _ ▸ hend) d signed hb
    rw [← hsigned, hno e' he' htask] at hcompletes
    cases hcompletes

/-- Every step that meets the condition keeps what holds at every moment, and every outcome. -/
theorem outcomes_step {p : CommandPool ι} {k : RemoteRes o → RemoteProg Unit}
    (ht : p.task i = .await o k) (hC : RejectsOwn env p i)
    (hT : CommandStep env (calls i) (φ i) o (Pool.recorded (remoteHandle env) i o p.state).1 φ')
    (hcommands : Commands env calls φ p.state) (h : Outcomes env calls w₀ φ p.state) :
    Outcomes env calls w₀ (Function.update φ i φ')
        (p.step (Pool.recorded (remoteHandle env)) i).state ∧
      ∀ id, Final p.state.1 (p.step (Pool.recorded (remoteHandle env)) i).state.1 id := by
  rw [Pool.step_of_await ht]
  show Outcomes env calls w₀ _ ((remoteHandle env o p.state.1).2, p.state.2 ++ [⟨i, o, p.state.1⟩]) ∧
    ∀ id, Final p.state.1 (remoteHandle env o p.state.1).2 id
  generalize hφ : φ i = φi at hT
  generalize hx : (Pool.recorded (remoteHandle env) i o p.state).1 = x at hT
  have hquiet : o.ofCommand = false → (φi.Holds → φ'.Holds) →
      φ'.level.ended = φi.level.ended → (φ'.mayHaveStored = false → φi.mayHaveStored = false) →
      (∀ state, StoredIn state φi → StoredIn state φ') →
      Outcomes env calls w₀ (Function.update φ i φ')
          ((remoteHandle env o p.state.1).2, p.state.2 ++ [⟨i, o, p.state.1⟩]) ∧
        ∀ id, Final p.state.1 (remoteHandle env o p.state.1).2 id := by
    intro ho hholds hended hunstored hstored
    obtain ⟨hw, -⟩ := commands_of_not_ofCommand env p.state.1 ho
    subst hφ
    refine ⟨h.step_same hw ?_ hholds hended hunstored hstored, fun id => .of_command ?_⟩
    · cases o <;> first | exact ⟨fun _ => rfl, fun _ => rfl, rfl⟩ | cases ho
    · unfold RemoteWorld.command
      rw [hw]
  cases hT with
  | aside ψ o x ho => exact hquiet ho (fun hh => hh) rfl (fun hh => hh) fun _ hh => hh
  | read d signed hc device => exact hquiet rfl nofun rfl (fun _ => rfl) fun _ _ => trivial
  | bind d signed hc device hd => exact hquiet rfl nofun rfl (fun _ => rfl) fun _ _ => trivial
  | sign d signed hc device => exact hquiet rfl nofun rfl (fun _ => rfl) fun _ _ => trivial
  | time d signed hc device now htime hrole =>
      exact hquiet rfl nofun rfl (fun _ => rfl) fun _ _ => trivial
  | caught ψ now hψ =>
      refine hquiet rfl (fun hh => hh) rfl nofun fun state hstored => ?_
      rcases φi with _ | _ | _ | _ | _ | _ | _ | _ | _ | level
      · trivial
      · trivial
      · trivial
      · trivial
      · trivial
      · exact .inl hstored
      · exact .inl hstored
      · exact absurd rfl hψ
      · exact hstored
      · exact hstored
  | refused ψ id deviceId nonce record =>
      have hw := refused hx
      have hfalse : (remoteHandle env (.rememberCommand id deviceId nonce record) p.state.1).1 =
        false := hx
      subst hφ
      refine ⟨h.step_same (by rw [hw]; rfl) ⟨fun id' => ?_, fun _ => rfl, rfl⟩ (fun hh => hh) rfl
        (fun hh => hh) fun _ hh => hh, fun id' => .of_command (by rw [hw]; rfl)⟩
      simp [reserves, hfalse]
  | begin d signed hc device =>
      refine ⟨h.step_same rfl ⟨fun _ => rfl, fun _ => rfl, rfl⟩ nofun (by rw [hφ]; rfl)
        (fun _ => hφ ▸ rfl) ?_, fun id => .of_command rfl⟩
      rw [hφ]
      exact fun _ hh => hh
  | reserve d signed hc device record hs =>
      obtain ⟨hfree, hw⟩ := RemoteWorld.remembered hx
      have hstate : ∀ id, commandState (remoteHandle env (.rememberCommand signed.payload.command_id
          device.id signed.payload.nonce record) p.state.1).2 id =
          if signed.payload.command_id = id then some .received else commandState p.state.1 id := by
        intro id
        rw [hw, ← hs]
        exact commandState_insertCommand hfree id device.id record
      have hnone : commandState p.state.1 signed.payload.command_id = none := commandState_of_free hfree
      refine ⟨h.step ?_ ?_ (fun _ => nofun) (fun _ _ => nofun) (by rw [hφ]; nofun) nofun nofun
        (fun _ => ⟨hφ ▸ rfl, rfl⟩) ?_, fun id => ?_⟩
      · intro d' signed' hb
        obtain ⟨rfl, rfl⟩ := hc.eq hb
        rw [hstate, if_pos rfl]
        rfl
      · intro j hj hholds d' signed' hb
        rw [hstate, if_neg]
        intro heq
        exact (h.record j d' signed' hb).not_holds (heq ▸ hnone) hholds
      · intro id hid
        rw [hstate] at hid
        split at hid
        · cases hid
        · exact .inl hid
      · by_cases hid : signed.payload.command_id = id
        · exact .of_received (.inl (hid ▸ hnone))
        · apply Final.of_command
          rw [hw]
          exact (RemoteWorld.command_insertCommand hfree id device.id record).trans (if_neg hid)
  | finish d signed hc device =>
      refine ⟨h.step ?_ (fun _ _ _ _ _ _ => rfl) (fun _ => nofun) nofun (fun _ => rfl) ?_ ?_
        (fun _ => ⟨hφ ▸ rfl, rfl⟩) (fun _ => .inl), fun id => .of_command rfl⟩
      · intro d' signed' hb
        have hstored := h.record i d' signed' hb
        rw [hφ] at hstored
        exact hstored
      · intro id hid
        exact ⟨rfl, d, signed, hc, (beq_iff_eq.mp hid).symm⟩
      · intro _
        refine .inr fun d' signed' hb => ?_
        obtain ⟨rfl, rfl⟩ := hc.eq hb
        exact beq_self_eq_true _
  | store d signed hc record hs =>
      have hreceived : commandState p.state.1 signed.payload.command_id = some .received := by
        have hstored := h.record i d signed hc
        rw [hφ] at hstored
        exact hstored
      have hstate : ∀ id, commandState (p.state.1.updateCommand signed.payload.command_id record) id =
          if signed.payload.command_id = id then some .executed else commandState p.state.1 id := by
        intro id
        rw [commandState_updateCommand]
        split
        next hid => rw [← hid, hreceived, ← hs]; rfl
        · rfl
      have hended : (φ i).level.ended = true := by rw [hφ]; rfl
      refine ⟨h.step ?_ ?_ (fun _ => nofun) nofun (fun _ => rfl) nofun (fun _ => .inl hended) nofun ?_,
        fun id => ?_⟩
      · intro d' signed' hb
        obtain ⟨rfl, rfl⟩ := hc.eq hb
        exact (hstate _).trans (if_pos rfl)
      · intro j hj hholds d' signed' hb
        refine (hstate _).trans (if_neg ?_)
        exact (hcommands.apart i j hj.symm (by rw [hφ]; nofun) hholds d signed d' signed' hc hb).1
      · intro id hid
        by_cases heq : signed.payload.command_id = id
        · obtain ⟨e, he, -, hcompletes⟩ := h.ended i hended d signed hc
          exact .inr ⟨e, he, heq ▸ hcompletes⟩
        · exact .inl (((hstate id).trans (if_neg heq)).symm.trans hid)
      · by_cases hid : signed.payload.command_id = id
        · exact .of_received (.inr (hid ▸ hreceived))
        · exact .of_command ((RemoteWorld.command_updateCommand _ _ _).trans (if_neg hid))
  | reject d signed hc level record hs =>
      have hbefore := h.record i d signed hc
      rw [hφ] at hbefore
      have hstate : ∀ id, signed.payload.command_id ≠ id →
          commandState (p.state.1.updateCommand signed.payload.command_id record) id =
            commandState p.state.1 id := by
        intro id hid
        exact (commandState_updateCommand _ _ _ _).trans (if_neg hid)
      have hrejected : ∀ {state}, commandState p.state.1 signed.payload.command_id = some state →
          commandState (p.state.1.updateCommand signed.payload.command_id record)
            signed.payload.command_id = some .rejected := by
        intro state hsome
        rw [commandState_updateCommand, if_pos rfl, hsome, ← hs]
        rfl
      -- Either a rejection is stored already, or the command is the call's own and was not executed.
      have hown : commandState p.state.1 signed.payload.command_id = some .rejected ∨
          (φ i).Holds ∧ (level = .reserved ∨ level = .begun) := by
        refine (h.rejected hC ht hs).imp_right fun ⟨hholds, hno⟩ => ⟨hholds, ?_⟩
        have hlevel := hno d signed hc rfl
        rw [hφ] at hlevel hholds
        cases level <;> first | exact absurd rfl hholds | exact .inl rfl | exact .inr rfl | cases hlevel
      have hstored : commandState p.state.1 signed.payload.command_id = some .rejected ∨
          commandState p.state.1 signed.payload.command_id = some .received := by
        rcases hown with hold | ⟨-, rfl | rfl⟩
        · exact .inl hold
        · exact Or.symm hbefore
        · exact Or.symm hbefore
      have hafter : commandState (p.state.1.updateCommand signed.payload.command_id record)
          signed.payload.command_id = some .rejected := hstored.elim hrejected hrejected
      refine ⟨h.step ?_ ?_ (fun hh => hφ ▸ hh) nofun (fun hh => hφ ▸ hh) nofun
        (fun hh => .inl (hφ ▸ hh)) nofun ?_, fun id => ?_⟩
      · intro d' signed' hb
        obtain ⟨rfl, rfl⟩ := hc.eq hb
        show StoredIn (commandState (p.state.1.updateCommand _ record) _) _
        rw [hafter]
        rcases hown with hold | ⟨-, rfl | rfl⟩
        · exact hold ▸ hbefore
        · exact .inr rfl
        · exact .inr rfl
      · intro j hj hholds d' signed' hb
        rcases hown with hold | ⟨hi, -⟩
        · by_cases hid : signed.payload.command_id = signed'.payload.command_id
          · exact hid ▸ hafter.trans hold.symm
          · exact hstate _ hid
        · exact hstate _ (hcommands.apart i j hj.symm hi hholds d signed d' signed' hc hb).1
      · intro id hid
        by_cases heq : signed.payload.command_id = id
        · subst heq
          cases hafter.symm.trans hid
        · exact .inl ((hstate id heq).symm.trans hid)
      · by_cases hid : signed.payload.command_id = id
        · subst hid
          refine ⟨fun he => ?_, fun _ => hafter⟩
          rcases hstored with hold | hold <;> cases hold.symm.trans he
        · exact .of_command ((RemoteWorld.command_updateCommand _ _ _).trans (if_neg hid))

end Steps

/-! ## Every schedule -/

section Schedules

variable {env : RemoteEnv} {calls : ι → CommandCall} {φ : ι → CommandPhase} {w₀ : RemoteWorld}

theorem startCommands_outcomes (env : RemoteEnv) (calls : ι → CommandCall) (w : RemoteWorld) :
    Outcomes env calls w (fun _ => .entered) (startCommands calls w).state where
  record := fun _ _ _ _ => trivial
  reservation := by simp [startCommands]
  completed := by simp [startCommands]
  ended := nofun
  unstored := by simp [startCommands]
  sound := fun _ h => .inl h

/-- The calls follow their phases, and the invariant holds. -/
structure Underway (env : RemoteEnv) (calls : ι → CommandCall) (w₀ : RemoteWorld)
    (φ : ι → CommandPhase) (p : CommandPool ι) : Prop where
  following : Pool.Following (fun i => CommandStep env (calls i)) (fun _ => CommandEnd) p φ
  commands : Commands env calls φ p.state
  outcomes : Outcomes env calls w₀ φ p.state

/-- A schedule that meets the condition keeps every outcome. -/
theorem Underway.runs {p : CommandPool ι} {sched : List ι} (h : Underway env calls w₀ φ p)
    (hC : Pool.Along (Pool.recorded (remoteHandle env)) (RejectsOwn env) sched p) :
    (∃ φ', Underway env calls w₀ φ' (p.runs (Pool.recorded (remoteHandle env)) sched)) ∧
      ∀ id, Final p.state.1 (p.runs (Pool.recorded (remoteHandle env)) sched).state.1 id := by
  obtain ⟨φ', hf, hcommands, houtcomes, hfinal⟩ := h.following.along
    (fun φ q => Commands env calls φ q.state ∧ Outcomes env calls w₀ φ q.state ∧
      ∀ id, Final p.state.1 q.state.1 id)
    (fun φ q i o k φ' ht hC hT _ ⟨hcommands, houtcomes, hfinal⟩ => by
      obtain ⟨hnext, hstep⟩ := outcomes_step ht hC hT hcommands houtcomes
      exact ⟨commands_step ht hT hcommands, hnext, fun id => (hfinal id).trans (hstep id)⟩)
    hC ⟨h.commands, h.outcomes, fun id => .refl _ id⟩
  exact ⟨⟨φ', hf, hcommands, houtcomes⟩, hfinal⟩

/-- What the invariant says about one command. -/
theorem Underway.truthful {p : CommandPool ι} (h : Underway env calls w₀ φ p) (id : String) :
    Truthful w₀ p id where
  sound := h.outcomes.sound id
  complete := by
    intro e he hid
    obtain ⟨hended, d, signed, hb, rfl⟩ := h.outcomes.completed e he id hid
    have hstored := h.outcomes.record e.task d signed hb
    have hunstored := h.outcomes.unstored e.task
    have hend := h.following e.task
    generalize φ e.task = ψ at hended hstored hunstored hend
    rcases ψ with _ | _ | _ | _ | _ | _ | _ | _ | _ | level
    · cases hended
    · cases hended
    · cases hended
    · cases hended
    · cases hended
    · cases hended
    · cases hended
    · refine .inr ⟨?_, hunstored rfl⟩
      cases ht : p.task e.task with
      | await o k => exact Pool.live_of_await ht
      | done r =>
          rw [ht] at hend
          exact absurd rfl hend
    · exact .inl hstored
    · cases level with
      | stored => exact .inl hstored
      | finished => cases hstored
      | _ => cases hended

end Schedules

/-- Along every schedule in which a call stores rejections only for the command that it has reserved and
not executed, or over a rejection, what is stored is what was executed, and every outcome stays. -/
theorem outcomes_truthful_final (env : RemoteEnv) (w : RemoteWorld) (calls : ι → CommandCall)
    (sched sched' : List ι) (hC : Pool.Along (Pool.recorded (remoteHandle env)) (RejectsOwn env)
      (sched ++ sched') (startCommands calls w)) (id : String) :
    Truthful w ((startCommands calls w).runs (Pool.recorded (remoteHandle env)) (sched ++ sched')) id ∧
      Final ((startCommands calls w).runs (Pool.recorded (remoteHandle env)) sched).state.1
        ((startCommands calls w).runs (Pool.recorded (remoteHandle env)) (sched ++ sched')).state.1
        id := by
  have hstart : Underway env calls w (fun _ => .entered) (startCommands calls w) :=
    ⟨fun i => follows_call env (calls i), startCommands_commands env calls w,
      startCommands_outcomes env calls w⟩
  obtain ⟨⟨φ, hmiddle⟩, -⟩ := hstart.runs hC.append_left
  obtain ⟨⟨φ', hlast⟩, hfinal⟩ := hmiddle.runs hC.append_right
  rw [Pool.runs_append]
  exact ⟨hlast.truthful id, hfinal id⟩

/-! ## A run that meets the condition, and one that does not -/

/-- A command that stops all agents. -/
def stopPayload : SignedRemoteCommandPayload :=
  { samplePayload with
    type := .agentsStopAll
    subject := ⟨.control_node, "node_0123456789abcdef", 0⟩
    plan_hash := none }

/-- A command that is not enabled. -/
def dismissPayload : SignedRemoteCommandPayload :=
  { samplePayload with
    type := .notificationDismiss
    command_id := "cmd_fedcba9876543210"
    nonce := "fedcba9876543210" }

/-- The call that brings a command of the sample device. -/
def sampleCall (payload : SignedRemoteCommandPayload) : CommandCall :=
  .handle sampleDevice ⟨"request", some
    { payload := payload
      key_id := sampleDevice.keyId
      signature := String.ofList (List.replicate 86 'A') }⟩

/-- The sample device is paired. -/
def pairedWorld : RemoteWorld := { RemoteWorld.empty with devices := [sampleDevice] }

/-- A command that is executed, beside one that is rejected by the call that reserved it. -/
def stopBesideDismiss (first : Bool) : CommandCall :=
  sampleCall (if first then stopPayload else dismissPayload)

/-- The theorem at these two calls, their operations taking turns. -/
theorem outcomes_truthful_final_stop :
    Truthful pairedWorld ((startCommands stopBesideDismiss pairedWorld).runs
        (Pool.recorded (remoteHandle .sample)) ((List.replicate 20 [true, false]).flatten ++
          (List.replicate 20 [true, false]).flatten)) stopPayload.command_id ∧
      Final ((startCommands stopBesideDismiss pairedWorld).runs
          (Pool.recorded (remoteHandle .sample)) (List.replicate 20 [true, false]).flatten).state.1
        ((startCommands stopBesideDismiss pairedWorld).runs
          (Pool.recorded (remoteHandle .sample)) ((List.replicate 20 [true, false]).flatten ++
            (List.replicate 20 [true, false]).flatten)).state.1 stopPayload.command_id :=
  outcomes_truthful_final .sample pairedWorld stopBesideDismiss _ _ (by decide +kernel) _

/-- The sixth answer from outside, to the message that the command is completed, is an error. -/
def undelivered : RemoteEnv :=
  { RemoteEnv.sample with
    deliver := fun n => if n = 5 then .error (.thrown "The relay is unavailable.") else .ok () }

/-- The whole call, in this environment. -/
def undeliveredStop : CommandPool Unit :=
  (startCommands (fun _ => sampleCall stopPayload) pairedWorld).runs
    (Pool.recorded (remoteHandle undelivered)) (List.replicate 40 () ++ [])

/-- The agents are stopped, the message about it is not delivered, and the command is stored as
rejected. -/
theorem stopAll_rejected : ¬ ∀ (env : RemoteEnv) (w : RemoteWorld) (calls : Unit → CommandCall)
    (sched sched' : List Unit) (id : String),
    Truthful w ((startCommands calls w).runs (Pool.recorded (remoteHandle env)) (sched ++ sched')) id ∧
      Final ((startCommands calls w).runs (Pool.recorded (remoteHandle env)) sched).state.1
        ((startCommands calls w).runs (Pool.recorded (remoteHandle env)) (sched ++ sched')).state.1
        id := by
  intro h
  have htruthful : Truthful pairedWorld undeliveredStop stopPayload.command_id :=
    (h undelivered pairedWorld (fun _ => sampleCall stopPayload) (List.replicate 40 ()) [] _).1
  have hrun : (∃ e ∈ undeliveredStop.state.2, completes stopPayload.command_id e = true) ∧
      commandState undeliveredStop.state.1 stopPayload.command_id = some .rejected ∧
      undeliveredStop.live () = false := by decide +kernel
  obtain ⟨⟨e, he, hcompletes⟩, hrejected, hended⟩ := hrun
  rcases htruthful.complete e he hcompletes with hexecuted | ⟨hlive, -⟩
  · cases hrejected.symm.trans hexecuted
  · exact Bool.noConfusion (hended.symm.trans hlive)

end Vops.RemoteCommandHandler
