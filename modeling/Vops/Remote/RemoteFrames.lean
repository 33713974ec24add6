import Vops.Remote.RemoteCommandHandler

/-!
# Which operation of remote control changes what

* `RemoteOp.quiet` — the operation writes no device, command or intent, and reads no intent;
  `Untouched` — what it leaves as it is.
* `execute_calm` — a command's execution writes no device and no command.
* `command_updateCommand`, `command_insertCommand`, `device_saveDevice`, `intent_saveIntent` — reading what
  was written.
-/

namespace Vops

open Async

/-! ## Operations -/

/-- The operation writes no device, no command and no intent, reads no intent, and marks nothing. -/
def RemoteOp.quiet : RemoteOp → Bool
  | saveDevice _ => false
  | rememberCommand _ _ _ _ => false
  | saveCommandResult _ _ => false
  | getIntent _ => false
  | listIntents => false
  | saveIntent _ => false
  | beginCheck => false
  | endCheck => false
  | execute _ _ => false
  | executed _ => false
  | executePlan _ _ _ => false
  | _ => true

/-- The operation reads or writes intents, or is quiet. -/
def RemoteOp.calm : RemoteOp → Bool
  | getIntent _ => true
  | listIntents => true
  | saveIntent _ => true
  | o => o.quiet

/-- The operation writes a command, or marks its execution. -/
def RemoteOp.ofCommand : RemoteOp → Bool
  | rememberCommand _ _ _ _ => true
  | saveCommandResult _ _ => true
  | execute _ _ => true
  | executed _ => true
  | _ => false

theorem RemoteOp.not_ofCommand_of_calm {o : RemoteOp} (h : o.calm = true) : o.ofCommand = false := by
  cases o <;> first | rfl | cases h

theorem RemoteOp.calm_of_quiet {o : RemoteOp} (h : o.quiet = true) : o.calm = true := by
  cases o <;> first | exact h | rfl

/-- Two worlds with the same devices, commands, nonces and intents. -/
structure Untouched (w w' : RemoteWorld) : Prop where
  devices : w'.devices = w.devices
  commands : w'.commands = w.commands
  nonces : w'.nonces = w.nonces
  intents : w'.intents = w.intents
  checking : w'.checking = w.checking

theorem untouched_vaultWritten {env : RemoteEnv} {w w' : RemoteWorld} (h : Untouched w w') :
    Untouched w (vaultWritten env w w').drawn := by
  unfold vaultWritten
  split
  · exact ⟨h.devices, h.commands, h.nonces, h.intents, h.checking⟩
  · exact ⟨rfl, rfl, rfl, rfl, rfl⟩

theorem untouched_of_quiet {env : RemoteEnv} {o : RemoteOp} {w : RemoteWorld}
    (h : o.quiet = true) : Untouched w (remoteHandle env o w).2 := by
  cases o with
  | setToken intentId token => exact untouched_vaultWritten ⟨rfl, rfl, rfl, rfl, rfl⟩
  | removeToken intentId => exact untouched_vaultWritten ⟨rfl, rfl, rfl, rfl, rfl⟩
  | _ => first | exact ⟨rfl, rfl, rfl, rfl, rfl⟩ | cases h

/-- The tables of the commands are written by operations on commands only. -/
theorem commands_of_not_ofCommand (env : RemoteEnv) (w : RemoteWorld) {o : RemoteOp}
    (h : o.ofCommand = false) : (remoteHandle env o w).2.commands = w.commands ∧
      (remoteHandle env o w).2.nonces = w.nonces := by
  by_cases hq : o.quiet = true
  · have hsame := @untouched_of_quiet env _ w hq
    exact ⟨hsame.commands, hsame.nonces⟩
  · cases o with
    | saveDevice device =>
        simp only [remoteHandle]
        split <;> exact ⟨rfl, rfl⟩
    | _ => first | exact ⟨rfl, rfl⟩ | exact absurd rfl hq | cases h

/-! ## Reading what was written -/

namespace RemoteWorld

variable {w : RemoteWorld}

theorem command_updateCommand (id id' : String) (record : CommandRecord) :
    (w.updateCommand id record).command id' =
      if id = id' then (w.command id').map fun _ => record else w.command id' := by
  have hkey : ∀ r : CommandRow, (if r.command_id = id then { r with record := record } else
      r).command_id = r.command_id := by
    intro r
    split <;> rfl
  unfold command updateCommand
  induction w.commands with
  | nil => simp
  | cons r rows ih =>
      simp only [List.map_cons, Table.get_cons, hkey]
      by_cases hr : r.command_id = id'
      · by_cases hid : id = id'
        · simp [hr, hid]
        · simp [hr, hid, Ne.symm hid]
      · simpa [hr] using ih

/-- A command that is not taken is read back once it is inserted. -/
theorem command_insertCommand {id nonce : String} (h : w.taken id nonce = false)
    (id' deviceId : String) (record : CommandRecord) :
    (w.insertCommand id deviceId nonce record).command id' =
      if id = id' then some record else w.command id' := by
  have hnone : ∀ r ∈ w.commands, r.command_id ≠ id := by
    simp only [taken, Bool.or_eq_false_iff, List.any_eq_false, beq_iff_eq] at h
    exact h.1
  unfold command insertCommand
  generalize w.commands = rows at hnone ⊢
  induction rows with
  | nil => by_cases hid : id = id' <;> simp [Table.get_cons, hid]
  | cons r rows ih =>
      have hr : r.command_id ≠ id := hnone r List.mem_cons_self
      have hrest := ih fun r hm => hnone r (List.mem_cons_of_mem _ hm)
      simp only [List.cons_append, Table.get_cons]
      by_cases hid : r.command_id = id'
      · have hne : id ≠ id' := fun h => hr (hid.trans h.symm)
        simp [hid, hne]
      · simpa [hid] using hrest

/-- A reservation that succeeds finds neither key taken, and inserts both rows. -/
theorem remembered {env : RemoteEnv} {id deviceId nonce : String} {record : CommandRecord}
    (h : (remoteHandle env (.rememberCommand id deviceId nonce record) w).1 = true) :
    w.taken id nonce = false ∧
      (remoteHandle env (.rememberCommand id deviceId nonce record) w).2 =
        (w.insertCommand id deviceId nonce record).drawn := by
  simp only [remoteHandle] at h ⊢
  split at h
  · cases h
  next hfree =>
    simp only [Bool.or_eq_true, not_or, Bool.not_eq_true] at hfree
    exact ⟨hfree.1, by simp [hfree]⟩

/-- A device that is saved is stored; one that is not leaves the world as it is. -/
theorem saveDevice_cases (env : RemoteEnv) (w : RemoteWorld) (d : RemoteDevice) :
    (w.routeTaken d = false ∧ remoteHandle env (.saveDevice d) w = (.ok (), w.saveDevice d)) ∨
      (w.routeTaken d = true ∧
        remoteHandle env (.saveDevice d) w = (.error routeConflict, w)) := by
  cases h : w.routeTaken d with
  | false => exact .inl ⟨rfl, by simp [remoteHandle, h]⟩
  | true => exact .inr ⟨rfl, by simp [remoteHandle, h]⟩

theorem device_saveDevice (d : RemoteDevice) (id : String) :
    (w.saveDevice d).device id = if d.id = id then some d else w.device id :=
  Table.get_upsert

theorem intent_saveIntent (i : RemoteIntent) (id : String) :
    (w.saveIntent i).intent id = if i.id = id then some i else w.intent id :=
  @Table.get_upsert _ _ _ (fun i : RemoteIntent => i.id) _ _ _

theorem device_id {id : String} {d : RemoteDevice} (h : w.device id = some d) : d.id = id :=
  Table.key_of_get h

theorem intent_id {id : String} {i : RemoteIntent} (h : w.intent id = some i) : i.id = id :=
  @Table.key_of_get _ _ _ (fun i : RemoteIntent => i.id) _ _ _ h

end RemoteWorld

/-! ## Quiet programs -/

section Programs

variable {α : Type} {P : RemoteOp → Prop}

theorem allOps_orFail (r : Except RemoteFailure α) : (orFail r).AllOps P := by
  cases r <;> trivial

theorem allOps_onlyWhen {c : Bool} {p : RemoteProg Unit} (hp : p.AllOps P) :
    (onlyWhen c p).AllOps P := by
  unfold onlyWhen
  split
  · exact hp
  · trivial

/-- Every operation of the program is quiet. -/
def Quiet (p : RemoteProg α) : Prop := p.AllOps fun o => o.quiet = true

theorem quiet_lift (p : Prog α) : Quiet (lift p) := allOps_lift (fun _ => rfl) p

theorem quiet_appendAudit (e : AgentEvent) : Quiet (appendAudit e) :=
  ⟨rfl, fun _ => (allOps_orFail _).bind fun _ => (quiet_lift _).bind fun _ => trivial⟩

theorem quiet_sendMessage (device : RemoteDevice) (channel : RemoteChannel)
    (message : RemoteMessage) : Quiet (sendMessage device channel message) := by
  unfold sendMessage
  split
  · trivial
  · exact ⟨rfl, fun _ => allOps_orFail _⟩

namespace IntentService

theorem quiet_event (intent : RemoteIntent) (eventType summary : String) :
    Quiet (event intent eventType summary) :=
  ⟨rfl, fun _ => ⟨rfl, fun _ => quiet_appendAudit _⟩⟩

theorem quiet_notify (intent : RemoteIntent) : Quiet (notify intent) := by
  refine ⟨rfl, fun device => ?_⟩
  cases device with
  | none => trivial
  | some device =>
      show AllOps _ (if device.status = .active then _ else _)
      split
      · exact AllOps.tryCatch (quiet_sendMessage _ _ _) fun _ => trivial
      · trivial

theorem quiet_deactivate (intent : RemoteIntent) : Quiet (deactivate intent) := by
  refine AllOps.bind (AllOps.tryCatch ?_ fun _ => trivial) fun _ => ⟨rfl, fun _ => allOps_orFail _⟩
  exact (quiet_lift _).bind fun _ => trivial

theorem quiet_conclude (intent : RemoteIntent) (eventType summary : String) :
    Quiet (conclude intent eventType summary) :=
  (quiet_event _ _ _).bind fun _ => (quiet_deactivate _).bind fun _ => quiet_notify _

end IntentService

/-- Every operation of the program reads or writes intents, or is quiet. -/
def Calm (p : RemoteProg α) : Prop := p.AllOps fun o => o.calm = true

theorem calm_of_quiet {p : RemoteProg α} (hp : Quiet p) : Calm p :=
  AllOps.mono (fun _ => RemoteOp.calm_of_quiet) hp

theorem calm_lift (p : Prog α) : Calm (lift p) := calm_of_quiet (quiet_lift p)

namespace IntentService

theorem calm_update (intent : RemoteIntent) (patch : IntentPatch) : Calm (update intent patch) :=
  ⟨rfl, fun _ => ⟨rfl, fun _ => trivial⟩⟩

theorem calm_transition (id deviceId : String) (status : IntentStatus) :
    Calm (transition id deviceId status) := by
  refine AllOps.perform_bind rfl fun intent => ?_
  cases intent with
  | none => trivial
  | some intent =>
      dsimp only
      split
      · trivial
      · split
        · exact (calm_update _ _).bind fun _ => (calm_of_quiet (quiet_event _ _ _)).bind fun _ =>
            trivial
        · split <;> trivial

theorem calm_revoke (id deviceId : String) : Calm (revoke id deviceId) :=
  (calm_transition _ _ _).bind fun _ => (calm_of_quiet (quiet_deactivate _)).bind fun _ => trivial

theorem calm_disableForDevice (deviceId : String) (revoke : Bool) :
    Calm (disableForDevice deviceId revoke) := by
  refine AllOps.perform_bind rfl fun intents => ?_
  induction intents.filter _ with
  | nil => trivial
  | cons intent intents ih =>
      refine (calm_update _ _).bind fun updated => (calm_of_quiet (quiet_event _ _ _)).bind fun _ => ?_
      exact (allOps_onlyWhen (calm_of_quiet (quiet_deactivate _))).bind fun _ => ih

theorem quiet_validateProposal (proposal : RemoteIntentProposal) :
    Quiet (validateProposal proposal) := by
  unfold validateProposal
  split
  · trivial
  split
  · trivial
  split
  · trivial
  split
  · trivial
  split
  · refine AllOps.perform_bind rfl fun now => ?_
    split
    · trivial
    · refine AllOps.perform_bind rfl fun now => ?_
      split <;> trivial
  · trivial

theorem quiet_requireGrant (device : RemoteDevice) (proposal : RemoteIntentProposal) :
    Quiet (requireGrant device proposal) := by
  unfold requireGrant
  split
  · trivial
  split
  · trivial
  split
  · trivial
  split
  · trivial
  split
  · trivial
  split <;> trivial

theorem calm_create (device : RemoteDevice) (proposal : RemoteIntentProposal) :
    Calm (create device proposal) := by
  refine (calm_of_quiet (quiet_validateProposal _)).bind fun _ => AllOps.perform_bind rfl fun old => ?_
  cases old with
  | some old => trivial
  | none =>
      refine (calm_of_quiet (quiet_requireGrant _ _)).bind fun _ => AllOps.perform_bind rfl fun _ =>
        (allOps_orFail _).bind fun _ => (calm_lift _).bind fun created => ?_
      refine (calm_lift _).bind fun _ => (calm_lift _).bind fun planned => ?_
      obtain ⟨plan, approval⟩ := planned
      cases approval with
      | none => trivial
      | some approval =>
          refine (calm_lift _).bind fun _ => AllOps.perform_bind rfl fun now => ?_
          refine AllOps.perform_bind rfl fun _ => AllOps.perform_bind rfl fun _ => ?_
          exact (allOps_orFail _).bind fun _ => (calm_of_quiet (quiet_event _ _ _)).bind fun _ =>
            trivial

end IntentService

namespace RemoteCommandHandler

theorem calm_requireSubject (payload : SignedRemoteCommandPayload) (kind : SubjectKind) :
    Calm (requireSubject payload kind) := by
  unfold requireSubject
  split <;> trivial

theorem calm_requireVersion (payload : SignedRemoteCommandPayload) (version : JsNum) :
    Calm (requireVersion payload version) := by
  unfold requireVersion
  split <;> trivial

theorem calm_requirePlanScope (device : RemoteDevice) (planId : ℕ) :
    Calm (requirePlanScope device planId) :=
  (calm_lift _).bind fun _ => allOps_orFail _

theorem calm_getOperation (id : String) : Calm (getOperation id) := by
  unfold getOperation
  split
  · exact calm_lift _
  · trivial

theorem calm_getSession (id : String) : Calm (getSession id) := by
  unfold getSession
  split
  · exact calm_lift _
  · trivial

theorem calm_getApproval (id : String) : Calm (getApproval id) := by
  unfold getApproval
  split
  · exact AllOps.of_perform rfl
  · trivial

theorem calm_planToDecide (device : RemoteDevice) (payload : SignedRemoteCommandPayload)
    (approval : AgentApproval) : Calm (planToDecide device payload approval) := by
  refine AllOps.perform_bind rfl fun requestedAt => (calm_requireVersion _ _).bind fun _ => ?_
  split
  · trivial
  · refine AllOps.perform_bind rfl fun now => ?_
    split
    · trivial
    split
    · trivial
    split
    · refine (calm_lift _).bind fun plan => ?_
      split
      · trivial
      · refine (calm_lift _).bind fun validation => ?_
        split
        · trivial
        · refine (allOps_orFail _).bind fun _ => ?_
          split <;> trivial
    · trivial

theorem calm_decideApproval (device : RemoteDevice) (payload : SignedRemoteCommandPayload) :
    Calm (decideApproval device payload) := by
  refine (calm_requireSubject _ _).bind fun _ => (calm_getApproval _).bind fun approval => ?_
  cases approval with
  | none => trivial
  | some approval =>
      refine (calm_planToDecide _ _ _).bind fun _ => ?_
      dsimp only
      split
      · exact (calm_lift _).bind fun _ => trivial
      · split
        · exact (calm_lift _).bind fun _ => trivial
        · trivial

theorem calm_operation {device : RemoteDevice} {payload : SignedRemoteCommandPayload}
    {f : AgentOperation → RemoteProg CommandResult} (hf : ∀ operation, Calm (f operation)) :
    Calm (do
      requireSubject payload .operation
      let operation ← getOperation payload.subject.id
      let updatedAt ← wait (.recordTime "operation" operation.id)
      requireVersion payload updatedAt
      requirePlanScope device operation.planId
      f operation) :=
  (calm_requireSubject _ _).bind fun _ => (calm_getOperation _).bind fun _ =>
    AllOps.perform_bind rfl fun _ => (calm_requireVersion _ _).bind fun _ =>
      (calm_requirePlanScope _ _).bind fun _ => hf _

theorem calm_rollbackOperation (device : RemoteDevice) (payload : SignedRemoteCommandPayload) :
    Calm (rollbackOperation device payload) := by
  refine calm_operation fun operation => ?_
  split
  · trivial
  · split
    · trivial
    · exact (calm_lift _).bind fun _ => trivial

theorem calm_controlAgent (device : RemoteDevice) (payload : SignedRemoteCommandPayload) :
    Calm (controlAgent device payload) := by
  refine (calm_requireSubject _ _).bind fun _ => (calm_getSession _).bind fun session =>
    AllOps.perform_bind rfl fun _ => (calm_requireVersion _ _).bind fun _ => ?_
  refine AllOps.bind ?_ fun _ => (calm_lift _).bind fun _ => trivial
  unfold requireProjectScope
  split <;> trivial

theorem calm_stopAll (device : RemoteDevice) (payload : SignedRemoteCommandPayload) :
    Calm (stopAll device payload) := by
  refine (calm_requireSubject _ _).bind fun _ => AllOps.bind ?_ fun _ =>
    (calm_lift _).bind fun _ => trivial
  refine AllOps.perform_bind rfl fun active => ?_
  split
  · trivial
  · exact ⟨rfl, fun _ => ⟨rfl, fun _ => ⟨rfl, fun _ => calm_of_quiet (quiet_appendAudit _)⟩⟩⟩

theorem calm_createIntent (device : RemoteDevice) (payload : SignedRemoteCommandPayload) :
    Calm (createIntent device payload) := by
  refine (calm_requireSubject _ _).bind fun _ => (calm_requireVersion _ _).bind fun _ => ?_
  split
  · trivial
  · split
    · trivial
    · exact (IntentService.calm_create _ _).bind fun _ => trivial

theorem calm_stopIntent (device : RemoteDevice) (payload : SignedRemoteCommandPayload) :
    Calm (stopIntent device payload) := by
  refine (calm_requireSubject _ _).bind fun _ => AllOps.perform_bind rfl fun intent => ?_
  cases intent with
  | none => trivial
  | some intent =>
      dsimp only
      split
      · trivial
      · refine (calm_requireVersion _ _).bind fun _ => ?_
        split
        · exact (IntentService.calm_transition _ _ _).bind fun _ => trivial
        · exact (IntentService.calm_revoke _ _).bind fun _ => trivial

/-- The execution of a command writes no device and no command. -/
theorem execute_calm (device : RemoteDevice) (payload : SignedRemoteCommandPayload) :
    Calm (execute device payload) := by
  unfold execute
  split
  · exact calm_decideApproval _ _
  · exact calm_operation fun _ => (calm_lift _).bind fun _ => trivial
  · exact calm_rollbackOperation _ _
  · exact calm_controlAgent _ _
  · exact calm_controlAgent _ _
  · exact calm_controlAgent _ _
  · exact calm_stopAll _ _
  · exact calm_createIntent _ _
  · exact calm_stopIntent _ _
  · exact calm_stopIntent _ _
  · trivial

end RemoteCommandHandler

end Programs

end Vops
