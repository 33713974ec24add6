import Vops.World
import Vops.AgentControl.RedactionThms

/-!
# The agent store (`agent-control/agent-store.ts`)

* `appendEvent` — read the last hash, hash the redacted payload, insert.
* `verifyEventChain` — compute every hash again, in the order of insertion.
* `storedSession_idem`, `storedPlan_idem`, … — a record that was read from the store is written back
  unchanged; `Stored` says this of every record of a world, and `stored_handle` that operations keep
  it.
* `Op.savesSession`, `Op.savesPlan`, … with `handle_sessions`, `handle_plans`, … — which operation
  changes which part of the world.
* `Op.quiet`, `Op.outside` — the operations that change nothing but the event log, the counters and the answers
  drawn from outside.
-/

namespace Vops

/-! ## Events -/

/-- `appendEvent` -/
def appendEvent (e : AgentEvent) : Prog AgentAuditEvent := do
  let previousHash ← perform .lastEventHash
  let detail := e.detail.map redactSecrets
  let hash ← perform (.digest (eventJson e detail previousHash))
  let stored : AgentAuditEvent :=
    ⟨{ e with detail := detail }, e.detail.any redactionApplied, previousHash, hash⟩
  perform (.insertEvent stored)
  return stored

/-- What `verifyEventChain` answers; `none` is `undefined`. -/
structure ChainVerdict where
  valid : Bool
  events : ℕ
  brokenAt : Option Json

/-- `event[key] === text`, where both may be `undefined`. -/
def isText : Option Json → Option String → Bool
  | none, none => true
  | some (.str s), some t => s == t
  | _, _ => false

/-- The loop of `verifyEventChain` over the remaining events, `count` being the number of all. -/
def checkEvents (count : ℕ) : Option String → List EventRecord → Prog ChainVerdict
  | _, [] => return ⟨true, count, none⟩
  | previousHash, event :: events => do
      let expected ← perform (.digest event.payload)
      if isText (event.get? "previousHash") previousHash &&
          isText (event.get? "hash") (some expected) then
        checkEvents count (some expected) events
      else return ⟨false, count, event.get? "eventId"⟩

/-- `verifyEventChain` -/
def verifyEventChain : Prog ChainVerdict := do
  let events ← perform .listEvents
  checkEvents events.length none events

/-! ## Records written back -/

@[simp] theorem map_redactText_idem (xs : List String) :
    (xs.map redactText).map redactText = xs.map redactText := by
  simp [Function.comp_def, redactText_idem]

@[simp] theorem option_redactText_idem (x : Option String) :
    (x.map redactText).map redactText = x.map redactText := by
  cases x <;> simp [redactText_idem]

/-- A session read from the store is written back unchanged. -/
theorem storedSession_idem (s : AgentSession) : storedSession (storedSession s) = storedSession s := by
  simp only [storedSession, redactText_idem, map_redactText_idem, option_redactText_idem,
    JsNum.bind_toJson_bind_toJson]

theorem storedStep_idem (step : AgentPlanStep) : storedStep (storedStep step) = storedStep step := by
  simp only [storedStep, redactText_idem, storedJson_idem]

/-- A plan read from the store is written back unchanged. -/
theorem storedPlan_idem (p : AgentPlan) : storedPlan (storedPlan p) = storedPlan p := by
  simp only [storedPlan, redactText_idem, option_redactText_idem, List.map_map, Function.comp_def,
    storedStep_idem]

/-- An approval read from the store is written back unchanged. -/
theorem storedApproval_idem (a : AgentApproval) :
    storedApproval (storedApproval a) = storedApproval a := by
  simp only [storedApproval, redactText_idem, map_redactText_idem, option_redactText_idem]

/-- Every record of the world is as it was read back from the store. -/
structure Stored (w : World) : Prop where
  sessions : ∀ r ∈ w.sessions, storedSession r.record = r.record
  plans : ∀ p ∈ w.plans, storedPlan p = p
  approvals : ∀ r ∈ w.approvals, storedApproval r.record = r.record

/-! ## Which operation changes what -/

/-- The operation writes a session. -/
def Op.savesSession : Op → Bool
  | saveSession _ _ => true
  | _ => false

/-- The operation writes a plan. -/
def Op.savesPlan : Op → Bool
  | savePlan _ => true
  | _ => false

/-- The operation writes an approval. -/
def Op.savesApproval : Op → Bool
  | saveApproval _ => true
  | _ => false

/-- The operation writes an operation record. -/
def Op.savesOperation : Op → Bool
  | saveOperation _ => true
  | _ => false

/-- The operation may write a file. -/
def Op.writesFile : Op → Bool
  | writeFile _ _ => true
  | service call => call.writes.isSome
  | _ => false

/-- The operation may create a server. -/
def Op.createsServer : Op → Bool
  | createServer _ _ => true
  | _ => false

variable {env : Env} {o : Op} {w : World}

section Frames

attribute [local simp] handle serviceEffect

theorem handle_sessions (h : o.savesSession = false) :
    (handle env o w).2.sessions = w.sessions := by
  cases o with
  | saveSession s tokenHash => cases h
  | service call => simp only [handle, serviceEffect]; cases call.writes <;> rfl
  | createServer config node =>
      simp only [handle]; cases env.createServer w.answers config <;> rfl
  | _ => rfl

theorem handle_plans (h : o.savesPlan = false) : (handle env o w).2.plans = w.plans := by
  cases o with
  | savePlan p => cases h
  | service call => simp only [handle, serviceEffect]; cases call.writes <;> rfl
  | createServer config node =>
      simp only [handle]; cases env.createServer w.answers config <;> rfl
  | _ => rfl

theorem handle_approvals (h : o.savesApproval = false) :
    (handle env o w).2.approvals = w.approvals := by
  cases o with
  | saveApproval a => cases h
  | service call => simp only [handle, serviceEffect]; cases call.writes <;> rfl
  | createServer config node =>
      simp only [handle]; cases env.createServer w.answers config <;> rfl
  | _ => rfl

theorem handle_operations (h : o.savesOperation = false) :
    (handle env o w).2.operations = w.operations := by
  cases o with
  | saveOperation a => cases h
  | service call => simp only [handle, serviceEffect]; cases call.writes <;> rfl
  | createServer config node =>
      simp only [handle]; cases env.createServer w.answers config <;> rfl
  | _ => rfl

theorem handle_files (h : o.writesFile = false) : (handle env o w).2.files = w.files := by
  cases o with
  | writeFile path text => cases h
  | service call =>
      have hnone : call.writes = none := by simpa [Op.writesFile] using h
      simp [handle, serviceEffect, hnone, World.drawn]
  | createServer config node =>
      simp only [handle]; cases env.createServer w.answers config <;> rfl
  | _ => rfl

theorem handle_created (h : o.createsServer = false) : (handle env o w).2.created = w.created := by
  cases o with
  | createServer config node => cases h
  | service call => simp only [handle, serviceEffect]; cases call.writes <;> rfl
  | _ => rfl

/-- No operation changes the catalog. -/
theorem handle_catalog : (handle env o w).2.catalog = w.catalog := by
  cases o with
  | service call => simp only [handle, serviceEffect]; cases call.writes <;> rfl
  | createServer config node =>
      simp only [handle]; cases env.createServer w.answers config <;> rfl
  | _ => rfl

/-- Identifiers only grow. -/
theorem handle_nextId : w.nextId ≤ (handle env o w).2.nextId := by
  cases o with
  | localId => exact Nat.le_succ _
  | service call => simp only [handle, serviceEffect]; cases call.writes <;> exact le_rfl
  | createServer config node =>
      simp only [handle]; cases env.createServer w.answers config <;> exact le_rfl
  | _ => exact le_rfl

end Frames

/-! ## Reading what was written -/

/-- A number of a record is read back as it was written. -/
theorem ofField_stored {x : Option JsNum} {a : ℚ} (h : JsNum.ofField x = .fin a) :
    JsNum.ofField (x.bind JsNum.toJson) = .fin a := by
  cases x with
  | none => exact h
  | some n =>
      obtain rfl : n = .fin a := h
      rfl

@[simp] theorem session_saveSession (s : AgentSession) (tokenHash : Option TokenHash) (id : ℕ) :
    (w.saveSession s tokenHash).session id = if s.id = id then some (storedSession s)
      else w.session id := by
  have hid : (⟨w.tokenHashFor s.id tokenHash, storedSession s⟩ : SessionRow).id = s.id := rfl
  simp only [World.session, World.saveSession, Table.get_upsert, hid]
  split <;> rfl

@[simp] theorem plan_savePlan (p : AgentPlan) (id : ℕ) :
    (w.savePlan p).plan id = if p.id = id then some (storedPlan p) else w.plan id := by
  have hid : (storedPlan p).id = p.id := rfl
  simp only [World.plan, World.savePlan, Table.get_upsert, hid]

@[simp] theorem approval_saveApproval (now : ℤ) (a : AgentApproval) (id : ℕ) :
    (w.saveApproval now a).approval id = if a.id = id then some (storedApproval a)
      else w.approval id := by
  have hid : (⟨w.requestedAtFor now a.id, storedApproval a⟩ : ApprovalRow).id = a.id := rfl
  simp only [World.approval, World.saveApproval, Table.get_upsert, hid]
  split <;> rfl

@[simp] theorem operation_saveOperation (o : AgentOperation) (id : ℕ) :
    (w.saveOperation o).operation id = if o.id = id then some (storedOperation o)
      else w.operation id := by
  have hid : (storedOperation o).id = o.id := rfl
  simp only [World.operation, World.saveOperation, Table.get_upsert, hid]

/-- A session that is read is in the table. -/
theorem mem_of_session {id : ℕ} {s : AgentSession} (h : w.session id = some s) :
    ∃ r ∈ w.sessions, r.record = s ∧ s.id = id := by
  obtain ⟨r, hr, rfl⟩ := Option.map_eq_some_iff.mp h
  have hid : SessionRow.id r = id := Table.key_of_get hr
  exact ⟨r, Table.mem_of_get hr, rfl, hid⟩

theorem session_id {id : ℕ} {s : AgentSession} (h : w.session id = some s) : s.id = id := by
  obtain ⟨-, -, -, hid⟩ := mem_of_session h
  exact hid

theorem operation_id {id : ℕ} {o : AgentOperation} (h : w.operation id = some o) : o.id = id :=
  Table.key_of_get h

theorem approval_id {id : ℕ} {a : AgentApproval} (h : w.approval id = some a) : a.id = id := by
  obtain ⟨r, hr, rfl⟩ := Option.map_eq_some_iff.mp h
  have hid : ApprovalRow.id r = id := Table.key_of_get hr
  exact hid

theorem Stored.session {id : ℕ} {s : AgentSession} (hw : Stored w) (h : w.session id = some s) :
    storedSession s = s := by
  obtain ⟨r, hr, rfl, -⟩ := mem_of_session h
  exact hw.sessions r hr

/-- Operations keep every record as it would be read back. -/
theorem stored_handle (hw : Stored w) : Stored (handle env o w).2 := by
  refine ⟨fun r hr => ?_, fun p hp => ?_, fun r hr => ?_⟩
  · by_cases ho : o.savesSession = true
    · cases o with
      | saveSession s tokenHash =>
          rcases Table.mem_upsert hr with rfl | hr
          · exact storedSession_idem s
          · exact hw.sessions r hr
      | _ => cases ho
    · rw [handle_sessions (by simpa using ho)] at hr
      exact hw.sessions r hr
  · by_cases ho : o.savesPlan = true
    · cases o with
      | savePlan q =>
          rcases Table.mem_upsert hp with rfl | hp
          · exact storedPlan_idem q
          · exact hw.plans p hp
      | _ => cases ho
    · rw [handle_plans (by simpa using ho)] at hp
      exact hw.plans p hp
  · by_cases ho : o.savesApproval = true
    · cases o with
      | saveApproval a =>
          rcases Table.mem_upsert hr with rfl | hr
          · exact storedApproval_idem a
          · exact hw.approvals r hr
      | _ => cases ho
    · rw [handle_approvals (by simpa using ho)] at hr
      exact hw.approvals r hr

/-- Whatever programs run, every record stays as it would be read back. -/
theorem stored_run {α : Type} (p : Prog α) (hw : Stored w) :
    Stored (Async.run (handle env) p w).2 := by
  induction p generalizing w with
  | done r => exact hw
  | await o k ih => exact ih _ (stored_handle hw)

theorem stored_sampleWorld : Stored sampleWorld where
  sessions := by
    have hstored : storedSession sampleSession = sampleSession := by decide
    simp [sampleWorld, hstored]
  plans := by simp [sampleWorld, World.empty]
  approvals := by simp [sampleWorld, World.empty]

/-! ## Quiet operations -/

/-- The operation changes no record, no file and no server, and is no marked call. -/
def Op.quiet : Op → Bool
  | saveSession _ _ | savePlan _ | saveApproval _ | saveOperation _ | execute _ | writeFile _ _
  | serversCreate _ | createServer _ _ => false
  | service call => call.writes.isNone
  | _ => true

/-- A quiet operation writes nothing. -/
theorem Op.quiet_writes (h : o.quiet = true) : o.savesSession = false ∧ o.savesPlan = false ∧
    o.savesApproval = false ∧ o.savesOperation = false ∧ o.writesFile = false ∧
    o.createsServer = false := by
  cases o with
  | service call => simpa [quiet, savesSession, savesPlan, savesApproval, savesOperation, writesFile,
      createsServer, Option.isSome_eq_false_iff] using h
  | _ => first | exact ⟨rfl, rfl, rfl, rfl, rfl, rfl⟩ | cases h

/-- The operation changes no record of the store, and marks no call. -/
def Op.outside : Op → Bool
  | saveSession _ _ | savePlan _ | saveApproval _ | saveOperation _ | execute _
  | serversCreate _ => false
  | _ => true

theorem Op.outside_of_quiet (h : o.quiet = true) : o.outside = true := by
  cases o <;> first | rfl | cases h

/-- An operation outside the store writes none of its tables. -/
theorem Op.outside_writes (h : o.outside = true) : o.savesSession = false ∧ o.savesPlan = false ∧
    o.savesApproval = false ∧ o.savesOperation = false := by
  cases o <;> first | exact ⟨rfl, rfl, rfl, rfl⟩ | cases h

/-- `appendEvent` is quiet. -/
theorem appendEvent_quiet (e : AgentEvent) : (appendEvent e).AllOps (·.quiet = true) :=
  ⟨rfl, fun _ => ⟨rfl, fun _ => ⟨rfl, fun _ => trivial⟩⟩⟩

end Vops
