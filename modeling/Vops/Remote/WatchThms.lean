import Vops.Lib.AsyncTriple
import Vops.Remote.IntentWatch

/-!
# Does the final record of an intent tell what happened?

`evaluate` and `execute` each catch what is thrown in them, and write the record of the intent
again, from the copy that they have at hand.

* `Watched` — the table of intents, and the calls that were made; `Store` — what a call does to
  them.
* `asked` — the broker's answer for an intent, and how often its record was written since.
* `Harmless` — the condition on a step: how the store answers a write.
* `During` — what holds while one intent is visited; one triple for each program of the watcher.
* `outcome_told` — after a tick whose steps are harmless, every record tells what the broker
  answered, and none is left in `triggered` or `executing`.
-/

namespace Vops.IntentWatch

open Async (Triple After Surroundings attempted)

/-! ## The table and the calls -/

/-- The table of intents: no two rows have one identifier. -/
structure IntentTable where
  rows : List RemoteIntent
  keyed : Table.Keyed (fun i : RemoteIntent => i.id) rows

namespace IntentTable

/-- The stored record of an intent. -/
def find (table : IntentTable) (id : String) : Option RemoteIntent :=
  Table.get (fun i : RemoteIntent => i.id) id table.rows

/-- Upsert of an intent. -/
def save (table : IntentTable) (intent : RemoteIntent) : IntentTable :=
  ⟨Table.upsert (fun i : RemoteIntent => i.id) intent table.rows, table.keyed.upsert⟩

theorem find_save (table : IntentTable) (intent : RemoteIntent) (id : String) :
    (table.save intent).find id = if intent.id = id then some intent else table.find id :=
  Table.get_upsert

theorem find_of_mem {table : IntentTable} {intent : RemoteIntent} (h : intent ∈ table.rows) :
    table.find intent.id = some intent :=
  table.keyed.get_eq h

end IntentTable

/-- The calls that were made, with their answers, the last one first. -/
abbrev Calls := Async.Trace WatchOp WatchRes

/-- The table of intents, and the calls that were made. -/
structure Watched where
  intents : IntentTable
  calls : Calls

/-- The table after a call: a write that succeeds stores the record, and one that fails stores
nothing. -/
def leaves : (o : WatchOp) → WatchRes o → IntentTable → IntentTable
  | .saveIntent intent, .ok _, table => table.save intent
  | _, _, table => table

/-- What is listed are the rows of the table. -/
def Lists : (o : WatchOp) → WatchRes o → IntentTable → Prop
  | .listIntents, .ok rows, table => rows.Perm table.rows
  | _, _, _ => True

/-- Every call can fail, and have any answer of its type. -/
def Store : Surroundings WatchOp WatchRes Watched := fun o w x w' =>
  Lists o x w.intents ∧ w' = ⟨leaves o x w.intents, ⟨o, x⟩ :: w.calls⟩

/-! ## What was asked of the broker -/

/-- An answer of the broker, and the number of times that the record was written since, or was to be
written. -/
abbrev Asked := Except RemoteFailure AgentOperation × ℕ

/-- One more call, as far as an intent is concerned. -/
def askedStep (id : String) : (o : WatchOp) → WatchRes o → Option Asked → Option Asked
  | .executePlan id' _ _, x, a => if id' = id then some (x, 0) else a
  | .saveIntent intent, _, a => a.map fun a => (a.1, if intent.id = id then a.2 + 1 else a.2)
  | _, _, a => a

/-- The broker's last answer for an intent, and how often its record was written since. -/
def asked (id : String) (calls : Calls) : Option Asked :=
  calls.foldr (fun e a => askedStep id e.1 e.2 a) none

/-- The broker has returned an operation that did not succeed. -/
def unsuccessful : Except RemoteFailure AgentOperation → Bool
  | .ok operation => operation.state != .succeeded
  | .error _ => false

/-- A write of the record may succeed: the broker was not asked, or this is the first write since,
or the second and the operation did not succeed. -/
def MayStore : Option Asked → Prop
  | none => True
  | some (x, n) => n = 0 ∨ n = 1 ∧ unsuccessful x = true

/-- The broker has answered, and the record was not yet written. -/
def unwritten : Option Asked → Bool
  | some (_, n) => n == 0
  | none => false

/-- The intent is stored as triggered. -/
def isTriggered (stored : Option RemoteIntent) : Bool :=
  stored.any fun i => i.status == .triggered

/-- A write of a record with this status may fail, where this record is stored: it is not the first
write since the broker has answered, and where the intent is stored as triggered it is the one of
`executing`. -/
def MayFail (stored : Option RemoteIntent) (a : Option Asked) (status : IntentStatus) : Prop :=
  unwritten a = false ∧ (isTriggered stored = true → status = .executing)

/-- The condition on a step: how the store answers the write of a record. -/
def Harmless : (o : WatchOp) → Watched → WatchRes o → Prop
  | .saveIntent intent, w, .ok _ => MayStore (asked intent.id w.calls)
  | .saveIntent intent, w, .error _ =>
      MayFail (w.intents.find intent.id) (asked intent.id w.calls) intent.status
  | _, _, _ => True

instance : (a : Option Asked) → Decidable (MayStore a)
  | none => inferInstanceAs (Decidable True)
  | some (x, n) => inferInstanceAs (Decidable (n = 0 ∨ n = 1 ∧ unsuccessful x = true))

instance : (o : WatchOp) → (w : Watched) → (x : WatchRes o) → Decidable (Harmless o w x)
  | .saveIntent intent, w, .ok _ =>
      inferInstanceAs (Decidable (MayStore (asked intent.id w.calls)))
  | .saveIntent intent, w, .error _ => inferInstanceAs (Decidable
      (unwritten (asked intent.id w.calls) = false ∧
        (isTriggered (w.intents.find intent.id) = true → intent.status = .executing)))
  | .now, _, _ => inferInstanceAs (Decidable True)
  | .localId, _, _ => inferInstanceAs (Decidable True)
  | .beginCheck, _, _ => inferInstanceAs (Decidable True)
  | .endCheck, _, _ => inferInstanceAs (Decidable True)
  | .listIntents, _, _ => inferInstanceAs (Decidable True)
  | .getDevice _, _, _ => inferInstanceAs (Decidable True)
  | .availability _ _, _, _ => inferInstanceAs (Decidable True)
  | .getToken _, _, _ => inferInstanceAs (Decidable True)
  | .removeToken _, _, _ => inferInstanceAs (Decidable True)
  | .executePlan _ _ _, _, _ => inferInstanceAs (Decidable True)
  | .appendEvent _, _, _ => inferInstanceAs (Decidable True)
  | .revokeSession _, _, _ => inferInstanceAs (Decidable True)
  | .send _ _, _, _ => inferInstanceAs (Decidable True)

/-- The steps of a tick that meet the condition. -/
abbrev HarmlessStore : Surroundings WatchOp WatchRes Watched := Async.given Store Harmless

/-! ## What a record tells -/

/-- The record tells what the broker answered. -/
structure Tells (x : Except RemoteFailure AgentOperation) (i : RemoteIntent) : Prop where
  count : i.executionCount = 1
  operation : ∀ operation, x = .ok operation → i.operationId = some operation.id
  succeeded : i.status = .succeeded ↔ ∃ operation, x = .ok operation ∧ operation.state = .succeeded

/-- No execution is under way. -/
def Settled (i : RemoteIntent) : Prop := i.status ≠ .triggered ∧ i.status ≠ .executing

/-- What is stored of an intent once it was visited: where the broker was asked, the record tells
what it answered. -/
def Ended (stored : Option RemoteIntent) (a : Option Asked) : Prop :=
  (∀ i, stored = some i → Settled i) ∧
    ∀ x n, a = some (x, n) → ∃ i, stored = some i ∧ Tells x i

/-- Every call of the broker is the last one for its intent. -/
def Once (calls : Calls) : Prop :=
  ∀ id token planId x, ⟨.executePlan id token planId, x⟩ ∈ calls → ∃ n, asked id calls = some (x, n)

/-- An assertion about what is stored of an intent, and what was asked of the broker for it. -/
abbrev Assertion := Option RemoteIntent → Option Asked → Prop

/-- While the intent `c` is visited, those of `rest` are not yet: the others have ended, and of `c`
the assertion holds. -/
structure During (c : String) (rest : List String) (P : Assertion) (w : Watched) : Prop where
  once : Once w.calls
  others : ∀ id, id ≠ c → Ended (w.intents.find id) (asked id w.calls)
  fresh : ∀ id ∈ rest, id ≠ c ∧ asked id w.calls = none
  here : P (w.intents.find c) (asked c w.calls)

theorem During.mono {c : String} {rest : List String} {P P' : Assertion} {w : Watched}
    (h : During c rest P w) (hP : ∀ stored a, P stored a → P' stored a) : During c rest P' w :=
  ⟨h.once, h.others, h.fresh, hP _ _ h.here⟩

/-! ## One call -/

/-- The call neither writes a record nor asks the broker. -/
def Plain : WatchOp → Prop
  | .saveIntent _ => False
  | .executePlan _ _ _ => False
  | _ => True

/-- The record was written once more, or was to be written. -/
def wrote (a : Option Asked) : Option Asked := a.map fun a => (a.1, a.2 + 1)

theorem askedStep_plain {o : WatchOp} (ho : Plain o) (x : WatchRes o) (id : String)
    (a : Option Asked) : askedStep id o x a = a := by
  cases o with
  | saveIntent intent => exact ho.elim
  | executePlan id' token planId => exact ho.elim
  | _ => rfl

theorem leaves_plain {o : WatchOp} (ho : Plain o) (x : WatchRes o) (table : IntentTable) :
    leaves o x table = table := by
  cases o with
  | saveIntent intent => exact ho.elim
  | executePlan id token planId => exact ho.elim
  | _ => rfl

theorem askedStep_save (id : String) (intent : RemoteIntent) (x : Except RemoteFailure Unit)
    (a : Option Asked) : askedStep id (.saveIntent intent) x a =
      if intent.id = id then wrote a else a := by
  by_cases h : intent.id = id
  · simp [askedStep, wrote, h]
  · cases a <;> simp [askedStep, h]

theorem asked_save (id : String) (intent : RemoteIntent) (x : Except RemoteFailure Unit)
    (calls : Calls) : asked id (⟨.saveIntent intent, x⟩ :: calls) =
      if intent.id = id then wrote (asked id calls) else asked id calls :=
  askedStep_save id intent x (asked id calls)

/-- The assertion about a write that has succeeded, or failed. -/
def Written (P E : Assertion) : Except RemoteFailure Unit → Assertion
  | .ok _ => P
  | .error _ => E

/-- What was asked for an intent is not forgotten by a call that does not ask the broker. -/
theorem Once.step {calls : Calls} {o : WatchOp} {x : WatchRes o} (h : Once calls)
    (ho : ∀ id token planId, o ≠ .executePlan id token planId) : Once (⟨o, x⟩ :: calls) := by
  intro id token planId y hy
  rcases List.mem_cons.mp hy with hy | hy
  · cases hy
    exact absurd rfl (ho id token planId)
  · obtain ⟨n, hn⟩ := h id token planId y hy
    change ∃ m, askedStep id o x (asked id calls) = _
    rw [hn]
    cases o with
    | executePlan id' token' planId' => exact absurd rfl (ho id' token' planId')
    | saveIntent intent => exact ⟨_, rfl⟩
    | _ => exact ⟨n, rfl⟩

/-- A plain call leaves the table, and what was asked of the broker. -/
theorem plain_step {o : WatchOp} {w w' : Watched} {x : WatchRes o} (ho : Plain o)
    (hx : HarmlessStore o w x w') : w'.intents = w.intents ∧
      (∀ id, asked id w'.calls = asked id w.calls) ∧ (Once w.calls → Once w'.calls) := by
  obtain ⟨⟨-, rfl⟩, -⟩ := hx
  refine ⟨leaves_plain ho x _, fun id => askedStep_plain ho x id _, fun h => h.step ?_⟩
  rintro id token planId rfl
  exact ho

section Steps

variable {c : String} {rest : List String} {P : Assertion} {w w' : Watched}

theorem During.plain {o : WatchOp} {x : WatchRes o} (ho : Plain o) (h : During c rest P w)
    (hx : HarmlessStore o w x w') : During c rest P w' := by
  obtain ⟨htable, hasked, honce⟩ := plain_step ho hx
  refine ⟨honce h.once, fun id hid => ?_, fun id hid => ?_, ?_⟩
  · rw [hasked, htable]
    exact h.others id hid
  · rw [hasked]
    exact h.fresh id hid
  · rw [hasked, htable]
    exact h.here

/-- The broker is asked for the intent that is visited, for the first time. -/
theorem During.ask {token planId : ℕ} {x : Except RemoteFailure AgentOperation}
    (h : During c rest P w) (hP : ∀ stored a, P stored a → a = none)
    (hx : HarmlessStore (.executePlan c token planId) w x w') :
    During c rest (fun _ a => a = some (x, 0)) w' := by
  obtain ⟨⟨-, rfl⟩, -⟩ := hx
  have hnone : asked c w.calls = none := hP _ _ h.here
  have hself : asked c (⟨.executePlan c token planId, x⟩ :: w.calls) = some (x, 0) := if_pos rfl
  have hother (id : String) (hid : id ≠ c) :
      asked id (⟨.executePlan c token planId, x⟩ :: w.calls) = asked id w.calls :=
    if_neg hid.symm
  refine ⟨fun id token' planId' y hy => ?_, fun id hid => ?_, fun id hid => ?_, hself⟩
  · rcases List.mem_cons.mp hy with hy | hy
    · cases hy
      exact ⟨0, hself⟩
    · obtain ⟨n, hn⟩ := h.once id token' planId' y hy
      have hid : id ≠ c := by
        rintro rfl
        rw [hnone] at hn
        cases hn
      exact ⟨n, (hother id hid).trans hn⟩
  · rw [hother id hid]
    exact h.others id hid
  · rw [hother id (h.fresh id hid).1]
    exact h.fresh id hid

/-- The record of the intent that is visited is written, or was to be written. -/
theorem During.save {P' : Assertion} {intent : RemoteIntent} {x : Except RemoteFailure Unit}
    (h : During c rest P w) (hid : intent.id = c)
    (hx : HarmlessStore (.saveIntent intent) w x w')
    (hok : x = .ok () → ∀ stored a, P stored a → MayStore a → P' (some intent) (wrote a))
    (herr : ∀ e, x = .error e → ∀ stored a, P stored a → MayFail stored a intent.status →
      P' stored (wrote a)) : During c rest P' w' := by
  obtain ⟨⟨-, rfl⟩, hharmless⟩ := hx
  subst hid
  have hself : asked intent.id (⟨.saveIntent intent, x⟩ :: w.calls) =
      wrote (asked intent.id w.calls) := (asked_save _ _ _ _).trans (if_pos rfl)
  have hother (id : String) (hid : id ≠ intent.id) :
      asked id (⟨.saveIntent intent, x⟩ :: w.calls) = asked id w.calls :=
    (asked_save _ _ _ _).trans (if_neg hid.symm)
  have hfind (id : String) (hid : id ≠ intent.id) :
      (leaves (.saveIntent intent) x w.intents).find id = w.intents.find id := by
    cases x with
    | ok u => exact (IntentTable.find_save w.intents intent id).trans (if_neg hid.symm)
    | error e => rfl
  refine ⟨h.once.step fun _ _ _ => by simp, fun id hid => ?_, fun id hid => ?_, ?_⟩
  · rw [hother id hid, hfind id hid]
    exact h.others id hid
  · rw [hother id (h.fresh id hid).1]
    exact h.fresh id hid
  · rw [hself]
    cases x with
    | ok u =>
        have hstored : (leaves (.saveIntent intent) (.ok u) w.intents).find intent.id =
            some intent := (IntentTable.find_save w.intents intent _).trans (if_pos rfl)
        rw [hstored]
        exact hok rfl _ _ h.here hharmless
    | error e => exact herr e rfl _ _ h.here hharmless

end Steps

/-! ## Triples -/

/-- From a state of the visit with `P`, the program ends in a value with `Q`, or throws with `E`. -/
abbrev Visits {α : Type} (c : String) (rest : List String) (P : Assertion) (p : WatchProg α)
    (Q : α → Assertion) (E : Assertion) : Prop :=
  Triple HarmlessStore (During c rest P) p (fun a => During c rest (Q a)) (During c rest E)

section Triples

variable {c : String} {rest : List String} {P E : Assertion}

/-- A program of plain calls keeps every assertion. -/
theorem visits_plain {α : Type} {p : WatchProg α} (hp : p.AllOps Plain) :
    Visits c rest P p (fun _ => P) P :=
  Triple.of_allOps hp fun _ _ _ _ ho hx h => h.plain ho hx

/-- One plain call, with what follows its answer. -/
theorem visits_call {α : Type} {o : WatchOp} {f : WatchRes o → WatchProg α} {Q : α → Assertion}
    (ho : Plain o) (hf : ∀ x, Visits c rest P (f x) Q E) :
    Visits c rest P (call o >>= f) Q E :=
  Triple.bind (Triple.perform fun _ _ _ h hx => h.plain ho hx) hf

/-- An answer that is used, or whose error is thrown. -/
theorem visits_returned {α β : Type} {r : Except RemoteFailure α} {f : α → WatchProg β}
    {Q : β → Assertion} (hf : ∀ a, Visits c rest P (f a) Q E)
    (hE : ∀ stored a, P stored a → E stored a) : Visits c rest P (returned r >>= f) Q E := by
  cases r with
  | ok a => exact hf a
  | error e => exact Triple.error fun _ h => h.mono hE

/-- The rule of consequence. -/
theorem visits_conseq {α : Type} {p : WatchProg α} {P' E' : Assertion} {Q Q' : α → Assertion}
    (hp : Visits c rest P p Q E) (hP : ∀ stored a, P' stored a → P stored a)
    (hQ : ∀ x stored a, Q x stored a → Q' x stored a) (hE : ∀ stored a, E stored a → E' stored a) :
    Visits c rest P' p Q' E' :=
  Triple.conseq hp (fun _ h => h.mono hP) (fun x _ h => h.mono (hQ x)) fun _ h => h.mono hE

/-- `update`: what is stored where the write succeeds, and where it fails. -/
theorem visits_update {Q : RemoteIntent → Assertion} {intent : RemoteIntent}
    {patch : IntentService.IntentPatch} (hid : intent.id = c)
    (hok : ∀ now stored a, P stored a → MayStore a →
      Q (IntentService.patched intent patch now)
        (some (IntentService.patched intent patch now)) (wrote a))
    (herr : ∀ now stored a, P stored a →
      MayFail stored a (IntentService.patched intent patch now).status → E stored (wrote a)) :
    Visits c rest P (update intent patch) (fun u stored a => u.id = c ∧ Q u stored a) E := by
  refine visits_call True.intro fun now => Triple.bind
    (M := fun x => During c rest (Written (Q (IntentService.patched intent patch now)) E x)) ?_
    fun x => ?_
  · have hupdated : (IntentService.patched intent patch now).id = c := hid
    refine Triple.perform fun w x w' h hx => h.save hupdated hx ?_ ?_
    · rintro rfl
      exact hok now
    · rintro e rfl
      exact herr now
  · cases x with
    | ok u => exact Triple.ok fun _ h => h.mono fun _ _ hQ => ⟨hid, hQ⟩
    | error e => exact Triple.error fun _ h => h

/-! ## The steps of the watcher -/

variable {intent : RemoteIntent}

theorem visits_conclude {eventType summary : String} :
    Visits c rest P (conclude intent eventType summary) (fun _ => P) P := by
  refine visits_plain ?_
  refine Async.AllOps.bind ?_ fun _ => Async.AllOps.bind ?_ fun _ => ?_
  · exact ⟨True.intro, fun _ => ⟨True.intro, fun _ => ⟨True.intro, fun r => .of_done r⟩⟩⟩
  · exact ⟨True.intro, fun _ => ⟨True.intro, fun r => .of_done r⟩⟩
  · refine ⟨True.intro, fun found => ?_⟩
    cases found with
    | error e => exact .of_done _
    | ok found =>
        cases found with
        | none => exact .of_done _
        | some device =>
            change (notifyDevice intent (some device)).AllOps Plain
            rw [notifyDevice]
            split
            · exact ⟨True.intro, fun _ => .of_done _⟩
            · exact .of_done _

theorem visits_event {eventType summary : String} :
    Visits c rest P (event intent eventType summary) (fun _ => P) P :=
  visits_plain ⟨True.intro, fun _ => ⟨True.intro, fun _ => ⟨True.intro, fun r => .of_done r⟩⟩⟩

/-- A `catch`: the record says that the intent has failed, or could not be written. -/
theorem visits_failIntent {executionCount : Option ℕ} {summary : String} {failure : RemoteFailure}
    {Q : Assertion} (hid : intent.id = c)
    (hok : ∀ i stored a, P stored a → MayStore a → i.status = .failed →
      i.executionCount = executionCount.getD intent.executionCount →
      i.operationId = intent.operationId → Q (some i) (wrote a))
    (herr : ∀ stored a, P stored a → MayFail stored a .failed → Q stored (wrote a)) :
    Visits c rest P (failIntent intent executionCount summary failure) (fun _ => Q) Q := by
  refine Triple.bind (visits_update (Q := fun _ => Q) hid (fun now stored a hP hmay => ?_)
    fun now stored a hP hmay => herr stored a hP hmay) fun failed => ?_
  · exact hok _ stored a hP hmay rfl rfl rfl
  · exact visits_conseq visits_conclude (fun _ _ h => h.2) (fun _ _ _ h => h) fun _ _ h => h

/-! ### Before the broker is asked -/

/-- The broker was not asked, and no execution is under way. -/
def Calm (stored : Option RemoteIntent) (a : Option Asked) : Prop :=
  a = none ∧ ∀ i, stored = some i → Settled i

/-- The broker was not asked, and the intent is stored as triggered. -/
def Lit (stored : Option RemoteIntent) (a : Option Asked) : Prop :=
  a = none ∧ ∃ i, stored = some i ∧ i.status = .triggered

/-- The broker has answered, and the record was not yet written. -/
def Answered (x : Except RemoteFailure AgentOperation) (_ : Option RemoteIntent)
    (a : Option Asked) : Prop :=
  a = some (x, 0)

/-- The record was written since the broker has answered, and tells the answer. -/
def Told (x : Except RemoteFailure AgentOperation) (n : ℕ) (stored : Option RemoteIntent)
    (a : Option Asked) : Prop :=
  a = some (x, n + 1) ∧ ∃ i, stored = some i ∧ Settled i ∧ Tells x i

/-- The record tells the broker's answer, and can not be written again. -/
def Shut (stored : Option RemoteIntent) (a : Option Asked) : Prop :=
  Ended stored a ∧ ¬ MayStore a

theorem Told.ended {x : Except RemoteFailure AgentOperation} {n : ℕ}
    {stored : Option RemoteIntent} {a : Option Asked} (h : Told x n stored a) : Ended stored a := by
  obtain ⟨rfl, i, rfl, hsettled, htells⟩ := h
  refine ⟨?_, ?_⟩
  · rintro _ ⟨⟩
    exact hsettled
  · rintro _ _ ⟨⟩
    exact ⟨i, rfl, htells⟩

theorem Told.shut {x : Except RemoteFailure AgentOperation} {n : ℕ} {stored : Option RemoteIntent}
    {a : Option Asked} (h : Told x n stored a) (hn : n ≠ 0 ∨ unsuccessful x = false) :
    Shut stored a := by
  refine ⟨h.ended, fun hmay => ?_⟩
  obtain ⟨rfl, -⟩ := h
  rcases hmay with hzero | ⟨hone, hun⟩
  · cases hzero
  · rcases hn with hn | hn
    · exact hn (Nat.succ_injective hone)
    · rw [hn] at hun
      cases hun

/-! ### What a record tells -/

theorem tells_outcome {executing : RemoteIntent} {operation : AgentOperation} {now : ℤ} :
    Tells (.ok operation)
      (IntentService.patched executing (IntentService.outcomePatch operation) now) := by
  refine ⟨rfl, ?_, ?_⟩
  · rintro _ ⟨⟩
    rfl
  · by_cases hstate : operation.state = .succeeded
    · simp [IntentService.patched, IntentService.outcomePatch, hstate]
    · simp [IntentService.patched, IntentService.outcomePatch, hstate]

theorem settled_outcome {executing : RemoteIntent} {operation : AgentOperation} {now : ℤ} :
    Settled (IntentService.patched executing (IntentService.outcomePatch operation) now) := by
  by_cases hstate : operation.state = .succeeded
  · simp [Settled, IntentService.patched, IntentService.outcomePatch, hstate]
  · simp [Settled, IntentService.patched, IntentService.outcomePatch, hstate]

theorem Settled.of_failed {i : RemoteIntent} (h : i.status = .failed) : Settled i := by
  simp [Settled, h]

theorem tells_failed {x : Except RemoteFailure AgentOperation} {i : RemoteIntent}
    (hstatus : i.status = .failed) (hcount : i.executionCount = 1)
    (hx : ∀ operation, x = .ok operation →
      i.operationId = some operation.id ∧ operation.state ≠ .succeeded) : Tells x i := by
  refine ⟨hcount, fun operation hop => (hx operation hop).1, ?_⟩
  rw [hstatus]
  constructor
  · rintro ⟨⟩
  · rintro ⟨operation, hop, hstate⟩
    exact absurd hstate (hx operation hop).2

/-! ### The execution -/

/-- The plan is executed and its outcome recorded, or the broker has answered with an error. -/
theorem visits_executeOnce {token : ℕ} (hid : intent.id = c) :
    Visits c rest (fun _ a => a = none) (executeOnce token intent)
      (fun r stored a => r.1.id = c ∧ stored = some r.1 ∧ Told (.ok r.2) 0 stored a)
      (fun stored a => ∃ e, Answered (.error e) stored a) := by
  subst hid
  refine Triple.bind (M := fun x => During intent.id rest (Answered x))
    (Triple.perform fun _ _ _ h hx => h.ask (fun _ _ hP => hP) hx) fun x => ?_
  cases x with
  | error e => exact Triple.error fun _ h => h.mono fun _ _ ha => ⟨e, ha⟩
  | ok operation =>
      change Visits intent.id rest _ (update intent (IntentService.outcomePatch operation) >>=
        fun recorded => .done (.ok (recorded, operation))) _ _
      refine Triple.bind (visits_update (Q := fun u stored a => stored = some u ∧
        Told (.ok operation) 0 stored a) rfl ?_ ?_) fun recorded => Triple.ok fun _ h => h
      · rintro now stored a rfl -
        exact ⟨rfl, rfl, _, rfl, settled_outcome, tells_outcome⟩
      · rintro now stored a rfl hmay
        cases hmay.1

/-- The `catch` of `execute`, where the broker has answered with an error. -/
theorem visits_finish_error {e : RemoteFailure} (hid : intent.id = c) :
    Visits c rest (fun stored a => ∃ e, Answered (.error e) stored a) (finish intent (.error e))
      (fun _ => Ended) Shut := by
  refine visits_conseq (visits_failIntent (Q := Shut) hid ?_ ?_) (fun _ _ h => h)
    (fun _ _ _ h => h.1) fun _ _ h => h
  · rintro i stored a ⟨e', rfl⟩ - hstatus hcount -
    have htells : Tells (.error e') i :=
      tells_failed hstatus hcount fun operation hop => by cases hop
    exact Told.shut (x := .error e') (n := 0) ⟨rfl, i, rfl, .of_failed hstatus, htells⟩ (.inr rfl)
  · rintro stored a ⟨e', rfl⟩ hmay
    cases hmay.1

/-- The `catch` of `execute`, where the outcome was recorded. -/
theorem visits_finish_ok {recorded : RemoteIntent} {operation : AgentOperation}
    (hid : recorded.id = c) :
    Visits c rest (fun stored a => stored = some recorded ∧ Told (.ok operation) 0 stored a)
      (finish intent (.ok (recorded, operation))) (fun _ => Ended) Shut := by
  refine Triple.tryCatch (visits_conseq visits_conclude (fun _ _ h => h)
    (fun _ _ _ h => h.2.ended) fun _ _ h => h) fun e => ?_
  refine visits_conseq (visits_failIntent (Q := Shut) hid ?_ ?_) (fun _ _ h => h)
    (fun _ _ _ h => h.1) fun _ _ h => h
  · rintro i stored a ⟨rfl, rfl, _, ⟨⟩, -, htells⟩ hmay hstatus hcount hoperation
    rcases hmay with hzero | ⟨-, hun⟩
    · cases hzero
    · refine Told.shut (x := .ok operation) (n := 1)
        ⟨rfl, i, rfl, .of_failed hstatus, tells_failed hstatus hcount ?_⟩ (.inl one_ne_zero)
      rintro _ ⟨⟩
      exact ⟨hoperation.trans (htells.operation _ rfl), by simpa [unsuccessful] using hun⟩
  · rintro stored a ⟨rfl, rfl, _, ⟨⟩, hsettled, htells⟩ -
    exact Told.shut (x := .ok operation) (n := 1) ⟨rfl, _, rfl, hsettled, htells⟩
      (.inl one_ne_zero)

/-- A fact that the assertion states about the program. -/
theorem visits_of_fact {α : Type} {φ : Prop} {p : WatchProg α} {Q : α → Assertion}
    (h : φ → Visits c rest P p Q E) : Visits c rest (fun stored a => φ ∧ P stored a) p Q E := by
  intro w hw
  exact h hw.here.1 w (hw.mono fun _ _ hP => hP.2)

/-- Where `execute` throws: the broker was not asked, or the record can not be written again. -/
def Stopped (stored : Option RemoteIntent) (a : Option Asked) : Prop :=
  Lit stored a ∨ Shut stored a

theorem visits_finish {executing : RemoteIntent}
    (ended : Except RemoteFailure (RemoteIntent × AgentOperation)) (hid : executing.id = c) :
    Triple HarmlessStore
      (After (fun r => During c rest fun stored a =>
          r.1.id = c ∧ stored = some r.1 ∧ Told (.ok r.2) 0 stored a)
        (During c rest fun stored a => ∃ e, Answered (.error e) stored a) ended)
      (finish executing ended) (fun _ => During c rest Ended) (During c rest Shut) := by
  cases ended with
  | error e => exact visits_finish_error hid
  | ok r => exact visits_of_fact fun hr => visits_finish_ok hr

theorem visits_execute (hid : intent.id = c) :
    Visits c rest Lit (execute intent) (fun _ => Ended) Stopped := by
  refine visits_call True.intro fun x => visits_returned (fun found => ?_) fun _ _ => .inl
  cases found with
  | none => exact Triple.error fun _ h => h.mono fun _ _ => .inl
  | some token =>
      refine Triple.bind (visits_update (Q := fun _ _ a => a = none) hid ?_ ?_) fun executing =>
        visits_of_fact fun hexecuting => ?_
      · rintro now stored a ⟨rfl, -⟩ -
        rfl
      · rintro now stored a ⟨rfl, htriggered⟩ -
        exact .inl ⟨rfl, htriggered⟩
      · refine Triple.bind (visits_executeOnce hexecuting).attempted fun ended => ?_
        exact Triple.conseq (visits_finish ended hexecuting) (fun _ h => h) (fun _ _ h => h)
          fun _ h => h.mono fun _ _ => .inr

/-! ### The visit -/

/-- Where `check` throws. -/
def Caught (stored : Option RemoteIntent) (a : Option Asked) : Prop :=
  Calm stored a ∨ Stopped stored a

theorem Calm.ended {stored : Option RemoteIntent} {a : Option Asked} (h : Calm stored a) :
    Ended stored a := by
  obtain ⟨rfl, hsettled⟩ := h
  exact ⟨hsettled, fun _ _ ha => by cases ha⟩

theorem visits_trigger {now : ℤ} (hid : intent.id = c) :
    Visits c rest Calm (trigger intent now) (fun _ => Ended) Caught := by
  refine Triple.bind (visits_update (Q := fun _ => Lit) hid ?_ ?_) fun triggered =>
    visits_of_fact fun htriggered => Triple.bind
      (visits_conseq visits_event (fun _ _ h => h) (fun _ _ _ h => h) fun _ _ h => .inr (.inl h))
      fun _ => visits_conseq (visits_execute htriggered) (fun _ _ h => h) (fun _ _ _ h => h)
        fun _ _ => .inr
  · rintro at' stored a ⟨rfl, -⟩ -
    exact ⟨rfl, _, rfl, rfl⟩
  · rintro at' stored a ⟨rfl, hsettled⟩ -
    exact .inl ⟨rfl, hsettled⟩

theorem visits_check {now : ℤ} (hid : intent.id = c) (hactive : intent.status = .active) :
    Visits c rest Calm (check intent now) (fun _ => Ended) Caught := by
  refine visits_call True.intro fun x => visits_returned (fun plans => ?_) fun _ _ => .inl
  refine Triple.bind (visits_update (Q := fun _ => Calm) hid ?_ ?_) fun checked =>
    visits_of_fact fun hchecked => ?_
  · rintro at' stored a ⟨rfl, -⟩ -
    refine ⟨rfl, ?_⟩
    rintro _ ⟨⟩
    simp [Settled, IntentService.patched, hactive]
  · rintro at' stored a ⟨rfl, hsettled⟩ -
    exact .inl ⟨rfl, hsettled⟩
  · split
    · exact visits_trigger hchecked
    · exact Triple.ok fun _ h => h.mono fun _ _ => Calm.ended

theorem Ended.wrote {stored : Option RemoteIntent} {a : Option Asked} (h : Ended stored a) :
    Ended stored (wrote a) := by
  refine ⟨h.1, fun x n ha => ?_⟩
  cases a with
  | none => cases ha
  | some a =>
      cases ha
      exact h.2 _ _ rfl

/-- Whatever is thrown while an intent is checked, its record tells what happened. -/
theorem visits_evaluate {now : ℤ} (hid : intent.id = c) (hactive : intent.status = .active) :
    Visits c rest Calm (evaluate intent now) (fun _ => Ended) Ended := by
  refine Triple.tryCatch (visits_check hid hactive) fun e => visits_failIntent hid ?_ ?_
  · rintro i stored a (⟨rfl, -⟩ | ⟨rfl, -⟩ | ⟨-, hshut⟩) hmay hstatus - -
    · exact Calm.ended ⟨rfl, by rintro _ ⟨⟩; exact .of_failed hstatus⟩
    · exact Calm.ended ⟨rfl, by rintro _ ⟨⟩; exact .of_failed hstatus⟩
    · exact absurd hmay hshut
  · rintro stored a (hcalm | ⟨rfl, i, rfl, htriggered⟩ | ⟨hended, -⟩) hmay
    · exact hcalm.ended.wrote
    · cases hmay.2 (by simp [isTriggered, htriggered])
    · exact hended.wrote

theorem visits_visit {now : ℤ} (hid : intent.id = c) (hactive : intent.status = .active) :
    Visits c rest Calm (visit intent now) (fun _ => Ended) Ended := by
  rw [visit]
  split
  · refine Triple.bind (visits_update (Q := fun _ => Ended) hid ?_ ?_) fun expired =>
      visits_of_fact fun _ => visits_conclude
    · rintro at' stored a ⟨rfl, -⟩ -
      refine Calm.ended ⟨rfl, ?_⟩
      rintro _ ⟨⟩
      simp [Settled, IntentService.patched]
    · rintro at' stored a hcalm -
      exact hcalm.ended.wrote
  · exact visits_evaluate hid hactive

end Triples

/-! ## A tick -/

/-- No intent is visited: of every one the record tells what happened, and the broker was not asked
for those of `rest`. -/
structure Between (rest : List String) (w : Watched) : Prop where
  once : Once w.calls
  ended : ∀ id, Ended (w.intents.find id) (asked id w.calls)
  fresh : ∀ id ∈ rest, asked id w.calls = none

theorem Between.mono {rest rest' : List String} {w : Watched} (h : Between rest w)
    (hrest : rest' ⊆ rest) : Between rest' w :=
  ⟨h.once, h.ended, fun id hid => h.fresh id (hrest hid)⟩

theorem Between.plain {rest : List String} {w w' : Watched} {o : WatchOp} {x : WatchRes o}
    (ho : Plain o) (h : Between rest w) (hx : HarmlessStore o w x w') : Between rest w' := by
  obtain ⟨htable, hasked, honce⟩ := plain_step ho hx
  refine ⟨honce h.once, fun id => ?_, fun id hid => ?_⟩
  · rw [hasked, htable]
    exact h.ended id
  · rw [hasked]
    exact h.fresh id hid

theorem Between.during {c : String} {rest : List String} {w : Watched} (h : Between (c :: rest) w)
    (hc : c ∉ rest) : During c rest Calm w where
  once := h.once
  others := fun id _ => h.ended id
  fresh := fun id hid => ⟨fun he => hc (he ▸ hid), h.fresh id (List.mem_cons_of_mem c hid)⟩
  here := ⟨h.fresh c List.mem_cons_self, (h.ended c).1⟩

theorem During.between {c : String} {rest : List String} {w : Watched} (h : During c rest Ended w) :
    Between rest w where
  once := h.once
  ended := fun id => by
    by_cases hid : id = c
    · exact hid ▸ h.here
    · exact h.others id hid
  fresh := fun id hid => (h.fresh id hid).2

theorem triple_visitAll {now : ℤ} {intents : List RemoteIntent}
    (hactive : ∀ i ∈ intents, i.status = .active) (hids : (intents.map fun i => i.id).Nodup) :
    Triple HarmlessStore (Between (intents.map fun i => i.id)) (visitAll now intents)
      (fun _ => Between []) (Between []) := by
  induction intents with
  | nil => exact Triple.ok fun _ h => h
  | cons intent intents ih =>
      obtain ⟨hfirst, hrest⟩ := List.forall_mem_cons.mp hactive
      obtain ⟨hnot, hids⟩ := List.nodup_cons.mp hids
      refine Triple.bind (Triple.conseq (visits_visit rfl hfirst) (fun _ h => h.during hnot)
        (fun _ _ h => h.between) fun _ h => h.between.mono (List.nil_subset _)) fun _ => ?_
      exact ih hrest hids

/-- The rows of the table, as they are listed, have distinct identifiers. -/
theorem nodup_of_listed {x : Except RemoteFailure (List RemoteIntent)} {w w' : Watched}
    {rows : List RemoteIntent} (hx : HarmlessStore .listIntents w x w') (hrows : x = .ok rows) :
    (rows.map fun i : RemoteIntent => i.id).Nodup := by
  subst hrows
  have hperm : rows.Perm w.intents.rows := hx.1.1
  exact (hperm.map fun i : RemoteIntent => i.id).nodup_iff.mpr w.intents.keyed

/-- The broker was asked for no intent, and no execution is under way. -/
def Quiet (w : Watched) : Prop := ∀ rest, Between rest w

theorem triple_watch {now : ℤ} :
    Triple HarmlessStore Quiet (watch now) (fun _ => Between []) (Between []) := by
  refine Triple.bind (M := fun x w => Quiet w ∧ ∀ rows, x = .ok rows →
      (rows.map fun i : RemoteIntent => i.id).Nodup)
    (Triple.perform fun w x w' h hx =>
      ⟨fun rest => Between.plain (o := .listIntents) True.intro (h rest) hx,
        fun rows hrows => nodup_of_listed hx hrows⟩) fun x => ?_
  cases x with
  | error e => exact Triple.error fun _ h => h.1 []
  | ok rows =>
      rintro w ⟨hquiet, hnodup⟩
      have hids := (List.filter_sublist (p := fun i : RemoteIntent => i.status == .active)
        (l := rows)).map (fun i : RemoteIntent => i.id) |>.nodup (hnodup rows rfl)
      refine triple_visitAll (fun i hi => ?_) hids w (hquiet _)
      simpa using List.of_mem_filter hi

theorem triple_tick {now : ℤ} :
    Triple HarmlessStore Quiet (tick now) (fun _ => Between []) (Between []) := by
  refine Triple.bind (M := fun _ => Quiet)
    (Triple.perform fun _ _ _ h hx rest =>
      Between.plain (o := .beginCheck) True.intro (h rest) hx) fun free => ?_
  split
  · refine Triple.bind triple_watch.attempted fun ended => ?_
    have hended : ∀ w, After (fun _ => Between []) (Between []) ended w → Between [] w := by
      cases ended <;> exact fun _ h => h
    refine Triple.bind (M := fun _ => Between [])
      (Triple.perform fun w _ _ h hx =>
        Between.plain (o := .endCheck) True.intro (hended w h) hx) fun _ => ?_
    cases ended with
    | error e => exact Triple.error fun _ h => h
    | ok u => exact Triple.ok fun _ h => h
  · exact Triple.ok fun _ h => h []

/-- The calls of a run are those of its trace. -/
theorem calls_of_steps {α : Type} {p p' : WatchProg α} {w w' : Watched} {t : Calls}
    (h : Async.Steps HarmlessStore p w t p' w') : w'.calls = t.reverse ++ w.calls := by
  induction h with
  | refl => rfl
  | head hx _ ih =>
      obtain ⟨⟨-, rfl⟩, -⟩ := hx
      simpa using ih

/-- No intent is stored as triggered or executing. -/
def NoneUnderWay (table : IntentTable) : Prop := ∀ i ∈ table.rows, Settled i

instance (table : IntentTable) : Decidable (NoneUnderWay table) :=
  inferInstanceAs (Decidable (∀ i ∈ table.rows, i.status ≠ .triggered ∧ i.status ≠ .executing))

theorem quiet_of_noneUnderWay {table : IntentTable} (h : NoneUnderWay table) :
    Quiet ⟨table, []⟩ := by
  refine fun rest => ⟨?_, fun id => ⟨fun i hi => h i (Table.mem_of_get hi), ?_⟩, fun _ _ => rfl⟩
  · intro _ _ _ _ hmem
    cases hmem
  · intro _ _ ha
    cases ha

/-- However the calls of a tick fail, where its steps are harmless: for every intent that the broker
was asked for, the record that is stored when the tick has ended tells what it answered, and no
intent is left in `triggered` or `executing`. -/
theorem outcome_told {now : ℤ} {table : IntentTable} {t : Calls} {r : Except RemoteFailure Unit}
    {w : Watched} (htable : NoneUnderWay table)
    (h : Async.Steps HarmlessStore (tick now) ⟨table, []⟩ t (.done r) w) :
    (∀ id token planId x, ⟨.executePlan id token planId, x⟩ ∈ t →
      ∃ i, w.intents.find id = some i ∧ Tells x i) ∧ NoneUnderWay w.intents := by
  have hend : Between [] w := by
    have hafter := triple_tick.steps (quiet_of_noneUnderWay htable) h
    cases r <;> exact hafter
  have hcalls : w.calls = t.reverse := (calls_of_steps h).trans (List.append_nil _)
  refine ⟨fun id token planId x hx => ?_, fun i hi => ?_⟩
  · have hmem : ⟨.executePlan id token planId, x⟩ ∈ w.calls := by
      rw [hcalls]
      exact List.mem_reverse.mpr hx
    obtain ⟨n, hn⟩ := hend.once id token planId x hmem
    exact (hend.ended id).2 x n hn
  · exact (hend.ended i.id).1 i (IntentTable.find_of_mem hi)

/-! ## A tick that meets the condition, and one that does not -/

/-- An intent that waits for a server type to be available. -/
def waitingIntent : RemoteIntent where
  id := "intent_0123456789abcdef"
  objective := "Provision a server."
  trigger := ⟨"catalog.availability", "demo", "small", none⟩
  action := ⟨"server.provision", .obj [], .development, none⟩
  constraints := ⟨.at 1000000, 1, 0, "stop"⟩
  deviceId := "remote_device_1"
  version := 1
  status := .active
  agentSessionId := 0
  planId := 1
  planHash := ""
  approvalId := 2
  executionCount := 0
  createdAt := 0
  updatedAt := 0
  lastCheckedAt := none
  matchedAt := none
  operationId := none
  lastError := none

/-- That intent is stored. -/
def waitingTable : IntentTable := ⟨[waitingIntent], by simp [Table.Keyed]⟩

/-- The operation that the broker returns: it has succeeded. -/
def provisioned : AgentOperation :=
  { OperationManager.newOperation 7 0 1 false with state := .succeeded }

/-- The server type is available, and nothing fails but, it may be, the audit event of the success.
-/
def answered (audited : Bool) : (o : WatchOp) → Watched → WatchRes o
  | .now, _ => 0
  | .localId, _ => 0
  | .beginCheck, _ => true
  | .endCheck, _ => ()
  | .listIntents, w => .ok w.intents.rows
  | .saveIntent _, _ => .ok ()
  | .getDevice _, _ => .ok none
  | .availability _ _, _ => .ok [⟨"small", "small", true, []⟩]
  | .getToken _, _ => .ok (some 1)
  | .removeToken _, _ => .ok ()
  | .executePlan _ _ _, _ => .ok provisioned
  | .appendEvent e, _ =>
      if audited || e.eventType != "remote.intent.succeeded" then .ok ()
      else .error (.thrown "disk I/O error")
  | .revokeSession _, _ => .ok ()
  | .send _ _, _ => .ok ()

/-- The calls, answered so. -/
def answering (audited : Bool) : Async.Handler WatchOp WatchRes Watched := fun o w =>
  (answered audited o w,
    ⟨leaves o (answered audited o w) w.intents, ⟨o, answered audited o w⟩ :: w.calls⟩)

theorem store_answering (audited : Bool) (o : WatchOp) (w : Watched) :
    Store o w (answering audited o w).1 (answering audited o w).2 := by
  refine ⟨?_, rfl⟩
  cases o with
  | listIntents => exact .refl _
  | _ => exact True.intro

/-- The theorem where nothing fails. -/
theorem outcome_told_calm : ∃ t w,
    Async.Steps HarmlessStore (tick 0) ⟨waitingTable, []⟩ t (.done (.ok ())) w ∧
      (∀ id token planId x, ⟨.executePlan id token planId, x⟩ ∈ t →
        ∃ i, w.intents.find id = some i ∧ Tells x i) ∧ NoneUnderWay w.intents := by
  obtain ⟨t, ht⟩ := Async.Steps.of_checked (store_answering true)
    (by decide +kernel : Async.Checked (answering true) Harmless (tick 0) ⟨waitingTable, []⟩)
  have hok : (Async.run (answering true) (tick 0) ⟨waitingTable, []⟩).1 = .ok () := rfl
  rw [hok] at ht
  exact ⟨t, _, ht, outcome_told (by decide +kernel) ht⟩

/-- The plan was executed and the operation has succeeded, the audit event of it can not be written,
and the record says that the intent has failed. -/
theorem outcome_not_told : ¬ ∀ (now : ℤ) (table : IntentTable) (t : Calls)
    (r : Except RemoteFailure Unit) (w : Watched), NoneUnderWay table →
      Async.Steps Store (tick now) ⟨table, []⟩ t (.done r) w →
      (∀ id token planId x, ⟨.executePlan id token planId, x⟩ ∈ t →
        ∃ i, w.intents.find id = some i ∧ Tells x i) ∧ NoneUnderWay w.intents := by
  intro h
  have hrun := Async.Steps.of_run (store_answering false) (tick 0) ⟨waitingTable, []⟩
  have hcall : ⟨.executePlan waitingIntent.id 1 1, .ok provisioned⟩ ∈
      Async.trace (answering false) (tick 0) ⟨waitingTable, []⟩ :=
    List.mem_of_getElem? (i := 13) rfl
  obtain ⟨i, hi, htells⟩ := (h _ _ _ _ _ (by decide +kernel) hrun).1 _ _ _ _ hcall
  have hfailed : ((Async.run (answering false) (tick 0) ⟨waitingTable, []⟩).2.intents.find
      waitingIntent.id).map RemoteIntent.status = some .failed := by decide +kernel
  rw [hi] at hfailed
  have hstatus : i.status = .failed := Option.some.inj hfailed
  have hsucceeded := htells.succeeded.mpr ⟨provisioned, rfl, rfl⟩
  cases hstatus.symm.trans hsucceeded

end Vops.IntentWatch
