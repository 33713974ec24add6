import Vops.AgentControl.AgentStore
import Vops.AgentControl.Digest
import Vops.Lib.HashChain
import Vops.Lib.Interleave

/-!
# What the audit log gives away (`verifyEventChain`)

* `EventRecord.Agree` — two records agree on every field but `redactionsApplied`, up to the order of
  keys.
* `EventRecord.fill` — a record with every `null` and every infinity replaced: it has the same hash
  (`digest_payload_fill`), because both are written `null`.
* `tamper_evident_iff` — the last hash determines the records of a valid log exactly when nothing in
  them is written `null`.
-/

/-!
## The audit log is a chain (`appendEvent`, `verifyEventChain`)

* `eventChain` — how `verifyEventChain` reads the records; `chainValid_iff` says that it accepts the
  chains.
* `linked_insertEvent` — one insertion prolongs the chain when the event names the last hash and its
  own hash is found again in the stored record.
* `Unredacted` — redaction changes no text of an event but its detail; then, and only then, the hash is
  found again (`Unredacted.expected_eq`, `unredacted_of_expected_eq`).
* `appended_valid_iff` — a sequence of `appendEvent` calls leaves a valid chain exactly when each event
  is unredacted.
* `interleaved_valid_iff` — interleaved calls leave a valid chain exactly when each inserts while the
  last hash it read is still the last one.
-/

namespace Vops

open Async

variable {env : Env}

/-! ## Fields of a stored event -/

/-- The text of what is read back is the text of what was redacted. -/
theorem stableChars_storedJson {numText : ℚ → String} {le : String → String → Bool} (v : Json) :
    stableChars numText le (storedJson v) = stableChars numText le (redactSecrets v) := by
  rw [storedJson, Json.reparse_eq_fillUnset]
  exact Json.stableChars_fillUnset rfl _

theorem definedFields_append (fields fields' : List (String × Option Json)) :
    definedFields (fields ++ fields') = definedFields fields ++ definedFields fields' :=
  List.filterMap_append

/-- The keys of an event with its hashes. -/
def auditKeys : List String :=
  ["eventId", "timestamp", "sessionId", "actor", "operationId", "eventType", "capability", "target",
    "summary", "detail", "previousHash", "redactionsApplied", "hash"]

theorem auditKeys_plain : ∀ key ∈ auditKeys, (key != "" && isSensitiveKey key) = false := by
  decide

theorem mem_auditKeys {e : AgentAuditEvent} {f : String × Json}
    (hf : f ∈ definedFields (auditFields e)) : f.1 ∈ auditKeys := by
  have hkeys : (auditFields e).map Prod.fst = auditKeys := rfl
  rw [← hkeys]
  exact List.mem_map.mpr ⟨_, mem_definedFields.mp hf, rfl⟩

theorem eventRecord_fields (e : AgentAuditEvent) : (eventRecord e).fields =
    (definedFields (auditFields e)).map fun f => (f.1, storedJson f.2) :=
  storedFields_eq fun f hf => auditKeys_plain f.1 (mem_auditKeys hf)

/-- What the hash of a stored event is computed from. -/
theorem eventRecord_payload (e : AgentAuditEvent) : (eventRecord e).payload =
    .obj ((definedFields (eventFields e.event e.event.detail e.previousHash)).map
      fun f => (f.1, storedJson f.2)) := by
  have hkeys : ∀ f ∈ definedFields (eventFields e.event e.event.detail e.previousHash),
      (f.1 != "hash" && f.1 != "redactionsApplied") = true := by
    intro f hf
    have hmem : f.1 ∈ (eventFields e.event e.event.detail e.previousHash).map Prod.fst :=
      List.mem_map.mpr ⟨_, mem_definedFields.mp hf, rfl⟩
    have hall : ∀ key ∈ (eventFields e.event e.event.detail e.previousHash).map Prod.fst,
        (key != "hash" && key != "redactionsApplied") = true := by
      simp only [eventFields, List.map_cons, List.map_nil]
      decide
    exact hall f.1 hmem
  rw [EventRecord.payload, eventRecord_fields, auditFields, definedFields_append, List.map_append,
    List.filter_append]
  have hkept : ((definedFields (eventFields e.event e.event.detail e.previousHash)).map
      fun f => (f.1, storedJson f.2)).filter (fun f => f.1 != "hash" && f.1 != "redactionsApplied") =
      (definedFields (eventFields e.event e.event.detail e.previousHash)).map
        fun f => (f.1, storedJson f.2) := by
    rw [List.filter_eq_self]
    intro f hf
    obtain ⟨g, hg, rfl⟩ := List.mem_map.mp hf
    exact hkeys g hg
  rw [hkept]
  congr 1
  exact List.append_nil _

theorem eventRecord_get? (e : AgentAuditEvent) (key : String) (v : Json) :
    (eventRecord e).get? key = some v ↔ ∃ u, (key, some u) ∈ auditFields e ∧ storedJson u = v := by
  rw [EventRecord.get?, Json.get?_eq_some_iff (eventRecord e).keys_nodup, eventRecord_fields,
    List.mem_map]
  constructor
  · rintro ⟨f, hf, heq⟩
    obtain ⟨rfl, rfl⟩ := Prod.mk.inj heq
    exact ⟨f.2, mem_definedFields.mp hf, rfl⟩
  · rintro ⟨u, hu, rfl⟩
    exact ⟨(key, u), mem_definedFields.mpr hu, rfl⟩

theorem eventRecord_hash (e : AgentAuditEvent) :
    (eventRecord e).get? "hash" = some (.str (redactText e.hash)) := by
  rw [eventRecord_get?]
  exact ⟨.str e.hash, by simp [auditFields, eventFields], storedJson_str e.hash⟩

theorem eventRecord_previousHash (e : AgentAuditEvent) : (eventRecord e).get? "previousHash" =
    e.previousHash.map fun p => .str (redactText p) := by
  refine Option.ext fun v => ?_
  rw [eventRecord_get?]
  simp only [auditFields, eventFields, List.cons_append, List.nil_append, List.mem_cons,
    Prod.mk.injEq, Option.map_eq_some_iff]
  simp [storedJson_str, eq_comm]

/-! ## The chain -/

/-- How `verifyEventChain` reads a record. -/
def eventChain (env : Env) : HashChain EventRecord (Option Json) where
  prev r := r.get? "previousHash"
  hash r := r.get? "hash"
  expected r := some (.str (env.digest r.payload))

theorem isText_iff (x : Option Json) (t : Option String) :
    isText x t = true ↔ x = t.map Json.str := by
  cases x with
  | none => cases t <;> simp [isText]
  | some v =>
      cases t with
      | none => cases v <;> simp [isText]
      | some t => cases v <;> simp [isText]

/-- The loop accepts the records that prolong the chain. -/
theorem checkEvents_valid (count : ℕ) (previousHash : Option String) (events : List EventRecord)
    (w : World) : ∃ verdict, run (handle env) (checkEvents count previousHash events) w =
        (.ok verdict, w) ∧
      (verdict.valid = true ↔ (eventChain env).Linked (previousHash.map Json.str) events) := by
  induction events generalizing previousHash with
  | nil => exact ⟨⟨true, count, none⟩, rfl, iff_of_true rfl trivial⟩
  | cons event events ih =>
      have hdigest : handle env (.digest event.payload) w = (env.digest event.payload, w) := rfl
      rw [checkEvents, perform_bind, run_await, hdigest, HashChain.Linked]
      dsimp only
      split_ifs with hcheck
      · rw [Bool.and_eq_true, isText_iff, isText_iff] at hcheck
        obtain ⟨verdict, hrun, hvalid⟩ := ih (some (env.digest event.payload))
        refine ⟨verdict, hrun, hvalid.trans ?_⟩
        have hhash : (eventChain env).hash event = (some (env.digest event.payload)).map Json.str :=
          hcheck.2
        rw [hhash]
        exact ⟨fun h => ⟨hcheck.1, rfl, h⟩, fun h => h.2.2⟩
      · refine ⟨_, rfl, iff_of_false Bool.false_ne_true fun h => hcheck ?_⟩
        rw [Bool.and_eq_true, isText_iff, isText_iff]
        exact ⟨h.1, h.2.1⟩

/-- The records of the log, in the order of insertion. -/
def World.log (w : World) : List EventRecord := w.events.map EventRow.record

/-- `verifyEventChain` finds the log valid. -/
def chainValid (env : Env) (w : World) : Bool :=
  match (run (handle env) verifyEventChain w).1 with
  | .ok verdict => verdict.valid
  | .error _ => false

/-- `verifyEventChain` accepts the chains. -/
theorem chainValid_iff (w : World) :
    chainValid env w = true ↔ (eventChain env).Linked none w.log := by
  have hlist : handle env .listEvents w = (w.log, w) := rfl
  obtain ⟨verdict, hrun, hvalid⟩ := @checkEvents_valid env w.log.length none w.log w
  have hverify : run (handle env) verifyEventChain w = (.ok verdict, w) := by
    rw [verifyEventChain, perform_bind, run_await, hlist]
    exact hrun
  rw [chainValid, hverify]
  exact hvalid

/-! ## One insertion -/

/-- Redaction changes no text of the event but its detail. -/
structure Unredacted (e : AgentEvent) : Prop where
  actor : redactText e.actor = e.actor
  eventType : redactText e.eventType = e.eventType
  capability : ∀ text ∈ e.capability, redactText text = text
  target : ∀ text ∈ e.target, redactText text = text
  summary : redactText e.summary = e.summary

theorem Unredacted.withDetail {e : AgentEvent} (h : Unredacted e) (detail : Option Json) :
    Unredacted { e with detail := detail } :=
  ⟨h.actor, h.eventType, h.capability, h.target, h.summary⟩

/-- What `appendEvent` inserts behind the hash `previousHash`. -/
def sealedEvent (env : Env) (e : AgentEvent) (previousHash : Option String) : AgentAuditEvent :=
  ⟨{ e with detail := e.detail.map redactSecrets }, e.detail.any redactionApplied, previousHash,
    env.digest (eventJson e (e.detail.map redactSecrets) previousHash)⟩

/-- The hash column of the last row. -/
def World.lastHash (w : World) : Option String := w.events.getLast?.map EventRow.hash

/-- The text is one that redaction does not change, if there is one. -/
def PlainHash (previousHash : Option String) : Prop := ∀ text ∈ previousHash, redactText text = text

/-- The fields whose texts are kept when redaction changes no text of the event but its detail. -/
theorem Unredacted.kept {e : AgentEvent} {previousHash : Option String} (h : Unredacted e)
    (hp : PlainHash previousHash) : ∀ f ∈ eventFields e (e.detail.map redactSecrets) previousHash,
      ∀ v, f.2 = some v → Kept env v := by
  have hid : ∀ kind ∈ ["evt", "ses", "op"], ∀ id, redactText (idText kind id) = idText kind id := by
    intro kind hkind id
    refine redactText_idText ?_ id
    revert kind
    decide
  have hone : ∀ s, redactText s = s → ∀ v, some (Json.str s) = some v → Kept env v := by
    rintro s hs v ⟨⟩
    exact (storedText_iff s).mpr hs
  have hopt : ∀ x : Option String, (∀ s ∈ x, redactText s = s) →
      ∀ v, x.map Json.str = some v → Kept env v := by
    rintro (_ | s) hs v hv
    · cases hv
    · exact hone s (hs s rfl) v hv
  simp only [eventFields, List.forall_mem_cons]
  refine ⟨hone _ (hid "evt" (by decide) _), ?_, ?_, hone _ h.actor, ?_, hone _ h.eventType,
    hopt _ h.capability, hopt _ h.target, hone _ h.summary, ?_, hopt _ hp, List.forall_mem_nil _⟩
  · rintro v ⟨⟩
    rfl
  · rcases e.sessionId with _ | id
    · rintro v ⟨⟩
    · exact hone _ (hid "ses" (by decide) id)
  · rcases e.operationId with _ | id
    · rintro v ⟨⟩
    · exact hone _ (hid "op" (by decide) id)
  · rcases e.detail with _ | detail
    · rintro v ⟨⟩
    · rintro v ⟨⟩
      rw [Kept, stableChars_storedJson, redactSecrets_idem]

/-- Where redaction changes no text but the detail, the hash is found again in the stored record. -/
theorem Unredacted.expected_eq {e : AgentEvent} {previousHash : Option String} (h : Unredacted e)
    (hp : PlainHash previousHash) :
    env.digest (eventRecord (sealedEvent env e previousHash)).payload =
      env.digest (eventJson e (e.detail.map redactSecrets) previousHash) := by
  rw [eventRecord_payload, eventJson, Env.digest, Env.digest, stableStringify, stableStringify]
  exact congrArg (fun text => env.sha256 (String.ofList text))
    (stableChars_obj_map storedJson _ fun f hf => h.kept hp _ (mem_definedFields.mp hf) f.2 rfl)

/-- If the hash is found again in the stored record, redaction changed no text but the detail. -/
theorem unredacted_of_expected_eq (hfree : CollisionFree env) (hnum : NumberText env.numText)
    {e : AgentEvent} {previousHash : Option String}
    (h : env.digest (eventRecord (sealedEvent env e previousHash)).payload =
      env.digest (eventJson e (e.detail.map redactSecrets) previousHash)) : Unredacted e := by
  rw [hfree.digest_eq_iff, eventRecord_payload, eventJson] at h
  have hkept := (stableChars_obj_map_iff hnum storedJson _).mp h
  have hfield : ∀ key s, (key, some (Json.str s)) ∈
      eventFields e (e.detail.map redactSecrets) previousHash → redactText s = s :=
    fun key s hs => (storedText_iff s).mp (hkept (key, .str s) (mem_definedFields.mpr hs))
  refine ⟨hfield "actor" _ ?_, hfield "eventType" _ ?_, fun text ht => hfield "capability" _ ?_,
    fun text ht => hfield "target" _ ?_, hfield "summary" _ ?_⟩
  · simp [eventFields]
  · simp [eventFields]
  · simp [eventFields, Option.mem_def.mp ht]
  · simp [eventFields, Option.mem_def.mp ht]
  · simp [eventFields]

/-- The world behind the insertion of an event. -/
def World.insertEvent (w : World) (e : AgentAuditEvent) : World :=
  { w with events := w.events ++ [⟨e.hash, eventRecord e⟩] }

theorem log_insertEvent (w : World) (e : AgentAuditEvent) :
    (w.insertEvent e).log = w.log ++ [eventRecord e] := by
  simp [World.log, World.insertEvent]

theorem lastHash_insertEvent (w : World) (e : AgentAuditEvent) :
    (w.insertEvent e).lastHash = some e.hash := by
  simp [World.lastHash, World.insertEvent]

/-- The hash column of the last row is what the last record carries, and not changed by redaction. -/
structure LogKept (env : Env) (w : World) : Prop where
  last : (eventChain env).last none w.log = w.lastHash.map Json.str
  plain : PlainHash w.lastHash

theorem logKept_of_empty {w : World} (hw : w.events = []) : LogKept env w where
  last := by simp [World.log, World.lastHash, hw, HashChain.last]
  plain := by simp [PlainHash, World.lastHash, hw]

theorem LogKept.insertEvent (hhex : HexDigest env) (w : World) (e : AgentEvent)
    (previousHash : Option String) :
    LogKept env (w.insertEvent (sealedEvent env e previousHash)) where
  last := by
    rw [log_insertEvent, lastHash_insertEvent, HashChain.last_concat]
    change (eventRecord _).get? "hash" = _
    rw [eventRecord_hash]
    exact congrArg (fun t => some (Json.str t)) (hhex.redactText _)
  plain := by
    rw [lastHash_insertEvent]
    rintro text ⟨⟩
    exact hhex.redactText _

/-- An insertion prolongs the chain exactly when the event names the last hash and its own hash is
found again in the stored record. -/
theorem linked_insertEvent (hhex : HexDigest env) {w : World} (hw : LogKept env w) (e : AgentEvent)
    {previousHash : Option String} (hp : PlainHash previousHash) :
    (eventChain env).Linked none (w.insertEvent (sealedEvent env e previousHash)).log ↔
      (eventChain env).Linked none w.log ∧ previousHash = w.lastHash ∧
        env.digest (eventRecord (sealedEvent env e previousHash)).payload =
          env.digest (eventJson e (e.detail.map redactSecrets) previousHash) := by
  rw [log_insertEvent, HashChain.linked_concat, hw.last]
  refine and_congr_right fun _ => and_congr ?_ ?_
  · -- both are texts that redaction does not change
    change (eventRecord _).get? "previousHash" = _ ↔ _
    rw [eventRecord_previousHash]
    have hsame : previousHash.map (fun p => Json.str (redactText p)) = previousHash.map Json.str :=
      Option.map_congr fun p hmem => by rw [hp p hmem]
    change previousHash.map (fun p => Json.str (redactText p)) = _ ↔ _
    rw [hsame]
    exact (Option.map_injective fun s t h => Json.str.inj h).eq_iff
  · change (eventRecord _).get? "hash" = some (.str (env.digest _)) ↔ _
    have hhash : redactText (sealedEvent env e previousHash).hash =
        env.digest (eventJson e (e.detail.map redactSecrets) previousHash) := hhex.redactText _
    rw [eventRecord_hash, hhash, Option.some_inj, Json.str.injEq, eq_comm]

/-! ## Calls one after the other -/

/-- `appendEvent` for each of the events, one after the other. -/
def appendEvents : List AgentEvent → Prog Unit
  | [] => return ()
  | e :: es => do
      let _ ← appendEvent e
      appendEvents es

theorem run_appendEvent (e : AgentEvent) (w : World) : run (handle env) (appendEvent e) w =
    (.ok (sealedEvent env e w.lastHash), w.insertEvent (sealedEvent env e w.lastHash)) := rfl

/-- After calls one after the other on an empty log, `verifyEventChain` answers `valid: true` exactly
when redaction changes no text of an event but its detail. -/
theorem appended_valid_iff (env : Env) (hhex : HexDigest env) (hfree : CollisionFree env)
    (hnum : NumberText env.numText) (w : World) (hw : w.events = []) (es : List AgentEvent) :
    chainValid env (run (handle env) (appendEvents es) w).2 = true ↔ ∀ e ∈ es, Unredacted e := by
  have hrun : ∀ w, LogKept env w →
      ((eventChain env).Linked none (run (handle env) (appendEvents es) w).2.log ↔
        (eventChain env).Linked none w.log ∧ ∀ e ∈ es, Unredacted e) := by
    induction es with
    | nil => exact fun w _ => ⟨fun h => ⟨h, by simp⟩, fun h => h.1⟩
    | cons e es ih =>
        intro w hkept
        rw [appendEvents, run_bind, run_appendEvent]
        dsimp only
        have hfound : env.digest (eventRecord (sealedEvent env e w.lastHash)).payload =
            env.digest (eventJson e (e.detail.map redactSecrets) w.lastHash) ↔ Unredacted e :=
          ⟨unredacted_of_expected_eq hfree hnum, fun h => h.expected_eq hkept.plain⟩
        rw [ih _ (LogKept.insertEvent hhex w e _),
          linked_insertEvent hhex hkept e hkept.plain, List.forall_mem_cons, hfound]
        simp only [true_and, and_assoc]
  rw [chainValid_iff, hrun w (logKept_of_empty hw)]
  have hlog : w.log = [] := by rw [World.log, hw, List.map_nil]
  rw [hlog]
  exact and_iff_right trivial

/-- An event for the examples of this module. -/
def sampleEvent : AgentEvent where
  eventId := 0
  timestamp := 0
  sessionId := some 0
  actor := "codex"
  operationId := none
  eventType := "session.paused"
  capability := none
  target := some "demo"
  summary := "Paused."
  detail := none

theorem unredacted_sampleEvent : Unredacted sampleEvent where
  actor := redactText_of_plain (by decide)
  eventType := redactText_of_plain (by decide)
  capability := by rintro _ ⟨⟩
  target := by
    rintro _ ⟨⟩
    exact redactText_of_plain (by decide)
  summary := redactText_of_plain (by decide)

/-- A plain event leaves a valid chain. -/
theorem appended_valid_iff_sample : chainValid Env.spelling
    (run (handle Env.spelling) (appendEvents [sampleEvent, sampleEvent]) World.empty).2 = true :=
  (appended_valid_iff Env.spelling hexDigest_spelling collisionFree_spelling numberText_spelling
    World.empty rfl _).mpr (by simp [unredacted_sampleEvent])

/-- An event whose summary quotes a token breaks the chain: the hash is computed from the token, the
record is stored without it. -/
theorem bearer_breaks_chain : chainValid Env.spelling (run (handle Env.spelling)
    (appendEvents [{ sampleEvent with summary := "Bearer abcdefgh" }]) World.empty).2 = false := by
  rw [← Bool.not_eq_true, chainValid_iff]
  intro h
  have hplain : PlainHash none := by rintro _ ⟨⟩
  have hinsert := (linked_insertEvent hexDigest_spelling (logKept_of_empty (w := World.empty) rfl)
    { sampleEvent with summary := "Bearer abcdefgh" } hplain).mp h
  have hsame := (unredacted_of_expected_eq collisionFree_spelling numberText_spelling
    hinsert.2.2).summary
  exact absurd hsame (by decide +kernel)

/-! ## Interleaved calls -/

section Interleaved

variable {ι : Type} [DecidableEq ι]

/-- If the call inserts next, then behind the hash it read. -/
def InsertsLast (p : Pool Op Res Failure AgentAuditEvent ι World) (i : ι) : Prop :=
  ∀ e k, p.task i = .await (.insertEvent e) k → e.previousHash = p.state.lastHash

/-- What is left of a call of `appendEvent` at each of its operations. -/
inductive Appending (env : Env) (e : AgentEvent) : Prog AgentAuditEvent → Prop
  | start : Appending env e (appendEvent e)
  | read {previousHash : Option String} : PlainHash previousHash → Appending env e
      (.await (.digest (eventJson e (e.detail.map redactSecrets) previousHash)) fun hash =>
        let stored : AgentAuditEvent := ⟨{ e with detail := e.detail.map redactSecrets },
          e.detail.any redactionApplied, previousHash, hash⟩
        .await (.insertEvent stored) fun _ => .done (.ok stored))
  | hashed {previousHash : Option String} : PlainHash previousHash → Appending env e
      (.await (.insertEvent (sealedEvent env e previousHash)) fun _ =>
        .done (.ok (sealedEvent env e previousHash)))
  | ended (r : Except Failure AgentAuditEvent) : Appending env e (.done r)

/-- Every program is a call of `appendEvent` for its event, and the log is kept. -/
structure AllAppending (env : Env) (e : ι → AgentEvent)
    (p : Pool Op Res Failure AgentAuditEvent ι World) : Prop where
  tasks : ∀ i, Appending env (e i) (p.task i)
  log : LogKept env p.state

variable {e : ι → AgentEvent} {p : Pool Op Res Failure AgentAuditEvent ι World} {i : ι}

/-- A program that is replaced leaves the others as they are. -/
theorem AllAppending.update (hp : AllAppending env e p) {w : World} (hw : LogKept env w)
    {q : Prog AgentAuditEvent} (hq : Appending env (e i) q) :
    AllAppending env e ⟨w, Function.update p.task i q⟩ where
  tasks j := by
    by_cases hij : j = i
    · subst hij
      simpa using hq
    · simpa [Function.update_of_ne hij] using hp.tasks j
  log := hw

/-- A step keeps the calls, and the chain exactly when an insertion names the last hash. -/
theorem AllAppending.step (hhex : HexDigest env) (he : ∀ i, Unredacted (e i)) (hp : AllAppending env e p) :
    AllAppending env e (p.step (fun _ => handle env) i) ∧
      ((eventChain env).Linked none (p.step (fun _ => handle env) i).state.log ↔
        (eventChain env).Linked none p.state.log ∧ InsertsLast p i) := by
  have hother : ∀ {o k}, p.task i = .await o k → (∀ event, o ≠ .insertEvent event) →
      InsertsLast p i := by
    intro o k htask ho event k' htask'
    rw [htask] at htask'
    exact absurd (Async.await.inj htask').1 (ho event)
  generalize hi : p.task i = q
  have hq := hp.tasks i
  rw [hi] at hq
  cases hq with
  | start =>
      rw [Pool.step_of_await hi]
      refine ⟨hp.update hp.log (.read hp.log.plain), iff_self_and.mpr fun _ => hother hi ?_⟩
      rintro event ⟨⟩
  | read hplain =>
      rw [Pool.step_of_await hi]
      refine ⟨hp.update hp.log (.hashed hplain), iff_self_and.mpr fun _ => hother hi ?_⟩
      rintro event ⟨⟩
  | @hashed previousHash hplain =>
      rw [Pool.step_of_await hi]
      refine ⟨hp.update (LogKept.insertEvent hhex p.state (e i) previousHash) (.ended _), ?_⟩
      refine (linked_insertEvent hhex hp.log (e i) hplain).trans ?_
      refine and_congr_right fun _ => ⟨fun h event k htask => ?_, fun h => ?_⟩
      · rw [hi] at htask
        cases htask
        exact h.1
      · exact ⟨h _ _ hi, (he i).expected_eq hplain⟩
  | ended r =>
      rw [Pool.step_of_done hi]
      refine ⟨hp, iff_self_and.mpr fun _ event k htask => ?_⟩
      rw [hi] at htask
      cases htask

/-- A schedule keeps the chain exactly when each insertion names the last hash. -/
theorem AllAppending.runs (hhex : HexDigest env) (he : ∀ i, Unredacted (e i))
    (hp : AllAppending env e p) (sched : List ι) :
    (eventChain env).Linked none (p.runs (fun _ => handle env) sched).state.log ↔
      (eventChain env).Linked none p.state.log ∧
        Pool.Along (fun _ => handle env) InsertsLast sched p := by
  induction sched generalizing p with
  | nil => exact ⟨fun h => ⟨h, trivial⟩, fun h => h.1⟩
  | cons i sched ih =>
      obtain ⟨hstep, hlinked⟩ := hp.step (i := i) hhex he
      rw [Pool.runs_cons, ih hstep, hlinked, Pool.Along, and_assoc]

/-- After interleaved calls on an empty log, of events in which nothing has to be redacted,
`verifyEventChain` answers `valid: true` exactly when each call inserted while the hash it had read was
still the last one. -/
theorem interleaved_valid_iff (env : Env) (hhex : HexDigest env) (e : ι → AgentEvent)
    (he : ∀ i, Unredacted (e i)) (w : World) (hw : w.events = []) (sched : List ι) :
    chainValid env (Pool.runs (fun _ => handle env) sched ⟨w, fun i => appendEvent (e i)⟩).state =
        true ↔
      Pool.Along (fun _ => handle env) InsertsLast sched ⟨w, fun i => appendEvent (e i)⟩ := by
  have hp : AllAppending env e ⟨w, fun i => appendEvent (e i)⟩ :=
    ⟨fun i => .start, logKept_of_empty hw⟩
  have hlog : w.log = [] := by rw [World.log, hw, List.map_nil]
  rw [chainValid_iff, hp.runs hhex he, hlog]
  exact and_iff_right trivial

end Interleaved

/-- Two calls, one after the other. -/
theorem interleaved_valid_iff_in_turn : chainValid Env.spelling
    (Pool.runs (fun _ => handle Env.spelling) [true, true, true, false, false, false]
      ⟨World.empty, fun _ => appendEvent sampleEvent⟩).state = true := by
  refine (interleaved_valid_iff Env.spelling hexDigest_spelling (fun _ => sampleEvent)
    (fun _ => unredacted_sampleEvent) World.empty rfl _).mpr ?_
  refine ⟨?_, ?_, ?_, ?_, ?_, ?_, trivial⟩
  · rintro e k ⟨⟩
  · rintro e k ⟨⟩
  · rintro e k ⟨⟩
    rfl
  · rintro e k ⟨⟩
  · rintro e k ⟨⟩
  · rintro e k ⟨⟩
    rfl

/-- Two calls that both read the last hash before either inserts. -/
theorem interleaved_breaks_chain : chainValid Env.spelling
    (Pool.runs (fun _ => handle Env.spelling) [true, false, true, false, true, false]
      ⟨World.empty, fun _ => appendEvent sampleEvent⟩).state = false := by
  have hp : AllAppending Env.spelling (fun _ : Bool => sampleEvent)
      ⟨World.empty, fun _ => appendEvent sampleEvent⟩ := ⟨fun _ => .start, logKept_of_empty rfl⟩
  rw [← Bool.not_eq_true, chainValid_iff, hp.runs hexDigest_spelling fun _ => unredacted_sampleEvent]
  rintro ⟨-, -, -, -, -, -, hlast, -⟩
  cases hlast _ _ rfl

end Vops

namespace Vops

open Async

variable {env : Env}

/-! ## Records -/

namespace EventRecord

/-- The records agree on every field but `redactionsApplied`. -/
def Agree (r r' : EventRecord) : Prop :=
  ∀ key, key ≠ "redactionsApplied" → Option.Rel Json.Same (r.get? key) (r'.get? key)

/-- No field but `redactionsApplied` holds a `null` or a number that is not finite. -/
def Plain (r : EventRecord) : Prop :=
  ∀ key v, key ≠ "redactionsApplied" → r.get? key = some v → v.any Json.unset = false

/-- The record with `u` in the place of all that is written `null`. -/
def fill (u : Json) (r : EventRecord) : EventRecord where
  fields := r.fields.map fun f => (f.1, Json.fillUnset u f.2)
  keys_nodup := by
    rw [map_values_keys]
    exact r.keys_nodup

theorem fill_get? (u : Json) (r : EventRecord) (key : String) :
    (r.fill u).get? key = (r.get? key).map (Json.fillUnset u) := Json.get?_map _ _ _

/-- The fields of the payload. -/
def payloadFields (r : EventRecord) : List (String × Json) :=
  r.fields.filter fun f => f.1 != "hash" && f.1 != "redactionsApplied"

theorem payloadFields_nodup (r : EventRecord) : (r.payloadFields.map Prod.fst).Nodup :=
  r.keys_nodup.sublist (List.filter_sublist.map Prod.fst)

theorem payloadFields_get? (r : EventRecord) {key : String} (hhash : key ≠ "hash")
    (hkey : key ≠ "redactionsApplied") : Json.get? (.obj r.payloadFields) key = r.get? key := by
  refine Option.ext fun v => ?_
  rw [get?, Json.get?_eq_some_iff r.payloadFields_nodup, Json.get?_eq_some_iff r.keys_nodup,
    payloadFields, List.mem_filter]
  simp [hhash, hkey]

end EventRecord

section Tampering

variable (hfree : CollisionFree env) (hnum : NumberText env.numText)

/-- What a record of a chain names as the hash before it is a text, or nothing. -/
theorem eventChain_isLink {x : Option Json} (h : (eventChain env).IsLink none x) :
    ∃ t : Option String, x = t.map Json.str := by
  rcases h with rfl | ⟨r, rfl⟩
  · exact ⟨none, rfl⟩
  · exact ⟨some (env.digest r.payload), rfl⟩

include hfree hnum in
/-- Records of chains with the same hash name the same hash before them. -/
theorem eventChain_prev_eq (r r' : EventRecord)
    (h : (eventChain env).IsLink none ((eventChain env).prev r))
    (h' : (eventChain env).IsLink none ((eventChain env).prev r'))
    (hexp : (eventChain env).expected r = (eventChain env).expected r') :
    (eventChain env).prev r = (eventChain env).prev r' := by
  obtain ⟨t, ht⟩ := eventChain_isLink h
  obtain ⟨t', ht'⟩ := eventChain_isLink h'
  have hdigest : env.digest r.payload = env.digest r'.payload := Json.str.inj (Option.some.inj hexp)
  have hsame := same_of_stableChars hnum (hfree.digest_eq_iff.mp hdigest)
  rw [EventRecord.payload, EventRecord.payload, Json.reparse, Json.reparse, Json.reparseFields_eq,
    Json.reparseFields_eq] at hsame
  have hrel := hsame.get?_rel (by rw [map_values_keys]; exact r.payloadFields_nodup)
    (by rw [map_values_keys]; exact r'.payloadFields_nodup) "previousHash"
  have hget : ∀ r : EventRecord, ∀ t : Option String, (eventChain env).prev r = t.map Json.str →
      Json.get? (.obj (r.payloadFields.map fun f => (f.1, f.2.reparse))) "previousHash" =
        t.map Json.str := by
    intro r t ht
    have hprev : r.get? "previousHash" = t.map Json.str := ht
    rw [Json.get?_map, r.payloadFields_get? (by decide) (by decide), hprev]
    cases t <;> rfl
  have hrel' : Option.Rel Json.Same (t.map Json.str) (t'.map Json.str) := by
    rw [← hget r t ht, ← hget r' t' ht']
    exact hrel
  rw [ht, ht']
  cases t with
  | none =>
      cases t' with
      | none => rfl
      | some s => cases hrel'
  | some s =>
      cases t' with
      | none => cases hrel'
      | some s' =>
          cases hrel' with
          | some hstr =>
              cases hstr
              rfl

include hfree hnum in
/-- Records with the same hash agree, when one of them is plain. -/
theorem agree_of_expected_eq {r r' : EventRecord} (hr : r.Plain)
    (hhash : r.get? "hash" = r'.get? "hash") (hexp : env.digest r.payload = env.digest r'.payload) :
    r.Agree r' := by
  intro key hkey
  by_cases hk : key = "hash"
  · subst hk
    rw [hhash]
    cases r'.get? "hash" with
    | none => exact .none
    | some v => exact .some (.refl v)
  · have hplain : (Json.obj r.payloadFields).any Json.unset = false := by
      have hobj : (Json.obj r.payloadFields).unset = false := rfl
      rw [Json.any, Json.anyField_eq, hobj, Bool.false_or, List.any_eq_false]
      intro v hv
      obtain ⟨⟨k, v⟩, hf, rfl⟩ := List.mem_map.mp hv
      have hmem := List.mem_filter.mp hf
      have hne : k ≠ "redactionsApplied" := by
        rintro rfl
        simp at hmem
      have hv := hr k v hne ((Json.get?_eq_some_iff r.keys_nodup).mpr hmem.1)
      simp [hv]
    have hsame := Json.same_of_plain hnum hplain (hfree.digest_eq_iff.mp hexp)
    rw [← r.payloadFields_get? hk hkey, ← r'.payloadFields_get? hk hkey]
    exact hsame.get?_rel r.payloadFields_nodup r'.payloadFields_nodup key

/-- Filling in does not change the text of the payload. -/
theorem digest_payload_fill {u : Json} (hu : u.unset = true) (r : EventRecord) :
    env.digest (r.fill u).payload = env.digest r.payload := by
  have hpayload : (r.fill u).payload = Json.fillUnset u r.payload := by
    rw [EventRecord.payload, EventRecord.payload, Json.fillUnset, Json.fillFields_eq,
      EventRecord.fill, List.filter_map]
    rfl
  rw [hpayload, Env.digest, Env.digest, stableStringify, stableStringify,
    Json.stableChars_fillUnset hu]

/-- Filling in does not break a chain: the hashes are texts, and the payloads are written alike. -/
theorem linked_fill {u : Json} (hu : u.unset = true) {t : Option String} {rs : List EventRecord}
    (h : (eventChain env).Linked (t.map Json.str) rs) :
    (eventChain env).Linked (t.map Json.str) (rs.map (EventRecord.fill u)) := by
  induction rs generalizing t with
  | nil => trivial
  | cons r rs ih =>
      obtain ⟨hprev, hhash, hrest⟩ := h
      have hprev' : (eventChain env).prev (r.fill u) = t.map Json.str := by
        change (r.fill u).get? "previousHash" = _
        rw [EventRecord.fill_get?]
        change ((eventChain env).prev r).map _ = _
        rw [hprev]
        cases t <;> rfl
      have hexp : (eventChain env).expected (r.fill u) = (eventChain env).expected r :=
        congrArg (fun d => some (Json.str d)) (digest_payload_fill hu r)
      have hhash' : (eventChain env).hash (r.fill u) = (eventChain env).expected r := by
        change (r.fill u).get? "hash" = _
        rw [EventRecord.fill_get?]
        change ((eventChain env).hash r).map _ = _
        rw [hhash]
        rfl
      refine ⟨hprev', hhash'.trans hexp.symm, ?_⟩
      rw [hhash']
      rw [hhash] at hrest
      exact ih (t := some (env.digest r.payload)) hrest

end Tampering

/-- The `hash` of the last event. -/
def World.lastEventHash (w : World) : Option (Option Json) :=
  w.log.getLast?.map fun r => r.get? "hash"

theorem last_eq_lastEventHash (w : World) :
    (eventChain env).last none w.log = w.lastEventHash.getD none := by
  rw [World.lastEventHash]
  generalize w.log = rs
  induction rs using List.reverseRecOn with
  | nil => rfl
  | append_singleton rs r _ =>
      rw [HashChain.last_concat, List.getLast?_concat]
      rfl

/-- The log with `u` in the place of all that is written `null`. -/
def World.fillLog (u : Json) (w : World) : World :=
  { w with events := w.events.map fun row => ⟨row.hash, row.record.fill u⟩ }

theorem log_fillLog (u : Json) (w : World) : (w.fillLog u).log = w.log.map (EventRecord.fill u) := by
  simp [World.fillLog, World.log, Function.comp_def]

/-- Filling in goes unnoticed. -/
theorem fillLog_unnoticed {u : Json} (hu : u.unset = true) {w : World}
    (hw : chainValid env w = true) :
    chainValid env (w.fillLog u) = true ∧ (w.fillLog u).lastEventHash = w.lastEventHash := by
  rw [chainValid_iff] at hw
  constructor
  · rw [chainValid_iff, log_fillLog]
    exact linked_fill hu (t := none) hw
  · rw [World.lastEventHash, World.lastEventHash, log_fillLog, List.getLast?_map, Option.map_map]
    refine Option.map_congr fun last hmem => ?_
    have hhash : last.get? "hash" = some (.str (env.digest last.payload)) :=
      HashChain.hash_of_mem _ hw (List.mem_of_getLast? hmem)
    rw [Function.comp_apply, EventRecord.fill_get?, hhash]
    rfl

/-- A valid log is determined by the hash of its last event, on every field but `redactionsApplied`
and up to the order of keys, exactly when it holds no `null` and no number that is not finite. -/
theorem tamper_evident_iff (env : Env) (hfree : CollisionFree env) (hnum : NumberText env.numText)
    (w : World) (hw : chainValid env w = true) :
    (∀ w', chainValid env w' = true → w'.lastEventHash = w.lastEventHash →
      List.Forall₂ EventRecord.Agree w.log w'.log) ↔ ∀ r ∈ w.log, r.Plain := by
  constructor
  · intro h r hr key v hkey hv
    by_contra hany
    rw [Bool.not_eq_false] at hany
    obtain ⟨u, hu, hdiffer⟩ := Json.exists_not_same hany
    obtain ⟨hvalid, hlast⟩ := fillLog_unnoticed hu hw
    have hagree := h (w.fillLog u) hvalid hlast
    rw [log_fillLog, List.forall₂_map_right_iff, List.forall₂_same] at hagree
    have hrel := hagree r hr key hkey
    rw [EventRecord.fill_get?, hv] at hrel
    cases hrel with
    | some hsame => exact hdiffer hsame
  · intro hplain w' hw' hlast
    rw [chainValid_iff] at hw hw'
    have hlast' : (eventChain env).last none w.log = (eventChain env).last none w'.log := by
      rw [last_eq_lastEventHash, last_eq_lastEventHash, hlast]
    have hall := HashChain.forall₂_of_last_eq (eventChain_prev_eq hfree hnum)
      (fun r => Option.some_ne_none _) hw hw' hlast'
    refine (List.forall₂_iff_zip.mpr ⟨hall.length_eq, fun hmem => ?_⟩)
    have hpair := (List.forall₂_iff_zip.mp hall).2 hmem
    exact agree_of_expected_eq hfree hnum (hplain _ (List.of_mem_zip hmem).1) hpair.1
      (Json.str.inj (Option.some.inj hpair.2))

/-- The log of one event. -/
def World.ofEvent (env : Env) (e : AgentEvent) : World :=
  World.empty.insertEvent (sealedEvent env e none)

theorem chainValid_ofEvent (hhex : HexDigest env) {e : AgentEvent} (he : Unredacted e) :
    chainValid env (World.ofEvent env e) = true := by
  have hnone : PlainHash none := by rintro _ ⟨⟩
  rw [chainValid_iff]
  exact (linked_insertEvent hhex (logKept_of_empty (w := World.empty) rfl) e hnone).mpr
    ⟨trivial, rfl, he.expected_eq hnone⟩

/-- A record written with a plain detail is plain. -/
theorem plain_eventRecord (e : AgentAuditEvent)
    (h : ∀ detail ∈ e.event.detail, (storedJson detail).any Json.unset = false) :
    (eventRecord e).Plain := by
  intro key v _ hv
  obtain ⟨u, hu, rfl⟩ := (eventRecord_get? e key v).mp hv
  have hopt : ∀ x : Option String, some u = x.map Json.str →
      (storedJson u).any Json.unset = false := by
    rintro (_ | s) hs
    · cases hs
    · cases hs
      rfl
  simp only [auditFields, eventFields, List.cons_append, List.nil_append, List.mem_cons,
    List.not_mem_nil, or_false, Prod.mk.injEq] at hu
  rcases hu with ⟨-, hu⟩ | ⟨-, hu⟩ | ⟨-, hu⟩ | ⟨-, hu⟩ | ⟨-, hu⟩ | ⟨-, hu⟩ | ⟨-, hu⟩ | ⟨-, hu⟩ |
    ⟨-, hu⟩ | ⟨-, hu⟩ | ⟨-, hu⟩ | ⟨-, hu⟩ | ⟨-, hu⟩
  · exact hopt (some _) hu
  · cases hu
    rfl
  · exact hopt (e.event.sessionId.map (idText "ses")) (by rw [Option.map_map]; exact hu)
  · exact hopt (some _) hu
  · exact hopt (e.event.operationId.map (idText "op")) (by rw [Option.map_map]; exact hu)
  · exact hopt (some _) hu
  · exact hopt _ hu
  · exact hopt _ hu
  · exact hopt (some _) hu
  · exact h u hu.symm
  · exact hopt _ hu
  · cases hu
    rfl
  · exact hopt (some _) hu

/-- An event without a detail cannot be exchanged. -/
theorem tamper_evident_iff_plain :
    (∀ r ∈ (World.ofEvent Env.spelling sampleEvent).log, r.Plain) ∧
      ∀ w', chainValid Env.spelling w' = true →
        w'.lastEventHash = (World.ofEvent Env.spelling sampleEvent).lastEventHash →
        List.Forall₂ EventRecord.Agree (World.ofEvent Env.spelling sampleEvent).log w'.log := by
  have hplain : ∀ r ∈ (World.ofEvent Env.spelling sampleEvent).log, r.Plain := by
    intro r hr
    obtain rfl := List.mem_singleton.mp hr
    refine plain_eventRecord _ ?_
    rintro _ ⟨⟩
  exact ⟨hplain, (tamper_evident_iff Env.spelling collisionFree_spelling numberText_spelling _
    (chainValid_ofEvent hexDigest_spelling unredacted_sampleEvent)).mpr hplain⟩

/-- An event whose detail is `null` can be exchanged for one whose detail is an infinity. -/
theorem null_exchanged :
    let w := World.ofEvent Env.spelling { sampleEvent with detail := some .null }
    CollisionFree Env.spelling ∧ chainValid Env.spelling w = true ∧
      chainValid Env.spelling (w.fillLog (.num .posInf)) = true ∧
      (w.fillLog (.num .posInf)).lastEventHash = w.lastEventHash ∧
      ¬ List.Forall₂ EventRecord.Agree w.log (w.fillLog (.num .posInf)).log := by
  intro w
  have hvalid : chainValid Env.spelling w = true :=
    chainValid_ofEvent hexDigest_spelling (unredacted_sampleEvent.withDetail (some .null))
  obtain ⟨hfilled, hlast⟩ := fillLog_unnoticed (u := .num .posInf) rfl hvalid
  refine ⟨collisionFree_spelling, hvalid, hfilled, hlast, fun hall => ?_⟩
  rw [log_fillLog, List.forall₂_map_right_iff, List.forall₂_same] at hall
  have hrel := hall (eventRecord (sealedEvent Env.spelling
    { sampleEvent with detail := some .null } none)) (List.mem_singleton_self _) "detail" (by decide)
  have hdetail : (eventRecord (sealedEvent Env.spelling
      { sampleEvent with detail := some .null } none)).get? "detail" = some .null := by
    rw [eventRecord_get?]
    exact ⟨.null, by simp [auditFields, eventFields, sealedEvent, redactSecrets], rfl⟩
  rw [EventRecord.fill_get?, hdetail] at hrel
  cases hrel with
  | some hsame => cases hsame

end Vops
