import Vops.Lib.JsonText
import Vops.AgentControl.Redaction
import Vops.AgentControl.AgentModel

/-!
# The records of the audit log (`agent-control/agent-store.ts`, `agent-api/plan-store.ts`)

* `stableStringify` — the text from which every hash is computed.
* `EventRecord` — a record of `agent_events` as `JSON.parse` gives it: fields with different keys.
* `eventJson` — the payload of an event, from which `appendEvent` computes the hash.
* `eventRecord` — what is read back of an event that was stored.
* `EventRecord.payload` — what `verifyEventChain` computes the hash of a record from.
-/

namespace Vops

/-- `stableStringify`, for a way to write finite numbers and the order of `localeCompare`. -/
def stableStringify (numText : ℚ → String) (localeLe : String → String → Bool) (v : Json) : String :=
  String.ofList (stableChars numText localeLe v)

/-! ## Fields -/

/-- The fields that are not `undefined`. -/
def definedFields (fields : List (String × Option Json)) : List (String × Json) :=
  fields.filterMap fun f => f.2.map fun v => (f.1, v)

/-- `{ ...event, detail, previousHash }` -/
def eventFields (e : AgentEvent) (detail : Option Json) (previousHash : Option String) :
    List (String × Option Json) :=
  [("eventId", some (.str (idText "evt" e.eventId))), ("timestamp", some (.num (.fin e.timestamp))),
    ("sessionId", e.sessionId.map fun id => .str (idText "ses" id)), ("actor", some (.str e.actor)),
    ("operationId", e.operationId.map fun id => .str (idText "op" id)),
    ("eventType", some (.str e.eventType)), ("capability", e.capability.map .str),
    ("target", e.target.map .str), ("summary", some (.str e.summary)), ("detail", detail),
    ("previousHash", previousHash.map .str)]

/-- The payload of an event. -/
def eventJson (e : AgentEvent) (detail : Option Json) (previousHash : Option String) : Json :=
  .obj (definedFields (eventFields e detail previousHash))

/-- `{ ...payload, redactionsApplied, hash }` -/
def auditFields (e : AgentAuditEvent) : List (String × Option Json) :=
  eventFields e.event e.event.detail e.previousHash ++
    [("redactionsApplied", some (.bool e.redactionsApplied)), ("hash", some (.str e.hash))]

/-! ## Records -/

/-- A record of the log, as it is parsed. -/
structure EventRecord where
  fields : List (String × Json)
  keys_nodup : (fields.map Prod.fst).Nodup

namespace EventRecord

/-- `event[key]` -/
def get? (r : EventRecord) (key : String) : Option Json := Json.get? (.obj r.fields) key

/-- `const { hash, redactionsApplied, ...payload } = event` -/
def payload (r : EventRecord) : Json :=
  .obj (r.fields.filter fun f => f.1 != "hash" && f.1 != "redactionsApplied")

end EventRecord

theorem mem_definedFields {fields : List (String × Option Json)} {f : String × Json} :
    f ∈ definedFields fields ↔ (f.1, some f.2) ∈ fields := by
  simp only [definedFields, List.mem_filterMap, Option.map_eq_some_iff, Prod.exists]
  constructor
  · rintro ⟨key, _, hmem, v, rfl, rfl⟩
    exact hmem
  · intro hmem
    exact ⟨f.1, some f.2, hmem, f.2, rfl, rfl⟩

theorem definedFields_keys (fields : List (String × Option Json)) :
    ((definedFields fields).map Prod.fst).Sublist (fields.map Prod.fst) := by
  induction fields with
  | nil => exact .slnil
  | cons f fields ih =>
      obtain ⟨key, v⟩ := f
      cases v with
      | none => exact ih.cons key
      | some v => exact ih.cons_cons key

theorem redactFields_keys (fields : List (String × Json)) :
    (redactFields fields).map Prod.fst = fields.map Prod.fst := by
  induction fields with
  | nil => rfl
  | cons f fields ih => rw [redactFields, List.map_cons, List.map_cons, ih]

theorem auditFields_keys_nodup (e : AgentAuditEvent) : ((auditFields e).map Prod.fst).Nodup := by
  have hkeys : (auditFields e).map Prod.fst = ["eventId", "timestamp", "sessionId", "actor",
      "operationId", "eventType", "capability", "target", "summary", "detail", "previousHash",
      "redactionsApplied", "hash"] := rfl
  rw [hkeys]
  decide

/-- What is read back of an audit event: the store writes it redacted. -/
def eventRecord (e : AgentAuditEvent) : EventRecord where
  fields := Json.reparseFields (redactFields (definedFields (auditFields e)))
  keys_nodup := by
    rw [Json.reparseFields_eq, map_values_keys, redactFields_keys]
    exact (auditFields_keys_nodup e).sublist (definedFields_keys _)

end Vops
