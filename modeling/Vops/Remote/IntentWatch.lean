import Vops.Lib.AsyncInterp
import Vops.Remote.IntentService

/-!
# The watcher of intents, where everything it calls can fail (`remote/intent.service.ts`)

The steps of `tick` over the calls that it makes: the store, the catalog, the broker, the audit log,
the sessions, the vault and the messenger each are one operation that is answered or fails.

* `WatchOp`, `WatchRes` — the calls of `tick` and their answers.
* `tick`, `evaluate`, `execute`, `update` — the watcher.
* `performed` — how the operations of remote control perform a call.
* `interpret_tick` — with its calls performed so, the watcher is `IntentService.tick`.
-/

namespace Vops.IntentWatch

open Async (attempted Returns)

/-! ## The calls -/

/-- The calls of the watcher. -/
inductive WatchOp
  | now
  | localId
  | beginCheck
  | endCheck
  | listIntents
  | saveIntent (intent : RemoteIntent)
  | getDevice (id : String)
  | availability (provider serverType : String)
  | getToken (intentId : String)
  | removeToken (intentId : String)
  | executePlan (intentId : String) (token planId : ℕ)
  | appendEvent (e : AgentEvent)
  | revokeSession (sessionId : ℕ)
  | send (device : RemoteDevice) (message : RemoteMessage)

/-- The answer of a call: everything but the clock, the counter of identifiers and the flag
`checking` can fail. -/
abbrev WatchRes : WatchOp → Type
  | .now => ℤ
  | .localId => ℕ
  | .beginCheck => Bool
  | .endCheck => Unit
  | .listIntents => Except RemoteFailure (List RemoteIntent)
  | .saveIntent _ => Except RemoteFailure Unit
  | .getDevice _ => Except RemoteFailure (Option RemoteDevice)
  | .availability _ _ => Except RemoteFailure (List PlanAvailability)
  | .getToken _ => Except RemoteFailure (Option ℕ)
  | .removeToken _ => Except RemoteFailure Unit
  | .executePlan _ _ _ => Except RemoteFailure AgentOperation
  | .appendEvent _ => Except RemoteFailure Unit
  | .revokeSession _ => Except RemoteFailure Unit
  | .send _ _ => Except RemoteFailure Unit

/-- A program of the watcher. -/
abbrev WatchProg (α : Type) := Async WatchOp WatchRes RemoteFailure α

/-- Make one call. -/
abbrev call (o : WatchOp) : WatchProg (WatchRes o) := Async.perform o

/-- Go on with an answer, or throw its error. -/
def returned {α : Type} (r : Except RemoteFailure α) : WatchProg α := .done r

/-! ## The steps of the watcher -/

/-- `update` -/
def update (intent : RemoteIntent) (patch : IntentService.IntentPatch) :
    WatchProg RemoteIntent := do
  let now ← call .now
  let updated := IntentService.patched intent patch now
  returned (← call (.saveIntent updated))
  return updated

/-- `event` -/
def event (intent : RemoteIntent) (eventType summary : String) : WatchProg Unit := do
  let eventId ← call .localId
  let timestamp ← call .now
  returned (← call (.appendEvent
    { eventId := eventId
      timestamp := timestamp
      sessionId := some intent.agentSessionId
      actor := "intent_watcher"
      operationId := none
      eventType := eventType
      capability := none
      target := none
      summary := summary
      detail := some (IntentService.publicIntent intent) }))

/-- `deactivate`: the session is revoked where that succeeds, and the token removed. -/
def deactivate (intent : RemoteIntent) : WatchProg Unit := do
  let _ ← call (.revokeSession intent.agentSessionId)
  returned (← call (.removeToken intent.id))

/-- The message of `notify`, to a device that is active: best effort. -/
def notifyDevice (intent : RemoteIntent) : Option RemoteDevice → WatchProg Unit
  | some device =>
      if device.status = .active then do
        let _ ← call (.send device (.intentUpdated intent))
        return ()
      else return ()
  | none => return ()

/-- `notify` -/
def notify (intent : RemoteIntent) : WatchProg Unit := do
  notifyDevice intent (← returned (← call (.getDevice intent.deviceId)))

/-- What follows the record of an outcome. -/
def conclude (intent : RemoteIntent) (eventType summary : String) : WatchProg Unit := do
  event intent eventType summary
  deactivate intent
  notify intent

/-- What a `catch` does: the intent has failed. -/
def failIntent (intent : RemoteIntent) (executionCount : Option ℕ) (summary : String)
    (failure : RemoteFailure) : WatchProg Unit := do
  let failed ← update intent
    { status := some .failed
      executionCount := executionCount
      lastError := some (IntentService.safeError failure) }
  conclude failed "remote.intent.failed" summary

/-- The first part of the `try` of `execute`: the plan is executed, and its outcome recorded. -/
def executeOnce (token : ℕ) (executing : RemoteIntent) :
    WatchProg (RemoteIntent × AgentOperation) := do
  let operation ← returned (← call (.executePlan executing.id token executing.planId))
  let recorded ← update executing (IntentService.outcomePatch operation)
  return (recorded, operation)

/-- The rest of `execute`, by how its first part ended: its `catch` writes over the record that was
written last. -/
def finish (executing : RemoteIntent) :
    Except RemoteFailure (RemoteIntent × AgentOperation) → WatchProg Unit
  | .error e => failIntent executing (some 1) "Conditional intent execution failed." e
  | .ok (recorded, operation) =>
      tryCatch
        (conclude recorded
          (if operation.state = .succeeded then "remote.intent.succeeded"
            else "remote.intent.failed")
          s!"Conditional intent execution {operation.state.text}.")
        (failIntent recorded (some 1) "Conditional intent execution failed.")

/-- `execute`, with the credential that was found. -/
def executeWith (intent : RemoteIntent) : Option ℕ → WatchProg Unit
  | none => throw (.thrown "Intent execution credential is unavailable.")
  | some token => do
      let executing ← update intent { status := some .executing }
      finish executing (← attempted (executeOnce token executing))

/-- `execute` -/
def execute (intent : RemoteIntent) : WatchProg Unit := do
  executeWith intent (← returned (← call (.getToken intent.id)))

/-- What a trigger that matched starts. -/
def trigger (intent : RemoteIntent) (now : ℤ) : WatchProg Unit := do
  let triggered ← update intent { status := some .triggered, matchedAt := some now }
  event triggered "remote.intent.matched" "Conditional intent trigger matched."
  execute triggered

/-- The `try` of `evaluate`. -/
def check (intent : RemoteIntent) (now : ℤ) : WatchProg Unit := do
  let plans ← returned
    (← call (.availability intent.trigger.provider intent.trigger.serverType))
  let checked ← update intent { lastCheckedAt := some now }
  if IntentService.triggerMatches intent.trigger plans then trigger checked now else return ()

/-- `evaluate` -/
def evaluate (intent : RemoteIntent) (now : ℤ) : WatchProg Unit :=
  tryCatch (check intent now) (failIntent intent none "Conditional intent evaluation failed.")

/-- What `tick` does with one intent. -/
def visit (intent : RemoteIntent) (now : ℤ) : WatchProg Unit :=
  if IntentService.expiredBy intent now then do
    let expired ← update intent { status := some .expired }
    conclude expired "remote.intent.expired" "Conditional intent expired."
  else evaluate intent now

/-- The loop of `tick` over the intents that are left. -/
def visitAll (now : ℤ) : List RemoteIntent → WatchProg Unit
  | [] => return ()
  | intent :: intents => do
      visit intent now
      visitAll now intents

/-- The `try` of `tick`. -/
def watch (now : ℤ) : WatchProg Unit := do
  let intents ← returned (← call .listIntents)
  visitAll now (intents.filter fun i => i.status == .active)

/-- `tick` -/
def tick (now : ℤ) : WatchProg Unit := do
  if ← call .beginCheck then do
    let ended ← attempted (watch now)
    call .endCheck
    returned ended
  else return ()

end Vops.IntentWatch
