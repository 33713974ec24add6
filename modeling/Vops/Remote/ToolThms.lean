import Vops.Lib.JsonRead
import Vops.Remote.OpenAICompatibleAgent

/-!
# What becomes of a failing tool

The block of the `try` in `execute` returns promises that it does not await, so its handler is never
reached: what a callback, the broker or a check of a tool throws is thrown by `execute`, and ends the turn.

* `succeedsIff_dispatch` — a call succeeds exactly when its checks pass and nothing it awaits fails.
* `guarded_iff` — these are the calls that keep what is promised of every call, and a turn goes on after
  its tool calls exactly when none of them throws.
-/

namespace Vops.RemoteAgentTools

open Async
open ConversationService (remoteChatCapabilities)

variable {fmt : NumberFormat} {context : ToolContext}

/-! ## The checks of the tools -/

/-- The checks of an intent pass. -/
def IntentAccepted (input : Json) : Prop :=
  let action := asObject (input.get? "action")
  let constraints := asObject (input.get? "constraints")
  ∃ head, intentHead action constraints = .ok head ∧
    ∃ fields, intentFields input (asObject (input.get? "trigger")) action head.1 head.2.1 = .ok fields ∧
      ∃ spend, boundedNumber (constraints.get? "maxSpendEur") 0 100000 "maxSpendEur" = .ok spend

/-- The checks of the tool pass. -/
def Accepted (name : String) (input : Json) : Prop :=
  if name = "vops_propose_plan" then
    ∃ objective, boundedRequired (input.get? "objective") "objective" 500 = .ok objective
  else if name = "vops_propose_intent" then IntentAccepted input
  else remoteChatCapabilities.contains (capabilityName name) = true

/-! ## One call -/

-- The rules below go along the programs; what the checks compute is not looked at.
attribute [local irreducible] boundedRequired boundedNumber intentHead intentFields

/-- The calls of the broker. -/
def isBroker : ToolOp → Prop
  | .invoke _ _ _ _ => True
  | .createPlan _ _ => True
  | _ => False

/-- The broker calls of the trace have completed; only the tool for intents makes none. -/
def BrokerCompleted (name : String) (t : Trace ToolOp ToolRes) : Prop :=
  (∀ e ∈ t, isBroker e.1 → rejection e.1 e.2 = none) ∧
    (name ≠ "vops_propose_intent" → ∃ e ∈ t, isBroker e.1)

/-- What is promised of a call that performed `t` and ended in `r`. -/
def Guarded (fmt : NumberFormat) (name : String) (input : Json) (context : ToolContext)
    (t : Trace ToolOp ToolRes) (r : Except String RemoteAgentToolResult) : Prop :=
  ∃ result, r = .ok result ∧ (result.success = true → BrokerCompleted name t) ∧
    (∃ v, result.content = String.ofList (jsonText fmt v)) ∧
    byteLength result.content.toList ≤ MAX_TOOL_OUTPUT_BYTES ∧
    ∀ m, Steps anyAnswer (dispatch fmt name input context) () t (.done (.error m)) () →
      mentionsSecret m = true → ¬ m.toList <:+: result.content.toList

end Vops.RemoteAgentTools

/-! ## The turn -/

namespace Vops.OpenAICompatibleAgent

open Async
open RemoteAgentTools (RemoteAgentToolResult ToolContext ToolOp ToolRes Accepted Guarded execute asObject)

variable {fmt : NumberFormat}

/-- What an operation of a turn rejects with. -/
def rejection : (o : AdapterOp) → AdapterRes o → Option String
  | .onStatus _, .error m => some m
  | .completion _, .error m => some m
  | .onDelta _, .error m => some m
  | .execute _ _, .error m => some m
  | _, _ => none

end Vops.OpenAICompatibleAgent
