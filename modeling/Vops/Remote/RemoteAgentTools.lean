import Vops.Keyring.KeyringServer
import Vops.Lib.AsyncEnds
import Vops.Lib.JsonRead
import Vops.Remote.ConversationService

/-!
# The tools of a remote agent (`remote/remote-agent-tools.service.ts`)

* `ToolOp` — what a tool call awaits: the callbacks of the turn, the broker, an identifier, the time.
* `boundedRequired`, `boundedNumber`, `asObject`, `stringArray`, `boundedJson`, `safeToolError` — the
  functions at the end of the file.
* `read`, `proposePlan`, `proposeIntent`, `execute` — the tools.
* `returning` — a `try` that returns a promise without awaiting it.

What is thrown is represented by its message.
-/

namespace Vops.RemoteAgentTools

open Keyring (utf16Length)
open ConversationService (remoteChatCapabilities supportsPlan)

/-! ## Values -/

/-- `value ?? undefined` -/
def nonNull : Option Json → Option Json
  | some .null => none
  | v => v

/-- `asObject` -/
def asObject : Option Json → Json
  | some (.obj fields) => .obj fields
  | _ => .obj []

/-- `String(value ?? '')` -/
def textOrEmpty (value : Option Json) : String := ((nonNull value).map Json.toText).getD ""

/-- `stringArray` -/
def stringArray (value : Option Json) (maxItems maxLength : ℕ) : List String :=
  match value with
  | some (.arr xs) => (xs.take maxItems).map fun x => sliceText maxLength x.toText
  | _ => []

/-- What a check of a field throws. -/
def invalidField (field : String) : String := s!"Tool field '{field}' is invalid."

/-- `boundedRequired` -/
def boundedRequired (value : Option Json) (field : String) (max : ℕ) : Except String String :=
  let result := jsTrim (textOrEmpty value)
  if result = "" ∨ max < utf16Length result.toList then .error (invalidField field) else .ok result

/-- `boundedNumber` -/
def boundedNumber (value : Option Json) (min max : ℚ) (field : String) : Except String JsNum :=
  match (value.map Json.toNumber).getD .nan with
  | .fin q => if q < min ∨ max < q then .error (invalidField field) else .ok (.fin q)
  | _ => .error (invalidField field)

/-- `MAX_TOOL_OUTPUT_BYTES` -/
def MAX_TOOL_OUTPUT_BYTES : ℕ := 64 * 1024

/-- `Buffer.byteLength(text)` -/
def byteLength (text : List Char) : ℕ := (text.map Char.utf8Size).sum

/-- What stands for an output that is too long. -/
def truncatedOutput : Json :=
  .obj [("truncated", .bool true), ("reason", .str "Tool output exceeded the remote-agent limit.")]

/-- `boundedJson` -/
def boundedJson (fmt : NumberFormat) (value : Json) : String :=
  String.ofList (if byteLength (jsonText fmt value) ≤ MAX_TOOL_OUTPUT_BYTES then jsonText fmt value
    else jsonText fmt truncatedOutput)

/-- What `.` does not match. -/
def isLineTerminator (c : Char) : Bool := c == '\n' || c == '\r' || c == '\u2028' || c == '\u2029'

/-- `/private.?key/` at the start of a text in small letters; a character outside the basic plane is two
units for `.`. -/
def beginsPrivateKey (cs : List Char) : Bool :=
  "private".toList.isPrefixOf cs &&
    ("key".toList.isPrefixOf (cs.drop 7) ||
      match cs.drop 7 with
      | c :: rest => !isLineTerminator c && decide (c.toNat ≤ 0xFFFF) && "key".toList.isPrefixOf rest
      | [] => false)

/-- `/token|credential|secret|private.?key|authorization|cookie/i.test(message)` -/
def mentionsSecret (message : String) : Bool :=
  mentions ["token", "credential", "secret", "authorization", "cookie"] message ||
    (message.toList.map Char.toLower).tails.any beginsPrivateKey

/-- `safeToolError` -/
def safeToolError (message : String) : String :=
  if mentionsSecret message then "The vOps tool rejected the request." else sliceText 500 message

/-! ## Operations -/

/-- What is handed to `createPlan`. -/
structure PlanRequest where
  objective : String
  environment : Option String
  target : Option String
  steps : List (String × Json)
  successCriteria : List String
  excludedEffects : List String

/-- What a tool call awaits. -/
inductive ToolOp
  | onStatus (state detail : String)
  | onApproval (id : Option Json)
  | onIntentProposal (proposal : Json)
  | invoke (sessionToken capability : String) (input : Json) (objective : String)
  | createPlan (sessionToken : String) (request : PlanRequest)
  | localId (kind : String)
  /-- `new Date(Date.now() + durationHours * 60 * 60_000).toISOString()` -/
  | expiresAt (durationHours : JsNum)

/-- The answer of an operation; the broker answers with an object. -/
abbrev ToolRes : ToolOp → Type
  | .onStatus _ _ => Except String Unit
  | .onApproval _ => Except String Unit
  | .onIntentProposal _ => Except String Unit
  | .invoke _ _ _ _ => Except String (List (String × Json))
  | .createPlan _ _ => Except String (List (String × Json))
  | .localId _ => String
  | .expiresAt _ => String

/-- What an operation rejects with. -/
def rejection : (o : ToolOp) → ToolRes o → Option String
  | .onStatus _ _, .error m => some m
  | .onApproval _, .error m => some m
  | .onIntentProposal _, .error m => some m
  | .invoke _ _ _ _, .error m => some m
  | .createPlan _ _, .error m => some m
  | _, _ => none

/-- A tool call. -/
abbrev ToolProg (α : Type) := Async ToolOp ToolRes String α

/-- Wait for one operation. -/
abbrev tool (o : ToolOp) : ToolProg (ToolRes o) := Async.perform o

/-- Go on with a result, or throw its error. -/
def orThrow {α : Type} (r : Except String α) : ToolProg α := .done r

/-- `ToolContext`: which callbacks there are. -/
structure ToolContext where
  sessionToken : String
  hasApproval : Bool
  hasIntentProposal : Bool

/-- `RemoteAgentToolResult` -/
structure RemoteAgentToolResult where
  content : String
  success : Bool

/-! ## The tools -/

/-- `capabilityName` -/
def capabilityName (name : String) : String :=
  let suffix := if "vops_".toList.isPrefixOf name.toList then name.toList.drop 5 else name.toList
  (remoteChatCapabilities.find? fun capability =>
    (capability.toList.map fun c => if c = '.' then '_' else c) = suffix).getD (String.ofList suffix)

/-- What an answer of the broker shows: `result.operation?.result ?? result`. -/
def shown (result : List (String × Json)) : Json :=
  ((nonNull ((nonNull (Json.get? (.obj result) "operation")).bind fun operation =>
    operation.get? "result")).getD (.obj result))

/-- `read` -/
def read (fmt : NumberFormat) (name : String) (input : Json) (context : ToolContext) :
    ToolProg RemoteAgentToolResult := do
  let capability := capabilityName name
  if ¬ remoteChatCapabilities.contains capability then
    throw s!"Remote agent tool '{capability}' is outside the read-only contract."
  else do
    orThrow (← tool (.onStatus "using_tool" capability))
    let result ← orThrow (← tool (.invoke context.sessionToken capability input
      s!"Remote read-only query: {capability}"))
    return { content := boundedJson fmt (redactSecrets (shown result)), success := true }

/-- A field that is passed on when it is set. -/
def textWhenSet (value : Option Json) : Option String :=
  if Json.truthyOf value then some (Json.textOf value) else none

/-- A proposed step. -/
def planStep (step : Json) : String × Json :=
  let row := asObject (some step)
  (textOrEmpty (row.get? "capability"), asObject (row.get? "input"))

/-- The steps of a proposed plan. -/
def planSteps : Option Json → List (String × Json)
  | some (.arr steps) => steps.map planStep
  | _ => []

/-- `proposePlan` -/
def proposePlan (fmt : NumberFormat) (input : Json) (context : ToolContext) :
    ToolProg RemoteAgentToolResult := do
  orThrow (← tool (.onStatus "using_tool" "governed plan"))
  let objective ← orThrow (boundedRequired (input.get? "objective") "objective" 500)
  let result ← orThrow (← tool (.createPlan context.sessionToken
    { objective := objective
      environment := textWhenSet (input.get? "environment")
      target := textWhenSet (input.get? "target")
      steps := planSteps (input.get? "steps")
      successCriteria := stringArray (input.get? "successCriteria") 12 300
      excludedEffects := stringArray (input.get? "excludedEffects") 12 300 }))
  let approval := Json.get? (.obj result) "approval"
  if Json.truthyOf approval ∧ context.hasApproval then
    orThrow (← tool (.onApproval (approval.bind fun v => v.get? "id")))
  return { content := boundedJson fmt (.obj result), success := true }

/-- `plannableCapabilities` -/
def plannableCapabilities : List String :=
  (capabilities.filter fun c => c.access != .read && supportsPlan c).map CapabilityDefinition.id

/-- A field that is required when it is set. -/
def requiredWhenSet (value : Option Json) (field : String) (max : ℕ) :
    Except String (List (String × Json)) :=
  if Json.truthyOf value then (boundedRequired value field max).map fun text => [(field, .str text)]
  else .ok []

/-- The environments of an intent. -/
def environments : List String := ["development", "staging", "production"]

/-- The checks that an intent passes before it is put together: its capability, its environment and how
long it is to last. -/
def intentHead (action constraints : Json) : Except String (String × String × JsNum) := do
  let capability ← boundedRequired (action.get? "capability") "capability" 120
  if capability = "server.destroy" ∨ ¬ plannableCapabilities.contains capability then
    throw s!"Intent capability '{capability}' is not eligible."
  let environment := textOrEmpty (action.get? "environment")
  if ¬ environments.contains environment then throw (invalidField "environment")
  let durationHours ← boundedNumber (constraints.get? "durationHours") 1 720 "durationHours"
  return (capability, environment, durationHours)

/-- The fields of an intent up to the moment at which it expires. -/
def intentFields (input trigger action : Json) (capability environment : String) :
    Except String (String × Json × Json) := do
  let objective ← boundedRequired (input.get? "objective") "objective" 500
  let provider ← boundedRequired (trigger.get? "provider") "provider" 80
  let serverType ← boundedRequired (trigger.get? "serverType") "serverType" 120
  let location ← requiredWhenSet (trigger.get? "location") "location" 120
  let target ← requiredWhenSet (action.get? "target") "target" 160
  return (objective,
    .obj ([("type", .str "catalog.availability"), ("provider", .str provider),
      ("serverType", .str serverType)] ++ location),
    .obj ([("capability", .str capability), ("input", asObject (action.get? "input")),
      ("environment", .str environment)] ++ target))

/-- The proposal of an intent. -/
def intentJson (id objective : String) (trigger action : Json) (expiresAt : String) (maxSpendEur : JsNum) :
    Json :=
  .obj [("id", .str id), ("objective", .str objective), ("trigger", trigger), ("action", action),
    ("constraints", .obj [("expiresAt", .str expiresAt), ("maxExecutions", .num 1),
      ("maxSpendEur", .num maxSpendEur), ("failureBehavior", .str "stop")])]

/-- `proposeIntent` -/
def proposeIntent (fmt : NumberFormat) (input : Json) (context : ToolContext) :
    ToolProg RemoteAgentToolResult := do
  orThrow (← tool (.onStatus "using_tool" "conditional intent proposal"))
  let trigger := asObject (input.get? "trigger")
  let action := asObject (input.get? "action")
  let constraints := asObject (input.get? "constraints")
  let (capability, environment, durationHours) ← orThrow (intentHead action constraints)
  let id ← tool (.localId "intent")
  let (objective, triggerFields, actionFields) ←
    orThrow (intentFields input trigger action capability environment)
  let expiresAt ← tool (.expiresAt durationHours)
  let maxSpendEur ← orThrow (boundedNumber (constraints.get? "maxSpendEur") 0 100000 "maxSpendEur")
  let proposal := intentJson id objective triggerFields actionFields expiresAt maxSpendEur
  if context.hasIntentProposal then
    orThrow (← tool (.onIntentProposal proposal))
  return { content := boundedJson fmt (.obj [("proposal", proposal),
             ("state", .str "awaiting_signed_admin_activation"), ("executed", .bool false)])
           success := true }

/-! ## `execute` -/

/-- What the block of the `try` returns: the promise of the tool's own function. -/
def dispatch (fmt : NumberFormat) (name : String) (input : Json) (context : ToolContext) :
    ToolProg RemoteAgentToolResult :=
  if name = "vops_propose_plan" then proposePlan fmt input context
  else if name = "vops_propose_intent" then proposeIntent fmt input context
  else read fmt name input context

/-- A `try` whose block returns a promise that it does not await: the handler gets what the block itself
throws, not what the promise rejects with. -/
def returning {α : Type} (block : Except String (ToolProg α)) (handler : String → ToolProg α) :
    ToolProg α :=
  match block with
  | .ok promise => promise
  | .error message => handler message

/-- `execute` -/
def execute (fmt : NumberFormat) (name : String) (rawInput : Option Json) (context : ToolContext) :
    ToolProg RemoteAgentToolResult :=
  returning (do let input := asObject rawInput; return dispatch fmt name input context) fun error =>
    return { content := boundedJson fmt (.obj [("error", .str (safeToolError error))])
             success := false }

end Vops.RemoteAgentTools
