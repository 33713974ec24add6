import Vops.World

/-!
# Servers (`servers/vops-servers.service.ts`)

* `readPlanFile` (`lib/plan-io.ts`) — a plan file, of which only the version is checked.
* `resolveProvider` (`lib/providers.ts`), `planNodeSize` (`catalog/vops-catalog.service.ts`) — the
  provider and the live catalog entry that a plan file names.
* `writeGate`, `assertGate` (`safety/vops-write-gate.service.ts`) — what may be provisioned.
* `estimatedCost` — the price of a catalog entry at a location.
* `create` — provision a server for a plan file.

A plan file is any JSON: every field is read as the code reads it, and reading a field of `null` or of
`undefined` throws. Texts are compared in lower case letter by letter, over the ASCII letters.
-/

namespace Vops.VopsServers

/-! ## Reading JSON fields -/

/-- `value.key`, where `none` is `undefined`. -/
def prop (value : Option Json) (key : String) : Except Failure (Option Json) :=
  match value with
  | none => .error (.thrown s!"Cannot read properties of undefined (reading '{key}')")
  | some .null => .error (.thrown s!"Cannot read properties of null (reading '{key}')")
  | some v => .ok (v.get? key)

/-- The text that `value.toLowerCase()` is called on: only texts have it. -/
def textToLower (value : Option Json) : Except Failure String :=
  match value with
  | some (.str s) => .ok s
  | _ => .error (.thrown "toLowerCase is not a function")

/-- `value ?? other` -/
def orElse (value other : Option Json) : Option Json :=
  match value with
  | none => other
  | some .null => other
  | some v => some v

/-! ## Plan files -/

/-- `JSON.parse(fs.readFileSync(path, 'utf8'))`, by what the file holds. -/
def parseJson (path : String) : Option FileText → Except Failure Json
  | none => .error (.thrown s!"ENOENT: no such file or directory, open '{path}'")
  | some (.raw _) => .error (.thrown "Unexpected token in JSON")
  | some (.json v) => .ok v

/-- `readPlanFile`, by what the file holds. -/
def parsePlanFile (path : String) (content : Option FileText) : Except Failure Json := do
  let plan ← parseJson path content
  let version ← prop (some plan) "version"
  if (version.bind Json.str?) = some "vops.plan.v1" then return plan
  else
    let name := Json.textOf version
    .error (.thrown s!"Unsupported plan version '{name}' (expected vops.plan.v1).")

/-- `readPlanFile` -/
def readPlanFile (path : String) : Prog Json := do
  liftExcept (parsePlanFile path (← perform (.readFile path)))

/-- Reading a plan file, then going on with it. -/
theorem readPlanFile_bind {β : Type} (path : String) (f : Json → Prog β) :
    (readPlanFile path >>= f) =
      .await (.readFile path) fun content => liftExcept (parsePlanFile path content) >>= f :=
  rfl

/-- A plan file that is accepted is what the file holds. -/
theorem eq_of_parsePlanFile {path : String} {content : Option FileText} {v : Json}
    (h : parsePlanFile path content = .ok v) : content = some (.json v) := by
  rcases content with _ | u | t
  · cases h
  · cases hversion : prop (some u) "version" with
    | error e => simp [parsePlanFile, parseJson, hversion, bind, Except.bind] at h
    | ok version =>
        simp only [parsePlanFile, parseJson, hversion, bind, Except.bind] at h
        split at h
        · rw [Except.ok.inj h]
        · cases h
  · cases h

/-! ## Providers -/

/-- `DISPLAY_NAMES` -/
def displayName : CloudProvider → String
  | .hetzner => "Hetzner Cloud"
  | .scaleway => "Scaleway"
  | .contabo => "Contabo"
  | .ovh => "OVHcloud"
  | .cherry => "Cherry Servers"

/-- `SUPPORTED` -/
def supported : List CloudProvider := [.hetzner, .scaleway, .contabo, .ovh, .cherry]

/-- `isGuided` -/
def isGuided (provider : CloudProvider) : Bool := provider == .contabo

/-- `hasNativeFirewall` -/
def hasNativeFirewall (provider : CloudProvider) : Bool :=
  provider == .hetzner || provider == .scaleway

/-- `text.toLowerCase().replaceAll(/\s+/g, '')` -/
def squeezed (text : String) : List Char :=
  (text.toList.map Char.toLower).filter fun c => !isJsSpace c

/-- The provider a text names. -/
def providerNamed (name : String) : Option CloudProvider :=
  let n := squeezed name
  supported.find? fun p =>
    (CloudProvider.text p).toList.isPrefixOf n || squeezed (displayName p) == n

/-- `resolveProvider` -/
def resolveProvider (name : Option Json) : Except Failure CloudProvider := do
  let text ← textToLower name
  match providerNamed text with
  | some provider => .ok provider
  | none =>
      let names := ", ".intercalate (supported.map CloudProvider.text)
      .error (.thrown s!"Unknown provider '{text}'. Supported: {names}")

/-! ## The live catalog -/

/-- The entry of a catalog that a plan name stands for. -/
def findNode (sizes : List NodeSizeDto) (plan : String) : Option NodeSizeDto :=
  let lower := fun (s : String) => s.toList.map Char.toLower
  sizes.find? fun s => lower s.name == lower plan || s.id == plan

/-- `planNodeSize`, once the catalog has been read, and its check by `requirePlan`. -/
def planNode (sizes : List NodeSizeDto) (name plan : Option Json) : Except Failure NodeSizeDto := do
  let text ← textToLower plan
  match findNode sizes text with
  | some node => .ok node
  | none =>
      let nameText := Json.textOf name
      .error (.thrown s!"Plan '{text}' not found for {nameText}.")

/-- `requirePlan`, with `planNodeSize` of the catalog service. -/
def requirePlan (name plan : Option Json) : Prog NodeSizeDto := do
  let provider ← liftExcept (resolveProvider name)
  let sizes ← liftExcept (← perform (.nodeSizes provider))
  liftExcept (planNode sizes name plan)

/-- `Number.parseFloat(v ?? '')`, or `null` when that is not finite. -/
def priceNumber (v : Option String) : Option ℚ :=
  match parseFloat (v.getD "") with
  | .fin q => some q
  | _ => none

/-- `estimatedCost`: the price at the location, or at the first location. -/
structure EstimatedCost where
  hourly : Option ℚ
  monthly : Option ℚ
deriving DecidableEq

/-- `estimatedCost` -/
def estimatedCost (node : NodeSizeDto) (location : Option Json) : EstimatedCost :=
  let priced := (node.prices.find? fun p => some p.location == location.bind Json.str?).or
    node.prices.head?
  ⟨priced.bind fun p => priceNumber p.hourlyNet, priced.bind fun p => priceNumber p.monthlyNet⟩

/-! ## The write gate -/

/-- `VopsBillingGate` -/
structure VopsBillingGate where
  providerBilling : String
  planSupportsHourly : Bool
  bareMetal : Bool
  allowed : Bool
  guided : Bool
  reason : Option String
deriving DecidableEq

/-- `reason` of a refusal. -/
def gateReason (providerBilling : String) (bareMetal : Bool) : String :=
  let cause :=
    if bareMetal then "bare-metal plan (monthly commitment)"
    else if providerBilling = "hourly" then "plan does not support hourly billing"
    else s!"provider is {providerBilling}-billed"
  s!"Creation refused: {cause}. " ++
    "vops provisions hourly-billed, non-bare-metal plans (or approved monthly providers)."

/-- `evaluate` of the write gate. -/
def writeGate (billingCycle : String) (provider : CloudProvider) (plan : NodeSizeDto) :
    VopsBillingGate :=
  let allowed := !plan.bareMetal && billingCycle == "hourly" && plan.supportsHourlyBilling
  { providerBilling := billingCycle
    planSupportsHourly := plan.supportsHourlyBilling
    bareMetal := plan.bareMetal
    allowed := allowed
    guided := !plan.bareMetal && !allowed && isGuided provider
    reason := if allowed then none else some (gateReason billingCycle plan.bareMetal) }

/-- `assert` of the write gate. -/
def assertGate (gate : VopsBillingGate) : Except Failure Unit :=
  if gate.allowed then .ok () else .error (.thrown (gate.reason.getD "Creation not allowed."))

/-- A gate as JSON. -/
def gateJson (gate : VopsBillingGate) : Json :=
  .obj [("providerBilling", .str gate.providerBilling),
    ("planSupportsHourly", .bool gate.planSupportsHourly), ("bareMetal", .bool gate.bareMetal),
    ("allowed", .bool gate.allowed), ("guided", .bool gate.guided),
    ("reason", (gate.reason.map Json.str).getD .null)]

/-! ## `create` -/

/-- `assertHostFirewallApplicable`, which is called when the plan has a host firewall. -/
def assertHostFirewallApplicable (provider : CloudProvider) (plan : Json) : Except Failure Unit :=
  if Json.truthyOf (plan.get? "hostFirewall") ∧ hasNativeFirewall provider then
    .error (.thrown (displayName provider ++ " has a native, network-edge firewall — use 'vops " ++
      "firewall' for it. The host-level firewall (--host-firewall) is meant only for providers " ++
      "without a native firewall (e.g. Contabo, OVH)."))
  else .ok ()

/-- `howTo`: guidance for a provider that is not billed by the hour. -/
def howTo (plan : Json) : Except Failure Json := do
  let cost := plan.get? "estimatedCost"
  let price ← prop cost "monthly"
  let currency := Json.textOf (cost.bind fun c => c.get? "currency")
  let provider := Json.textOf (plan.get? "provider")
  let planName := Json.textOf (plan.get? "plan")
  let location := Json.textOf (plan.get? "location")
  let priceLabel := match orElse price none with
    | none => "monthly billing"
    | some v =>
        let text := Json.toText v
        s!"from {text} {currency}/mo"
  return .arr [
    .str (s!"{provider} is monthly-billed — vops does not provision it " ++
      "(avoids a monthly commitment)."),
    .str s!"Plan: {planName} · region {location} · {priceLabel}",
    .str (s!"To create it, order this plan in region '{location}' from the {provider} " ++
      "control panel.")]

/-- The SSH keys of the new server: the key of the plan file, unless there is none. -/
def sshKeys (plan : Json) : Except Failure (Option Json) := do
  let sshKey := plan.get? "sshKey"
  let mode ← prop sshKey "mode"
  let id := sshKey.bind fun k => k.get? "id"
  if (mode.bind Json.str?) ≠ some "none" ∧ Json.truthyOf id = true then
    return id.map fun v => .arr [v]
  else return none

/-- The cloud-init data of the new server. -/
def userData (plan : Json) : Prog (Option String) :=
  match plan.get? "hostFirewall" with
  | some fw =>
      if fw.truthy then do
        let text ← liftExcept (← perform (.renderCloudInit fw))
        return some text
      else return none
  | none => return none

/-- The fields of the audit record of a request. -/
def requestAudit (provider : CloudProvider) (plan : Json) (gate : VopsBillingGate) : Json :=
  .obj [("provider", .str (CloudProvider.text provider)), ("plan", (plan.get? "plan").getD .null),
    ("location", (plan.get? "location").getD .null), ("dryRun", .bool false),
    ("guided", .bool gate.guided), ("gate", gateJson gate)]

/-- `createServer`, the audit record of it, and the outcome. -/
def provision (provider : CloudProvider) (plan : Json) (node : NodeSizeDto) : Prog Json := do
  let ssh_keys ← liftExcept (sshKeys plan)
  let user_data ← userData plan
  let config : CreateServerConfig :=
    { provider := provider
      name := plan.get? "name"
      server_type := plan.get? "plan"
      image := plan.get? "image"
      location := plan.get? "location"
      ssh_keys := ssh_keys
      user_data := user_data }
  let result ← liftExcept (← perform (.createServer config node))
  let ip := (result.ipAddress.map Json.str).getD .null
  let _ ← call (.appendAudit "server.created" (.obj [
    ("provider", .str (CloudProvider.text provider)), ("serverId", .str result.serverId),
    ("ip", ip)]))
  return .obj [("dryRun", .bool false), ("plan", plan),
    ("server", .obj [("id", .str result.serverId), ("ip", ip), ("status", .str result.status)])]

/-- `create`, once the entry of the catalog has been found. -/
def createNode (provider : CloudProvider) (plan : Json) (node : NodeSizeDto) : Prog Json := do
  let gate := writeGate (← perform (.billingCycle provider)) provider node
  let _ ← call (.appendAudit "server.create.request" (requestAudit provider plan gate))
  if gate.guided then do
    let lines ← liftExcept (howTo plan)
    return .obj [("dryRun", .bool false), ("guided", .bool true), ("howTo", lines), ("plan", plan),
      ("server", .null)]
  else do
    let _ ← liftExcept (assertGate gate)
    provision provider plan node

/-- `create`, with `dryRun: false` and `yes: true`, as the executor calls it. -/
def create (plan : Json) : Prog Json := do
  perform (.serversCreate plan)
  let provider ← liftExcept (resolveProvider (plan.get? "provider"))
  let _ ← liftExcept (assertHostFirewallApplicable provider plan)
  -- the entry is looked up live; the prices in the file are not read here
  let node ← requirePlan (plan.get? "provider") (plan.get? "plan")
  createNode provider plan node

end Vops.VopsServers
