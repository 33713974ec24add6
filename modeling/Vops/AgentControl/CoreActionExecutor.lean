import Vops.AgentApi.VopsAgentApi
import Vops.AgentControl.AgentSessionManager
import Vops.Firewall.FirewallServices

/-!
# The executor of capabilities (`agent-control/core-action-executor.ts`)

* `executeCapability` — one branch for each capability.
* `execute` — the call of a step, marked by the operation `Op.execute`.
* `assertRepository`, `assertRepoFile`, `appRef` — how a branch reads the repository, a file of it and
  an application out of its input.
-/

namespace Vops.CoreActionExecutor

open VopsServers

/-! ## Reading inputs -/

/-- `String(input.key)` -/
def text (input : Json) (key : String) : String := Json.textOf (input.get? key)

/-- `input.key ? String(input.key) : undefined` -/
def textWhenTruthy (input : Json) (key : String) : Option String :=
  ((input.get? key).filter Json.truthy).map Json.toText

/-- `assertPathInside` -/
def assertPathInside (root candidate : String) : Except Failure String :=
  let outside := match PosixPath.relative root candidate with
    | part :: _ => ['.', '.'].isPrefixOf part
    | [] => false
  if outside then
    .error (.control
      { code := .scopeDenied
        message := s!"Path '{candidate}' is outside the session repository."
        status := .denied })
  else .ok candidate

/-- `assertRepoFile` -/
def assertRepoFile (session : AgentSession) (file : String) : Except Failure String :=
  assertPathInside session.repository.path (PosixPath.resolve session.repository.path file)

/-- `assertRepository` -/
def assertRepository (input : Option Json) (session : AgentSession) : Prog String := do
  let requested ← liftExcept (← perform (.realpath (Json.textOf input)))
  if requested ≠ session.repository.path then
    throwControl
      { code := .scopeDenied
        message := s!"Repository '{requested}' is outside this session."
        status := .denied }
  else return requested

/-- `appRef`: the application and the host of a host-scoped capability. -/
def appRef (input : Json) : Except Failure (String × Option String) :=
  let host := ((input.get? "host").bind Json.str?).filter (· ≠ "")
  match (input.get? "name").bind Json.str? with
  | some name =>
      if name = "" then
        .error (.control { code := .planInvalid, message := "An application name is required." })
      else .ok (name, host)
  | none => .error (.control { code := .planInvalid, message := "An application name is required." })

/-- `withinScope` -/
def withinScope (hosts : Json) (session : AgentSession) : Json :=
  match hosts with
  | .arr xs =>
      if session.scope.targets = [] then hosts
      else .arr (xs.filter fun host =>
        match (host.get? "name").bind Json.str? with
        | some name => decide (name ∈ session.scope.targets)
        | none => false)
  | v => v

/-! ## The branches -/

/-- `flui_spec.read` -/
def readSpec (input : Json) (session : AgentSession) : Prog Json := do
  let repository ← assertRepository (input.get? "repository") session
  let name := Json.textOf (orElse (input.get? "file") (some (.str "flui.yaml")))
  let file ← liftExcept (assertPathInside repository (PosixPath.resolve repository name))
  call (.readSpec file)

/-- `flui_spec.generate` -/
def generateSpec (input : Json) (session : AgentSession) : Prog Json := do
  let repository ← assertRepository (input.get? "repository") session
  let name := Json.textOf (orElse (input.get? "outputFile") (some (.str "flui.yaml")))
  let output ← liftExcept (assertPathInside repository (PosixPath.resolve repository name))
  call (.specGenerate (text input "template") (text input "name") output
    (Json.truthyOf (input.get? "force")))

/-- `listCatalogByKind` -/
def listCatalogByKind (kind : String) : Prog Json :=
  if kind = "products" then call (.listCatalog (some "product"))
  else if kind = "blocks" then call (.listCatalog (some "block"))
  else call (.listCatalog none)

/-- `catalog.install` -/
def installCatalog (input : Json) : Prog Json :=
  call (.appsDeploy { catalog := some (text input "catalog") } (some (.str (text input "host")))
    { name := (textWhenTruthy input "name").map .str
      isPublic := (input.get? "public").map fun v => .bool v.truthy
      dryRun := false })

/-- `compareProviders` -/
def compareProviders (input : Json) : Prog Json := do
  let number := fun key => (input.get? key).map Json.toNumber
  let rows ← call (.catalogCompare (number "minVcpu") (number "minMemoryGiB")
    (Json.truthyOf (input.get? "refresh")))
  match input.get? "providers", rows with
  | some (.arr providers), .arr rows =>
      return .arr (rows.filter fun row =>
        match (row.get? "provider").bind Json.str? with
        | some provider => decide (provider ∈ providers.map Json.toText)
        | none => false)
  | _, rows => return rows

/-- `inspectTarget` -/
def inspectTarget (target : String) : Prog Json := do
  let host ← call (.hostsShow target)
  let status ← call (.hostStatus target)
  return .obj [("host", host), ("status", status)]

/-- The amount a plan file is booked with: `monthly ?? ((hourly ?? 0) * 730)`. -/
def bookedAmount (cost : Json) : Json :=
  match orElse (cost.get? "monthly") none with
  | some monthly => monthly
  | none =>
      .num (((orElse (cost.get? "hourly") (some (.num 0))).getD .null).toNumber.mul 730)

/-- `provision`: the amount is booked before the server is created. -/
def provision (input : Json) (session : AgentSession) : Prog Json := do
  let path ← liftExcept (assertRepoFile session (text input "planFile"))
  let plan ← readPlanFile path
  let cost := plan.get? "estimatedCost"
  let _ ← liftExcept (prop cost "monthly")
  let _ ← AgentSessionManager.commitProviderSpend session.id (bookedAmount (cost.getD .null))
  VopsServers.create plan

/-- `server.destroy` -/
def destroyServer (input : Json) : Prog Json := do
  let _ ← call (.serversDelete (text input "provider") (text input "id"))
  return .obj [("destroyed", .bool true), ("provider", (input.get? "provider").getD .null),
    ("id", (input.get? "id").getD .null)]

/-- `server.harden` -/
def hardenServer (input : Json) : Prog Json :=
  call (.harden (text input "target") (textWhenTruthy input "user")
    (match input.get? "steps" with
      | some (.arr steps) => some (steps.map Json.toText)
      | _ => none))

/-- `application.plan_deploy` -/
def planDeploy (input : Json) (session : AgentSession) : Prog Json := do
  let projectDir ← assertRepository (input.get? "projectDir") session
  let spec ← liftExcept (assertRepoFile session (text input "spec"))
  let texts := fun key => ((textWhenTruthy input key).map fun s => (key, Json.str s)).toList
  let flag := fun key => ((input.get? key).map fun v => (key, Json.bool v.truthy)).toList
  VopsAgentApi.plan projectDir
    ([("spec", .str spec), ("host", .str (text input "host"))] ++ texts "image" ++ texts "name" ++
      texts "domain" ++ flag "tls" ++ flag "staging" ++ texts "auth" ++ flag "public")

/-- `application.deploy` -/
def deployPlanned (input : Json) (session : AgentSession) : Prog Json := do
  let projectDir ← assertRepository (input.get? "projectDir") session
  VopsAgentApi.apply projectDir (text input "planId")

/-- `readRecentLogs` -/
def readRecentLogs (input : Json) : Prog Json := do
  let (name, host) ← liftExcept (appRef input)
  let lines := ((orElse (input.get? "lines") (some (.num 200))).getD .null).toNumber
  let log ← call (.appsLogs name lines host)
  let texts := (Json.toText log).toList.splitOn '\n'
  return .obj ([("name", .str name)] ++ (host.map fun h => ("host", Json.str h)).toList ++
    [("lines", .arr (texts.map fun cs => .str (String.ofList cs)))])

/-- `this.firewall.get(target)` -/
def firewallGet (target : String) : Prog (List FirewallService) := do
  liftExcept (← perform (.firewallGet target))

/-- `openFirewallPort` -/
def openFirewallPort (input : Json) : Prog Json := do
  let current ← firewallGet (text input "target")
  let service ← liftExcept (parseServiceSpec (text input "service"))
  call (.firewallSet (text input "target")
    ((current.filter fun entry => entry.id != service.id) ++ [service]))

/-- `closeFirewallPort` -/
def closeFirewallPort (input : Json) : Prog Json := do
  let current ← firewallGet (text input "target")
  let service ← liftExcept (parseServiceSpec (text input "service"))
  call (.firewallSet (text input "target") (current.filter fun entry =>
    !(entry.protocol == service.protocol && entry.port == service.port)))

/-- `firewall.inspect` -/
def inspectFirewall (input : Json) : Prog Json := do
  let services ← firewallGet (text input "target")
  return .obj [("services", .arr (services.map fun s => .obj [("id", .str s.id),
    ("label", .str s.label), ("protocol", .str s.protocol), ("port", .str s.port),
    ("enabled", .bool s.enabled), ("sources", .arr (s.sources.map .str))]))]

/-- A branch that acts on an application. -/
def withApp (input : Json) (act : String → Option String → Prog Json) : Prog Json := do
  let (name, host) ← liftExcept (appRef input)
  act name host

/-- The branches of `execute`. -/
def executeCapability (capability : String) (input : Json) (session : AgentSession) : Prog Json :=
  match capability with
  | "repository.inspect" => do
      let repository ← assertRepository (input.get? "repository") session
      call (.inspectRepository repository)
  | "flui_spec.read" => readSpec input session
  | "flui_spec.generate" => generateSpec input session
  | "flui_spec.validate" => do
      let file ← liftExcept (assertRepoFile session (text input "file"))
      call (.specValidate file)
  | "catalog.list" =>
      listCatalogByKind (Json.textOf (orElse (input.get? "kind") (some (.str "all"))))
  | "catalog.describe" => call (.describeCatalog (text input "id"))
  | "catalog.install" => installCatalog input
  | "provider.list" => call .providersList
  | "provider.prices.compare" => compareProviders input
  | "target.list" => do
      let hosts ← call .hostsList
      return withinScope hosts session
  | "target.inspect" => inspectTarget (text input "target")
  | "server.list" => call (.serversList (text input "provider"))
  | "server.inspect" => call (.serversShow (text input "provider") (text input "id"))
  | "server.provision" => provision input session
  | "server.destroy" => destroyServer input
  | "server.harden" => hardenServer input
  | "application.plan_deploy" => planDeploy input session
  | "application.deploy" => deployPlanned input session
  | "application.status" => withApp input fun name host => call (.appsStatus name host)
  | "application.restart" => withApp input fun name host => call (.appsRestart name host)
  | "logs.read_recent" => readRecentLogs input
  | "healthcheck.run" => withApp input VopsAgentApi.verify
  | "firewall.inspect" => inspectFirewall input
  | "firewall.open_port" => openFirewallPort input
  | "firewall.close_port" => closeFirewallPort input
  | capability =>
      throwControl
        { code := .unsupported, message := s!"Capability '{capability}' has no executor." }

/-- `execute` -/
def execute (d : Dispatch) : Prog Json := do
  perform (.execute d)
  executeCapability d.step.capability d.step.input d.session

end Vops.CoreActionExecutor
