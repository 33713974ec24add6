import Vops.Lib.Json
import Vops.Lib.Table

/-!
# Unit files (`apps/quadlet-render.ts`, `apps/health-timer.ts`)

* `renderContainer`, `renderVolume`, `renderPod` — the Quadlet files of an app.
* `renderHealthUnits` — the timer and the service that run a health probe.
* `renderDeploy` — all of them, with the secrets they need.

Files are records: a name has one text.
-/

/-!
## Apps (`apps/app.model.ts`)

* `Record` — a JavaScript object that is used as a table, its keys being distinct by construction.
* `AppPlan`, `AppComponentPlan` — what a manifest asks for, before it is bound to a host.
* `IngressBinding`, `HostFacts`, `PortReservations` — what binds it to a host.
* `HostDeployPlan` — the result: ports, unit files, services.
* `AppInstallV1` — a row of the install ledger.

Fields that none of the modelled functions reads are left out.
-/

namespace Vops.Apps

/-! ## Records -/

/-- A JavaScript object that is used as a table: its entries, in the order in which their keys came. -/
structure Record (β : Type) where
  entries : List (String × β)
  keyed : Table.Keyed Prod.fst entries

namespace Record

variable {β : Type}

/-- `{}` -/
def empty : Record β := ⟨[], List.nodup_nil⟩

/-- `record[key] = value` -/
def set (r : Record β) (key : String) (value : β) : Record β :=
  ⟨Table.upsert Prod.fst (key, value) r.entries, r.keyed.upsert⟩

/-- `record[key]` -/
def get? (r : Record β) (key : String) : Option β := (Table.get Prod.fst key r.entries).map Prod.snd

/-- `Object.assign(record, Object.fromEntries(entries))` -/
def assign (r : Record β) (entries : List (String × β)) : Record β :=
  entries.foldl (fun r e => r.set e.1 e.2) r

/-- `Object.fromEntries(entries)` -/
def ofEntries (entries : List (String × β)) : Record β := empty.assign entries

/-- `Object.keys(record)` -/
def keys (r : Record β) : List String := r.entries.map Prod.fst

@[simp] theorem entries_empty : (empty : Record β).entries = [] := rfl

@[simp] theorem entries_set (r : Record β) (key : String) (value : β) :
    (r.set key value).entries = Table.upsert Prod.fst (key, value) r.entries := rfl

end Record

/-! ## Plans -/

/-- `AppPortPlan.protocol` -/
inductive PortProtocol
  | http | tcp
deriving DecidableEq

/-- `AppPortPlan` -/
structure AppPortPlan where
  container : ℤ
  expose : Bool
  protocol : PortProtocol
deriving DecidableEq

/-- `AppVolumePlan` -/
structure AppVolumePlan where
  volume : String
  mountPath : String
deriving DecidableEq

/-- `AppEnvPlain` -/
structure AppEnvPlain where
  name : String
  value : String
deriving DecidableEq

/-- `generate.format` -/
inductive SecretFormat
  | base64url | hex
deriving DecidableEq

/-- `AppSecretPlan`; a generated one has a length and a format. -/
structure AppSecretPlan where
  name : String
  target : String
  generate : Option (ℕ × SecretFormat)
  value : Option String
deriving DecidableEq

/-- `AppHealthPlan.type` -/
inductive HealthType
  | http | tcp | exec
deriving DecidableEq

/-- `AppHealthPlan`; the headers as the entries of a record. -/
structure AppHealthPlan where
  type : HealthType
  path : Option String
  port : Option ℤ
  command : Option (List String)
  httpHeaders : List (String × String)
  initialDelay : Option String
  interval : Option String
  timeout : Option String
  retries : Option ℤ
deriving DecidableEq

/-- `AppComponentPlan` -/
structure AppComponentPlan where
  name : String
  container : String
  image : String
  env : List AppEnvPlain
  secrets : List AppSecretPlan
  ports : List AppPortPlan
  volumes : List AppVolumePlan
  cpu : Option String
  memory : Option String
  health : Option AppHealthPlan
  dependsOn : List String
  command : Option (List String)
deriving DecidableEq

/-- `AppPlan` -/
structure AppPlan where
  name : String
  pod : Option String
  components : List AppComponentPlan
  primary : String
  needsAppDomain : Bool
  warnings : List String
deriving DecidableEq

/-- A text that is read as a condition. -/
def truthyText (text : Option String) : Option String := text.filter (· ≠ "")

/-! ## The host -/

/-- `IngressRoute` -/
structure IngressRoute where
  component : String
  containerPort : ℤ
  path : String
deriving DecidableEq

/-- `IngressBinding` -/
structure IngressBinding where
  hostname : String
  tls : Bool
  exposeDirect : Bool
  routes : List IngressRoute
deriving DecidableEq

/-- `HostFacts` -/
structure HostFacts where
  k3s : Bool
  selinux : Bool
  listeningPorts : List ℤ
deriving DecidableEq

/-- `PublishIntent` -/
inductive PublishIntent
  | loopback | publicly
deriving DecidableEq

/-- `PublishedPort` -/
structure PublishedPort where
  host : ℤ
  container : ℤ
  bind : String
deriving DecidableEq

/-- `PortReservations` -/
structure PortReservations where
  own : Record (List PublishedPort)
  others : List ℤ

/-- `AppEndpoint.reach` -/
inductive Reach
  | ingress | publicly | loopback
deriving DecidableEq

/-- `AppEndpoint` -/
structure AppEndpoint where
  component : String
  port : ℤ
  url : String
  reach : Reach
deriving DecidableEq

/-- `HostDeployPlan` -/
structure HostDeployPlan where
  unitDir : String
  coexistence : Bool
  ports : Record (List PublishedPort)
  units : Record String
  healthUnits : Record String
  secrets : List AppSecretPlan
  services : List String
  prereqServices : List String
  volumes : List String
  pod : Option String
  endpoints : List AppEndpoint

/-! ## The ledger -/

/-- `AppInstallV1.status` -/
inductive InstallStatus
  | installing | deployed | failed | removed
deriving DecidableEq

/-- A component of an install. -/
structure InstallComponent where
  name : String
  container : String
  image : String
  published : List PublishedPort
deriving DecidableEq

/-- `AppInstallV1` -/
structure AppInstallV1 where
  name : String
  pod : Option String
  primary : String
  components : List InstallComponent
  units : Record String
  secrets : List String
  volumes : List String
  endpoints : List AppEndpoint
  status : InstallStatus

end Vops.Apps

namespace Vops.Apps

/-- `lines.join('\n')` -/
def joinLines (lines : List String) : String := String.intercalate "\n" lines

/-- `section` -/
def renderSection (name : String) (lines : List String) : List String := s!"[{name}]" :: lines ++ [""]

/-! ## Health units -/

/-- `SYSTEM_UNIT_DIR` -/
def SYSTEM_UNIT_DIR : String := "/etc/systemd/system"

/-- `DEFAULT_INTERVAL` -/
def DEFAULT_INTERVAL : String := "30s"

/-- `healthTimerUnit` -/
def healthTimerUnit (container : String) : String := s!"{container}-health.timer"

/-- `healthServiceUnit` -/
def healthServiceUnit (container : String) : String := s!"{container}-health.service"

/-- `DURATION` -/
def isDuration (text : String) : Bool :=
  let digits := text.toList.takeWhile Char.isDigit
  let unit := String.ofList (text.toList.dropWhile Char.isDigit)
  !digits.isEmpty && ["ms", "s", "m", "h"].contains unit

/-- `duration` -/
def duration (value : Option String) : Option String :=
  (value.map jsTrim).filter isDuration

/-- The service of a health probe. -/
def healthServiceText (container : String) : String :=
  joinLines ["[Unit]", s!"Description=vops health probe {container}", "", "[Service]", "Type=oneshot",
    s!"ExecStart=-/bin/sh -c \"exec podman healthcheck run {container}\"", ""]

/-- The timer of a health probe. -/
def healthTimerText (container first interval : String) : String :=
  joinLines ["[Unit]", s!"Description=vops health timer {container}", s!"BindsTo={container}.service",
    s!"After={container}.service", "", "[Timer]", s!"OnActiveSec={first}",
    s!"OnUnitInactiveSec={interval}", "AccuracySec=1s", "", "[Install]",
    s!"WantedBy={container}.service", ""]

/-- `renderHealthUnits` -/
def renderHealthUnits (container : String) (health : Option AppHealthPlan) : List (String × String) :=
  let interval := (duration (health.bind AppHealthPlan.interval)).getD DEFAULT_INTERVAL
  let first := (duration (health.bind AppHealthPlan.initialDelay)).getD interval
  [(healthServiceUnit container, healthServiceText container),
    (healthTimerUnit container, healthTimerText container first interval)]

/-! ## Probes -/

/-- `value.replaceAll(c, '')` -/
def without (c : Char) (text : String) : String := String.ofList (text.toList.filter (· ≠ c))

/-- `headerToken` -/
def headerToken (name value : String) : String :=
  let joined := name ++ ":" ++ jsTrim value
  if joined.toList.any fun c => isJsSpace c || c == '\'' || c == '"' then "'" ++ without '\'' joined ++ "'"
  else joined

/-- The port a probe asks: the declared one, else the first exposed one, else the first one. -/
def probePort (h : AppHealthPlan) (comp : AppComponentPlan) : ℤ :=
  let exposed := comp.ports.find? AppPortPlan.expose
  ((h.port.orElse fun _ => exposed.map AppPortPlan.container).orElse fun _ =>
    comp.ports.head?.map AppPortPlan.container).getD 0

/-- `healthCommand` -/
def healthCommand (h : AppHealthPlan) (comp : AppComponentPlan) : String :=
  let port := probePort h comp
  match h.type with
  | .exec => " ".intercalate (h.command.getD [])
  | .tcp =>
      if port = 0 then ""
      else s!"command -v nc >/dev/null && exec nc -z 127.0.0.1 {port}; exit 0"
  | .http =>
      if port = 0 then ""
      else
        let given := h.path.getD ""
        let path := if given.startsWith "/" then given else "/" ++ given
        let url := s!"http://127.0.0.1:{port}{path}"
        let headers := h.httpHeaders.map fun e => headerToken e.1 e.2
        let curl := " ".intercalate (["curl", "-fsS", "-o", "/dev/null", "--max-time", "3"] ++
          headers.map ("-H " ++ ·) ++ [url])
        let wget := " ".intercalate (["wget", "-q", "-O", "/dev/null", "-T", "3"] ++
          headers.map ("--header " ++ ·) ++ [url])
        s!"command -v curl >/dev/null && exec {curl}; command -v wget >/dev/null && exec {wget}; exit 0"

/-- `probeCommand` -/
def probeCommand (comp : AppComponentPlan) : String :=
  (comp.health.map fun h => healthCommand h comp).getD ""

/-- A line for a field that is set. -/
def fieldLine (key : String) (value : Option String) : List String :=
  ((truthyText value).map (key ++ ·)).toList

/-- `healthLines` -/
def healthLines (comp : AppComponentPlan) : List String :=
  match comp.health with
  | none => []
  | some h =>
      let command := probeCommand comp
      if command = "" then []
      else [s!"HealthCmd={command}"] ++ fieldLine "HealthStartPeriod=" h.initialDelay ++
        fieldLine "HealthInterval=" h.interval ++ fieldLine "HealthTimeout=" h.timeout ++
        (match h.retries with
          | some retries => if retries = 0 then [] else [s!"HealthRetries={retries}"]
          | none => [])

/-! ## Quadlet files -/

/-- `START_TIMEOUT_SEC` -/
def START_TIMEOUT_SEC : ℕ := 300

/-- `RenderContext` -/
structure RenderContext where
  selinux : Bool
  ports : Record (List PublishedPort)

/-- The ports that were published for a component. -/
def RenderContext.published (ctx : RenderContext) (component : String) : List PublishedPort :=
  (ctx.ports.get? component).getD []

/-- `publish` -/
def publish (p : PublishedPort) : String :=
  let bind := p.bind
  let host := p.host
  let container := p.container
  s!"PublishPort={bind}:{host}:{container}"

/-- `text.replaceAll(/\s+/g, ' ')` -/
def collapseSpaces : List Char → List Char
  | [] => []
  | c :: cs =>
      if isJsSpace c then
        match cs with
        | [] => [' ']
        | d :: _ => if isJsSpace d then collapseSpaces cs else ' ' :: collapseSpaces cs
      else c :: collapseSpaces cs

/-- An argument that needs no quotes. -/
def isBareArg (arg : String) : Bool :=
  arg ≠ "" && arg.toList.all fun c => c.isAlphanum || "_./:=@-".toList.contains c

/-- `execLines` -/
def execLines : List String → List String
  | [] => ["Entrypoint=undefined"]
  | entry :: args =>
      let quoted := args.map fun arg =>
        if isBareArg arg then arg
        else "'" ++ jsTrim (String.ofList (collapseSpaces arg.toList)) ++ "'"
      s!"Entrypoint={entry}" :: if quoted = [] then [] else ["Exec=" ++ " ".intercalate quoted]

/-- `podmanArgs` -/
def podmanArgs (comp : AppComponentPlan) : List String :=
  let args := fieldLine "--memory=" comp.memory ++ fieldLine "--cpus=" comp.cpu
  if args = [] then [] else ["PodmanArgs=" ++ " ".intercalate args]

/-- `afterDeps` -/
def afterDeps (plan : AppPlan) (comp : AppComponentPlan) : List String :=
  comp.dependsOn.filterMap fun dep =>
    (plan.components.find? fun c => c.name == dep).map fun target => "After=" ++ target.container ++ ".service"

/-- `renderPod` -/
def renderPod (plan : AppPlan) (pod : String) (ctx : RenderContext) : String :=
  let publishes := plan.components.flatMap fun c => (ctx.published c.name).map publish
  joinLines (renderSection "Unit" [s!"Description=vops pod {pod}"] ++
    renderSection "Pod" (s!"PodName={pod}" :: publishes) ++
    renderSection "Install" ["WantedBy=default.target"])

/-- `renderVolume` -/
def renderVolume (name : String) : String :=
  joinLines (renderSection "Unit" [s!"Description=vops volume {name}"] ++
    renderSection "Volume" [s!"VolumeName={name}"])

/-- `renderContainer` -/
def renderContainer (plan : AppPlan) (comp : AppComponentPlan) (ctx : RenderContext) : String :=
  let network := match truthyText plan.pod with
    | some pod => [s!"Pod={pod}.pod"]
    | none => (ctx.published comp.name).map publish
  let relabel := if ctx.selinux then ":Z" else ""
  joinLines (
    renderSection "Unit" (("Description=vops app " ++ plan.name ++ " / " ++ comp.name) ::
      afterDeps plan comp) ++
    renderSection "Container" (["ContainerName=" ++ comp.container, "Image=" ++ comp.image] ++ network ++
      comp.env.map (fun e => "Environment=" ++ e.name ++ "=" ++ e.value) ++
      comp.secrets.map (fun s => "Secret=source=" ++ s.name ++ ",type=env,target=" ++ s.target) ++
      comp.volumes.map (fun v => "Volume=" ++ v.volume ++ ".volume:" ++ v.mountPath ++ relabel) ++
      (comp.command.map execLines).getD [] ++ healthLines comp ++ podmanArgs comp) ++
    renderSection "Service" ["Restart=always", "RestartSec=5", s!"TimeoutStartSec={START_TIMEOUT_SEC}"] ++
    renderSection "Install" ["WantedBy=default.target"])

/-! ## All files -/

/-- `RenderedDeploy` -/
structure RenderedDeploy where
  units : Record String
  healthUnits : Record String
  secrets : List AppSecretPlan
  pod : Option String

/-- A secret has a value of its own. -/
def AppSecretPlan.owned (s : AppSecretPlan) : Bool := s.generate.isSome || s.value.isSome

/-- `dedupeSecrets` -/
def dedupeSecrets (plan : AppPlan) : List AppSecretPlan :=
  (plan.components.flatMap AppComponentPlan.secrets).foldl
    (fun byName s =>
      match Table.get AppSecretPlan.name s.name byName with
      | some existing => if existing.owned then byName else Table.upsert AppSecretPlan.name s byName
      | none => Table.upsert AppSecretPlan.name s byName) []

/-- The pod file of an app, if it has a pod. -/
def podUnits (plan : AppPlan) (ctx : RenderContext) : List (String × String) :=
  match truthyText plan.pod with
  | some pod => [(s!"{pod}.pod", renderPod plan pod ctx)]
  | none => []

/-- The Quadlet files of a component. -/
def componentUnits (plan : AppPlan) (ctx : RenderContext) (comp : AppComponentPlan) :
    List (String × String) :=
  comp.volumes.map (fun v => (v.volume ++ ".volume", renderVolume v.volume)) ++
    [(comp.container ++ ".container", renderContainer plan comp ctx)]

/-- The health files of a component, if it declares a probe. -/
def componentHealthUnits (comp : AppComponentPlan) : List (String × String) :=
  if probeCommand comp = "" then [] else renderHealthUnits comp.container comp.health

/-- `renderDeploy` -/
def renderDeploy (plan : AppPlan) (ctx : RenderContext) : RenderedDeploy where
  units := Record.ofEntries (podUnits plan ctx ++ plan.components.flatMap (componentUnits plan ctx))
  healthUnits := Record.ofEntries (plan.components.flatMap componentHealthUnits)
  secrets := dedupeSecrets plan
  pod := plan.pod

end Vops.Apps
