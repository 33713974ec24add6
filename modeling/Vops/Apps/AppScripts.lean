import Vops.Apps.InstallLedger

/-!
# The scripts of an app (`apps/app-scripts.ts`)

A script is a list of commands, run one after the other.

* `HostCommand`, `HostCommand.text` — a command, and the text that is sent to the host.
* `buildDeployScript`, `buildRemoveScript`, `removeApp` — the scripts.
* `HostState`, `HostCommand.exec` — the files, timers, volumes and secrets of a host, and what a command
  that succeeds does to them.
* `Ran`, `Completed` — a script that ran to any point, and one that ran to its end: behind `set +e` a
  command may fail without stopping it.

Images, containers and units that are running are not in the state.
-/

namespace Vops.Apps

/-! ## Commands -/

/-- `shq` -/
def shq (text : String) : String :=
  "'" ++ String.join (text.toList.map fun c => if c = '\'' then "'\\''" else c.toString) ++ "'"

/-- `RegistryLogin` -/
structure RegistryLogin where
  host : String
  user : String
  token : String
deriving DecidableEq

/-- `SecretMaterial` -/
structure SecretMaterial where
  name : String
  generate : Option (ℕ × SecretFormat)
  value : Option String
deriving DecidableEq

/-- `toMaterial` -/
def toMaterial (s : AppSecretPlan) : SecretMaterial := ⟨s.name, s.generate, s.value⟩

/-- The commands of the scripts. -/
inductive HostCommand
  | setFlag (flag : String)
  | echo (line : String)
  | mkdir (dir : String)
  | heredoc (path content : String) (index : ℕ)
  | registryLogin (login : RegistryLogin)
  | ensureSecret (secret : SecretMaterial)
  | dryRun (dir generator : String)
  | requireService (service : String)
  | daemonReload
  | restartPrereq (service : String)
  | restartService (service : String)
  | enableTimer (timer : String)
  | diagnose (service : String)
  | boundedStop (service : String)
  | disableTimer (timer : String)
  | removeFiles (paths : List String)
  | removeTree (dir : String)
  | removePod (pod : String)
  | removeContainer (container : String)
  | removeSecret (secret : String)
  | removeVolume (volume : String)
deriving DecidableEq

/-- `ensureSecret` -/
def ensureSecretText (s : SecretMaterial) : String :=
  let name := shq s.name
  let create := match s.generate with
    | some (length, format) =>
        let charClass := match format with
          | .hex => "a-f0-9"
          | .base64url => "a-zA-Z0-9"
        s!"LC_ALL=C tr -dc '{charClass}' </dev/urandom | head -c {length} | podman secret create {name} - >/dev/null 2>&1"
    | none =>
        let value := shq (s.value.getD "")
        s!"printf %s {value} | podman secret create {name} - >/dev/null 2>&1"
  "podman secret inspect " ++ name ++ " >/dev/null 2>&1 || \x7b " ++ create ++ "; \x7d"

/-- `diagLine` -/
def diagLine (service : String) : String :=
  let q := shq service
  "if [ \"$(systemctl is-active " ++ q ++ " 2>/dev/null)\" != active ]; then " ++
    "R=$(systemctl show -p Result --value " ++ q ++ " 2>/dev/null); echo \"### " ++ service ++
    " (result=$\x7bR:-unknown\x7d)\"; [ \"$R\" = timeout ] && echo \"" ++ service ++
    " never signalled readiness within TimeoutStartSec=" ++ toString START_TIMEOUT_SEC ++ "s\"; " ++
    "journalctl -u " ++ q ++ " -n 12 --no-pager 2>&1 | tail -12; fi"

/-- The tag that ends the text of a file. -/
def heredocTag (index : ℕ) : String := s!"VOPS_UNIT_EOF_{index}"

/-- `boundedStop` -/
def boundedStopText (service : String) : String :=
  let q := shq service
  "if command -v timeout >/dev/null 2>&1; then timeout 12 systemctl stop " ++ q ++
    "; else systemctl stop " ++ q ++ "; fi >/dev/null 2>&1; systemctl kill -s SIGKILL " ++ q ++
    " >/dev/null 2>&1; systemctl reset-failed " ++ q ++ " 2>/dev/null"

/-- `registryLogin` -/
def registryLoginText (login : RegistryLogin) : String :=
  "printf %s " ++ shq login.token ++ " | podman login " ++ shq login.host ++ " -u " ++ shq login.user ++
    " --password-stdin >/dev/null 2>&1 || \x7b echo '@@error'; echo \"podman login " ++ login.host ++
    " failed (check the token scope: it needs read access to packages)\"; exit 5; \x7d"

/-- What is sent to the host. -/
def HostCommand.text : HostCommand → String
  | setFlag flag => "set " ++ flag
  | echo line => "echo " ++ line
  | mkdir dir => "mkdir -p " ++ shq dir
  | heredoc path content index =>
      let tag := heredocTag index
      "cat > " ++ shq path ++ " <<'" ++ tag ++ "'\n" ++ content ++ "\n" ++ tag
  | registryLogin login => registryLoginText login
  | ensureSecret secret => ensureSecretText secret
  | dryRun dir generator => "DRY=$(QUADLET_UNIT_DIRS=" ++ shq dir ++ " " ++ shq generator ++
      " --dryrun 2>&1) || \x7b echo '@@error'; echo \"quadlet dry-run failed\"; echo \"$DRY\"; exit 3; \x7d"
  | requireService service => "echo \"$DRY\" | grep -q " ++ shq service ++
      " || \x7b echo '@@error'; echo \"quadlet skipped " ++ service ++
      " (bad unit)\"; echo \"$DRY\"; exit 4; \x7d"
  | daemonReload => "systemctl daemon-reload"
  | restartPrereq service => "systemctl reset-failed " ++ shq service ++
      " 2>/dev/null; systemctl restart " ++ shq service ++ " >/dev/null 2>&1"
  | restartService service => "systemctl reset-failed " ++ shq service ++
      " 2>/dev/null; systemctl restart " ++ shq service ++ " >/dev/null 2>&1; echo \"" ++ service ++
      "=$(systemctl is-active " ++ shq service ++ " 2>/dev/null)\""
  | enableTimer timer => "systemctl enable " ++ shq timer ++ " >/dev/null 2>&1; systemctl restart " ++
      shq timer ++ " >/dev/null 2>&1"
  | diagnose service => diagLine service
  | boundedStop service => boundedStopText service
  | disableTimer timer => "systemctl disable --now " ++ shq timer ++ " >/dev/null 2>&1"
  | removeFiles paths => "rm -f " ++ " ".intercalate (paths.map shq)
  | removeTree dir => "rm -rf " ++ shq dir
  | removePod pod => "podman pod rm -f " ++ shq pod ++ " >/dev/null 2>&1"
  | removeContainer container => "podman rm -f " ++ shq container ++ " >/dev/null 2>&1"
  | removeSecret secret => "podman secret rm " ++ shq secret ++ " >/dev/null 2>&1"
  | removeVolume volume => "podman volume rm " ++ shq volume ++ " >/dev/null 2>&1"

/-- A script. -/
abbrev HostScript := List HostCommand

/-- The text of a script. -/
def HostScript.text (script : HostScript) : String := joinLines (script.map HostCommand.text)

/-! ## The scripts -/

/-- `DeployScriptInput` -/
structure DeployScriptInput where
  unitDir : String
  units : Record String
  healthUnits : Record String
  secrets : List SecretMaterial
  services : List String
  prereqServices : List String
  quadletGenerator : String
  registry : Option RegistryLogin

/-- The files of a record in a directory; the numbers of their tags begin at `first`. -/
def heredocs (dir : String) (first : ℕ) (files : List (String × String)) : List HostCommand :=
  files.mapIdx fun i file => .heredoc (dir ++ "/" ++ file.1) file.2 (first + i)

/-- The files that a deploy writes. -/
def deployFiles (unitDir : String) (units healthUnits : Record String) : List HostCommand :=
  heredocs unitDir 0 units.entries ++ heredocs SYSTEM_UNIT_DIR units.entries.length healthUnits.entries

/-- The timers among the health units. -/
def healthTimers (healthUnits : Record String) : List String :=
  healthUnits.keys.filter fun name => name.endsWith ".timer"

/-- `buildDeployScript` -/
def buildDeployScript (input : DeployScriptInput) : HostScript :=
  [HostCommand.setFlag "-e", .mkdir input.unitDir] ++ deployFiles input.unitDir input.units input.healthUnits ++
    (input.registry.map HostCommand.registryLogin).toList ++ [HostCommand.setFlag "+e"] ++
    input.secrets.map HostCommand.ensureSecret ++
    [HostCommand.setFlag "-e", .dryRun input.unitDir input.quadletGenerator] ++
    input.services.map HostCommand.requireService ++ [HostCommand.daemonReload, .setFlag "+e"] ++
    input.prereqServices.map HostCommand.restartPrereq ++ [HostCommand.echo "'@@started'"] ++
    input.services.map HostCommand.restartService ++
    (healthTimers input.healthUnits).map HostCommand.enableTimer ++ [HostCommand.echo "'@@diag'"] ++
    (input.prereqServices ++ input.services).map HostCommand.diagnose ++ [HostCommand.echo "'@@ok'"]

/-- `RemoveScriptInput` -/
structure RemoveScriptInput where
  unitDir : String
  services : List String
  prereqServices : List String
  containers : List String
  pod : Option String
  secrets : List String
  volumes : List String
  purge : Bool

/-- `healthTeardown` -/
def healthTeardown (container : String) : List HostCommand :=
  [.disableTimer (healthTimerUnit container),
    .removeFiles [SYSTEM_UNIT_DIR ++ "/" ++ healthTimerUnit container,
      SYSTEM_UNIT_DIR ++ "/" ++ healthServiceUnit container]]

/-- `buildRemoveScript` -/
def buildRemoveScript (i : RemoveScriptInput) : HostScript :=
  [HostCommand.setFlag "+e"] ++ (i.services.reverse ++ i.prereqServices).map HostCommand.boundedStop ++
    i.containers.flatMap healthTeardown ++ [HostCommand.removeTree i.unitDir, .daemonReload] ++
    ((truthyText i.pod).map HostCommand.removePod).toList ++ i.containers.map HostCommand.removeContainer ++
    (if i.purge then i.secrets.map HostCommand.removeSecret else []) ++
    (if i.purge then i.volumes.map HostCommand.removeVolume else []) ++
    [HostCommand.echo "'@@removed'", .echo (if i.purge then "purged" else "kept-data")]

/-- `removeApp`: the script it runs. -/
def removeApp (install : AppInstallV1) (purge : Bool) : HostScript :=
  buildRemoveScript {
    unitDir := appUnitDir install.name
    services := install.components.map fun c => c.container ++ ".service"
    prereqServices := prereqServiceNames install.pod install.volumes
    containers := install.components.map InstallComponent.container
    pod := install.pod
    secrets := install.secrets
    volumes := install.volumes
    purge := purge }

/-! ## What they do -/

/-- What the scripts change on a host: the contents of files by their paths, the timers that are
enabled, and the named volumes and secrets. -/
structure HostState where
  files : String → Option String
  enabled : String → Bool
  volumes : List String
  secrets : List String

/-- What a here-document writes: its lines up to the one that is the tag. -/
def heredocBody (content : String) (index : ℕ) : String :=
  String.ofList (TextLines.join
    ((content.toList.splitOn '\n').takeWhile fun line => line ≠ (heredocTag index).toList))

/-- The path is in the directory, at any depth. -/
def isUnder (dir path : String) : Bool := (dir ++ "/").toList.isPrefixOf path.toList

/-- The volume that a volume service creates. -/
def volumeOf (service : String) : Option String :=
  if "-volume.service".toList.isSuffixOf service.toList then
    some (String.ofList (service.toList.rdrop "-volume.service".length))
  else none

/-- `value` is one of `values`. -/
def ensure (value : String) (values : List String) : List String :=
  if value ∈ values then values else values ++ [value]

/-- What a command does when it succeeds. -/
def HostCommand.exec (s : HostState) : HostCommand → HostState
  | heredoc path content index =>
      { s with files := Function.update s.files path (some (heredocBody content index)) }
  | removeFiles paths => { s with files := fun path => if path ∈ paths then none else s.files path }
  | removeTree dir => { s with files := fun path => if isUnder dir path then none else s.files path }
  | enableTimer timer => { s with enabled := Function.update s.enabled timer true }
  | disableTimer timer => { s with enabled := Function.update s.enabled timer false }
  | ensureSecret secret => { s with secrets := ensure secret.name s.secrets }
  | restartPrereq service =>
      { s with volumes := ((volumeOf service).map fun v => ensure v s.volumes).getD s.volumes }
  | removeSecret secret => { s with secrets := s.secrets.filter (· ≠ secret) }
  | removeVolume volume => { s with volumes := s.volumes.filter (· ≠ volume) }
  | _ => s

/-- A command that stops the script when it fails. -/
def HostCommand.strict : HostCommand → Bool
  | mkdir _ | heredoc _ _ _ | registryLogin _ | dryRun _ _ | requireService _ => true
  | _ => false

/-- A script that ran to any point. -/
inductive Ran : HostScript → HostState → HostState → Prop
  | stop (script s) : Ran script s s
  | done {c script s s'} : Ran script (c.exec s) s' → Ran (c :: script) s s'
  | failed {c script s s'} : c.strict = false → Ran script s s' → Ran (c :: script) s s'

/-- A script that ran to its end. -/
inductive Completed : HostScript → HostState → HostState → Prop
  | nil (s) : Completed [] s s
  | done {c script s s'} : Completed script (c.exec s) s' → Completed (c :: script) s s'
  | failed {c script s s'} : c.strict = false → Completed script s s' → Completed (c :: script) s s'

end Vops.Apps
