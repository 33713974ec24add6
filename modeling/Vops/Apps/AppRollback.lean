import Vops.Apps.AppScripts
import Vops.HostOps.AuthorizedKeys
import Vops.Lib.TextSearch

/-!
# The rollback of a deploy (`apps/app-data-guard.ts`, `apps/app-rollback.ts`)

* `buildDataProbeScript`, `probeOutput` — which of the planned volumes and secrets exist, and what the
  probe then prints.
* `parseDataProbe`, `dataCreatedInRun` — what is read from it.
* `deployInput`, `rollbackDeploy` — the deploy of a plan, and what is run when it fails.

The output of a script is a list of characters.
-/

namespace Vops.Apps

open AuthorizedKeys (Text trim)
open TextSearch

/-! ## The probe -/

/-- `HostAppData` -/
structure HostAppData where
  ran : Bool
  volumes : List String
  secrets : List String
deriving DecidableEq

/-- `UNPROBED_DATA` -/
def UNPROBED_DATA : HostAppData := ⟨false, [], []⟩

/-- `buildDataProbeScript` -/
def buildDataProbeScript (volumes secrets : List String) : String :=
  let line (kind name : String) : String :=
    "podman " ++ kind ++ " inspect " ++ shq name ++ " >/dev/null 2>&1 && printf '" ++ kind ++
      " %s\\n' " ++ shq name
  joinLines (["set +e", "echo '@@existing'"] ++ volumes.map (line "volume") ++
    secrets.map (line "secret") ++ ["echo '@@done'"])

/-- The line that the probe prints for something that exists. -/
def foundLine (kind name : String) : Text := kind.toList ++ ' ' :: name.toList

/-- The lines between the marks. -/
def foundLines (s : HostState) (volumes secrets : List String) : List Text :=
  (volumes.filter (· ∈ s.volumes)).map (foundLine "volume") ++
    (secrets.filter (· ∈ s.secrets)).map (foundLine "secret")

/-- What the probe prints on a host. -/
def probeOutput (s : HostState) (volumes secrets : List String) : Text :=
  TextLines.join ("@@existing".toList :: foundLines s volumes secrets) ++ "@@done\n".toList

/-- `probeSection` -/
def probeSection (stdout : Text) : Option (List Text) :=
  match indexOf "@@existing".toList stdout with
  | none => none
  | some start =>
      match indexFrom "@@done".toList (start + 1) stdout with
      | none => none
      | some stop =>
          let first := ((indexFrom ['\n'] start stdout).map (· + 1)).getD 0
          some (((((stdout.take stop).drop first).splitOn '\n').map trim).filter (· ≠ []))

/-- `named` -/
def named (lines : List Text) (kind : String) : List String :=
  let start := kind.toList ++ [' ']
  (lines.filter start.isPrefixOf).map fun line => String.ofList (trim (line.drop start.length))

/-- `parseDataProbe` -/
def parseDataProbe (stdout : Text) : HostAppData :=
  match probeSection stdout with
  | none => UNPROBED_DATA
  | some lines => ⟨true, named lines "volume", named lines "secret"⟩

/-- `dataCreatedInRun`: the volumes and the secrets. -/
def dataCreatedInRun (volumes secrets : List String) (pre : HostAppData) : List String × List String :=
  if pre.ran then (volumes.filter (· ∉ pre.volumes), secrets.filter (· ∉ pre.secrets)) else ([], [])

/-! ## Deploy and rollback -/

/-- The names of the secrets of a plan. -/
def HostDeployPlan.secretNames (hp : HostDeployPlan) : List String := hp.secrets.map AppSecretPlan.name

/-- What the deploy of a plan is built from. -/
def deployInput (hp : HostDeployPlan) (generator : String) (registry : Option RegistryLogin) :
    DeployScriptInput where
  unitDir := hp.unitDir
  units := hp.units
  healthUnits := hp.healthUnits
  secrets := hp.secrets.map toMaterial
  services := hp.services
  prereqServices := hp.prereqServices
  quadletGenerator := generator
  registry := registry

/-- `RollbackInput` -/
structure RollbackInput where
  plan : AppPlan
  hp : HostDeployPlan
  prev : Option AppInstallV1
  generator : String
  preexisting : HostAppData

/-- The deploy of the units that an install recorded. -/
def restoreInput (prev : AppInstallV1) (generator : String) : DeployScriptInput where
  unitDir := appUnitDir prev.name
  units := prev.units
  healthUnits := .empty
  secrets := []
  services := prev.components.map fun c => c.container ++ ".service"
  prereqServices := prereqServiceNames prev.pod prev.volumes
  quadletGenerator := generator
  registry := none

/-- The removal of what a first install created. -/
def removalInput (input : RollbackInput) : RemoveScriptInput :=
  let created := dataCreatedInRun input.hp.volumes input.hp.secretNames input.preexisting
  { unitDir := input.hp.unitDir
    services := input.hp.services
    prereqServices := input.hp.prereqServices
    containers := input.plan.components.map AppComponentPlan.container
    pod := input.hp.pod
    secrets := created.2
    volumes := created.1
    purge := true }

/-- `rollbackDeploy`: the script it runs. -/
def rollbackDeploy (input : RollbackInput) : HostScript :=
  match input.prev with
  | some prev => buildDeployScript (restoreInput prev input.generator)
  | none => buildRemoveScript (removalInput input)

end Vops.Apps
