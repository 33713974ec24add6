import Vops.Apps.AppPlan

/-!
# The install ledger of a host (`apps/vops-apps.service.ts`, `apps/app-deploy-support.ts`)

The rows of one host, found by the name of the app.

* `toInstall`, `portReservations` — what a deploy records, and what it finds recorded.
* `LedgerStep`, `runLedger` — deploys and removals, one after the other.
-/

namespace Vops.Apps

/-- The rows of a host. -/
abbrev Ledger := List AppInstallV1

/-- `toInstall` -/
def toInstall (plan : AppPlan) (hp : HostDeployPlan) : AppInstallV1 where
  name := plan.name
  pod := hp.pod
  primary := plan.primary
  components := plan.components.map fun c =>
    ⟨c.name, c.container, c.image, (hp.ports.get? c.name).getD []⟩
  units := hp.units
  secrets := hp.secrets.map AppSecretPlan.name
  volumes := plan.components.flatMap fun c => c.volumes.map AppVolumePlan.volume
  endpoints := hp.endpoints
  status := .deployed

/-- `store.getInstall` -/
def getInstall (ledger : Ledger) (name : String) : Option AppInstallV1 :=
  Table.get AppInstallV1.name name ledger

/-- `portReservations` -/
def portReservations (ledger : Ledger) (appName : String) : PortReservations where
  own := Record.ofEntries (((getInstall ledger appName).map AppInstallV1.components).getD [] |>.map
    fun c => (c.name, c.published))
  others := (ledger.filter fun i => i.name != appName && i.status != .removed).flatMap fun i =>
    i.endpoints.map AppEndpoint.port

/-- A deploy, with what it is given, or a removal. -/
inductive LedgerStep
  | deploy (plan : AppPlan) (facts : HostFacts) (hostAddress : String)
      (ingress : Option IngressBinding) (publish : PublishIntent)
  | remove (name : String)

/-- What a step leaves in the ledger: a deploy that cannot be planned leaves it as it is. -/
def LedgerStep.run (ledger : Ledger) : LedgerStep → Ledger
  | deploy plan facts hostAddress ingress publish =>
      match planHostDeploy plan facts hostAddress ingress publish
        (some (portReservations ledger plan.name)) with
      | .ok (plan, hp) => Table.upsert AppInstallV1.name (toInstall plan hp) ledger
      | .error _ => ledger
  | remove name => ledger.filter fun i => i.name != name

/-- The ledger after some steps, where nothing was recorded before. -/
def runLedger (steps : List LedgerStep) : Ledger := steps.foldl LedgerStep.run []

/-- The host ports a row records: those of its endpoints and those of its components. -/
def AppInstallV1.hostPorts (i : AppInstallV1) : List ℤ :=
  i.endpoints.map AppEndpoint.port ++
    i.components.flatMap fun c => c.published.map PublishedPort.host

end Vops.Apps
