import Vops.Apps.SpecNormalize

/-!
# From an application manifest to a plan (`apps/application-normalize.ts`)

* `splitEnv` — the variables, and the warnings about those that are not injected.
* `normalizeApplication` — the plan of one component.

The limits come already converted; the warnings about the other blocks are given.
-/

namespace Vops.Apps

open AuthorizedKeys (trim)

/-- `COMPONENT` -/
def COMPONENT : String := "app"

/-- `NO_IMAGE` -/
def NO_IMAGE : String :=
  "An Application manifest is built from your repository, so it carries no image. " ++
    "Pass --image <ref>, or build it first with `vops build run`."

/-- `ApplicationEnvValueFrom` -/
structure ApplicationEnvValueFrom where
  service : Bool
  generate : Option (Option ℕ × Option SecretFormat)
  secretRef : Bool
  userInput : Option UserInputPrompt

/-- `ApplicationEnvEntry`, under its key. -/
structure ApplicationEnvEntry where
  key : String
  value : Option String
  valueFrom : Option ApplicationEnvValueFrom
  secret : Bool
  buildOnly : Bool

/-- `manifest.deploy`, with its limits converted. -/
structure ApplicationDeploy where
  env : List ApplicationEnvEntry
  port : ℤ
  internalOnly : Bool
  volumes : List CatalogVolume
  cpu : Option String
  memory : Option String
  healthcheck : Option (String × Option ℤ)
  startCommand : Option String

/-- `userInputEnv` -/
def userInputEnv (name : String) (entry : ApplicationEnvEntry) (ui : UserInputPrompt) :
    AppSecretPlan ⊕ AppEnvPlain :=
  if ui.sensitive then .inl ⟨name, entry.key, none, some ""⟩
  else .inr ⟨entry.key, (ui.default.orElse fun _ => entry.value).getD ""⟩

/-- What a declared origin of a value places, if it places anything. -/
def placeValueFrom (name : String) (entry : ApplicationEnvEntry) (vf : ApplicationEnvValueFrom) :
    Option (AppSecretPlan ⊕ AppEnvPlain) :=
  match vf.generate with
  | some (length, format) =>
      some (.inl ⟨name, entry.key, some (length.getD 32, format.getD .base64url), none⟩)
  | none =>
      if vf.secretRef then some (.inl ⟨name, entry.key, none, some ""⟩)
      else vf.userInput.map (userInputEnv name entry)

/-- `placeEnv`: what is placed, and the warnings. -/
def placeApplicationEnv (app : String) (entry : ApplicationEnvEntry) :
    Except String (Option (AppSecretPlan ⊕ AppEnvPlain) × List String) := do
  let name ← secretName app COMPONENT entry.key
  let key := entry.key
  if entry.buildOnly then
    return (none,
      [s!"env {key} is delivery: build — it belongs in build.args and is not injected at runtime."])
  else if (entry.valueFrom.map ApplicationEnvValueFrom.service).getD false then
    .error (s!"env {key} references another Flui service (valueFrom.service) — vops deploys one app " ++
      "per manifest. Point it at a concrete URL, or install the dependency as a building block and " ++
      "reference its host.")
  else
    match entry.valueFrom.bind (placeValueFrom name entry) with
    | some placed => return (some placed, [])
    | none =>
        if entry.secret then return (some (.inl ⟨name, key, none, some (entry.value.getD "")⟩), [])
        else
          match entry.value with
          | some value => return (some (.inr ⟨key, value⟩), [])
          | none =>
              return (none, [s!"env {key} declares neither value nor valueFrom — it will not be injected."])

/-- `normalizeApplication`; `blocks` are the warnings about blocks that a single host cannot honour. -/
def normalizeApplication (appId : String) (deploy : ApplicationDeploy) (image : String)
    (installName : Option String) (limits blocks : List String) : Except String AppPlan := do
  let name ← sanitize (installName.getD appId)
  if trim image.toList = [] then .error NO_IMAGE
  else
    let placed ← deploy.env.mapM (placeApplicationEnv name)
    let volumes ← deploy.volumes.mapM (toVolume name COMPONENT)
    let env := (placed.filterMap Prod.fst).filterMap Sum.getRight?
    return {
      name := name
      pod := none
      components := [{
        name := COMPONENT
        container := containerName name COMPONENT
        image := String.ofList (trim image.toList)
        env := env
        secrets := (placed.filterMap Prod.fst).filterMap Sum.getLeft?
        ports := [⟨deploy.port, !deploy.internalOnly, .http⟩]
        volumes := volumes
        cpu := deploy.cpu
        memory := deploy.memory
        health := deploy.healthcheck.map fun h => {
          type := .http
          path := some h.1
          port := some (h.2.getD deploy.port)
          command := none
          httpHeaders := []
          initialDelay := none
          interval := none
          timeout := none
          retries := none }
        dependsOn := []
        command := (truthyText deploy.startCommand).map fun c => ["sh", "-c", c] }]
      primary := COMPONENT
      needsAppDomain := env.any fun e => hasDomainToken e.value
      warnings := placed.flatMap Prod.snd ++ blocks ++ limits }

end Vops.Apps
