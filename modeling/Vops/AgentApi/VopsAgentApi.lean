import Vops.Servers.VopsServers

/-!
# Deployment plans (`agent-api/vops-agent-api.service.ts`, `agent-api/plan-store.ts`)

* `plan` — render a deployment and store it under the hash of its inputs and of what was rendered.
* `apply` — load a stored plan, re-derive it from its own inputs, compare, deploy.
* `verify` — the health of an application.

A stored plan is a file of the repository, so it is any JSON, read field by field. The file's
`createdAt` and `vopsVersion` are left out: nothing here reads them.
-/

namespace Vops.VopsAgentApi

open VopsServers

/-! ## Paths and files -/

/-- `projectPath` -/
def projectPath (dir : String) (names : List String) : String :=
  PosixPath.join dir (".vops" :: names)

/-- `specPath`; a specification that is not a text throws. -/
def specPath (dir : String) : Option Json → Except Failure String
  | some (.str spec) => .ok (if PosixPath.isAbsolute spec then spec else PosixPath.join dir [spec])
  | _ => .error (.thrown "The \"path\" argument must be of type string.")

/-- `/^[a-f0-9]{6,64}$/` -/
def isPlanId (id : String) : Bool :=
  let cs := id.toList
  6 ≤ cs.length && cs.length ≤ 64 && cs.all fun c => c.isDigit || ('a' ≤ c && c ≤ 'f')

/-- `planFile` -/
def planFile (dir id : String) : Except Failure String :=
  if isPlanId id then .ok (projectPath dir ["plans", id ++ ".json"])
  else .error (.thrown s!"Invalid plan id '{id}'.")

/-- `hashFile` -/
def hashFile (path : String) : Prog String := do
  match ← perform (.readFile path) with
  | none => throwMessage s!"ENOENT: no such file or directory, open '{path}'"
  | some text => perform (.digestFile text)

/-- `loadPlan`; `none` when there is no such file. -/
def loadPlan (dir id : String) : Prog (Option Json) := do
  let path ← liftExcept (planFile dir id)
  match ← perform (.readFile path) with
  | none => return none
  | some (.raw _) => throwMessage "Unexpected token in JSON"
  | some (.json v) => return some v

/-! ## Requests -/

/-- `PlanRequest`: the inputs of a plan, as they are, with the project directory and the values. -/
structure PlanRequest where
  projectDir : String
  inputs : Json
  set : Option Json

/-- A property of the request. -/
def PlanRequest.get (req : PlanRequest) (key : String) : Option Json := req.inputs.get? key

/-- `source` -/
def source (req : PlanRequest) : Except Failure AppSource := do
  let file ← specPath req.projectDir (req.get "spec")
  let image := req.get "image"
  return { file := some file, image := if Json.truthyOf image then image else none }

/-- `deployOptions` -/
def deployOptions (req : PlanRequest) (dryRun : Bool) : DeployOptions :=
  let whenTruthy := fun (key : String) => (req.get key).filter Json.truthy
  { name := whenTruthy "name"
    isPublic := req.get "public"
    set := req.set.filter Json.truthy
    ingress := (whenTruthy "domain").map fun domain =>
      .obj ([("domain", domain), ("tls", (orElse (req.get "tls") none).getD (.bool true)),
          ("staging", (orElse (req.get "staging") none).getD (.bool false))] ++
        ((whenTruthy "auth").map fun auth => ("auth", Json.obj [("mode", auth)])).toList)
    dryRun := dryRun }

/-- `this.apps.deploy(this.source(req), req.host, …)` -/
def deploy (req : PlanRequest) (dryRun : Bool) : Prog Json := do
  let app ← liftExcept (source req)
  call (.appsDeploy app (req.get "host") (deployOptions req dryRun))

/-- `hashInputs` -/
def hashInputs (inputs view : Json) : Prog String :=
  perform (.digest (.obj [("inputs", inputs), ("plan", view)]))

/-- `planId` -/
def planId (hash : String) : String := String.ofList (hash.toList.take 12)

/-! ## `plan` -/

/-- `plan`; the executor passes no values, so nothing is put into the vault. -/
def plan (projectDir : String) (inputs : List (String × Json)) : Prog Json := do
  let specFile ← liftExcept (specPath projectDir ((Json.obj inputs).get? "spec"))
  let specHash ← hashFile specFile
  let inputs := Json.obj (inputs ++ [("specHash", .str specHash)])
  let view ← deploy ⟨projectDir, inputs, none⟩ true
  let hash ← hashInputs inputs view
  let id := planId hash
  let file ← liftExcept (planFile projectDir id)
  perform (.writeFile file (.json (Json.obj [("schemaVersion", .num 2), ("id", .str id),
    ("hash", .str hash), ("inputs", inputs), ("plan", view)]).reparse))
  let _ ← call (.updateProject projectDir (Json.textOf (inputs.get? "spec")))
  return .obj [("id", .str id), ("hash", .str hash), ("file", .str file), ("plan", view)]

/-! ## `apply` -/

/-- `stalePlan` -/
def stalePlan {α : Type} (id why : String) : Prog α :=
  throwMessage s!"Plan {id} no longer matches reality: {why}"

/-- `Object.entries(value)`, for a value that is neither `null` nor `undefined`. -/
def objectEntries : Json → List (String × Json)
  | .obj fields => fields
  | .arr xs => xs.zipIdx.map fun (x, i) => (toString i, x)
  | .str s => s.toList.zipIdx.map fun (c, i) => (toString i, .str (String.singleton c))
  | _ => []

/-- `setDigests` of the values, as they hash one after the other. -/
def setDigests : List (String × String) → Prog (List (String × String))
  | [] => return []
  | (key, value) :: set => do
      let digest ← perform (.digestText value)
      let rest ← setDigests set
      return (key, digest) :: rest

/-- `digestsMatch` -/
def digestsMatch (digests : Json) (expected : List (String × String)) : Bool :=
  let entries := objectEntries digests
  entries.length == expected.length &&
    entries.all fun (key, digest) =>
      match expected.find? fun e => e.1 == key with
      | some (_, value) => digest.str? == some value
      | none => false

/-- `setValues` -/
def setValues (stored : Json) (digests : Option Json) : Prog (Option (List (String × String))) :=
  match digests with
  | some digests =>
      if digests.truthy then do
        let _ ← call .ensureVaultUnlocked
        let name := Json.textOf (stored.get? "id")
        match ← perform (.planSecrets (stored.get? "id")) with
        | none =>
            stalePlan name ("its --set values are no longer in the vault — re-run `deploy plan` " ++
              "with the same flags.")
        | some set => do
            let expected ← setDigests set
            if digestsMatch digests expected then return some set
            else
              stalePlan name
                "the stored --set values no longer match the ones that were approved."
      else return none
  | none => return none

/-- `redactSet`; without values it changes nothing. -/
def redactSet (view : Json) (set : Option (List (String × String))) : Prog Json :=
  match set with
  | some (value :: values) => do
      let redacted ← perform (.redactSet view (value :: values))
      liftExcept redacted
  | _ => return view

/-- `{ ...stored.inputs, projectDir, ...(set ? { set } : {}) }` -/
def storedRequest (projectDir : String) (inputs : Json) (set : Option (List (String × String))) :
    PlanRequest :=
  ⟨projectDir, inputs,
    (set.map fun values => .obj (values.map fun v => (v.1, .str v.2))).or (inputs.get? "set")⟩

/-- The specification has to be the one the plan was made from. -/
def checkSpec (projectDir id : String) (inputs : Json) : Prog Unit := do
  let specFile ← liftExcept (specPath projectDir (inputs.get? "spec"))
  let specHash ← hashFile specFile
  if (inputs.get? "specHash").bind Json.str? ≠ some specHash then
    let spec := Json.textOf (inputs.get? "spec")
    stalePlan id s!"{spec} changed after the plan was approved."
  else return ()

/-- Render the deployment again, compare it with the plan, deploy. -/
def deployStored (id : String) (stored inputs : Json) (req : PlanRequest)
    (set : Option (List (String × String))) : Prog Json := do
  let view ← redactSet (← deploy req true) set
  let hash ← hashInputs inputs view
  if (stored.get? "hash").bind Json.str? ≠ some hash then
    stalePlan id "the host no longer produces the plan that was approved."
  else deploy req false

/-- `apply`, once the stored plan has been checked for its shape. -/
def applyStored (projectDir id : String) (stored inputs : Json) : Prog Json := do
  let set ← setValues stored (inputs.get? "setDigest")
  checkSpec projectDir id inputs
  deployStored id stored inputs (storedRequest projectDir inputs set) set

/-- `apply`, once the file of the plan has been read. -/
def applyLoaded (projectDir id : String) (stored : Json) : Prog Json := do
  let inputs := stored.get? "inputs"
  let _ ← liftExcept (prop inputs "host")
  let version := stored.get? "schemaVersion"
  if version.bind Json.num? = some 2 then applyStored projectDir id stored (inputs.getD .null)
  else
    let text := Json.textOf version
    stalePlan id (s!"it was written by an older vops (schema {text}), which kept --set " ++
      "values in the file.")

/-- `apply`, approved, as the executor calls it. -/
def apply (projectDir id : String) : Prog Json := do
  let loaded ← loadPlan projectDir id
  match loaded.filter Json.truthy with
  | none =>
      let dir := PosixPath.join projectDir [".vops", "plans"]
      throwMessage s!"No plan '{id}' under {dir}."
  | some stored => applyLoaded projectDir id stored

/-! ## `verify` -/

/-- `verify` -/
def verify (app : String) (host : Option String) : Prog Json := do
  let status ← call (.appsStatus app host)
  call (.verifyDeployment status)

end Vops.VopsAgentApi
