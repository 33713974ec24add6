import Vops.AgentControl.AgentModel

/-!
# The capability registry (`agent-control/capability-registry.ts`)

* `describe` — a capability by its id.
* `validate` — check an input against the capability's schema, as ajv does with `allErrors` and
  `useDefaults`: missing properties with a default are added first, and the completed input is
  handed on.
-/

/-!
## The published capabilities (`agent-control/capabilities.json`)

One definition for each entry of the file, in the order of the file. The entries' versions, texts
for people, categories and dry-run flags are left out: no modelled function reads them.
-/

namespace Vops

/-! ## The shape of an entry -/

/-- `CapabilityAccess` -/
inductive CapabilityAccess
  | read | local_write | remote_write | provider_write
deriving DecidableEq

/-- `ApprovalDefault` -/
inductive ApprovalDefault
  | session_grant | plan_approval | explicit_approval
deriving DecidableEq

/-- `approvalDefaults`: one default for each environment. -/
structure ApprovalDefaults where
  development : ApprovalDefault
  staging : ApprovalDefault
  production : ApprovalDefault
deriving DecidableEq

/-- `approvalDefaults[environment]` -/
def ApprovalDefaults.get (d : ApprovalDefaults) : AgentEnvironment → ApprovalDefault
  | .development => d.development
  | .staging => d.staging
  | .production => d.production

/-- A session grant everywhere. -/
def ApprovalDefaults.sessionGrant : ApprovalDefaults :=
  ⟨.session_grant, .session_grant, .session_grant⟩

/-- A session grant, in production a plan approval. -/
def ApprovalDefaults.localWrite : ApprovalDefaults :=
  ⟨.session_grant, .session_grant, .plan_approval⟩

/-- A plan approval, in production an explicit one. -/
def ApprovalDefaults.planApproval : ApprovalDefaults :=
  ⟨.plan_approval, .plan_approval, .explicit_approval⟩

/-- An explicit approval everywhere. -/
def ApprovalDefaults.explicitApproval : ApprovalDefaults :=
  ⟨.explicit_approval, .explicit_approval, .explicit_approval⟩

/-- The `type` of a property. -/
inductive SchemaType
  | string | number | integer | boolean | array
deriving DecidableEq

/-- The regular expressions of the schemas. -/
inductive InputPattern
  /-- `^[a-f0-9]{6,64}$` -/
  | planId
  /-- `^(ssh|http|https|[0-9,-]+(?:/(?:tcp|udp))?)(?:@[0-9a-fA-F:./]+)?$` -/
  | service
  /-- `^(ssh|http|https|[0-9,-]+(?:/(?:tcp|udp))?)$` -/
  | sourcelessService
deriving DecidableEq

/-- The text of a pattern. -/
def InputPattern.text : InputPattern → String
  | planId => "^[a-f0-9]\x7b6,64\x7d$"
  | service => "^(ssh|http|https|[0-9,-]+(?:/(?:tcp|udp))?)(?:@[0-9a-fA-F:./]+)?$"
  | sourcelessService => "^(ssh|http|https|[0-9,-]+(?:/(?:tcp|udp))?)$"

/-- One property of an input schema; the items of an array are texts. -/
structure PropertySchema where
  name : String
  type : SchemaType
  minLength : ℕ := 0
  enum : Option (List String) := none
  default : Option Json := none
  pattern : Option InputPattern := none
  minimum : Option ℤ := none
  maximum : Option ℤ := none
  itemMinLength : ℕ := 0
  uniqueItems : Bool := false

/-- An input schema: an object without additional properties. -/
structure InputSchema where
  properties : List PropertySchema
  required : List String

/-- `CapabilityDefinition` -/
structure CapabilityDefinition where
  id : String
  access : CapabilityAccess
  risk : CapabilityRisk
  reversible : Reversible
  enabled : Bool := true
  unavailableReason : Option String := none
  possibleEffects : List String
  hostScoped : Bool := false
  approvalDefaults : ApprovalDefaults
  inputSchema : InputSchema

/-- `{ "type": "string", "minLength": 1 }` -/
def nonEmptyText (name : String) : PropertySchema :=
  { name := name, type := .string, minLength := 1 }

/-! ## The entries -/

/-- `repository.inspect` -/
def repositoryInspect : CapabilityDefinition where
  id := "repository.inspect"
  access := .read
  risk := .read_only
  reversible := .yes
  possibleEffects := []
  approvalDefaults := .sessionGrant
  inputSchema := { properties := [nonEmptyText "repository"], required := ["repository"] }

/-- `flui_spec.read` -/
def fluiSpecRead : CapabilityDefinition where
  id := "flui_spec.read"
  access := .read
  risk := .read_only
  reversible := .yes
  possibleEffects := []
  approvalDefaults := .sessionGrant
  inputSchema :=
    { properties := [
        nonEmptyText "repository",
        { name := "file", type := .string, default := some (.str "flui.yaml") }],
      required := ["repository"] }

/-- `flui_spec.generate` -/
def fluiSpecGenerate : CapabilityDefinition where
  id := "flui_spec.generate"
  access := .local_write
  risk := .low
  reversible := .yes
  possibleEffects := ["write_repository_file"]
  approvalDefaults := .localWrite
  inputSchema :=
    { properties := [
        nonEmptyText "repository",
        nonEmptyText "template",
        nonEmptyText "name",
        { name := "outputFile", type := .string, default := some (.str "flui.yaml") },
        { name := "force", type := .boolean, default := some (.bool false) }],
      required := ["repository", "template", "name"] }

/-- `flui_spec.validate` -/
def fluiSpecValidate : CapabilityDefinition where
  id := "flui_spec.validate"
  access := .read
  risk := .read_only
  reversible := .yes
  possibleEffects := []
  approvalDefaults := .sessionGrant
  inputSchema := { properties := [nonEmptyText "file"], required := ["file"] }

/-- `catalog.list` -/
def catalogList : CapabilityDefinition where
  id := "catalog.list"
  access := .read
  risk := .read_only
  reversible := .yes
  possibleEffects := []
  approvalDefaults := .sessionGrant
  inputSchema :=
    { properties := [
        { name := "kind", type := .string, enum := some ["all", "products", "blocks"],
          default := some (.str "all") }],
      required := [] }

/-- `catalog.describe` -/
def catalogDescribe : CapabilityDefinition where
  id := "catalog.describe"
  access := .read
  risk := .read_only
  reversible := .yes
  possibleEffects := []
  approvalDefaults := .sessionGrant
  inputSchema := { properties := [nonEmptyText "id"], required := ["id"] }

/-- `catalog.install` -/
def catalogInstall : CapabilityDefinition where
  id := "catalog.install"
  access := .remote_write
  risk := .medium
  reversible := .conditional
  possibleEffects := ["upload_files", "create_or_update_containers", "create_system_service",
    "alter_application_network_bindings"]
  approvalDefaults := .planApproval
  inputSchema :=
    { properties := [
        nonEmptyText "catalog",
        nonEmptyText "host",
        nonEmptyText "name",
        { name := "public", type := .boolean, default := some (.bool false) }],
      required := ["catalog", "host"] }

/-- `provider.list` -/
def providerList : CapabilityDefinition where
  id := "provider.list"
  access := .read
  risk := .read_only
  reversible := .yes
  possibleEffects := []
  approvalDefaults := .sessionGrant
  inputSchema := { properties := [], required := [] }

/-- `provider.prices.compare` -/
def providerPricesCompare : CapabilityDefinition where
  id := "provider.prices.compare"
  access := .read
  risk := .read_only
  reversible := .yes
  possibleEffects := ["provider_api_read"]
  approvalDefaults := .sessionGrant
  inputSchema :=
    { properties := [
        { name := "providers", type := .array, itemMinLength := 0, uniqueItems := true },
        { name := "minVcpu", type := .number, minimum := some 0 },
        { name := "minMemoryGiB", type := .number, minimum := some 0 },
        { name := "refresh", type := .boolean, default := some (.bool false) }],
      required := [] }

/-- `target.list` -/
def targetList : CapabilityDefinition where
  id := "target.list"
  access := .read
  risk := .read_only
  reversible := .yes
  possibleEffects := []
  approvalDefaults := .sessionGrant
  inputSchema := { properties := [], required := [] }

/-- `target.inspect` -/
def targetInspect : CapabilityDefinition where
  id := "target.inspect"
  access := .read
  risk := .read_only
  reversible := .yes
  possibleEffects := ["ssh_read_only_probe"]
  approvalDefaults := .sessionGrant
  inputSchema := { properties := [nonEmptyText "target"], required := ["target"] }

/-- `server.list` -/
def serverList : CapabilityDefinition where
  id := "server.list"
  access := .read
  risk := .read_only
  reversible := .yes
  possibleEffects := ["provider_api_read"]
  approvalDefaults := .sessionGrant
  inputSchema := { properties := [nonEmptyText "provider"], required := ["provider"] }

/-- `server.inspect` -/
def serverInspect : CapabilityDefinition where
  id := "server.inspect"
  access := .read
  risk := .read_only
  reversible := .yes
  possibleEffects := ["provider_api_read"]
  approvalDefaults := .sessionGrant
  inputSchema :=
    { properties := [nonEmptyText "provider", nonEmptyText "id"],
      required := ["provider", "id"] }

/-- `server.harden` -/
def serverHarden : CapabilityDefinition where
  id := "server.harden"
  access := .remote_write
  risk := .high
  reversible := .conditional
  possibleEffects := ["modify_ssh_configuration", "install_ops_key", "enable_updates",
    "modify_host_firewall"]
  approvalDefaults := .explicitApproval
  inputSchema :=
    { properties := [
        nonEmptyText "target",
        nonEmptyText "user",
        { name := "steps", type := .array, itemMinLength := 1, uniqueItems := true }],
      required := ["target"] }

/-- `application.plan_deploy` -/
def applicationPlanDeploy : CapabilityDefinition where
  id := "application.plan_deploy"
  access := .local_write
  risk := .low
  reversible := .yes
  possibleEffects := ["write_local_plan"]
  approvalDefaults := .localWrite
  inputSchema :=
    { properties := [
        nonEmptyText "projectDir",
        nonEmptyText "spec",
        nonEmptyText "host",
        { name := "image", type := .string },
        { name := "name", type := .string },
        { name := "domain", type := .string },
        { name := "tls", type := .boolean },
        { name := "staging", type := .boolean },
        { name := "auth", type := .string, enum := some ["none", "basic"] },
        { name := "public", type := .boolean }],
      required := ["projectDir", "spec", "host"] }

/-- `application.deploy` -/
def applicationDeploy : CapabilityDefinition where
  id := "application.deploy"
  access := .remote_write
  risk := .medium
  reversible := .conditional
  possibleEffects := ["upload_files", "create_or_update_containers", "create_system_service",
    "restart_application", "alter_application_network_bindings"]
  approvalDefaults := .planApproval
  inputSchema :=
    { properties := [
        nonEmptyText "projectDir",
        { name := "planId", type := .string, pattern := some .planId }],
      required := ["projectDir", "planId"] }

/-- `application.status` -/
def applicationStatus : CapabilityDefinition where
  id := "application.status"
  access := .read
  risk := .read_only
  reversible := .yes
  possibleEffects := ["ssh_read_only_probe"]
  hostScoped := true
  approvalDefaults := .sessionGrant
  inputSchema :=
    { properties := [nonEmptyText "name", nonEmptyText "host"],
      required := ["name"] }

/-- `application.restart` -/
def applicationRestart : CapabilityDefinition where
  id := "application.restart"
  access := .remote_write
  risk := .medium
  reversible := .yes
  possibleEffects := ["restart_application", "temporary_downtime"]
  hostScoped := true
  approvalDefaults := .planApproval
  inputSchema :=
    { properties := [nonEmptyText "name", nonEmptyText "host"],
      required := ["name"] }

/-- `logs.read_recent` -/
def logsReadRecent : CapabilityDefinition where
  id := "logs.read_recent"
  access := .read
  risk := .read_only
  reversible := .yes
  possibleEffects := ["ssh_read_only_probe"]
  hostScoped := true
  approvalDefaults := .sessionGrant
  inputSchema :=
    { properties := [
        nonEmptyText "name",
        nonEmptyText "host",
        { name := "lines", type := .integer, default := some (.num (.fin 200)), minimum := some 1,
          maximum := some 500 }],
      required := ["name"] }

/-- `healthcheck.run` -/
def healthcheckRun : CapabilityDefinition where
  id := "healthcheck.run"
  access := .read
  risk := .read_only
  reversible := .yes
  possibleEffects := ["ssh_read_only_probe", "http_probe"]
  hostScoped := true
  approvalDefaults := .sessionGrant
  inputSchema :=
    { properties := [nonEmptyText "name", nonEmptyText "host"],
      required := ["name"] }

/-- `firewall.inspect` -/
def firewallInspect : CapabilityDefinition where
  id := "firewall.inspect"
  access := .read
  risk := .read_only
  reversible := .yes
  possibleEffects := ["ssh_read_only_probe", "provider_api_read"]
  approvalDefaults := .sessionGrant
  inputSchema := { properties := [nonEmptyText "target"], required := ["target"] }

/-- `firewall.open_port` -/
def firewallOpenPort : CapabilityDefinition where
  id := "firewall.open_port"
  access := .remote_write
  risk := .high
  reversible := .yes
  possibleEffects := ["modify_firewall", "increase_network_exposure"]
  approvalDefaults := .explicitApproval
  inputSchema :=
    { properties := [
        nonEmptyText "target",
        { name := "service", type := .string, pattern := some .service }],
      required := ["target", "service"] }

/-- `firewall.close_port` -/
def firewallClosePort : CapabilityDefinition where
  id := "firewall.close_port"
  access := .remote_write
  risk := .high
  reversible := .yes
  possibleEffects := ["modify_firewall", "reduce_network_access"]
  approvalDefaults := .explicitApproval
  inputSchema :=
    { properties := [
        nonEmptyText "target",
        { name := "service", type := .string, pattern := some .sourcelessService }],
      required := ["target", "service"] }

/-- `server.provision` -/
def serverProvision : CapabilityDefinition where
  id := "server.provision"
  access := .provider_write
  risk := .high
  reversible := .yes
  possibleEffects := ["provider_spend", "create_server", "register_host"]
  approvalDefaults := .explicitApproval
  inputSchema :=
    { properties := [nonEmptyText "provider", nonEmptyText "planFile"],
      required := ["provider", "planFile"] }

/-- `server.destroy` -/
def serverDestroy : CapabilityDefinition where
  id := "server.destroy"
  access := .provider_write
  risk := .destructive
  reversible := .no
  possibleEffects := ["terminate_server", "data_loss", "stop_billing"]
  approvalDefaults := .explicitApproval
  inputSchema :=
    { properties := [nonEmptyText "provider", nonEmptyText "id"],
      required := ["provider", "id"] }

/-- `application.rollback` -/
def applicationRollback : CapabilityDefinition where
  id := "application.rollback"
  access := .remote_write
  risk := .high
  reversible := .conditional
  enabled := false
  unavailableReason := some ("vOps currently rolls back a failed deploy internally but does not " ++
    "expose a durable previous-revision restore operation.")
  possibleEffects := ["replace_application_revision", "temporary_downtime"]
  approvalDefaults := .explicitApproval
  inputSchema := { properties := [nonEmptyText "operationId"], required := ["operationId"] }

/-- `capabilities.json`, in the order of the file. -/
def capabilities : List CapabilityDefinition :=
  [repositoryInspect, fluiSpecRead, fluiSpecGenerate, fluiSpecValidate, catalogList,
    catalogDescribe, catalogInstall, providerList, providerPricesCompare, targetList,
    targetInspect, serverList, serverInspect, serverHarden, applicationPlanDeploy,
    applicationDeploy, applicationStatus, applicationRestart, logsReadRecent, healthcheckRun,
    firewallInspect, firewallOpenPort, firewallClosePort, serverProvision, serverDestroy,
    applicationRollback]

end Vops

namespace Vops.CapabilityRegistry

/-- `byId.get(id)` -/
def find (id : String) : Option CapabilityDefinition := capabilities.find? fun c => c.id == id

/-- `describe` -/
def describe (id : String) : Except Failure CapabilityDefinition :=
  match find id with
  | some c => .ok c
  | none => .error (.thrown s!"Unknown capability '{id}'.")

/-! ## Input schemas -/

/-- An element of `CapabilityValidation.errors`. -/
structure ValidationError where
  path : String
  message : String
deriving DecidableEq

/-- `ssh`, `http`, `https` or a port specification with an optional protocol. -/
def isServiceName (cs : List Char) : Bool :=
  let isPortChar := fun c : Char => c.isDigit || c == ',' || c == '-'
  let protocol := cs.dropWhile isPortChar
  ["ssh", "http", "https"].any (fun name => name.toList == cs) ||
    (!(cs.takeWhile isPortChar).isEmpty &&
      ["", "/tcp", "/udp"].any fun name => name.toList == protocol)

/-- `pattern.test(text)` -/
def patternTest (pattern : InputPattern) (text : String) : Bool :=
  let cs := text.toList
  match pattern with
  | .planId =>
      6 ≤ cs.length && cs.length ≤ 64 && cs.all fun c => c.isDigit || ('a' ≤ c && c ≤ 'f')
  | .sourcelessService => isServiceName cs
  | .service =>
      let isSourceChar := fun c : Char => c.isDigit || ('a' ≤ c && c ≤ 'f') ||
        ('A' ≤ c && c ≤ 'F') || c == ':' || c == '.' || c == '/'
      isServiceName (cs.takeWhile (· != '@')) &&
        match cs.dropWhile (· != '@') with
        | [] => true
        | _ :: source => !source.isEmpty && source.all isSourceChar

/-- A text that is too short. -/
def minLengthErrors (path : String) (bound : ℕ) (text : String) : List ValidationError :=
  if text.length < bound then
    [⟨path, s!"must NOT have fewer than {bound} characters"⟩]
  else []

/-- The items of an array of texts. -/
def itemErrors (path : String) (bound : ℕ) : ℕ → List Json → List ValidationError
  | _, [] => []
  | i, .str s :: xs => minLengthErrors s!"{path}/{i}" bound s ++ itemErrors path bound (i + 1) xs
  | i, _ :: xs => ⟨s!"{path}/{i}", "must be string"⟩ :: itemErrors path bound (i + 1) xs

/-- The texts among the items occur once each. -/
def uniqueTexts (xs : List Json) : Bool := decide (xs.filterMap Json.str?).Nodup

/-- The value has the type of the property. -/
def hasType : SchemaType → Json → Bool
  | .string, .str _ => true
  | .number, .num (.fin _) => true
  | .integer, .num (.fin q) => q.den == 1
  | .boolean, .bool _ => true
  | .array, .arr _ => true
  | _, _ => false

/-- The text of a type. -/
def typeText : SchemaType → String
  | .string => "string"
  | .number => "number"
  | .integer => "integer"
  | .boolean => "boolean"
  | .array => "array"

/-- The errors of one property's value. -/
def valueErrors (p : PropertySchema) (v : Json) : List ValidationError :=
  let path := "/" ++ p.name
  if !hasType p.type v then [⟨path, s!"must be {typeText p.type}"⟩]
  else match v with
    | .str s =>
        minLengthErrors path p.minLength s ++
        (match p.enum with
          | some texts =>
              if s ∈ texts then [] else [⟨path, "must be equal to one of the allowed values"⟩]
          | none => []) ++
        (match p.pattern with
          | some pattern =>
              if patternTest pattern s then []
              else [⟨path, s!"must match pattern \"{pattern.text}\""⟩]
          | none => [])
    | .num (.fin q) =>
        (match p.minimum with
          | some bound => if q < bound then [⟨path, s!"must be >= {bound}"⟩] else []
          | none => []) ++
        (match p.maximum with
          | some bound => if bound < q then [⟨path, s!"must be <= {bound}"⟩] else []
          | none => [])
    | .arr xs =>
        itemErrors path p.itemMinLength 0 xs ++
        (if p.uniqueItems && !uniqueTexts xs then [⟨path, "must NOT have duplicate items"⟩] else [])
    | _ => []

/-- Add the missing properties that have a default. -/
def withDefaults (schema : InputSchema) (input : Json) : Json :=
  match input with
  | .obj fields =>
      .obj (fields ++ schema.properties.filterMap fun p =>
        if (input.get? p.name).isSome then none else p.default.map fun v => (p.name, v))
  | v => v

/-- The errors of a completed input. -/
def inputErrors (schema : InputSchema) (input : Json) : List ValidationError :=
  match input with
  | .obj fields =>
      (schema.required.filterMap fun name =>
        if (input.get? name).isSome then none
        else some ⟨s!"//{name}", s!"must have required property '{name}'"⟩) ++
      (fields.filterMap fun field =>
        if schema.properties.any fun p => p.name == field.1 then none
        else some ⟨"/", "must NOT have additional properties"⟩) ++
      (schema.properties.flatMap fun p => ((input.get? p.name).map (valueErrors p)).getD [])
  | _ => [⟨"/", "must be object"⟩]

/-- `validate`: the errors, and the input with its defaults filled in. -/
def validate (id : String) (input : Json) : List ValidationError × Json :=
  match find id with
  | none => ([⟨"/", s!"Unknown capability '{id}'."⟩], input)
  | some c =>
      if c.enabled then
        let completed := withDefaults c.inputSchema input
        (inputErrors c.inputSchema completed, completed)
      else ([⟨"/", c.unavailableReason.getD s!"{id} is unavailable."⟩], input)

/-! ## What an accepted input looks like -/

/-- A capability that is found has the id it is looked up by. -/
theorem find_id {id : String} {c : CapabilityDefinition} (h : find id = some c) : c.id = id := by
  simpa using List.find?_some h

theorem find_mem {id : String} {c : CapabilityDefinition} (h : find id = some c) :
    c ∈ capabilities := List.mem_of_find?_eq_some h

/-- `describe` answers exactly the listed capabilities. -/
theorem describe_eq_ok {id : String} {c : CapabilityDefinition} :
    describe id = .ok c ↔ find id = some c := by
  unfold describe
  cases find id <;> simp

end Vops.CapabilityRegistry
