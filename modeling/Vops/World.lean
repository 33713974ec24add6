import Vops.Lib.Async
import Vops.Lib.PosixPath
import Vops.Lib.Table
import Vops.AgentControl.AuditEvent

/-!
# The operations of the program and the world they act on

Every method of the modelled services is a program over the operations `Op`: the reads and writes of
the agent store (`agent-control/agent-store.ts`), the clock, random identifiers, files, and the calls
of services whose insides are not modelled. Between two operations other programs may run.

* `Op`, `Res` — the operations and the type of their answers.
* `World` — the tables of the store, the files, the provider's catalog and the servers created.
* `Env` — what the world answers from outside: clock readings, service outcomes, digests. All of it
  is arbitrary; answers of services are drawn from it one after the other.
* `handle` — what an operation answers and changes.
* `storedSession`, `storedPlan`, … — a record as `JSON.parse(safeJson(record))` gives it back: the
  store writes a record redacted, so this is what is read.

Two operations only mark a call for the properties that speak of it: `execute`
(`CoreActionExecutor.execute`) and `serversCreate` (`VopsServersService.create`).
-/

namespace Vops

/-! ## What the services exchange -/

/-- `CloudProvider` -/
inductive CloudProvider
  | hetzner | scaleway | contabo | ovh | cherry
deriving DecidableEq

/-- The text of a provider. -/
def CloudProvider.text : CloudProvider → String
  | .hetzner => "hetzner"
  | .scaleway => "scaleway"
  | .contabo => "contabo"
  | .ovh => "ovh"
  | .cherry => "cherry"

/-- A price of a plan at a location. -/
structure NodePrice where
  location : String
  hourlyNet : Option String
  monthlyNet : Option String
deriving DecidableEq

/-- `NodeSizeDto` -/
structure NodeSizeDto where
  id : String
  name : String
  supportsHourlyBilling : Bool
  bareMetal : Bool
  prices : List NodePrice
deriving DecidableEq

/-- `CreateServerConfig`; what came from a plan file is as the file has it, `none` is `undefined`. -/
structure CreateServerConfig where
  provider : CloudProvider
  name : Option Json
  server_type : Option Json
  image : Option Json
  location : Option Json
  ssh_keys : Option Json
  user_data : Option String

/-- A server that was created, with the live catalog's entry for it. -/
structure CreatedServer where
  config : CreateServerConfig
  node : NodeSizeDto

/-- The answer of `createServer`. -/
structure ServerResult where
  serverId : String
  ipAddress : Option String
  status : String
deriving DecidableEq

/-- What a provider makes of `createServer`: it creates the server and answers, it creates the server
and the answer is lost, or it does not create it. -/
inductive CreateOutcome
  | created (result : ServerResult)
  | createdUnanswered (failure : Failure)
  | refused (failure : Failure)

/-- `FirewallService` -/
structure FirewallService where
  id : String
  label : String
  protocol : String
  port : String
  enabled : Bool
  sources : List String
deriving DecidableEq

/-- `AppSource` -/
structure AppSource where
  catalog : Option String := none
  file : Option String := none
  image : Option Json := none

/-- The options of `VopsAppsService.deploy`; values from a plan file are as the file has them. -/
structure DeployOptions where
  name : Option Json := none
  isPublic : Option Json := none
  set : Option Json := none
  ingress : Option Json := none
  dryRun : Bool

/-- A call of a service whose insides are not modelled. The host of a deployment may come from a plan
file and is as the file has it; `none` is `undefined`. -/
inductive ServiceCall
  | appsDeploy (source : AppSource) (host : Option Json) (options : DeployOptions)
  | appsStatus (name : String) (host : Option String)
  | appsRestart (name : String) (host : Option String)
  | appsLogs (name : String) (lines : JsNum) (host : Option String)
  | harden (target : String) (user : Option String) (steps : Option (List String))
  | firewallSet (target : String) (services : List FirewallService)
  | hostStatus (target : String)
  | hostsShow (target : String)
  | hostsList
  | providersList
  | serversList (provider : String)
  | serversShow (provider id : String)
  | serversDelete (provider id : String)
  | specValidate (file : String)
  | specGenerate (template name outputFile : String) (force : Bool)
  | listCatalog (kind : Option String)
  | describeCatalog (id : String)
  | catalogCompare (cpu ramGb : Option JsNum) (refresh : Bool)
  | inspectRepository (path : String)
  | readSpec (file : String)
  | verifyDeployment (status : Json)
  | ensureVaultUnlocked
  | appendAudit (action : String) (detail : Json)
  | updateProject (projectDir spec : String)

/-- The host names a call hands to a service that acts on hosts. A host that is not a text names no
host. -/
def ServiceCall.hosts : ServiceCall → List String
  | appsDeploy _ host _ => (host.bind Json.str?).toList
  | appsStatus _ host => host.toList
  | appsRestart _ host => host.toList
  | appsLogs _ _ host => host.toList
  | harden target _ _ => [target]
  | firewallSet target _ => [target]
  | hostStatus target => [target]
  | _ => []

/-- The content of a file: JSON, or a text that does not parse. -/
inductive FileText
  | json (v : Json)
  | raw (text : String)

/-- A call of `CoreActionExecutor.execute`: the step and its context. -/
structure Dispatch where
  step : AgentPlanStep
  session : AgentSession
  plan : AgentPlan
  operationId : ℕ

/-! ## Operations -/

/-- The operations a program waits for. -/
inductive Op
  | now
  | localId
  | digest (v : Json)
  | digestFile (text : FileText)
  | digestText (text : String)
  | getSession (id : ℕ)
  | getSessionByTokenHash (tokenHash : TokenHash)
  | listSessions
  | saveSession (session : AgentSession) (tokenHash : Option TokenHash)
  | getPlan (id : ℕ)
  | savePlan (plan : AgentPlan)
  | getApproval (id : ℕ)
  | listApprovals (status : Option ApprovalStatus)
  | saveApproval (approval : AgentApproval)
  | getOperation (id : ℕ)
  | saveOperation (operation : AgentOperation)
  | lastEventHash
  | insertEvent (event : AgentAuditEvent)
  | listEvents
  | emergencyStop
  | execute (dispatch : Dispatch)
  | realpath (path : String)
  | isDirectory (path : String)
  | readFile (path : String)
  | writeFile (path : String) (text : FileText)
  | service (call : ServiceCall)
  | firewallGet (target : String)
  | planSecrets (id : Option Json)
  | redactSet (view : Json) (set : List (String × String))
  | serversCreate (plan : Json)
  | nodeSizes (provider : CloudProvider)
  | billingCycle (provider : CloudProvider)
  | renderCloudInit (hostFirewall : Json)
  | createServer (config : CreateServerConfig) (node : NodeSizeDto)

/-- The answer of an operation. -/
abbrev Res : Op → Type
  | .now => ℤ
  | .localId => ℕ
  | .digest _ => String
  | .digestFile _ => String
  | .digestText _ => String
  | .getSession _ => Option AgentSession
  | .getSessionByTokenHash _ => Option AgentSession
  | .listSessions => List AgentSession
  | .saveSession _ _ => Unit
  | .getPlan _ => Option AgentPlan
  | .savePlan _ => Unit
  | .getApproval _ => Option AgentApproval
  | .listApprovals _ => List AgentApproval
  | .saveApproval _ => Unit
  | .getOperation _ => Option AgentOperation
  | .saveOperation _ => Unit
  | .lastEventHash => Option String
  | .insertEvent _ => Unit
  | .listEvents => List EventRecord
  | .emergencyStop => Bool
  | .execute _ => Unit
  | .realpath _ => Except Failure String
  | .isDirectory _ => Bool
  | .readFile _ => Option FileText
  | .writeFile _ _ => Unit
  | .service _ => Except Failure Json
  | .firewallGet _ => Except Failure (List FirewallService)
  | .planSecrets _ => Option (List (String × String))
  | .redactSet _ _ => Except Failure Json
  | .serversCreate _ => Unit
  | .nodeSizes _ => Except Failure (List NodeSizeDto)
  | .billingCycle _ => String
  | .renderCloudInit _ => Except Failure String
  | .createServer _ _ => Except Failure ServerResult

/-- A program of the control plane. -/
abbrev Prog (α : Type) := Async Op Res Failure α

/-- Wait for one operation. -/
abbrev perform (o : Op) : Prog (Res o) := Async.perform o

/-- Throw an `AgentControlError`. -/
def throwControl {α : Type} (error : AgentControlError) : Prog α := throw (.control error)

/-- Throw any other error. -/
def throwMessage {α : Type} (message : String) : Prog α := throw (.thrown message)

/-- Go on with a result, or throw its error. -/
def liftExcept {α : Type} : Except Failure α → Prog α
  | .ok a => pure a
  | .error e => throw e

@[simp] theorem liftExcept_eq {α : Type} (r : Except Failure α) : liftExcept r = .done r := by
  cases r <;> rfl

/-- A service call; an error of the service is thrown on. -/
def call (c : ServiceCall) : Prog Json := do
  liftExcept (← perform (.service c))

/-! ## Stored records -/

/-- What is read back of a session that was saved. -/
def storedSession (s : AgentSession) : AgentSession where
  id := s.id
  actor := ⟨s.actor.client, s.actor.clientVersion.map redactText, redactText s.actor.displayName⟩
  objective := redactText s.objective
  mode := s.mode
  status := s.status
  repository := ⟨redactText s.repository.path, redactText s.repository.name⟩
  scope := ⟨s.scope.projects.map redactText, s.scope.targets.map redactText, s.scope.environments⟩
  permissions :=
    { allow := s.permissions.allow.map redactText
      allowWithinApprovedPlan := s.permissions.allowWithinApprovedPlan.map redactText
      requireApproval := s.permissions.requireApproval.map redactText
      deny := s.permissions.deny.map redactText }
  limits := ⟨s.limits.expiresAt, s.limits.maxOperations.bind JsNum.toJson,
    s.limits.maxProviderSpendEur.bind JsNum.toJson⟩
  operationCount := s.operationCount
  providerSpendEur := s.providerSpendEur.bind JsNum.toJson
  createdAt := s.createdAt

/-- What is read back of a plan step. -/
def storedStep (step : AgentPlanStep) : AgentPlanStep :=
  ⟨redactText step.id, redactText step.capability, storedJson step.input, step.risk⟩

/-- What is read back of a plan that was saved. -/
def storedPlan (p : AgentPlan) : AgentPlan where
  id := p.id
  hash := redactText p.hash
  sessionId := p.sessionId
  objective := redactText p.objective
  status := p.status
  environment := p.environment
  target := p.target.map redactText
  steps := p.steps.map storedStep
  successCriteria := p.successCriteria.map redactText
  estimatedEffects := p.estimatedEffects.map redactText
  excludedEffects := p.excludedEffects.map redactText
  rollback := ⟨p.rollback.available, p.rollback.limitations.map redactText⟩

/-- What is read back of an approval that was saved. -/
def storedApproval (a : AgentApproval) : AgentApproval :=
  { a with
    capability := a.capability.map redactText
    reason := redactText a.reason
    target := a.target.map redactText
    expectedEffects := a.expectedEffects.map redactText
    decisionReason := a.decisionReason.map redactText }

/-- What is read back of an operation that was saved. -/
def storedOperation (o : AgentOperation) : AgentOperation :=
  { o with
    capability := o.capability.map redactText
    currentStep := o.currentStep.map redactText
    result := o.result.map fun results => results.map fun r =>
      ⟨redactText r.step, redactText r.capability, storedJson r.output⟩
    verification := o.verification.map fun v => ⟨v.status, v.checks.map fun c =>
      ⟨redactText c.capability, redactText c.step, redactText c.status, c.failed.map redactText⟩⟩
    error := o.error.map fun e => ⟨e.code, redactText e.message, e.recoverable⟩ }

/-! ## The world -/

/-- A row of `agent_sessions`. -/
structure SessionRow where
  tokenHash : Option TokenHash
  record : AgentSession

/-- A row of `agent_approvals`; `requestedAt` is set when the row is inserted, in seconds. -/
structure ApprovalRow where
  requestedAt : ℤ
  record : AgentApproval

/-- A row of `agent_events`. -/
structure EventRow where
  hash : String
  record : EventRecord

/-- The identifier of a session row. -/
def SessionRow.id (r : SessionRow) : ℕ := r.record.id

/-- The identifier of an approval row. -/
def ApprovalRow.id (r : ApprovalRow) : ℕ := r.record.id

/-- What is outside the program and answers arbitrarily. -/
structure Env where
  /-- The successive readings of the clock. -/
  clock : ℕ → ℤ
  /-- The text of a finite number. -/
  numText : ℚ → String
  /-- `a.localeCompare(b) <= 0` -/
  localeLe : String → String → Bool
  /-- `sha256` of a text, in hexadecimal digits. -/
  sha256 : String → String
  /-- `sha256` of a file's bytes. -/
  digestFile : FileText → String
  realpath : ℕ → String → Except Failure String
  isDirectory : ℕ → String → Bool
  service : ℕ → ServiceCall → Except Failure Json
  /-- What a service writes into the file it was told to write. -/
  generated : ℕ → FileText
  firewall : ℕ → String → Except Failure (List FirewallService)
  planSecrets : ℕ → Option Json → Option (List (String × String))
  /-- `redactSet`, by which only the input of a digest is made. -/
  redactSet : Json → List (String × String) → Except Failure Json
  billingCycle : CloudProvider → String
  renderCloudInit : Json → Except Failure String
  createServer : ℕ → CreateServerConfig → CreateOutcome

/-- `sha256(stableStringify(v))` -/
def Env.digest (env : Env) (v : Json) : String :=
  env.sha256 (stableStringify env.numText env.localeLe v)

/-- The state the operations act on. -/
structure World where
  sessions : List SessionRow
  plans : List AgentPlan
  approvals : List ApprovalRow
  operations : List AgentOperation
  events : List EventRow
  emergencyStop : Bool
  files : String → Option FileText
  catalog : CloudProvider → Except Failure (List NodeSizeDto)
  created : List CreatedServer
  /-- The next fresh identifier. -/
  nextId : ℕ
  /-- How many answers were drawn from outside. -/
  answers : ℕ

namespace World

/-- The stored record of a session. -/
def session (w : World) (id : ℕ) : Option AgentSession :=
  (Table.get SessionRow.id id w.sessions).map SessionRow.record

/-- The stored record of a plan. -/
def plan (w : World) (id : ℕ) : Option AgentPlan := Table.get AgentPlan.id id w.plans

/-- The stored record of an approval. -/
def approval (w : World) (id : ℕ) : Option AgentApproval :=
  (Table.get ApprovalRow.id id w.approvals).map ApprovalRow.record

/-- The stored record of an operation. -/
def operation (w : World) (id : ℕ) : Option AgentOperation :=
  Table.get AgentOperation.id id w.operations

/-- `SELECT record FROM agent_sessions WHERE token_hash = ?` -/
def sessionByTokenHash (w : World) (tokenHash : TokenHash) : Option AgentSession :=
  (w.sessions.find? fun r => decide (r.tokenHash = some tokenHash)).map SessionRow.record

/-- `ORDER BY … createdAt DESC` -/
def sessionsNewestFirst (w : World) : List AgentSession :=
  (w.sessions.map SessionRow.record).mergeSort fun a b => decide (b.createdAt ≤ a.createdAt)

/-- `ORDER BY requested_at DESC`, with an optional `WHERE status = ?`. -/
def approvalsNewestFirst (w : World) (status : Option ApprovalStatus) : List AgentApproval :=
  ((w.approvals.filter fun r => status.all fun s => decide (r.record.status = s)).mergeSort
    fun a b => decide (b.requestedAt ≤ a.requestedAt)).map ApprovalRow.record

/-- `COALESCE(excluded.token_hash, agent_sessions.token_hash)` -/
def tokenHashFor (w : World) (id : ℕ) (tokenHash : Option TokenHash) : Option TokenHash :=
  tokenHash.or ((Table.get SessionRow.id id w.sessions).bind SessionRow.tokenHash)

/-- `INSERT … ON CONFLICT(id) DO UPDATE` -/
def saveSession (w : World) (s : AgentSession) (tokenHash : Option TokenHash) : World :=
  { w with
    sessions := Table.upsert SessionRow.id ⟨w.tokenHashFor s.id tokenHash, storedSession s⟩
      w.sessions }

/-- Upsert of a plan. -/
def savePlan (w : World) (p : AgentPlan) : World :=
  { w with plans := Table.upsert AgentPlan.id (storedPlan p) w.plans }

/-- `requested_at`: of the row that is there, or the current second. -/
def requestedAtFor (w : World) (now : ℤ) (id : ℕ) : ℤ :=
  ((Table.get ApprovalRow.id id w.approvals).map ApprovalRow.requestedAt).getD (now / 1000)

/-- Upsert of an approval; the time of the request stays that of the insertion. -/
def saveApproval (w : World) (now : ℤ) (a : AgentApproval) : World :=
  { w with
    approvals := Table.upsert ApprovalRow.id ⟨w.requestedAtFor now a.id, storedApproval a⟩
      w.approvals }

/-- Upsert of an operation. -/
def saveOperation (w : World) (o : AgentOperation) : World :=
  { w with operations := Table.upsert AgentOperation.id (storedOperation o) w.operations }

/-- A file gets a new content. -/
def writeFile (w : World) (path : String) (text : FileText) : World :=
  { w with files := Function.update w.files path (some text) }

/-- One more answer was drawn from outside. -/
def drawn (w : World) : World := { w with answers := w.answers + 1 }

end World

/-- Nothing is stored, and no provider has a catalog. -/
def World.empty : World where
  sessions := []
  plans := []
  approvals := []
  operations := []
  events := []
  emergencyStop := false
  files := fun _ => none
  catalog := fun _ => .error (.thrown "no catalog")
  created := []
  nextId := 0
  answers := 0

/-- A store that holds the sample session, whose token is `7`. -/
def sampleWorld : World :=
  { World.empty with sessions := [⟨some ⟨7⟩, sampleSession⟩], nextId := 8 }

/-- An environment to evaluate runs in: the clock stands still, every service answers `null` and the
provider creates every server it is asked for. -/
def Env.sample : Env where
  clock := fun _ => 0
  numText := fun q => toString q
  localeLe := fun a b => decide (a ≤ b)
  sha256 := fun _ => "sha256"
  digestFile := fun _ => "sha256"
  realpath := fun _ path => .ok path
  isDirectory := fun _ _ => true
  service := fun _ _ => .ok .null
  generated := fun _ => .raw ""
  firewall := fun _ _ => .ok []
  planSecrets := fun _ _ => none
  redactSet := fun view _ => .ok view
  billingCycle := fun _ => "hourly"
  renderCloudInit := fun _ => .ok ""
  createServer := fun _ _ => .created ⟨"srv-1", none, "running"⟩

/-- The file a service writes when it succeeds, if it writes one. -/
def ServiceCall.writes : ServiceCall → Option String
  | specGenerate _ _ outputFile _ => some outputFile
  | updateProject projectDir _ => some (PosixPath.join projectDir [".vops", "project.json"])
  | _ => none

/-- What a service call does to the world. -/
def serviceEffect (env : Env) (w : World) (call : ServiceCall) : World :=
  match call.writes with
  | some path => w.writeFile path (env.generated w.answers)
  | none => w

/-- What a provider's `createServer` answers and does. -/
def createServerEffect (w : World) (config : CreateServerConfig) (node : NodeSizeDto) :
    CreateOutcome → Except Failure ServerResult × World
  | .created result => (.ok result, { w with created := w.created ++ [⟨config, node⟩] })
  | .createdUnanswered failure => (.error failure, { w with created := w.created ++ [⟨config, node⟩] })
  | .refused failure => (.error failure, w)

/-- What an operation answers, and the world it leaves. -/
def handle (env : Env) : Async.Handler Op Res World
  | .now, w => (env.clock w.answers, w.drawn)
  | .localId, w => (w.nextId, { w with nextId := w.nextId + 1 })
  | .digest v, w => (env.digest v, w)
  | .digestFile text, w => (env.digestFile text, w)
  | .digestText text, w => (env.sha256 text, w)
  | .getSession id, w => (w.session id, w)
  | .getSessionByTokenHash tokenHash, w => (w.sessionByTokenHash tokenHash, w)
  | .listSessions, w => (w.sessionsNewestFirst, w)
  | .saveSession s tokenHash, w => ((), w.saveSession s tokenHash)
  | .getPlan id, w => (w.plan id, w)
  | .savePlan p, w => ((), w.savePlan p)
  | .getApproval id, w => (w.approval id, w)
  | .listApprovals status, w => (w.approvalsNewestFirst status, w)
  | .saveApproval a, w => ((), (w.saveApproval (env.clock w.answers) a).drawn)
  | .getOperation id, w => (w.operation id, w)
  | .saveOperation o, w => ((), w.saveOperation o)
  | .lastEventHash, w => (w.events.getLast?.map EventRow.hash, w)
  | .insertEvent e, w => ((), { w with events := w.events ++ [⟨e.hash, eventRecord e⟩] })
  | .listEvents, w => (w.events.map EventRow.record, w)
  | .emergencyStop, w => (w.emergencyStop, w)
  | .execute _, w => ((), w)
  | .realpath path, w => (env.realpath w.answers path, w.drawn)
  | .isDirectory path, w => (env.isDirectory w.answers path, w.drawn)
  | .readFile path, w => (w.files path, w)
  | .writeFile path text, w => ((), w.writeFile path text)
  | .service call, w => (env.service w.answers call, (serviceEffect env w call).drawn)
  | .firewallGet target, w => (env.firewall w.answers target, w.drawn)
  | .planSecrets id, w => (env.planSecrets w.answers id, w.drawn)
  | .redactSet view set, w => (env.redactSet view set, w)
  | .serversCreate _, w => ((), w)
  | .nodeSizes provider, w => (w.catalog provider, w)
  | .billingCycle provider, w => (env.billingCycle provider, w)
  | .renderCloudInit fw, w => (env.renderCloudInit fw, w)
  | .createServer config node, w =>
      let (answer, w') := createServerEffect w config node (env.createServer w.answers config)
      (answer, w'.drawn)

end Vops
