import Vops.Store.InstallMigration

/-!
# A store that is ready before it is used

* `StartsReady` — a scheduled operation that starts on an instance without a connection, or on one whose
  migration has completed.
* `Moves`, `operation_follows` — the phases of an operation.
* `early_statement` — an operation that starts while another one opens the instance.
* `ready_before_use` — where all operations start so, every statement of an operation is executed behind the
  migration.
-/

/-!
## How a store opens its database (`db` and `migrate` of `lib/store/local-store.ts`,
`agent-control/agent-store.ts` and `remote/remote-store.ts`)

* `OpeningSql` — the statements that open a database; of a table or an index only its name is kept.
* `migrate`, `db` — what the first operation on an instance does before its own statements.
* `Instance`, `Instance.exec` — an instance: whether its connection is published, and whether its migration
  has completed. Every statement may fail.
* `operation` — an operation, whatever statements it issues.
-/

namespace Vops.StoreOpening

open InstallMigration (Statement)

/-! ## Statements -/

/-- The stores. -/
inductive StoreKind
  | localStore | agentStore | remoteStore
deriving DecidableEq

/-- A statement of `db` or of `migrate`; those of the ledger's migration are their own. -/
inductive OpeningSql
  | pragma (text : String)
  | createTable (name : String)
  | createIndex (name : String)
  | batch (tables indices : List String)
  | install (o : Statement Empty)

/-- What a statement returns. -/
@[reducible] def OpeningSql.Returns : OpeningSql → Type
  | install o => o.Returns
  | _ => Unit

/-- The rows of an operation's statement. -/
abbrev Rows := List (List (String × String))

/-- What an operation waits for: the check of the field `client`, which is published where it was not, a
statement that opens the database, or one of its own. -/
inductive StoreOp
  | client
  | opening (s : OpeningSql)
  | operation (sql : String)

/-- The answers; `client` tells whether a connection was published before. -/
@[reducible] def StoreOp.Answer : StoreOp → Type
  | client => Bool
  | opening s => Except String s.Returns
  | operation _ => Except String Rows

/-! ## Programs -/

/-- A program on an instance. -/
abbrev Program (α : Type) : Type := Async StoreOp StoreOp.Answer String α

/-- A statement whose failure is thrown. -/
def execute (s : OpeningSql) : Program s.Returns := do
  let answer : Except String s.Returns ← Async.perform (StoreOp.opening s)
  match answer with
  | .ok r => pure r
  | .error e => throw e

/-- The statements of the ledger's migration, as statements of this one. -/
def installs {α : Type} : InstallMigration.Program Empty α → Program α
  | .done r => .done r
  | .await o k => .await (.opening (.install o)) fun x => installs (k x)

/-- Statements, one after the other. -/
def executeAll : List OpeningSql → Program Unit
  | [] => pure ()
  | s :: rest => do
      let _ ← execute s
      executeAll rest

/-- `METRICS_TABLES` -/
def METRICS_TABLES : List OpeningSql :=
  [.createTable "metrics_host", .createTable "metrics_sample", .createIndex "metrics_sample_ts",
    .createTable "metrics_latest"]

/-- `migrate` -/
def migrate : StoreKind → Program Unit
  | .localStore => do
      executeAll [.createTable "cache", .createTable "audit", .createTable "bench_runs",
        .createTable "app_installs"]
      installs InstallMigration.migrateInstallKey
      executeAll METRICS_TABLES
      execute (.pragma "user_version = 6")
  | .agentStore =>
      execute (.batch
        ["agent_sessions", "agent_plans", "agent_approvals", "agent_operations", "agent_events",
          "agent_settings"]
        ["idx_agent_sessions_status", "idx_agent_approvals_status", "idx_agent_operations_session",
          "idx_agent_events_session"])
  | .remoteStore =>
      execute (.batch
        ["remote_devices", "remote_pairings", "remote_device_counters", "remote_replay_messages",
          "remote_commands", "remote_command_nonces", "remote_conversations",
          "remote_conversation_messages", "remote_intents"]
        ["idx_remote_devices_status", "idx_remote_pairings_status", "idx_remote_replay_expiry",
          "idx_remote_conversations_device", "idx_remote_message_sequence",
          "idx_remote_intents_status"])

/-- `db` -/
def db (kind : StoreKind) : Program Unit := do
  if ← Async.perform StoreOp.client then return
  execute (.pragma "journal_mode = WAL")
  execute (.pragma "busy_timeout = 5000")
  migrate kind

/-- What an operation does with its connection: its own statements, whatever they are. -/
abbrev Body := Async String (fun _ => Except String Rows) String Unit

/-- A body on an instance. -/
def body : Body → Program Unit
  | .done r => .done r
  | .await sql k => .await (.operation sql) fun x => body (k x)

/-- An operation. -/
def operation (kind : StoreKind) (b : Body) : Program Unit := do
  db kind
  body b

/-! ## Instances -/

/-- The statement that completes the migration. -/
def StoreKind.completes : StoreKind → OpeningSql → Bool
  | localStore, .pragma text => text == "user_version = 6"
  | agentStore, .batch _ _ => true
  | remoteStore, .batch _ _ => true
  | _, _ => false

/-- An instance of a store: its field `client`, whether its migration has completed, and how many
statements were executed. -/
structure Instance where
  client : Bool
  migrated : Bool
  clock : ℕ
deriving DecidableEq

/-- What the database answers to a statement, by the number of those before it. -/
abbrev Answers := ℕ → (o : StoreOp) → o.Answer

/-- A step of a program on an instance. -/
def Instance.exec (kind : StoreKind) (answers : Answers) : Async.Handler StoreOp StoreOp.Answer Instance
  | .client, s => (s.client, { s with client := true })
  | .opening sql, s =>
      let answer : Except String sql.Returns := answers s.clock (.opening sql)
      (answer,
        { s with
          migrated := s.migrated || (kind.completes sql && answer.isOk)
          clock := s.clock + 1 })
  | .operation sql, s => (answers s.clock (.operation sql), { s with clock := s.clock + 1 })

/-- Operations on one instance, with a record of what was executed. -/
abbrev Operations (ι : Type) : Type :=
  Pool StoreOp StoreOp.Answer String Unit ι (Instance × List (Pool.Event StoreOp ι Instance))

/-- All of them at their start, on an instance that has no connection. -/
def start {ι : Type} (kind : StoreKind) (bodies : ι → Body) : Operations ι where
  state := (⟨false, false, 0⟩, [])
  task i := operation kind (bodies i)

/-- A statement of an operation. -/
def StoreOp.isOperation : StoreOp → Bool
  | operation _ => true
  | _ => false

end Vops.StoreOpening

namespace Vops.StoreOpening

open Async (Follows)

variable {kind : StoreKind} {ι : Type}

/-- An operation that is scheduled for the first time finds no connection, or a migrated database. -/
def StartsReady (p : Operations ι) (i : ι) : Prop :=
  (p.task i).next = some .client → p.state.1.client = true → p.state.1.migrated = true

/-! ## Phases -/

/-- Where an operation stands: before its first step, opening the instance, or with a connection. -/
inductive Phase
  | waiting | opening | ready
deriving DecidableEq

/-- The steps of an operation. -/
inductive Moves (kind : StoreKind) : Phase → (o : StoreOp) → o.Answer → Phase → Prop
  | created : Moves kind .waiting .client false .opening
  | found : Moves kind .waiting .client true .ready
  | opens {sql x} : Moves kind .opening (.opening sql) x .opening
  | migrated {sql r} (h : kind.completes sql = true) : Moves kind .opening (.opening sql) (.ok r) .ready
  | operates {sql x} : Moves kind .ready (.operation sql) x .ready

/-- The rule for a statement that opens the instance. -/
theorem follows_execute {α : Type} {Q : Except String α → Phase → Prop} {s : OpeningSql}
    {f : s.Returns → Program α} (hf : ∀ r, Follows (Moves kind) Q (f r) .opening)
    (hQ : ∀ e, Q (.error e) .opening) : Follows (Moves kind) Q (execute s >>= f) .opening := by
  intro x
  cases x with
  | ok r => exact ⟨_, .opens, hf r⟩
  | error e => exact ⟨_, .opens, hQ e⟩

/-- The statement that completes the migration. -/
theorem follows_completes {s : OpeningSql} (hs : kind.completes s = true) :
    Follows (Moves kind) (fun r φ => ∀ a, r = .ok a → φ = .ready) (execute s) .opening := by
  intro x
  cases x with
  | ok r => exact ⟨_, .migrated hs, fun _ _ => rfl⟩
  | error e => exact ⟨_, .opens, by rintro _ ⟨⟩⟩

/-- The rule for a first part of the opening. -/
theorem follows_seq {α β : Type} {Q : Except String β → Phase → Prop} {q : Program α}
    {f : α → Program β} (hq : Follows (Moves kind) (fun _ φ => φ = .opening) q .opening)
    (hf : ∀ a, Follows (Moves kind) Q (f a) .opening) (hQ : ∀ e, Q (.error e) .opening) :
    Follows (Moves kind) Q (q >>= f) .opening := by
  refine Follows.bind (hq.mono fun r φ hφ => ?_)
  subst hφ
  cases r with
  | ok a => exact hf a
  | error e => exact hQ e

theorem executeAll_follows (statements : List OpeningSql) :
    Follows (Moves kind) (fun _ φ => φ = .opening) (executeAll statements) .opening := by
  induction statements with
  | nil => rfl
  | cons s rest ih => exact follows_execute (fun _ => ih) fun _ => rfl

theorem installs_follows {α : Type} (q : InstallMigration.Program Empty α) :
    Follows (Moves kind) (fun _ φ => φ = .opening) (installs q) .opening := by
  induction q with
  | done r => rfl
  | await o k ih => exact fun x => ⟨_, .opens, ih x⟩

/-- A migration that returns has completed. -/
theorem migrate_follows (kind : StoreKind) :
    Follows (Moves kind) (fun r φ => ∀ a, r = .ok a → φ = .ready) (migrate kind) .opening := by
  have herr : ∀ e : String, ∀ a : Unit, Except.error e = .ok a → Phase.opening = .ready := by
    rintro e a ⟨⟩
  cases kind with
  | localStore =>
      refine follows_seq (executeAll_follows _) (fun _ => ?_) herr
      refine follows_seq (installs_follows _) (fun _ => ?_) herr
      exact follows_seq (executeAll_follows _) (fun _ => follows_completes rfl) herr
  | agentStore => exact follows_completes rfl
  | remoteStore => exact follows_completes rfl

theorem body_follows (b : Body) :
    Follows (Moves kind) (fun _ _ => True) (body b) .ready := by
  induction b with
  | done r => trivial
  | await sql k ih => exact fun x => ⟨_, .operates, ih x⟩

/-- An operation issues its statements with a connection that it opened or found. -/
theorem operation_follows (b : Body) :
    Follows (Moves kind) (fun _ _ => True) (operation kind b) .waiting := by
  refine Follows.bind ?_
  intro published
  cases published with
  | true => exact ⟨_, .found, body_follows b⟩
  | false =>
      refine ⟨_, .created, follows_execute (fun _ => follows_execute (fun _ => ?_) ?_) ?_⟩
      · refine (migrate_follows kind).mono fun r φ hφ => ?_
        cases r with
        | ok u =>
            cases hφ u rfl
            exact body_follows b
        | error e => trivial
      · exact fun _ => trivial
      · exact fun _ => trivial

/-! ## Along a run -/

variable {φ : ι → Phase} {s : Instance × List (Pool.Event StoreOp ι Instance)} {i : ι}

/-- Whoever has a connection has one to a migrated database, and so had every statement. -/
structure Ready (φ : ι → Phase) (s : Instance × List (Pool.Event StoreOp ι Instance)) : Prop where
  ready : ∀ i, φ i = .ready → s.1.migrated = true
  behind : ∀ e ∈ s.2, e.op.isOperation = true → e.before.migrated = true

variable [DecidableEq ι]

/-- What a step adds to the record, and whom it gives a connection. -/
theorem Ready.step {o : StoreOp} {φ' : Phase} {after : Instance} (h : Ready φ s)
    (hmono : s.1.migrated = true → after.migrated = true)
    (hφ : φ' = .ready → after.migrated = true)
    (ho : o.isOperation = true → s.1.migrated = true) :
    Ready (Function.update φ i φ') (after, s.2 ++ [⟨i, o, s.1⟩]) := by
  refine ⟨fun j hj => ?_, fun e he hop => ?_⟩
  · by_cases hji : j = i
    · rw [hji, Function.update_self] at hj
      exact hφ hj
    · rw [Function.update_of_ne hji] at hj
      exact hmono (h.ready j hj)
  · rcases List.mem_append.mp he with he | he
    · exact h.behind e he hop
    · rw [List.mem_singleton] at he
      subst he
      exact ho hop

/-- The step lemma. -/
theorem Ready.exec {answers : Answers} {o : StoreOp} {φ' : Phase} (h : Ready φ s)
    (hC : o = .client → s.1.client = true → s.1.migrated = true)
    (hT : Moves kind (φ i) o (Instance.exec kind answers o s.1).1 φ') :
    Ready (Function.update φ i φ') ((Instance.exec kind answers o s.1).2, s.2 ++ [⟨i, o, s.1⟩]) := by
  generalize hfrom : φ i = from_ at hT
  cases o with
  | client =>
      refine h.step id ?_ (by rintro ⟨⟩)
      rintro rfl
      -- only a connection that was found makes an operation ready at once
      change Moves kind from_ .client s.1.client .ready at hT
      generalize hclient : s.1.client = published at hT
      cases hT
      exact hC rfl hclient
  | opening sql =>
      refine h.step (fun hs => ?_) ?_ (by rintro ⟨⟩)
      · simp [Instance.exec, hs]
      · rintro rfl
        simp only [Instance.exec] at hT ⊢
        generalize answers s.1.clock (.opening sql) = x at hT ⊢
        cases hT with
        | migrated hcompletes => simp [hcompletes, Except.isOk, Except.toBool]
  | operation sql =>
      have hmigrated : s.1.migrated = true := by
        refine h.ready i (hfrom.trans ?_)
        generalize (Instance.exec kind answers (.operation sql) s.1).1 = x at hT
        cases hT
        rfl
      exact h.step id (fun _ => hmigrated) fun _ => hmigrated

/-- Every statement of an operation was executed behind the migration. -/
def UsedReady (s : Instance × List (Pool.Event StoreOp ι Instance)) : Prop :=
  ∀ e ∈ s.2, e.op.isOperation = true → e.before.migrated = true

/-- Of each kind of store, with any operations on one instance, any answers and failures of the database, and
along every run in which each operation starts on an instance without a connection or behind its migration:
every statement of an operation is executed behind the migration, and none where it failed. -/
theorem ready_before_use (kind : StoreKind) (bodies : ι → Body) (answers : Answers) (sched : List ι)
    (hC : Pool.Along (Pool.recorded (Instance.exec kind answers)) StartsReady sched (start kind bodies)) :
    UsedReady ((start kind bodies).runs (Pool.recorded (Instance.exec kind answers)) sched).state := by
  have hstart : Ready (fun _ => .waiting) (start kind bodies).state :=
    ⟨by simp, by simp [start]⟩
  have hfollowing : Pool.Following (fun _ => Moves kind) (fun _ _ _ => True) (start kind bodies)
      fun _ => .waiting := fun i => operation_follows (bodies i)
  obtain ⟨φ, -, hready⟩ := Pool.Following.along (fun φ p => Ready φ p.state)
    (fun φ p i o k φ' hp hC hT _ hφ => by
      rw [Pool.step_of_await hp]
      refine hφ.exec (fun ho => hC ?_) hT
      rw [hp]
      exact congrArg some ho) hC hfollowing hstart
  exact hready.behind

/-! ## Two operations -/

instance decidableUsedReady (s : Instance × List (Pool.Event StoreOp ι Instance)) :
    Decidable (UsedReady s) :=
  inferInstanceAs (Decidable (∀ e ∈ s.2, e.op.isOperation = true → e.before.migrated = true))

instance decidableStartsReady (p : Operations (Fin 2)) (i : Fin 2) : Decidable (StartsReady p i) :=
  match h : (p.task i).next with
  | some .client => decidable_of_iff (p.state.1.client = true → p.state.1.migrated = true)
      ⟨fun hC _ => hC, fun hC => hC h⟩
  | none => .isTrue fun hnext => by cases h.symm.trans hnext
  | some (.opening _) => .isTrue fun hnext => by cases h.symm.trans hnext
  | some (.operation _) => .isTrue fun hnext => by cases h.symm.trans hnext

/-- Two operations of one statement each. -/
def twoReaders (kind : StoreKind) : Operations (Fin 2) :=
  start kind fun _ => .await "SELECT record" fun _ => .done (.ok ())

/-- Every statement succeeds. -/
def succeeds : Answers
  | _, .client => false
  | _, .opening (.install .tableInfo) => .ok ["host", "name"]
  | _, .opening (.install (.countRows _)) => .ok 0
  | _, .opening (.install .dropStaging) | _, .opening (.install .createStaging)
  | _, .opening (.install .copyToStaging) | _, .opening (.install .swap)
  | _, .opening (.install (.save _)) | _, .opening (.install (.delete _ _))
  | _, .opening (.install (.stop _)) => .ok ()
  | _, .opening (.pragma _) | _, .opening (.createTable _) | _, .opening (.createIndex _)
  | _, .opening (.batch _ _) => .ok ()
  | _, .operation _ => .ok []

/-- The second operation starts when the first one has ended. -/
theorem one_by_one : UsedReady ((twoReaders .agentStore).runs
    (Pool.recorded (Instance.exec .agentStore succeeds)) [0, 0, 0, 0, 0, 1, 1]).state :=
  ready_before_use .agentStore _ succeeds _ (by decide +kernel)

/-- The second operation starts when the first one has published the connection: of each kind of store, its
statement is executed before the migration. -/
theorem early_statement :
    ¬UsedReady ((twoReaders .localStore).runs
        (Pool.recorded (Instance.exec .localStore succeeds)) [0, 1, 1]).state ∧
      ¬UsedReady ((twoReaders .agentStore).runs
        (Pool.recorded (Instance.exec .agentStore succeeds)) [0, 1, 1]).state ∧
      ¬UsedReady ((twoReaders .remoteStore).runs
        (Pool.recorded (Instance.exec .remoteStore succeeds)) [0, 1, 1]).state := by
  decide +kernel

end Vops.StoreOpening
