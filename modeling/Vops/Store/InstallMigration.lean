import Vops.Lib.Async
import Vops.Lib.Interleave
import Vops.Lib.Table

/-!
# The migration of the install ledger (`lib/store/install-migration.ts`)

The ledger is a table of the database file that all processes share; the migration copies it into a
staging table of a fixed name and swaps the two.

* `InstallRow`, `InstallsTable` — the rows, and a table with its primary key.
* `Statement`, `Db.execute` — the statements, each of them atomic, and a process that is stopped.
* `migrateInstallKey`, `saveInstall`, `deleteInstall` — the programs.
* `Tracked` — the database, and the records that were put into it and not deleted.
* `Call`, `Ledger.start` — processes at work on one database, any number of them.
-/

namespace Vops.InstallMigration

/-! ## Tables -/

/-- A row of `app_installs`. -/
structure InstallRow where
  host : String
  name : String
  appId : String
  status : String
  updatedAt : String
  record : String
deriving DecidableEq

/-- The columns of a primary key. -/
inductive PrimaryKey
  | name | hostName
deriving DecidableEq

/-- `PRAGMA table_info`: the columns with a `pk`, in its order. -/
def PrimaryKey.columns : PrimaryKey → List String
  | name => ["name"]
  | hostName => ["host", "name"]

/-- The key of a row. -/
def PrimaryKey.of (key : PrimaryKey) (row : InstallRow) : List String :=
  match key with
  | name => [row.name]
  | hostName => [row.host, row.name]

/-- A table of installs, no two rows having one key. -/
structure InstallsTable (key : PrimaryKey) where
  rows : List InstallRow
  keyed : Table.Keyed key.of rows

namespace InstallsTable

variable {key : PrimaryKey}

/-- `createInstallsTable` -/
def create : InstallsTable .hostName := ⟨[], List.nodup_nil⟩

/-- `INSERT OR REPLACE` -/
def insertOrReplace (t : InstallsTable key) (row : InstallRow) : InstallsTable key :=
  ⟨Table.upsert key.of row t.rows, t.keyed.upsert⟩

/-- `DELETE … WHERE host = ? AND name = ?` -/
def delete (t : InstallsTable key) (host name : String) : InstallsTable key :=
  ⟨t.rows.filter fun r => !(r.host == host && r.name == name),
    t.keyed.sublist (List.filter_sublist.map _)⟩

/-- `INSERT INTO … SELECT … FROM`: nothing is inserted if a key is there already. -/
def insertFrom (t : InstallsTable key) (rows : List InstallRow) : Option (InstallsTable key) :=
  if h : ((t.rows ++ rows).map key.of).Nodup then some ⟨t.rows ++ rows, h⟩ else none

end InstallsTable

/-! ## Statements -/

/-- `app_installs`, and the staging table. -/
inductive TableName
  | appInstalls | staging
deriving DecidableEq

variable {ι : Type}

/-- A statement; `stop` is none, but what stops a process. -/
inductive Statement (ι : Type)
  | tableInfo
  | countRows (table : TableName)
  | dropStaging
  | createStaging
  | copyToStaging
  | swap
  | save (row : InstallRow)
  | delete (host name : String)
  | stop (process : ι)

/-- What a statement returns. -/
@[reducible] def Statement.Returns : Statement ι → Type
  | tableInfo => List String
  | countRows _ => ℕ
  | _ => Unit

/-- A statement returns something or fails. -/
abbrev Answer (o : Statement ι) : Type := Except String o.Returns

/-- The database file, and the processes that were stopped. -/
structure Db (ι : Type) where
  key : PrimaryKey
  appInstalls : InstallsTable key
  staging : Option (InstallsTable .hostName)
  stopped : List ι

/-- A statement on the database. -/
def Db.execute (db : Db ι) : (o : Statement ι) → Answer o × Db ι
  | .tableInfo => (.ok db.key.columns, db)
  | .countRows .appInstalls => (.ok db.appInstalls.rows.length, db)
  | .countRows .staging =>
      match db.staging with
      | some t => (.ok t.rows.length, db)
      | none => (.error "no such table: app_installs_v5", db)
  | .dropStaging => (.ok (), { db with staging := none })
  | .createStaging => (.ok (), { db with staging := some (db.staging.getD .create) })
  | .copyToStaging =>
      match db.staging with
      | some t =>
          match t.insertFrom db.appInstalls.rows with
          | some t => (.ok (), { db with staging := some t })
          | none => (.error "UNIQUE constraint failed", db)
      | none => (.error "no such table: app_installs_v5", db)
  | .swap =>
      -- one transaction: without a staging table the drop is rolled back
      match db.staging with
      | some t => (.ok (), ⟨.hostName, t, none, db.stopped⟩)
      | none => (.error "no such table: app_installs_v5", db)
  | .save row => (.ok (), { db with appInstalls := db.appInstalls.insertOrReplace row })
  | .delete host name => (.ok (), { db with appInstalls := db.appInstalls.delete host name })
  | .stop process => (.ok (), { db with stopped := process :: db.stopped })

/-! ## Programs -/

/-- A program of statements. -/
abbrev Program (ι α : Type) : Type := Async (Statement ι) Answer String α

/-- A statement whose failure is thrown. -/
def execute (o : Statement ι) : Program ι o.Returns := do
  match ← Async.perform o with
  | .ok r => pure r
  | .error e => throw e

/-- `isKeyedByHostAndName` -/
def isKeyedByHostAndName : Program ι Bool := do
  let key ← execute .tableInfo
  return key == ["host", "name"]

/-- `countRows` -/
def countRows (table : TableName) : Program ι ℕ := execute (.countRows table)

/-- `migrateInstallKey` -/
def migrateInstallKey : Program ι Unit := do
  if ← isKeyedByHostAndName then return
  let before ← countRows .appInstalls
  execute .dropStaging
  execute .createStaging
  execute .copyToStaging
  let copied ← countRows .staging
  if copied ≠ before then
    execute .dropStaging
    throw (s!"app_installs migration copied {copied} of {before} install records — " ++
      "the original table is untouched.")
  execute .swap

/-- `saveInstall` -/
def saveInstall (row : InstallRow) : Program ι Unit := execute (.save row)

/-- `deleteInstall` -/
def deleteInstall (host name : String) : Program ι Unit := execute (.delete host name)

/-! ## Runs -/

/-- What a process does. -/
inductive Call (ι : Type)
  | migrateInstallKey
  | saveInstall (row : InstallRow)
  | deleteInstall (host name : String)
  | stop (process : ι)

/-- Its program. -/
def Call.program : Call ι → Program ι Unit
  | migrateInstallKey => InstallMigration.migrateInstallKey
  | saveInstall row => InstallMigration.saveInstall row
  | deleteInstall host name => InstallMigration.deleteInstall host name
  | stop process => execute (.stop process)

/-- The database, and the records that were there at first or were saved, and were not deleted. -/
structure Tracked (ι : Type) where
  db : Db ι
  owed : List InstallRow

/-- What a statement that succeeded does to the records that are owed. -/
def owedAfter (owed : List InstallRow) : Statement ι → List InstallRow
  | .save row => Table.upsert PrimaryKey.hostName.of row owed
  | .delete host name => owed.filter fun r => !(r.host == host && r.name == name)
  | _ => owed

/-- A statement, with the records that are owed behind it. -/
def Tracked.execute (s : Tracked ι) (o : Statement ι) : Tracked ι :=
  ⟨(s.db.execute o).2, owedAfter s.owed o⟩

/-- A statement of a process: none of one that was stopped. -/
def Tracked.exec [DecidableEq ι] (process : ι) : Async.Handler (Statement ι) Answer (Tracked ι) :=
  fun o s =>
    if process ∈ s.db.stopped then (.error "stopped", s) else ((s.db.execute o).1, s.execute o)

/-- Processes at work on one database. -/
abbrev Processes (ι : Type) : Type := Pool (Statement ι) Answer String Unit ι (Tracked ι)

/-- All of them at their start, on a table keyed by name; a staging table may be left from before. -/
def start (rows : List InstallRow) (h : Table.Keyed PrimaryKey.name.of rows)
    (staging : Option (InstallsTable .hostName)) (calls : ι → Call ι) : Processes ι where
  state := ⟨⟨.name, ⟨rows, h⟩, staging, []⟩, rows⟩
  task i := (calls i).program

/-- A program that has ended without an error. -/
def completed : Program ι Unit → Bool
  | .done (.ok ()) => true
  | _ => false

/-- The migration of a process has completed. -/
def Migrated (calls : ι → Call ι) (p : Processes ι) (i : ι) : Prop :=
  calls i = .migrateInstallKey ∧ completed (p.task i) = true

end Vops.InstallMigration
