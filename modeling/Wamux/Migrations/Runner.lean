import Wamux.Encryption.Cipher
import Wamux.Runs.Durable
import Wamux.Runs.Transition

/-!
# The migrations of a Turso store

The embedded migrations are applied the way sqlx does, each with its row of `_sqlx_migrations` in one transaction.
Any statement can fail, before or after it took effect, and the daemon can be stopped after any of them.
-/

namespace Wamux.Migrations
open Runs
open Encryption (Bytes)

structure Migration where
  version : Int64
  description : String
  isDownMigration : Bool
  checksum : Bytes
  sql : String
  deriving DecidableEq

structure AppliedRow where
  version : Int64
  description : String
  success : Bool
  checksum : Bytes
  executionTime : Int64
  deriving DecidableEq

structure Database (schema : Type) where
  /-- `_sqlx_migrations`, once it is created. -/
  table : Option (List AppliedRow)
  schema : schema
  deriving DecidableEq

def Database.rows {schema : Type} (db : Database schema) : List AppliedRow := db.table.getD []

inductive TursoMigrationError where
  | dirty (version : Int64)
  | checksumMismatch (version : Int64)
  | versionMissing (version : Int64)
  | script (version : Int64) (description : String)
  | bookkeeping
  deriving DecidableEq

inductive Op where
  | lock | createTable | selectFailed | selectApplied
  | begin (version : Int64) | script (version : Int64) | insert (version : Int64) | commit (version : Int64)
  | executionTime (version : Int64)
  deriving DecidableEq

inductive Outcome where
  | done
  | failed
  /-- The statement took effect and is answered with an error. -/
  | failedAfter
  deriving DecidableEq

structure Env where
  outcome : Op → Outcome
  elapsed : Int64 → Int64

section Runner
variable {schema : Type} (execute : String → schema → Option schema) (env : Env)

abbrev Run (schema : Type) := Durable (Database schema) TursoMigrationError

/-- A statement that commits by itself, or `COMMIT`. -/
def statement (op : Op) (effect : Database schema → Database schema) : Run schema Unit := do
  let db ← Durable.store
  match env.outcome op with
  | .done => Durable.commit (effect db)
  | .failed => Durable.fail .bookkeeping
  | .failedAfter => do
      Durable.commit (effect db)
      Durable.fail .bookkeeping

/-- A statement that leaves nothing behind by itself. -/
def attempt (op : Op) : Run schema Unit :=
  if env.outcome op = .done then pure () else Durable.fail .bookkeeping

/-- `SELECT_FAILED` has `ORDER BY version LIMIT 1`. -/
def rejectFailedRow : Run schema Unit := do
  attempt env .selectFailed
  let db ← Durable.store
  match (db.rows.filter fun row => !row.success).minOn? (·.version) with
  | some row => Durable.fail (.dirty row.version)
  | none => pure ()

def appliedChecksums : Run schema (List (Int64 × Bytes)) := do
  attempt env .selectApplied
  let db ← Durable.store
  return db.rows.map fun row => (row.version, row.checksum)

def checkKnown (embedded : List Migration) (applied : List (Int64 × Bytes)) : Except TursoMigrationError Unit :=
  match applied.find? fun entry => !embedded.any (·.version = entry.1) with
  | some entry => .error (.versionMissing entry.1)
  | none => .ok ()

def checkChecksum (migration : Migration) (recorded : Bytes) : Except TursoMigrationError Unit :=
  if migration.checksum = recorded then .ok () else .error (.checksumMismatch migration.version)

/-- The script is `execute_batch`; `version` is the primary key of the row. -/
def runScriptAndRecord (migration : Migration) (db : Database schema) : Except TursoMigrationError (Database schema) :=
  match execute migration.sql db.schema with
  | some schema =>
      if env.outcome (.script migration.version) ≠ .done then .error (.script migration.version migration.description)
      else if env.outcome (.insert migration.version) ≠ .done ∨ db.rows.any (·.version = migration.version) then .error .bookkeeping
      else .ok
        { table := some (db.rows ++ [⟨migration.version, migration.description, true, migration.checksum, -1⟩])
          schema }
  | none => .error (.script migration.version migration.description)

def updateExecutionTime (version nanos : Int64) (db : Database schema) : Database schema :=
  { db with table := db.table.map (List.map fun row =>
      if row.version = version then { row with executionTime := nanos } else row) }

/-- Whatever fails before `COMMIT` is rolled back. -/
def applyOne (migration : Migration) : Run schema Unit := do
  attempt env (.begin migration.version)
  let db ← Durable.store
  let db' ← Durable.ofExcept (runScriptAndRecord execute env migration db)
  statement env (.commit migration.version) fun _ => db'
  statement env (.executionTime migration.version) (updateExecutionTime migration.version (env.elapsed migration.version))

def applyUnlessApplied (applied : List (Int64 × Bytes)) (migration : Migration) : Run schema Unit :=
  if migration.isDownMigration then pure ()
  else match applied.lookup migration.version with
    | some checksum => Durable.ofExcept (checkChecksum migration checksum)
    | none => applyOne execute env migration

def applyEach (applied : List (Int64 × Bytes)) : List Migration → Run schema Unit
  | [] => pure ()
  | migration :: rest => do
      applyUnlessApplied execute env applied migration
      applyEach applied rest

def applyPending (embedded : List Migration) : Run schema Unit := do
  attempt env .lock
  statement env .createTable fun db => { db with table := some db.rows }
  rejectFailedRow env
  let applied ← appliedChecksums env
  Durable.ofExcept (checkKnown embedded applied)
  applyEach execute env applied embedded

/-! ## A store that is opened again and again -/

structure Open where
  embedded : List Migration
  env : Env
  stop : Option Nat

def Open.leaves (opens : Open) (db : Database schema) : Database schema :=
  let ran := applyPending execute opens.env opens.embedded
  match opens.stop with
  | some n => ran.stopped n db
  | none => ran.final db

def machine (initial : schema) : Machine (Database schema) Open :=
  ⟨⟨none, initial⟩, fun db opens => some (opens.leaves execute db)⟩

end Runner
end Wamux.Migrations
