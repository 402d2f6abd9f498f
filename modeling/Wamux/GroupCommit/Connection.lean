import Mathlib.Data.List.Basic

/-!
# The connection a batch drives

`FakeDb` keeps the writes of the open transaction apart from the committed ones and answers a
control statement the way SQLite does when it finds nothing to act on. Every write carries the job
that issued it.
-/

namespace Wamux.GroupCommit

/-- A call on the group commit. A job is named by the `begin_job` call that started it. -/
abbrev TaskId := Nat

inductive ControlStatement where
  | begin | savepoint | release | rollbackToSavepoint | commit | rollback
  deriving DecidableEq, Repr

inductive StoreError where
  | withinTransaction | noSavepoint | nothingToCommit | diskFull | nothingToRollback
  | unknownOutcome | transactionLost | droppedBeforeCommit
  deriving DecidableEq, Repr

abbrev StoreResult (α : Type) := Except StoreError α

structure Write where
  job : TaskId
  value : String
  deriving DecidableEq, Repr

structure FakeDb where
  openWrites : List Write := []
  committed : List Write := []
  savepointMark : Option Nat := none
  inTransaction : Bool := false
  /-- The transaction was opened by a SAVEPOINT, so its RELEASE commits it. -/
  implicit : Bool := false
  deriving DecidableEq, Repr

namespace FakeDb

/-- A job's own statement: inside a transaction it waits for the COMMIT. -/
def write (db : FakeDb) (w : Write) : FakeDb :=
  if db.inTransaction then { db with openWrites := db.openWrites ++ [w] }
  else { db with committed := db.committed ++ [w] }

def commitOpen (db : FakeDb) : FakeDb :=
  { openWrites := [], committed := db.committed ++ db.openWrites, savepointMark := none,
    inTransaction := false, implicit := false }

def rollbackOpen (db : FakeDb) : FakeDb :=
  { db with openWrites := [], savepointMark := none, inTransaction := false, implicit := false }

def begin (db : FakeDb) : StoreResult Unit × FakeDb :=
  if db.inTransaction then (.error .withinTransaction, db)
  else (.ok (), { db with inTransaction := true })

def savepoint (db : FakeDb) : StoreResult Unit × FakeDb :=
  let db := if db.inTransaction then db else { db with inTransaction := true, implicit := true }
  (.ok (), { db with savepointMark := some db.openWrites.length })

def release (db : FakeDb) : StoreResult Unit × FakeDb :=
  match db.savepointMark with
  | none => (.error .noSavepoint, db)
  | some _ =>
      let db := { db with savepointMark := none }
      (.ok (), if db.implicit then db.commitOpen else db)

def rollbackTo (db : FakeDb) : StoreResult Unit × FakeDb :=
  match db.savepointMark with
  | none => (.error .noSavepoint, db)
  | some mark => (.ok (), { db with openWrites := db.openWrites.take mark })

/-- `failCommit` is whether this COMMIT fails, leaving the transaction open. -/
def commit (failCommit : Bool) (db : FakeDb) : StoreResult Unit × FakeDb :=
  if !db.inTransaction then (.error .nothingToCommit, db)
  else if failCommit then (.error .diskFull, db)
  else (.ok (), db.commitOpen)

def rollback (db : FakeDb) : StoreResult Unit × FakeDb :=
  if !db.inTransaction then (.error .nothingToRollback, db)
  else (.ok (), db.rollbackOpen)

def run (failCommit : Bool) (db : FakeDb) : ControlStatement → StoreResult Unit × FakeDb
  | .begin => db.begin
  | .savepoint => db.savepoint
  | .release => db.release
  | .rollbackToSavepoint => db.rollbackTo
  | .commit => db.commit failCommit
  | .rollback => db.rollback

end FakeDb
end Wamux.GroupCommit
