import Wamux.Runs.Awaiting
import Wamux.GroupCommit.Connection

/-!
# The batch and the code that runs under its lock

Each `Locked` program is the part of an async function of the group commit that holds the mutex,
from the moment the lock is granted. An await in it is a control statement on the connection; the
count of pending writers is loaded from the queue, which other tasks change.
-/

namespace Wamux.GroupCommit
open Runs Runs.Async

abbrev BatchAnswer := StoreResult Unit

structure OpenBatch where
  jobs : Nat := 0
  waiters : List TaskId := []
  deriving DecidableEq, Repr

/-- History of the jobs on the connection, kept by the model only: which job the last `begin_job`
started, the job whose savepoint holds its writes, the jobs released by `finish` into the open
transaction, the jobs whose writes were committed, and every sender given to a batch. -/
structure Ledger where
  starting : TaskId := 0
  running : Option TaskId := none
  held : List TaskId := []
  durable : List TaskId := []
  senders : List TaskId := []
  deriving DecidableEq, Repr

/-- What a statement that succeeded does to the jobs. A RELEASE after a ROLLBACK TO finds no
running job: the rollback undid it. -/
def Ledger.record (ledger : Ledger) (implicit : Bool) : ControlStatement → Ledger
  | .begin => ledger
  | .savepoint => { ledger with running := some ledger.starting }
  | .release =>
      let released := ledger.held ++ ledger.running.toList
      if implicit then
        { ledger with running := none, held := [], durable := ledger.durable ++ released }
      else { ledger with running := none, held := released }
  | .rollbackToSavepoint => { ledger with running := none }
  | .commit =>
      { ledger with running := none, held := [],
                    durable := ledger.durable ++ ledger.held ++ ledger.running.toList }
  | .rollback => { ledger with running := none, held := [] }

/-- What the lock protects, with the answers sent on each job's oneshot channel and the counters
that only a holder of the lock changes. -/
structure BatchState where
  conn : FakeDb := {}
  openBatch : Option OpenBatch := none
  jobOpen : Bool := false
  inFlight : Option ControlStatement := none
  answers : TaskId → List BatchAnswer := fun _ => []
  commits : Nat := 0
  jobs : Nat := 0
  ledger : Ledger := {}

def serve (statement : ControlStatement) (failCommit : Bool) (s : BatchState) :
    StoreResult Unit × BatchState :=
  match s.conn.run failCommit statement with
  | (.ok (), conn) =>
      (.ok (), { s with conn := conn, ledger := s.ledger.record s.conn.implicit statement })
  | (.error e, conn) => (.error e, { s with conn := conn })

abbrev Locked (α : Type) := Async BatchState ControlStatement (StoreResult Unit) Nat α

def pendingWriters : Locked Nat := observe

def runControl (statement : ControlStatement) : Locked (StoreResult Unit) := do
  modify fun s => { s with inFlight := some statement }
  let outcome ← perform statement
  modify fun s => { s with inFlight := none }
  return outcome

def answerWaiters (batch : OpenBatch) (answer : BatchAnswer) (s : BatchState) : BatchState :=
  { s with answers := fun t => s.answers t ++ List.replicate (batch.waiters.count t) answer }

def batchAnswer : Option BatchAnswer → StoreResult Unit
  | some (.ok ()) => .ok ()
  | some (.error message) => .error message
  | none => .error .droppedBeforeCommit

def rollbackJob : Locked (StoreResult Unit) := do
  match ← runControl .rollbackToSavepoint with
  | .error e => return .error e
  | .ok () =>
    match ← runControl .release with
    | .error e => return .error e
    | .ok () =>
      modify fun s => { s with jobOpen := false }
      return .ok ()

def discardBatch (message : StoreError) : Locked Unit := do
  let _ ← runControl .rollback
  match (← read).openBatch with
  | some batch => modify fun s => answerWaiters batch (.error message) { s with openBatch := none }
  | none => pure ()
  modify fun s => { s with jobOpen := false }

def discardTransaction : Locked Unit := discardBatch .unknownOutcome

def discardAfterLostSavepoint : Locked Unit := discardBatch .transactionLost

/-- `false` when the batch was discarded. -/
def rollbackJobOrDiscard : Locked Bool := do
  match ← rollbackJob with
  | .ok () => return true
  | .error _ =>
    discardAfterLostSavepoint
    return false

def settleAbandoned : Locked (StoreResult Unit) := do
  if !(← read).jobOpen then return .ok ()
  let _ ← rollbackJobOrDiscard
  return .ok ()

def beginBatch : Locked (StoreResult Unit) := do
  match ← runControl .begin with
  | .error e => return .error e
  | .ok () =>
    modify fun s => { s with openBatch := some {} }
    return .ok ()

def startJob : Locked (StoreResult Unit) := do
  match ← settleAbandoned with
  | .error e => return .error e
  | .ok () =>
    match ← (do if (← read).openBatch.isNone then beginBatch else return .ok ()) with
    | .error e => return .error e
    | .ok () =>
      match ← runControl .savepoint with
      | .error e => return .error e
      | .ok () =>
        modify fun s => { s with jobOpen := true }
        return .ok ()

def endJob : Locked (StoreResult Nat) := do
  match ← runControl .release with
  | .error e =>
    -- A savepoint that cannot be released must not reach the COMMIT.
    let _ ← rollbackJobOrDiscard
    return .error e
  | .ok () =>
    modify fun s => { s with jobOpen := false }
    let batch := (← read).openBatch.getD {}
    modify fun s => { s with openBatch := some { batch with jobs := batch.jobs + 1 } }
    return .ok (batch.jobs + 1)

def commitBatch : Locked (StoreResult Nat) := do
  if (← read).openBatch.isNone then return .ok 0
  let committed ← runControl .commit
  match committed with
  | .ok () => pure ()
  | .error _ => let _ ← runControl .rollback
  let batch := (← read).openBatch.getD {}
  modify fun s => answerWaiters batch committed { s with openBatch := none }
  return committed.map fun _ => batch.jobs

def countCommit (jobs : Nat) : Locked Unit :=
  modify fun s => if jobs > 0 then { s with commits := s.commits + 1, jobs := s.jobs + jobs } else s

def closeBatch : Locked (StoreResult Unit) := do
  match ← commitBatch with
  | .error e => return .error e
  | .ok jobs =>
    countCommit jobs
    return .ok ()

def settleUnknownCommit : Locked Unit := do
  if (← read).openBatch.isNone then
    modify fun s => { s with inFlight := none }
  else
    match ← runControl .commit with
    | .ok () =>
      let batch := (← read).openBatch.getD {}
      countCommit batch.jobs
      modify fun s => answerWaiters batch (.ok ()) { s with openBatch := none }
    | .error _ => discardTransaction

/-- "No such savepoint" is read as a RELEASE that ran: the job then stays in the batch. -/
def undoSavepoint : Locked Unit := do
  let _ ← rollbackJob
  modify fun s => { s with jobOpen := false }

def reconcile : Locked Unit := do
  match (← read).inFlight with
  | none => return ()
  | some .begin => discardTransaction
  | some .rollback => discardTransaction
  | some .commit => settleUnknownCommit
  | some .savepoint => undoSavepoint
  | some .release => undoSavepoint
  | some .rollbackToSavepoint => undoSavepoint

inductive Outcome where
  | started (result : StoreResult Unit)
  | finished (result : StoreResult Unit)
  | waits
  | failed
  | guard (result : StoreResult Unit)
  | rechecked (result : Option (StoreResult Unit))
  deriving DecidableEq, Repr

def beginJobBody : Locked Outcome := do
  reconcile
  return .started (← startJob)

def lockBody : Locked Outcome := do
  reconcile
  let _ ← settleAbandoned
  if (← pendingWriters) == 0 then
    let _ ← closeBatch
  return .guard (.ok ())

def lockAutocommitBody : Locked Outcome := do
  reconcile
  match ← settleAbandoned with
  | .error e => return .guard (.error e)
  | .ok () => return .guard (← closeBatch)

/-- What a oneshot receiver finds: its sender is alive only inside the open batch. -/
inductive Received where
  | empty | value (answer : BatchAnswer) | closed
  deriving DecidableEq, Repr

def BatchState.tryRecv (s : BatchState) (t : TaskId) : Received :=
  match s.answers t with
  | answer :: _ => .value answer
  | [] => if t ∈ (s.openBatch.getD {}).waiters then .empty else .closed

/-- `commit_if_drained`, once its waiter has the lock. -/
def commitIfDrainedBody (t : TaskId) : Locked Outcome := do
  reconcile
  if (← pendingWriters) == 0 then
    let _ ← settleAbandoned
    let _ ← closeBatch
  match (← read).tryRecv t with
  | .empty => return .rechecked none
  | .value answer => return .rechecked (some (batchAnswer (some answer)))
  | .closed => return .rechecked (some (batchAnswer none))

def finishBody (cap : Nat) (t : TaskId) : Locked Outcome := do
  match ← endJob with
  | .error e => return .finished (.error e)
  | .ok jobs =>
    let others := (← pendingWriters) - 1
    if others == 0 || jobs >= cap then
      return .finished (← closeBatch)
    modify fun s =>
      { s with openBatch := s.openBatch.map fun batch => { batch with waiters := batch.waiters ++ [t] },
               ledger := { s.ledger with senders := s.ledger.senders ++ [t] } }
    return .waits

def failBody : Locked Outcome := do
  if !(← rollbackJobOrDiscard) then return .failed
  if (← pendingWriters) - 1 == 0 then
    let _ ← closeBatch
  return .failed

end Wamux.GroupCommit
