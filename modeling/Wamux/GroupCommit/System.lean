import Mathlib.Logic.Function.Basic
import Wamux.Runs.Transition
import Wamux.GroupCommit.Batch

/-!
# The group commit and its callers

Each task is one call on the group commit: a writer (`begin_job`, its job, then `finish` or `fail`)
or a `lock` or `lock_autocommit`. Tasks share the lock, which is a FIFO mutex, the count of pending
writers and the `drained` notification. A step of a task runs from one access to a shared object to
the next, so tasks interleave at every lock request, lock release, load of the count, drop of a
slot and control statement. Nothing is awaited inside `PendingSlot::drop`: it is one step.
-/

namespace Wamux.GroupCommit
open Runs Runs.Async

inductive Method where
  | beginJob | lock | lockAutocommit | commitIfDrained | finish | fail
  deriving DecidableEq, Repr

/-- What a future drops when it goes: its mutex guard and its `PendingSlot`. -/
inductive Owned where
  | guard | slot
  deriving DecidableEq, Repr

inductive Ending where
  | finished (result : StoreResult Unit)
  | failed
  /-- `begin_job` or `lock_autocommit` returned an error. -/
  | refused (error : StoreError)
  /-- A `ConnGuard` was dropped. -/
  | released
  /-- A `JobGuard` was dropped with neither `finish` nor `fail` polled. -/
  | abandoned
  /-- The future was dropped inside the method; `commitIfDrained` is a `finish` that was waiting. -/
  | dropped (method : Method)
  deriving DecidableEq, Repr

inductive After where
  | wait | park | ended (ending : Ending)
  deriving DecidableEq, Repr

inductive Phase where
  | idle
  | requesting (method : Method)
  /-- In the queue of the mutex, or just granted. -/
  | locking (method : Method)
  | running (method : Method) (code : Locked Outcome)
  /-- A `JobGuard` is live; the flag says the engine rolled the transaction back under it. -/
  | jobHeld (aborted : Bool)
  | connHeld (method : Method)
  /-- At the top of the loop of `wait_for_commit`. -/
  | registering
  /-- Registered with `drained`, about to load the count. -/
  | checking
  /-- In the `select!` of `wait_for_commit`. -/
  | parked
  | leaving (drops : List Owned) (next : After)
  | ended (ending : Ending)

def After.phase : After → Phase
  | wait => .registering
  | park => .parked
  | ended ending => .ended ending

structure Sys where
  batch : BatchState := {}
  pending : Nat := 0
  /-- A `notify_waiters` was called since the task registered. -/
  drained : TaskId → Bool := fun _ => false
  holder : Option TaskId := none
  queue : List TaskId := []
  phase : TaskId → Phase := fun _ => .idle
  /-- The jobs in the order they took the lock, and what each one wrote. -/
  taken : List TaskId := []
  written : TaskId → List String := fun _ => []

inductive Event where
  | call (t : TaskId) (method : Method)
  /-- The next step of a task; `choice` makes a COMMIT fail and picks the branch of `select!`. -/
  | poll (t : TaskId) (choice : Bool)
  | write (t : TaskId) (value : String)
  /-- The engine rolls the transaction back during a statement of the job. -/
  | autoRollback (t : TaskId)
  | finish (t : TaskId)
  | fail (t : TaskId)
  /-- The future, or the guard, is dropped; `ran` says whether the statement in flight ran. -/
  | drop (t : TaskId) (ran : Bool)
  deriving DecidableEq, Repr

namespace Sys

def setPhase (s : Sys) (t : TaskId) (phase : Phase) : Sys :=
  { s with phase := Function.update s.phase t phase }

def request (s : Sys) (t : TaskId) (method : Method) : Sys :=
  match s.holder with
  | none => { s with holder := some t }.setPhase t (.locking method)
  | some _ => { s with queue := s.queue ++ [t] }.setPhase t (.locking method)

def unlock (s : Sys) : Sys :=
  match s.queue with
  | [] => { s with holder := none }
  | next :: rest => { s with holder := some next, queue := rest }

/-- `Queue::enter`. -/
def enter (s : Sys) : Sys := { s with pending := s.pending + 1 }

def dropSlot (s : Sys) : Sys :=
  { s with pending := s.pending - 1,
           drained := if s.pending = 1 then fun _ => true else s.drained }

end Sys

def after (method : Method) : Outcome → Phase
  | .started (.ok ()) => .jobHeld false
  | .started (.error e) => .leaving [.guard, .slot] (.ended (.refused e))
  | .finished result => .leaving [.slot, .guard] (.ended (.finished result))
  | .waits => .leaving [.slot, .guard] .wait
  | .failed => .leaving [.slot, .guard] (.ended .failed)
  | .guard (.ok ()) => .connHeld method
  | .guard (.error e) => .leaving [.guard] (.ended (.refused e))
  | .rechecked (some result) => .leaving [.guard] (.ended (.finished result))
  | .rechecked none => .leaving [.guard] .park

/-- What the future of a method drops, in order, when it is dropped while it holds the lock. -/
def glue : Method → List Owned
  | .beginJob => [.guard, .slot]
  | .finish | .fail => [.slot, .guard]
  | .lock | .lockAutocommit | .commitIfDrained => [.guard]

def body (cap : Nat) (t : TaskId) : Method → Locked Outcome
  | .beginJob => beginJobBody
  | .lock => lockBody
  | .lockAutocommit => lockAutocommitBody
  | .commitIfDrained => commitIfDrainedBody t
  | .finish => finishBody (max cap 1) t
  | .fail => failBody

def codePhase (method : Method) : Locked Outcome → Phase
  | .done outcome => after method outcome
  | code => .running method code

def Sys.resume (s : Sys) (t : TaskId) (method : Method) (code : Locked Outcome)
    (batch : BatchState) : Sys :=
  { s with batch := (code.advance batch).1 }.setPhase t (codePhase method (code.advance batch).2)

def Sys.take (s : Sys) (t : TaskId) : Method → Sys
  | .beginJob =>
      { s with taken := s.taken ++ [t],
               batch := { s.batch with ledger := { s.batch.ledger with starting := t } } }
  | _ => s

def Sys.dropOwned (s : Sys) : Owned → Sys
  | .guard => s.unlock
  | .slot => s.dropSlot

def leave (next : After) : List Owned → Phase
  | [] => next.phase
  | drops => .leaving drops next

def poll (cap : Nat) (s : Sys) (t : TaskId) (choice : Bool) : Option Sys :=
  match s.phase t with
  | .requesting method => some (s.request t method)
  | .locking method =>
      if s.holder = some t then
        let s := s.take t method
        some (s.resume t method (body cap t method) s.batch)
      else none
  | .running method (.await statement next) =>
      let served := serve statement choice s.batch
      some (s.resume t method (next served.1) served.2)
  | .running method (.load next) => some (s.resume t method (next s.pending) s.batch)
  | .registering =>
      some ({ s with drained := Function.update s.drained t false }.setPhase t .checking)
  | .checking => some (s.setPhase t (if s.pending ≠ 0 then .parked else .requesting .commitIfDrained))
  | .parked =>
      if choice then
        match s.batch.tryRecv t with
        | .empty => none
        | .value answer => some (s.setPhase t (.ended (.finished (batchAnswer (some answer)))))
        | .closed => some (s.setPhase t (.ended (.finished (batchAnswer none))))
      else if s.drained t then some (s.setPhase t .registering)
      else none
  | .leaving (first :: rest) next => some ((s.dropOwned first).setPhase t (leave next rest))
  | _ => none

def drop (s : Sys) (t : TaskId) (ran : Bool) : Option Sys :=
  match s.phase t with
  | .locking method =>
      if s.holder = some t then some (s.setPhase t (.leaving (glue method) (.ended (.dropped method))))
      else
        let slot := (glue method).filter (· = .slot)
        some ({ s with queue := s.queue.erase t }.setPhase t
          (leave (.ended (.dropped method)) slot))
  | .running method (.await statement _) =>
      some ({ s with batch := if ran then (serve statement false s.batch).2 else s.batch }.setPhase t
        (.leaving (glue method) (.ended (.dropped method))))
  | .jobHeld _ => some (s.setPhase t (.leaving [.guard, .slot] (.ended .abandoned)))
  | .connHeld _ => some (s.setPhase t (.leaving [.guard] (.ended .released)))
  | .parked => some (s.setPhase t (.ended (.dropped .commitIfDrained)))
  | _ => none

def call (s : Sys) (t : TaskId) (method : Method) : Option Sys :=
  match s.phase t, method with
  | .idle, .beginJob => some (s.enter.setPhase t (.requesting .beginJob))
  | .idle, .lock => some (s.setPhase t (.requesting .lock))
  | .idle, .lockAutocommit => some (s.setPhase t (.requesting .lockAutocommit))
  | _, _ => none

def write (s : Sys) (t : TaskId) (value : String) : Option Sys :=
  let written := { s with batch := { s.batch with conn := s.batch.conn.write ⟨t, value⟩ } }
  match s.phase t with
  | .jobHeld false =>
      some { written with written := Function.update s.written t (s.written t ++ [value]) }
  | .connHeld _ => some written
  | _ => none

def autoRollback (s : Sys) (t : TaskId) : Option Sys :=
  match s.phase t with
  | .jobHeld false =>
      some ({ s with batch := { s.batch with conn := s.batch.conn.rollbackOpen,
                                             ledger := s.batch.ledger.record false .rollback } }.setPhase t
        (.jobHeld true))
  | _ => none

def endWith (cap : Nat) (s : Sys) (t : TaskId) (method : Method) : Option Sys :=
  match s.phase t with
  | .jobHeld _ => some (s.resume t method (body cap t method) s.batch)
  | _ => none

def step (cap : Nat) (s : Sys) : Event → Option Sys
  | .call t method => call s t method
  | .poll t choice => poll cap s t choice
  | .write t value => write s t value
  | .autoRollback t => autoRollback s t
  | .finish t => endWith cap s t .finish
  | .fail t => endWith cap s t .fail
  | .drop t ran => drop s t ran

def machine (cap : Nat) : Machine Sys Event := ⟨{}, step cap⟩

end Wamux.GroupCommit
