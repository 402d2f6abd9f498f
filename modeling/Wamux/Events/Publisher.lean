import Wamux.Accounts.Handle
import Wamux.Events.Forward

namespace Wamux.Events.EventPublisher
open Runs

variable {α ε : Type}

abbrev CallerId := Nat

structure Library (α ε : Type) where
  mapEvent : ε → List (WireEvent α)
  kind : ε → Accounts.LibraryEvent

inductive Job (α ε : Type) where
  | lib (event : ε)
  | wire (event : WireEvent α) (done : CallerId)
  deriving DecidableEq, Repr

def Job.publishes (library : Library α ε) : Job α ε → List (WireEvent α)
  | .lib event => library.mapEvent event
  | .wire event _ => [event]

def Job.caller : Job α ε → Option CallerId
  | .lib _ => none
  | .wire _ done => some done

/-- A call of `publish_lib` (its state is applied, then it enqueues) or of `publish_wire`. -/
inductive Caller (α ε : Type) where
  | idle
  | applied (event : ε)
  | enqueued
  | awaiting (event : WireEvent α)
  | returned (event : WireEvent α)
  deriving DecidableEq, Repr

structure State (α ε : Type) where
  account : Events.State α
  connection : Accounts.ConnectionState := .disconnected
  queue : List (Job α ε) := []
  /-- The job `drain` runs, and what it has still to publish of it. -/
  running : Option (Job α ε × List (WireEvent α)) := none
  callers : CallerId → Caller α ε := fun _ => .idle
  confirmed : CallerId → Bool := fun _ => false
  /-- History, kept by the model only. -/
  enqueued : List (Job α ε) := []
  finished : List (Job α ε) := []
  broadcasts : List (Envelope α) := []

inductive Event (α ε : Type) where
  | publishLib (c : CallerId) (event : ε)
  | enqueueLib (c : CallerId)
  | publishWire (c : CallerId) (event : WireEvent α)
  | returns (c : CallerId)
  | recv
  | stamp (now : Int)
  | push
  | broadcast
  | finish
  | subscriber (e : Events.Event α)

def State.setCaller (s : State α ε) (c : CallerId) (caller : Caller α ε) : State α ε :=
  { s with callers := Function.update s.callers c caller }

def State.enqueue (s : State α ε) (job : Job α ε) : State α ε :=
  { s with queue := s.queue ++ [job], enqueued := s.enqueued ++ [job] }

/-- `done.send(())`. -/
def State.confirm (s : State α ε) : Job α ε → State α ε
  | .lib _ => s
  | .wire _ done => { s with confirmed := Function.update s.confirmed done true }

def ofSubscriber : Events.Event α → Bool
  | .subscribe | .snapshot | .next _ | .overrun | .hangUp => true
  | .stamp _ _ | .push | .broadcast => false

def step (library : Library α ε) (config : Config α) (s : State α ε) : Event α ε → Option (State α ε)
  | .publishLib c event => match s.callers c with
      | .idle => some ({ s with connection := Accounts.updateState s.connection (library.kind event) }.setCaller c
          (.applied event))
      | _ => none
  | .enqueueLib c => match s.callers c with
      | .applied event => some ((s.enqueue (.lib event)).setCaller c .enqueued)
      | _ => none
  | .publishWire c event => match s.callers c with
      | .idle => some ((s.enqueue (.wire event c)).setCaller c (.awaiting event))
      | _ => none
  | .returns c => match s.callers c with
      | .awaiting event => if s.confirmed c then some (s.setCaller c (.returned event)) else none
      | _ => none
  | .recv => match s.running, s.queue with
      | none, job :: rest => some { s with running := some (job, job.publishes library), queue := rest }
      | _, _ => none
  | .stamp now => match s.running with
      | some (job, inner :: rest) => (Events.step config s.account (.stamp inner now)).map fun account =>
          { s with account := account, running := some (job, rest) }
      | _ => none
  | .push => (Events.step config s.account .push).map fun account => { s with account := account }
  | .broadcast => match s.account.publisher with
      | .pushed envelope => (Events.step config s.account .broadcast).map fun account =>
          { s with account := account, broadcasts := s.broadcasts ++ [envelope] }
      | _ => none
  | .finish => match s.running, s.account.publisher with
      | some (job, []), .idle => some { s.confirm job with running := none, finished := s.finished ++ [job] }
      | _, _ => none
  | .subscriber e =>
      if ofSubscriber e then (Events.step config s.account e).map fun account => { s with account := account }
      else none

def machine (library : Library α ε) (config : Config α) : Machine (State α ε) (Event α ε) where
  initial := { account := (Events.machine config).initial }
  step := step library config

end Wamux.Events.EventPublisher
