import Mathlib.Logic.Function.Basic
import Wamux.Runs.Transition

/-!
# One account's handle and the calls on it

The running slot, the client and the connection state are three cells, each with a lock of its own,
and none of them says which connection it is about. A step is one access to one of them, or one
choice of the library or the runtime, so calls, supervisors and run loops interleave between any
two accesses. A connection is named by the `connect` call that made it.
-/

namespace Wamux.Accounts
open Runs

inductive ConnectionState where
  | unspecified | disconnected | connecting | connected | loggedOut | banned
  deriving DecidableEq, Repr

inductive LibraryEvent where
  | connected | pairSuccess | disconnected | loggedOut | temporaryBan | other
  deriving DecidableEq, Repr

def isTerminal : ConnectionState → Bool
  | .loggedOut | .banned => true
  | .unspecified | .disconnected | .connecting | .connected => false

/-- What `update_state` writes; `send_if_modified` leaves a terminal state alone. -/
def written (current : ConnectionState) (event : LibraryEvent) : Option ConnectionState :=
  let next : Option ConnectionState := match event with
    | .connected | .pairSuccess => some .connected
    | .disconnected => some .disconnected
    | .loggedOut => some .loggedOut
    | .temporaryBan => some .banned
    | .other => none
  match next with
  | none => none
  | some state => if state = .disconnected && isTerminal current then none else some state

def updateState (current : ConnectionState) (event : LibraryEvent) : ConnectionState :=
  (written current event).getD current

def withinConnectionBudget (current cap : Nat) : Bool :=
  cap == 0 || current < cap

abbrev ConnId := Nat
abbrev StopId := Nat

inductive WamuxError where
  | resourceExhausted (message : String)
  | notConnected
  | client
  deriving DecidableEq, Repr

/-- `AccountRegistry::connect`, by what it does next. -/
inductive Connect where
  | idle
  | isRunning
  | budget
  | before
  | announce (before : ConnectionState)
  | build (before : ConnectionState)
  | setClient
  | spawn
  | fetchAdd
  | supervise
  | setRunning
  | returned (result : Except WamuxError Unit)

/-- The supervisor task of a connection. While its run loop lives it is parked on `bot_handle`, or
being polled there; from `take` to `send` it is in `on_bot_exited`. -/
inductive Supervisor where
  | absent
  | parked
  | polled
  | take
  | clearClient
  | isTerminal
  | send
  | fetchSub
  | done
  | cancelled
  deriving DecidableEq, Repr

inductive RunLoop where
  | unspawned | alive | exited
  deriving DecidableEq, Repr

/-- `AccountHandle::stop`, and `AccountRegistry::logout` up to its stop. Past its `take` a stop
remembers which supervisor it took. -/
inductive Stop where
  | idle
  | logoutClient
  | logoutSocket (client : ConnId)
  | logoutDeregister (client : ConnId)
  | client
  | take (client : Option ConnId)
  | shutdown (client took : Option ConnId)
  | timeout (took : ConnId)
  | clearClient (took : Option ConnId)
  | isTerminal (took : Option ConnId)
  | send (took : Option ConnId)
  | returned (result : Except WamuxError Unit)

structure State where
  running : Option ConnId := none
  client : Option ConnId := none
  state : ConnectionState := .disconnected
  /-- What this handle adds to the registry's count. -/
  connected : Nat := 0
  connects : ConnId → Connect := fun _ => .idle
  loops : ConnId → RunLoop := fun _ => .unspawned
  supervisors : ConnId → Supervisor := fun _ => .absent
  aborted : ConnId → Bool := fun _ => false
  stops : StopId → Stop := fun _ => .idle
  /-- History, kept by the model only: the state a `connect` found, whether a stop took the
  connection, whether its client has been set, whether that was after another one's, and whose
  event the state is from. -/
  found : ConnId → ConnectionState := fun _ => .unspecified
  stopped : ConnId → Bool := fun _ => false
  established : ConnId → Bool := fun _ => false
  newer : ConnId → ConnId → Bool := fun _ _ => false
  recordedBy : Option ConnId := none

inductive Event where
  | connect (k : ConnId)
  /-- The next access of a `connect`; `total` is the count it loads. -/
  | advance (k : ConnId) (total : Nat)
  | built (k : ConnId)
  | buildFailed (k : ConnId)
  | setRunning (k : ConnId)
  | record (k : ConnId) (event : LibraryEvent)
  | exit (k : ConnId)
  | poll (k : ConnId)
  | pend (k : ConnId)
  | supervise (k : ConnId)
  /-- An aborted supervisor is dropped at an await. -/
  | cancel (k : ConnId)
  | stop (q : StopId)
  | logout (q : StopId)
  /-- The next access of a stop; `connected` answers `is_socket_connected`. -/
  | stopNext (q : StopId) (connected : Bool)
  | timeout (q : StopId)
  deriving DecidableEq, Repr

namespace State

def setConnect (s : State) (k : ConnId) (phase : Connect) : State :=
  { s with connects := Function.update s.connects k phase }

def setSupervisor (s : State) (k : ConnId) (phase : Supervisor) : State :=
  { s with supervisors := Function.update s.supervisors k phase }

def setLoop (s : State) (k : ConnId) (runLoop : RunLoop) : State :=
  { s with loops := Function.update s.loops k runLoop }

def setStop (s : State) (q : StopId) (phase : Stop) : State :=
  { s with stops := Function.update s.stops q phase }

/-- `JoinHandle::abort`: a parked task never runs again; one that is being polled goes on to its
next await. -/
def abort (s : State) (k : ConnId) : State :=
  { s with aborted := Function.update s.aborted k true,
           supervisors := Function.update s.supervisors k
             (if s.supervisors k = .parked then .cancelled else s.supervisors k) }

/-- The handle has the client of a connection; those established before are older. -/
def establish (s : State) (k : ConnId) : State :=
  { s with client := some k,
           established := Function.update s.established k true,
           newer := Function.update s.newer k s.established }

def send (s : State) (state : ConnectionState) : State := { s with state := state, recordedBy := none }

def record (s : State) (k : ConnId) (event : LibraryEvent) : State :=
  { s with state := updateState s.state event,
           recordedBy := if (written s.state event).isSome then some k else s.recordedBy }

end State

def budgetMessage (max : Nat) : String := "connection budget reached (" ++ toString max ++ ")"

def advance (max : Nat) (s : State) (k : ConnId) (total : Nat) : Option State :=
  match s.connects k with
  | .isRunning => some (s.setConnect k (if s.running.isSome then .returned (.ok ()) else .budget))
  | .budget =>
      some (s.setConnect k (if withinConnectionBudget total max then .before
        else .returned (.error (.resourceExhausted (budgetMessage max)))))
  | .before =>
      some ({ s with found := Function.update s.found k s.state }.setConnect k (.announce s.state))
  | .announce before => some ((s.send .connecting).setConnect k (.build before))
  | .setClient => some ((s.establish k).setConnect k .spawn)
  | .spawn => some ((s.setLoop k .alive).setConnect k .fetchAdd)
  | .fetchAdd => some ({ s with connected := s.connected + 1 }.setConnect k .supervise)
  | .supervise => some ((s.setSupervisor k .parked).setConnect k .setRunning)
  | .idle | .build _ | .setRunning | .returned _ => none

def setRunning (s : State) (k : ConnId) : Option State :=
  match s.connects k with
  | .setRunning =>
      let replaced := { s with running := some k }.setConnect k (.returned (.ok ()))
      match s.running with
      | none => some replaced
      | some previous => some (replaced.abort previous)
  | _ => none

/-- `on_bot_exited`, then the budget slot is released. -/
def supervise (s : State) (k : ConnId) : Option State :=
  match s.supervisors k with
  | .polled => if s.loops k = .exited then some (s.setSupervisor k .take) else none
  | .take => some ({ s with running := none }.setSupervisor k .clearClient)
  | .clearClient => some ({ s with client := none }.setSupervisor k .isTerminal)
  | .isTerminal => some (s.setSupervisor k (if isTerminal s.state then .fetchSub else .send))
  | .send => some ((s.send .disconnected).setSupervisor k .fetchSub)
  | .fetchSub => some ({ s with connected := s.connected - 1 }.setSupervisor k .done)
  | .absent | .parked | .done | .cancelled => none

/-- The task ends at an await; a run loop still alive is aborted with the `BotHandle`. -/
def cancel (s : State) (k : ConnId) : Option State :=
  match s.supervisors k, s.aborted k with
  | .polled, true | .take, true | .clearClient, true => some (s.setSupervisor k .cancelled)
  | _, _ => none

/-- A run loop exits when the library gives up, or when its `BotHandle` was dropped. -/
def exit (s : State) (k : ConnId) : Option State :=
  if s.loops k = .alive then some (s.setLoop k .exited) else none

/-- Assumed of the library: only a live run loop comes up; its other events can also come from a task
that outlives it. -/
def mayRecord (s : State) (k : ConnId) : LibraryEvent → Bool
  | .connected | .pairSuccess => s.loops k = .alive
  | .disconnected | .loggedOut | .temporaryBan | .other => s.loops k ≠ .unspawned

def stopNext (s : State) (q : StopId) (connected : Bool) : Option State :=
  match s.stops q with
  | .logoutClient =>
      some (s.setStop q (match s.client with
        | none => .returned (.error .notConnected)
        | some client => .logoutSocket client))
  | .logoutSocket client =>
      some (s.setStop q (if connected then .logoutDeregister client
        else .returned (.error .notConnected)))
  | .logoutDeregister _ => some (s.setStop q .client)
  | .client => some (s.setStop q (.take s.client))
  | .take client =>
      let s := { s with stopped := fun k => s.stopped k || s.running == some k }
      some ({ s with running := none }.setStop q (.shutdown client s.running))
  | .shutdown _ took =>
      some (s.setStop q (match took with
        | none => .clearClient none
        | some supervisor => .timeout supervisor))
  | .timeout supervisor =>
      match s.supervisors supervisor with
      | .done | .cancelled => some (s.setStop q (.clearClient (some supervisor)))
      | _ => none
  | .clearClient took => some ({ s with client := none }.setStop q (.isTerminal took))
  | .isTerminal took =>
      some (s.setStop q (if isTerminal s.state then .returned (.ok ()) else .send took))
  | .send _ => some ((s.send .disconnected).setStop q (.returned (.ok ())))
  | .idle | .returned _ => none

def step (max : Nat) (s : State) : Event → Option State
  | .connect k => match s.connects k with
      | .idle => some (s.setConnect k .isRunning)
      | _ => none
  | .advance k total => advance max s k total
  | .built k => match s.connects k with
      | .build _ => some (s.setConnect k .setClient)
      | _ => none
  | .buildFailed k => match s.connects k with
      | .build before =>
          some ((s.send before).setConnect k (.returned (.error .client)))
      | _ => none
  | .setRunning k => setRunning s k
  | .record k event =>
      if mayRecord s k event then some (s.record k event) else none
  | .exit k => exit s k
  | .poll k => if s.supervisors k = .parked then some (s.setSupervisor k .polled) else none
  | .pend k =>
      if s.supervisors k = .polled && s.loops k = .alive && !s.aborted k then
        some (s.setSupervisor k .parked)
      else none
  | .supervise k => supervise s k
  | .cancel k => cancel s k
  | .stop q => match s.stops q with
      | .idle => some (s.setStop q .client)
      | _ => none
  | .logout q => match s.stops q with
      | .idle => some (s.setStop q .logoutClient)
      | _ => none
  | .stopNext q connected => stopNext s q connected
  | .timeout q => match s.stops q with
      | .timeout supervisor => some (s.setStop q (.clearClient (some supervisor)))
      | _ => none

/-- A handle as `AccountHandle::new` makes it; `max` is `max_connected_accounts`. -/
def machine (max : Nat) : Machine State Event := ⟨{}, step max⟩

/-- The same handle where any task may call `update_state`, with any event, at any time. -/
def dispatching (max : Nat) : Machine State (Event ⊕ LibraryEvent) where
  initial := {}
  step s
    | .inl e => step max s e
    | .inr event => some { s with state := updateState s.state event }

end Wamux.Accounts
