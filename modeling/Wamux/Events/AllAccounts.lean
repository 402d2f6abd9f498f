import Mathlib.Algebra.Order.Ring.Nat
import Mathlib.Logic.Function.Basic
import Wamux.Events.Forward

/-!
# An all-accounts subscription

Accounts are entered in the registry in steps, the last of which is a notice on the `created` channel.
A subscription watches the channel, lists the registry, and attaches a forwarder to each account it
finds and then to each it is told of. Every account publishes as it likes, and every forwarder runs as
in the single-account case.
-/

namespace Wamux.Events.AllAccounts
open Runs

variable {α : Type}

abbrev AccountId := Nat

def usizeMax : Nat := 2 ^ 64 - 1

structure Tuning (α : Type) where
  uuid : AccountId → String
  ringCapacity : Nat
  fits : ringCapacity ≤ usizeMax
  replayMaxEventBytes : Nat
  isHistorySync : α → Bool
  encodedLen : Envelope α → Nat

def Tuning.config (tuning : Tuning α) (a : AccountId) (replay : Nat) : Config α where
  uuid := tuning.uuid a
  ringCapacity := tuning.ringCapacity
  replayMaxEventBytes := tuning.replayMaxEventBytes
  replay := replay
  isHistorySync := tuning.isHistorySync
  encodedLen := tuning.encodedLen

/-- `insert_handle`, by what it does next. -/
inductive Insert where
  | absent | byExternal | handles | notify | done
  deriving DecidableEq, Repr

structure Notices where
  missed : List AccountId := []
  queue : List AccountId := []

inductive Notice where
  | account (a : AccountId)
  | lagged (missed : List AccountId)

def Notices.recv (rx : Notices) : Option (Notice × Notices) :=
  match rx.missed, rx.queue with
  | [], [] => none
  | [], a :: rest => some (.account a, { rx with queue := rest })
  | missed, _ => some (.lagged missed, { rx with missed := [] })

/-- `forward_all_accounts`, and then the follower it spawns, by what is next. `list` goes through the
map while it changes, and remembers what was in it at the start. -/
inductive Follower where
  | idle
  | subscribed
  | listing (before : List AccountId)
  | attaching (rest snapshot : List AccountId)
  | following (snapshot : List AccountId)
  | sending (missed snapshot : List AccountId)
  | ended

inductive Origin where
  | snapshot | created
  deriving DecidableEq, Repr

structure State (α : Type) where
  inserts : AccountId → Insert := fun _ => .absent
  handles : List AccountId := []
  notices : Notices := {}
  follower : Follower := .idle
  forwards : List AccountId := []
  attached : AccountId → Option Origin := fun _ => none
  accounts : AccountId → Events.State α
  /-- The `subscription_gap` markers on the stream, with the notices each stands for. -/
  gaps : List (Envelope α × List AccountId) := []
  /-- History, kept by the model only: the notices sent since the subscription and those received, what
  was registered when the list began, and how many replayable events an account had published at its
  forwarder's snapshot. -/
  sent : List AccountId := []
  consumed : List AccountId := []
  before : List AccountId := []
  published : AccountId → Option Nat := fun _ => none

inductive Event (α : Type) where
  | insert (a : AccountId)
  | insertNext (a : AccountId)
  | subscribe
  | list
  | listed (seen : List AccountId)
  | attach
  | follow
  | sendMarker
  | overrun
  | hangUp
  | account (a : AccountId) (e : Events.Event α)

def createdGapMarker (lagged : Nat) : Envelope α :=
  gapEnvelope "" "subscription_gap" ("dropped " ++ toString lagged ++ " account-created notifications; newly created " ++
    "accounts may be missing from this stream; re-subscribe or reconcile via ListAccounts")

def State.listens (s : State α) : Bool :=
  match s.follower with
  | .idle | .ended => false
  | _ => true

def State.setInsert (s : State α) (a : AccountId) (next : Insert) : State α :=
  { s with inserts := Function.update s.inserts a next }

def State.forward (s : State α) (a : AccountId) (origin : Origin) : State α :=
  { s with forwards := s.forwards ++ [a], attached := Function.update s.attached a (some origin) }

def insertNext (s : State α) (a : AccountId) : Option (State α) :=
  match s.inserts a with
  | .byExternal => some (s.setInsert a .handles)
  | .handles => some ({ s with handles := s.handles ++ [a] }.setInsert a .notify)
  | .notify =>
      if s.listens then
        some ({ s with notices := { s.notices with queue := s.notices.queue ++ [a] },
                       sent := s.sent ++ [a] }.setInsert a .done)
      else some (s.setInsert a .done)
  | .absent | .done => none

/-- `follow_created_step`. -/
def follow (s : State α) (snapshot : List AccountId) : Option (State α) :=
  match s.notices.recv with
  | none => none
  | some (.account a, rx) =>
      let s := { s with notices := rx, consumed := s.consumed ++ [a] }
      if snapshot.contains a then some s else some (s.forward a .created)
  | some (.lagged missed, rx) =>
      some { s with notices := rx, consumed := s.consumed ++ missed, follower := .sending missed snapshot }

/-- `replay` of `forward`: what the client asked for, or the whole ring. -/
def replayOf (replay : Nat) : Option Origin → Nat
  | some .created => usizeMax
  | some .snapshot | none => replay

/-- A handle publishes once it is made, and a forwarder starts once it is spawned. -/
def mayStep (s : State α) (a : AccountId) : Events.Event α → Bool
  | .stamp _ _ | .push | .broadcast => s.inserts a ≠ .absent
  | .subscribe => (s.attached a).isSome
  | .snapshot | .next _ | .overrun | .hangUp => true

def replayables (config : Config α) (account : Events.State α) : Nat := (account.passed.filter (replayable config)).length

def countPublished (config : Config α) (s : State α) (a : AccountId) : Events.Event α → AccountId → Option Nat
  | .snapshot => Function.update s.published a (some (replayables config (s.accounts a)))
  | .stamp _ _ | .push | .broadcast | .subscribe | .next _ | .overrun | .hangUp => s.published

def stepAccount (tuning : Tuning α) (replay : Nat) (s : State α) (a : AccountId) (e : Events.Event α) :
    Option (State α) :=
  let config := tuning.config a (replayOf replay (s.attached a))
  if mayStep s a e then
    (Events.step config (s.accounts a) e).map fun account =>
      { s with accounts := Function.update s.accounts a account,
               published := countPublished config s a e }
  else none

def step (tuning : Tuning α) (replay : Nat) (s : State α) : Event α → Option (State α)
  | .insert a => match s.inserts a with
      | .absent => some (s.setInsert a .byExternal)
      | _ => none
  | .insertNext a => insertNext s a
  | .subscribe => match s.follower with
      | .idle => some { s with follower := .subscribed }
      | _ => none
  | .list => match s.follower with
      | .subscribed => some { s with follower := .listing s.handles, before := s.handles }
      | _ => none
  | .listed seen => match s.follower with
      -- an entry there all along is seen, one that comes meanwhile may be
      | .listing before =>
          if before ⊆ seen ∧ seen ⊆ s.handles ∧ seen.Nodup then some { s with follower := .attaching seen seen } else none
      | _ => none
  | .attach => match s.follower with
      | .attaching [] snapshot => some { s with follower := .following snapshot }
      | .attaching (a :: rest) snapshot => some ({ s with follower := .attaching rest snapshot }.forward a .snapshot)
      | _ => none
  | .follow => match s.follower with
      | .following snapshot => follow s snapshot
      | _ => none
  | .sendMarker => match s.follower with
      | .sending missed snapshot =>
          some { s with follower := .following snapshot, gaps := s.gaps ++ [(createdGapMarker missed.length, missed)] }
      | _ => none
  | .overrun => match s.notices.queue with
      | oldest :: rest => some { s with notices := ⟨s.notices.missed ++ [oldest], rest⟩ }
      | [] => none
  | .hangUp => match s.follower with
      | .following _ | .sending _ _ => some { s with follower := .ended, notices := {} }
      | _ => none
  | .account a e => stepAccount tuning replay s a e

def machine (tuning : Tuning α) (replay : Nat) : Machine (State α) (Event α) where
  initial := { accounts := fun a => (Events.machine (tuning.config a replay)).initial }
  step := step tuning replay

end Wamux.Events.AllAccounts
