import Wamux.Runs.Transition
import Wamux.Events.Ring

/-!
# One account's publisher and one subscriber's forwarder

The publisher stamps, pushes to the ring and broadcasts, one envelope at a time. The forwarder
subscribes, takes a snapshot of the ring, sends it, and then forwards what its receiver gets. The
two interleave at every one of these steps. Of the broadcast channel only this is assumed: a
receiver gets every later send in order, or `Lagged(n)` for the `n` it missed.
-/

namespace Wamux.Events
open Runs

variable {α : Type}

inductive Publisher (α : Type) where
  | idle
  | stamped (envelope : Envelope α)
  | pushed (envelope : Envelope α)

structure Receiver (α : Type) where
  /-- Sends the channel overwrote before they were received. -/
  missed : List (Envelope α) := []
  queue : List (Envelope α) := []

inductive Received (α : Type) where
  | event (envelope : Envelope α)
  | lagged (missed : List (Envelope α))

def Receiver.recv (rx : Receiver α) : Option (Received α × Receiver α) :=
  match rx.missed, rx.queue with
  | [], [] => none
  | [], envelope :: rest => some (.event envelope, { rx with queue := rest })
  | missed, _ => some (.lagged missed, { rx with missed := [] })

/-- `forward`, by what it does next. -/
inductive Forwarder (α : Type) where
  | idle
  | subscribed
  | replaying (rest : List (Envelope α)) (lastReplayed : Int)
  | live (lastReplayed : Int)
  | sending (received : Received α) (envelope : Envelope α) (lastReplayed : Int)
  | ended

structure State (α : Type) where
  seq : Int := 0
  publisher : Publisher α := .idle
  ring : EventRing α
  rx : Receiver α := {}
  forwarder : Forwarder α := .idle
  stream : List (Envelope α) := []
  /-- History, kept by the model only: what passed the ring, what was broadcast after the forwarder
  subscribed, and what the gap markers on the stream stand for. -/
  passed : List (Envelope α) := []
  sent : List (Envelope α) := []
  covered : List (Envelope α) := []

inductive Event (α : Type) where
  | stamp (inner : WireEvent α) (now : Int)
  | push
  | broadcast
  | subscribe
  | snapshot
  /-- The forwarder's next step; `state` is what `current_state` reads for a gap marker. -/
  | next (state : String)
  /-- The channel overwrites the oldest send the receiver has not received. -/
  | overrun
  /-- The client hung up, or the daemon shuts down. -/
  | hangUp

def gapEnvelope (accountUuid kind note : String) : Envelope α :=
  ⟨accountUuid, -1, 0, .raw kind note⟩

def gapMarker (accountUuid : String) (lagged : Nat) (state : String) : Envelope α :=
  gapEnvelope accountUuid "gap"
    ("dropped " ++ toString lagged ++ " events; state=" ++ state ++ "; resync via GetAccountStatus")

def State.receive (config : Config α) (s : State α) (state : String) (lastReplayed : Int) :
    Received α → State α
  | .event envelope =>
      if envelope.monotonicSeq ≤ lastReplayed then s
      else { s with forwarder := .sending (.event envelope) envelope lastReplayed }
  | .lagged missed =>
      { s with forwarder := .sending (.lagged missed) (gapMarker config.uuid missed.length state) lastReplayed }

def Received.standsFor : Received α → List (Envelope α)
  | .event _ => []
  | .lagged missed => missed

def forwardNext (config : Config α) (s : State α) (state : String) : Option (State α) :=
  match s.forwarder with
  | .replaying [] lastReplayed => some { s with forwarder := .live lastReplayed }
  | .replaying (envelope :: rest) lastReplayed =>
      some { s with forwarder := .replaying rest (max lastReplayed envelope.monotonicSeq),
                    stream := s.stream ++ [envelope] }
  | .live lastReplayed =>
      s.rx.recv.map fun (received, rx) => { s with rx := rx }.receive config state lastReplayed received
  | .sending received envelope lastReplayed =>
      some { s with forwarder := .live lastReplayed, stream := s.stream ++ [envelope],
                    covered := s.covered ++ received.standsFor }
  | .idle | .subscribed | .ended => none

def State.subscribes (s : State α) : Bool :=
  match s.forwarder with
  | .idle | .ended => false
  | _ => true

def step (config : Config α) (s : State α) : Event α → Option (State α)
  | .stamp inner now => match s.publisher with
      | .idle => some { s with publisher := .stamped ⟨config.uuid, s.seq, now, inner⟩, seq := s.seq + 1 }
      | _ => none
  | .push => match s.publisher with
      | .stamped envelope =>
          some { s with publisher := .pushed envelope,
                        ring := if replayable config envelope then s.ring.push envelope else s.ring,
                        passed := s.passed ++ [envelope] }
      | _ => none
  | .broadcast => match s.publisher with
      | .pushed envelope =>
          if s.subscribes then
            some { s with publisher := .idle, rx := { s.rx with queue := s.rx.queue ++ [envelope] },
                          sent := s.sent ++ [envelope] }
          else some { s with publisher := .idle }
      | _ => none
  | .subscribe => match s.forwarder with
      | .idle => some { s with forwarder := .subscribed }
      | _ => none
  | .snapshot => match s.forwarder with
      | .subscribed =>
          some { s with forwarder := if config.replay > 0 then
                          .replaying (s.ring.snapshot config.replay) (-1) else .live (-1) }
      | _ => none
  | .next state => forwardNext config s state
  | .overrun => match s.rx.queue with
      | oldest :: rest => some { s with rx := ⟨s.rx.missed ++ [oldest], rest⟩ }
      | [] => none
  | .hangUp => match s.forwarder with
      | .idle | .ended => none
      | _ => some { s with forwarder := .ended, rx := {} }

def machine (config : Config α) : Machine (State α) (Event α) where
  initial := { ring := { capacity := config.ringCapacity } }
  step := step config

end Wamux.Events
