import Wamux.Events.Forward

/-!
# A pairing stream

It subscribes to one account's broadcast, connects the account, and relays the pairing updates to a
client that reads a channel of 16. `ι` is what a pairing or its failure is described by, `β` what
other events carry. The broadcast keeps its last `capacity` sends.
-/

namespace Wamux.Events
open Runs

namespace Pairing
variable {ι β : Type}

inductive PairingEvent (ι : Type) where
  | qrCode (code : String)
  | pairCode (code : String)
  | paired (info : ι)
  | error (message : String)
  | codeRefresh (forceManual : Bool)
  | codeError (info : ι)
  | qrCodesExhausted (disconnected : Bool)
  deriving DecidableEq, Repr

structure PairingUpdate (ι : Type) where
  event : Option (PairingEvent ι)
  deriving DecidableEq, Repr

inductive Payload (ι β : Type) where
  | pairing (update : PairingUpdate ι)
  | other (content : β)
  deriving DecidableEq, Repr

abbrev PairingEnvelope (ι β : Type) := Envelope (Payload ι β)

def pairingStreamEnds (update : PairingUpdate ι) : Bool :=
  match update.event with
  | some (.paired _) | some (.error _) | some (.codeError _) | some (.codeRefresh _) => true
  | some (.qrCodesExhausted disconnected) => disconnected
  | some (.qrCode _) | some (.pairCode _) | none => false

def pairingOf (envelope : PairingEnvelope ι β) : Option (PairingUpdate ι) :=
  match envelope.event with
  | .mapped (.pairing update) => some update
  | .mapped (.other _) | .raw _ _ => none

/-- A send of the broadcast, which overwrites the oldest it keeps when it is full. -/
def send (capacity : Nat) (rx : Receiver (Payload ι β)) (envelope : PairingEnvelope ι β) : Receiver (Payload ι β) :=
  match rx.queue with
  | [] => { rx with queue := [envelope] }
  | oldest :: rest =>
      if rest.length + 1 < capacity then { rx with queue := oldest :: rest ++ [envelope] }
      else ⟨rx.missed ++ [oldest], rest ++ [envelope]⟩

def slots : Nat := 16

inductive Relay (ι : Type) where
  | connecting
  | receiving
  | sending (update : PairingUpdate ι)
  | ended
  deriving DecidableEq, Repr

structure State (ι β : Type) where
  rx : Receiver (Payload ι β) := {}
  relay : Relay ι := .connecting
  /-- What went into the client's channel, and how much of it the client has read. -/
  stream : List (PairingUpdate ι) := []
  read : Nat := 0
  closed : Bool := false
  /-- History, kept by the model only: what was published since the subscribe while the relay lived,
  and what its receiver has moved past. -/
  published : List (PairingEnvelope ι β) := []
  past : List (PairingEnvelope ι β) := []

inductive Event (ι β : Type) where
  | publish (envelope : PairingEnvelope ι β)
  | close
  | connected (ok : Bool)
  | next
  | clientReads
  /-- `tx.closed()`, or the call itself is dropped. -/
  | hangUp
  | shutdown

def relayNext (s : State ι β) : Option (State ι β) :=
  match s.relay with
  | .receiving => match s.rx.recv with
      | some (.event envelope, rx) =>
          let s := { s with rx := rx, past := s.past ++ [envelope] }
          match pairingOf envelope with
          | none => some s
          | some update => some { s with relay := .sending update }
      | some (.lagged missed, rx) => some { s with rx := rx, past := s.past ++ missed }
      | none => if s.closed then some { s with relay := .ended } else none
  | .sending update =>
      if s.stream.length - s.read < slots then
        some { s with
          stream := s.stream ++ [update]
          relay := if pairingStreamEnds update then .ended else .receiving }
      else none
  | .connecting | .ended => none

def step (capacity : Nat) (s : State ι β) : Event ι β → Option (State ι β)
  | .publish envelope => match s.relay with
      | .ended => some s
      | _ => some { s with rx := send capacity s.rx envelope, published := s.published ++ [envelope] }
  | .close => some { s with closed := true }
  | .connected ok => match s.relay with
      | .connecting => some { s with relay := if ok then .receiving else .ended }
      | _ => none
  | .next => relayNext s
  | .clientReads => if s.read < s.stream.length then some { s with read := s.read + 1 } else none
  | .hangUp => some { s with relay := .ended }
  | .shutdown => match s.relay with
      | .connecting => none
      | _ => some { s with relay := .ended }

def machine (ι β : Type) (capacity : Nat) : Machine (State ι β) (Event ι β) := ⟨{}, step capacity⟩

end Pairing
end Wamux.Events
