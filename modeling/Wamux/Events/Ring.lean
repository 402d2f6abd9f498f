import Mathlib.Data.List.Basic

/-!
# Envelopes and the replay ring

`α` is what a mapped library event carries. How many bytes an envelope encodes to, and whether it is
a history-sync blob, are read off it by functions of the configuration.
-/

namespace Wamux.Events

inductive WireEvent (α : Type) where
  | raw (kind note : String)
  | mapped (payload : α)
  deriving DecidableEq, Repr

structure Envelope (α : Type) where
  accountUuid : String
  /-- An `i64`, which an integer stands for while no more than `2 ^ 63` were given out. -/
  monotonicSeq : Int
  tsUnixMs : Int
  event : WireEvent α
  deriving DecidableEq, Repr

structure Config (α : Type) where
  uuid : String
  ringCapacity : Nat
  replayMaxEventBytes : Nat
  /-- `replay` of `forward`: `usize::MAX` for an account created after an all-accounts subscribe. -/
  replay : Nat
  isHistorySync : α → Bool
  encodedLen : Envelope α → Nat

variable {α : Type}

def replayable (config : Config α) (envelope : Envelope α) : Bool :=
  let historySync := match envelope.event with
    | .mapped payload => config.isHistorySync payload
    | .raw _ _ => false
  if historySync then false
  else if config.replayMaxEventBytes > 0 && config.encodedLen envelope > config.replayMaxEventBytes then false
  else true

structure EventRing (α : Type) where
  inner : List (Envelope α) := []
  capacity : Nat

namespace EventRing

/-- The `while` of `push`. -/
def evict (capacity : Nat) : List (Envelope α) → List (Envelope α)
  | [] => []
  | oldest :: rest =>
      if rest.length + 1 ≥ capacity then evict capacity rest else oldest :: rest

def push (ring : EventRing α) (event : Envelope α) : EventRing α :=
  if ring.capacity = 0 then ring
  else { ring with inner := evict ring.capacity ring.inner ++ [event] }

def snapshot (ring : EventRing α) (n : Nat) : List (Envelope α) :=
  let take := min n ring.inner.length
  ring.inner.drop (ring.inner.length - take)

end EventRing
end Wamux.Events
