import Mathlib.Logic.Function.Basic
import Wamux.Runs.Ledger
import Wamux.Runs.Transition

/-!
# The spool budget

One counter shared by every transfer. A claim is the loop of `fetch_update`: what it read, then an
exchange that fails when the counter has moved, or for no reason. The amount is recorded with the
exchange, since until the call returns nobody else sees the reservation.
-/

namespace Wamux.Spool
open Runs

def u64Max : UInt64 := 18446744073709551615

def saturatingAdd (a b : UInt64) : UInt64 := if a.toNat + b.toNat < 2 ^ 64 then a + b else u64Max

structure SpoolBudget where
  /-- 0 is no maximum. -/
  maxBytes : UInt64

def SpoolBudget.claimed (budget : SpoolBudget) (held bytes : UInt64) : Option UInt64 :=
  let total := saturatingAdd held bytes
  if budget.maxBytes = 0 ∨ total ≤ budget.maxBytes then some total else none

/-- `fetch_sub`, which wraps. -/
def released (held bytes : UInt64) : UInt64 := held - bytes

namespace Budget

abbrev TaskId := Nat
abbrev ReservationId := Nat

inductive Reservation where
  | live (held : UInt64)
  /-- Borrowed by a call of `try_grow`. -/
  | growing (held : UInt64)
  | dropped
  deriving DecidableEq

def Reservation.bytes : Reservation → UInt64
  | .live held | .growing held => held
  | .dropped => 0

/-- A call in its loop: the reservation it grows, or a new one, and the counter as it saw it. -/
structure Call where
  grows : Option ReservationId
  bytes : UInt64
  seen : UInt64
  deriving DecidableEq

structure State where
  held : UInt64 := 0
  reservations : List Reservation := []
  calls : TaskId → Option Call := fun _ => none

inductive Event where
  | tryReserve (task : TaskId) (bytes : UInt64)
  | tryGrow (task : TaskId) (id : ReservationId) (bytes : UInt64)
  | exchange (task : TaskId) (spurious : Bool)
  | drop (id : ReservationId)

namespace State

def setCall (s : State) (task : TaskId) (call : Option Call) : State := { s with calls := Function.update s.calls task call }

def returned (s : State) (grows : Option ReservationId) (bytes : UInt64) : Option State :=
  match grows with
  | none => some s
  | some id => match s.reservations[id]? with
      | some (.growing held) => some { s with reservations := s.reservations.set id (.live (held + bytes)) }
      | _ => none

end State

def step (budget : SpoolBudget) (s : State) : Event → Option State
  | .tryReserve task bytes => match s.calls task with
      | none => some (s.setCall task (some ⟨none, bytes, s.held⟩))
      | some _ => none
  | .tryGrow task id bytes => match s.calls task, s.reservations[id]? with
      | none, some (.live held) =>
          some { s.setCall task (some ⟨some id, bytes, s.held⟩) with
            reservations := s.reservations.set id (.growing held) }
      | _, _ => none
  | .exchange task spurious => match s.calls task with
      | none => none
      | some call => match budget.claimed call.seen call.bytes with
          | none => (s.setCall task none).returned call.grows 0
          | some total =>
              if s.held = call.seen ∧ spurious = false then match call.grows with
                | none => some { s.setCall task none with
                    held := total, reservations := s.reservations ++ [.live call.bytes] }
                | some id => ({ s.setCall task none with held := total }).returned (some id) call.bytes
              else some (s.setCall task (some { call with seen := s.held }))
  | .drop id => match s.reservations[id]? with
      | some (.live held) =>
          some { s with held := released s.held held, reservations := s.reservations.set id .dropped }
      | _ => none

def machine (budget : SpoolBudget) : Machine State Event := ⟨{}, step budget⟩

end Budget

end Wamux.Spool
