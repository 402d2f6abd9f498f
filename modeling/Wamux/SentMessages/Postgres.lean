import Wamux.SentMessages.Table

/-!
# The cache on Postgres

Transactions at READ COMMITTED. A statement sees the rows committed when it starts; a row deleted by
an open transaction is locked, and a statement that would write it waits. A store is one statement
and its own transaction, and so is a sweep, which writes the rows it saw and finds still expired.
-/

namespace Wamux.SentMessages.Postgres
open Wamux.Encryption Wamux.Encryption.Tables Runs

abbrev TaskId := Nat

inductive Call where
  | idle
  /-- The SELECT of a take answered. -/
  | taking (name : SentName) (stored : Option SentRow)
  /-- Its DELETE ran, and met a row or none. -/
  | deleted (name : SentName) (stored : Option SentRow) (found : Bool)
  | sweeping (device : DeviceId) (cutoff : Int64) (seen : List SentName)
  deriving DecidableEq

structure State where
  rows : List SentRow
  calls : TaskId → Call := fun _ => .idle
  /-- The rows deleted by transactions that are still open. -/
  locks : List (SentName × TaskId) := []
  /-- History: what was committed, in order. -/
  log : Log := []

namespace State

def setCall (s : State) (task : TaskId) (call : Call) : State := { s with calls := Function.update s.calls task call }

def locked (s : State) (name : SentName) : Bool := s.locks.any (·.1 = name)

def endCall (s : State) (task : TaskId) : State :=
  { s.setCall task .idle with locks := s.locks.filter (·.2 ≠ task) }

end State

inductive Event where
  | store (name : SentName) (payload : Bytes) (nonce : Option Nonce) (now : Int64)
  | select (task : TaskId) (name : SentName)
  | delete (task : TaskId)
  /-- The take opens the blob, then commits. -/
  | commit (task : TaskId)
  /-- A statement or the COMMIT fails, or the take is dropped. -/
  | abort (task : TaskId)
  | sweep (task : TaskId) (device : DeviceId) (cutoff : Int64)
  | swept (task : TaskId)
  | get (name : SentName)

variable (crypto : Crypto) (cipher : BlobCipher)

def commitTake (s : State) (task : TaskId) (name : SentName) (stored : Option SentRow) (found : Bool) : State :=
  match openSent crypto cipher name stored with
  | .error _ => s.endCall task
  | .ok payload =>
      { s.endCall task with
          rows := if found then deleteSent s.rows name else s.rows,
          log := s.log ++ (payload.map (.taken name)).toList }

def step (s : State) : Event → Option State
  | .store name payload nonce now => match sealSent crypto cipher name nonce payload with
      | .error _ => some s
      | .ok sealed =>
          if s.locked name then none
          else some { s with rows := storeSent s.rows ⟨name, sealed, now⟩, log := s.log ++ [.stored name payload] }
  | .select task name => match s.calls task with
      | .idle => some (s.setCall task (.taking name (selectSent s.rows name)))
      | _ => none
  | .delete task => match s.calls task with
      | .taking name (some row) =>
          if s.locked name then none
          else
            let found := (selectSent s.rows name).isSome
            some { s.setCall task (.deleted name (some row) found) with
              locks := if found then (name, task) :: s.locks else s.locks }
      | _ => none
  | .commit task => match s.calls task with
      | .taking name none => some (commitTake crypto cipher s task name none false)
      | .deleted name stored found => some (commitTake crypto cipher s task name stored found)
      | _ => none
  | .abort task => match s.calls task with
      | .idle => none
      | _ => some (s.endCall task)
  | .sweep task device cutoff => match s.calls task with
      | .idle => some (s.setCall task (.sweeping device cutoff ((s.rows.filter (·.expired device cutoff)).map (·.name))))
      | _ => none
  | .swept task => match s.calls task with
      | .sweeping device cutoff seen =>
          if seen.any s.locked then none
          else some { s.setCall task .idle with
            rows := s.rows.filter fun row => !(seen.contains row.name && row.expired device cutoff) }
      | _ => none
  | .get _ => some s

/-- A DELETE finds the row that the SELECT of the same take read. -/
def readStays (s : State) : Event → Bool
  | .delete task => match s.calls task with
      | .taking name (some row) => selectSent s.rows name = some row
      | _ => true
  | _ => true

def ReadStays (s : State) (e : Event) : Prop := readStays s e = true

def refuses (s : State) : Event → Bool
  | .commit task => match s.calls task with
      | .deleted name stored _ => (openSent crypto cipher name stored).toOption.isNone
      | _ => false
  | .abort _ => true
  | _ => false

def machine (rows : Cache) : Machine State Event := ⟨{ rows := rows.1 }, step crypto cipher⟩

end Wamux.SentMessages.Postgres
