import Mathlib.Algebra.Order.Ring.Nat
import Wamux.Spool.Budget

namespace Wamux.Spool
open Runs

def maxOffset : Nat := 9223372036854775807

structure File where
  length : Nat := 0
  offset : Nat := 0
  length_le : length ≤ maxOffset := by decide
  offset_le : offset ≤ maxOffset := by decide

abbrev File.empty : File := {}

inductive SeekFrom where
  | start (offset : UInt64)
  | current (offset : Int64)
  | «end» (offset : Int64)

inductive IoError where
  | other (message : String)
  | os
  deriving DecidableEq

namespace File

/-- What the system takes of `size` bytes when it would take `upTo`. -/
def room (file : File) (size upTo : Nat) : Nat := min upTo (min size (maxOffset - file.offset))

theorem room_le (file : File) (size upTo : Nat) : file.offset + file.room size upTo ≤ maxOffset := by
  have := file.offset_le
  unfold room
  omega

theorem write_le (file : File) (size upTo : Nat) :
    (if file.room size upTo = 0 then file.length else max file.length (file.offset + file.room size upTo)) ≤ maxOffset := by
  have := file.length_le
  have := file.room_le size upTo
  split <;> omega

/-- `write`. Past the end it leaves a hole; no bytes leave the length. -/
def write (file : File) (size : Nat) (takes : Option Nat) : Except IoError (Nat × File) :=
  match takes with
  | none => .error .os
  | some upTo =>
      let written := file.room size upTo
      .ok (written, {
        length := if written = 0 then file.length else max file.length (file.offset + written)
        offset := file.offset + written
        length_le := file.write_le size upTo
        offset_le := file.room_le size upTo })

def target (file : File) : SeekFrom → Int
  | .start offset => offset.toNat
  | .current offset => file.offset + offset.toInt
  | .end offset => file.length + offset.toInt

def seek (file : File) («to» : SeekFrom) (fails : Bool) : Except IoError File :=
  if within : fails = false ∧ 0 ≤ file.target «to» ∧ file.target «to» ≤ maxOffset then
    .ok { file with
      offset := (file.target «to»).toNat
      offset_le := by omega }
  else .error .os

def setLen (file : File) (len : UInt64) (fails : Bool) : Except IoError File :=
  if within : fails = false ∧ len.toNat ≤ maxOffset then
    .ok { file with
      length := len.toNat
      length_le := within.2 }
  else .error .os

end File

structure BoundedFile where
  file : File
  position : UInt64
  limit : UInt64

namespace BoundedFile

def new (file : File) (limit : UInt64) : BoundedFile := ⟨file, 0, limit⟩

def write (self : BoundedFile) (buf : UInt64) (takes : Option Nat) : Except IoError (Nat × BoundedFile) :=
  let «end» := saturatingAdd self.position buf
  if «end» > self.limit then .error (.other s!"media is larger than the {self.limit} bytes reserved for it")
  else do
    let (written, file) ← self.file.write buf.toNat takes
    return (written, { self with file, position := self.position + .ofNat written })

def flush (self : BoundedFile) (fails : Bool) : Except IoError BoundedFile :=
  if fails then .error .os else .ok self

def seek (self : BoundedFile) («to» : SeekFrom) (fails : Bool) : Except IoError (UInt64 × BoundedFile) := do
  let file ← self.file.seek «to» fails
  let position := UInt64.ofNat file.offset
  return (position, { self with file, position })

/-- Not checked against the limit. -/
def truncate (self : BoundedFile) (len : UInt64) (fails : Bool) : Except IoError BoundedFile := do
  return { self with file := ← self.file.setLen len fails }

inductive Call where
  | write (buf : UInt64) (takes : Option Nat)
  | seek («to» : SeekFrom) (fails : Bool)
  | truncate (len : UInt64) (fails : Bool)
  | flush (fails : Bool)

def call (self : BoundedFile) : Call → Except IoError BoundedFile
  | .write buf takes => (self.write buf takes).map Prod.snd
  | .seek «to» fails => (self.seek «to» fails).map Prod.snd
  | .truncate len fails => self.truncate len fails
  | .flush fails => self.flush fails

def step (self : BoundedFile) (c : Call) : Option BoundedFile :=
  match self.call c with
  | .ok self' => some self'
  | .error _ => some self

def machine (limit : UInt64) : Machine BoundedFile Call := ⟨new .empty limit, step⟩

end BoundedFile

end Wamux.Spool
