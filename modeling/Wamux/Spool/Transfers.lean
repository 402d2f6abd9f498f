import Wamux.Spool.BoundedFile

/-!
# Transfers through the spool

An upload or a download from its first call to the close of its file. The file goes to a blocking
task or to the library while the future that started them keeps the reservation; a future may be
dropped at any await, and what it started runs on with the file.
-/

namespace Wamux.Spool
open Runs

/-- The most the ciphertext can exceed the plaintext by. -/
def ciphertextOverhead : UInt64 := 26

/-- The encryptor and its file: the ciphertext written, and the most that what it was given comes to. -/
structure Stage where
  most : Nat := 0
  size : Nat := 0
  deriving DecidableEq

def Stage.fed (stage : Stage) (bytes : UInt64) : Stage := { stage with most := stage.most + bytes.toNat }

/-- `run_blocking`: the task has the stage, then its result waits for the future. -/
inductive Task where
  | running (stage : Stage)
  | returned (stage : Option Stage)

inductive Runaway where
  | encryptor (stage : Stage)
  | source (len : Nat)
  | writer (writer : BoundedFile)

inductive Transfer where
  /-- `SpooledUpload` between calls; a call that failed took the stage. -/
  | upload (stage : Option Stage) (reservation plaintext : UInt64)
  | push (task : Task) (reservation plaintext : UInt64)
  | finish (task : Task) (reservation : UInt64)
  | stagedUpload (len : Nat) (reservation : UInt64)
  | uploadStaged (len : Nat) (reservation : UInt64)
  | beginDownload (reservation : UInt64)
  | downloadSlot (writer : BoundedFile) (reservation : UInt64)
  | download (writer : BoundedFile) (reservation : UInt64)
  /-- `SpooledDownload` behind its `Arc`: the stream and each read hold it. -/
  | spooledDownload (len : Nat) (reservation : UInt64) (streaming : Bool) (reads : Nat)
  | runaway (holder : Runaway)
  | closed

namespace Transfer

def stageSize : Option Stage → Nat
  | some stage => stage.size
  | none => 0

def taskSize : Task → Nat
  | .running stage => stage.size
  | .returned stage => stageSize stage

def openSize : Transfer → Nat
  | .upload stage _ _ => stageSize stage
  | .push task _ _ | .finish task _ => taskSize task
  | .stagedUpload len _ | .uploadStaged len _ | .spooledDownload len _ _ _ => len
  | .downloadSlot writer _ | .download writer _ => writer.file.length
  | .runaway (.encryptor stage) => stage.size
  | .runaway (.source len) => len
  | .runaway (.writer writer) => writer.file.length
  | .beginDownload _ | .closed => 0

def reservation : Transfer → Option UInt64
  | .upload _ reservation _ | .push _ reservation _ | .finish _ reservation | .stagedUpload _ reservation
  | .uploadStaged _ reservation | .beginDownload reservation | .downloadSlot _ reservation
  | .download _ reservation | .spooledDownload _ reservation _ _ => some reservation
  | .runaway _ | .closed => none

inductive Action where
  | push (chunk : UInt64)
  | finish
  | encrypt (bytes : Nat)
  | taskReturns (ok : Bool)
  | resume
  | uploadStaged
  | created (ok : Bool)
  | downloadToWriter
  | call (call : BoundedFile.Call)
  /-- The library lets go of the file, and its future returns. -/
  | libraryReturns (ok : Bool)
  | readChunk
  | readReturns
  | drop

def uncovered (reservation needed : UInt64) : UInt64 := if reservation ≤ needed then needed - reservation else 0

/-- `SpooledUpload::cover`: the counter and the reservation when the budget grants the shortfall. -/
def cover (budget : SpoolBudget) (held reservation needed : UInt64) : Option (UInt64 × UInt64) :=
  let shortfall := uncovered reservation needed
  (budget.claimed held shortfall).map fun held => (held, reservation + shortfall)

def settled (held reservation : UInt64) : UInt64 × Transfer := (released held reservation, .closed)

def escape (held reservation : UInt64) (holder : Runaway) : UInt64 × Transfer :=
  (released held reservation, .runaway holder)

def pushed (budget : SpoolBudget) (held : UInt64) (stage : Option Stage) (reservation plaintext chunk : UInt64) :
    UInt64 × Transfer :=
  let plaintext := plaintext + chunk
  match cover budget held reservation plaintext with
  | none => (held, .upload stage reservation plaintext)
  | some (held, reservation) => match stage with
      | none => (held, .upload none reservation plaintext)
      | some stage => (held, .push (.running (stage.fed chunk)) reservation plaintext)

def finished (budget : SpoolBudget) (held : UInt64) (stage : Option Stage) (reservation plaintext : UInt64) :
    UInt64 × Transfer :=
  match cover budget held reservation (plaintext + ciphertextOverhead) with
  | none => settled held reservation
  | some (held, reservation) => match stage with
      | none => settled held reservation
      | some stage => (held, .finish (.running (stage.fed ciphertextOverhead)) reservation)

def dropped (held : UInt64) : Transfer → Option (UInt64 × Transfer)
  | .push (.running stage) reservation _ | .finish (.running stage) reservation =>
      some (escape held reservation (.encryptor stage))
  | .uploadStaged len reservation => some (escape held reservation (.source len))
  | .download writer reservation => some (escape held reservation (.writer writer))
  | .spooledDownload len reservation true (reads + 1) => some (held, .spooledDownload len reservation false (reads + 1))
  | .spooledDownload _ reservation true 0 => some (settled held reservation)
  | .spooledDownload _ _ false _ => none
  | .push (.returned _) reservation _ | .finish (.returned _) reservation | .upload _ reservation _
  | .stagedUpload _ reservation | .beginDownload reservation | .downloadSlot _ reservation => some (settled held reservation)
  | .runaway _ | .closed => none

def step (budget : SpoolBudget) (held : UInt64) : Transfer → Action → Option (UInt64 × Transfer)
  | .upload stage reservation plaintext, .push chunk => some (pushed budget held stage reservation plaintext chunk)
  | .upload stage reservation plaintext, .finish => some (finished budget held stage reservation plaintext)
  | .push (.running stage) reservation plaintext, .encrypt bytes =>
      some (held, .push (.running { stage with size := stage.size + bytes }) reservation plaintext)
  | .finish (.running stage) reservation, .encrypt bytes =>
      some (held, .finish (.running { stage with size := stage.size + bytes }) reservation)
  | .runaway (.encryptor stage), .encrypt bytes =>
      some (held, .runaway (.encryptor { stage with size := stage.size + bytes }))
  | .push (.running stage) reservation plaintext, .taskReturns ok =>
      some (held, .push (.returned (if ok then some stage else none)) reservation plaintext)
  | .finish (.running stage) reservation, .taskReturns ok =>
      some (held, .finish (.returned (if ok then some stage else none)) reservation)
  | .runaway (.encryptor _), .taskReturns _ => some (held, .closed)
  | .push (.returned stage) reservation plaintext, .resume => some (held, .upload stage reservation plaintext)
  | .finish (.returned (some stage)) reservation, .resume => some (held, .stagedUpload stage.size reservation)
  | .finish (.returned none) reservation, .resume => some (settled held reservation)
  | .stagedUpload len reservation, .uploadStaged => some (held, .uploadStaged len reservation)
  | .uploadStaged _ reservation, .libraryReturns _ => some (settled held reservation)
  | .beginDownload reservation, .created true =>
      some (held, .downloadSlot (.new .empty reservation) reservation)
  | .beginDownload reservation, .created false => some (settled held reservation)
  | .downloadSlot writer reservation, .downloadToWriter => some (held, .download writer reservation)
  | .download writer reservation, .call call =>
      (writer.step call).map fun writer => (held, .download writer reservation)
  | .runaway (.writer writer), .call call => (writer.step call).map fun writer => (held, .runaway (.writer writer))
  | .download writer reservation, .libraryReturns true =>
      some (held, .spooledDownload writer.file.length reservation true 0)
  | .download _ reservation, .libraryReturns false => some (settled held reservation)
  | .runaway (.source _), .libraryReturns _ | .runaway (.writer _), .libraryReturns _ => some (held, .closed)
  | .spooledDownload len reservation true reads, .readChunk =>
      some (held, .spooledDownload len reservation true (reads + 1))
  | .spooledDownload len reservation streaming (reads + 1), .readReturns =>
      if streaming = false ∧ reads = 0 then some (settled held reservation)
      else some (held, .spooledDownload len reservation streaming reads)
  | transfer, .drop => transfer.dropped held
  | _, _ => none

end Transfer

namespace MediaSpool
open Transfer

structure State where
  held : UInt64 := 0
  transfers : List Transfer := []

def State.inFlight (s : State) : UInt64 := s.held

inductive Event where
  | beginUpload
  | beginDownload (bytes : UInt64)
  | on (id : Nat) (action : Action)

def reserve (budget : SpoolBudget) (s : State) (bytes : UInt64) (transfer : Transfer) : State :=
  match budget.claimed s.held bytes with
  | none => s
  | some held => { held, transfers := s.transfers ++ [transfer] }

def step (budget : SpoolBudget) (s : State) : Event → Option State
  | .beginUpload => some (reserve budget s 0 (.upload (some {}) 0 0))
  | .beginDownload bytes => some (reserve budget s bytes (.beginDownload bytes))
  | .on id action => s.transfers[id]?.bind fun transfer =>
      (transfer.step budget s.held action).map fun (held, transfer) =>
        { held, transfers := s.transfers.set id transfer }

def machine (budget : SpoolBudget) : Machine State Event := ⟨{}, step budget⟩

end MediaSpool

end Wamux.Spool
