import Wamux.Runs.Processes
import Wamux.UdsListener.World

namespace Wamux.UdsListener
open Runs Runs.Program

inductive BindError where
  | notASocket (path : String)
  | inUse (path : String)
  | probe (path : String) (source : IoError)
  | groupNotFound (group : String)
  | notAMember (group path : String)
  | io (step path : String) (source : IoError)
  deriving DecidableEq

inductive Probed where
  | absent
  | stale

abbrev Code (α : Type) := Program Reply α

def syscall (op : Op) : Code (Reply op) := ask op

variable (path : String)

def probe : Code (Except BindError Probed) := do
  match ← syscall .symlinkMetadata with
  | .error .notFound => return .ok .absent
  | .error source => return .error (.probe path source)
  | .ok false => return .error (.notASocket path)
  | .ok true =>
    match ← syscall .connect with
    | .ok () => return .error (.inUse path)
    | .error .connectionRefused => return .ok .stale
    | .error source => return .error (.probe path source)

def refuseIfServed : Code (Except BindError Unit) := do return (← probe path).map fun _ => ()

def parseU32 (text : String) : Option UInt32 :=
  let digits := if text.toList.head? = some '+' then text.toList.tail else text.toList
  let number := digits.foldl (fun n digit => 10 * n + (digit.toNat - '0'.toNat)) 0
  if digits ≠ [] ∧ digits.all Char.isDigit ∧ number < UInt32.size then some number.toUInt32 else none

def resolveGroup (group : String) : Code (Except BindError Gid) := do
  match parseU32 group with
  | some number => return .ok number
  | none =>
    match ← syscall (.lookUpGroup group) with
    | .ok (some found) => return .ok found
    | .ok none => return .error (.groupNotFound group)
    | .error errno => return .error (.io "look up group" group errno)

def giveToGroup (gid : Gid) (name : String) : Code (Except BindError Unit) := do
  match ← syscall (.chown gid) with
  | .ok () => return .ok ()
  | .error .permissionDenied => return .error (.notAMember name path)
  | .error source => return .error (.io "chown" path source)

def finish (mode : UInt32) (group : Option (String × Gid)) : Code (Except BindError Unit) := do
  match ← (match group with
    | some (name, gid) => giveToGroup path gid name
    | none => return .ok ()) with
  | .error e => return .error e
  | .ok () =>
    match ← syscall (.chmod mode) with
    | .error source => return .error (.io "chmod" path source)
    | .ok () =>
      match ← syscall .rename with
      | .error source => return .error (.io "rename onto" path source)
      | .ok () => return .ok ()

def bindInStaging (mode : UInt32) (group : Option (String × Gid)) : Code (Except BindError Unit) := do
  let _ ← syscall .removeStaging
  match ← syscall .createStaging with
  | .error source => return .error (.io "create private bind directory for" path source)
  | .ok () =>
    match ← syscall .bindStaged with
    | .error source => return .error (.io "bind" path source)
    | .ok () =>
      match ← finish path mode group with
      | .ok () => return .ok ()
      -- the listener is dropped on the way out
      | .error e =>
        syscall .closeListener
        return .error e

def resolved (group : Option String) : Code (Except BindError (Option (String × Gid))) := do
  match group with
  | none => return .ok none
  | some name => return (← resolveGroup name).map fun gid => some (name, gid)

def removeStale : Probed → Code (Except BindError Unit)
  | .absent => return .ok ()
  | .stale => return (← syscall .removeFile).mapError (.io "remove stale socket" path)

def bind (mode : UInt32) (group : Option String) : Code (Except BindError Unit) := do
  match ← resolved group with
  | .error e => return .error e
  | .ok group =>
    match ← probe path with
    | .error e => return .error e
    | .ok probed =>
      match ← removeStale path probed with
      | .error e => return .error e
      | .ok () =>
        match ← syscall .createParent with
        | .error source => return .error (.io "create parent of" path source)
        | .ok () =>
          let result ← bindInStaging path mode group
          let _ ← syscall .removeStaging
          return result

def unlink : Code Unit := do let _ ← syscall .removeFile

inductive ServeError where
  | checkingTheSocketPath (source : BindError)
  | openingStorage (source : IoError)
  | bindingUnixSocket (source : BindError)
  | serving (source : IoError)
  deriving DecidableEq

def serve (daemon : Daemon) : Code (Except ServeError Unit) := do
  match ← refuseIfServed path with
  | .error e => return .error (.checkingTheSocketPath e)
  | .ok () =>
    match ← syscall .openStore with
    | .error e => return .error (.openingStorage e)
    | .ok () =>
      match ← bind path daemon.socketMode daemon.socketGroup with
      | .error e => return .error (.bindingUnixSocket e)
      | .ok () =>
        match ← syscall .serve with
        | .error e => return .error (.serving e)
        | .ok () =>
          syscall .stopAll
          unlink
          return .ok ()

abbrev System := Processes.State DaemonId World Reply (Except ServeError Unit)

abbrev Event := Processes.Event DaemonId Outcome Outside

/-- The daemons that are started with one socket path, and whatever else touches it. -/
def daemons (daemon : DaemonId → Daemon) (groups : String → Option Gid) :
    Processes DaemonId World Outcome Outside (Except ServeError Unit) Reply where
  initial := {}
  code d := serve path (daemon d)
  perform := perform daemon groups
  start := start
  leave := leave
  outside := World.outside

end Wamux.UdsListener
