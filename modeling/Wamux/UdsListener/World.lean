import Mathlib.Logic.Function.Basic

/-!
# The socket path and the daemons around it

What system calls do to the path, to the private directories beside it and to the sockets of the
daemons. A daemon binds one socket in its life.
-/

namespace Wamux.UdsListener

abbrev Gid := UInt32

inductive IoError where
  | notFound
  | alreadyExists
  | permissionDenied
  | connectionRefused
  | other (text : String)
  deriving DecidableEq

/-- What a daemon is started with; `memberOf` tells which groups its process is in, all of them if it is
privileged, and `none` is the group its socket is made with. -/
structure Daemon where
  pid : Nat
  umask : UInt32
  socketMode : UInt32
  socketGroup : Option String
  memberOf : Option Gid → Bool

/-- `chown` with the greatest number changes nothing. -/
def chowned (gid : Gid) (group : Option Gid) : Option Gid := if gid = 0xFFFFFFFF then group else some gid

/-- `chmod` keeps twelve bits, and the set-group-id bit only from a process of the file's group. -/
def Daemon.chmodded (daemon : Daemon) (mode : UInt32) (group : Option Gid) : UInt32 :=
  if daemon.memberOf group then mode &&& 0o7777 else mode &&& 0o5777

abbrev DaemonId := Nat

/-- A daemon's socket, a socket of another program, or a file that is none. -/
inductive File where
  | socket (owner : DaemonId)
  | foreign
  | other
  deriving DecidableEq

/-- `group` is what `chown` last set, and before it the group the socket was made with. -/
structure Socket where
  mode : UInt32
  group : Option Gid
  listening : Bool

/-- One daemon's part of the world. For the statements, `since` is how many files had been put on the
path when it last began to look there, and `refused` the one of them that then refused its connection. -/
structure Local where
  started : Bool := false
  socket : Option Socket := none
  storeOpen : Bool := false
  since : Nat := 0
  refused : Option Nat := none

/-- `arrivals` are the files that were ever put on the path, `path` the one there now, and `foreign` tells
which sockets of other programs are listened on; a private directory is empty or holds the socket of a
daemon. -/
structure World where
  daemons : DaemonId → Local := fun _ => {}
  live : List DaemonId := []
  staging : Nat → Option (Option DaemonId) := fun _ => none
  arrivals : List File := []
  path : Option Nat := none
  foreign : Nat → Bool := fun _ => false

namespace World

def shown (w : World) : Option File := w.path.bind (w.arrivals[·]?)

def listening (w : World) (d : DaemonId) : Bool := (w.daemons d).socket.any (·.listening)

def answers (w : World) (k : Nat) : Bool := match w.arrivals[k]? with
  | some (.socket owner) => w.listening owner
  | some .foreign => w.foreign k
  | _ => false

def setLocal (w : World) (d : DaemonId) (own : Local) : World := { w with daemons := Function.update w.daemons d own }

def setSocket (w : World) (d : DaemonId) (f : Socket → Socket) : World :=
  w.setLocal d { w.daemons d with socket := (w.daemons d).socket.map f }

def setStaging (w : World) (pid : Nat) (dir : Option (Option DaemonId)) : World :=
  { w with staging := Function.update w.staging pid dir }

def arrive (w : World) (file : File) : World :=
  { w with arrivals := w.arrivals ++ [file], path := some w.arrivals.length }

def close (w : World) (d : DaemonId) : World := w.setSocket d fun socket => { socket with listening := false }

variable {w : World} {d e : DaemonId} {own : Local} {f : Socket → Socket} {pid : Nat} {dir : Option (Option DaemonId)}

@[simp] theorem setLocal_self : (w.setLocal d own).daemons d = own := Function.update_self _ _ _

@[simp] theorem setLocal_ne (ne : e ≠ d) : (w.setLocal d own).daemons e = w.daemons e := Function.update_of_ne ne _ _

@[simp] theorem setSocket_self : (w.setSocket d f).daemons d = { w.daemons d with socket := (w.daemons d).socket.map f } :=
  setLocal_self

@[simp] theorem setSocket_ne (ne : e ≠ d) : (w.setSocket d f).daemons e = w.daemons e := setLocal_ne ne

@[simp] theorem close_ne (ne : e ≠ d) : (w.close d).daemons e = w.daemons e := setLocal_ne ne

@[simp] theorem close_listening : (w.close d).listening d = false := by
  rw [listening, close, setSocket_self]
  cases (w.daemons d).socket <;> rfl

@[simp] theorem setStaging_self : (w.setStaging pid dir).staging pid = dir := Function.update_self _ _ _

@[simp] theorem setLocal_same : w.setLocal d (w.daemons d) = w := by simp only [setLocal, Function.update_eq_self]

@[simp] theorem setStaging_same : w.setStaging pid (w.staging pid) = w := by
  simp only [setStaging, Function.update_eq_self]

end World

inductive Op where
  | symlinkMetadata
  | connect
  | removeFile
  | lookUpGroup (name : String)
  | createParent
  | removeStaging
  | createStaging
  | bindStaged
  | chown (gid : Gid)
  | chmod (mode : UInt32)
  | rename
  | closeListener
  | openStore
  | serve
  | stopAll
  deriving DecidableEq

/-- `symlinkMetadata` tells whether the file is a socket. -/
abbrev Reply : Op → Type
  | .symlinkMetadata => Except IoError Bool
  | .lookUpGroup _ => Except IoError (Option Gid)
  | .closeListener | .stopAll => Unit
  | _ => Except IoError Unit

inductive Outcome where
  | done
  | failed (error : IoError)
  | partly (error : IoError)

variable (daemon : DaemonId → Daemon) (groups : String → Option Gid)

/-- The calls of a daemon; `none` where the operating system does not answer so. -/
def perform (d : DaemonId) : (op : Op) → Outcome → World → Option (Reply op × World)
  | .symlinkMetadata, outcome, w =>
      let w := w.setLocal d { w.daemons d with since := w.arrivals.length, refused := none }
      match outcome, w.shown with
      | .done, none => some (.error .notFound, w)
      | .done, some .other => some (.ok false, w)
      | .done, some _ => some (.ok true, w)
      | .failed e, _ => if e = .notFound then none else some (.error e, w)
      | .partly _, _ => none
  | .connect, .done, w => match w.path with
      | none => some (.error .notFound, w)
      | some k =>
          if w.answers k then some (.ok (), w)
          else some (.error .connectionRefused, w.setLocal d { w.daemons d with refused := some k })
  | .connect, .failed e, w => if e = .connectionRefused then none else some (.error e, w)
  | .removeFile, .done, w => match w.path with
      | none => some (.error .notFound, w)
      | some _ => some (.ok (), { w with path := none })
  | .removeFile, .failed e, w => some (.error e, w)
  | .lookUpGroup name, .done, w => some (.ok (groups name), w)
  | .lookUpGroup _, .failed e, w => some (.error e, w)
  | .createParent, .done, w => some (.ok (), w)
  | .createParent, .failed e, w => some (.error e, w)
  | .removeStaging, .done, w => match w.staging (daemon d).pid with
      | none => some (.error .notFound, w)
      | some _ => some (.ok (), w.setStaging (daemon d).pid none)
  | .removeStaging, .failed e, w => some (.error e, w)
  | .removeStaging, .partly e, w => match w.staging (daemon d).pid with
      | some (some _) => some (.error e, w.setStaging (daemon d).pid (some none))
      | _ => none
  | .createStaging, .done, w => match w.staging (daemon d).pid with
      | none => some (.ok (), w.setStaging (daemon d).pid (some none))
      | some _ => some (.error .alreadyExists, w)
  | .createStaging, .failed e, w => some (.error e, w)
  -- `bind` and `listen`: the first may go through alone
  | .bindStaged, outcome, w => match outcome, w.staging (daemon d).pid, (w.daemons d).socket with
      | .done, some none, none =>
          some (.ok (), (w.setStaging (daemon d).pid (some (some d))).setLocal d
            { w.daemons d with socket := some ⟨0o777 &&& ~~~(daemon d).umask, none, true⟩ })
      | .partly e, some none, none =>
          some (.error e, (w.setStaging (daemon d).pid (some (some d))).setLocal d
            { w.daemons d with socket := some ⟨0o777 &&& ~~~(daemon d).umask, none, false⟩ })
      | .failed e, _, _ => some (.error e, w)
      | _, _, _ => none
  | .chown gid, .done, w => match w.staging (daemon d).pid with
      | some (some owner) => some (.ok (), w.setSocket owner fun socket => { socket with group := chowned gid socket.group })
      | _ => some (.error .notFound, w)
  | .chown _, .failed e, w => some (.error e, w)
  | .chmod mode, .done, w => match w.staging (daemon d).pid with
      | some (some owner) => some (.ok (), w.setSocket owner fun socket =>
          { socket with mode := (daemon d).chmodded mode socket.group })
      | _ => some (.error .notFound, w)
  | .chmod _, .failed e, w => some (.error e, w)
  | .rename, .done, w => match w.staging (daemon d).pid with
      | some (some owner) => some (.ok (), (w.setStaging (daemon d).pid (some none)).arrive (.socket owner))
      | _ => some (.error .notFound, w)
  | .rename, .failed e, w => some (.error e, w)
  | .closeListener, .done, w => some ((), w.close d)
  | .openStore, .done, w => some (.ok (), w.setLocal d { w.daemons d with storeOpen := true })
  | .openStore, .failed e, w => some (.error e, w)
  | .openStore, .partly e, w => some (.error e, w.setLocal d { w.daemons d with storeOpen := true })
  -- answers once the daemon is told to stop or fails; the listener goes with it
  | .serve, .done, w => some (.ok (), w.close d)
  | .serve, .failed e, w => some (.error e, w.close d)
  | .stopAll, .done, w => some ((), w)
  | _, _, _ => none

def start (d : DaemonId) (w : World) : Option World :=
  if (w.daemons d).started then none
  else some { w.setLocal d { w.daemons d with started := true, since := w.arrivals.length } with live := d :: w.live }

def leave (d : DaemonId) (w : World) : World :=
  let closed := w.close d
  { closed.setLocal d { closed.daemons d with storeOpen := false } with live := w.live.erase d }

section
variable {w w' : World} {d e : DaemonId}

structure Started (d : DaemonId) (w w' : World) : Prop where
  idle : (w.daemons d).started = false
  others : ∀ e, e ≠ d → w'.daemons e = w.daemons e
  mine : w'.daemons d = { w.daemons d with started := true, since := w.arrivals.length }
  live : w'.live = d :: w.live
  arrivals : w'.arrivals = w.arrivals
  path : w'.path = w.path
  staging : w'.staging = w.staging
  foreign : w'.foreign = w.foreign

theorem start_spec (begun : start d w = some w') : Started d w w' := by
  rw [start] at begun
  split at begun
  · cases begun
  · rename_i idle
    cases begun
    exact ⟨Bool.not_eq_true _ ▸ idle, fun e ne => World.setLocal_ne ne, World.setLocal_self, rfl, rfl, rfl, rfl, rfl⟩

theorem leave_ne (ne : e ≠ d) : (leave d w).daemons e = w.daemons e := (World.setLocal_ne ne).trans (World.close_ne ne)

theorem leave_self : (leave d w).daemons d = { w.daemons d with
    socket := (w.daemons d).socket.map fun socket => { socket with listening := false }, storeOpen := false } := by
  simp only [leave, World.close, World.setLocal_self, World.setSocket_self]

theorem leave_listening : (leave d w).listening d = false := by
  rw [World.listening, leave_self]
  cases (w.daemons d).socket <;> rfl

end

inductive Outside where
  | remove
  | place
  | placeSocket (listening : Bool)
  | listen (k : Nat) (listening : Bool)

def Outside.touches : Outside → Bool
  | .listen _ _ => false
  | _ => true

def World.outside : Outside → World → World
  | .remove, w => { w with path := none }
  | .place, w => w.arrive .other
  | .placeSocket listening, w =>
      { w.arrive .foreign with foreign := Function.update w.foreign w.arrivals.length listening }
  | .listen k listening, w => { w with foreign := Function.update w.foreign k listening }

end Wamux.UdsListener
