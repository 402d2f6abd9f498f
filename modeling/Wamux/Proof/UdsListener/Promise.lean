import Mathlib.Data.List.Nodup
import Wamux.UdsListener.Daemon

namespace Wamux.Proof.UdsListener
open Wamux.UdsListener
open Runs

variable (daemon : DaemonId → Daemon) (groups : String → Option Gid)

def resolves (name : String) : Option Gid := (parseU32 name).or (groups name)

def HasGroup (group : Option Gid) : Option String → Prop
  | none => group = none
  | some name => ∃ gid, resolves groups name = some gid ∧ group = chowned gid none

def Final (d : DaemonId) (socket : Socket) : Prop :=
  socket.mode = (daemon d).chmodded (daemon d).socketMode socket.group ∧ HasGroup groups socket.group (daemon d).socketGroup

/-- A daemon's socket that nobody listens on, or another program's that nobody listened on when the daemon
looked. -/
def Dead (d : DaemonId) (w : World) (k : Nat) : Prop :=
  (∃ owner, w.arrivals[k]? = some (.socket owner) ∧ w.listening owner = false) ∨
    w.arrivals[k]? = some .foreign ∧ (w.daemons d).refused = some k

def Serving (w : World) (d : DaemonId) : Prop := .socket d ∈ w.arrivals ∧ w.listening d = true

def IsSocket (w : World) (k : Nat) : Prop := ∃ file, w.arrivals[k]? = some file ∧ file ≠ .other

/-- What is on the path came there after the daemon began to look, or is as it saw it. -/
def Since (d : DaemonId) (seen : World → Nat → Prop) (w : World) : Prop :=
  ∀ k, w.path = some k → (w.daemons d).since ≤ k ∨ seen w k

abbrev Looked (d : DaemonId) : World → Prop := Since d (Dead d)

structure Inv (w : World) : Prop where
  path : ∀ k, w.path = some k → k < w.arrivals.length
  final : ∀ d, .socket d ∈ w.arrivals → ∃ socket, (w.daemons d).socket = some socket ∧ Final daemon groups d socket
  once : ∀ (d : DaemonId) (j k : Nat), w.arrivals[j]? = some (.socket d) → w.arrivals[k]? = some (.socket d) → j = k
  staged : ∀ pid d, w.staging pid = some (some d) → pid = (daemon d).pid ∧ .socket d ∉ w.arrivals
  distinct : (w.live.map fun d => (daemon d).pid).Nodup
  started : ∀ d, (w.daemons d).started = false → w.daemons d = {} ∧ d ∉ w.live
  listening : ∀ d, w.listening d = true → d ∈ w.live
  storeOpen : ∀ d, (w.daemons d).storeOpen = true → d ∈ w.live
  since : ∀ d, (w.daemons d).since ≤ w.arrivals.length

def Apart (d : DaemonId) (w : World) : Prop := (daemon d).pid ∉ w.live.map fun other => (daemon other).pid

instance (d : DaemonId) (w : World) : Decidable (Apart daemon d w) := inferInstanceAs (Decidable ¬_)

inductive Path (d : DaemonId) (w w' : World) : Prop where
  | same (path : w'.path = w.path) (arrivals : w'.arrivals = w.arrivals) (serving : Serving w' d → Serving w d)
  | removed (looked : Looked d w) (quiet : ¬Serving w d) (live : d ∈ w.live) (path : w'.path = none)
      (arrivals : w'.arrivals = w.arrivals) (serving : ¬Serving w' d)
  | renamed (looked : Looked d w) (quiet : ¬Serving w d) (live : d ∈ w.live) (path : w'.path = some w.arrivals.length)
      (arrivals : w'.arrivals = w.arrivals ++ [.socket d])

structure Changes (d : DaemonId) (label : Label Op) (w w' : World) : Prop where
  others : ∀ e, e ≠ d → w'.daemons e = w.daemons e
  live : ∀ e, e ≠ d → (e ∈ w'.live ↔ e ∈ w.live)
  staging : ∀ e ∈ w.live, e ≠ d → w'.staging (daemon e).pid = w.staging (daemon e).pid
  alive : ∀ op, label = .call op → d ∈ w.live ∧ d ∈ w'.live
  path : Path d w w'
  closed : (w.daemons d).socket.isSome → w'.listening d = true → w.listening d = true
  since : (w.daemons d).since ≤ (w'.daemons d).since
  opens : (w'.daemons d).storeOpen = true → (w.daemons d).storeOpen = true ∨ Looked d w ∧ ¬Serving w d ∧ d ∈ w.live
  stops : Serving w d → d ∈ w'.live → label ≠ .call .serve → Serving w' d
  joins : d ∉ w.live → d ∈ w'.live → label = .start ∧ (w'.daemons d).since = w.arrivals.length

def promises : Promises DaemonId World Op Outside where
  invariant := Inv daemon groups
  changes := Changes daemon
  drifts event w w' := w' = w.outside event

variable {daemon groups} {w w' : World} {d : DaemonId}

/-! ## The world -/

theorem pid_ne (inv : Inv daemon groups w) {e : DaemonId} (one : d ∈ w.live) (other : e ∈ w.live) (ne : e ≠ d) :
    (daemon e).pid ≠ (daemon d).pid :=
  fun same => ne (List.inj_on_of_nodup_map inv.distinct other one same)

theorem Dead.keep {k : Nat} (dead : Dead d w k) (arrivals : w'.arrivals = w.arrivals)
    (refused : (w'.daemons d).refused = (w.daemons d).refused)
    (closed : ∀ e, .socket e ∈ w.arrivals → w'.listening e = true → w.listening e = true) : Dead d w' k := by
  rcases dead with ⟨owner, there, silent⟩ | ⟨there, looked⟩
  · refine .inl ⟨owner, arrivals ▸ there, ?_⟩
    rw [Bool.eq_false_iff] at silent ⊢
    exact fun loud => silent (closed owner (List.mem_of_getElem? there) loud)
  · exact .inr ⟨arrivals ▸ there, refused.trans looked⟩

/-! ## What the others leave alone -/

theorem listening_of_daemons (same : w'.daemons d = w.daemons d) : w'.listening d = w.listening d := by
  rw [World.listening, World.listening, same]

theorem Changes.closed_all {label : Label Op} (changes : Changes daemon d label w w') (inv : Inv daemon groups w) (e : DaemonId)
    (arrived : .socket e ∈ w.arrivals) (loud : w'.listening e = true) : w.listening e = true := by
  by_cases same : e = d
  · subst same
    obtain ⟨socket, held, -⟩ := inv.final e arrived
    exact changes.closed (by rw [held]; rfl) loud
  · rwa [listening_of_daemons (changes.others e same)] at loud

def At (daemon : DaemonId → Daemon) (d : DaemonId) (own : Option Socket → Prop) (dir : Option (Option DaemonId) → Prop)
    (w : World) : Prop :=
  d ∈ w.live ∧ own (w.daemons d).socket ∧ dir (w.staging (daemon d).pid)

theorem stable_at (own : Option Socket → Prop) (dir : Option (Option DaemonId) → Prop) :
    (promises daemon groups).Stable d (At daemon d own dir) := by
  rintro w w' ⟨_, _, ⟨e, label, ne, changes⟩ | ⟨event, rfl⟩⟩ ⟨live, socket, staging⟩
  · refine ⟨(changes.live d (Ne.symm ne)).2 live, ?_, ?_⟩
    · rwa [changes.others d (Ne.symm ne)]
    · rwa [changes.staging d live (Ne.symm ne)]
  · cases event <;> exact ⟨live, socket, staging⟩

theorem stable_since {seen : World → Nat → Prop}
    (kept : ∀ w w' k, Inv daemon groups w → w'.arrivals = w.arrivals → w'.daemons d = w.daemons d →
      (∀ e, .socket e ∈ w.arrivals → w'.listening e = true → w.listening e = true) → seen w k → seen w' k) :
    (promises daemon groups).Stable d (Since d seen) := by
  rintro w w' ⟨inv, _, ⟨e, label, ne, changes⟩ | ⟨event, rfl⟩⟩ looked k shown
  · rw [changes.others d (Ne.symm ne)]
    cases changes.path with
    | same path arrivals serving =>
        exact (looked k (path ▸ shown)).imp_right
          (kept w w' k inv arrivals (changes.others d (Ne.symm ne)) (changes.closed_all inv))
    | removed _ _ _ path =>
        rw [path] at shown
        cases shown
    | renamed _ _ _ path =>
        rw [path] at shown
        cases shown
        exact .inl (inv.since d)
  · cases event with
    | remove => cases shown
    | place | placeSocket =>
        cases shown
        exact .inl (inv.since d)
    | listen => exact (looked k shown).imp_right (kept w _ k inv rfl rfl fun _ _ noisy => noisy)

theorem stable_looked : (promises daemon groups).Stable d (Looked d) :=
  stable_since fun _ _ _ _ arrivals same closed dead => dead.keep arrivals (congrArg Local.refused same) closed

theorem stable_sighted : (promises daemon groups).Stable d (Since d IsSocket) := by
  refine stable_since ?_
  intro w w' k _ arrivals _ _ sighted
  rwa [IsSocket, arrivals]

end Wamux.Proof.UdsListener
