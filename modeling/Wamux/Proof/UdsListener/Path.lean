import Wamux.Proof.UdsListener.Serve

namespace Wamux.Proof.UdsListener
open Wamux.UdsListener
open Runs

variable {path : String} {daemon : DaemonId → Daemon} {groups : String → Option Gid} {d : DaemonId}
variable {s s' : System} {e : Event}

abbrev DistinctPids (daemon : DaemonId → Daemon) : System → Event → Prop := Processes.Joins (Apart daemon)

/-- Whatever the daemons do and wherever they die, a daemon's socket shows at the path with the mode
and the group that daemon was started with, and with no other. -/
theorem shows_final (reaches : (daemons path daemon groups).machine.Reaches (DistinctPids daemon) s)
    (shown : s.world.shown = some (.socket d)) :
    ∃ socket, (s.world.daemons d).socket = some socket ∧
      socket.mode = (daemon d).chmodded (daemon d).socketMode socket.group ∧
      match (daemon d).socketGroup with
      | none => socket.group = none
      | some name => ∃ gid, (parseU32 name).or (groups name) = some gid ∧ socket.group = chowned gid none := by
  have inv : Inv daemon groups s.world := (Processes.kept_of_reaches (daemons_sound path daemon groups) reaches).1
  obtain ⟨k, _, there⟩ := Option.bind_eq_some_iff.1 shown
  obtain ⟨socket, held, mode, group⟩ := inv.final d (List.mem_of_getElem? there)
  refine ⟨socket, held, mode, ?_⟩
  cases chosen : (daemon d).socketGroup with
  | none => rwa [chosen] at group
  | some name => rwa [chosen] at group

def two : DaemonId → Daemon := fun d => ⟨d, 0o77, 0o660, if d = 1 then none else some "5", fun _ => true⟩

abbrev twoDaemons : Processes DaemonId World Outcome Outside (Except ServeError Unit) Reply :=
  daemons "/run/wamux.sock" two fun _ => none

def distinctPids (s : System) : Event → Bool
  | .start d => decide (Apart two d s.world)
  | _ => true

theorem distinctPids_sound (s : System) (e : Event) (checked : distinctPids s e = true) : DistinctPids two s e := by
  cases e with
  | start d => exact of_decide_eq_true (p := Apart two d s.world) checked
  | _ => trivial

def goes (d : DaemonId) (n : Nat) : List Event := List.replicate n (.call d .done)

def died : List Event := .start 1 :: goes 1 10 ++ [.kill 1, .start 2] ++ goes 2 5

theorem shows_final_died : ∃ s : System, twoDaemons.machine.Reaches (DistinctPids two) s ∧
    ∃ socket, (s.world.daemons 1).socket = some socket ∧ socket.mode = 0o660 ∧ socket.group = none := by
  obtain ⟨s, reaches, passes⟩ := Machine.reaches_of_replay (m := twoDaemons.machine) distinctPids_sound
    (fun s => decide (s.world.shown = some (.socket 1))) died (by decide +kernel)
  exact ⟨s, reaches, shows_final reaches (of_decide_eq_true passes)⟩

def stepOf : Event → Option DaemonId
  | .start d | .call d _ | .exit d | .kill d => some d
  | .outside _ => none

theorem changes_of_step (reaches : (daemons path daemon groups).machine.Reaches (DistinctPids daemon) s)
    (apart : DistinctPids daemon s e) (moved : (daemons path daemon groups).machine.step s e = some s')
    (by' : stepOf e = some d) : ∃ label, Changes daemon d label s.world s'.world := by
  have kept := Processes.kept_of_reaches (daemons_sound path daemon groups) reaches
  have permits := (kept.step (daemons_sound path daemon groups) apart moved).2
  cases e with
  | start p =>
      cases by'
      exact ⟨_, permits⟩
  | call p choice =>
      cases by'
      obtain ⟨op, _, _, changes⟩ := permits
      exact ⟨_, changes⟩
  | exit p =>
      cases by'
      exact ⟨_, permits⟩
  | kill p =>
      cases by'
      exact ⟨_, permits⟩
  | outside event => cases by'

/-- What a daemon takes off the path, a socket that is served and a file of another program among
it, came there after the daemon began to look; all else is a daemon's socket that nobody listens on, or
another program's that refused the daemon when it looked. -/
theorem takes_only_unseen (reaches : (daemons path daemon groups).machine.Reaches (DistinctPids daemon) s)
    (apart : DistinctPids daemon s e) (moved : (daemons path daemon groups).machine.step s e = some s')
    (by' : stepOf e = some d) {k : Nat} (was : s.world.path = some k) (taken : s'.world.path ≠ some k) :
    (s.world.daemons d).since ≤ k ∨
    (∃ owner, s.world.arrivals[k]? = some (.socket owner) ∧ s.world.listening owner = false) ∨
    s.world.arrivals[k]? = some .foreign ∧ (s.world.daemons d).refused = some k := by
  obtain ⟨label, changes⟩ := changes_of_step reaches apart moved by'
  cases changes.path with
  | same path => exact absurd (path.trans was) taken
  | removed looked => exact looked k was
  | renamed looked => exact looked k was

theorem takes_only_unseen_died : ∃ s : System, twoDaemons.machine.Reaches (DistinctPids two) s ∧ s.world.path = some 0 ∧
    ((s.world.daemons 2).since ≤ 0 ∨
      (∃ owner, s.world.arrivals[0]? = some (.socket owner) ∧ s.world.listening owner = false) ∨
      s.world.arrivals[0]? = some .foreign ∧ (s.world.daemons 2).refused = some 0) := by
  obtain ⟨s, reaches, passes⟩ := Machine.reaches_of_replay (m := twoDaemons.machine) distinctPids_sound
    (fun s => decide (s.world.path = some 0) && (twoDaemons.machine.step s (.call 2 .done)).any fun s' => s'.world.path.isNone)
    died (by decide +kernel)
  rw [Bool.and_eq_true, Option.any_eq_true_iff_get] at passes
  obtain ⟨at', moves, taken⟩ := passes
  have apart : DistinctPids two s (.call 2 .done) := trivial
  refine ⟨s, reaches, of_decide_eq_true at', ?_⟩
  refine takes_only_unseen reaches apart (Option.eq_some_of_isSome moves) rfl (of_decide_eq_true at') ?_
  rw [Option.isNone_iff_eq_none.1 taken]
  rintro ⟨⟩

end Wamux.Proof.UdsListener
