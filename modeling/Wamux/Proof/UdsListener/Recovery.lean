import Wamux.Proof.UdsListener.Path
import Wamux.Proof.UdsListener.Sane

namespace Wamux.Proof.UdsListener
open Wamux.UdsListener
open Runs
open Runs.Processes (Goes)

variable {path : String} {daemon : DaemonId → Daemon} {groups : String → Option Gid} {w w' : World} {d : DaemonId}

abbrev GoesTo {α : Type} (path : String) (daemon : DaemonId → Daemon) (groups : String → Option Gid) (d : DaemonId)
    (code : Code α) (w : World) (code' : Code α) (w' : World) : Prop :=
  Goes (daemons path daemon groups) d .done code' w' code w

structure Silent (w : World) (d : DaemonId) : Prop where
  unbound : (w.daemons d).socket = none
  file : ∀ k, w.path = some k → IsSocket w k ∧ w.answers k = false

theorem Silent.setLocal (silent : Silent w d) (own : Local) (socket : own.socket = none) : Silent (w.setLocal d own) d := by
  refine ⟨by rw [World.setLocal_self, socket], fun k at' => ⟨(silent.file k at').1, ?_⟩⟩
  have same : (w.setLocal d own).answers k = w.answers k := by
    simp only [World.answers, listening_setLocal own (socket.trans silent.unbound.symm)]
    rfl
  exact same.trans (silent.file k at').2

variable (path daemon groups) in
theorem goes_probe (silent : Silent w d) : ∃ probed w', Silent w' d ∧ (probed = .stale → w'.path.isSome) ∧
    GoesTo path daemon groups d (probe path) w (.done (.ok probed)) w' := by
  have after := silent.setLocal { w.daemons d with since := w.arrivals.length, refused := none } silent.unbound
  generalize looks : w.setLocal d { w.daemons d with since := w.arrivals.length, refused := none } = w' at after
  cases at' : w'.path with
  | none =>
      have absent : w'.shown = none := by rw [World.shown, at']; rfl
      have looked : perform daemon groups d .symlinkMetadata .done w = some (.error .notFound, w') := by
        unfold perform
        simp only [looks, absent]
      exact ⟨.absent, w', after, by rintro ⟨⟩, .call looked .here⟩
  | some k =>
      obtain ⟨⟨file, there, ne⟩, silent'⟩ := after.file k at'
      have shown : w'.shown = some file := by rw [World.shown, at', Option.bind_some, there]
      have looked : perform daemon groups d .symlinkMetadata .done w = some (.ok true, w') := by
        unfold perform
        cases file with
        | other => exact absurd rfl ne
        | _ => simp only [looks, shown]
      have refused : perform daemon groups d .connect .done w' =
          some (.error .connectionRefused, w'.setLocal d { w'.daemons d with refused := some k }) := by
        unfold perform
        simp only [at', silent', Bool.false_eq_true, if_false]
      refine ⟨.stale, _, after.setLocal { w'.daemons d with refused := some k } after.unbound, fun _ => ?_,
        .call looked (.call refused .here)⟩
      exact Option.isSome_iff_exists.2 ⟨k, at'⟩

variable (path daemon groups d w) in
theorem goes_resolved (socketGroup : Option String)
    (known : ∀ name, socketGroup = some name → ((parseU32 name).or (groups name)).isSome) :
    ∃ group, GoesTo path daemon groups d (resolved socketGroup) w (.done (.ok group)) w := by
  cases socketGroup with
  | none => exact ⟨none, .here⟩
  | some name =>
      suffices ∃ gid, GoesTo path daemon groups d (resolveGroup name) w (.done (.ok gid)) w by
        obtain ⟨gid, goes⟩ := this
        exact ⟨some (name, gid), goes.bind .here⟩
      have found := known name rfl
      rw [resolveGroup]
      cases parsed : parseU32 name with
      | some number => exact ⟨number, .here⟩
      | none =>
          rw [parsed, Option.none_or] at found
          obtain ⟨gid, held⟩ := Option.isSome_iff_exists.1 found
          have looked : perform daemon groups d (.lookUpGroup name) .done w = some (.ok (some gid), w) := by
            unfold perform
            simp only [held]
          exact ⟨gid, .call looked .here⟩

variable (path daemon groups) in
theorem goes_removeStale {probed : Probed} (silent : Silent w d) (found : probed = .stale → w.path.isSome) : ∃ w', Silent w' d ∧
    GoesTo path daemon groups d (removeStale path probed) w (.done (.ok ())) w' := by
  cases probed with
  | absent => exact ⟨w, silent, .here⟩
  | stale =>
      obtain ⟨k, at'⟩ := Option.isSome_iff_exists.1 (found rfl)
      have removed : perform daemon groups d .removeFile .done w = some (.ok (), { w with path := none }) := by
        unfold perform
        simp only [at']
      exact ⟨{ w with path := none }, ⟨silent.unbound, by rintro k ⟨⟩⟩, .call removed .here⟩

def Bound (daemon : DaemonId → Daemon) (w : World) (d : DaemonId) : Prop :=
  w.staging (daemon d).pid = some (some d) ∧ w.listening d = true

def Reachable (w : World) (d : DaemonId) : Prop := w.shown = some (.socket d) ∧ w.listening d = true

theorem Bound.setSocket (bound : Bound daemon w d) (f : Socket → Socket)
    (same : ∀ socket, (f socket).listening = socket.listening) : Bound daemon (w.setSocket d f) d := by
  refine ⟨bound.1, ?_⟩
  have noisy := bound.2
  rw [World.listening] at noisy ⊢
  rw [World.setSocket_self]
  cases held : (w.daemons d).socket with
  | none =>
      rw [held] at noisy
      cases noisy
  | some socket =>
      rw [held] at noisy
      exact (same socket).trans noisy

theorem goes_given {group : Option (String × Gid)} (bound : Bound daemon w d) : ∃ w', Bound daemon w' d ∧
    GoesTo path daemon groups d (match group with
      | some (name, gid) => giveToGroup path gid name
      | none => return .ok ()) w (.done (.ok ())) w' := by
  match group with
  | none => exact ⟨w, bound, .here⟩
  | some (name, gid) =>
      have given : perform daemon groups d (.chown gid) .done w =
          some (.ok (), w.setSocket d fun socket => { socket with group := chowned gid socket.group }) := by
        unfold perform
        simp only [bound.1]
      exact ⟨_, bound.setSocket (fun socket => { socket with group := chowned gid socket.group }) fun _ => rfl,
        .call given .here⟩

variable (path groups) in
theorem goes_finish (mode : UInt32) (group : Option (String × Gid)) (bound : Bound daemon w d) : ∃ w', Reachable w' d ∧
    GoesTo path daemon groups d (finish path mode group) w (.done (.ok ())) w' := by
  obtain ⟨middle, bound, given⟩ := goes_given bound
  let change (socket : Socket) : Socket := { socket with mode := (daemon d).chmodded mode socket.group }
  have changed : perform daemon groups d (.chmod mode) .done middle = some (.ok (), middle.setSocket d change) := by
    unfold perform
    simp only [bound.1, change]
  have bound := bound.setSocket change fun _ => rfl
  generalize middle.setSocket d change = ready at changed bound
  have renamed : perform daemon groups d .rename .done ready =
      some (.ok (), (ready.setStaging (daemon d).pid (some none)).arrive (.socket d)) := by
    unfold perform
    simp only [bound.1]
  refine ⟨(ready.setStaging (daemon d).pid (some none)).arrive (.socket d), ⟨?_, bound.2⟩,
    given.bind (.call changed (.call renamed .here))⟩
  simp [World.shown, World.arrive]

theorem goes_removeStaging {α : Type} {code' : Code α} {next : Reply .removeStaging → Code α}
    (rest : ∀ answer, GoesTo path daemon groups d (next answer) (w.setStaging (daemon d).pid none) code' w') :
    GoesTo path daemon groups d (syscall .removeStaging >>= next) w code' w' := by
  cases dir : w.staging (daemon d).pid with
  | none =>
      have absent : perform daemon groups d .removeStaging .done w =
          some (.error .notFound, w.setStaging (daemon d).pid none) := by
        rw [← dir, World.setStaging_same]
        unfold perform
        simp only [dir]
      exact .call absent (rest _)
  | some held =>
      have removed : perform daemon groups d .removeStaging .done w = some (.ok (), w.setStaging (daemon d).pid none) := by
        unfold perform
        simp only [dir]
      exact .call removed (rest _)

variable (path daemon groups) in
theorem goes_bindInStaging (mode : UInt32) (group : Option (String × Gid)) (silent : Silent w d) : ∃ w', Reachable w' d ∧
    GoesTo path daemon groups d (bindInStaging path mode group) w (.done (.ok ())) w' := by
  have created : perform daemon groups d .createStaging .done (w.setStaging (daemon d).pid none) =
      some (.ok (), (w.setStaging (daemon d).pid none).setStaging (daemon d).pid (some none)) := by
    unfold perform
    simp only [World.setStaging_self]
  have empty : ((w.setStaging (daemon d).pid none).setStaging (daemon d).pid (some none)).staging (daemon d).pid = some none :=
    World.setStaging_self
  have unbound : (((w.setStaging (daemon d).pid none).setStaging (daemon d).pid (some none)).daemons d).socket = none :=
    silent.unbound
  generalize (w.setStaging (daemon d).pid none).setStaging (daemon d).pid (some none) = ready at created empty unbound
  let socket : Socket := ⟨0o777 &&& ~~~(daemon d).umask, none, true⟩
  let listens := (ready.setStaging (daemon d).pid (some (some d))).setLocal d { ready.daemons d with socket := some socket }
  have binds : perform daemon groups d .bindStaged .done ready = some (.ok (), listens) := by
    unfold perform
    simp only [empty, unbound, listens, socket]
  have bound : Bound daemon listens d := by
    refine ⟨World.setStaging_self, ?_⟩
    rw [World.listening, World.setLocal_self]
    rfl
  obtain ⟨w', reachable, finished⟩ := goes_finish path groups mode group bound
  refine ⟨w', reachable, goes_removeStaging fun _ => .call created (.call binds (finished.bind .here))⟩

variable (path) in
theorem goes_bind (silent : Silent w d)
    (known : ∀ name, (daemon d).socketGroup = some name → ((parseU32 name).or (groups name)).isSome) : ∃ w', Reachable w' d ∧
    GoesTo path daemon groups d (bind path (daemon d).socketMode (daemon d).socketGroup) w (.done (.ok ())) w' := by
  obtain ⟨group, resolves⟩ := goes_resolved path daemon groups w d _ known
  obtain ⟨probed, looked, silent, found, probes⟩ := goes_probe path daemon groups silent
  obtain ⟨cleared, silent, removes⟩ := goes_removeStale path daemon groups silent found
  obtain ⟨bound, reachable, binds⟩ := goes_bindInStaging path daemon groups (daemon d).socketMode group silent
  have parent : perform daemon groups d .createParent .done cleared = some (.ok (), cleared) := rfl
  refine ⟨bound.setStaging (daemon d).pid none, reachable, ?_⟩
  refine resolves.bind (probes.bind (removes.bind (.call parent (binds.bind ?_))))
  exact goes_removeStaging fun _ => .here

variable (path) in
theorem goes_serve (silent : Silent w d)
    (known : ∀ name, (daemon d).socketGroup = some name → ((parseU32 name).or (groups name)).isSome) :
    ∃ next w', Reachable w' d ∧ GoesTo path daemon groups d (serve path (daemon d)) w (.call .serve next) w' := by
  obtain ⟨probed, looked, silent, -, probes⟩ := goes_probe path daemon groups silent
  have opens : perform daemon groups d .openStore .done looked =
      some (.ok (), looked.setLocal d { looked.daemons d with storeOpen := true }) := rfl
  obtain ⟨w', reachable, binds⟩ := goes_bind path (silent.setLocal { looked.daemons d with storeOpen := true } silent.unbound) known
  have refuses : GoesTo path daemon groups d (refuseIfServed path) w (.done (.ok ())) looked := probes.bind .here
  exact ⟨_, w', reachable, refuses.bind (.call opens (binds.bind .here))⟩

theorem silent_of_start (sane : Sane w) (started : Started d w w') (alone : w.live = []) (file : w.shown ≠ some .other)
    (foreign : w.shown = some .foreign → ∀ k, w.path = some k → w.foreign k = false) : Silent w' d := by
  refine ⟨?_, fun k at' => ?_⟩
  · rw [started.mine]
    exact sane.fresh d started.idle
  rw [started.path] at at'
  rw [World.shown, at', Option.bind_some] at file foreign
  obtain ⟨shown, there⟩ : ∃ shown, w.arrivals[k]? = some shown := ⟨_, List.getElem?_eq_getElem (sane.path k at')⟩
  refine ⟨⟨shown, started.arrivals ▸ there, ?_⟩, ?_⟩
  · rintro rfl
    exact file there
  rw [World.answers, started.arrivals]
  split
  · rename_i owner there
    have silent : w.listening owner = false := by
      rw [Bool.eq_false_iff]
      intro noisy
      have live := sane.listening owner noisy
      rw [alone] at live
      cases live
    by_cases same : owner = d
    · rw [same, World.listening, started.mine, sane.fresh d started.idle]
      rfl
    · rwa [listening_of_daemons (started.others owner same)]
  · rename_i there
    rw [started.foreign]
    exact foreign there k rfl
  · rfl

/-- A daemon that starts where no other lives, and no file and no live socket of another program is in the
way, comes to serve by its own calls, if they go through: whatever died before it, and wherever, is no
obstacle. -/
theorem serves_alone {s s' : System} (reaches : (daemons path daemon groups).machine.Reaches Machine.Free s)
    (started : (daemons path daemon groups).machine.step s (.start d) = some s') (alone : s.world.live = [])
    (file : s.world.shown ≠ some .other)
    (foreign : s.world.shown = some .foreign → ∀ k, s.world.path = some k → s.world.foreign k = false)
    (known : ∀ name, (daemon d).socketGroup = some name → ((parseU32 name).or (groups name)).isSome) :
    ∃ served next, (daemons path daemon groups).machine.Leads (fun _ e => e = .call d .done) s' served ∧
      served.process d = .running (.call .serve next) ∧ served.world.shown = some (.socket d) ∧
      served.world.listening d = true := by
  simp only [Processes.machine, Processes.step] at started
  split at started
  · obtain ⟨world, begun, rfl⟩ := Option.map_eq_some_iff.1 started
    have silent := silent_of_start (sane_of_reaches reaches) (start_spec begun) alone file foreign
    obtain ⟨next, w', reachable, goes⟩ := goes_serve path silent known
    have running : (s.set d (.running (serve path (daemon d))) world).process d = .running (serve path (daemon d)) :=
      Function.update_self _ _ _
    obtain ⟨served, leads, at', rfl⟩ := goes.leads running rfl
    exact ⟨served, next, leads, at', reachable⟩
  · cases started

theorem serves_alone_died : ∃ s served : System, twoDaemons.machine.Reaches Machine.Free s ∧
    twoDaemons.machine.Leads (fun _ e => e = .call 2 .done) s served ∧ served.world.shown = some (.socket 2) := by
  obtain ⟨s, reaches, passes⟩ := Machine.reaches_of_replay (m := twoDaemons.machine) Machine.free_sound
    (fun s => decide (s.world.live = [] ∧ s.world.shown = some (.socket 1)) && (twoDaemons.machine.step s (.start 2)).isSome)
    (.start 1 :: goes 1 10 ++ [.kill 1]) (by decide +kernel)
  rw [Bool.and_eq_true, decide_eq_true_iff] at passes
  obtain ⟨⟨alone, stale⟩, starts⟩ := passes
  obtain ⟨s', started⟩ := Option.isSome_iff_exists.1 starts
  obtain ⟨served, _, leads, _, shown, _⟩ := serves_alone reaches started alone (by rw [stale]; rintro ⟨⟩)
    (by rw [stale]; rintro ⟨⟩) (by rintro name ⟨⟩; decide)
  exact ⟨s', served, .next reaches trivial started, leads, shown⟩

end Wamux.Proof.UdsListener
