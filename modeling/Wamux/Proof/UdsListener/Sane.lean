import Wamux.Proof.UdsListener.Promise

namespace Wamux.Proof.UdsListener
open Wamux.UdsListener
open Runs

variable {path : String} {daemon : DaemonId → Daemon} {groups : String → Option Gid} {w w' : World} {d : DaemonId}

/-- What holds of the world whatever pids the daemons have. -/
structure Sane (w : World) : Prop where
  path : ∀ k, w.path = some k → k < w.arrivals.length
  live : ∀ d ∈ w.live, (w.daemons d).started = true
  fresh : ∀ d, (w.daemons d).started = false → (w.daemons d).socket = none
  listening : ∀ d, w.listening d = true → d ∈ w.live

theorem Sane.setLocal (sane : Sane w) (live : d ∈ w.live) {own : Local} (started : own.started = (w.daemons d).started) :
    Sane (w.setLocal d own) where
  path := sane.path
  live e member := by
    by_cases same : e = d
    · rw [same, World.setLocal_self, started]
      exact sane.live d live
    · rw [World.setLocal_ne same]
      exact sane.live e member
  fresh e idle := by
    by_cases same : e = d
    · rw [same, World.setLocal_self, started, sane.live d live] at idle
      cases idle
    · rw [World.setLocal_ne same] at idle ⊢
      exact sane.fresh e idle
  listening e noisy := by
    by_cases same : e = d
    · exact same ▸ live
    · rw [listening_of_daemons (World.setLocal_ne same)] at noisy
      exact sane.listening e noisy

theorem Sane.setSocket (sane : Sane w) (e : DaemonId) {f : Socket → Socket}
    (quieter : ∀ socket, (f socket).listening = true → socket.listening = true) : Sane (w.setSocket e f) where
  path := sane.path
  live d member := by
    by_cases same : d = e
    · rw [same, World.setSocket_self]
      exact sane.live e (same ▸ member)
    · rw [World.setSocket_ne same]
      exact sane.live d member
  fresh d idle := by
    by_cases same : d = e
    · rw [same, World.setSocket_self] at idle ⊢
      rw [sane.fresh e idle]
      rfl
    · rw [World.setSocket_ne same] at idle ⊢
      exact sane.fresh d idle
  listening d noisy := by
    by_cases same : d = e
    · subst same
      refine sane.listening d ?_
      rw [World.listening, World.setSocket_self] at noisy
      rw [World.listening]
      cases held : (w.daemons d).socket with
      | none => rw [held] at noisy; cases noisy
      | some socket =>
          rw [held] at noisy
          exact quieter socket noisy
    · rw [listening_of_daemons (World.setSocket_ne same)] at noisy
      exact sane.listening d noisy

theorem Sane.setStaging (sane : Sane w) (pid : Nat) (dir : Option (Option DaemonId)) : Sane (w.setStaging pid dir) :=
  ⟨sane.path, sane.live, sane.fresh, sane.listening⟩

theorem Sane.arrive (sane : Sane w) (file : File) : Sane (w.arrive file) := by
  refine ⟨?_, sane.live, sane.fresh, sane.listening⟩
  rintro k ⟨⟩
  simp [World.arrive]

theorem Sane.remove (sane : Sane w) : Sane { w with path := none } :=
  ⟨by rintro k ⟨⟩, sane.live, sane.fresh, sane.listening⟩

theorem Sane.close (sane : Sane w) (d : DaemonId) : Sane (w.close d) := sane.setSocket d fun _ => by rintro ⟨⟩

inductive Effect (daemon : DaemonId → Daemon) (d : DaemonId) (w : World) : World → Prop where
  | same : Effect daemon d w w
  | own (own : Local) (started : own.started = (w.daemons d).started) : Effect daemon d w (w.setLocal d own)
  | staging (dir : Option (Option DaemonId)) : Effect daemon d w (w.setStaging (daemon d).pid dir)
  | bound (own : Local) (started : own.started = (w.daemons d).started) :
      Effect daemon d w ((w.setStaging (daemon d).pid (some (some d))).setLocal d own)
  | socket (owner : DaemonId) (f : Socket → Socket) (quieter : ∀ socket, (f socket).listening = true → socket.listening = true) :
      Effect daemon d w (w.setSocket owner f)
  | removed : Effect daemon d w { w with path := none }
  | renamed (owner : DaemonId) : Effect daemon d w ((w.setStaging (daemon d).pid (some none)).arrive (.socket owner))

theorem Effect.closed : Effect daemon d w (w.close d) := .socket d _ fun _ => by rintro ⟨⟩

theorem effect_of_symlinkMetadata {outcome : Outcome} {answer : Except IoError Bool}
    (performed : perform daemon groups d .symlinkMetadata outcome w = some (answer, w')) : Effect daemon d w w' := by
  unfold perform at performed
  dsimp only at performed
  split at performed
  · cases performed
    exact .own _ rfl
  · cases performed
    exact .own _ rfl
  · cases performed
    exact .own _ rfl
  · split at performed <;> cases performed
    exact .own _ rfl
  · cases performed

theorem effect_of_bindStaged {outcome : Outcome} {answer : Except IoError Unit}
    (performed : perform daemon groups d .bindStaged outcome w = some (answer, w')) : Effect daemon d w w' := by
  unfold perform at performed
  dsimp only at performed
  split at performed <;> cases performed
  · exact .bound _ rfl
  · exact .bound _ rfl
  · exact .same

theorem effect_of_done {op : Op} {answer : Reply op}
    (performed : perform daemon groups d op .done w = some (answer, w')) : Effect daemon d w w' := by
  cases op with
  | symlinkMetadata => exact effect_of_symlinkMetadata performed
  | bindStaged => exact effect_of_bindStaged performed
  | connect =>
      unfold perform at performed
      dsimp only at performed
      split at performed
      · cases performed
        exact .same
      · split at performed <;> cases performed
        · exact .same
        · exact .own _ rfl
  | removeFile =>
      unfold perform at performed
      dsimp only at performed
      split at performed <;> cases performed
      · exact .same
      · exact .removed
  | removeStaging =>
      unfold perform at performed
      dsimp only at performed
      split at performed <;> cases performed
      · exact .same
      · exact .staging none
  | createStaging =>
      unfold perform at performed
      dsimp only at performed
      split at performed <;> cases performed
      · exact .staging (some none)
      · exact .same
  | chown | chmod =>
      unfold perform at performed
      dsimp only at performed
      split at performed <;> cases performed
      · exact .socket _ _ fun _ => id
      · exact .same
  | rename =>
      unfold perform at performed
      dsimp only at performed
      split at performed <;> cases performed
      · exact .renamed _
      · exact .same
  | openStore =>
      cases performed
      exact .own _ rfl
  | serve | closeListener =>
      cases performed
      exact .closed
  | lookUpGroup | createParent | stopAll =>
      cases performed
      exact .same

/-- A call that fails has at most looked, but for `serve`, which closes the listener. -/
theorem effect_of_failed {op : Op} {error : IoError} {answer : Reply op}
    (performed : perform daemon groups d op (.failed error) w = some (answer, w')) : Effect daemon d w w' := by
  cases op with
  | symlinkMetadata => exact effect_of_symlinkMetadata performed
  | bindStaged => exact effect_of_bindStaged performed
  | connect =>
      unfold perform at performed
      dsimp only at performed
      split at performed <;> cases performed
      exact .same
  | serve =>
      cases performed
      exact .closed
  | _ =>
      cases performed <;> exact .same

theorem effect_of_partly {op : Op} {error : IoError} {answer : Reply op}
    (performed : perform daemon groups d op (.partly error) w = some (answer, w')) : Effect daemon d w w' := by
  cases op with
  | symlinkMetadata => exact effect_of_symlinkMetadata performed
  | bindStaged => exact effect_of_bindStaged performed
  | removeStaging =>
      unfold perform at performed
      dsimp only at performed
      split at performed <;> cases performed
      exact .staging (some none)
  | openStore =>
      cases performed
      exact .own _ rfl
  | _ => cases performed

theorem effect_of_perform {op : Op} {outcome : Outcome} {answer : Reply op}
    (performed : perform daemon groups d op outcome w = some (answer, w')) : Effect daemon d w w' := by
  cases outcome with
  | done => exact effect_of_done performed
  | failed error => exact effect_of_failed performed
  | partly error => exact effect_of_partly performed

theorem Effect.live (effect : Effect daemon d w w') : w'.live = w.live := by cases effect <;> rfl

theorem Sane.effect (sane : Sane w) (live : d ∈ w.live) (effect : Effect daemon d w w') : Sane w' := by
  cases effect with
  | same => exact sane
  | own own started => exact sane.setLocal live started
  | staging dir => exact sane.setStaging _ dir
  | bound own started => exact (sane.setStaging _ _).setLocal live started
  | socket owner f quieter => exact sane.setSocket owner quieter
  | removed => exact sane.remove
  | renamed owner => exact (sane.setStaging _ _).arrive _

theorem Sane.start (sane : Sane w) (started : Started d w w') : Sane w' := by
  obtain ⟨idle, others, mine, live, arrivals, path, -, -⟩ := started
  have unbound := sane.fresh d idle
  refine ⟨?_, ?_, ?_, ?_⟩
  · rw [path, arrivals]
    exact sane.path
  · intro e member
    by_cases same : e = d
    · rw [same, mine]
    · rw [live] at member
      rw [others e same]
      exact sane.live e ((List.mem_cons.1 member).resolve_left same)
  · intro e idle
    by_cases same : e = d
    · rw [same, mine] at idle
      cases idle
    · rw [others e same] at idle ⊢
      exact sane.fresh e idle
  · intro e noisy
    rw [live]
    by_cases same : e = d
    · exact same ▸ List.mem_cons_self
    · rw [listening_of_daemons (others e same)] at noisy
      exact .tail _ (sane.listening e noisy)

theorem Sane.leave (sane : Sane w) : Sane (leave d w) := by
  refine ⟨sane.path, ?_, ?_, ?_⟩
  · intro e member
    have before := sane.live e (List.mem_of_mem_erase member)
    by_cases same : e = d
    · rwa [same, leave_self, ← same]
    · rwa [leave_ne same]
  · intro e idle
    by_cases same : e = d
    · rw [same, leave_self] at idle ⊢
      rw [sane.fresh d idle]
      rfl
    · rw [leave_ne same] at idle ⊢
      exact sane.fresh e idle
  · intro e noisy
    have ne : e ≠ d := by
      rintro rfl
      rw [leave_listening] at noisy
      cases noisy
    rw [listening_of_daemons (leave_ne ne)] at noisy
    exact (List.mem_erase_of_ne ne).2 (sane.listening e noisy)

theorem Sane.outside (sane : Sane w) (event : Outside) : Sane (w.outside event) := by
  cases event with
  | remove => exact sane.remove
  | place => exact sane.arrive .other
  | placeSocket => exact { sane.arrive .foreign with }
  | listen => exact { sane with }

def SaneSystem (s : System) : Prop := Sane s.world ∧ ∀ d code, s.process d = .running code → d ∈ s.world.live

theorem SaneSystem.set {s : System} {process : Process Reply (Except ServeError Unit)} (sane : SaneSystem s)
    (now : Sane w) (own : ∀ code, process = .running code → d ∈ w.live) (others : ∀ e, e ≠ d → e ∈ s.world.live → e ∈ w.live) :
    SaneSystem (s.set d process w) := by
  refine ⟨now, fun e code running => ?_⟩
  by_cases same : e = d
  · subst same
    simp only [Processes.State.set, Function.update_self] at running
    exact own code running
  · simp only [Processes.State.set, Function.update_of_ne same] at running
    exact others e same (sane.2 e code running)

theorem SaneSystem.step {s s' : System} {e : Event} (sane : SaneSystem s)
    (moved : (daemons path daemon groups).machine.step s e = some s') : SaneSystem s' := by
  simp only [Processes.machine] at moved
  cases e with
  | start d =>
      simp only [Processes.step] at moved
      split at moved
      · obtain ⟨w, begun, rfl⟩ := Option.map_eq_some_iff.1 moved
        have started := start_spec begun
        refine sane.set (sane.1.start started) (fun _ _ => ?_) fun e _ member => ?_
        · rw [started.live]
          exact List.mem_cons_self
        · rw [started.live]
          exact .tail _ member
      · cases moved
  | call d outcome =>
      simp only [Processes.step] at moved
      split at moved
      · rename_i op next running
        obtain ⟨⟨answer, w⟩, performed, rfl⟩ := Option.map_eq_some_iff.1 moved
        have effect := effect_of_perform performed
        have live := sane.2 d _ running
        exact sane.set (sane.1.effect live effect) (fun _ _ => effect.live ▸ live) fun e _ member => effect.live ▸ member
      · cases moved
  | exit d | kill d =>
      simp only [Processes.step] at moved
      split at moved
      · cases moved
        exact sane.set sane.1.leave (fun code ended => by cases ended) fun e ne member => (List.mem_erase_of_ne ne).2 member
      · cases moved
  | outside event =>
      cases moved
      refine ⟨sane.1.outside event, fun d code running => ?_⟩
      have live := sane.2 d code running
      cases event <;> exact live

theorem sane_of_reaches {s : System} (reaches : (daemons path daemon groups).machine.Reaches Machine.Free s) : Sane s.world := by
  refine (reaches.invariant SaneSystem ⟨⟨?_, ?_, ?_, ?_⟩, ?_⟩ fun s e s' sane _ moved => sane.step moved).1
  · rintro k ⟨⟩
  · rintro d ⟨⟩
  · exact fun _ _ => rfl
  · rintro d ⟨⟩
  · rintro d code ⟨⟩

end Wamux.Proof.UdsListener
