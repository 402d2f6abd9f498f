import Wamux.Proof.UdsListener.Path

/-!
# Starts and stops that do not overlap

As long as no daemon is started, or stops serving, while another one starts or stops, the check before
the store and the bind after it keep a second daemon away from both.
-/

namespace Wamux.Proof.UdsListener
open Wamux.UdsListener
open Runs

variable {path : String} {daemon : DaemonId → Daemon} {groups : String → Option Gid} {w w' : World} {d : DaemonId}

def Settled (w : World) (d : DaemonId) : Prop := ∀ e ∈ w.live, e ≠ d → Serving w e

def AtServe (s : System) (d : DaemonId) : Prop := ∃ next, s.process d = .running (.call .serve next)

/-- Daemons may die at any moment; other programs leave the path to them while one serves. -/
def Exclusive (s : System) : Event → Prop
  | .start d => Settled s.world d
  | .call d _ => AtServe s d → Settled s.world d
  | .exit _ | .kill _ => True
  | .outside event => event.touches = true → ∀ e ∈ s.world.live, ¬Serving s.world e

/-- A daemon that serves is what the path shows, and came there before any other began to look. -/
def Shown (w : World) (d : DaemonId) : Prop :=
  ∃ k, w.path = some k ∧ w.arrivals[k]? = some (.socket d) ∧ ∀ e ∈ w.live, e ≠ d → k < (w.daemons e).since

structure Alone (w : World) : Prop where
  unsettled : ∀ d ∈ w.live, ∀ e ∈ w.live, ¬Serving w d → ¬Serving w e → d = e
  shown : ∀ d, Serving w d → Shown w d
  store : ∀ d e, (w.daemons d).storeOpen = true → (w.daemons e).storeOpen = true → d = e
  serving : ∀ d e, Serving w d → (w.daemons e).storeOpen = true → e = d

theorem Alone.seen (alone : Alone w) {e : DaemonId} (looked : Looked d w) (live : d ∈ w.live) (serving : Serving w e)
    (ne : d ≠ e) : False := by
  obtain ⟨k, path, there, before⟩ := alone.shown e serving
  rcases looked k path with after | ⟨owner, there', silent⟩ | ⟨there', -⟩
  · exact Nat.lt_irrefl _ (Nat.lt_of_lt_of_le (before d live ne) after)
  · rw [there, Option.some_inj, File.socket.injEq] at there'
    subst there'
    exact absurd (serving.2.symm.trans silent) (by decide)
  · rw [there] at there'
    cases there'

theorem Alone.opened {label : Label Op} (alone : Alone w) (inv : Inv daemon groups w) (changes : Changes daemon d label w w')
    (opened : (w'.daemons d).storeOpen = true) {e : DaemonId} (other : (w.daemons e).storeOpen = true ∨ Serving w e) : e = d := by
  rcases changes.opens opened with before | ⟨looked, quiet, live⟩
  · rcases other with open' | serving
    · exact alone.store e d open' before
    · exact (alone.serving e d serving before).symm
  · by_contra ne
    by_cases serving : Serving w e
    · exact alone.seen looked live serving (Ne.symm ne)
    · have live' : e ∈ w.live := inv.storeOpen e (other.resolve_right serving)
      exact ne (alone.unsettled e live' d live serving quiet)

theorem Changes.serving_iff {label : Label Op} (changes : Changes daemon d label w w') {e : DaemonId} (ne : e ≠ d) :
    Serving w' e ↔ Serving w e := by
  rw [Serving, Serving, listening_of_daemons (changes.others e ne)]
  cases changes.path with
  | same _ arrivals => rw [arrivals]
  | removed _ _ _ _ arrivals => rw [arrivals]
  | renamed _ _ _ _ arrivals =>
      rw [arrivals, List.mem_append, List.mem_singleton, File.socket.injEq, or_iff_left ne]

theorem Alone.changes {label : Label Op} (alone : Alone w) (inv : Inv daemon groups w) (inv' : Inv daemon groups w')
    (changes : Changes daemon d label w w') (joins : label = .start → Settled w d)
    (stops : label = .call .serve → Settled w d) : Alone w' := by
  have open_of {e : DaemonId} (ne : e ≠ d) (opened : (w'.daemons e).storeOpen = true) : (w.daemons e).storeOpen = true := by
    rwa [changes.others e ne] at opened
  have store : ∀ e e', (w'.daemons e).storeOpen = true → (w'.daemons e').storeOpen = true → e = e' := by
    intro e e' one other
    by_cases same : e = d <;> by_cases same' : e' = d
    · rw [same, same']
    · subst same
      exact (alone.opened inv changes one (.inl (open_of same' other))).symm
    · subst same'
      exact alone.opened inv changes other (.inl (open_of same one))
    · exact alone.store e e' (open_of same one) (open_of same' other)
  cases moved : changes.path with
  | same path arrivals serving =>
      have before {e : DaemonId} (now : Serving w' e) : Serving w e := by
        by_cases same : e = d
        · subst same
          exact serving now
        · exact (changes.serving_iff same).1 now
      -- a daemon that joins, or stops serving, is the only one that does not serve
      have settled : d ∈ w'.live → ¬Serving w' d → ∀ e ∈ w'.live, e ≠ d → ¬Serving w' e → False := by
        intro live quiet e member ne other
        rw [changes.serving_iff ne] at other
        rw [changes.live e ne] at member
        by_cases joined : d ∈ w.live
        · by_cases served : Serving w d
          · have serve : label = .call .serve := by
              by_contra not
              exact quiet (changes.stops served live not)
            exact other (stops serve e member ne)
          · exact ne (alone.unsettled e member d joined other served)
        · exact other (joins (changes.joins joined live).1 e member ne)
      refine ⟨?_, ?_, store, ?_⟩
      · intro e member e' member' quiet quiet'
        by_cases same : e = d <;> by_cases same' : e' = d
        · rw [same, same']
        · subst same
          exact (settled member quiet e' member' same' quiet').elim
        · subst same'
          exact (settled member' quiet' e member same quiet).elim
        · rw [changes.live _ same] at member
          rw [changes.live _ same'] at member'
          rw [changes.serving_iff same] at quiet
          rw [changes.serving_iff same'] at quiet'
          exact alone.unsettled e member e' member' quiet quiet'
      · intro e now
        obtain ⟨k, at', there, earlier⟩ := alone.shown e (before now)
        refine ⟨k, path.trans at', arrivals ▸ there, ?_⟩
        intro e' member ne
        by_cases same : e' = d
        · subst same
          by_cases joined : e' ∈ w.live
          · exact Nat.lt_of_lt_of_le (earlier e' joined ne) changes.since
          · rw [(changes.joins joined member).2]
            exact inv.path k at'
        · rw [changes.others e' same]
          exact earlier e' ((changes.live e' same).1 member) ne
      · intro e e' now opened
        by_cases same : e' = d
        · subst same
          exact (alone.opened inv changes opened (.inr (before now))).symm
        · exact alone.serving e e' (before now) (open_of same opened)
  | removed looked quiet live path arrivals silent =>
      have nobody : ∀ e, ¬Serving w' e := by
        intro e now
        by_cases same : e = d
        · exact silent (same ▸ now)
        · exact alone.seen looked live ((changes.serving_iff same).1 now) (Ne.symm same)
      have nobody' : ∀ e, ¬Serving w e := by
        intro e now
        by_cases same : e = d
        · exact quiet (same ▸ now)
        · exact alone.seen looked live now (Ne.symm same)
      have was : ∀ e ∈ w'.live, e ∈ w.live := by
        intro e member
        by_cases same : e = d
        · exact same ▸ live
        · exact (changes.live e same).1 member
      refine ⟨?_, fun e now => absurd now (nobody e), store, fun e _ now => absurd now (nobody e)⟩
      exact fun e member e' member' _ _ => alone.unsettled e (was e member) e' (was e' member') (nobody' e) (nobody' e')
  | renamed looked quiet live path arrivals =>
      have only : ∀ e ∈ w'.live, e = d := by
        intro e member
        by_contra ne
        refine ne (alone.unsettled e ((changes.live e ne).1 member) d live ?_ quiet)
        exact fun now => alone.seen looked live now (Ne.symm ne)
      refine ⟨fun e member e' member' _ _ => (only e member).trans (only e' member').symm, ?_, store, ?_⟩
      · intro e now
        obtain rfl := only e (inv'.listening e now.2)
        refine ⟨w.arrivals.length, path, ?_, fun e' member ne => absurd (only e' member) ne⟩
        rw [arrivals, List.getElem?_append_right (Nat.le_refl _), Nat.sub_self]
        rfl
      · intro e e' now opened
        exact (only e' (inv'.storeOpen e' opened)).trans (only e (inv'.listening e now.2)).symm

theorem Alone.outside (alone : Alone w) (event : Outside) (free : event.touches = true → ∀ e, ¬Serving w e) :
    Alone (w.outside event) := by
  have quiet (touches : event.touches = true) (before : ∀ e, Serving (w.outside event) e → Serving w e)
      (same : (w.outside event).daemons = w.daemons) (live : (w.outside event).live = w.live) : Alone (w.outside event) := by
    have nobody : ∀ e, ¬Serving (w.outside event) e := fun e now => free touches e (before e now)
    refine ⟨?_, fun e now => absurd now (nobody e), ?_, fun e _ now => absurd now (nobody e)⟩
    · intro e member e' member' _ _
      rw [live] at member member'
      exact alone.unsettled e member e' member' (free touches e) (free touches e')
    · rw [same]
      exact alone.store
  cases event with
  | remove => exact quiet rfl (fun e now => now) rfl rfl
  | place | placeSocket =>
      refine quiet rfl ?_ rfl rfl
      rintro e ⟨arrived, noisy⟩
      exact ⟨(List.mem_append.1 arrived).resolve_right (by simp), noisy⟩
  | listen => exact ⟨alone.unsettled, alone.shown, alone.store, alone.serving⟩

abbrev Orderly (daemon : DaemonId → Daemon) (s : System) (e : Event) : Prop := DistinctPids daemon s e ∧ Exclusive s e

theorem alone_of_reaches {s : System} (reaches : (daemons path daemon groups).machine.Reaches (Orderly daemon) s) :
    Alone s.world := by
  refine Processes.invariant_of_promises (daemons_sound path daemon groups) (fun _ _ orderly => orderly.1) Alone ?_ ?_ reaches
  · refine ⟨?_, ?_, ?_, ?_⟩
    · rintro d ⟨⟩
    · rintro d ⟨⟨⟩, _⟩
    · rintro d e ⟨⟩
    · rintro d e ⟨⟨⟩, _⟩
  · intro s e w' inv inv' alone ⟨_, permitted⟩ permits
    cases e with
    | start d => exact alone.changes inv inv' permits (fun _ => permitted) (by rintro ⟨⟩)
    | call d choice =>
        obtain ⟨op, next, running, changes⟩ := permits
        refine alone.changes inv inv' changes (by rintro ⟨⟩) ?_
        rintro ⟨⟩
        exact permitted ⟨next, running⟩
    | exit d => exact alone.changes inv inv' permits (by rintro ⟨⟩) (by rintro ⟨⟩)
    | kill d => exact alone.changes inv inv' permits (by rintro ⟨⟩) (by rintro ⟨⟩)
    | outside event =>
        obtain rfl : w' = s.world.outside event := permits
        exact alone.outside event fun touches e now => permitted touches e (inv.listening e now.2) now

/-- As long as starts and stops do not overlap, a daemon that serves is what the path shows, so that
at most one does, no two daemons ever have the store open, and none has it beside one that serves. -/
theorem one_daemon {s : System} (reaches : (daemons path daemon groups).machine.Reaches (Orderly daemon) s) :
    (∀ d, .socket d ∈ s.world.arrivals → s.world.listening d = true → s.world.shown = some (.socket d)) ∧
    (∀ d e, (s.world.daemons d).storeOpen = true → (s.world.daemons e).storeOpen = true → d = e) ∧
    ∀ d e, .socket d ∈ s.world.arrivals → s.world.listening d = true → (s.world.daemons e).storeOpen = true → e = d := by
  have alone := alone_of_reaches reaches
  refine ⟨?_, alone.store, fun d e arrived noisy => alone.serving d e ⟨arrived, noisy⟩⟩
  intro d arrived noisy
  obtain ⟨k, at', there, -⟩ := alone.shown d ⟨arrived, noisy⟩
  rw [World.shown, at', Option.bind_some, there]

def settled (w : World) (d : DaemonId) : Bool :=
  w.live.all fun e => decide (e = d) || (decide (.socket e ∈ w.arrivals) && w.listening e)

def exclusively (s : System) : Event → Bool
  | .start d => settled s.world d
  | .call d _ => match s.process d with
    | .running (.call .serve _) => settled s.world d
    | _ => true
  | .exit _ | .kill _ => true
  | .outside event => !event.touches || s.world.live.isEmpty

theorem settled_sound (settles : settled w d = true) : Settled w d := by
  intro e member ne
  have serves := List.all_eq_true.1 settles e member
  rw [decide_eq_false ne, Bool.false_or, Bool.and_eq_true] at serves
  exact ⟨of_decide_eq_true serves.1, serves.2⟩

theorem exclusively_sound (s : System) (e : Event) (checked : exclusively s e = true) : Exclusive s e := by
  cases e with
  | start d => exact settled_sound checked
  | call d choice =>
      rintro ⟨next, running⟩
      simp only [exclusively, running] at checked
      exact settled_sound checked
  | exit d => trivial
  | kill d => trivial
  | outside event =>
      intro touches e member
      rw [exclusively, touches, Bool.not_true, Bool.false_or, List.isEmpty_iff] at checked
      rw [checked] at member
      cases member

theorem orderly_sound (s : System) (e : Event) (checked : (distinctPids s e && exclusively s e) = true) : Orderly two s e :=
  ⟨distinctPids_sound s e (Bool.and_eq_true_iff.1 checked).1, exclusively_sound s e (Bool.and_eq_true_iff.1 checked).2⟩

def sentAway : List Event := .start 1 :: goes 1 10 ++ .start 2 :: goes 2 2

theorem one_daemon_sentAway : ∃ s : System, twoDaemons.machine.Reaches (Orderly two) s ∧ s.world.live = [2, 1] ∧
    s.world.shown = some (.socket 1) ∧ ∀ e, (s.world.daemons e).storeOpen = true → e = 1 := by
  obtain ⟨s, reaches, passes⟩ := Machine.reaches_of_replay (m := twoDaemons.machine) orderly_sound
    (fun s => decide (s.world.live = [2, 1] ∧ .socket 1 ∈ s.world.arrivals) && s.world.listening 1) sentAway (by decide +kernel)
  rw [Bool.and_eq_true, decide_eq_true_iff] at passes
  obtain ⟨⟨live, arrived⟩, noisy⟩ := passes
  obtain ⟨shown, _, serving⟩ := one_daemon reaches
  exact ⟨s, reaches, live, shown 1 arrived noisy, fun e => serving 1 e arrived noisy⟩

end Wamux.Proof.UdsListener
