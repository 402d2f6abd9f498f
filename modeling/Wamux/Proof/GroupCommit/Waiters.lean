import Wamux.Proof.GroupCommit.Invariant

namespace Wamux.Proof.GroupCommit
open Wamux.GroupCommit Wamux.Runs Wamux.Runs.Async Wamux.Runs.Machine

variable {F : Faults} {cap : Nat} {s s' : Sys} {e : Event} {t : TaskId}

def Parks : Phase → Prop
  | .parked | .leaving _ .park => True
  | _ => False

/-- A waiter that goes to sleep left a writer pending, or was notified when the last one went. -/
def Notified (s : Sys) : Prop := ∀ t, Parks (s.phase t) → s.pending ≠ 0 ∨ s.drained t = true

theorem Notified.step (notified : Notified s) {phase : Phase}
    (now : s'.phase = Function.update s.phase t phase)
    (others : ∀ u, u ≠ t → s.pending ≠ 0 ∨ s.drained u = true → s'.pending ≠ 0 ∨ s'.drained u = true)
    (own : Parks phase → s'.pending ≠ 0 ∨ s'.drained t = true) : Notified s' := by
  intro u parks
  rw [now] at parks
  by_cases same : u = t
  · subst same
    exact own (by simpa using parks)
  · rw [Function.update_of_ne same] at parks
    exact others u same (notified u parks)

theorem dropSlot_notifies {u : TaskId} (before : s.pending ≠ 0 ∨ s.drained u = true) :
    s.dropSlot.pending ≠ 0 ∨ s.dropSlot.drained u = true := by
  simp only [Sys.dropSlot]
  split_ifs with last
  · exact .inr rfl
  · exact before.imp_left fun busy => by omega

theorem after_parks {method : Method} {outcome : Outcome} {b : BatchState} {taken : List TaskId}
    {written : TaskId → List String} {seen : Option Nat}
    (post : Post F cap taken written method t outcome b seen) (parks : Parks (after method outcome)) :
    ∃ pending, seen = some pending ∧ 0 < pending := by
  cases outcome with
  | rechecked result =>
      cases result with
      | none => exact post.2.2.2
      | some result => exact parks.elim
  | started result => cases result <;> exact parks.elim
  | guard result => cases result <;> exact parks.elim
  | finished result => exact parks.elim
  | waits => exact parks.elim
  | failed => exact parks.elim

theorem Notified.move (inv : Inv F (max cap 1) s) (notified : Notified s) (move : Move cap s e s') :
    Notified s' := by
  cases move with
  | entered idle =>
      exact notified.step rfl (fun _ _ _ => .inl (Nat.succ_ne_zero _)) False.elim
  | called idle guards => exact notified.step rfl (fun _ _ h => h) False.elim
  | @requested t choice method phase =>
      unfold Sys.request
      split
      · exact notified.step (t := t) rfl (fun _ _ h => h) False.elim
      · exact notified.step (t := t) rfl (fun _ _ h => h) False.elim
  | @resumed _ t method code batch taken how =>
      obtain ⟨seen, runs⟩ := inv.runs how
      obtain ⟨-, rest⟩ := advanced runs.safe
      refine notified.step (t := t) rfl (fun _ _ h => h) fun parks => ?_
      rcases code.advance_paused batch with ⟨outcome, stopped⟩ | paused
      · rw [stopped] at rest parks
        obtain ⟨pending, counted, positive⟩ := after_parks rest parks
        refine .inl ?_
        rcases runs.loaded with none | loaded
        · simp [none] at counted
        · rw [loaded, Option.some.injEq] at counted
          exact Nat.ne_of_gt (counted ▸ positive)
      · rw [codePhase_paused paused] at parks
        exact parks.elim
  | registered phase =>
      refine notified.step rfl (fun u other before => ?_) False.elim
      simpa [Sys.setPhase, other] using before
  | counted phase busy => exact notified.step rfl (fun _ _ h => h) fun _ => .inl busy
  | drained phase quiet => exact notified.step rfl (fun _ _ h => h) False.elim
  | received phase value => exact notified.step rfl (fun _ _ h => h) False.elim
  | orphaned phase closed => exact notified.step rfl (fun _ _ h => h) False.elim
  | woken phase heard => exact notified.step rfl (fun _ _ h => h) False.elim
  | @left t choice first rest next phase =>
      have own (parks : Parks (leave next rest)) : s.pending ≠ 0 ∨ s.drained t = true := by
        refine notified t ?_
        rw [phase]
        cases next with
        | park => trivial
        | wait => cases rest <;> exact parks.elim
        | ended ending => cases rest <;> exact parks.elim
      cases first with
      | slot =>
          exact notified.step (t := t) rfl (fun _ _ => dropSlot_notifies) fun parks =>
            dropSlot_notifies (own parks)
      | guard =>
          have same : s.unlock.pending = s.pending ∧ s.unlock.drained = s.drained ∧
              s.unlock.phase = s.phase := by
            unfold Sys.unlock
            split <;> simp
          obtain ⟨pending, drained, phases⟩ := same
          refine notified.step (t := t) (by rw [← phases]; rfl) (fun u _ before => ?_) fun parks => ?_
          · change s.unlock.pending ≠ 0 ∨ s.unlock.drained u = true
            rwa [pending, drained]
          · change s.unlock.pending ≠ 0 ∨ s.unlock.drained t = true
            rw [pending, drained]
            exact own parks
  | wroteJob phase => exact notified
  | wroteGuard phase => exact notified
  | aborted phase => exact notified.step rfl (fun _ _ h => h) False.elim
  | droppedGranted phase holds => exact notified.step rfl (fun _ _ h => h) False.elim
  | @droppedQueued t ran method phase queued =>
      refine notified.step (t := t) rfl (fun _ _ h => h) fun parks => ?_
      cases method <;> exact parks.elim
  | droppedAwaiting phase => exact notified.step rfl (fun _ _ h => h) False.elim
  | droppedJob phase => exact notified.step rfl (fun _ _ h => h) False.elim
  | droppedGuard phase => exact notified.step rfl (fun _ _ h => h) False.elim
  | droppedParked phase => exact notified.step rfl (fun _ _ h => h) False.elim

theorem free_permits (s : Sys) (e : Event) : Permits ⟨True, True, True⟩ s e := by
  cases e with
  | write t value => exact .inl trivial
  | drop t ran => exact fun _ _ _ _ => .inl trivial
  | _ => trivial

theorem reachable_notified (reaches : (machine cap).Reaches Free s) :
    Inv ⟨True, True, True⟩ (max cap 1) s ∧ Notified s := by
  refine reaches.invariant (fun s => Inv ⟨True, True, True⟩ (max cap 1) s ∧ Notified s)
    ⟨.initial, fun t parks => parks.elim⟩ fun s e s' kept _ moved => ?_
  exact ⟨kept.1.move (free_permits s e) (step_move moved), kept.2.move kept.1 (step_move moved)⟩

theorem waiters_heard_and_answered (reaches : (machine cap).Reaches Free s) :
    (¬∃ t, s.phase t = .parked ∧ s.batch.tryRecv t = .empty ∧ s.pending = 0 ∧ s.holder = none ∧
      s.queue = [] ∧ s.drained t = false) ∧
    (∀ batch ∈ s.batch.openBatch, ∀ t ∈ batch.waiters, t ∈ s.batch.ledger.senders) ∧
    (∀ t ∈ s.batch.ledger.senders,
      ((∃ batch ∈ s.batch.openBatch, t ∈ batch.waiters) ∧ s.batch.answers t = []) ∨
      ((∀ batch ∈ s.batch.openBatch, t ∉ batch.waiters) ∧ ∃ answer, s.batch.answers t = [answer])) ∧
    ∀ t, s.phase t ≠ .ended (.finished (.error .droppedBeforeCommit)) := by
  obtain ⟨inv, notified⟩ := reachable_notified reaches
  have waits {t : TaskId} {batch : OpenBatch} (opened : batch ∈ s.batch.openBatch) (member : t ∈ batch.waiters) :
      t ∈ waitersOf s.batch.openBatch := by
    rw [Option.mem_def] at opened
    simpa [waitersOf, opened] using member
  refine ⟨?_, fun batch opened t member => (inv.holds.sent t (waits opened member)).1, fun t sender => ?_,
    fun t ended => ?_⟩
  · rintro ⟨t, parked, -, drained, -, -, unheard⟩
    have heard := notified t (by rw [parked]; trivial)
    simp [drained, unheard] at heard
  · rcases inv.holds.answered t sender with member | ⟨answer, answered⟩
    · refine .inl ⟨?_, (inv.holds.sent t member).2⟩
      cases opened : s.batch.openBatch with
      | none => simp [waitersOf, opened] at member
      | some batch => exact ⟨batch, rfl, by simpa [waitersOf, opened] using member⟩
    · refine .inr ⟨fun batch opened member => ?_, answer, answered⟩
      simp [(inv.holds.sent t (waits opened member)).2] at answered
  · have fact := inv.fact t
    rw [ended] at fact
    exact fact.1 rfl

def parkedJob : List Event :=
  [.call 0 .beginJob, .poll 0 false, .poll 0 false, .poll 0 false, .poll 0 false, .call 1 .beginJob,
    .finish 0, .poll 0 false, .poll 0 false, .poll 0 false, .poll 0 false, .poll 0 false, .poll 0 false]

theorem waiters_heard_and_answered_once : ∃ s, (machine 8).Reaches Free s ∧
    0 ∈ s.batch.ledger.senders ∧ s.batch.answers 0 = [] ∧ ∃ batch ∈ s.batch.openBatch, 0 ∈ batch.waiters := by
  obtain ⟨s, reaches, passes⟩ := reaches_of_replay (m := machine 8) free_sound
    (fun s => s.batch.ledger.senders == [0] && s.batch.answers 0 == []) parkedJob (by decide)
  simp only [Bool.and_eq_true, beq_iff_eq] at passes
  have sender : 0 ∈ s.batch.ledger.senders := by simp [passes.1]
  rcases (waiters_heard_and_answered reaches).2.2.1 0 sender with ⟨waits, -⟩ | ⟨-, answer, answered⟩
  · exact ⟨s, reaches, sender, passes.2, waits⟩
  · simp [passes.2] at answered

end Wamux.Proof.GroupCommit
