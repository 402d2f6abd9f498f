import Wamux.Proof.GroupCommit.Invariant

namespace Wamux.Proof.GroupCommit
open Wamux.GroupCommit Wamux.Runs Wamux.Runs.Async Wamux.Runs.Machine

variable {cap : Nat} {s : Sys} {e : Event} {t : TaskId} {b : BatchState} {taken : List TaskId}
  {written : TaskId → List String}

structure Agrees (cap : Nat) (b : BatchState) : Prop where
  opened : b.openBatch.isSome ↔ b.conn.inTransaction = true ∧ b.conn.implicit = false
  job : b.jobOpen = true ↔ b.conn.savepointMark.isSome
  room : ∀ batch ∈ b.openBatch, batch.jobs < cap

structure InJob (b : BatchState) : Prop where
  inside : b.conn.inTransaction = true ∧ b.conn.implicit = false
  marked : b.conn.savepointMark.isSome
  opened : b.openBatch.isSome
  job : b.jobOpen = true

def NoAutoRollback (_ : Sys) : Event → Prop
  | .autoRollback _ => False
  | .call _ _ | .poll _ _ | .write _ _ | .finish _ | .fail _ | .drop _ _ => True

def faithful : Faults := ⟨False, False, True⟩

theorem noAutoRollback_permits (calm : NoAutoRollback s e) : Permits faithful s e := by
  cases e with
  | autoRollback t => exact calm
  | write t value => exact .inl trivial
  | drop t ran => exact fun _ _ _ _ => .inr False.elim
  | _ => trivial

theorem Settled.agrees (sound : Sound b.conn b.ledger) (settled : Settled faithful cap b) : Agrees cap b := by
  cases settled with
  | closed none idle out =>
      have outside := transaction_out.1 out
      exact ⟨by simp [none, outside], by simp [idle, (sound.outside outside).1], by simp [none]⟩
  | opened usable idle begun =>
      obtain ⟨inside, explicit, unmarked⟩ := transaction_begun.1 begun
      exact ⟨by simp [usable.opened, inside, explicit], by simp [idle, unmarked], usable.room⟩
  | saved usable job saved =>
      obtain ⟨inside, explicit, marked⟩ := transaction_saved.1 saved
      exact ⟨by simp [usable.opened, inside, explicit], by simp [job, marked], usable.room⟩
  | stale may usable idle out => exact may.elim
  | implied may usable job implicit => exact may.elim
  | lost may usable job out => exact may.elim

theorem Job.inJob {aborted : Bool} (job : Job faithful cap taken written aborted t b) : InJob b := by
  cases aborted with
  | true => exact (job.outside rfl).1.elim
  | false =>
      have saved := (job.inside rfl).2.resolve_right fun stale => stale.1
      obtain ⟨inside, explicit, marked⟩ := transaction_saved.1 saved
      exact ⟨⟨inside, explicit⟩, marked, job.usable.opened, job.job⟩

theorem reconcile_agrees (idle : Idle faithful cap taken written b) (choose : Nat → Bool)
    (loaded : Nat → Nat) (n : Nat) :
    (reconcile.exec serve choose loaded n b).2.inFlight = none ∧
      Agrees cap (reconcile.exec serve choose loaded n b).2 := by
  have safe : Safe (discipline faithful cap taken written none)
      (fun _ b' _ => Here faithful taken written b' ∧ Settled faithful cap b') reconcile b none :=
    reconcile_safe idle
  obtain ⟨-, here, settled⟩ := safe.exec choose loaded n
  exact ⟨here.quiet, settled.agrees here.holds.sound⟩

theorem beginJob_starts {code : Locked Outcome} {seen : Option Nat}
    (safe : Safe (discipline faithful cap taken written none) (Post faithful cap taken written .beginJob t) code b
      seen) (choose : Nat → Bool) (loaded : Nat → Nat) (n : Nat) :
    (code.exec serve choose loaded n b).1 = .started (.ok ()) ∧ InJob (code.exec serve choose loaded n b).2 := by
  obtain ⟨seen', post⟩ := safe.exec choose loaded n
  change Post faithful cap taken written .beginJob t (code.exec serve choose loaded n b).1
    (code.exec serve choose loaded n b).2 seen' at post
  generalize code.exec serve choose loaded n b = returned at post ⊢
  obtain ⟨outcome, left⟩ := returned
  cases outcome with
  | started result =>
      obtain ⟨-, ok, job⟩ := post
      exact ⟨by rw [ok], job.inJob⟩
  | finished result => simp [Post] at post
  | waits => simp [Post] at post
  | failed => simp [Post] at post
  | guard result => cases result <;> simp [Post] at post
  | rechecked result => cases result <;> simp [Post] at post

theorem belief_agrees (reaches : (machine cap).Reaches NoAutoRollback s) :
    (s.holder = none → s.batch.inFlight = none → Agrees (max cap 1) s.batch) ∧
    ((s.holder = none ∨ ∃ t method, s.holder = some t ∧ s.phase t = .locking method) →
      ∀ choose loaded n, (reconcile.exec serve choose loaded n s.batch).2.inFlight = none ∧
        Agrees (max cap 1) (reconcile.exec serve choose loaded n s.batch).2) ∧
    (∀ t, s.holder = some t → s.phase t = .locking .beginJob → ∀ choose loaded n,
      (beginJobBody.exec serve choose loaded n (s.take t .beginJob).batch).1 = .started (.ok ()) ∧
        InJob (beginJobBody.exec serve choose loaded n (s.take t .beginJob).batch).2) ∧
    (∀ t code, s.phase t = .running .beginJob code → ∀ choose loaded n,
      (code.exec serve choose loaded n s.batch).1 = .started (.ok ()) ∧
        InJob (code.exec serve choose loaded n s.batch).2) ∧
    (∀ t aborted, s.phase t = .jobHeld aborted → InJob s.batch) ∧
    (∀ t, s.phase t = .connHeld .lockAutocommit → s.batch.conn.inTransaction = false) := by
  have inv := reachable_inv (fun s e => noAutoRollback_permits) reaches
  have held {t : TaskId} {p : Phase} (phase : s.phase t = p) (owner : role p = .owner) :
      Holding faithful (max cap 1) s.taken s.written t s.batch p :=
    phase ▸ inv.held t (inv.locking.mutex.owner t (by rwa [phase]))
  refine ⟨fun free quiet => ?_, fun granted choose loaded n => ?_, fun t holds phase choose loaded n => ?_,
    fun t code phase choose loaded n => ?_, fun t aborted phase => ?_, fun t phase => ?_⟩
  · have idle := inv.free free
    exact (idle.settled quiet).agrees idle.holds.sound
  · rcases granted with free | ⟨t, method, holds, phase⟩
    · exact reconcile_agrees (inv.free free) choose loaded n
    · exact reconcile_agrees (inv.idle ⟨method, phase⟩ holds) choose loaded n
  · exact beginJob_starts (inv.granted phase holds).safe choose loaded n
  · obtain ⟨-, seen, safe⟩ := held phase rfl
    exact beginJob_starts safe choose loaded n
  · exact Job.inJob (held phase rfl)
  · exact transaction_out.1 ((held phase rfl).2 rfl).2

def noAutoRollback (_ : Sys) : Event → Bool
  | .autoRollback _ => false
  | .call _ _ | .poll _ _ | .write _ _ | .finish _ | .fail _ | .drop _ _ => true

theorem noAutoRollback_sound (s : Sys) (e : Event) (checked : noAutoRollback s e = true) :
    NoAutoRollback s e := by
  cases e with
  | autoRollback t => simp [noAutoRollback] at checked
  | _ => trivial

def droppedCommit : List Event :=
  [.call 0 .beginJob, .poll 0 false, .poll 0 false, .poll 0 false, .poll 0 false, .write 0 "a", .finish 0,
    .poll 0 false, .poll 0 false, .drop 0 true, .poll 0 false, .poll 0 false]

theorem belief_agrees_after_dropped_commit : ∃ s, (machine 8).Reaches NoAutoRollback s ∧ s.holder = none ∧
    s.batch.inFlight = some .commit ∧
    Agrees 8 (reconcile.exec serve (fun _ => false) (fun _ => 0) 0 s.batch).2 := by
  obtain ⟨s, reaches, passes⟩ := reaches_of_replay (m := machine 8) noAutoRollback_sound
    (fun s => s.holder == none && s.batch.inFlight == some .commit) droppedCommit (by decide)
  simp only [Bool.and_eq_true, beq_iff_eq] at passes
  exact ⟨s, reaches, passes.1, passes.2, ((belief_agrees reaches).2.1 (.inl passes.1) _ _ _).2⟩

end Wamux.Proof.GroupCommit
