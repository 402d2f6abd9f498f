import Wamux.Proof.GroupCommit.Invariant

namespace Wamux.Proof.GroupCommit
open Wamux.GroupCommit Wamux.Runs Wamux.Runs.Async Wamux.Runs.Machine

variable {cap : Nat} {s s' : Sys} {e : Event} {t : TaskId}

/-- The guards of `lock` and `lock_autocommit` are used for reads. -/
def ReadsOnly (s : Sys) : Event → Prop
  | .write t _ => ∀ method, s.phase t ≠ .connHeld method
  | .call _ _ | .poll _ _ | .autoRollback _ | .finish _ | .fail _ | .drop _ _ => True

def readsOnly (s : Sys) : Event → Bool
  | .write t _ => match s.phase t with
      | .connHeld _ => false
      | _ => true
  | .call _ _ | .poll _ _ | .autoRollback _ | .finish _ | .fail _ | .drop _ _ => true

theorem readsOnly_sound (s : Sys) (e : Event) (checked : readsOnly s e = true) : ReadsOnly s e := by
  cases e with
  | write t value =>
      intro method held
      simp [readsOnly, held] at checked
  | _ => trivial

/-! ## Acknowledged jobs -/

theorem readsOnly_permits (reads : ReadsOnly s e) : Permits ⟨True, True, False⟩ s e := by
  cases e with
  | write t value => exact .inr reads
  | drop t ran => exact fun _ _ _ _ => .inl trivial
  | _ => trivial

theorem Holds.wholeJobs {F : Faults} {taken : List TaskId} {written : TaskId → List String} {b : BatchState}
    (reads : ¬F.guardWrites) (holds : Holds F taken written b) : Log written b.conn b.ledger :=
  holds.log.resolve_left reads

theorem acknowledged_jobs_durable (reaches : (machine cap).Reaches ReadsOnly s) :
    (∀ t, s.phase t = .ended (.finished (.ok ())) →
      ∀ value ∈ s.written t, ⟨t, value⟩ ∈ s.batch.conn.committed) ∧
    s.taken.Nodup ∧ ∃ jobs : List TaskId, jobs.Sublist s.taken ∧
      s.batch.conn.committed = jobs.flatMap (writesOf s.written) ∧
      ∀ t, s.phase t = .ended (.finished (.ok ())) → t ∈ jobs := by
  have inv := reachable_inv (fun s e => readsOnly_permits) reaches
  have log := inv.holds.wholeJobs (by simp)
  have acknowledged (t : TaskId) (ended : s.phase t = .ended (.finished (.ok ()))) :
      t ∈ s.batch.ledger.durable := by
    have fact := inv.fact t
    rw [ended] at fact
    exact fact
  refine ⟨fun t ended value member => ?_, inv.holds.once, s.batch.ledger.durable, ?_, log.committed,
    acknowledged⟩
  · rw [log.committed, List.mem_flatMap]
    exact ⟨t, acknowledged t ended, List.mem_map.2 ⟨value, member, rfl⟩⟩
  · have order := inv.holds.order
    rw [List.append_assoc] at order
    exact (List.sublist_append_left _ _).trans order

def twoJobsTogether : List Event :=
  [.call 0 .beginJob, .call 1 .beginJob, .poll 0 false, .poll 1 false, .poll 0 false, .poll 0 false, .poll 0 false,
    .write 0 "a", .finish 0, .poll 0 false, .poll 0 false, .poll 0 false, .poll 0 false, .poll 1 false, .poll 0 false,
    .poll 1 false, .poll 0 false, .write 1 "b", .finish 1, .poll 1 false, .poll 1 false, .poll 1 false, .poll 1 false,
    .poll 0 false, .poll 1 false, .poll 0 false, .poll 0 false, .poll 0 false, .poll 0 false, .poll 0 false, .poll 0 false]

def returned (s : Sys) (t : TaskId) (result : StoreResult Unit) : Bool :=
  match s.phase t with
  | .ended (.finished found) => found = result
  | _ => false

theorem returned_ended {result : StoreResult Unit} (ended : returned s t result = true) :
    s.phase t = .ended (.finished result) := by
  unfold returned at ended
  split at ended
  · rename_i found phase
    simp only [decide_eq_true_eq] at ended
    rw [phase, ended]
  · cases ended

theorem acknowledged_jobs_durable_together : ∃ s, (machine 8).Reaches ReadsOnly s ∧
    s.written 0 = ["a"] ∧ s.written 1 = ["b"] ∧ ⟨0, "a"⟩ ∈ s.batch.conn.committed ∧ ⟨1, "b"⟩ ∈ s.batch.conn.committed := by
  obtain ⟨s, reaches, passes⟩ := reaches_of_replay (m := machine 8) readsOnly_sound
    (fun s => (returned s 0 (.ok ()) && s.written 0 == ["a"]) && (returned s 1 (.ok ()) && s.written 1 == ["b"])) twoJobsTogether
    (by decide)
  simp only [Bool.and_eq_true, beq_iff_eq] at passes
  obtain ⟨⟨first, wrote⟩, second, wrote'⟩ := passes
  have durable := (acknowledged_jobs_durable reaches).1
  exact ⟨s, reaches, wrote, wrote', durable 0 (returned_ended first) "a" (by simp [wrote]),
    durable 1 (returned_ended second) "b" (by simp [wrote'])⟩

/-! ## Jobs given up -/

/-- `fail` was called, the guard was dropped with neither `finish` nor `fail` polled, or `finish`
returned an error that says the job is not durable. -/
def EndGivesUp : Ending → Prop
  | .failed | .abandoned | .dropped .fail => True
  | .finished (.error e) => e ≠ .unknownOutcome
  | .finished (.ok ()) | .refused _ | .released | .dropped .finish | .dropped .commitIfDrained
  | .dropped .beginJob | .dropped .lock | .dropped .lockAutocommit => False

def GivesUp : Phase → Prop
  | .running .fail _ => True
  | .leaving _ (.ended ending) | .ended ending => EndGivesUp ending
  | _ => False

/-- No write of a job given up is in the log, now or in any later state, and a job runs inside a
transaction that the batch began. -/
structure NeverDurable (cap : Nat) (allowed : Sys → Event → Prop) (s : Sys) : Prop where
  absent : ∀ t, GivesUp (s.phase t) → ∀ s', (machine cap).Leads allowed s s' →
    ∀ w ∈ s'.batch.conn.committed, w.job ≠ t
  begun : ∀ t, s.phase t = .jobHeld false →
    s.batch.conn.inTransaction = true ∧ s.batch.conn.implicit = false

/-- No future is dropped while it awaits a RELEASE or a ROLLBACK TO outside any transaction. -/
def NoLostSavepointDrop (s : Sys) : Event → Prop
  | .drop t _ => ∀ method statement next, s.phase t = .running method (.await statement next) →
      statement = .release ∨ statement = .rollbackToSavepoint → s.batch.conn.inTransaction = true
  | .call _ _ | .poll _ _ | .write _ _ | .autoRollback _ | .finish _ | .fail _ => True

def KeepsTransaction (s : Sys) (e : Event) : Prop := ReadsOnly s e ∧ NoLostSavepointDrop s e

theorem keeps_permits (keeps : KeepsTransaction s e) : Permits ⟨True, False, False⟩ s e := by
  obtain ⟨reads, kept⟩ := keeps
  cases e with
  | write t value => exact .inr reads
  | drop t ran =>
      refine fun method statement next phase => .inr fun _ ⟨savepoint, out⟩ => ?_
      rw [transaction_out, kept method statement next phase savepoint] at out
      cases out
  | _ => trivial

theorem EndGivesUp.notKept {F : Faults} {ending : Ending} {b : BatchState} (sharp : ¬F.stale)
    (gives : EndGivesUp ending) (fact : EndFact F t b ending) : NotKept t b := by
  cases ending with
  | failed => exact fact
  | abandoned => exact fact
  | finished result =>
      cases result with
      | ok => exact gives.elim
      | error e =>
          rcases fact.2 with stale | unknown | kept
          · exact absurd stale sharp
          · exact absurd unknown gives
          · exact kept.symm
  | dropped method =>
      cases method with
      | fail => exact fact
      | _ => exact gives.elim
  | refused e => exact gives.elim
  | released => exact gives.elim

theorem GivesUp.notKept {F : Faults} {phase : Phase} {b : BatchState} {taken : List TaskId}
    {written : TaskId → List String} (sharp : ¬F.stale) (gives : GivesUp phase)
    (fact : Fact F taken written t b phase) : NotKept t b := by
  cases phase with
  | running method code =>
      cases method with
      | fail => exact fact
      | _ => exact gives.elim
  | leaving drops next =>
      cases next with
      | ended ending => exact EndGivesUp.notKept sharp gives fact
      | _ => exact gives.elim
  | ended ending => exact EndGivesUp.notKept sharp gives fact
  | _ => exact gives.elim

theorem GivesUp.leave {drops : List Owned} {next : After} (gives : GivesUp (.leaving drops next))
    (rest : List Owned) : GivesUp (leave next rest) := by
  cases next with
  | ended ending => cases rest <;> exact gives
  | wait => exact gives.elim
  | park => exact gives.elim

theorem fail_givesUp {F : Faults} {b : BatchState} {taken : List TaskId} {written : TaskId → List String}
    {code : Locked Outcome} {seen : Option Nat}
    (safe : Safe (discipline F cap taken written none) (Post F cap taken written .fail t) code b seen) :
    GivesUp (codePhase .fail (code.advance b).2) := by
  obtain ⟨-, rest⟩ := advanced safe
  rcases code.advance_paused b with ⟨outcome, stopped⟩ | paused
  · rw [stopped] at rest ⊢
    cases outcome with
    | failed => trivial
    | started result => simp [Safe, Post] at rest
    | finished result => simp [Safe, Post] at rest
    | waits => simp [Safe, Post] at rest
    | guard result => cases result <;> simp [Safe, Post] at rest
    | rechecked result => cases result <;> simp [Safe, Post] at rest
  · rw [codePhase_paused paused]
    trivial

theorem GivesUp.move {F : Faults} (inv : Inv F (max cap 1) s) (move : Move cap s e s')
    (gives : GivesUp (s.phase t)) : GivesUp (s'.phase t) := by
  by_cases own : t = task e
  · cases move with
    | @resumed _ u method code batch taken how =>
        have same : u = t := how.task.trans own.symm
        subst same
        obtain ⟨seen, runs⟩ := inv.runs how
        have failing : ∀ method code, s.phase u = .running method code → method = .fail := by
          intro method code phase
          rw [phase] at gives
          cases method with
          | fail => rfl
          | _ => exact gives.elim
        cases how with
        | granted phase holds => rw [phase] at gives; exact gives.elim
        | finishing phase => rw [phase] at gives; exact gives.elim
        | failing phase => rw [phase] at gives; exact gives.elim
        | served phase =>
            have same := failing _ _ phase
            subst same
            rw [Sys.resume, setPhase_self]
            exact fail_givesUp runs.safe
        | loaded phase =>
            have same := failing _ _ phase
            subst same
            rw [Sys.resume, setPhase_self]
            exact fail_givesUp runs.safe
    | left phase =>
        obtain rfl : t = _ := own
        rw [phase] at gives
        rw [setPhase_self]
        exact gives.leave _
    | droppedAwaiting phase =>
        rename_i method _ _
        obtain rfl : t = _ := own
        rw [phase] at gives
        rw [setPhase_self]
        cases method with
        | fail => trivial
        | _ => exact gives.elim
    | _ =>
        obtain rfl : t = _ := own
        simp_all [GivesUp]
  · rw [move.other own]
    exact gives

theorem GivesUp.absent {allowed : Sys → Event → Prop} (permits : ∀ s e, allowed s e → Permits ⟨True, False, False⟩ s e)
    (reaches : (machine cap).Reaches allowed s) (gives : GivesUp (s.phase t)) (leads : (machine cap).Leads allowed s s') :
    ∀ w ∈ s'.batch.conn.committed, w.job ≠ t := by
  intro w member
  have still : GivesUp (s'.phase t) := leads.stable (fun s => GivesUp (s.phase t)) reaches gives
    fun s e s' reaches gives _ moved => gives.move (reachable_inv permits reaches) (step_move moved)
  have inv := reachable_inv permits (leads.reaches reaches)
  have absent := (still.notKept (by simp) (inv.fact t)).2
  rw [(inv.holds.wholeJobs (by simp)).committed, List.mem_flatMap] at member
  obtain ⟨u, durable, written⟩ := member
  obtain ⟨value, -, rfl⟩ := List.mem_map.1 written
  rintro rfl
  exact absent durable

theorem given_up_never_durable (reaches : (machine cap).Reaches KeepsTransaction s) :
    NeverDurable cap KeepsTransaction s := by
  refine ⟨fun t gives s' leads => gives.absent (fun s e => keeps_permits) reaches leads, fun t held => ?_⟩
  have inv := reachable_inv (fun s e => keeps_permits) reaches
  have holds := inv.locking.mutex.owner t (by simp [held, role])
  have job := inv.held t holds
  rw [held] at job
  rcases (Job.inside job rfl).2 with saved | ⟨stale, -⟩
  · exact ⟨(transaction_saved.1 saved).1, (transaction_saved.1 saved).2.1⟩
  · exact stale.elim

def keepsTransaction (s : Sys) (e : Event) : Bool :=
  readsOnly s e && match e with
    | .drop _ _ => false
    | _ => true

theorem keepsTransaction_sound (s : Sys) (e : Event) (checked : keepsTransaction s e = true) :
    KeepsTransaction s e := by
  simp only [keepsTransaction, Bool.and_eq_true] at checked
  refine ⟨readsOnly_sound s e checked.1, ?_⟩
  cases e with
  | drop t ran => simp at checked
  | _ => trivial

def abortedJob : List Event :=
  [.call 0 .beginJob, .poll 0 false, .poll 0 false, .poll 0 false, .poll 0 false, .write 0 "a",
    .autoRollback 0, .fail 0, .poll 0 false, .poll 0 false, .poll 0 false, .poll 0 false]

def hasFailed (s : Sys) (t : TaskId) : Bool :=
  match s.phase t with
  | .ended .failed => true
  | _ => false

theorem given_up_never_durable_once : ∃ s, (machine 8).Reaches KeepsTransaction s ∧
    s.written 0 = ["a"] ∧ GivesUp (s.phase 0) ∧ ∀ w ∈ s.batch.conn.committed, w.job ≠ 0 := by
  obtain ⟨s, reaches, passes⟩ := reaches_of_replay (m := machine 8) keepsTransaction_sound
    (fun s => hasFailed s 0 && s.written 0 == ["a"]) abortedJob (by decide)
  simp only [Bool.and_eq_true, beq_iff_eq] at passes
  have gives : GivesUp (s.phase 0) := by
    have failed := passes.1
    unfold hasFailed at failed
    split at failed
    · rename_i ended
      rw [ended]
      trivial
    · cases failed
  exact ⟨s, reaches, passes.2, gives, (given_up_never_durable reaches).absent 0 gives s .here⟩

/-- Job 0 fails after the engine rolled its transaction back, and its future is dropped while it
awaits ROLLBACK TO. Job 1 then runs inside the savepoint's own transaction: RELEASE commits it, and
COMMIT has nothing left to commit. -/
def staleBatch : List Event :=
  [.call 0 .beginJob, .poll 0 false, .poll 0 false, .poll 0 false, .poll 0 false, .write 0 "a",
    .autoRollback 0, .fail 0, .drop 0 false, .poll 0 false, .poll 0 false,
    .call 1 .beginJob, .poll 1 false, .poll 1 false, .poll 1 false, .poll 1 false, .write 1 "b", .finish 1,
    .poll 1 false, .poll 1 false, .poll 1 false, .poll 1 false, .poll 1 false, .poll 1 false]

theorem failed_finish_durable :
    ¬∀ s, (machine 8).Reaches ReadsOnly s → NeverDurable 8 ReadsOnly s := by
  intro claim
  obtain ⟨s, reaches, passes⟩ := reaches_of_replay (m := machine 8) readsOnly_sound
    (fun s => returned s 1 (.error .nothingToCommit) && s.batch.conn.committed == [⟨1, "b"⟩]) staleBatch
    (by decide)
  simp only [Bool.and_eq_true, beq_iff_eq] at passes
  have gives : GivesUp (s.phase 1) := by
    rw [returned_ended passes.1]
    simp [GivesUp, EndGivesUp]
  exact (claim s reaches).absent 1 gives s .here ⟨1, "b"⟩ (by simp [passes.2]) rfl

end Wamux.Proof.GroupCommit
