import Wamux.Proof.GroupCommit.Code

namespace Wamux.Proof.GroupCommit
open Wamux.GroupCommit Wamux.Runs Wamux.Runs.Async

variable {F : Faults} {cap : Nat} {taken : List TaskId} {written : TaskId → List String}
  {s : BatchState} {seen : Option Nat} {who : Option TaskId}

theorem settleUnknownCommit_safe (holds : Holds F taken written s) (opened : s.openBatch.isSome)
    (idle : s.jobOpen = false) (situation : transaction s.conn = .out ∨ transaction s.conn = .begun) :
    Safe (discipline F cap taken written who) (fun _ s' _ => Closed F taken written s')
      settleUnknownCommit s seen := by
  obtain ⟨batch, opened⟩ := Option.isSome_iff_exists.1 opened
  unfold settleUnknownCommit
  simp only [safe_bind, safe_read, opened, Option.isNone_some, Bool.false_eq_true, if_false]
  refine runCommit_safe holds (by simp [opened]) idle situation (fun s' here same idle committed => ?_)
    fun e _ here => ?_
  · unfold countCommit
    simp only [safe_bind, safe_read, safe_modify]
    have told : ∀ t ∈ waitersOf s'.openBatch, t ∈ s'.ledger.durable := by
      rw [same]
      exact committed.waiters
    -- The counters are the only thing written between the COMMIT and the answers.
    generalize counted : (if (s'.openBatch.getD {}).jobs > 0 then _ else s') = s₁
    have parts : Here F taken written s₁ ∧ s₁.openBatch = s'.openBatch ∧ s₁.jobOpen = s'.jobOpen ∧
        s₁.conn = s'.conn ∧ s₁.ledger = s'.ledger ∧ s₁.answers = s'.answers := by
      subst counted
      split_ifs
      · exact ⟨⟨here.holds, here.quiet⟩, rfl, rfl, rfl, rfl, rfl⟩
      · exact ⟨here, rfl, rfl, rfl, rfl, rfl⟩
    obtain ⟨here₁, batch₁, job₁, conn₁, ledger₁, answers₁⟩ := parts
    rw [← batch₁]
    refine ⟨⟨.of_eq ledger₁ answers₁, by rw [ledger₁]⟩, ⟨.answer here₁.holds _, rfl⟩, ?_⟩
    refine .answer here₁ (by rw [job₁, idle]) (by rw [conn₁, committed.out]) (fun _ => ?_) (by simp)
      (.inr (by simp))
    rw [batch₁, ledger₁]
    exact told
  · exact (discardBatch_safe here.holds (by simp) (.inr (.inl rfl))).weaken fun _ _ _ closed => closed.1

theorem undoSavepoint_safe (holds : Holds F taken written s) (usable : Usable F cap s)
    (inside : transaction s.conn = .begun ∨ transaction s.conn = .saved ∨ F.stale) :
    Safe (discipline F cap taken written who) (fun _ s' _ => Ended F cap taken written s')
      undoSavepoint s seen := by
  have implied (implicit : transaction s.conn = .implicit) : F.stale := by
    simpa [implicit] using inside
  have lost (out : transaction s.conn = .out) : F.auto ∨ F.stale := by
    simpa [out] using Or.inr inside
  unfold undoSavepoint
  simp only [safe_bind, safe_modify]
  refine (rollbackJob_safe holds usable implied lost).weaken fun result s' seen' left => ?_
  refine ⟨⟨.of_eq rfl rfl, rfl⟩, ?_⟩
  cases result with
  | ok =>
      have ended := Undone.ended left usable implied
      have same : { s' with jobOpen := false } = s' := by rw [← ended.idle]
      rwa [same]
  | error e =>
      obtain ⟨rfl, unmarked⟩ := left
      refine ⟨⟨holds, rfl⟩, ?_, rfl⟩
      have usable : Usable F cap { s with inFlight := none, jobOpen := false } := usable.congr rfl (.inr rfl)
      cases situation : transaction s.conn with
      | begun => exact .opened usable rfl situation
      | out =>
          have stale : F.stale := by simpa [situation] using inside
          exact .stale stale usable rfl situation
      | saved => simp [transaction_saved, unmarked] at situation
      | implicit =>
          have marked := (holds.sound.implied (transaction_implicit.1 situation).2).1
          simp [unmarked] at marked

theorem reconcile_safe (idle : Idle F cap taken written s) :
    Safe (discipline F cap taken written who)
      (fun _ s' _ => Here F taken written s' ∧ Settled F cap s') reconcile s seen := by
  have shape := idle.shape
  unfold Shape at shape
  unfold reconcile
  simp only [safe_bind, safe_read]
  cases flying : s.inFlight with
  | none => exact ⟨⟨idle.holds, flying⟩, idle.settled flying⟩
  | some statement =>
      rw [flying] at shape
      have discard : Safe (discipline F cap taken written who)
          (fun _ s' _ => Here F taken written s' ∧ Settled F cap s') discardTransaction s seen :=
        (discardBatch_safe idle.holds (by simp) (.inr (.inl rfl))).weaken fun _ _ _ closed =>
          ⟨closed.1.toHere, closed.1.settled⟩
      have undo (found : Usable F cap s ∧
          (transaction s.conn = .begun ∨ transaction s.conn = .saved ∨ F.stale)) :
          Safe (discipline F cap taken written who)
            (fun _ s' _ => Here F taken written s' ∧ Settled F cap s') undoSavepoint s seen :=
        (undoSavepoint_safe idle.holds found.1 found.2).weaken fun _ _ _ ended =>
          ⟨ended.toHere, ended.settled⟩
      cases statement with
      | begin => exact discard
      | rollback => exact discard
      | commit =>
          obtain ⟨opened, job, situation⟩ := shape
          exact (settleUnknownCommit_safe idle.holds opened job situation).weaken fun _ _ _ closed =>
            ⟨closed.toHere, closed.settled⟩
      | savepoint => exact undo shape
      | release => exact undo shape
      | rollbackToSavepoint => exact undo shape

end Wamux.Proof.GroupCommit
