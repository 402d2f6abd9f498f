import Wamux.GroupCommit.System
import Wamux.Proof.GroupCommit.Jobs

namespace Wamux.Proof.GroupCommit
open Wamux.GroupCommit Wamux.Runs Wamux.Runs.Async

variable {F : Faults} {cap : Nat} {taken : List TaskId} {written : TaskId → List String}
  {s s' : BatchState} {seen : Option Nat} {t : TaskId}

/-! ## What each method leaves -/

def FinishFact (F : Faults) (t : TaskId) (result : StoreResult Unit) (s : BatchState) : Prop :=
  match result with
  | .ok () => t ∈ s.ledger.durable
  | .error e => e ≠ .droppedBeforeCommit ∧
      (F.stale ∨ e = .unknownOutcome ∨ (t ∉ s.ledger.durable ∧ t ∉ s.ledger.held))

/-- No released job is left open, or `n` writers were just counted and one of them commits it. -/
def Covered (n : Nat) (s : BatchState) (seen : Option Nat) : Prop :=
  s.ledger.held = [] ∨ ∃ pending, seen = some pending ∧ n < pending

def Post (F : Faults) (cap : Nat) (taken : List TaskId) (written : TaskId → List String) (method : Method)
    (t : TaskId) (outcome : Outcome) (s : BatchState) (seen : Option Nat) : Prop :=
  match outcome with
  | .started result => method = .beginJob ∧ result = .ok () ∧ Job F cap taken written false t s
  | .finished result => method = .finish ∧ Idle F cap taken written s ∧ FinishFact F t result s ∧
      s.ledger.held = []
  | .waits => method = .finish ∧ Idle F cap taken written s ∧ t ∈ waitersOf s.openBatch
  | .failed => method = .fail ∧ Idle F cap taken written s ∧
      (t ∉ s.ledger.durable ∧ t ∉ s.ledger.held) ∧ Covered 1 s seen
  | .guard (.ok ()) => (method = .lock ∨ method = .lockAutocommit) ∧ Ended F cap taken written s ∧
      (method = .lockAutocommit → s.openBatch = none ∧ transaction s.conn = .out) ∧ Covered 0 s seen
  | .guard (.error _) => method = .lockAutocommit ∧ Idle F cap taken written s ∧ s.ledger.held = []
  | .rechecked (some result) => method = .commitIfDrained ∧ Idle F cap taken written s ∧
      FinishFact F t result s ∧ Covered 0 s seen
  | .rechecked none => method = .commitIfDrained ∧ Idle F cap taken written s ∧ t ∈ s.ledger.senders ∧
      ∃ pending, seen = some pending ∧ 0 < pending

theorem Ended.toIdle (ended : Ended F cap taken written s) : Idle F cap taken written s :=
  ended.toHere.idle ended.settled

theorem Closed.toIdle (closed : Closed F taken written s) : Idle F cap taken written s :=
  closed.ended.toIdle

theorem Closed.held (closed : Closed F taken written s) : s.ledger.held = [] :=
  (closed.holds.sound.held_out closed.out).1

theorem Job.toIdle {aborted : Bool} (job : Job F cap taken written aborted t s) :
    Idle F cap taken written s := by
  refine job.toHere.idle ?_
  cases aborted with
  | true => exact .lost (job.outside rfl).1 job.usable job.job (job.outside rfl).2
  | false =>
      rcases (job.inside rfl).2 with saved | ⟨stale, implicit⟩
      · exact .saved job.usable job.job saved
      · exact .implied stale job.usable job.job implicit

theorem beginJobBody_safe (positive : 0 < cap) (idle : Idle F cap taken written s)
    (fresh : Fresh taken written t s) :
    Safe (discipline F cap taken written none) (Post F cap taken written .beginJob t) beginJobBody s
      seen := by
  unfold beginJobBody
  simp only [safe_bind, safe_pure]
  refine (remembered (reconcile_safe idle)).weaken ?_
  rintro _ s₁ seen₁ ⟨⟨here, settled⟩, guarantee, starting⟩
  exact (startJob_safe positive here settled (fresh.kept guarantee starting)).weaken
    fun _ _ _ started => ⟨rfl, started⟩

theorem lockBody_safe (idle : Idle F cap taken written s) :
    Safe (discipline F cap taken written none) (Post F cap taken written .lock t) lockBody s seen := by
  unfold lockBody pendingWriters
  simp only [safe_bind, safe_observe]
  refine (reconcile_safe idle).weaken ?_
  rintro _ s₁ seen₁ ⟨here, settled⟩
  refine (settleAbandoned_safe here settled).weaken ?_
  rintro _ s₂ _ ⟨_, ended⟩
  refine ⟨ended.holds, fun pending => ?_⟩
  split_ifs with zero
  · simp only [safe_bind, safe_pure]
    refine (closeBatch_safe ended).weaken ?_
    rintro _ s₃ _ ⟨closed, _⟩
    exact ⟨.inl rfl, closed.ended, by simp, .inl closed.held⟩
  · exact ⟨.inl rfl, ended, by simp, .inr ⟨pending, rfl, Nat.pos_of_ne_zero (by simpa using zero)⟩⟩

theorem lockAutocommitBody_safe (idle : Idle F cap taken written s) :
    Safe (discipline F cap taken written none) (Post F cap taken written .lockAutocommit t)
      lockAutocommitBody s seen := by
  unfold lockAutocommitBody
  simp only [safe_bind]
  refine (reconcile_safe idle).weaken ?_
  rintro _ s₁ seen₁ ⟨here, settled⟩
  refine (settleAbandoned_safe here settled).weaken ?_
  rintro result s₂ _ ⟨ok, ended⟩
  subst ok
  simp only [safe_bind, safe_pure]
  refine (closeBatch_safe ended).weaken ?_
  rintro result s₃ _ ⟨closed, _⟩
  cases result with
  | ok => exact ⟨.inr rfl, closed.ended, fun _ => ⟨closed.none, closed.out⟩, .inl closed.held⟩
  | error e => exact ⟨rfl, closed.toIdle, closed.held⟩

theorem Holds.finishFact (holds : Holds F taken written s) {answer : BatchAnswer}
    (answered : s.answers t = [answer]) : FinishFact F t (batchAnswer (some answer)) s := by
  cases answer with
  | ok => exact holds.kept t (by simp [answered])
  | error e =>
      refine ⟨fun same => holds.named t (by simp [answered, same]), ?_⟩
      rcases holds.lost with stale | lost
      · exact .inl stale
      · by_cases unknown : e = .unknownOutcome
        · exact .inr (.inl unknown)
        · exact .inr (.inr (lost t e (by simp [answered]) unknown))

theorem Holds.tryRecv (holds : Holds F taken written s) (sender : t ∈ s.ledger.senders) :
    s.tryRecv t = .empty ∨ ∃ answer, s.tryRecv t = .value answer ∧ s.answers t = [answer] := by
  unfold BatchState.tryRecv
  rcases holds.answered t sender with waits | ⟨answer, answered⟩
  · have unanswered := (holds.sent t waits).2
    have waits : t ∈ (s.openBatch.getD {}).waiters := waits
    simp [unanswered, waits]
  · exact .inr ⟨answer, by simp [answered], answered⟩

/-- The answer is looked at once the count is settled, in whatever state the batch then is. -/
theorem recheck_safe (idle : Idle F cap taken written s) (sender : t ∈ s.ledger.senders) (covered : Covered 0 s seen)
    (counted : s.tryRecv t = .empty → ∃ pending, seen = some pending ∧ 0 < pending) :
    Safe (discipline F cap taken written none) (Post F cap taken written .commitIfDrained t)
      (match s.tryRecv t with
      | .empty => pure (.rechecked none)
      | .value answer => pure (.rechecked (some (batchAnswer (some answer))))
      | .closed => pure (.rechecked (some (batchAnswer none)))) s seen := by
  rcases idle.holds.tryRecv sender with empty | ⟨answer, value, answered⟩
  · rw [empty]
    exact ⟨rfl, idle, sender, counted empty⟩
  · rw [value]
    exact ⟨rfl, idle, idle.holds.finishFact answered, covered⟩

theorem commitIfDrainedBody_safe (idle : Idle F cap taken written s) (sender : t ∈ s.ledger.senders) :
    Safe (discipline F cap taken written none) (Post F cap taken written .commitIfDrained t)
      (commitIfDrainedBody t) s seen := by
  unfold commitIfDrainedBody pendingWriters
  simp only [safe_bind, safe_observe]
  refine (remembered (reconcile_safe idle)).weaken ?_
  rintro _ s₁ seen₁ ⟨⟨here, settled⟩, kept₁, _⟩
  refine ⟨here.holds, fun pending => ?_⟩
  split_ifs with zero
  · simp only [safe_bind, safe_read]
    refine (remembered (settleAbandoned_safe here settled)).weaken ?_
    rintro _ s₂ _ ⟨⟨_, ended⟩, kept₂, _⟩
    refine (remembered (closeBatch_safe ended)).weaken ?_
    rintro _ s₃ _ ⟨⟨closed, _⟩, kept₃, _⟩
    refine recheck_safe closed.toIdle (kept₃.senders (kept₂.senders (kept₁.senders sender)))
      (.inl closed.held) fun empty => ?_
    rcases closed.holds.answered t (kept₃.senders (kept₂.senders (kept₁.senders sender))) with waits | ⟨_, found⟩
    · simp [closed.none, waitersOf] at waits
    · simp [BatchState.tryRecv, found] at empty
  · simp only [safe_bind, safe_read]
    have positive : 0 < pending := Nat.pos_of_ne_zero (by simpa using zero)
    exact recheck_safe (here.idle settled) (kept₁.senders sender) (.inr ⟨pending, rfl, positive⟩)
      fun _ => ⟨pending, rfl, positive⟩

theorem Released.finishFact {jobs : Nat} {result : StoreResult Unit}
    (released : Released F cap taken written t jobs s) (closed : Closed F taken written s')
    (told : Told s result s') (kept : s.ledger.durable ⊆ s'.ledger.durable) : FinishFact F t result s' := by
  cases result with
  | ok =>
      rcases released.inside with ⟨-, held, -⟩ | ⟨-, -, durable⟩
      · exact told held
      · exact kept durable
  | error e =>
      obtain ⟨⟨named, -⟩, same⟩ := told
      refine ⟨named, ?_⟩
      rcases released.inside with ⟨-, -, notDurable⟩ | ⟨stale, -⟩
      · exact .inr (.inr ⟨by rwa [same], by simp [closed.held]⟩)
      · exact .inl stale

def joined (t : TaskId) (s : BatchState) : BatchState :=
  { s with openBatch := s.openBatch.map fun batch => { batch with waiters := batch.waiters ++ [t] },
           ledger := { s.ledger with senders := s.ledger.senders ++ [t] } }

theorem joined_guarantee : Guarantee (some t) s (joined t s) := by
  refine ⟨fun _ h => h, fun _ _ => rfl, List.subset_append_left _ _, fun u sender => ?_,
    fun _ => Or.imp_right .inl⟩
  rcases List.mem_append.1 sender with before | last
  · exact .inl before
  · exact .inr (by rw [List.mem_singleton.1 last])

theorem Released.joined_holds {jobs : Nat} (released : Released F cap taken written t jobs s) :
    Holds F taken written (joined t s) := by
  obtain ⟨batch, opened, -⟩ := released.batch
  have holds := released.holds
  have waiters : waitersOf (joined t s).openBatch = waitersOf s.openBatch ++ [t] := by
    simp [joined, waitersOf, opened]
  have unanswered := holds.unsent t released.unsent
  refine ⟨⟨holds.sound.1, holds.sound.2, holds.sound.3⟩, holds.order, holds.once,
    holds.log.imp_right fun log => ⟨log.1, log.2, log.3⟩, fun u waits => ?_, ?_, fun u sender => ?_,
    fun u unsent => ?_, holds.kept, holds.named, holds.lost, fun inside u waits => ?_⟩
  · rw [waiters, List.mem_append, List.mem_singleton] at waits
    rcases waits with before | rfl
    · exact ⟨List.mem_append_left _ (holds.sent u before).1, (holds.sent u before).2⟩
    · exact ⟨by simp [joined], unanswered⟩
  · rw [waiters]
    refine List.nodup_append.2 ⟨holds.apart, by simp, fun u before v last => ?_⟩
    rw [List.mem_singleton.1 last]
    rintro rfl
    exact released.unsent (holds.sent u before).1
  · rw [waiters]
    rcases List.mem_append.1 sender with before | last
    · exact (holds.answered u before).imp_left fun waits => List.mem_append_left _ waits
    · exact .inl (List.mem_append_right _ last)
  · exact holds.unsent u fun before => unsent (List.mem_append_left _ before)
  · rw [waiters, List.mem_append, List.mem_singleton] at waits
    rcases waits with before | rfl
    · exact holds.carried inside u before
    · rcases released.inside with ⟨-, held, -⟩ | ⟨-, out, -⟩
      · exact held
      · simp [joined, out] at inside

theorem Released.joined_idle {jobs : Nat} (released : Released F cap taken written t jobs s)
    (room : jobs < cap) : Idle F cap taken written (joined t s) := by
  obtain ⟨batch, opened, counted⟩ := released.batch
  have usable : Usable F cap (joined t s) := by
    refine ⟨by simp [joined, opened], fun found same => ?_, ?_⟩
    · simp only [joined, opened, Option.map_some, Option.mem_def, Option.some.injEq] at same
      subst same
      exact counted ▸ room
    · rcases released.inside with ⟨-, -, notDurable⟩ | ⟨stale, -⟩
      · refine released.unanswered.imp_right fun fresh w waits => ?_
        simp only [joined, waitersOf, opened, Option.map_some, Option.getD_some, List.mem_append,
          List.mem_singleton] at waits
        rcases waits with before | rfl
        · exact fresh w (by simpa [waitersOf, opened] using before)
        · exact notDurable
      · exact .inl stale
  refine Here.idle ⟨released.joined_holds, released.quiet⟩ ?_
  rcases released.inside with ⟨begun, -⟩ | ⟨stale, out, -⟩
  · exact .opened usable released.idle begun
  · exact .stale stale usable released.idle out

theorem finishBody_safe {aborted : Bool} (job : Job F cap taken written aborted t s) :
    Safe (discipline F cap taken written (some t)) (Post F cap taken written .finish t) (finishBody cap t) s
      seen := by
  unfold finishBody pendingWriters
  simp only [safe_bind]
  refine (remembered (endJob_safe job)).weaken ?_
  rintro result s₁ seen₁ ⟨left, kept, _⟩
  cases result with
  | error e =>
      obtain ⟨closed, rfl, notDurable⟩ := left
      exact ⟨rfl, closed.toIdle, ⟨by simp, .inr (.inr ⟨notDurable, by simp [closed.held]⟩)⟩, closed.held⟩
  | ok jobs =>
      have released : Released F cap taken written t jobs s₁ := left
      simp only [safe_bind, safe_observe]
      refine ⟨released.holds, fun pending => ?_⟩
      split_ifs with close
      · simp only [safe_bind, safe_pure]
        refine (remembered (closeBatch_safe released.ended)).weaken ?_
        rintro result s₂ _ ⟨⟨closed, told⟩, kept, _⟩
        exact ⟨rfl, closed.toIdle, released.finishFact closed told kept.durable, closed.held⟩
      · simp only [safe_bind, safe_modify, safe_pure]
        have room : jobs < cap := by
          simp only [Bool.or_eq_true, not_or, decide_eq_true_eq] at close
          exact Nat.lt_of_not_ge close.2
        obtain ⟨batch, opened, -⟩ := released.batch
        exact ⟨⟨joined_guarantee, rfl⟩, rfl, released.joined_idle room, by simp [waitersOf, opened]⟩

theorem failBody_safe {aborted : Bool} (job : Job F cap taken written aborted t s) :
    Safe (discipline F cap taken written none) (Post F cap taken written .fail t) failBody s seen := by
  have implied (implicit : transaction s.conn = .implicit) : F.stale := by
    cases aborted with
    | false => simpa [implicit] using (job.inside rfl).2
    | true => simp [(job.outside rfl).2] at implicit
  have lost (out : transaction s.conn = .out) : F.auto ∨ F.stale := by
    cases aborted with
    | false => simpa [out] using (job.inside rfl).2
    | true => exact .inl (job.outside rfl).1
  unfold failBody pendingWriters
  simp only [safe_bind]
  refine (remembered (rollbackJobOrDiscard_safe job.toHere job.usable implied lost)).weaken ?_
  rintro kept s₁ seen₁ ⟨left, guarantee, _⟩
  obtain ⟨notHeld, notDurable⟩ := guarantee.apart (by simp) job.notHeld job.notDurable
  cases kept with
  | false => exact ⟨rfl, left.1.toIdle, ⟨notDurable, notHeld⟩, .inl left.1.held⟩
  | true =>
      have ended : Ended F cap taken written s₁ := Undone.ended left job.usable implied
      simp only [Bool.not_true, Bool.false_eq_true, if_false, safe_bind, safe_observe]
      refine ⟨ended.holds, fun pending => ?_⟩
      split_ifs with last
      · simp only [safe_bind, safe_pure]
        refine (remembered (closeBatch_safe ended)).weaken ?_
        rintro _ s₂ _ ⟨⟨closed, _⟩, guarantee, _⟩
        obtain ⟨notHeld, notDurable⟩ := guarantee.apart (by simp) notHeld notDurable
        exact ⟨rfl, closed.toIdle, ⟨notDurable, notHeld⟩, .inl closed.held⟩
      · refine ⟨rfl, ended.toIdle, ⟨notDurable, notHeld⟩, .inr ⟨pending, rfl, ?_⟩⟩
        simp only [beq_iff_eq] at last
        omega

end Wamux.Proof.GroupCommit
