import Wamux.Proof.GroupCommit.Statements

namespace Wamux.Proof.GroupCommit
open Wamux.GroupCommit

/-- What a run may contain: `auto` a rollback by the engine, `stale` a batch left open over a
transaction the engine rolled back, `guardWrites` a statement other than a read on a `ConnGuard`. -/
structure Faults where
  auto : Prop
  stale : Prop
  guardWrites : Prop

def writesOf (written : TaskId → List String) (t : TaskId) : List Write :=
  (written t).map (Write.mk t)

def waitersOf (batch : Option OpenBatch) : List TaskId := (batch.getD {}).waiters

/-- The connection holds the writes of whole jobs: the durable ones in its committed log, the held
ones and the running one in its open transaction. -/
structure Log (written : TaskId → List String) (db : FakeDb) (ledger : Ledger) : Prop where
  committed : db.committed = ledger.durable.flatMap (writesOf written)
  opened : db.openWrites = (ledger.held ++ ledger.running.toList).flatMap (writesOf written)
  marked : ∀ mark, db.savepointMark = some mark →
    mark = (ledger.held.flatMap (writesOf written)).length

/-- What holds at every moment another task can look, on the parts of the state it speaks of. -/
structure Good (F : Faults) (taken : List TaskId) (written : TaskId → List String) (db : FakeDb)
    (batch : Option OpenBatch) (answers : TaskId → List BatchAnswer) (ledger : Ledger) : Prop where
  sound : Sound db ledger
  order : (ledger.durable ++ ledger.held ++ ledger.running.toList).Sublist taken
  once : taken.Nodup
  log : F.guardWrites ∨ Log written db ledger
  sent : ∀ t ∈ waitersOf batch, t ∈ ledger.senders ∧ answers t = []
  apart : (waitersOf batch).Nodup
  answered : ∀ t ∈ ledger.senders, t ∈ waitersOf batch ∨ ∃ answer, answers t = [answer]
  unsent : ∀ t, t ∉ ledger.senders → answers t = []
  kept : ∀ t, .ok () ∈ answers t → t ∈ ledger.durable
  named : ∀ t, .error .droppedBeforeCommit ∉ answers t
  lost : F.stale ∨ ∀ t e, .error e ∈ answers t → e ≠ .unknownOutcome →
    t ∉ ledger.durable ∧ t ∉ ledger.held
  carried : transaction db = .begun ∨ transaction db = .saved →
    ∀ t ∈ waitersOf batch, t ∈ ledger.held

variable {F : Faults} {taken : List TaskId} {written : TaskId → List String} {s s' s'' : BatchState}
  {c : Bool} {who : Option TaskId}

def Holds (F : Faults) (taken : List TaskId) (written : TaskId → List String) (s : BatchState) : Prop :=
  Good F taken written s.conn s.openBatch s.answers s.ledger

theorem Good.apartFrom {db : FakeDb} {batch : Option OpenBatch} {answers : TaskId → List BatchAnswer}
    {ledger : Ledger} (good : Good F taken written db batch answers ledger) {t : TaskId}
    (member : t ∈ ledger.held ∨ ledger.running = some t) : t ∉ ledger.durable := by
  have nodup := good.order.nodup good.once
  rw [List.append_assoc] at nodup
  intro durable
  refine (List.nodup_append.1 nodup).2.2 t durable t ?_ rfl
  rcases member with held | running
  · exact List.mem_append_left _ held
  · exact List.mem_append_right _ (by simp [running])

theorem Good.sameWaiters {db : FakeDb} {batch batch' : Option OpenBatch}
    {answers : TaskId → List BatchAnswer} {ledger : Ledger}
    (good : Good F taken written db batch answers ledger) (same : waitersOf batch' = waitersOf batch) :
    Good F taken written db batch' answers ledger := by
  refine ⟨good.sound, good.order, good.once, good.log, ?_, ?_, ?_, good.unsent, good.kept, good.named,
    good.lost, ?_⟩ <;> rw [same]
  · exact good.sent
  · exact good.apart
  · exact good.answered
  · exact good.carried

/-! ## A statement keeps what holds -/

def Ready (taken : List TaskId) (written : TaskId → List String) (s : BatchState) :
    ControlStatement → Prop
  | .begin => s.openBatch = none ∧ transaction s.conn = .out
  | .savepoint => s.ledger.running = none ∧ written s.ledger.starting = [] ∧
      (s.ledger.durable ++ s.ledger.held ++ [s.ledger.starting]).Sublist taken
  | .release => ∀ t, s.ledger.running = some t → s.answers t = []
  | .commit => s.ledger.running = none
  | .rollbackToSavepoint | .rollback => True

theorem Effect.log {statement : ControlStatement} {served : StoreResult Unit × BatchState}
    (effect : Effect s statement served) (sound : Sound s.conn s.ledger)
    (log : Log written s.conn s.ledger) (ready : Ready taken written s statement) :
    Log written served.2.conn served.2.ledger := by
  have starts (idle : s.ledger.running = none) :
      s.conn.openWrites = s.ledger.held.flatMap (writesOf written) := by simpa [idle] using log.opened
  cases effect with
  | refused => exact log
  | begun out => exact ⟨log.committed, log.opened, log.marked⟩
  | implied out =>
      obtain ⟨idle, empty, -⟩ := ready
      exact ⟨log.committed, by simp [starts idle, writesOf, empty], by simp [starts idle]⟩
  | saved inside =>
      obtain ⟨idle, empty, -⟩ := ready
      exact ⟨log.committed, by simp [starts idle, writesOf, empty], by simp [starts idle]⟩
  | released saved => exact ⟨log.committed, by simpa using log.opened, by simp⟩
  | committedAlone implicit =>
      refine ⟨?_, by simp [FakeDb.commitOpen], by simp [FakeDb.commitOpen]⟩
      simp [FakeDb.commitOpen, log.committed, log.opened, sound.held_implicit implicit]
  | undone marked =>
      refine ⟨log.committed, ?_, log.marked⟩
      simp [log.marked _ marked, log.opened]
  | committed inside =>
      refine ⟨?_, by simp [FakeDb.commitOpen], by simp [FakeDb.commitOpen]⟩
      simp [FakeDb.commitOpen, log.committed, log.opened]
  | rolledBack inside =>
      exact ⟨log.committed, by simp [FakeDb.rollbackOpen], by simp [FakeDb.rollbackOpen]⟩

theorem Effect.order {statement : ControlStatement} {served : StoreResult Unit × BatchState}
    (effect : Effect s statement served) (sound : Sound s.conn s.ledger)
    (order : (s.ledger.durable ++ s.ledger.held ++ s.ledger.running.toList).Sublist taken)
    (ready : Ready taken written s statement) :
    (served.2.ledger.durable ++ served.2.ledger.held ++ served.2.ledger.running.toList).Sublist taken := by
  have held := (List.sublist_append_left _ _).trans order
  cases effect with
  | refused => exact order
  | begun out => exact order
  | implied out => exact ready.2.2
  | saved inside => exact ready.2.2
  | released saved => simpa using order
  | committedAlone implicit => simpa [sound.held_implicit implicit] using order
  | undone marked => simpa using held
  | committed inside => simpa using order
  | rolledBack inside => simpa using (List.sublist_append_left _ _).trans held

/-- A job enters the open transaction or the log only from its savepoint. -/
theorem Effect.member {statement : ControlStatement} {served : StoreResult Unit × BatchState}
    (effect : Effect s statement served) {t : TaskId}
    (member : t ∈ served.2.ledger.held ∨ t ∈ served.2.ledger.durable) :
    t ∈ s.ledger.held ∨ t ∈ s.ledger.durable ∨
      (s.ledger.running = some t ∧ (statement = .release ∨ statement = .commit)) := by
  cases effect with
  | refused => tauto
  | begun out => tauto
  | implied out => tauto
  | saved inside => tauto
  | undone marked => tauto
  | released saved => simp only [List.mem_append, Option.mem_toList] at member; tauto
  | committedAlone implicit =>
      simp only [List.mem_append, Option.mem_toList, List.not_mem_nil] at member; tauto
  | committed inside =>
      simp only [List.mem_append, Option.mem_toList, List.not_mem_nil] at member; tauto
  | rolledBack inside => simp only [List.not_mem_nil] at member; tauto

theorem Effect.durable {statement : ControlStatement} {served : StoreResult Unit × BatchState}
    (effect : Effect s statement served) : s.ledger.durable ⊆ served.2.ledger.durable := by
  cases effect <;> simp

theorem Holds.serve (holds : Holds F taken written s) (statement : ControlStatement)
    (ready : Ready taken written s statement) : Holds F taken written (serve statement c s).2 := by
  have effect := serve_effect (c := c) holds.sound statement
  refine ⟨effect.sound holds.sound, effect.order holds.sound holds.order ready, holds.once,
    holds.log.imp_right fun log => effect.log holds.sound log ready, ?_, ?_, ?_, ?_, ?_, ?_, ?_, ?_⟩
  · simpa using holds.sent
  · simpa using holds.apart
  · simpa using holds.answered
  · simpa using holds.unsent
  · intro t answer
    exact effect.durable (holds.kept t (by simpa using answer))
  · simpa using holds.named
  · -- A job told its batch failed is not the running one, which has no answer yet.
    refine holds.lost.imp_right fun lost t e answer known => ?_
    rw [serve_answers] at answer
    obtain ⟨notDurable, notHeld⟩ := lost t e answer known
    have apart : ¬(t ∈ (Wamux.GroupCommit.serve statement c s).2.ledger.held ∨
        t ∈ (Wamux.GroupCommit.serve statement c s).2.ledger.durable) := by
      intro member
      rcases effect.member member with held | durable | ⟨running, released | committed⟩
      · exact notHeld held
      · exact notDurable durable
      · subst released
        simp [ready t running] at answer
      · subst committed
        simp [show s.ledger.running = none from ready] at running
    exact ⟨fun durable => apart (.inr durable), fun held => apart (.inl held)⟩
  · intro inside t member
    rw [serve_openBatch] at member
    have carried := holds.carried
    generalize Wamux.GroupCommit.serve statement c s = served at effect inside ⊢
    cases effect with
    | refused => exact carried inside t member
    | begun out => simp [show s.openBatch = none from ready.1, waitersOf] at member
    | implied out => simp [transaction] at inside
    | saved entered =>
        refine carried ?_ t member
        simp only [transaction] at inside ⊢
        split_ifs at inside ⊢ <;> simp_all
    | released saved => exact List.mem_append_left _ (carried (.inr saved) t member)
    | committedAlone implicit => simp [transaction, FakeDb.commitOpen] at inside
    | undone marked => exact carried inside t member
    | committed entered => simp [transaction, FakeDb.commitOpen] at inside
    | rolledBack entered => simp [transaction, FakeDb.rollbackOpen] at inside

/-! ## What the other tasks rely on -/

/-- What one step of a holder of the lock may change: nothing durable is lost, an answer is final,
and only `who` may be released or become a sender. -/
structure Guarantee (who : Option TaskId) (s s' : BatchState) : Prop where
  durable : s.ledger.durable ⊆ s'.ledger.durable
  answers : ∀ t, s.answers t ≠ [] → s'.answers t = s.answers t
  senders : s.ledger.senders ⊆ s'.ledger.senders
  sender : ∀ t ∈ s'.ledger.senders, t ∈ s.ledger.senders ∨ who = some t
  moved : ∀ t, t ∈ s'.ledger.held ∨ t ∈ s'.ledger.durable →
    t ∈ s.ledger.held ∨ t ∈ s.ledger.durable ∨ who = some t

theorem Guarantee.refl (s : BatchState) : Guarantee who s s :=
  ⟨fun _ h => h, fun _ _ => rfl, fun _ h => h, fun _ => .inl, fun _ => Or.imp_right .inl⟩

theorem Guarantee.trans (first : Guarantee who s s') (second : Guarantee who s' s'') :
    Guarantee who s s'' := by
  refine ⟨fun t h => second.durable (first.durable h), fun t h => ?_,
    fun t h => second.senders (first.senders h), fun t h => ?_, fun t h => ?_⟩
  · have same := first.answers t h
    rw [second.answers t (by rwa [same]), same]
  · exact (second.sender t h).elim (first.sender t) .inr
  · rcases second.moved t h with held | durable | same
    · exact first.moved t (.inl held)
    · exact first.moved t (.inr durable)
    · exact .inr (.inr same)

theorem Guarantee.of_eq (ledger : s'.ledger = s.ledger) (answers : s'.answers = s.answers) :
    Guarantee who s s' := by
  refine ⟨?_, fun t _ => by rw [answers], ?_, ?_, ?_⟩ <;> rw [ledger]
  · exact fun _ h => h
  · exact fun _ h => h
  · exact fun _ => .inl
  · exact fun _ => Or.imp_right .inl

theorem Guarantee.serve (sound : Sound s.conn s.ledger) (statement : ControlStatement)
    (owner : statement = .release ∨ statement = .commit →
      ∀ t, s.ledger.running = some t → who = some t) :
    Guarantee who s (serve statement c s).2 := by
  have effect := serve_effect (c := c) sound statement
  refine ⟨effect.durable, by simp, by simp, fun t h => .inl (by simpa using h), fun t h => ?_⟩
  rcases effect.member h with held | durable | ⟨running, issued⟩
  · exact .inl held
  · exact .inr (.inl durable)
  · exact .inr (.inr (owner issued t running))

end Wamux.Proof.GroupCommit
