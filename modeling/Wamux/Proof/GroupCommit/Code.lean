import Wamux.Proof.GroupCommit.Ledger

namespace Wamux.Proof.GroupCommit
open Wamux.GroupCommit Wamux.Runs Wamux.Runs.Async

/-! ## What the next holder of the lock finds -/

structure Usable (F : Faults) (cap : Nat) (s : BatchState) : Prop where
  opened : s.openBatch.isSome
  room : ∀ batch ∈ s.openBatch, batch.jobs < cap
  unanswered : F.stale ∨ ∀ t ∈ waitersOf s.openBatch, t ∉ s.ledger.durable

inductive Settled (F : Faults) (cap : Nat) (s : BatchState) : Prop where
  | closed (none : s.openBatch = none) (idle : s.jobOpen = false) (out : transaction s.conn = .out)
  | opened (usable : Usable F cap s) (idle : s.jobOpen = false) (begun : transaction s.conn = .begun)
  | stale (may : F.stale) (usable : Usable F cap s) (idle : s.jobOpen = false)
      (out : transaction s.conn = .out)
  | saved (usable : Usable F cap s) (job : s.jobOpen = true) (saved : transaction s.conn = .saved)
  | implied (may : F.stale) (usable : Usable F cap s) (job : s.jobOpen = true)
      (implicit : transaction s.conn = .implicit)
  | lost (may : F.auto) (usable : Usable F cap s) (job : s.jobOpen = true)
      (out : transaction s.conn = .out)

/-- The states a dropped future leaves, by the statement it left in flight: each allows the
statement to have run or not. -/
def Shape (F : Faults) (cap : Nat) (s : BatchState) : Prop :=
  match s.inFlight with
  | none => Settled F cap s
  | some .begin => s.openBatch = none ∧ s.jobOpen = false ∧
      (transaction s.conn = .out ∨ transaction s.conn = .begun)
  | some .savepoint | some .release | some .rollbackToSavepoint => Usable F cap s ∧
      (transaction s.conn = .begun ∨ transaction s.conn = .saved ∨ F.stale)
  | some .commit => s.openBatch.isSome ∧ s.jobOpen = false ∧
      (transaction s.conn = .out ∨ transaction s.conn = .begun)
  | some .rollback => True

structure Idle (F : Faults) (cap : Nat) (taken : List TaskId) (written : TaskId → List String)
    (s : BatchState) : Prop where
  holds : Holds F taken written s
  shape : Shape F cap s

/-- A future awaiting RELEASE or ROLLBACK TO outside any transaction is the one whose drop leaves
the batch stale; only a rollback by the engine brings one there. -/
def MayDrop (F : Faults) (statement : ControlStatement) (s : BatchState) : Prop :=
  F.stale ∨ (F.auto →
    ¬((statement = .release ∨ statement = .rollbackToSavepoint) ∧ transaction s.conn = .out))

def discipline (F : Faults) (cap : Nat) (taken : List TaskId) (written : TaskId → List String)
    (who : Option TaskId) : Discipline BatchState ControlStatement (StoreResult Unit) Bool where
  serve := serve
  always := Holds F taken written
  dropped := Idle F cap taken written
  mayDrop := MayDrop F
  guar s s' := Guarantee who s s' ∧ s'.ledger.starting = s.ledger.starting

variable {F : Faults} {cap : Nat} {taken : List TaskId} {written : TaskId → List String}
  {s : BatchState} {seen : Option Nat} {who : Option TaskId} {α : Type}

structure Here (F : Faults) (taken : List TaskId) (written : TaskId → List String)
    (s : BatchState) : Prop where
  holds : Holds F taken written s
  quiet : s.inFlight = none

theorem Here.idle (here : Here F taken written s) (settled : Settled F cap s) :
    Idle F cap taken written s := by
  refine ⟨here.holds, ?_⟩
  unfold Shape
  rw [here.quiet]
  exact settled

theorem Idle.settled (idle : Idle F cap taken written s) (quiet : s.inFlight = none) :
    Settled F cap s := by
  have shape := idle.shape
  unfold Shape at shape
  rw [quiet] at shape
  exact shape

theorem Usable.congr {s s' : BatchState} (usable : Usable F cap s) (batch : s'.openBatch = s.openBatch)
    (durable : F.stale ∨ s'.ledger.durable = s.ledger.durable) : Usable F cap s' := by
  refine ⟨by rw [batch]; exact usable.opened, by rw [batch]; exact usable.room, ?_⟩
  rw [batch]
  rcases durable with stale | same
  · exact .inl stale
  · rw [same]
    exact usable.unanswered

theorem Settled.congr {s s' : BatchState} (settled : Settled F cap s) (conn : s'.conn = s.conn)
    (batch : s'.openBatch = s.openBatch) (job : s'.jobOpen = s.jobOpen)
    (durable : s'.ledger.durable = s.ledger.durable) : Settled F cap s' := by
  have usable (usable : Usable F cap s) : Usable F cap s' := usable.congr batch (.inr durable)
  cases settled with
  | closed none idle out => exact .closed (batch ▸ none) (job ▸ idle) (conn ▸ out)
  | opened found idle begun => exact .opened (usable found) (job ▸ idle) (conn ▸ begun)
  | stale may found idle out => exact .stale may (usable found) (job ▸ idle) (conn ▸ out)
  | saved found open_ saved => exact .saved (usable found) (job ▸ open_) (conn ▸ saved)
  | implied may found open_ implicit => exact .implied may (usable found) (job ▸ open_) (conn ▸ implicit)
  | lost may found open_ out => exact .lost may (usable found) (job ▸ open_) (conn ▸ out)

theorem Shape.congr {s s' : BatchState} (shape : Shape F cap s) (flying : s'.inFlight = s.inFlight)
    (conn : s'.conn = s.conn) (batch : s'.openBatch = s.openBatch) (job : s'.jobOpen = s.jobOpen)
    (durable : s'.ledger.durable = s.ledger.durable) : Shape F cap s' := by
  have usable (usable : Usable F cap s) : Usable F cap s' := usable.congr batch (.inr durable)
  unfold Shape at shape ⊢
  rw [flying]
  cases statement : s.inFlight with
  | none =>
      rw [statement] at shape
      exact shape.congr conn batch job durable
  | some statement' =>
      rw [statement] at shape
      cases statement' with
      | begin => rwa [conn, batch, job]
      | commit => rwa [conn, batch, job]
      | rollback => trivial
      | savepoint => exact ⟨usable shape.1, conn ▸ shape.2⟩
      | release => exact ⟨usable shape.1, conn ▸ shape.2⟩
      | rollbackToSavepoint => exact ⟨usable shape.1, conn ▸ shape.2⟩

/-! ## One control statement -/

theorem guar_refl (s : BatchState) : (discipline F cap taken written who).guar s s := ⟨.refl s, rfl⟩

theorem guar_trans {a b c : BatchState} (first : (discipline F cap taken written who).guar a b)
    (second : (discipline F cap taken written who).guar b c) :
    (discipline F cap taken written who).guar a c :=
  ⟨first.1.trans second.1, second.2.trans first.2⟩

theorem remembered {post : α → BatchState → Option Nat → Prop} {m : Locked α}
    (safe : Safe (discipline F cap taken written who) post m s seen) :
    Safe (discipline F cap taken written who)
      (fun value s' seen' => post value s' seen' ∧ Guarantee who s s' ∧
        s'.ledger.starting = s.ledger.starting) m s seen :=
  safe.remember guar_refl guar_trans

theorem advanced {post : α → BatchState → Option Nat → Prop} {m : Locked α}
    (safe : Safe (discipline F cap taken written who) post m s seen) :
    Guarantee who s (m.advance s).1 ∧
      Safe (discipline F cap taken written who) post (m.advance s).2 (m.advance s).1 seen := by
  obtain ⟨⟨moved, -⟩, rest⟩ := safe.advance guar_refl guar_trans
  exact ⟨moved, rest⟩

theorem runControl_safe {post : StoreResult Unit → BatchState → Option Nat → Prop}
    (statement : ControlStatement) (holds : Holds F taken written s)
    (ready : Ready taken written s statement)
    (owner : statement = .release ∨ statement = .commit →
      ∀ t, s.ledger.running = some t → who = some t)
    (dropped : MayDrop F statement s → Shape F cap { s with inFlight := some statement } ∧
      ∀ c, Shape F cap { (serve statement c s).2 with inFlight := some statement })
    (next : ∀ c s', s' = { (serve statement c s).2 with inFlight := none } → Here F taken written s' →
      post (serve statement c s).1 s' none) :
    Safe (discipline F cap taken written who) post (runControl statement) s seen := by
  unfold runControl
  simp only [safe_bind, safe_modify, safe_perform, safe_pure]
  refine ⟨⟨.of_eq rfl rfl, rfl⟩, holds, fun may => ⟨holds, (dropped may).1⟩, fun c => ?_⟩
  simp only [discipline, serve_mark]
  have kept : Holds F taken written (serve statement c s).2 := holds.serve statement ready
  have moved : Guarantee who s (serve statement c s).2 := .serve holds.sound statement owner
  have marked : Guarantee who { s with inFlight := some statement } s := .of_eq rfl rfl
  exact ⟨fun may => ⟨kept, (dropped may).2 c⟩, ⟨marked.trans (moved.trans (.of_eq rfl rfl)), by simp⟩,
    ⟨.of_eq rfl rfl, trivial⟩, next c _ rfl ⟨kept, rfl⟩⟩

/-! ## Ending a batch -/

structure Closed (F : Faults) (taken : List TaskId) (written : TaskId → List String)
    (s : BatchState) : Prop extends Here F taken written s where
  none : s.openBatch = none
  idle : s.jobOpen = false
  out : transaction s.conn = .out

theorem Closed.settled (closed : Closed F taken written s) : Settled F cap s :=
  .closed closed.none closed.idle closed.out

def answered (answer : BatchAnswer) (s : BatchState) : BatchState :=
  answerWaiters (s.openBatch.getD {}) answer { s with openBatch := none }

theorem answered_waiter (holds : Holds F taken written s) {answer : BatchAnswer} {t : TaskId}
    (waits : t ∈ waitersOf s.openBatch) : (answered answer s).answers t = [answer] := by
  have once : (s.openBatch.getD {}).waiters.count t = 1 := List.count_eq_one_of_mem holds.apart waits
  simp [answered, answerWaiters, (holds.sent t waits).2, once]

theorem answered_other {answer : BatchAnswer} {t : TaskId} (other : t ∉ waitersOf s.openBatch) :
    (answered answer s).answers t = s.answers t := by
  have none : (s.openBatch.getD {}).waiters.count t = 0 := List.count_eq_zero.2 other
  simp [answered, answerWaiters, none]

theorem Holds.answer (holds : Holds F taken written s) (out : transaction s.conn = .out)
    (answer : BatchAnswer) (kept : answer = .ok () → ∀ t ∈ waitersOf s.openBatch, t ∈ s.ledger.durable)
    (named : answer ≠ .error .droppedBeforeCommit)
    (lost : F.stale ∨ ∀ e, answer = .error e → e ≠ .unknownOutcome →
      ∀ t ∈ waitersOf s.openBatch, t ∉ s.ledger.durable) :
    Holds F taken written (answered answer s) := by
  have held := (holds.sound.held_out out).1
  refine ⟨holds.sound, holds.order, holds.once, holds.log, by simp [waitersOf, answered, answerWaiters],
    by simp [waitersOf, answered, answerWaiters], fun t sender => .inr ?_, fun t unsent => ?_,
    fun t ok => ?_, fun t error => ?_, ?_, fun _ => by simp [waitersOf, answered, answerWaiters]⟩
  · by_cases waits : t ∈ waitersOf s.openBatch
    · exact ⟨answer, answered_waiter holds waits⟩
    · rw [answered_other waits]
      exact (holds.answered t sender).resolve_left waits
  · have other : t ∉ waitersOf s.openBatch := fun waits => unsent (holds.sent t waits).1
    rw [answered_other other]
    exact holds.unsent t unsent
  · by_cases waits : t ∈ waitersOf s.openBatch
    · rw [answered_waiter holds waits, List.mem_singleton] at ok
      exact kept ok.symm t waits
    · rw [answered_other waits] at ok
      exact holds.kept t ok
  · by_cases waits : t ∈ waitersOf s.openBatch
    · rw [answered_waiter holds waits, List.mem_singleton] at error
      exact named error.symm
    · rw [answered_other waits] at error
      exact holds.named t error
  · rcases lost with stale | lost
    · exact .inl stale
    rcases holds.lost with stale | before
    · exact .inl stale
    refine .inr fun t e error known => ?_
    by_cases waits : t ∈ waitersOf s.openBatch
    · rw [answered_waiter holds waits, List.mem_singleton] at error
      exact ⟨lost e error.symm known t waits, by simp [answered, answerWaiters, held]⟩
    · rw [answered_other waits] at error
      exact before t e error known

theorem Guarantee.answer (holds : Holds F taken written s) (answer : BatchAnswer) :
    Guarantee who s (answered answer s) := by
  refine ⟨fun _ h => h, fun t some => ?_, fun _ h => h, fun _ => .inl, fun _ => Or.imp_right .inl⟩
  exact answered_other fun waits => some (holds.sent t waits).2

theorem rollback_durable {c : Bool} : (serve .rollback c s).2.ledger.durable = s.ledger.durable := by
  by_cases out : transaction s.conn = .out
  · rw [rollback_out out]
  · rw [rollback_runs out]

theorem discardBatch_safe {message : StoreError} (holds : Holds F taken written s)
    (named : message ≠ .droppedBeforeCommit)
    (lost : F.stale ∨ message = .unknownOutcome ∨ ∀ t ∈ waitersOf s.openBatch, t ∉ s.ledger.durable) :
    Safe (discipline F cap taken written who)
      (fun _ s' _ => Closed F taken written s' ∧ s'.ledger.durable = s.ledger.durable)
      (discardBatch message) s seen := by
  unfold discardBatch
  simp only [safe_bind]
  refine runControl_safe .rollback holds trivial (by simp) (fun _ => ⟨trivial, fun _ => trivial⟩)
    fun c s' served here => ?_
  have out : transaction s'.conn = .out := by rw [served]; exact rollback_leaves_out
  have durable : s'.ledger.durable = s.ledger.durable := by rw [served]; exact rollback_durable
  have batch : s'.openBatch = s.openBatch := by simp [served]
  rw [safe_read]
  cases opened : s'.openBatch with
  | none =>
      simp only [safe_modify]
      exact ⟨⟨.of_eq rfl rfl, rfl⟩, ⟨⟨here.holds, here.quiet⟩, opened, rfl, out⟩, durable⟩
  | some batch' =>
      have told : answerWaiters batch' (.error message) { s' with openBatch := none } =
          answered (.error message) s' := by simp [answered, opened]
      simp only [safe_bind, safe_modify, told]
      refine ⟨⟨.answer here.holds _, rfl⟩, ⟨.of_eq rfl rfl, rfl⟩, ⟨⟨?_, here.quiet⟩, rfl, rfl, out⟩,
        durable⟩
      refine here.holds.answer out (.error message) (by simp) (by simpa using named) ?_
      rcases lost with stale | unknown | fresh
      · exact .inl stale
      · refine .inr fun e same known => ?_
        rw [unknown, Except.error.injEq] at same
        exact absurd same.symm known
      · refine .inr fun e _ _ t waits => ?_
        rw [durable]
        exact fresh t (by rwa [batch] at waits)

/-! ## Undoing a job -/

structure Undone (F : Faults) (taken : List TaskId) (written : TaskId → List String)
    (s s' : BatchState) : Prop extends Here F taken written s' where
  idle : s'.jobOpen = false
  batch : s'.openBatch = s.openBatch
  held : s'.ledger.held = s.ledger.held
  durable : s'.ledger.durable = s.ledger.durable
  left : (transaction s.conn = .saved ∧ transaction s'.conn = .begun) ∨
    (transaction s.conn = .implicit ∧ transaction s'.conn = .out)

theorem shape_probe (statement : ControlStatement)
    (probes : statement = .savepoint ∨ statement = .release ∨ statement = .rollbackToSavepoint)
    (usable : Usable F cap s)
    (inside : transaction s.conn = .begun ∨ transaction s.conn = .saved ∨ F.stale) :
    Shape F cap { s with inFlight := some statement } := by
  rcases probes with rfl | rfl | rfl <;> exact ⟨⟨usable.1, usable.2, usable.3⟩, inside⟩

structure ReleasedEmpty (s : BatchState) (served : StoreResult Unit × BatchState) : Prop where
  ok : served.1 = .ok ()
  held : served.2.ledger.held = s.ledger.held
  durable : served.2.ledger.durable = s.ledger.durable
  left : (transaction s.conn = .saved ∧ transaction served.2.conn = .begun) ∨
    (transaction s.conn = .implicit ∧ transaction served.2.conn = .out)

theorem release_empty {c : Bool} (sound : Sound s.conn s.ledger) (idle : s.ledger.running = none)
    (inside : transaction s.conn = .saved ∨ transaction s.conn = .implicit) :
    ReleasedEmpty s (serve .release c s) := by
  rcases inside with saved | implicit
  · rw [release_saved saved]
    obtain ⟨entered, explicit, -⟩ := transaction_saved.1 saved
    exact ⟨rfl, by simp [idle], rfl, .inl ⟨saved, transaction_begun.2 ⟨entered, explicit, rfl⟩⟩⟩
  · rw [release_implicit sound implicit]
    exact ⟨rfl, (sound.held_implicit implicit).symm, by simp [idle], .inr ⟨implicit, rfl⟩⟩

theorem rollbackJob_safe (holds : Holds F taken written s) (usable : Usable F cap s)
    (implied : transaction s.conn = .implicit → F.stale)
    (lost : transaction s.conn = .out → F.auto ∨ F.stale) :
    Safe (discipline F cap taken written who)
      (fun result s' _ => match result with
        | .ok () => Undone F taken written s s'
        | .error _ => s' = { s with inFlight := none } ∧ s.conn.savepointMark = none)
      rollbackJob s seen := by
  unfold rollbackJob
  simp only [safe_bind]
  cases marked : s.conn.savepointMark with
  | none =>
      have unchanged (c : Bool) := rollbackTo_unmarked (c := c) marked
      have inside (may : MayDrop F .rollbackToSavepoint s) :
          transaction s.conn = .begun ∨ transaction s.conn = .saved ∨ F.stale := by
        rcases may with stale | entered
        · exact .inr (.inr stale)
        · cases situation : transaction s.conn with
          | out =>
              refine .inr (.inr ((lost situation).resolve_left fun auto => ?_))
              exact entered auto ⟨.inr rfl, situation⟩
          | begun => exact .inl rfl
          | saved => exact .inr (.inl rfl)
          | implicit => exact .inr (.inr (implied situation))
      refine runControl_safe .rollbackToSavepoint holds trivial (by simp) (fun may => ?_)
        fun c s' served _ => ?_
      · refine ⟨shape_probe _ (by simp) usable (inside may), fun c => ?_⟩
        rw [unchanged]
        exact shape_probe _ (by simp) usable (inside may)
      · rw [unchanged] at served ⊢
        exact ⟨served, rfl⟩
  | some mark =>
      have undone (c : Bool) := rollbackTo_marked (c := c) marked
      have inside := holds.sound.marked_inside marked
      have probe : transaction s.conn = .begun ∨ transaction s.conn = .saved ∨ F.stale :=
        .inr (inside.imp id implied)
      have same (c : Bool) : transaction (serve .rollbackToSavepoint c s).2.conn = transaction s.conn := by
        rw [undone]; rfl
      refine runControl_safe .rollbackToSavepoint holds trivial (by simp) (fun _ => ?_)
        fun c s₁ served here₁ => ?_
      · refine ⟨shape_probe _ (by simp) usable probe, fun c => ?_⟩
        refine shape_probe _ (by simp) (usable.congr (by simp) (.inr ?_)) (by rwa [same])
        rw [undone]
      have ok : (serve .rollbackToSavepoint c s).1 = .ok () := by rw [undone]
      have situation : transaction s₁.conn = transaction s.conn := by rw [served]; exact same c
      have batch : s₁.openBatch = s.openBatch := by simp [served]
      have ledger : s₁.ledger = { s.ledger with running := none } := by simp [served, undone]
      have usable₁ : Usable F cap s₁ := usable.congr batch (.inr (by rw [ledger]))
      have idle : s₁.ledger.running = none := by rw [ledger]
      have released (c : Bool) : ReleasedEmpty s₁ (serve .release c s₁) :=
        release_empty here₁.holds.sound idle (by rwa [situation])
      rw [ok]
      simp only [safe_bind]
      refine runControl_safe .release here₁.holds (by simp [Ready, idle]) (by simp [idle]) (fun _ => ?_)
        fun c s₂ served here₂ => ?_
      · refine ⟨shape_probe _ (by simp) usable₁ (by rwa [situation]), fun c => ?_⟩
        refine shape_probe _ (by simp) (usable₁.congr (by simp) (.inr (released c).durable)) ?_
        rcases (released c).left with ⟨-, begun⟩ | ⟨implicit, -⟩
        · exact .inl begun
        · exact .inr (.inr (implied (situation ▸ implicit)))
      · rw [(released c).ok]
        simp only [safe_bind, safe_modify, safe_pure]
        refine ⟨⟨.of_eq rfl rfl, rfl⟩, ⟨here₂.holds, here₂.quiet⟩, rfl, ?_, ?_, ?_, ?_⟩
        · simp [served, batch]
        · simp [served, (released c).held, ledger]
        · simp [served, (released c).durable, ledger]
        · rw [← situation]
          simpa [served] using (released c).left

theorem rollbackJobOrDiscard_safe (here : Here F taken written s) (usable : Usable F cap s)
    (implied : transaction s.conn = .implicit → F.stale)
    (lost : transaction s.conn = .out → F.auto ∨ F.stale) :
    Safe (discipline F cap taken written who)
      (fun kept s' _ => if kept then Undone F taken written s s'
        else Closed F taken written s' ∧ s'.ledger.durable = s.ledger.durable)
      rollbackJobOrDiscard s seen := by
  unfold rollbackJobOrDiscard
  simp only [safe_bind]
  refine (rollbackJob_safe here.holds usable implied lost).weaken fun result s' seen' left => ?_
  cases result with
  | ok => exact left
  | error e =>
      obtain ⟨rfl, unmarked⟩ := left
      simp only [safe_bind, safe_pure]
      have left : Holds F taken written { s with inFlight := none } := here.holds
      refine (discardBatch_safe left (by simp) (usable.unanswered.imp_right .inr)).weaken
        fun _ s'' _ closed => closed

structure Ended (F : Faults) (cap : Nat) (taken : List TaskId) (written : TaskId → List String)
    (s : BatchState) : Prop extends Here F taken written s where
  settled : Settled F cap s
  idle : s.jobOpen = false

theorem Closed.ended (closed : Closed F taken written s) : Ended F cap taken written s :=
  ⟨closed.toHere, closed.settled, closed.idle⟩

theorem Undone.ended {s' : BatchState} (undone : Undone F taken written s s') (usable : Usable F cap s)
    (implied : transaction s.conn = .implicit → F.stale) : Ended F cap taken written s' := by
  have usable : Usable F cap s' := usable.congr undone.batch (.inr undone.durable)
  refine ⟨undone.toHere, ?_, undone.idle⟩
  rcases undone.left with ⟨-, begun⟩ | ⟨implicit, out⟩
  · exact .opened usable undone.idle begun
  · exact .stale (implied implicit) usable undone.idle out

theorem Settled.usable (settled : Settled F cap s) (job : s.jobOpen = true) :
    Usable F cap s ∧ (transaction s.conn = .implicit → F.stale) ∧
      (transaction s.conn = .out → F.auto ∨ F.stale) := by
  cases settled with
  | closed none idle out => simp [job] at idle
  | opened usable idle begun => simp [job] at idle
  | stale may usable idle out => simp [job] at idle
  | saved usable job saved => exact ⟨usable, by simp [saved], by simp [saved]⟩
  | implied may usable job implicit => exact ⟨usable, fun _ => may, fun _ => .inr may⟩
  | lost may usable job out => exact ⟨usable, by simp [out], fun _ => .inl may⟩

theorem settleAbandoned_safe (here : Here F taken written s) (settled : Settled F cap s) :
    Safe (discipline F cap taken written who)
      (fun result s' _ => result = .ok () ∧ Ended F cap taken written s') settleAbandoned s seen := by
  unfold settleAbandoned
  simp only [safe_bind, safe_read]
  cases job : s.jobOpen with
  | false => exact ⟨rfl, here, settled, job⟩
  | true =>
      obtain ⟨usable, implied, lost⟩ := settled.usable job
      simp only [Bool.not_true, Bool.false_eq_true, if_false, safe_bind, safe_pure]
      refine (rollbackJobOrDiscard_safe here usable implied lost).weaken fun kept s' _ left => ⟨trivial, ?_⟩
      cases kept with
      | true => exact Undone.ended left usable implied
      | false => exact left.1.ended

/-! ## Closing a batch -/

theorem Ended.situation (ended : Ended F cap taken written s) :
    (s.openBatch = none ∧ transaction s.conn = .out) ∨
    (Usable F cap s ∧ transaction s.conn = .begun) ∨
    (F.stale ∧ Usable F cap s ∧ transaction s.conn = .out) := by
  have idle := ended.idle
  cases ended.settled with
  | closed none idle out => exact .inl ⟨none, out⟩
  | opened usable idle begun => exact .inr (.inl ⟨usable, begun⟩)
  | stale may usable idle out => exact .inr (.inr ⟨may, usable, out⟩)
  | saved usable job saved => simp [job] at idle
  | implied may usable job implicit => simp [job] at idle
  | lost may usable job out => simp [job] at idle

def Told (s : BatchState) (result : StoreResult Unit) (s' : BatchState) : Prop :=
  match result with
  | .ok () => s.ledger.held ⊆ s'.ledger.durable
  | .error e => (e ≠ .droppedBeforeCommit ∧ e ≠ .unknownOutcome) ∧ s'.ledger.durable = s.ledger.durable

theorem Closed.answer {answer : BatchAnswer} (here : Here F taken written s) (idle : s.jobOpen = false)
    (out : transaction s.conn = .out)
    (kept : answer = .ok () → ∀ t ∈ waitersOf s.openBatch, t ∈ s.ledger.durable)
    (named : answer ≠ .error .droppedBeforeCommit)
    (lost : F.stale ∨ ∀ e, answer = .error e → e ≠ .unknownOutcome →
      ∀ t ∈ waitersOf s.openBatch, t ∉ s.ledger.durable) : Closed F taken written (answered answer s) :=
  ⟨⟨here.holds.answer out answer kept named lost, here.quiet⟩, rfl, idle, out⟩

structure Committed (s s' : BatchState) : Prop where
  out : transaction s'.conn = .out
  durable : s'.ledger.durable = s.ledger.durable ++ s.ledger.held
  waiters : ∀ t ∈ waitersOf s.openBatch, t ∈ s'.ledger.durable

theorem commit_begun (holds : Holds F taken written s) (begun : transaction s.conn = .begun) {c : Bool} :
    (serve .commit c s = (.error .diskFull, s)) ∨
    ((serve .commit c s).1 = .ok () ∧ Committed s (serve .commit c s).2) := by
  have inside : transaction s.conn ≠ .out := by simp [begun]
  cases c with
  | true => exact .inl (commit_fails inside)
  | false =>
      rw [commit_runs inside]
      have idle := holds.sound.running_begun begun
      refine .inr ⟨rfl, rfl, by simp [idle], fun t waits => ?_⟩
      simp [holds.carried (.inl begun) t waits]

theorem runCommit_safe {post : StoreResult Unit → BatchState → Option Nat → Prop}
    (holds : Holds F taken written s) (opened : s.openBatch.isSome) (idle : s.jobOpen = false)
    (situation : transaction s.conn = .out ∨ transaction s.conn = .begun)
    (ran : ∀ s', Here F taken written s' → s'.openBatch = s.openBatch → s'.jobOpen = false →
      Committed s s' → post (.ok ()) s' none)
    (refused : ∀ e, e ≠ .droppedBeforeCommit ∧ e ≠ .unknownOutcome →
      Here F taken written { s with inFlight := none } → post (.error e) { s with inFlight := none } none) :
    Safe (discipline F cap taken written who) post (runControl .commit) s seen := by
  have running : s.ledger.running = none := by
    rcases situation with out | begun
    · exact (holds.sound.held_out out).2
    · exact holds.sound.running_begun begun
  have outcomes (c : Bool) : (∃ e, (e ≠ .droppedBeforeCommit ∧ e ≠ .unknownOutcome) ∧
      serve .commit c s = (.error e, s)) ∨
      ((serve .commit c s).1 = .ok () ∧ Committed s (serve .commit c s).2) := by
    rcases situation with out | begun
    · exact .inl ⟨_, by simp, commit_out out⟩
    · exact (commit_begun holds begun).imp_left fun refused => ⟨_, by simp, refused⟩
  refine runControl_safe .commit holds running (by simp [running]) (fun _ => ?_) fun c s' served here => ?_
  · refine ⟨⟨opened, idle, situation⟩, fun c => ⟨by simpa using opened, by simpa using idle, ?_⟩⟩
    rcases outcomes c with ⟨e, -, refused⟩ | ⟨-, committed⟩
    · rw [refused]; exact situation
    · exact .inl committed.out
  · rcases outcomes c with ⟨e, known, refuses⟩ | ⟨ok, committed⟩
    · rw [refuses] at served ⊢
      subst served
      exact refused e known here
    · rw [ok]
      refine ran s' here (by simp [served]) (by simp [served, idle]) ?_
      subst served
      exact ⟨committed.out, committed.durable, committed.waiters⟩

theorem commitBatch_safe {room : Nat} (ended : Ended F room taken written s) :
    Safe (discipline F cap taken written who)
      (fun result s' _ => Closed F taken written s' ∧ Told s (result.map fun _ => ()) s')
      commitBatch s seen := by
  unfold commitBatch
  simp only [safe_bind, safe_read]
  cases opened : s.openBatch with
  | none =>
      rcases ended.situation with ⟨none, out⟩ | ⟨usable, -⟩ | ⟨-, usable, -⟩
      · have held := (ended.holds.sound.held_out out).1
        exact ⟨⟨ended.toHere, none, ended.idle, out⟩, by simp [Told, Except.map, held]⟩
      · simpa [opened] using usable.opened
      · simpa [opened] using usable.opened
  | some batch =>
      have situation : Usable F room s ∧ (transaction s.conn = .out ∨ transaction s.conn = .begun) := by
        rcases ended.situation with ⟨none, -⟩ | ⟨usable, begun⟩ | ⟨-, usable, out⟩
        · simp [opened] at none
        · exact ⟨usable, .inr begun⟩
        · exact ⟨usable, .inl out⟩
      simp only [Option.isNone_some, Bool.false_eq_true, if_false, safe_bind]
      refine runCommit_safe ended.holds (by simp [opened]) ended.idle situation.2
        (fun s' here batch idle committed => ?_) fun e known here => ?_
      · simp only [safe_bind, safe_read, safe_modify, safe_pure]
        refine ⟨⟨.answer here.holds _, rfl⟩, .answer here idle committed.out (fun _ t waits => ?_) (by simp)
          (.inr (by simp)), ?_⟩
        · exact committed.waiters t (by rwa [batch] at waits)
        · change s.ledger.held ⊆ s'.ledger.durable
          rw [committed.durable]
          exact List.subset_append_right _ _
      · simp only [safe_bind]
        refine runControl_safe .rollback here.holds trivial (by simp)
          (fun _ => ⟨trivial, fun _ => trivial⟩) fun c s' served here' => ?_
        have out : transaction s'.conn = .out := by rw [served]; exact rollback_leaves_out
        have durable : s'.ledger.durable = s.ledger.durable := by rw [served]; exact rollback_durable
        have batch : s'.openBatch = s.openBatch := by simp [served]
        have idle : s'.jobOpen = false := by simp [served, ended.idle]
        simp only [safe_read, safe_modify, safe_pure]
        refine ⟨⟨.answer here'.holds _, rfl⟩, .answer here' idle out (by simp) (by simpa using known.1) ?_,
          known, durable⟩
        refine situation.1.unanswered.imp_right fun fresh _ _ _ t waits => ?_
        rw [durable]
        exact fresh t (by rwa [batch] at waits)

theorem closeBatch_safe {room : Nat} (ended : Ended F room taken written s) :
    Safe (discipline F cap taken written who)
      (fun result s' _ => Closed F taken written s' ∧ Told s result s') closeBatch s seen := by
  unfold closeBatch
  simp only [safe_bind]
  refine (commitBatch_safe ended).weaken ?_
  rintro result s' _ ⟨closed, told⟩
  cases result with
  | error e => exact ⟨closed, told⟩
  | ok jobs =>
      unfold countCommit
      simp only [safe_bind, safe_modify, safe_pure]
      split_ifs with counted
      · exact ⟨⟨.of_eq rfl rfl, rfl⟩, ⟨⟨closed.holds, closed.quiet⟩, closed.none, closed.idle, closed.out⟩,
          told⟩
      · exact ⟨⟨.refl _, rfl⟩, closed, told⟩

end Wamux.Proof.GroupCommit
