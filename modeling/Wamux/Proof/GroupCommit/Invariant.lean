import Wamux.Proof.GroupCommit.Bodies
import Wamux.Proof.GroupCommit.Callers
import Wamux.Proof.GroupCommit.Locking

namespace Wamux.Proof.GroupCommit
open Wamux.GroupCommit Wamux.Runs Wamux.Runs.Async

variable {F : Faults} {cap : Nat} {taken taken' : List TaskId} {written written' : TaskId → List String}
  {b b' : BatchState} {s s' : Sys} {e : Event} {t u : TaskId} {seen : Option Nat}

/-! ## What each phase knows -/

def mover : Method → TaskId → Option TaskId
  | .finish, t => some t
  | .beginJob, _ | .lock, _ | .lockAutocommit, _ | .commitIfDrained, _ | .fail, _ => none

def NotKept (t : TaskId) (b : BatchState) : Prop := t ∉ b.ledger.held ∧ t ∉ b.ledger.durable

structure Unstarted (taken : List TaskId) (written : TaskId → List String) (t : TaskId)
    (b : BatchState) : Prop where
  untaken : t ∉ taken
  unwritten : written t = []
  unsent : t ∉ b.ledger.senders
  notKept : NotKept t b

def EndFact (F : Faults) (t : TaskId) (b : BatchState) : Ending → Prop
  | .finished result => FinishFact F t result b
  | .failed | .abandoned | .dropped .beginJob | .dropped .fail => NotKept t b
  | .refused _ | .released | .dropped .finish | .dropped .commitIfDrained | .dropped .lock
  | .dropped .lockAutocommit => True

def AfterFact (F : Faults) (t : TaskId) (b : BatchState) : After → Prop
  | .wait | .park => t ∈ b.ledger.senders
  | .ended ending => EndFact F t b ending

def Fact (F : Faults) (taken : List TaskId) (written : TaskId → List String) (t : TaskId)
    (b : BatchState) : Phase → Prop
  | .idle | .requesting .beginJob | .requesting .lock | .requesting .lockAutocommit
  | .locking .beginJob | .locking .lock | .locking .lockAutocommit => Unstarted taken written t b
  | .requesting .finish | .requesting .fail | .locking .finish | .locking .fail => False
  | .requesting .commitIfDrained | .locking .commitIfDrained | .running .commitIfDrained _
  | .registering | .checking | .parked => t ∈ b.ledger.senders
  | .running .finish _ | .running .lock _ | .running .lockAutocommit _ | .connHeld _ => True
  | .running .beginJob _ | .running .fail _ | .jobHeld _ => NotKept t b
  | .leaving _ next => AfterFact F t b next
  | .ended ending => EndFact F t b ending

def Holding (F : Faults) (cap : Nat) (taken : List TaskId) (written : TaskId → List String) (t : TaskId)
    (b : BatchState) : Phase → Prop
  | .running method code => code.Paused ∧ ∃ seen, Safe (discipline F cap taken written (mover method t))
      (Post F cap taken written method t) code b seen
  | .jobHeld aborted => Job F cap taken written aborted t b
  | .connHeld method => Ended F cap taken written b ∧
      (method = .lockAutocommit → b.openBatch = none ∧ transaction b.conn = .out)
  | .idle | .requesting _ | .locking _ | .registering | .checking | .parked | .leaving _ _ | .ended _ =>
      Idle F cap taken written b

structure Inv (F : Faults) (cap : Nat) (s : Sys) : Prop where
  locking : Locking s
  free : s.holder = none → Idle F cap s.taken s.written s.batch
  held : ∀ t, s.holder = some t → Holding F cap s.taken s.written t s.batch (s.phase t)
  fact : ∀ t, Fact F s.taken s.written t s.batch (s.phase t)

/-! ## Facts are stable -/

theorem NotKept.stable {who : Option TaskId} (notKept : NotKept t b) (guarantee : Guarantee who b b')
    (other : who ≠ some t) : NotKept t b' :=
  guarantee.apart other notKept.1 notKept.2

theorem FinishFact.stable {who : Option TaskId} {result : StoreResult Unit}
    (fact : FinishFact F t result b) (guarantee : Guarantee who b b') (other : who ≠ some t) :
    FinishFact F t result b' := by
  cases result with
  | ok => exact guarantee.durable fact
  | error e =>
      refine ⟨fact.1, fact.2.imp_right (Or.imp_right fun kept => ?_)⟩
      exact (guarantee.apart other kept.2 kept.1).symm

theorem EndFact.stable {who : Option TaskId} {ending : Ending} (fact : EndFact F t b ending)
    (guarantee : Guarantee who b b') (other : who ≠ some t) : EndFact F t b' ending := by
  cases ending with
  | finished result => exact FinishFact.stable fact guarantee other
  | failed => exact NotKept.stable fact guarantee other
  | refused error => trivial
  | released => trivial
  | abandoned => exact NotKept.stable fact guarantee other
  | dropped method =>
      cases method with
      | finish => trivial
      | commitIfDrained => trivial
      | beginJob => exact NotKept.stable fact guarantee other
      | lock => trivial
      | lockAutocommit => trivial
      | fail => exact NotKept.stable fact guarantee other

theorem AfterFact.stable {who : Option TaskId} {next : After} (fact : AfterFact F t b next)
    (guarantee : Guarantee who b b') (other : who ≠ some t) : AfterFact F t b' next := by
  cases next with
  | wait => exact guarantee.senders fact
  | park => exact guarantee.senders fact
  | ended ending => exact EndFact.stable fact guarantee other

theorem Unstarted.stable {who : Option TaskId} (fact : Unstarted taken written t b)
    (guarantee : Guarantee who b b') (other : who ≠ some t) (untaken : t ∈ taken' → t ∈ taken)
    (unwritten : written' t = written t) : Unstarted taken' written' t b' := by
  refine ⟨fun member => fact.untaken (untaken member), by rw [unwritten, fact.unwritten], fun sender => ?_,
    fact.notKept.stable guarantee other⟩
  exact (guarantee.sender t sender).elim fact.unsent other

theorem Fact.stable {who : Option TaskId} {phase : Phase} (fact : Fact F taken written t b phase)
    (guarantee : Guarantee who b b') (other : who ≠ some t) (untaken : t ∈ taken' → t ∈ taken)
    (unwritten : written' t = written t) : Fact F taken' written' t b' phase := by
  cases phase with
  | idle => exact Unstarted.stable fact guarantee other untaken unwritten
  | requesting method =>
      cases method with
      | finish => exact fact
      | fail => exact fact
      | commitIfDrained => exact guarantee.senders fact
      | beginJob => exact Unstarted.stable fact guarantee other untaken unwritten
      | lock => exact Unstarted.stable fact guarantee other untaken unwritten
      | lockAutocommit => exact Unstarted.stable fact guarantee other untaken unwritten
  | locking method =>
      cases method with
      | finish => exact fact
      | fail => exact fact
      | commitIfDrained => exact guarantee.senders fact
      | beginJob => exact Unstarted.stable fact guarantee other untaken unwritten
      | lock => exact Unstarted.stable fact guarantee other untaken unwritten
      | lockAutocommit => exact Unstarted.stable fact guarantee other untaken unwritten
  | running method code =>
      cases method with
      | finish => trivial
      | commitIfDrained => exact guarantee.senders fact
      | beginJob => exact NotKept.stable fact guarantee other
      | lock => trivial
      | lockAutocommit => trivial
      | fail => exact NotKept.stable fact guarantee other
  | jobHeld aborted => exact NotKept.stable fact guarantee other
  | connHeld method => trivial
  | registering => exact guarantee.senders fact
  | checking => exact guarantee.senders fact
  | parked => exact guarantee.senders fact
  | leaving drops next => exact AfterFact.stable fact guarantee other
  | ended ending => exact EndFact.stable fact guarantee other

/-! ## A step of one task -/

/-- What a step of `t` owes: its own new phase, and for the others only what they rely on. -/
theorem Inv.step (inv : Inv F cap s) (locking : Locking s') {phase : Phase} {who : Option TaskId}
    (now : s'.phase = Function.update s.phase t phase)
    (guarantee : Guarantee who s.batch s'.batch) (own : ∀ u, who = some u → u = t)
    (untaken : ∀ u, u ≠ t → u ∈ s'.taken → u ∈ s.taken)
    (unwritten : ∀ u, u ≠ t → s'.written u = s.written u)
    (fact : Fact F s'.taken s'.written t s'.batch phase)
    (free : s'.holder = none → Idle F cap s'.taken s'.written s'.batch)
    (held : ∀ u, s'.holder = some u → Holding F cap s'.taken s'.written u s'.batch (s'.phase u)) :
    Inv F cap s' := by
  refine ⟨locking, free, held, fun u => ?_⟩
  rw [now]
  by_cases same : u = t
  · subst same
    simpa using fact
  · rw [Function.update_of_ne same]
    exact (inv.fact u).stable guarantee (fun eq => same (own u eq)) (untaken u same) (unwritten u same)

theorem Inv.owned (inv : Inv F cap s) (locking : Locking s') {phase : Phase} {who : Option TaskId}
    (holds : s.holder = some t) (holder : s'.holder = s.holder)
    (now : s'.phase = Function.update s.phase t phase)
    (guarantee : Guarantee who s.batch s'.batch) (own : ∀ u, who = some u → u = t)
    (untaken : ∀ u, u ≠ t → u ∈ s'.taken → u ∈ s.taken)
    (unwritten : ∀ u, u ≠ t → s'.written u = s.written u)
    (fact : Fact F s'.taken s'.written t s'.batch phase)
    (held : Holding F cap s'.taken s'.written t s'.batch phase) : Inv F cap s' := by
  refine inv.step locking now guarantee own untaken unwritten fact ?_ fun u eq => ?_
  · simp [holder, holds]
  · rw [holder, holds, Option.some.injEq] at eq
    subst eq
    rw [now, Function.update_self]
    exact held

theorem Inv.quiet (inv : Inv F cap s) (locking : Locking s') {phase : Phase}
    (holder : s'.holder = s.holder) (batch : s'.batch = s.batch) (taken : s'.taken = s.taken)
    (written : s'.written = s.written) (now : s'.phase = Function.update s.phase t phase)
    (fact : Fact F s.taken s.written t s.batch phase)
    (held : s.holder = some t → Holding F cap s.taken s.written t s.batch phase) : Inv F cap s' := by
  have same : Guarantee none s.batch s'.batch := by rw [batch]; exact .refl _
  refine inv.step locking now same (by simp) (by simp [taken]) (by simp [written])
    (by rwa [batch, taken, written]) ?_ fun u eq => ?_
  · rw [holder, batch, taken, written]
    exact inv.free
  · rw [holder] at eq
    rw [batch, taken, written, now]
    by_cases same : u = t
    · subst same
      rw [Function.update_self]
      exact held eq
    · rw [Function.update_of_ne same]
      exact inv.held u eq

/-! ## Running the code under the lock -/

theorem Holding.holds {phase : Phase} (holding : Holding F cap taken written t b phase) :
    Holds F taken written b := by
  cases phase with
  | running method code =>
      obtain ⟨paused, seen, safe⟩ := holding
      exact safe.always paused
  | jobHeld aborted => exact (Job.toHere holding).holds
  | connHeld method => exact holding.1.holds
  | idle => exact Idle.holds holding
  | requesting method => exact Idle.holds holding
  | locking method => exact Idle.holds holding
  | registering => exact Idle.holds holding
  | checking => exact Idle.holds holding
  | parked => exact Idle.holds holding
  | leaving drops next => exact Idle.holds holding
  | ended ending => exact Idle.holds holding

theorem Inv.holds (inv : Inv F cap s) : Holds F s.taken s.written s.batch := by
  cases holder : s.holder with
  | none => exact (inv.free holder).holds
  | some t => exact (inv.held t holder).holds

theorem mover_own {method : Method} (own : mover method t = some u) : u = t := by
  cases method <;> simp_all [mover]

theorem Post.phase {method : Method} {outcome : Outcome}
    (post : Post F cap taken written method t outcome b seen) :
    Holding F cap taken written t b (after method outcome) ∧
      Fact F taken written t b (after method outcome) := by
  cases outcome with
  | started result =>
      obtain ⟨-, rfl, job⟩ := post
      exact ⟨job, job.notHeld, job.notDurable⟩
  | finished result => exact ⟨post.2.1, post.2.2.1⟩
  | waits => exact ⟨post.2.1, (post.2.1.holds.sent t post.2.2).1⟩
  | failed => exact ⟨post.2.1, post.2.2.1.symm⟩
  | guard result =>
      cases result with
      | ok => exact ⟨⟨post.2.1, post.2.2.1⟩, trivial⟩
      | error e => exact ⟨post.2.1, trivial⟩
  | rechecked result =>
      cases result with
      | none => exact ⟨post.2.1, post.2.2.1⟩
      | some result => exact ⟨post.2.1, post.2.2.1⟩

theorem codePhase_paused {method : Method} {code : Locked Outcome} (paused : code.Paused) :
    codePhase method code = .running method code := by
  cases code with
  | done value => exact paused.elim
  | get next => exact paused.elim
  | put state next => exact paused.elim
  | await op next => rfl
  | load next => rfl

theorem resumed {method : Method} {code : Locked Outcome}
    (safe : Safe (discipline F cap taken written (mover method t)) (Post F cap taken written method t) code b
      seen) (fact : Fact F taken written t b (.running method code)) :
    Guarantee (mover method t) b (code.advance b).1 ∧
      Holding F cap taken written t (code.advance b).1 (codePhase method (code.advance b).2) ∧
      Fact F taken written t (code.advance b).1 (codePhase method (code.advance b).2) := by
  obtain ⟨guarantee, rest⟩ := advanced safe
  refine ⟨guarantee, ?_⟩
  have running (code' : Locked Outcome) : Fact F taken written t (code.advance b).1 (.running method code') := by
    cases method with
    | finish => trivial
    | commitIfDrained => exact guarantee.senders fact
    | beginJob => exact NotKept.stable fact guarantee (by simp [mover])
    | lock => trivial
    | lockAutocommit => trivial
    | fail => exact NotKept.stable fact guarantee (by simp [mover])
  have stopped := code.advance_paused b
  generalize (code.advance b).2 = code' at rest stopped
  rcases stopped with ⟨outcome, rfl⟩ | paused
  · exact Post.phase rest
  · rw [codePhase_paused paused]
    exact ⟨⟨paused, seen, rest⟩, running _⟩

theorem Safe.droppedAt {method : Method} {statement : ControlStatement}
    {next : StoreResult Unit → Locked Outcome}
    (safe : Safe (discipline F cap taken written (mover method t)) (Post F cap taken written method t)
      (.await statement next) b seen) (may : MayDrop F statement b) (ran : Bool) :
    Idle F cap taken written (if ran then (serve statement false b).2 else b) ∧
      Guarantee (mover method t) b (if ran then (serve statement false b).2 else b) := by
  obtain ⟨-, before, after⟩ := safe
  cases ran with
  | true => exact ⟨(after false).1 may, (after false).2.1.1⟩
  | false => exact ⟨before may, .refl b⟩

theorem Idle.take (idle : Idle F cap taken written b) (untaken : t ∉ taken) :
    Idle F cap (taken ++ [t]) written { b with ledger := { b.ledger with starting := t } } := by
  obtain ⟨holds, shape⟩ := idle
  refine ⟨⟨⟨holds.sound.1, holds.sound.2, holds.sound.3⟩, holds.order.trans (List.sublist_append_left _ _),
    ?_, holds.log.imp_right fun log => ⟨log.1, log.2, log.3⟩, holds.sent, holds.apart, holds.answered,
    holds.unsent, holds.kept, holds.named, holds.lost, holds.carried⟩, ?_⟩
  · refine List.nodup_append.2 ⟨holds.once, by simp, fun u earlier v last => ?_⟩
    rw [List.mem_singleton.1 last]
    rintro rfl
    exact untaken earlier
  · exact shape.congr rfl rfl rfl rfl rfl

/-! ## Every step keeps the invariant -/

def Permits (F : Faults) (s : Sys) : Event → Prop
  | .autoRollback _ => F.auto
  | .write t _ => F.guardWrites ∨ ∀ method, s.phase t ≠ .connHeld method
  | .drop t _ => ∀ method statement next, s.phase t = .running method (.await statement next) →
      MayDrop F statement s.batch
  | .call _ _ | .poll _ _ | .finish _ | .fail _ => True

theorem Inv.initial {room : Nat} : Inv F room (machine cap).initial := by
  have holds : Holds F [] (fun _ => []) {} := by
    refine ⟨⟨by simp, by simp, by simp⟩, by simp, List.nodup_nil, .inr ⟨rfl, rfl, by simp⟩, ?_, ?_, by simp,
      by simp, by simp, by simp, .inr (by simp), ?_⟩ <;> simp [waitersOf]
  have idle : Idle F room [] (fun _ => []) {} := ⟨holds, .closed rfl rfl rfl⟩
  exact ⟨.initial, fun _ => idle, by simp [machine], fun t => ⟨by simp [machine], rfl, by simp [machine],
    by simp [NotKept, machine]⟩⟩

theorem Inv.idle (inv : Inv F cap s) (locks : ∃ method, s.phase t = .locking method)
    (holds : s.holder = some t) : Idle F cap s.taken s.written s.batch := by
  obtain ⟨method, phase⟩ := locks
  have held := inv.held t holds
  rwa [phase] at held

structure Runs (F : Faults) (cap : Nat) (s : Sys) (t : TaskId) (method : Method) (code : Locked Outcome)
    (b : BatchState) (taken : List TaskId) (seen : Option Nat) : Prop where
  holds : s.holder = some t
  guarantee : Guarantee (mover method t) s.batch b
  safe : Safe (discipline F cap taken s.written (mover method t)) (Post F cap taken s.written method t) code b
    seen
  fact : Fact F taken s.written t b (.running method code)
  untaken : ∀ u, u ≠ t → u ∈ taken → u ∈ s.taken
  loaded : seen = none ∨ seen = some s.pending

theorem Inv.granted (inv : Inv F (max cap 1) s) {method : Method} (phase : s.phase t = .locking method)
    (holds : s.holder = some t) : Runs F (max cap 1) s t method (body cap t method) (s.take t method).batch
      (s.take t method).taken none := by
  have idle := inv.idle ⟨method, phase⟩ holds
  have fact := inv.fact t
  rw [phase] at fact
  cases method with
  | finish => exact fact.elim
  | fail => exact fact.elim
  | lock => exact ⟨holds, .refl _, lockBody_safe idle, trivial, fun _ _ h => h, .inl rfl⟩
  | lockAutocommit => exact ⟨holds, .refl _, lockAutocommitBody_safe idle, trivial, fun _ _ h => h, .inl rfl⟩
  | commitIfDrained =>
      exact ⟨holds, .refl _, commitIfDrainedBody_safe idle fact, fact, fun _ _ h => h, .inl rfl⟩
  | beginJob =>
      have started : Unstarted s.taken s.written t s.batch := fact
      have fresh : Fresh (s.taken ++ [t]) s.written t (s.take t .beginJob).batch :=
        ⟨rfl, started.unwritten, started.unsent, started.notKept.1, started.notKept.2, s.taken, rfl⟩
      have marked : Guarantee none s.batch (s.take t .beginJob).batch :=
        ⟨fun _ h => h, fun _ _ => rfl, fun _ h => h, fun _ => .inl, fun _ => Or.imp_right .inl⟩
      refine ⟨holds, marked, beginJobBody_safe (by omega) (idle.take started.untaken) fresh, started.notKept,
        fun u other member => ?_, .inl rfl⟩
      simpa [Sys.take, other] using member

theorem Inv.runs (inv : Inv F (max cap 1) s) {method : Method} {code : Locked Outcome} {taken : List TaskId}
    (how : Resumption cap s e t method code b taken) :
    ∃ seen, Runs F (max cap 1) s t method code b taken seen := by
  have owns {p : Phase} (phase : s.phase t = p) (owner : role p = .owner) : s.holder = some t :=
    inv.locking.mutex.owner t (by rwa [phase])
  have fact {p : Phase} (phase : s.phase t = p) : Fact F s.taken s.written t s.batch p := phase ▸ inv.fact t
  have held {p : Phase} (phase : s.phase t = p) (owner : role p = .owner) :
      Holding F (max cap 1) s.taken s.written t s.batch p := phase ▸ inv.held t (owns phase owner)
  cases how with
  | granted phase holds => exact ⟨none, inv.granted phase holds⟩
  | @served _ choice _ _ _ phase =>
      obtain ⟨-, seen, -, -, after⟩ := held phase rfl
      obtain ⟨-, ⟨guarantee, -⟩, rest⟩ := after choice
      have before := fact phase
      refine ⟨none, owns phase rfl, guarantee, rest, ?_, fun _ _ h => h, .inl rfl⟩
      cases method with
      | finish => trivial
      | lock => trivial
      | lockAutocommit => trivial
      | commitIfDrained => exact guarantee.senders before
      | beginJob => exact NotKept.stable before guarantee (by simp [mover])
      | fail => exact NotKept.stable before guarantee (by simp [mover])
  | loaded phase =>
      obtain ⟨-, seen, -, after⟩ := held phase rfl
      have before := fact phase
      exact ⟨some s.pending, owns phase rfl, .refl _, after s.pending, by cases method <;> exact before,
        fun _ _ h => h, .inr rfl⟩
  | finishing phase =>
      exact ⟨none, owns phase rfl, .refl _, finishBody_safe (held phase rfl), trivial, fun _ _ h => h, .inl rfl⟩
  | failing phase =>
      exact ⟨none, owns phase rfl, .refl _, failBody_safe (held phase rfl), (fact phase :), fun _ _ h => h,
        .inl rfl⟩

theorem Inv.requested (inv : Inv F cap s) {method : Method} (phase : s.phase t = .requesting method)
    (locking : Locking (s.request t method)) : Inv F cap (s.request t method) := by
  have fact : Fact F s.taken s.written t s.batch (.locking method) := by
    have fact := inv.fact t
    rw [phase] at fact
    cases method <;> exact fact
  unfold Sys.request at locking ⊢
  cases holder : s.holder with
  | none =>
      have idle := inv.free holder
      rw [holder] at locking
      have same : Guarantee none s.batch s.batch := .refl _
      refine inv.step locking rfl same (by simp) (fun _ _ h => h) (fun _ _ => rfl) fact
        (by simp [Sys.setPhase]) fun u eq => ?_
      have same : t = u := by simpa [Sys.setPhase] using eq
      subst same
      rw [setPhase_self]
      exact idle
  | some other =>
      rw [holder] at locking
      refine inv.quiet locking holder.symm rfl rfl rfl rfl fact fun holds => ?_
      have away := inv.locking.mutex.granted t holds
      simp [phase, role] at away

theorem Inv.left (inv : Inv F cap s) {first : Owned} {rest : List Owned} {next : After}
    (phase : s.phase t = .leaving (first :: rest) next)
    (locking : Locking ((s.dropOwned first).setPhase t (leave next rest))) :
    Inv F cap ((s.dropOwned first).setPhase t (leave next rest)) := by
  have fact : Fact F s.taken s.written t s.batch (leave next rest) := by
    have fact := inv.fact t
    rw [phase] at fact
    cases rest with
    | nil => cases next <;> exact fact
    | cons second rest => exact fact
  have idle (holds : s.holder = some t) : Idle F cap s.taken s.written s.batch := by
    have held := inv.held t holds
    rwa [phase] at held
  cases first with
  | slot =>
      refine inv.quiet locking rfl rfl rfl rfl rfl fact fun holds => ?_
      have := idle holds
      cases rest with
      | nil => cases next <;> exact this
      | cons second rest => exact this
  | guard =>
      have holds := inv.locking.mutex.owner t (by simp [phase, role])
      have same : s.unlock.batch = s.batch ∧ s.unlock.taken = s.taken ∧ s.unlock.written = s.written ∧
          s.unlock.phase = s.phase ∧ s.unlock.holder = s.queue.head? := by
        unfold Sys.unlock
        split <;> rename_i queue <;> simp [queue]
      obtain ⟨batch, taken, written, phases, holder⟩ := same
      have kept : Guarantee none s.batch s.unlock.batch := by rw [batch]; exact .refl _
      have settled : Idle F cap s.unlock.taken s.unlock.written s.unlock.batch := by
        rw [batch, taken, written]
        exact idle holds
      refine inv.step (t := t) locking (by rw [← phases]; rfl) kept (by simp) ?_ ?_ ?_ (fun _ => settled)
        fun u eq => ?_
      · exact fun u _ member => taken ▸ member
      · exact fun u _ => congrFun written u
      · change Fact F s.unlock.taken s.unlock.written t s.unlock.batch (leave next rest)
        rwa [batch, taken, written]
      · -- The next holder was in the queue, so it is about to find the lock granted.
        have queued : u ∈ s.queue := by
          change s.unlock.holder = some u at eq
          rw [holder] at eq
          exact List.mem_of_mem_head? eq
        have waits := (inv.locking.mutex.queued u queued).1
        have other : u ≠ t := by rintro rfl; simp [phase, role] at waits
        rw [setPhase_other other]
        change Holding F cap s.unlock.taken s.unlock.written u s.unlock.batch (s.unlock.phase u)
        rw [phases]
        cases found : s.phase u with
        | locking method => exact settled
        | leaving drops next =>
            simp only [found, role] at waits
            split_ifs at waits
        | _ => simp [found, role] at waits

theorem Inv.move (inv : Inv F (max cap 1) s) (permits : Permits F s e) (move : Move cap s e s') :
    Inv F (max cap 1) s' := by
  have locking := inv.locking.move move
  have owns {t : TaskId} {p : Phase} (phase : s.phase t = p) (owner : role p = .owner) :
      s.holder = some t := inv.locking.mutex.owner t (by rwa [phase])
  have away {t : TaskId} {p : Phase} (phase : s.phase t = p) (away : role p = .away) : s.holder ≠ some t :=
    fun holds => inv.locking.mutex.granted t holds (by rwa [phase])
  have fact {t : TaskId} {p : Phase} (phase : s.phase t = p) : Fact F s.taken s.written t s.batch p :=
    phase ▸ inv.fact t
  have held {t : TaskId} {p : Phase} (phase : s.phase t = p) (owner : role p = .owner) :
      Holding F (max cap 1) s.taken s.written t s.batch p := phase ▸ inv.held t (owns phase owner)
  cases move with
  | entered idle =>
      exact inv.quiet locking rfl rfl rfl rfl rfl (fact idle :) fun holds => absurd holds (away idle rfl)
  | called idle guards =>
      refine inv.quiet locking rfl rfl rfl rfl rfl ?_ fun holds => absurd holds (away idle rfl)
      rcases guards with rfl | rfl <;> exact (fact idle :)
  | requested phase => exact inv.requested phase locking
  | resumed how =>
      obtain ⟨seen, runs⟩ := inv.runs how
      obtain ⟨moved, held, fact⟩ := resumed runs.safe runs.fact
      exact inv.owned locking runs.holds rfl rfl (runs.guarantee.trans moved) (fun u own => mover_own own)
        runs.untaken (fun _ _ => rfl) fact held
  | registered phase =>
      exact inv.quiet locking rfl rfl rfl rfl rfl (fact phase :) fun holds => absurd holds (away phase rfl)
  | counted phase busy =>
      exact inv.quiet locking rfl rfl rfl rfl rfl (fact phase :) fun holds => absurd holds (away phase rfl)
  | drained phase quiet =>
      exact inv.quiet locking rfl rfl rfl rfl rfl (fact phase :) fun holds => absurd holds (away phase rfl)
  | woken phase notified =>
      exact inv.quiet locking rfl rfl rfl rfl rfl (fact phase :) fun holds => absurd holds (away phase rfl)
  | @received t answer phase value =>
      have answered : s.batch.answers t = [answer] := by
        rcases inv.holds.tryRecv (fact phase) with empty | ⟨found, value', answered⟩
        · simp [value] at empty
        · rw [value, Received.value.injEq] at value'
          rw [value', answered]
      exact inv.quiet locking rfl rfl rfl rfl rfl (inv.holds.finishFact answered)
        fun holds => absurd holds (away phase rfl)
  | orphaned phase closed =>
      rcases inv.holds.tryRecv (fact phase) with empty | ⟨found, value, -⟩
      · simp [closed] at empty
      · simp [closed] at value
  | left phase => exact inv.left phase locking
  | @wroteJob t value phase =>
      have job := Job.write (held phase rfl) value
      have same : Guarantee none s.batch { s.batch with conn := s.batch.conn.write ⟨t, value⟩ } := .of_eq rfl rfl
      have now : s.phase = Function.update s.phase t (.jobHeld false) := by rw [← phase, Function.update_eq_self]
      exact inv.owned locking (owns phase rfl) rfl now same (by simp) (fun _ _ h => h)
        (fun u other => by simp [other]) ⟨job.notHeld, job.notDurable⟩ job
  | @wroteGuard t value method phase =>
      obtain ⟨ended, autocommit⟩ := held phase rfl
      have may : F.guardWrites := permits.resolve_right fun none => none method phase
      have same : Guarantee none s.batch { s.batch with conn := s.batch.conn.write ⟨t, value⟩ } := .of_eq rfl rfl
      have now : s.phase = Function.update s.phase t (.connHeld method) := by
        rw [← phase, Function.update_eq_self]
      refine inv.owned locking (owns phase rfl) rfl now same (by simp) (fun _ _ h => h) (fun _ _ => rfl) trivial
        ⟨ended.write may _, fun auto => ?_⟩
      rw [transaction_write]
      exact autocommit auto
  | aborted phase =>
      obtain ⟨job, guarantee⟩ := Job.abort (held phase rfl) permits
      exact inv.owned locking (owns phase rfl) rfl rfl guarantee (by simp) (fun _ _ h => h) (fun _ _ => rfl)
        ⟨job.notHeld, job.notDurable⟩ job
  | @droppedGranted t ran method phase holds =>
      have idle := inv.idle ⟨method, phase⟩ holds
      refine inv.quiet locking rfl rfl rfl rfl rfl ?_ fun _ => idle
      have before := fact phase
      cases method with
      | beginJob => exact before.notKept
      | finish => trivial
      | lock => trivial
      | lockAutocommit => trivial
      | commitIfDrained => trivial
      | fail => exact before.elim
  | @droppedQueued t ran method phase queued =>
      refine inv.quiet locking rfl rfl rfl rfl rfl ?_ fun holds => absurd holds queued
      have before := fact phase
      cases method with
      | beginJob => exact before.notKept
      | finish => exact before.elim
      | lock => trivial
      | lockAutocommit => trivial
      | commitIfDrained => trivial
      | fail => exact before.elim
  | @droppedAwaiting t ran method statement next phase =>
      obtain ⟨-, seen, safe⟩ := held phase rfl
      obtain ⟨idle, guarantee⟩ := Safe.droppedAt safe (permits method statement next phase) ran
      have before := fact phase
      refine inv.owned locking (owns phase rfl) rfl rfl guarantee (fun u own => mover_own own) (fun _ _ h => h)
        (fun _ _ => rfl) ?_ idle
      cases method with
      | beginJob => exact NotKept.stable before guarantee (by simp [mover])
      | finish => trivial
      | lock => trivial
      | lockAutocommit => trivial
      | commitIfDrained => trivial
      | fail => exact NotKept.stable before guarantee (by simp [mover])
  | @droppedJob t ran aborted phase =>
      have job : Job F (max cap 1) s.taken s.written aborted t s.batch := held phase rfl
      exact inv.quiet locking rfl rfl rfl rfl rfl ⟨job.notHeld, job.notDurable⟩ fun _ => Job.toIdle job
  | @droppedGuard t ran method phase =>
      have ended := held phase rfl
      exact inv.quiet locking rfl rfl rfl rfl rfl trivial fun _ => ended.1.toIdle
  | droppedParked phase =>
      exact inv.quiet locking rfl rfl rfl rfl rfl trivial fun holds => absurd holds (away phase rfl)

theorem reachable_inv {allowed : Sys → Event → Prop} (permits : ∀ s e, allowed s e → Permits F s e)
    (reaches : (machine cap).Reaches allowed s) : Inv F (max cap 1) s :=
  reaches.invariant (Inv F (max cap 1)) Inv.initial fun s e _ inv may moved => inv.move (permits s e may) (step_move moved)

end Wamux.Proof.GroupCommit
