import Wamux.Proof.GroupCommit.Belief
import Wamux.Proof.GroupCommit.Slots

namespace Wamux.Proof.GroupCommit
open Wamux.GroupCommit Wamux.Runs Wamux.Runs.Async Wamux.Runs.Machine

variable {F : Faults} {cap : Nat} {s s' : Sys} {e : Event} {t u : TaskId}

/-- The call will look at the open batch again, or its slot still tells others to: it is on its way
to the lock, has it and has not checked the count, has a job, waits on this batch, or was dropped
and its slot was not. -/
def CaresIn (b : BatchState) (t : TaskId) : Phase → Prop
  | .requesting _ | .locking _ | .running _ _ | .jobHeld _ => True
  | .registering | .checking | .parked | .leaving _ .wait | .leaving _ .park => t ∈ waitersOf b.openBatch
  | .leaving drops (.ended .abandoned) | .leaving drops (.ended (.dropped _)) => .slot ∈ drops
  | .leaving _ (.ended (.finished _)) | .leaving _ (.ended .failed) | .leaving _ (.ended (.refused _))
  | .leaving _ (.ended .released) | .idle | .connHeld _ | .ended _ => False

def Cares (s : Sys) (t : TaskId) : Prop := CaresIn s.batch t (s.phase t)

/-- The step at which a dropped future or guard is gone for the group commit. -/
def vanishes (s : Sys) : Event → Bool
  | .drop t _ => match s.phase t with
      | .locking method | .running method _ => .slot ∉ glue method
      | .parked => true
      | _ => false
  | .poll t _ => match s.phase t with
      | .leaving (.slot :: _) (.ended .abandoned) | .leaving (.slot :: _) (.ended (.dropped _)) => true
      | _ => false
  | .call _ _ | .write _ _ | .autoRollback _ | .finish _ | .fail _ => false

/-- No dropped future or guard is the last that cares for a released job. -/
def LeavesSomeone (s : Sys) (e : Event) : Prop :=
  NoAutoRollback s e ∧ (vanishes s e = true → s.batch.ledger.held = [] ∨ ∃ u, u ≠ task e ∧ Cares s u)

def Cared (s : Sys) : Prop := s.batch.ledger.held = [] ∨ ∃ t, Cares s t

theorem CaresIn.congr {b b' : BatchState} {phase : Phase} (cares : CaresIn b t phase)
    (batch : b'.openBatch = b.openBatch) : CaresIn b' t phase := by
  have waits (waits : t ∈ waitersOf b.openBatch) : t ∈ waitersOf b'.openBatch := by rwa [batch]
  cases phase with
  | leaving drops next =>
      cases next with
      | ended ending => cases ending <;> exact cares
      | _ => exact waits cares
  | registering => exact waits cares
  | checking => exact waits cares
  | parked => exact waits cares
  | _ => exact cares

theorem Cared.step (cared : Cared s) {phase : Phase} (now : s'.phase = Function.update s.phase t phase)
    (batch : s'.batch.openBatch = s.batch.openBatch)
    (held : s.batch.ledger.held = [] → s'.batch.ledger.held = [] ∨ CaresIn s.batch t phase)
    (own : CaresIn s.batch t (s.phase t) →
      CaresIn s.batch t phase ∨ s.batch.ledger.held = [] ∨ ∃ u, u ≠ t ∧ Cares s u) : Cared s' := by
  have self (cares : CaresIn s.batch t phase) : Cared s' := by
    refine .inr ⟨t, ?_⟩
    unfold Cares
    rw [now, Function.update_self]
    exact cares.congr batch
  have other (u : TaskId) (other : u ≠ t) (cares : Cares s u) : Cared s' := by
    refine .inr ⟨u, ?_⟩
    unfold Cares
    rw [now, Function.update_of_ne other]
    exact CaresIn.congr cares batch
  have empty (none : s.batch.ledger.held = []) : Cared s' := (held none).elim .inl self
  rcases cared with none | ⟨u, cares⟩
  · exact empty none
  · by_cases same : u = t
    · subst same
      rcases own cares with still | none | ⟨v, apart, cares⟩
      · exact self still
      · exact empty none
      · exact other v apart cares
    · exact other u same cares

theorem Coming.cares (coming : Coming s u) : Cares s u := by
  unfold Cares
  rcases coming with phase | phase | ⟨drops, next, phase, slot, rfl | ⟨method, rfl⟩⟩ <;> rw [phase]
  · trivial
  · trivial
  · exact slot
  · exact slot

theorem Coming.cares_after (coming : Coming s u) (phase : s'.phase u = s.phase u) : Cares s' u :=
  Coming.cares (s := s') (by unfold Coming; rw [phase]; exact coming)

theorem Post.cared {method : Method} {outcome : Outcome} {b : BatchState} {taken : List TaskId}
    {written : TaskId → List String} {seen : Option Nat}
    (post : Post F cap taken written method t outcome b seen) (loaded : seen = none ∨ seen = some s.pending)
    (now : s'.phase t = after method outcome) (batch : s'.batch = b) (before : HasSlot (s.phase t) ↔ .slot ∈ glue method)
    (others : (1 < s.pending ∨ (¬HasSlot (s.phase t) ∧ 0 < s.pending)) → ∃ u, Cares s' u) : Cared s' := by
  have counted {n : Nat} (covered : Covered n b seen) : s'.batch.ledger.held = [] ∨ n < s.pending := by
    rcases covered with empty | ⟨pending, same, more⟩
    · exact .inl (by rw [batch, empty])
    · rcases loaded with none | loaded
      · simp [none] at same
      · rw [loaded, Option.some.injEq] at same
        exact .inr (same ▸ more)
  have unslotted (none : .slot ∉ glue method) (covered : Covered 0 b seen) : Cared s' := by
    rcases counted covered with empty | more
    · exact .inl empty
    · exact .inr (others (.inr ⟨fun slot => none (before.1 slot), more⟩))
  cases outcome with
  | started result =>
      obtain ⟨-, rfl, -⟩ := post
      exact .inr ⟨t, by unfold Cares; rw [now]; trivial⟩
  | finished result => exact .inl (by rw [batch]; exact post.2.2.2)
  | waits => exact .inr ⟨t, by unfold Cares; rw [now, batch]; exact post.2.2⟩
  | failed =>
      rcases counted post.2.2.2 with empty | more
      · exact .inl empty
      · exact .inr (others (.inl more))
  | guard result =>
      cases result with
      | ok =>
          obtain ⟨rfl | rfl, -, -, covered⟩ := post
          · exact unslotted (by simp [glue]) covered
          · exact unslotted (by simp [glue]) covered
      | error e => exact .inl (by rw [batch]; exact post.2.2)
  | rechecked result =>
      cases result with
      | none =>
          obtain ⟨rfl, -, -, pending, same, more⟩ := post
          exact unslotted (by simp [glue]) (.inr ⟨pending, same, more⟩)
      | some result =>
          obtain ⟨rfl, -, -, covered⟩ := post
          exact unslotted (by simp [glue]) covered

theorem Guarantee.held_empty {b b' : BatchState} {taken : List TaskId} {written : TaskId → List String}
    (guarantee : Guarantee none b b') (holds : Holds F taken written b') (empty : b.ledger.held = []) :
    b'.ledger.held = [] := by
  rw [List.eq_nil_iff_forall_not_mem]
  intro u member
  rcases guarantee.moved u (.inl member) with held | durable | same
  · simp [empty] at held
  · exact holds.apartFrom (.inl member) (guarantee.durable durable)
  · simp at same

theorem mover_none {method : Method} (unslotted : .slot ∉ glue method) : mover method t = none := by
  cases method <;> simp_all [glue, mover]

theorem Cared.left (locking : Locking s) (cared : Cared s) {choice : Bool} {first : Owned} {rest : List Owned}
    {next : After} (phase : s.phase t = .leaving (first :: rest) next)
    (others : vanishes s (.poll t choice) = true → s.batch.ledger.held = [] ∨ ∃ u, u ≠ t ∧ Cares s u) :
    Cared ((s.dropOwned first).setPhase t (leave next rest)) := by
  have once := locking.tidy t
  rw [phase] at once
  have own (cares : CaresIn s.batch t (s.phase t)) : CaresIn s.batch t (leave next rest) ∨
      s.batch.ledger.held = [] ∨ ∃ u, u ≠ t ∧ Cares s u := by
    rw [phase] at cares
    cases next with
    | wait => cases rest <;> exact .inl cares
    | park => cases rest <;> exact .inl cares
    | ended ending =>
        -- What was dropped cares until its slot goes.
        have slot (member : .slot ∈ first :: rest) (drops : vanishes s (.poll t choice) = true ∨ first = .guard) :
            .slot ∈ rest ∨ s.batch.ledger.held = [] ∨ ∃ u, u ≠ t ∧ Cares s u := by
          rcases drops with vanishes | rfl
          · exact .inr (others vanishes)
          · exact .inl (by simpa using member)
        cases ending with
        | abandoned =>
            have drops : vanishes s (.poll t choice) = true ∨ first = .guard := by
              cases first with
              | slot => exact .inl (by simp [vanishes, phase])
              | guard => exact .inr rfl
            refine (slot cares drops).imp_left fun member => ?_
            cases rest with
            | nil => simp at member
            | cons second rest => exact member
        | dropped method =>
            have drops : vanishes s (.poll t choice) = true ∨ first = .guard := by
              cases first with
              | slot => exact .inl (by simp [vanishes, phase])
              | guard => exact .inr rfl
            refine (slot cares drops).imp_left fun member => ?_
            cases rest with
            | nil => simp at member
            | cons second rest => exact member
        | finished result => exact cares.elim
        | failed => exact cares.elim
        | refused error => exact cares.elim
        | released => exact cares.elim
  cases first with
  | slot => exact cared.step (t := t) rfl rfl .inl own
  | guard =>
      have same : s.unlock.batch = s.batch ∧ s.unlock.phase = s.phase := by
        unfold Sys.unlock
        split <;> simp
      refine cared.step (t := t) (by rw [← same.2]; rfl) ?_ (fun empty => .inl ?_) own
      · change s.unlock.batch.openBatch = s.batch.openBatch
        rw [same.1]
      · change s.unlock.batch.ledger.held = []
        rw [same.1, empty]

theorem Cared.move (inv : Inv faithful (max cap 1) s) (slots : Slots s) (cared : Cared s)
    (allowed : LeavesSomeone s e) (move : Move cap s e s') : Cared s' := by
  have inv' := inv.move (noAutoRollback_permits allowed.1) move
  have others := allowed.2
  have waiting {t : TaskId} {answer : BatchAnswer} (answered : s.batch.answers t = [answer]) :
      t ∉ waitersOf s.batch.openBatch := by
    intro waits
    simp [(inv.holds.sent t waits).2] at answered
  cases move with
  | @resumed _ t method code batch taken how =>
      obtain ⟨seen, runs⟩ := inv.runs how
      obtain ⟨-, rest⟩ := advanced runs.safe
      rcases code.advance_paused batch with ⟨outcome, stopped⟩ | paused
      · rw [stopped] at rest
        refine Post.cared (s := s) (t := t) rest runs.loaded ?_ rfl how.slot fun many => ?_
        · rw [Sys.resume, setPhase_self, stopped]
          rfl
        · obtain ⟨u, other, coming⟩ := slots.coming inv runs.holds many
          exact ⟨u, coming.cares_after (by rw [Sys.resume, setPhase_other other])⟩
      · refine .inr ⟨t, ?_⟩
        unfold Cares
        rw [Sys.resume, setPhase_self, codePhase_paused paused]
        trivial
  | entered idle => exact cared.step rfl rfl .inl fun _ => .inl trivial
  | called idle guards => exact cared.step rfl rfl .inl fun _ => .inl trivial
  | @requested t choice method phase =>
      unfold Sys.request
      split
      · exact cared.step (t := t) rfl rfl .inl fun _ => .inl (by trivial)
      · exact cared.step (t := t) rfl rfl .inl fun _ => .inl (by trivial)
  | registered phase => exact cared.step rfl rfl .inl fun cares => .inl (by rwa [phase] at cares)
  | counted phase busy => exact cared.step rfl rfl .inl fun cares => .inl (by rwa [phase] at cares)
  | drained phase quiet => exact cared.step rfl rfl .inl fun _ => .inl trivial
  | @received t answer phase value =>
      refine cared.step rfl rfl .inl fun cares => ?_
      have sender := inv.fact t
      rw [phase] at cares sender
      rcases inv.holds.tryRecv sender with empty | ⟨found, -, answered⟩
      · simp [value] at empty
      · exact absurd cares (waiting answered)
  | @orphaned t phase closed =>
      have sender := inv.fact t
      rw [phase] at sender
      rcases inv.holds.tryRecv sender with empty | ⟨found, value, -⟩
      · simp [closed] at empty
      · simp [closed] at value
  | woken phase heard => exact cared.step rfl rfl .inl fun cares => .inl (by rwa [phase] at cares)
  | left phase => exact cared.left inv.locking phase others
  | wroteJob phase => exact cared
  | wroteGuard phase => exact cared
  | aborted phase => exact allowed.1.elim
  | @droppedGranted t ran method phase holds =>
      refine cared.step rfl rfl .inl fun _ => ?_
      by_cases slot : .slot ∈ glue method
      · exact .inl slot
      · exact .inr (others (by simpa [vanishes, phase] using slot))
  | @droppedQueued t ran method phase queued =>
      refine cared.step (t := t) rfl rfl .inl fun _ => ?_
      by_cases slot : .slot ∈ glue method
      · refine .inl ?_
        cases method <;> simp_all [glue, leave, CaresIn]
      · exact .inr (others (by simpa [vanishes, phase] using slot))
  | @droppedAwaiting t ran method statement next phase =>
      have held := inv.held t (inv.locking.mutex.owner t (by simp [phase, role]))
      rw [phase] at held
      obtain ⟨-, seen, safe⟩ := held
      have may : MayDrop faithful statement s.batch := .inr False.elim
      obtain ⟨idle, guarantee⟩ := Safe.droppedAt safe may ran
      refine cared.step rfl ?_ (fun empty => ?_) fun _ => ?_
      · change (if ran then (serve statement false s.batch).2 else s.batch).openBatch = s.batch.openBatch
        split_ifs <;> simp
      · by_cases slot : .slot ∈ glue method
        · exact .inr slot
        · rw [mover_none slot] at guarantee
          exact .inl (guarantee.held_empty idle.holds empty)
      · by_cases slot : .slot ∈ glue method
        · exact .inl slot
        · exact .inr (others (by simpa [vanishes, phase] using slot))
  | droppedJob phase => exact cared.step rfl rfl .inl fun _ => .inl (by simp [CaresIn])
  | droppedGuard phase => exact cared.step rfl rfl .inl fun cares => by simp [phase, CaresIn] at cares
  | droppedParked phase =>
      exact cared.step rfl rfl .inl fun _ => .inr (others (by simp [vanishes, phase]))

def atRest : Phase → Bool
  | .idle | .ended _ => true
  | _ => false

structure Quiescent (s : Sys) : Prop where
  pending : s.pending = 0
  free : s.holder = none
  rest : ∀ t, atRest (s.phase t) = true

/-- The open transaction holds a job whose savepoint `finish` released. -/
def JobLeftOpen (s : Sys) : Prop := s.batch.conn.inTransaction = true ∧ s.batch.ledger.held ≠ []

theorem reachable_cared (reaches : (machine cap).Reaches LeavesSomeone s) :
    Inv faithful (max cap 1) s ∧ Slots s ∧ Cared s := by
  refine reaches.invariant (fun s => Inv faithful (max cap 1) s ∧ Slots s ∧ Cared s)
    ⟨.initial, .initial, .inl rfl⟩ fun s e s' ⟨inv, slots, cared⟩ allowed moved => ?_
  have move := step_move moved
  exact ⟨inv.move (noAutoRollback_permits allowed.1) move, slots.move inv move,
    cared.move inv slots allowed move⟩

theorem no_job_left_open (reaches : (machine cap).Reaches LeavesSomeone s) (quiescent : Quiescent s) :
    ¬JobLeftOpen s := by
  rintro ⟨-, left⟩
  obtain ⟨-, -, empty | ⟨t, cares⟩⟩ := reachable_cared reaches
  · exact left empty
  · have rest := quiescent.rest t
    unfold Cares at cares
    cases phase : s.phase t with
    | idle => simp [phase, CaresIn] at cares
    | ended ending => simp [phase, CaresIn] at cares
    | _ => simp [phase, atRest] at rest

def nobodyVanishes (s : Sys) (e : Event) : Bool := noAutoRollback s e && !vanishes s e

theorem nobodyVanishes_sound (s : Sys) (e : Event) (checked : nobodyVanishes s e = true) :
    LeavesSomeone s e := by
  simp only [nobodyVanishes, Bool.and_eq_true, Bool.not_eq_true'] at checked
  refine ⟨noAutoRollback_sound s e checked.1, fun gone => ?_⟩
  simp [checked.2] at gone

def twoJobs : List Event :=
  [.call 0 .beginJob, .poll 0 false, .poll 0 false, .poll 0 false, .poll 0 false, .write 0 "a",
    .call 1 .beginJob, .poll 1 false, .finish 0, .poll 0 false, .poll 0 false, .poll 0 false, .poll 0 false,
    .poll 0 false, .poll 0 false, .poll 1 false, .poll 1 false, .write 1 "b", .finish 1, .poll 1 false,
    .poll 1 false, .poll 1 false, .poll 1 false, .poll 1 false, .poll 0 true]

/-- Job 0 waits for job 1, which is queued; job 0's future is dropped in its wait, and then job 1's
before it has the lock. -/
def bothDropped : List Event :=
  [.call 0 .beginJob, .poll 0 false, .poll 0 false, .poll 0 false, .poll 0 false, .write 0 "a",
    .call 1 .beginJob, .poll 1 false, .finish 0, .poll 0 false, .poll 0 false, .poll 0 false, .poll 0 false,
    .poll 0 false, .poll 0 false, .drop 0 false, .drop 1 false, .poll 1 false, .poll 1 false]

theorem quiescent_of_replay {check : Sys → Event → Bool} {events : List Event}
    (replayed : (machine cap).replay check (machine cap).initial events = some s)
    (two : ∀ t ∈ events.map task, t = 0 ∨ t = 1)
    (passes : s.pending = 0 ∧ s.holder = none ∧ atRest (s.phase 0) = true ∧ atRest (s.phase 1) = true) :
    Quiescent s := by
  refine ⟨passes.1, passes.2.1, fun t => ?_⟩
  by_cases touched : t ∈ events.map task
  · rcases two t touched with rfl | rfl
    · exact passes.2.2.1
    · exact passes.2.2.2
  · rw [replay_untouched replayed touched]
    rfl

def leftovers (s : Sys) : Nat × Option TaskId × Bool × Bool × Bool × List TaskId :=
  (s.pending, s.holder, atRest (s.phase 0), atRest (s.phase 1), s.batch.conn.inTransaction,
    s.batch.ledger.held)

theorem no_job_left_open_after_two : ∃ s, (machine 8).Reaches LeavesSomeone s ∧ Quiescent s ∧
    ¬JobLeftOpen s := by
  have left : ((machine 8).replay nobodyVanishes (machine 8).initial twoJobs).map leftovers =
      some (0, none, true, true, false, []) := rfl
  cases replayed : (machine 8).replay nobodyVanishes (machine 8).initial twoJobs with
  | none => simp [replayed] at left
  | some s =>
      simp only [replayed, Option.map_some, leftovers, Option.some.injEq, Prod.mk.injEq] at left
      have reaches := replay_reaches nobodyVanishes_sound .initial replayed
      have quiescent := quiescent_of_replay replayed (by decide) ⟨left.1, left.2.1, left.2.2.1, left.2.2.2.1⟩
      exact ⟨s, reaches, quiescent, no_job_left_open reaches quiescent⟩

theorem job_left_open : ¬∀ s, (machine 8).Reaches NoAutoRollback s → Quiescent s → ¬JobLeftOpen s := by
  intro claim
  have left : ((machine 8).replay noAutoRollback (machine 8).initial bothDropped).map leftovers =
      some (0, none, true, true, true, [0]) := rfl
  cases replayed : (machine 8).replay noAutoRollback (machine 8).initial bothDropped with
  | none => simp [replayed] at left
  | some s =>
      simp only [replayed, Option.map_some, leftovers, Option.some.injEq, Prod.mk.injEq] at left
      have reaches := replay_reaches noAutoRollback_sound .initial replayed
      have quiescent := quiescent_of_replay replayed (by decide) ⟨left.1, left.2.1, left.2.2.1, left.2.2.2.1⟩
      exact claim s reaches quiescent ⟨left.2.2.2.2.1, by simp [left.2.2.2.2.2]⟩

end Wamux.Proof.GroupCommit
