import Wamux.Proof.GroupCommit.Reconcile

namespace Wamux.Proof.GroupCommit
open Wamux.GroupCommit Wamux.Runs Wamux.Runs.Async

variable {F : Faults} {cap : Nat} {taken : List TaskId} {written : TaskId → List String}
  {s s' : BatchState} {seen : Option Nat} {who : Option TaskId} {t : TaskId}

/-! ## Starting a job -/

structure Fresh (taken : List TaskId) (written : TaskId → List String) (t : TaskId)
    (s : BatchState) : Prop where
  starting : s.ledger.starting = t
  unwritten : written t = []
  unsent : t ∉ s.ledger.senders
  notHeld : t ∉ s.ledger.held
  notDurable : t ∉ s.ledger.durable
  last : ∃ earlier, taken = earlier ++ [t]

theorem Guarantee.apart (guarantee : Guarantee who s s') (other : who ≠ some t)
    (notHeld : t ∉ s.ledger.held) (notDurable : t ∉ s.ledger.durable) :
    t ∉ s'.ledger.held ∧ t ∉ s'.ledger.durable := by
  have apart : ¬(t ∈ s'.ledger.held ∨ t ∈ s'.ledger.durable) := by
    intro member
    rcases guarantee.moved t member with held | durable | same
    · exact notHeld held
    · exact notDurable durable
    · exact other same
  exact ⟨fun held => apart (.inl held), fun durable => apart (.inr durable)⟩

theorem Fresh.kept (fresh : Fresh taken written t s) (guarantee : Guarantee none s s')
    (starting : s'.ledger.starting = s.ledger.starting) : Fresh taken written t s' := by
  obtain ⟨notHeld, notDurable⟩ := guarantee.apart (by simp) fresh.notHeld fresh.notDurable
  refine ⟨starting.trans fresh.starting, fresh.unwritten, fun sender => ?_, notHeld, notDurable, fresh.last⟩
  rcases guarantee.sender t sender with before | same
  · exact fresh.unsent before
  · simp at same

theorem Fresh.order (fresh : Fresh taken written t s) (holds : Holds F taken written s) :
    (s.ledger.durable ++ s.ledger.held ++ [t]).Sublist taken := by
  obtain ⟨earlier, rfl⟩ := fresh.last
  have order := (List.sublist_append_left _ _).trans holds.order
  refine List.Sublist.append ?_ (List.Sublist.refl [t])
  obtain ⟨front, back, same, before, last⟩ := List.sublist_append_iff.1 order
  rcases List.sublist_singleton.1 last with rfl | rfl
  · rwa [same, List.append_nil]
  · have member : t ∈ s.ledger.durable ++ s.ledger.held := by simp [same]
    simp [fresh.notHeld, fresh.notDurable] at member

/-- A live `JobGuard`; the engine may have rolled its transaction back. -/
structure Job (F : Faults) (cap : Nat) (taken : List TaskId) (written : TaskId → List String)
    (aborted : Bool) (t : TaskId) (s : BatchState) : Prop extends Here F taken written s where
  usable : Usable F cap s
  job : s.jobOpen = true
  unsent : t ∉ s.ledger.senders
  notHeld : t ∉ s.ledger.held
  notDurable : t ∉ s.ledger.durable
  inside : aborted = false → s.ledger.running = some t ∧
    (transaction s.conn = .saved ∨ (F.stale ∧ transaction s.conn = .implicit))
  outside : aborted = true → F.auto ∧ transaction s.conn = .out

theorem runSavepoint_safe (here : Here F taken written s) (usable : Usable F cap s)
    (situation : transaction s.conn = .begun ∨ (F.stale ∧ transaction s.conn = .out))
    (fresh : Fresh taken written t s) :
    Safe (discipline F cap taken written who)
      (fun result s' _ => result = .ok () ∧ Job F cap taken written false t { s' with jobOpen := true })
      (runControl .savepoint) s seen := by
  have running : s.ledger.running = none := by
    rcases situation with begun | ⟨-, out⟩
    · exact here.holds.sound.running_begun begun
    · exact (here.holds.sound.held_out out).2
  have served (c : Bool) : (serve .savepoint c s).1 = .ok () ∧
      (serve .savepoint c s).2.ledger = { s.ledger with running := some t } ∧
      (transaction (serve .savepoint c s).2.conn = .saved ∨
        (F.stale ∧ transaction (serve .savepoint c s).2.conn = .implicit)) := by
    rcases situation with begun | ⟨stale, out⟩
    · rw [savepoint_inside (by simp [begun]), ← fresh.starting]
      obtain ⟨entered, explicit, -⟩ := transaction_begun.1 begun
      exact ⟨rfl, rfl, .inl (transaction_saved.2 ⟨entered, explicit, rfl⟩)⟩
    · rw [savepoint_out out, ← fresh.starting]
      exact ⟨rfl, rfl, .inr ⟨stale, rfl⟩⟩
  have ready : Ready taken written s .savepoint :=
    ⟨running, by rw [fresh.starting, fresh.unwritten], by rw [fresh.starting]; exact fresh.order here.holds⟩
  refine runControl_safe .savepoint here.holds ready (by simp) (fun _ => ?_) fun c s' same here' => ?_
  · refine ⟨shape_probe _ (by simp) usable (situation.imp_right fun stale => .inr stale.1), fun c => ?_⟩
    obtain ⟨-, ledger, inside⟩ := served c
    refine shape_probe _ (by simp) (usable.congr (by simp) (.inr (by rw [ledger]))) ?_
    exact .inr (inside.imp_right And.left)
  · obtain ⟨ok, ledger, inside⟩ := served c
    have ledger' : s'.ledger = { s.ledger with running := some t } := by rw [same]; exact ledger
    refine ⟨ok, ⟨here'.holds, here'.quiet⟩, usable.congr (by simp [same]) (.inr (by simp [ledger'])), rfl,
      ?_, ?_, ?_, fun _ => ⟨by simp [ledger'], by simpa [same] using inside⟩, by simp⟩
    · simpa [ledger'] using fresh.unsent
    · simpa [ledger'] using fresh.notHeld
    · simpa [ledger'] using fresh.notDurable

theorem beginBatch_safe (positive : 0 < cap) (here : Here F taken written s) (none : s.openBatch = none)
    (idle : s.jobOpen = false) (out : transaction s.conn = .out) :
    Safe (discipline F cap taken written who)
      (fun result s' _ => result = .ok () ∧ Here F taken written s' ∧ Usable F cap s' ∧
        transaction s'.conn = .begun) beginBatch s seen := by
  have explicit := (here.holds.sound.outside (transaction_out.1 out)).2.1
  have unmarked := (here.holds.sound.outside (transaction_out.1 out)).1
  have begun (c : Bool) : transaction (serve .begin c s).2.conn = .begun := by
    rw [begin_out out]
    exact transaction_begun.2 ⟨rfl, explicit, unmarked⟩
  unfold beginBatch
  simp only [safe_bind]
  refine runControl_safe .begin here.holds ⟨none, out⟩ (by simp)
    (fun _ => ⟨⟨none, idle, .inl out⟩, fun c => ⟨by simp [none], by simp [idle], .inr (begun c)⟩⟩)
    fun c s' served here' => ?_
  have ok : (serve .begin c s).1 = .ok () := by rw [begin_out out]
  have situation : transaction s'.conn = .begun := by rw [served]; exact begun c
  rw [ok]
  simp only [safe_bind, safe_modify, safe_pure]
  have same : s'.openBatch = Option.none := by simp [served, none]
  have empty : Holds F taken written { s' with openBatch := some {} } :=
    here'.holds.sameWaiters (by rw [same]; rfl)
  exact ⟨⟨.of_eq rfl rfl, rfl⟩, trivial, ⟨empty, here'.quiet⟩,
    ⟨rfl, by simpa using positive, .inr (by simp [waitersOf])⟩, situation⟩

theorem startJob_safe (positive : 0 < cap) (here : Here F taken written s) (settled : Settled F cap s)
    (fresh : Fresh taken written t s) :
    Safe (discipline F cap taken written none)
      (fun result s' _ => result = .ok () ∧ Job F cap taken written false t s') startJob s seen := by
  unfold startJob
  simp only [safe_bind]
  refine (remembered (settleAbandoned_safe here settled)).weaken ?_
  rintro result s₁ seen₁ ⟨⟨ok, ended⟩, guarantee, starting⟩
  subst ok
  have fresh₁ := fresh.kept guarantee starting
  simp only [safe_bind, safe_read]
  cases opened : s₁.openBatch with
  | none =>
      have out : transaction s₁.conn = .out := by
        rcases ended.situation with ⟨-, out⟩ | ⟨usable, -⟩ | ⟨-, -, out⟩
        · exact out
        · simpa [opened] using usable.opened
        · exact out
      simp only [Option.isNone_none, if_true]
      refine (remembered (beginBatch_safe positive ended.toHere opened ended.idle out)).weaken ?_
      rintro result s₂ seen₂ ⟨⟨ok, here₂, usable, begun⟩, guarantee, starting⟩
      subst ok
      simp only [safe_bind]
      refine (runSavepoint_safe here₂ usable (.inl begun) (fresh₁.kept guarantee starting)).weaken ?_
      rintro result s₃ _ ⟨ok, job⟩
      subst ok
      exact ⟨⟨.of_eq rfl rfl, rfl⟩, rfl, job⟩
  | some batch =>
      simp only [Option.isNone_some, Bool.false_eq_true, if_false, safe_pure, safe_bind]
      have situation : Usable F cap s₁ ∧
          (transaction s₁.conn = .begun ∨ (F.stale ∧ transaction s₁.conn = .out)) := by
        rcases ended.situation with ⟨none, -⟩ | ⟨usable, begun⟩ | ⟨stale, usable, out⟩
        · simp [opened] at none
        · exact ⟨usable, .inl begun⟩
        · exact ⟨usable, .inr ⟨stale, out⟩⟩
      refine (runSavepoint_safe ended.toHere situation.1 situation.2 fresh₁).weaken ?_
      rintro result s₃ _ ⟨ok, job⟩
      subst ok
      exact ⟨⟨.of_eq rfl rfl, rfl⟩, rfl, job⟩

/-! ## Ending a job -/

structure Released (F : Faults) (cap : Nat) (taken : List TaskId) (written : TaskId → List String)
    (t : TaskId) (jobs : Nat) (s : BatchState) : Prop extends Here F taken written s where
  idle : s.jobOpen = false
  unsent : t ∉ s.ledger.senders
  batch : ∃ batch, s.openBatch = some batch ∧ batch.jobs = jobs
  room : jobs ≤ cap
  unanswered : F.stale ∨ ∀ w ∈ waitersOf s.openBatch, w ∉ s.ledger.durable
  inside : (transaction s.conn = .begun ∧ t ∈ s.ledger.held ∧ t ∉ s.ledger.durable) ∨
    (F.stale ∧ transaction s.conn = .out ∧ t ∈ s.ledger.durable)

theorem Released.ended {jobs : Nat} (released : Released F cap taken written t jobs s) :
    Ended F (cap + 1) taken written s := by
  obtain ⟨batch, opened, counted⟩ := released.batch
  have usable : Usable F (cap + 1) s := by
    refine ⟨by simp [opened], fun found same => ?_, released.unanswered⟩
    have eq : found = batch := by simpa [opened] using same.symm
    have := released.room
    subst eq
    omega
  refine ⟨released.toHere, ?_, released.idle⟩
  rcases released.inside with ⟨begun, -⟩ | ⟨stale, out, -⟩
  · exact .opened usable released.idle begun
  · exact .stale stale usable released.idle out

theorem endJob_safe {aborted : Bool} (job : Job F cap taken written aborted t s) :
    Safe (discipline F cap taken written (some t))
      (fun result s' _ => match result with
        | .ok jobs => Released F cap taken written t jobs s'
        | .error e => Closed F taken written s' ∧ e = .noSavepoint ∧ t ∉ s'.ledger.durable)
      endJob s seen := by
  have holds := job.holds
  unfold endJob
  simp only [safe_bind]
  cases aborted with
  | true =>
      obtain ⟨auto, out⟩ := job.outside rfl
      have idle := (holds.sound.held_out out).2
      have unchanged (c : Bool) := release_unmarked (c := c) (holds.sound.outside (transaction_out.1 out)).1
      refine runControl_safe .release holds (by simp [Ready, idle]) (by simp [idle]) (fun may => ?_)
        fun c s' served here => ?_
      · have stale : F.stale := may.resolve_right fun entered => entered auto ⟨.inl rfl, out⟩
        refine ⟨shape_probe _ (by simp) job.usable (.inr (.inr stale)), fun c => ?_⟩
        rw [unchanged]
        exact shape_probe _ (by simp) job.usable (.inr (.inr stale))
      · rw [unchanged] at served ⊢
        simp only [safe_bind, safe_pure]
        have usable : Usable F cap s' := job.usable.congr (by rw [served]) (.inr (by rw [served]))
        have out' : transaction s'.conn = .out := by rw [served]; exact out
        refine (rollbackJobOrDiscard_safe here usable (by simp [out']) fun _ => .inl auto).weaken fun kept s'' _ left => ?_
        cases kept with
        | true => simpa [out'] using Undone.left left
        | false =>
            have durable : s''.ledger.durable = s.ledger.durable := by simp [left.2, served]
            exact ⟨left.1, trivial, by rw [durable]; exact job.notDurable⟩
  | false =>
      obtain ⟨running, inside⟩ := job.inside rfl
      have notDurable := job.notDurable
      have served (c : Bool) : (serve .release c s).1 = .ok () ∧
          (F.stale ∨ (serve .release c s).2.ledger.durable = s.ledger.durable) ∧
          ((transaction (serve .release c s).2.conn = .begun ∧ t ∈ (serve .release c s).2.ledger.held ∧
            t ∉ (serve .release c s).2.ledger.durable) ∨
          (F.stale ∧ transaction (serve .release c s).2.conn = .out ∧
            t ∈ (serve .release c s).2.ledger.durable)) := by
        rcases inside with saved | ⟨stale, implicit⟩
        · rw [release_saved saved]
          obtain ⟨entered, explicit, -⟩ := transaction_saved.1 saved
          exact ⟨rfl, .inr rfl, .inl ⟨transaction_begun.2 ⟨entered, explicit, rfl⟩, by simp [running],
            notDurable⟩⟩
        · rw [release_implicit holds.sound implicit]
          exact ⟨rfl, .inl stale, .inr ⟨stale, rfl, by simp [running]⟩⟩
      refine runControl_safe .release holds ?_ (fun _ u same => by rw [← same, running]) (fun _ => ?_)
        fun c s' same here => ?_
      · intro u same
        rw [running, Option.some.injEq] at same
        exact holds.unsent u (same ▸ job.unsent)
      · refine ⟨shape_probe _ (by simp) job.usable (.inr (inside.imp_right And.left)), fun c => ?_⟩
        obtain ⟨-, durable, left⟩ := served c
        refine shape_probe _ (by simp) (job.usable.congr (by simp) durable) ?_
        exact left.imp And.left fun stale => .inr stale.1
      · obtain ⟨ok, durable, left⟩ := served c
        obtain ⟨batch, opened⟩ := Option.isSome_iff_exists.1 job.usable.opened
        have opened' : s'.openBatch = some batch := by simp [same, opened]
        have usable : Usable F cap s' :=
          job.usable.congr (by simp [same]) (durable.imp_right fun durable => by simp [same, durable])
        rw [ok]
        simp only [safe_bind, safe_read, safe_modify, safe_pure, opened', Option.getD_some]
        have waiters : waitersOf (some { batch with jobs := batch.jobs + 1 }) = waitersOf s'.openBatch := by
          rw [opened']; rfl
        refine ⟨⟨.of_eq rfl rfl, rfl⟩, ⟨.of_eq rfl rfl, rfl⟩, ⟨here.holds.sameWaiters waiters, here.quiet⟩,
          rfl, ?_, ⟨_, rfl, rfl⟩, usable.room batch opened', ?_, ?_⟩
        · simpa [same] using job.unsent
        · rw [waiters]
          exact usable.unanswered
        · simpa [same] using left

end Wamux.Proof.GroupCommit
