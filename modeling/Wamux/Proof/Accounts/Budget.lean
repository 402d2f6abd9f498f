import Mathlib.Data.Finset.Card
import Wamux.Accounts.Registry
import Wamux.Proof.Accounts.Lifecycle

namespace Wamux.Proof.Accounts
open Wamux.Accounts.Registry Wamux.Runs Wamux.Runs.Machine

section Handle

def Holds (a : Accounts.State) (k : Accounts.ConnId) : Prop :=
  a.connects k = .supervise ∨ a.supervisors k ≠ .absent ∧ a.supervisors k ≠ .done

def Unfinished (a : Accounts.State) (k : Accounts.ConnId) : Prop := Holds a k ∧ a.supervisors k ≠ .cancelled

def pastAwaits : Accounts.Supervisor → Bool
  | .isTerminal | .send | .fetchSub | .done => true
  | .absent | .parked | .polled | .take | .clearClient | .cancelled => false

inductive Slots (a a' : Accounts.State) : Accounts.Event → Prop where
  | taken {k total} (phase : a.connects k = .fetchAdd) (free : ¬Holds a k) (held : Holds a' k)
      (others : ∀ j, j ≠ k → (Holds a' j ↔ Holds a j)) : Slots a a' (.advance k total)
  | released {k} (phase : a.supervisors k = .fetchSub) (held : Holds a k) (free : ¬Holds a' k)
      (others : ∀ j, j ≠ k → (Holds a' j ↔ Holds a j)) : Slots a a' (.supervise k)
  | kept {e} (uncounted : ∀ n, counted a n e = n) (same : ∀ j, Holds a' j ↔ Holds a j) : Slots a a' e

variable {max : Nat} {a a' : Accounts.State} {e : Accounts.Event} {k : Accounts.ConnId}

theorem slots_of_connects {phase : Accounts.Connect} {total : Nat}
    (same : ∀ j, Holds a' j ↔ Holds a j) (here : a.connects k = phase) (other : phase ≠ .fetchAdd) :
    Slots a a' (.advance k total) := by
  refine .kept (fun n => ?_) same
  subst here
  simp only [counted]

theorem slots_of_supervisors {phase : Accounts.Supervisor}
    (same : ∀ j, Holds a' j ↔ Holds a j) (here : a.supervisors k = phase) (other : phase ≠ .fetchSub) :
    Slots a a' (.supervise k) := by
  refine .kept (fun n => ?_) same
  subst here
  simp only [counted]

theorem holds_setConnect {phase : Accounts.Connect} (before : a.connects k ≠ .supervise) (after : phase ≠ .supervise)
    (connects : a'.connects = Function.update a.connects k phase) (supervisors : a'.supervisors = a.supervisors)
    (j : Accounts.ConnId) : Holds a' j ↔ Holds a j := by
  unfold Holds
  rw [connects, supervisors, Function.update_apply]
  split
  · rename_i same
    subst same
    simp only [after, before, false_or]
  · rfl

theorem holds_setSupervisor {phase : Accounts.Supervisor} (before : a.supervisors k ≠ .absent ∧ a.supervisors k ≠ .done)
    (after : phase ≠ .absent ∧ phase ≠ .done) (connects : a'.connects = a.connects)
    (supervisors : a'.supervisors = Function.update a.supervisors k phase) (j : Accounts.ConnId) :
    Holds a' j ↔ Holds a j := by
  unfold Holds
  rw [connects, supervisors, Function.update_apply]
  split
  · rename_i same
    subst same
    exact or_congr_right (iff_of_true after before)
  · rfl

theorem supervisors_abort (k j : Accounts.ConnId) : (a.abort k).supervisors j =
    if j = k ∧ a.supervisors k = .parked then .cancelled else a.supervisors j := by
  by_cases same : j = k
  · subst same
    by_cases parked : a.supervisors j = .parked <;> simp [Accounts.State.abort, parked]
  · simp [Accounts.State.abort, same]

theorem holds_abort (k j : Accounts.ConnId) : Holds (a.abort k) j ↔ Holds a j := by
  have connects : (a.abort k).connects = a.connects := rfl
  unfold Holds
  rw [connects, supervisors_abort]
  split
  · rename_i parked
    rw [parked.1, parked.2]
    simp
  · rfl

theorem slots_of_move (life : ∀ k, Lifecycle a k) (move : Move max a e a') : Slots a a' e := by
  cases move with
  | connect how =>
      cases how with
      | called phase =>
          exact .kept (fun _ => rfl) (holds_setConnect (by simp [phase]) (by simp) rfl rfl)
      | built phase =>
          exact .kept (fun _ => rfl) (holds_setConnect (by simp [phase]) (by simp) rfl rfl)
      | alreadyRunning phase _ =>
          exact slots_of_connects (holds_setConnect (by simp [phase]) (by simp) rfl rfl) phase (by simp)
      | notRunning phase _ =>
          exact slots_of_connects (holds_setConnect (by simp [phase]) (by simp) rfl rfl) phase (by simp)
      | within phase =>
          exact slots_of_connects (holds_setConnect (by simp [phase]) (by simp) rfl rfl) phase (by simp)
      | exhausted phase =>
          exact slots_of_connects (holds_setConnect (by simp [phase]) (by simp) rfl rfl) phase (by simp)
  | found phase => exact slots_of_connects (holds_setConnect (by simp [phase]) (by simp) rfl rfl) phase (by simp)
  | announced phase => exact slots_of_connects (holds_setConnect (by simp [phase]) (by simp) rfl rfl) phase (by simp)
  | buildFailed phase => exact .kept (fun _ => rfl) (holds_setConnect (by simp [phase]) (by simp) rfl rfl)
  | clientSet phase => exact slots_of_connects (holds_setConnect (by simp [phase]) (by simp) rfl rfl) phase (by simp)
  | spawned phase => exact slots_of_connects (holds_setConnect (by simp [phase]) (by simp) rfl rfl) phase (by simp)
  | @counted k total phase =>
      have absent := ((life k).unsupervised (by simp [Connect.unsupervised, phase])).2
      refine .taken phase ?_ ?_ ?_
      · simp [Holds, phase, absent]
      · simp [Holds, Accounts.State.setConnect]
      · intro j other
        simp [Holds, Accounts.State.setConnect, Function.update_of_ne other]
  | @supervised k total phase =>
      refine slots_of_connects (fun j => ?_) phase (by simp)
      by_cases same : j = k
      · subst same
        exact iff_of_true (.inr (by simp [Accounts.State.setConnect, Accounts.State.setSupervisor])) (.inl phase)
      · simp [Holds, Accounts.State.setConnect, Accounts.State.setSupervisor, Function.update_of_ne same]
  | established phase => exact .kept (fun _ => rfl) (holds_setConnect (by simp [phase]) (by simp) rfl rfl)
  | @replaced k previous phase running =>
      have returned : ∀ j, Holds ({ a with running := some k }.setConnect k (.returned (.ok ()))) j ↔ Holds a j :=
        holds_setConnect (k := k) (by simp [phase]) (by simp) rfl rfl
      exact .kept (fun _ => rfl) fun j => (holds_abort previous j).trans (returned j)
  | recorded => exact .kept (fun _ => rfl) fun _ => Iff.rfl
  | exited => exact .kept (fun _ => rfl) fun _ => Iff.rfl
  | supervisor how =>
      cases how with
      | polled phase => exact .kept (fun _ => rfl) (holds_setSupervisor (by simp [phase]) (by simp) rfl rfl)
      | pending phase => exact .kept (fun _ => rfl) (holds_setSupervisor (by simp [phase]) (by simp) rfl rfl)
      | woken phase =>
          exact slots_of_supervisors (holds_setSupervisor (by simp [phase]) (by simp) rfl rfl) phase (by simp)
      | terminal phase =>
          exact slots_of_supervisors (holds_setSupervisor (by simp [phase]) (by simp) rfl rfl) phase (by simp)
      | notTerminal phase =>
          exact slots_of_supervisors (holds_setSupervisor (by simp [phase]) (by simp) rfl rfl) phase (by simp)
  | took phase => exact slots_of_supervisors (holds_setSupervisor (by simp [phase]) (by simp) rfl rfl) phase (by simp)
  | cleared phase =>
      exact slots_of_supervisors (holds_setSupervisor (by simp [phase]) (by simp) rfl rfl) phase (by simp)
  | sent phase => exact slots_of_supervisors (holds_setSupervisor (by simp [phase]) (by simp) rfl rfl) phase (by simp)
  | @released k phase =>
      have past : a.connects k ≠ .supervise := by
        intro supervise
        have absent := ((life k).unsupervised (by simp [Connect.unsupervised, supervise])).2
        simp [phase] at absent
      refine .released phase (.inr (by simp [phase])) ?_ ?_
      · simp [Holds, Accounts.State.setSupervisor, past]
      · intro j other
        simp [Holds, Accounts.State.setSupervisor, Function.update_of_ne other]
  | cancelled _ phase =>
      refine .kept (fun _ => rfl) (holds_setSupervisor ?_ (by simp) rfl rfl)
      rcases phase with phase | phase | phase <;> simp [phase]
  | stop how => cases how <;> exact .kept (fun _ => rfl) fun _ => Iff.rfl
  | stopTook => exact .kept (fun _ => rfl) fun _ => Iff.rfl
  | stopCleared => exact .kept (fun _ => rfl) fun _ => Iff.rfl
  | stopSent => exact .kept (fun _ => rfl) fun _ => Iff.rfl

def Releases (a : Accounts.State) : Prop := ∀ k, a.aborted k = true → pastAwaits (a.supervisors k) = true

theorem Releases.uncancelled (releases : Releases a) (life : ∀ k, Lifecycle a k) (k : Accounts.ConnId) :
    a.supervisors k ≠ .cancelled := by
  intro cancelled
  have past := releases k ((life k).cancelled cancelled)
  rw [cancelled] at past
  cases past

theorem Releases.move (releases : Releases a) (life : ∀ k, Lifecycle a k) (move : Move max a e a')
    (alone : ∀ k previous, e = .setRunning k → a.running = some previous →
      pastAwaits (a.supervisors previous) = true) : Releases a' := by
  have setSupervisor {k : Accounts.ConnId} {phase : Accounts.Supervisor}
      (later : pastAwaits (a.supervisors k) = true → pastAwaits phase = true) :
      ∀ j, a.aborted j = true → pastAwaits (Function.update a.supervisors k phase j) = true := by
    intro j aborted
    rw [Function.update_apply]
    split
    · rename_i same
      subst same
      exact later (releases j aborted)
    · exact releases j aborted
  cases move with
  | @supervised k total phase =>
      apply setSupervisor
      have absent := ((life k).unsupervised (by simp [Connect.unsupervised, phase])).2
      simp [absent, pastAwaits]
  | @replaced k previous phase running =>
      have past := alone k previous rfl running
      intro j aborted
      rw [supervisors_abort, if_neg]
      · by_cases same : j = previous
        · exact same ▸ past
        · simp only [Accounts.State.abort, Function.update_of_ne same] at aborted
          exact releases j aborted
      · rintro ⟨-, parked⟩
        have still : a.supervisors previous = .parked := parked
        rw [still] at past
        cases past
  | supervisor how =>
      cases how with
      | polled phase => exact setSupervisor (by simp [phase, pastAwaits])
      | pending phase => exact setSupervisor (by simp [phase, pastAwaits])
      | woken phase => exact setSupervisor (by simp [phase, pastAwaits])
      | terminal phase => exact setSupervisor fun _ => rfl
      | notTerminal phase => exact setSupervisor fun _ => rfl
  | took phase => exact setSupervisor (by simp [phase, pastAwaits])
  | cleared phase => exact setSupervisor fun _ => rfl
  | sent phase => exact setSupervisor fun _ => rfl
  | released phase => exact setSupervisor fun _ => rfl
  | cancelled aborted phase =>
      have past := releases _ aborted
      rcases phase with phase | phase | phase <;> rw [phase] at past <;> cases past
  | _ => exact releases

end Handle

variable {max : Nat} {s s' : State} {e : Event}

theorem step_accounts (moved : step max s e = some s') :
    (s'.accounts = s.accounts ∧ s'.connected = s.connected) ∨
    ∃ h e' a', Accounts.step max (s.accounts h) e' = some a' ∧ s'.accounts = Function.update s.accounts h a' ∧
      s'.connected = counted (s.accounts h) s.connected e' ∧ (e = .handle h e' ∨ ∃ q, e' = .stop q) := by
  have handled {h : HandleId} {e' : Accounts.Event} {t : State} (moved : stepHandle max s h e' = some t) :
      ∃ a', Accounts.step max (s.accounts h) e' = some a' ∧ t.accounts = Function.update s.accounts h a' ∧
        t.connected = counted (s.accounts h) s.connected e' := by
    unfold stepHandle at moved
    split at moved
    · obtain ⟨a', stepped, rfl⟩ := Option.map_eq_some_iff.1 moved
      exact ⟨a', stepped, rfl, rfl⟩
    · cases moved
  cases e with
  | handle h e' =>
      obtain ⟨a', stepped, accounts, connected⟩ := handled moved
      exact .inr ⟨h, e', a', stepped, accounts, connected, .inl rfl⟩
  | create => cases moved; exact .inl ⟨rfl, rfl⟩
  | load => cases moved; exact .inl ⟨rfl, rfl⟩
  | delete h q =>
      simp only [Accounts.Registry.step] at moved
      split at moved
      · rename_i middle stopped
        cases moved
        obtain ⟨a', stepped, accounts, connected⟩ := handled stopped
        exact .inr ⟨h, .stop q, a', stepped, accounts, connected, .inr ⟨q, rfl⟩⟩
      · cases moved
  | next i uuid =>
      left
      simp only [Accounts.Registry.step] at moved
      split at moved
      · unfold callNext at moved
        split at moved
        · split at moved
          · cases moved
          · split at moved <;> cases moved <;> exact ⟨rfl, rfl⟩
        · cases moved
          exact ⟨rfl, rfl⟩
        · rename_i next rest _
          cases moved
          cases next <;> exact ⟨rfl, rfl⟩
        all_goals first
          | (split at moved <;> cases moved <;> exact ⟨rfl, rfl⟩)
          | cases moved
      · cases moved
  | fails i =>
      left
      simp only [Accounts.Registry.step] at moved
      split at moved <;> cases moved <;> exact ⟨rfl, rfl⟩

theorem reaches_accounts {allowed : State → Event → Prop} {stored : Table} (P : Accounts.State → Prop) (initial : P {})
    (kept : ∀ s h e' a', (machine max stored).Reaches allowed s → P (s.accounts h) →
      (allowed s (.handle h e') ∨ ∃ q, e' = .stop q) → Accounts.step max (s.accounts h) e' = some a' → P a')
    (reaches : (machine max stored).Reaches allowed s) (h : HandleId) : P (s.accounts h) := by
  induction reaches generalizing h with
  | initial => exact initial
  | @next s s' e before permitted moved ih =>
      rcases step_accounts moved with ⟨accounts, -⟩ | ⟨h', e', a', stepped, accounts, -, how⟩
      · rw [accounts]
        exact ih h
      · rw [accounts, Function.update_apply]
        split
        · refine kept s h' e' a' before (ih h') ?_ stepped
          rcases how with rfl | stop
          · exact .inl permitted
          · exact .inr stop
        · exact ih h

theorem lifecycle_of_reaches {allowed : State → Event → Prop} {stored : Table}
    (reaches : (machine max stored).Reaches allowed s) (h : HandleId) : ∀ k, Lifecycle (s.accounts h) k := by
  apply reaches_accounts (fun a => ∀ k, Lifecycle a k) _ _ reaches
  · intro k
    constructor <;> simp [Connect.unspawned, Connect.unsupervised, Supervisor.sawExit]
  · exact fun _ _ _ _ _ life _ stepped k => Lifecycle.move life (step_move stepped) k

/-! ## The counter -/

def Counted (s : State) : Prop :=
  ∃ held : Finset (HandleId × Accounts.ConnId), (∀ p, p ∈ held ↔ Holds (s.accounts p.1) p.2) ∧ s.connected = held.card

theorem Counted.step {h : HandleId} {e' : Accounts.Event} {a' : Accounts.State} (exact : Counted s)
    (slots : Slots (s.accounts h) a' e') (accounts : s'.accounts = Function.update s.accounts h a')
    (connected : s'.connected = counted (s.accounts h) s.connected e') : Counted s' := by
  obtain ⟨held, members, count⟩ := exact
  have elsewhere (p : HandleId × Accounts.ConnId) (other : p.1 ≠ h) : s'.accounts p.1 = s.accounts p.1 := by
    rw [accounts, Function.update_of_ne other]
  have here : s'.accounts h = a' := by rw [accounts, Function.update_self]
  cases slots with
  | @taken k total phase free taken others =>
      have fresh : (h, k) ∉ held := fun member => free ((members (h, k)).1 member)
      refine ⟨insert (h, k) held, ?_, ?_⟩
      · rintro ⟨h', j⟩
        rw [Finset.mem_insert, members, Prod.mk.injEq]
        by_cases same : h' = h
        · subst same
          by_cases mine : j = k
          · simp [mine, here, taken]
          · simp [mine, here, others j mine]
        · simp [same, elsewhere (h', j) same]
      · rw [Finset.card_insert_of_notMem fresh, connected, counted, phase, count]
  | @released k phase taken free others =>
      have mine : (h, k) ∈ held := (members (h, k)).2 taken
      refine ⟨held.erase (h, k), ?_, ?_⟩
      · rintro ⟨h', j⟩
        rw [Finset.mem_erase, members, ne_eq, Prod.mk.injEq]
        by_cases same : h' = h
        · subst same
          by_cases mine : j = k
          · simp [mine, here, free]
          · simp [mine, here, others j mine]
        · simp [same, elsewhere (h', j) same]
      · have some : 0 < held.card := Finset.card_pos.2 ⟨_, mine⟩
        rw [Finset.card_erase_of_mem mine, connected, counted, phase, count]
        exact if_neg (Nat.ne_of_gt some)
  | kept uncounted same =>
      refine ⟨held, ?_, ?_⟩
      · rintro ⟨h', j⟩
        rw [members]
        by_cases mine : h' = h
        · subst mine
          simp [here, same]
        · rw [elsewhere (h', j) mine]
      · rw [connected, uncounted, count]

theorem counted_of_reaches {allowed : State → Event → Prop} {stored : Table}
    (reaches : (machine max stored).Reaches allowed s) : Counted s := by
  induction reaches with
  | initial => exact ⟨∅, by simp [machine, Holds], rfl⟩
  | next before _ moved ih =>
      rcases step_accounts moved with ⟨accounts, connected⟩ | ⟨h, e', a', stepped, accounts, connected, -⟩
      · unfold Counted
        rw [accounts, connected]
        exact ih
      · exact ih.step (slots_of_move (lifecycle_of_reaches before h) (step_move stepped)) accounts connected

/-! ## Slots are released -/

structure Over (max : Nat) (a : Accounts.State) (k : Accounts.ConnId) : Prop where
  exited : a.loops k ≠ .alive
  supervised : a.connects k ≠ .supervise
  polled : Accounts.step max a (.poll k) = none
  ended : Accounts.step max a (.supervise k) = none

structure Exact (max : Nat) (s : State) : Prop where
  count : ∃ live : Finset (HandleId × Accounts.ConnId),
    (∀ p, p ∈ live ↔ Unfinished (s.accounts p.1) p.2) ∧ s.connected = live.card
  released : ∀ h k, (s.accounts h).supervisors k ≠ .cancelled
  positive : ∀ h k, (s.accounts h).supervisors k = .fetchSub → 0 < s.connected
  idle : (∀ h k, Over max (s.accounts h) k) → s.connected = 0
  refuses : Accounts.withinConnectionBudget s.connected max = false →
    ∃ live : Finset (HandleId × Accounts.ConnId), (∀ p ∈ live, Unfinished (s.accounts p.1) p.2) ∧ max ≤ live.card

/-- `set_running` finds the slot empty, or in it a supervisor past its last await. -/
def Alone (s : State) : Event → Prop
  | .handle h (.setRunning _) => ∀ previous, (s.accounts h).running = some previous →
      pastAwaits ((s.accounts h).supervisors previous) = true
  | _ => True

theorem releases_of_reaches {stored : Table} (reaches : (machine max stored).Reaches Alone s) (h : HandleId) :
    Releases (s.accounts h) := by
  apply reaches_accounts Releases _ _ reaches
  · exact fun k aborted => by cases aborted
  · intro s h e' a' before releases how stepped
    apply releases.move (lifecycle_of_reaches before h) (step_move stepped)
    rintro k previous rfl running
    rcases how with alone | ⟨q, stop⟩
    · exact alone previous running
    · cases stop

theorem not_over_of_unfinished {a : Accounts.State} {k : Accounts.ConnId} (life : Lifecycle a k)
    (unfinished : Unfinished a k) : ¬Over max a k := by
  intro past
  obtain ⟨holds | ⟨present, undone⟩, uncancelled⟩ := unfinished
  · exact past.supervised holds
  · have exited : a.loops k = .exited := by
      have spawned := life.watched present
      have dead := past.exited
      cases loops : a.loops k <;> simp_all
    have polled := past.polled
    have ended := past.ended
    cases phase : a.supervisors k <;> simp_all [Accounts.step, Accounts.supervise]

theorem exact_of_counted (counted : Counted s) (life : ∀ h k, Lifecycle (s.accounts h) k)
    (uncancelled : ∀ h k, (s.accounts h).supervisors k ≠ .cancelled) : Exact max s := by
  obtain ⟨held, members, count⟩ := counted
  have unfinished (p : HandleId × Accounts.ConnId) : p ∈ held ↔ Unfinished (s.accounts p.1) p.2 := by
    rw [members, Unfinished, and_iff_left (uncancelled p.1 p.2)]
  refine ⟨⟨held, unfinished, count⟩, uncancelled, ?_, ?_, ?_⟩
  · intro h k phase
    rw [count, Finset.card_pos]
    exact ⟨(h, k), (members (h, k)).2 (.inr (by simp [phase]))⟩
  · intro past
    rw [count, Finset.card_eq_zero, Finset.eq_empty_iff_forall_notMem]
    intro p member
    exact not_over_of_unfinished (life p.1 p.2) ((unfinished p).1 member) (past p.1 p.2)
  · intro refused
    refine ⟨held, fun p member => (unfinished p).1 member, ?_⟩
    simp only [Accounts.withinConnectionBudget, Bool.or_eq_false_iff, decide_eq_false_iff_not, not_lt] at refused
    rw [← count]
    exact refused.2

theorem not_exact_of_cancelled {h : HandleId} {k : Accounts.ConnId}
    (cancelled : (s.accounts h).supervisors k = .cancelled) : ¬Exact max s :=
  fun exact => exact.released h k cancelled

theorem cancel_leaks {stored : Table} {h : HandleId} {k : Accounts.ConnId} (object : h < s.objects.length)
    (aborted : (s.accounts h).aborted k = true)
    (phase : (s.accounts h).supervisors k = .polled ∨ (s.accounts h).supervisors k = .take ∨
      (s.accounts h).supervisors k = .clearClient) :
    ∃ s', (machine max stored).Leads Free s s' ∧ ¬Exact max s' := by
  have cancels : Accounts.step max (s.accounts h) (.cancel k) = some ((s.accounts h).setSupervisor k .cancelled) := by
    simp only [Accounts.step, Accounts.cancel, aborted]
    rcases phase with phase | phase | phase <;> rw [phase]
  have moved : (machine max stored).step s (.handle h (.cancel k)) = some { s with
      accounts := Function.update s.accounts h ((s.accounts h).setSupervisor k .cancelled) } := by
    simp [machine, Accounts.Registry.step, stepHandle, object, loads, cancels, counted]
  refine ⟨_, .next .here trivial moved, not_exact_of_cancelled (h := h) (k := k) ?_⟩
  simp [Accounts.State.setSupervisor]

/-- A supervisor that `set_running` aborts before its last await need not run again. -/
theorem aborted_leaks {stored : Table} (reaches : (machine max stored).Reaches Free s) (shared : ¬Alone s e)
    (moved : (machine max stored).step s e = some s') :
    ∃ s'', (machine max stored).Leads Free s' s'' ∧ ¬Exact max s'' := by
  obtain ⟨h, k, rfl⟩ : ∃ h k, e = .handle h (.setRunning k) := by
    unfold Alone at shared
    split at shared
    · exact ⟨_, _, rfl⟩
    · exact absurd trivial shared
  simp only [Alone, not_forall] at shared
  obtain ⟨previous, running, awaits⟩ := shared
  have life := lifecycle_of_reaches reaches h previous
  have present := (life.slot running).2
  have uncancelled : (s.accounts h).supervisors previous ≠ .cancelled :=
    fun cancelled => life.evicted (life.cancelled cancelled) running
  have object : h < s.objects.length := by
    simp only [machine, Accounts.Registry.step, stepHandle] at moved
    split at moved
    · exact (Bool.and_eq_true_iff.1 ‹_›).1 |> of_decide_eq_true
    · cases moved
  simp only [machine, Accounts.Registry.step, stepHandle, object, decide_true, loads, Bool.and_self, if_true] at moved
  obtain ⟨a', stepped, rfl⟩ := Option.map_eq_some_iff.1 moved
  cases step_move stepped with
  | connect how => cases how
  | supervisor how => cases how
  | stop how => cases how
  | established _ empty =>
      rw [empty] at running
      cases running
  | @replaced _ other phase its =>
      rw [running] at its
      cases its
      generalize result : { s.accounts h with running := some k }.setConnect k (.returned (.ok ())) = returned at stepped
      have supervisor : returned.supervisors previous = (s.accounts h).supervisors previous := by
        rw [← result]
        rfl
      by_cases parked : (s.accounts h).supervisors previous = .parked
      · refine ⟨_, .here, not_exact_of_cancelled (h := h) (k := previous) ?_⟩
        simp [supervisors_abort, supervisor, parked]
      · refine cancel_leaks (h := h) (k := previous) ?_ ?_ ?_
        · exact object
        · simp [Accounts.State.abort]
        · have left : (returned.abort previous).supervisors previous = (s.accounts h).supervisors previous := by
            rw [supervisors_abort, supervisor, if_neg (by simp [parked])]
          dsimp only
          rw [Function.update_self, left]
          cases phase : (s.accounts h).supervisors previous <;> simp_all [pastAwaits]

/-- Where every `set_running` is alone the counter is exact; where one is not, a slot can leak. -/
theorem budget_exact (max : Nat) (stored : Table) :
    (∀ s, (machine max stored).Reaches Alone s → Exact max s) ∧
    ∀ s e s', (machine max stored).Reaches Free s → ¬Alone s e → (machine max stored).step s e = some s' →
      ∃ s'', (machine max stored).Leads Free s' s'' ∧ ¬Exact max s'' := by
  constructor
  · intro s reaches
    apply exact_of_counted (counted_of_reaches reaches) (lifecycle_of_reaches reaches)
    intro h k
    exact (releases_of_reaches reaches h).uncancelled (lifecycle_of_reaches reaches h) k
  · exact fun s e s' reaches shared moved => aborted_leaks reaches shared moved

/-! ## Two runs -/

def opens (k : Accounts.ConnId) : List Accounts.Event := .connect k :: List.replicate 2 (.advance k 0)

def connects (k : Accounts.ConnId) (total : Nat) : List Accounts.Event :=
  List.replicate 2 (.advance k total) ++ [.built k] ++ List.replicate 3 (.advance k total) ++
    [.advance k (total + 1), .setRunning k]

def account : List Event := .next 0 0 :: .create none :: List.replicate 4 (.next 1 0)

def alone (s : State) : Event → Bool
  | .handle h (.setRunning _) => match (s.accounts h).running with
      | none => true
      | some previous => pastAwaits ((s.accounts h).supervisors previous)
  | _ => true

theorem alone_sound (s : State) (e : Event) (passes : alone s e = true) : Alone s e := by
  unfold alone at passes
  unfold Alone
  split at passes
  · intro previous running
    rw [running] at passes
    exact passes
  · trivial

theorem budget_exact_reconnected : ∃ s, (machine 1 .empty).Reaches Alone s ∧ s.connected = 1 ∧ Exact 1 s := by
  obtain ⟨s, reaches, passes⟩ := reaches_of_replay (m := machine 1 .empty) alone_sound (fun s => s.connected = 1)
    (account ++ (opens 0 ++ connects 0 0 ++ goesDown 0 ++ opens 1 ++ connects 1 0).map (.handle 0)) (by decide +kernel)
  exact ⟨s, reaches, of_decide_eq_true passes, (budget_exact 1 .empty).1 s reaches⟩

/-- Two overlapping connects on one handle; both run loops exit, and the budget of one stays used up. -/
theorem budget_leaks : ∃ s, (machine 1 .empty).Reaches Free s ∧ (∀ h k, ¬Unfinished (s.accounts h) k) ∧
    Accounts.withinConnectionBudget s.connected 1 = false ∧ ¬Exact 1 s := by
  obtain ⟨s, reaches, passes⟩ := reaches_of_replay (m := machine 1 .empty) free_sound
    (fun s => s.connected = 1 && (s.accounts 0).supervisors 0 = .cancelled)
    (account ++ (opens 0 ++ opens 1 ++ connects 0 0 ++ connects 1 1 ++ .exit 0 :: goesDown 1).map (.handle 0))
    (by decide +kernel)
  simp only [Bool.and_eq_true, decide_eq_true_eq] at passes
  obtain ⟨held, members, count⟩ := counted_of_reaches reaches
  rw [passes.1, eq_comm, Finset.card_eq_one] at count
  obtain ⟨only, rfl⟩ := count
  have leaked : only = (0, 0) := by
    have member : (0, 0) ∈ ({only} : Finset _) := (members (0, 0)).2 (.inr (by simp [passes.2]))
    exact (Finset.mem_singleton.1 member).symm
  refine ⟨s, reaches, ?_, by rw [passes.1]; rfl, not_exact_of_cancelled passes.2⟩
  rintro h k ⟨holds, uncancelled⟩
  have member := (members (h, k)).2 holds
  rw [leaked, Finset.mem_singleton, Prod.mk.injEq] at member
  rw [member.1, member.2] at uncancelled
  exact uncancelled passes.2

end Wamux.Proof.Accounts
