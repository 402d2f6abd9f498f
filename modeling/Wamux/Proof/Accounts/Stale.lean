import Wamux.Proof.Accounts.Lifecycle

namespace Wamux.Proof.Accounts
open Wamux.Accounts Wamux.Runs
open Wamux.Runs.Machine (Free free_sound Reaches reaches_of_replay)

def Stop.took : Stop → Option ConnId
  | .shutdown _ took | .clearClient took | .isTerminal took | .send took => took
  | .timeout took => some took
  | .idle | .logoutClient | .logoutSocket _ | .logoutDeregister _ | .client | .take _ | .returned _ => none

def Supervisor.through : Supervisor → Bool
  | .absent | .fetchSub | .done | .cancelled => true
  | .parked | .polled | .take | .clearClient | .isTerminal | .send => false

def Connect.hasClient : Connect → Bool
  | .spawn | .fetchAdd | .supervise | .setRunning | .returned _ => true
  | .idle | .isRunning | .budget | .before | .announce _ | .build _ | .setClient => false

structure Live (s : State) (j : ConnId) : Prop where
  unexited : s.loops j ≠ .exited
  unstopped : s.stopped j = false

/-- The supervisor of the connection is in `on_bot_exited`, or a stop that took it is past its wait,
and this is its next step. -/
inductive Stale (s : State) (i : ConnId) : Event → Prop where
  | exited (exiting : s.supervisors i = .take ∨ s.supervisors i = .clearClient ∨
      s.supervisors i = .isTerminal ∨ s.supervisors i = .send) : Stale s i (.supervise i)
  | stopped {q connected} (ending : s.stops q = .clearClient (some i) ∨ s.stops q = .isTerminal (some i) ∨
      s.stops q = .send (some i)) : Stale s i (.stopNext q connected)

/-- No step of an older connection touches a live newer one, from when the newer one's client is set: its
slot, its client and the state its events recorded stay. -/
def KeepsNewer (max : Nat) (s : State) : Prop :=
  ∀ e s' i j, step max s e = some s' → Stale s i e → s.newer j i = true → Live s j →
    (s.running = some j → s'.running = some j) ∧ (s.client = some j → s'.client = some j) ∧
      (s.recordedBy = some j → s'.state = s.state)

structure Settled (s : State) (i : ConnId) : Prop where
  returned : Connect.hasReturned (s.connects i) = true
  through : Supervisor.through (s.supervisors i) = true
  vacant : s.running ≠ some i
  untaken : ∀ q, Stop.took (s.stops q) ≠ some i

def Supersedes (s : State) : Event → Prop
  | .advance j _ => s.connects j = .setClient → ∀ i, s.established i = true → Settled s i
  | _ => True

variable {max : Nat} {s s' : State} {e : Event} {i j : ConnId} {q : StopId}

attribute [local grind] Stop.took Supervisor.through Connect.hasReturned Connect.hasClient

/-! ## Settled connections -/

attribute [local grind cases] Settled in
theorem Settled.move (settled : Settled s i) (move : Move max s e s') : Settled s' i := by
  cases move with
  | connect how =>
      refine ⟨?_, settled.through, settled.vacant, settled.untaken⟩
      cases how <;> simp only [State.setConnect, Function.update_apply] <;> grind
  | supervisor how =>
      refine ⟨settled.returned, ?_, settled.vacant, settled.untaken⟩
      cases how <;> simp only [State.setSupervisor, Function.update_apply] <;> grind
  | stop how =>
      refine ⟨settled.returned, settled.through, settled.vacant, fun q => ?_⟩
      have untaken := settled.untaken q
      cases how <;> simp only [State.setStop, Function.update_apply] <;> grind
  | _ =>
      constructor <;> simp only [State.setConnect, State.setLoop, State.setSupervisor, State.setStop, State.establish,
        State.send, State.record, State.abort, Function.update_apply] <;> grind

theorem newer_move (move : Move max s e s') (newer : s'.newer j i = true) :
    s.newer j i = true ∨ (∃ total, e = .advance j total) ∧ s.connects j = .setClient ∧ s.established i = true := by
  cases move with
  | @clientSet k total phase =>
      simp only [State.setConnect, State.establish, Function.update_apply] at newer
      split at newer
      · rename_i same
        subst same
        exact .inr ⟨⟨total, rfl⟩, phase, newer⟩
      · exact .inl newer
  | _ => exact .inl newer

def Gone (s : State) : Prop := ∀ j i, s.newer j i = true → Settled s i

theorem Gone.move (gone : Gone s) (supersedes : Supersedes s e) (move : Move max s e s') : Gone s' := by
  intro j i newer
  have settled : Settled s i := by
    rcases newer_move move newer with before | ⟨⟨total, rfl⟩, phase, established⟩
    · exact gone j i before
    · exact supersedes phase i established
  exact settled.move move

theorem Gone.keepsNewer (gone : Gone s) : KeepsNewer max s := by
  intro e s' i j moved stale newer live
  have settled := gone j i newer
  cases stale with
  | exited exiting =>
      have through := settled.through
      rcases exiting with phase | phase | phase | phase <;> simp [phase, Supervisor.through] at through
  | @stopped q _ ending =>
      have untaken := settled.untaken q
      rcases ending with phase | phase | phase <;> simp [phase, Stop.took] at untaken

/-! ## From an older connection that is left to a newer one that is touched -/

structure Order (s : State) : Prop where
  life : ∀ k, Lifecycle s k
  established : ∀ k, s.established k = true → Connect.hasClient (s.connects k) = true
  stopped : ∀ k, s.stopped k = true → Connect.hasReturned (s.connects k) = true
  idle : ∃ first, ∀ q, first ≤ q → s.stops q = .idle

theorem established_move (established : s.established i = true → Connect.hasClient (s.connects i) = true)
    (move : Move max s e s') (now : s'.established i = true) : Connect.hasClient (s'.connects i) = true := by
  cases move with
  | connect how => cases how <;> simp only [State.setConnect, Function.update_apply] at now ⊢ <;> grind
  | supervisor how => exact established now
  | stop how => exact established now
  | _ =>
      simp only [State.setConnect, State.setLoop, State.setSupervisor, State.setStop, State.establish, State.send,
        State.record, State.abort, Function.update_apply] at now ⊢
      grind

theorem stopped_move (life : Lifecycle s i) (stopped : s.stopped i = true → Connect.hasReturned (s.connects i) = true)
    (move : Move max s e s') (now : s'.stopped i = true) : Connect.hasReturned (s'.connects i) = true := by
  have slot := life.slot
  cases move with
  | connect how => cases how <;> simp only [State.setConnect, Function.update_apply] at now ⊢ <;> grind
  | supervisor how => exact stopped now
  | stop how => exact stopped now
  | _ =>
      simp only [State.setConnect, State.setLoop, State.setSupervisor, State.setStop, State.establish, State.send,
        State.record, State.abort, Function.update_apply] at now ⊢
      grind

theorem idle_step (idle : s.stops q = .idle) (other : about e ≠ q) (moved : step max s e = some s') : s'.stops q = .idle := by
  cases step_move moved with
  | connect how => exact idle
  | supervisor how => exact idle
  | stop how => cases how <;> simp only [about] at other <;> simp only [State.setStop, Function.update_apply] <;> grind
  | stopTook | stopCleared | stopSent =>
      simp only [about] at other
      exact (Function.update_of_ne (Ne.symm other) ..).trans idle
  | _ => exact idle

theorem Order.step (order : Order s) (moved : step max s e = some s') : Order s' where
  life := Lifecycle.move order.life (step_move moved)
  established k := established_move (order.established k) (step_move moved)
  stopped k := stopped_move (order.life k) (order.stopped k) (step_move moved)
  idle := by
    obtain ⟨first, idle⟩ := order.idle
    refine ⟨Nat.max first (about e + 1), fun q above => ?_⟩
    have past : first ≤ q ∧ about e + 1 ≤ q := Nat.max_le.1 above
    exact idle_step (idle q past.1) (Nat.ne_of_lt past.2) moved

theorem Order.reaches {allowed : State → Event → Prop} (reaches : (machine max).Reaches allowed s) : Order s := by
  apply reaches.invariant Order
  · have start : (machine max).Reaches Free (machine max).initial := .initial
    exact ⟨Lifecycle.reaches start, nofun, nofun, 0, fun _ _ => rfl⟩
  · intro s e s' order _ moved
    exact order.step moved

def Breaks (max : Nat) (s : State) : Prop := ∃ later, (machine max).Leads Free s later ∧ ¬KeepsNewer max later

theorem Breaks.next (moved : step max s e = some s') (breaks : Breaks max s') : Breaks max s := by
  obtain ⟨later, leads, broken⟩ := breaks
  exact ⟨later, leads.after trivial moved, broken⟩

structure Facing (s : State) (i j : ConnId) : Prop where
  newer : s.newer j i = true
  other : i ≠ j
  alive : s.loops j = .alive
  unstopped : s.stopped j = false

theorem Facing.live (facing : Facing s i j) : Live s j :=
  ⟨by rw [facing.alive]; nofun, facing.unstopped⟩

theorem Facing.record (facing : Facing s i j) : step max s (.record j .connected) = some (s.record j .connected) := by
  simp only [step, mayRecord, facing.alive, decide_true, if_true]

section Older
variable (facing : Facing s i j)
include facing

theorem breaks_at_send (phase : s.supervisors i = .send) : Breaks max s := by
  apply Breaks.next facing.record
  refine ⟨_, .here, ?_⟩
  intro keeps
  have moved : step max (s.record j .connected) (.supervise i) =
      some (((s.record j .connected).send .disconnected).setSupervisor i .fetchSub) := by
    simp only [step, supervise, State.record, phase]
  have kept := keeps _ _ i j moved (.exited (.inr (.inr (.inr phase)))) facing.newer ⟨facing.live.1, facing.live.2⟩
  cases kept.2.2 rfl

theorem breaks_at_isTerminal (phase : s.supervisors i = .isTerminal) : Breaks max s := by
  apply Breaks.next facing.record
  have moved : step max (s.record j .connected) (.supervise i) = some ((s.record j .connected).setSupervisor i .send) := by
    simp only [step, supervise, State.record, phase]
    rfl
  apply Breaks.next moved
  exact breaks_at_send ⟨facing.1, facing.2, facing.3, facing.4⟩ (Function.update_self ..)

theorem breaks_at_clearClient (phase : s.supervisors i = .clearClient) : Breaks max s := by
  have moved : step max s (.supervise i) = some ({ s with client := none }.setSupervisor i .isTerminal) := by
    simp only [step, supervise, phase]
  apply Breaks.next moved
  exact breaks_at_isTerminal ⟨facing.1, facing.2, facing.3, facing.4⟩ (Function.update_self ..)

theorem breaks_at_take (phase : s.supervisors i = .take) : Breaks max s := by
  have moved : step max s (.supervise i) = some ({ s with running := none }.setSupervisor i .clearClient) := by
    simp only [step, supervise, phase]
  apply Breaks.next moved
  exact breaks_at_clearClient ⟨facing.1, facing.2, facing.3, facing.4⟩ (Function.update_self ..)

theorem breaks_at_polled (exited : s.loops i = .exited) (phase : s.supervisors i = .polled) : Breaks max s := by
  have moved : step max s (.supervise i) = some (s.setSupervisor i .take) := by
    simp only [step, supervise, phase, exited, if_true]
  apply Breaks.next moved
  exact breaks_at_take ⟨facing.1, facing.2, facing.3, facing.4⟩ (Function.update_self ..)

theorem breaks_at_parked (exited : s.loops i = .exited) (phase : s.supervisors i = .parked) : Breaks max s := by
  have moved : step max s (.poll i) = some (s.setSupervisor i .polled) := by simp only [step, phase, if_true]
  apply Breaks.next moved
  exact breaks_at_polled ⟨facing.1, facing.2, facing.3, facing.4⟩ exited (Function.update_self ..)

theorem breaks_of_exited (exited : s.loops i = .exited) (left : Supervisor.through (s.supervisors i) = false) :
    Breaks max s := by
  cases phase : s.supervisors i with
  | parked => exact breaks_at_parked facing exited phase
  | polled => exact breaks_at_polled facing exited phase
  | take => exact breaks_at_take facing phase
  | clearClient => exact breaks_at_clearClient facing phase
  | isTerminal => exact breaks_at_isTerminal facing phase
  | send => exact breaks_at_send facing phase
  | absent | fetchSub | done | cancelled => simp [phase, Supervisor.through] at left

theorem breaks_of_supervisor (life : Lifecycle s i) (left : Supervisor.through (s.supervisors i) = false) :
    Breaks max s := by
  cases runLoop : s.loops i with
  | unspawned =>
      have present : s.supervisors i ≠ .absent := by
        intro absent
        simp [absent, Supervisor.through] at left
      exact absurd runLoop (life.watched present)
  | alive =>
      have moved : step max s (.exit i) = some (s.setLoop i .exited) := by simp only [step, exit, runLoop, if_true]
      have alive : (s.setLoop i .exited).loops j = .alive := by
        simpa only [State.setLoop, Function.update_of_ne facing.other.symm] using facing.alive
      apply Breaks.next moved
      exact breaks_of_exited ⟨facing.1, facing.2, alive, facing.4⟩ (Function.update_self ..) left
  | exited => exact breaks_of_exited facing runLoop left

theorem breaks_at_stop_send (phase : s.stops q = .send (some i)) : Breaks max s := by
  apply Breaks.next facing.record
  refine ⟨_, .here, ?_⟩
  intro keeps
  have moved : step max (s.record j .connected) (.stopNext q true) =
      some (((s.record j .connected).send .disconnected).setStop q (.returned (.ok ()))) := by
    simp only [step, stopNext, State.record, phase]
  have kept := keeps _ _ i j moved (.stopped (.inr (.inr phase))) facing.newer ⟨facing.live.1, facing.live.2⟩
  cases kept.2.2 rfl

theorem breaks_at_stop_isTerminal (phase : s.stops q = .isTerminal (some i)) : Breaks max s := by
  apply Breaks.next facing.record
  have moved : step max (s.record j .connected) (.stopNext q true) =
      some ((s.record j .connected).setStop q (.send (some i))) := by
    simp only [step, stopNext, State.record, phase]
    rfl
  apply Breaks.next moved
  exact breaks_at_stop_send (q := q) ⟨facing.1, facing.2, facing.3, facing.4⟩ (Function.update_self ..)

theorem breaks_at_stop_clearClient (phase : s.stops q = .clearClient (some i)) : Breaks max s := by
  have moved : step max s (.stopNext q true) = some ({ s with client := none }.setStop q (.isTerminal (some i))) := by
    simp only [step, stopNext, phase]
  apply Breaks.next moved
  exact breaks_at_stop_isTerminal (q := q) ⟨facing.1, facing.2, facing.3, facing.4⟩ (Function.update_self ..)

theorem breaks_at_stop_timeout (phase : s.stops q = .timeout i) : Breaks max s := by
  have moved : step max s (.timeout q) = some (s.setStop q (.clearClient (some i))) := by
    simp only [step, phase]
  apply Breaks.next moved
  exact breaks_at_stop_clearClient (q := q) ⟨facing.1, facing.2, facing.3, facing.4⟩ (Function.update_self ..)

theorem breaks_at_stop_shutdown {client : Option ConnId} (phase : s.stops q = .shutdown client (some i)) : Breaks max s := by
  have moved : step max s (.stopNext q true) = some (s.setStop q (.timeout i)) := by
    simp only [step, stopNext, phase]
  apply Breaks.next moved
  exact breaks_at_stop_timeout (q := q) ⟨facing.1, facing.2, facing.3, facing.4⟩ (Function.update_self ..)

theorem breaks_of_stop (took : Stop.took (s.stops q) = some i) : Breaks max s := by
  cases phase : s.stops q <;> simp only [phase, Stop.took, Option.some.injEq, reduceCtorEq] at took
  case shutdown client _ => exact breaks_at_stop_shutdown facing (took ▸ phase)
  case timeout => exact breaks_at_stop_timeout facing (took ▸ phase)
  case clearClient => exact breaks_at_stop_clearClient facing (took ▸ phase)
  case isTerminal => exact breaks_at_stop_isTerminal facing (took ▸ phase)
  case send => exact breaks_at_stop_send facing (took ▸ phase)

theorem breaks_at_stop_take {client : Option ConnId} (running : s.running = some i) (phase : s.stops q = .take client) :
    Breaks max s := by
  have moved : step max s (.stopNext q true) = some ({ s with
      running := none, stopped := fun k => s.stopped k || s.running == some k }.setStop q (.shutdown client s.running)) := by
    simp only [step, stopNext, phase]
  have unstopped : (s.stopped j || s.running == some j) = false := by
    rw [facing.unstopped, Bool.false_or, running]
    exact beq_false_of_ne fun same => facing.other (Option.some.inj same)
  apply Breaks.next moved
  exact breaks_at_stop_shutdown (q := q) ⟨facing.1, facing.2, facing.3, unstopped⟩
    ((Function.update_self ..).trans (by rw [running]))

theorem breaks_at_stop_client (running : s.running = some i) (phase : s.stops q = .client) : Breaks max s := by
  have moved : step max s (.stopNext q true) = some (s.setStop q (.take s.client)) := by
    simp only [step, stopNext, phase]
  apply Breaks.next moved
  exact breaks_at_stop_take (q := q) ⟨facing.1, facing.2, facing.3, facing.4⟩ running
    (Function.update_self ..)

theorem breaks_of_slot (running : s.running = some i) (idle : s.stops q = .idle) : Breaks max s := by
  have moved : step max s (.stop q) = some (s.setStop q .client) := by simp only [step, idle]
  apply Breaks.next moved
  exact breaks_at_stop_client (q := q) ⟨facing.1, facing.2, facing.3, facing.4⟩ running (Function.update_self ..)

theorem breaks_at_setRunning (phase : s.connects i = .setRunning) (idle : s.stops q = .idle) : Breaks max s := by
  cases running : s.running with
  | none =>
      have moved : step max s (.setRunning i) = some ({ s with running := some i }.setConnect i (.returned (.ok ()))) := by
        simp only [step, setRunning, phase, running]
      apply Breaks.next moved
      exact breaks_of_slot (q := q) ⟨facing.1, facing.2, facing.3, facing.4⟩ rfl idle
  | some previous =>
      have moved : step max s (.setRunning i) =
          some (({ s with running := some i }.setConnect i (.returned (.ok ()))).abort previous) := by
        simp only [step, setRunning, phase, running]
      apply Breaks.next moved
      exact breaks_of_slot (q := q) ⟨facing.1, facing.2, facing.3, facing.4⟩ rfl idle

theorem breaks_at_supervise (phase : s.connects i = .supervise) (idle : s.stops q = .idle) : Breaks max s := by
  have moved : step max s (.advance i 0) = some ((s.setSupervisor i .parked).setConnect i .setRunning) := by
    simp only [step, advance, phase]
  apply Breaks.next moved
  exact breaks_at_setRunning ⟨facing.1, facing.2, facing.3, facing.4⟩ (Function.update_self ..) idle

theorem breaks_at_fetchAdd (phase : s.connects i = .fetchAdd) (idle : s.stops q = .idle) : Breaks max s := by
  have moved : step max s (.advance i 0) = some ({ s with connected := s.connected + 1 }.setConnect i .supervise) := by
    simp only [step, advance, phase]
  apply Breaks.next moved
  exact breaks_at_supervise ⟨facing.1, facing.2, facing.3, facing.4⟩ (Function.update_self ..) idle

theorem breaks_at_spawn (phase : s.connects i = .spawn) (idle : s.stops q = .idle) : Breaks max s := by
  have moved : step max s (.advance i 0) = some ((s.setLoop i .alive).setConnect i .fetchAdd) := by
    simp only [step, advance, phase]
  have alive : (s.setLoop i .alive).loops j = .alive := by
    simpa only [State.setLoop, Function.update_of_ne facing.other.symm] using facing.alive
  apply Breaks.next moved
  exact breaks_at_fetchAdd ⟨facing.1, facing.2, alive, facing.4⟩ (Function.update_self ..) idle

theorem breaks_of_connect (client : Connect.hasClient (s.connects i) = true)
    (left : Connect.hasReturned (s.connects i) = false) (idle : s.stops q = .idle) : Breaks max s := by
  cases phase : s.connects i with
  | spawn => exact breaks_at_spawn facing phase idle
  | fetchAdd => exact breaks_at_fetchAdd facing phase idle
  | supervise => exact breaks_at_supervise facing phase idle
  | setRunning => exact breaks_at_setRunning facing phase idle
  | returned result => simp [phase, Connect.hasReturned] at left
  | idle | isRunning | budget | before | announce | build | setClient => simp [phase, Connect.hasClient] at client

theorem breaks_of_unsettled (order : Order s) (established : s.established i = true) (left : ¬Settled s i) :
    Breaks max s := by
  obtain ⟨first, idle⟩ := order.idle
  have idle : s.stops first = .idle := idle first (Nat.le_refl _)
  cases returned : Connect.hasReturned (s.connects i) with
  | false => exact breaks_of_connect facing (order.established i established) returned idle
  | true =>
      cases through : Supervisor.through (s.supervisors i) with
      | false => exact breaks_of_supervisor facing (order.life i) through
      | true =>
          by_cases running : s.running = some i
          · exact breaks_of_slot facing running idle
          · by_cases taken : ∃ q, Stop.took (s.stops q) = some i
            · obtain ⟨q, took⟩ := taken
              exact breaks_of_stop facing took
            · exact absurd ⟨returned, through, running, not_exists.1 taken⟩ left

end Older

theorem breaks_of_left {total : Nat} (reaches : (machine max).Reaches Free s)
    (moved : step max s (.advance j total) = some s') (left : ¬Supersedes s (.advance j total)) : Breaks max s' := by
  have order := Order.reaches reaches
  simp only [Supersedes, Classical.not_imp, not_forall] at left
  obtain ⟨phase, i, established, left⟩ := left
  have other : i ≠ j := by
    rintro rfl
    have client := order.established i established
    rw [phase] at client
    cases client
  have set : s' = (s.establish j).setConnect j .spawn := by
    simpa only [step, advance, phase, Option.some.injEq, eq_comm] using moved
  -- the newer run loop is spawned next
  have spawned : step max s' (.advance j total) = some ((s'.setLoop j .alive).setConnect j .fetchAdd) := by
    simp only [set, step, advance, State.setConnect, Function.update_self]
  have later := (order.step moved).step spawned
  have unstopped : s.stopped j = false := by
    cases stopped : s.stopped j with
    | false => rfl
    | true =>
        have returned := order.stopped j stopped
        rw [phase] at returned
        cases returned
  subst set
  refine Breaks.next spawned (breaks_of_unsettled (i := i) ⟨?_, other, Function.update_self .., unstopped⟩ later ?_ ?_)
  · exact (congrFun (Function.update_self ..) i).trans established
  · exact (Function.update_of_ne other ..).trans established
  · rintro ⟨returned, through, vacant, untaken⟩
    refine left ⟨?_, through, vacant, untaken⟩
    simpa only [State.setConnect, State.setLoop, State.establish, Function.update_of_ne other] using returned

/-- Where nothing is left to do for the older connections whenever a client is set, a newer connection is
never touched for an older one; wherever something is left, there is a run that touches it. -/
theorem newer_untouched (max : Nat) :
    (∀ s, (machine max).Reaches Supersedes s → KeepsNewer max s) ∧
    ∀ s s' j total, (machine max).Reaches Free s → step max s (.advance j total) = some s' →
      ¬Supersedes s (.advance j total) → Breaks max s' := by
  constructor
  · intro s reaches
    have gone : Gone s := by
      apply reaches.invariant Gone
      · exact fun _ _ newer => nomatch newer
      · intro s e s' gone supersedes moved
        exact gone.move supersedes (step_move moved)
    exact gone.keepsNewer
  · intro s s' j total reaches moved left
    exact breaks_of_left reaches moved left

/-! ## Two runs -/

def settled? (s : State) (i : ConnId) : Bool :=
  Connect.hasReturned (s.connects i) && Supervisor.through (s.supervisors i) && s.running != some i &&
    [0, 1].all fun q => Stop.took (s.stops q) != some i

def takesTurns (s : State) (e : Event) : Bool :=
  about e < 2 && match e with
    | .advance j _ => match s.connects j with
        | .setClient => [0, 1].all fun i => !s.established i || settled? s i
        | _ => true
    | _ => true

def TakesTurns (s : State) (e : Event) : Prop := takesTurns s e = true

theorem TakesTurns.untouched (reaches : (machine max).Reaches TakesTurns s) {n : Nat} (above : ¬n < 2) : Untouched s n := by
  refine untouched_of_reaches (fun s e turns => ?_) reaches
  have below : about e < 2 := of_decide_eq_true (Bool.and_eq_true_iff.1 turns).1
  omega

theorem TakesTurns.settled (reaches : (machine max).Reaches TakesTurns s) (checked : settled? s i = true) : Settled s i := by
  simp only [settled?, Bool.and_eq_true, bne_iff_ne, List.all_cons, List.all_nil, and_true] at checked
  obtain ⟨⟨⟨returned, through⟩, vacant⟩, first, second⟩ := checked
  refine ⟨returned, through, vacant, fun q => ?_⟩
  by_cases below : q < 2
  · match q, below with
    | 0, _ => exact first
    | 1, _ => exact second
  · rw [(TakesTurns.untouched reaches below).stop]
    nofun

theorem TakesTurns.supersedes (s : State) (e : Event) (reaches : (machine max).Reaches TakesTurns s)
    (turns : TakesTurns s e) : Supersedes s e := by
  cases e with
  | advance j total =>
      intro phase i established
      have below : i < 2 := by
        by_contra above
        have client := (Order.reaches reaches).established i established
        rw [(TakesTurns.untouched reaches above).connect] at client
        cases client
      have both := (Bool.and_eq_true_iff.1 turns).2
      simp only [phase, List.all_cons, List.all_nil, Bool.and_true, Bool.and_eq_true, Bool.or_eq_true, Bool.not_eq_true'] at both
      match i, below with
      | 0, _ => exact TakesTurns.settled reaches (both.1.resolve_left (by rw [established]; nofun))
      | 1, _ => exact TakesTurns.settled reaches (both.2.resolve_left (by rw [established]; nofun))
  | _ => trivial

theorem newer_untouched_in_turn : ∃ s, (machine 0).Reaches Supersedes s ∧ s.newer 1 0 = true ∧ s.running = some 1 ∧
    Live s 1 ∧ KeepsNewer 0 s := by
  have sound (s : State) (e : Event) (checked : takesTurns s e = true) : TakesTurns s e := checked
  obtain ⟨s, reaches, passes⟩ := reaches_of_replay (m := machine 0) sound
    (fun s => s.newer 1 0 && s.running == some 1 && (s.loops 1 == .alive && !s.stopped 1))
    (comesUp 0 ++ [.setRunning 0] ++ goesDown 0 ++ comesUp 1 ++ [.setRunning 1]) rfl
  simp only [Bool.and_eq_true, beq_iff_eq, Bool.not_eq_true'] at passes
  obtain ⟨⟨newer, running⟩, alive, unstopped⟩ := passes
  have supersedes := reaches.weaken TakesTurns.supersedes
  exact ⟨s, supersedes, newer, running, ⟨by simp [alive], unstopped⟩, (newer_untouched 0).1 s supersedes⟩

def stops (q : StopId) : List Event := [.stop q] ++ List.replicate 3 (.stopNext q true)

def stopEnds (q : StopId) : List Event := List.replicate 3 (.stopNext q true)

/-- The first connection is stopped, its run loop outlives the graceful timeout, and the account is
connected again before it exits. -/
def reconnected : List Event :=
  comesUp 0 ++ [.setRunning 0] ++ stops 0 ++ [.timeout 0] ++ stopEnds 0 ++ comesUp 1 ++
    [.setRunning 1, .record 1 .connected, .exit 0, .poll 0, .supervise 0]

theorem newer_touched : ¬∀ s, (machine 0).Reaches Free s → KeepsNewer 0 s := by
  intro claim
  obtain ⟨s, reaches, passes⟩ := reaches_of_replay (m := machine 0) free_sound
    (fun s => s.supervisors 0 == .take && s.running == some 1 && s.newer 1 0 && (s.loops 1 == .alive && !s.stopped 1))
    reconnected rfl
  simp only [Bool.and_eq_true, beq_iff_eq, Bool.not_eq_true'] at passes
  obtain ⟨⟨⟨phase, running⟩, newer⟩, alive, unstopped⟩ := passes
  have moved : step 0 s (.supervise 0) = some ({ s with running := none }.setSupervisor 0 .clearClient) := by
    simp only [step, supervise, phase]
  have kept := claim s reaches _ _ 0 1 moved (.exited (.inl phase)) newer ⟨by simp [alive], unstopped⟩
  cases kept.1 running

end Wamux.Proof.Accounts
