import Wamux.Proof.Accounts.Lifecycle

/-!
# The slot and the state at rest

Whoever brings the state up answers for it: a `connect` until its supervisor runs, a supervisor
until it has marked the account down, a stop until its last write. The state is settled, or
somebody answers for it.
-/

namespace Wamux.Proof.Accounts
open Wamux.Accounts Wamux.Runs Wamux.Runs.Machine

def settled : ConnectionState → Bool
  | .disconnected | .loggedOut | .banned => true
  | .unspecified | .connecting | .connected => false

def Connect.answers : Connect → Bool
  | .build _ | .setClient | .spawn | .fetchAdd | .supervise => true
  | .idle | .isRunning | .budget | .before | .announce _ | .setRunning | .returned _ => false

def Supervisor.answers : Supervisor → Bool
  | .parked | .polled | .take | .clearClient | .isTerminal | .send => true
  | .absent | .fetchSub | .done | .cancelled => false

def Stop.inProgress : Stop → Bool
  | .client | .take _ | .shutdown _ _ | .timeout _ | .clearClient _ | .isTerminal _ | .send _ => true
  | .idle | .logoutClient | .logoutSocket _ | .logoutDeregister _ | .returned _ => false

def Supervisor.beforeTake : Supervisor → Bool
  | .parked | .polled | .take => true
  | .absent | .clearClient | .isTerminal | .send | .fetchSub | .done | .cancelled => false

inductive Answerable (s : State) : Prop where
  | connect {k : ConnId} (answers : Connect.answers (s.connects k) = true)
  | supervisor {k : ConnId} (answers : Supervisor.answers (s.supervisors k) = true)
      (unaborted : s.aborted k = false)
  | stop {q : StopId} (inProgress : Stop.inProgress (s.stops q) = true)

/-- A supervisor is put in the slot before it has emptied the slot; a failed build writes back a
settled state, or somebody else still answers; and an aborted bot no longer comes up. -/
def Orderly (s : State) : Event → Prop
  | .setRunning k => Supervisor.beforeTake (s.supervisors k) = true
  | .buildFailed k => ∀ before, s.connects k = .build before →
      settled before = true ∨ Answerable (s.setConnect k (.returned (.error .client)))
  | .record k .connected | .record k .pairSuccess => s.aborted k = false
  | _ => True

variable {max : Nat} {s s' : State} {e : Event}

theorem Answerable.keep (answerable : Answerable s)
    (connects : ∀ k, Connect.answers (s.connects k) = true → Connect.answers (s'.connects k) = true)
    (supervisors : ∀ k, Supervisor.answers (s.supervisors k) = true → s.aborted k = false →
      Supervisor.answers (s'.supervisors k) = true)
    (stops : ∀ q, Stop.inProgress (s.stops q) = true → Stop.inProgress (s'.stops q) = true)
    (aborted : s'.aborted = s.aborted) : Answerable s' := by
  cases answerable with
  | connect answers => exact .connect (connects _ answers)
  | supervisor answers unaborted =>
      exact .supervisor (supervisors _ answers unaborted) (aborted ▸ unaborted)
  | stop inProgress => exact .stop (stops _ inProgress)

theorem Answerable.connect_moved {k : ConnId} {phase : Connect} (answerable : Answerable s)
    (still : Connect.answers (s.connects k) = true → Connect.answers phase = true)
    (connects : s'.connects = Function.update s.connects k phase)
    (supervisors : s'.supervisors = s.supervisors) (stops : s'.stops = s.stops)
    (aborted : s'.aborted = s.aborted) : Answerable s' := by
  apply answerable.keep _ _ _ aborted
  · intro j answers
    rw [connects, Function.update_apply]
    split
    · rename_i same
      exact still (same ▸ answers)
    · exact answers
  · intro j answers _
    rw [supervisors]
    exact answers
  · intro q inProgress
    rw [stops]
    exact inProgress

theorem Answerable.supervisor_moved {k : ConnId} {phase : Supervisor} (answerable : Answerable s)
    (still : Supervisor.answers (s.supervisors k) = true → s.aborted k = false →
      Supervisor.answers phase = true)
    (supervisors : s'.supervisors = Function.update s.supervisors k phase)
    (connects : s'.connects = s.connects) (stops : s'.stops = s.stops) (aborted : s'.aborted = s.aborted) :
    Answerable s' := by
  apply answerable.keep _ _ _ aborted
  · intro j answers
    rw [connects]
    exact answers
  · intro j answers unaborted
    rw [supervisors, Function.update_apply]
    split
    · rename_i same
      exact still (same ▸ answers) (same ▸ unaborted)
    · exact answers
  · intro q inProgress
    rw [stops]
    exact inProgress

theorem Answerable.stop_moved {q : StopId} {phase : Stop} (answerable : Answerable s)
    (still : Stop.inProgress (s.stops q) = true → Stop.inProgress phase = true)
    (stops : s'.stops = Function.update s.stops q phase)
    (connects : s'.connects = s.connects) (supervisors : s'.supervisors = s.supervisors)
    (aborted : s'.aborted = s.aborted) : Answerable s' := by
  apply answerable.keep _ _ _ aborted
  · intro j answers
    rw [connects]
    exact answers
  · intro j answers _
    rw [supervisors]
    exact answers
  · intro r inProgress
    rw [stops, Function.update_apply]
    split
    · rename_i same
      exact still (same ▸ inProgress)
    · exact inProgress

theorem Lifecycle.answerable {k : ConnId} (life : Lifecycle s k) (alive : s.loops k = .alive)
    (unaborted : s.aborted k = false) : Answerable s := by
  by_cases unwatched : s.supervisors k = .absent
  · have unsupervised := life.unwatched unwatched (by simp [alive])
    apply Answerable.connect (k := k)
    cases phase : s.connects k <;> simp_all [Connect.unsupervised, Connect.answers]
  · apply Answerable.supervisor (k := k) _ unaborted
    have sawExit := life.sawExit
    have cancelled := life.cancelled
    cases phase : s.supervisors k <;> simp_all [Supervisor.sawExit, Supervisor.answers]

structure Inv (s : State) : Prop where
  life : ∀ k, Lifecycle s k
  slot : ∀ k, s.running = some k → Supervisor.beforeTake (s.supervisors k) = true
  state : settled s.state = true ∨ Answerable s
  found : ∀ k before, s.connects k = .announce before ∨ s.connects k = .build before → before = s.found k

section Step

attribute [local grind] Connect.answers Supervisor.answers Stop.inProgress Supervisor.beforeTake

theorem Inv.slot_move (inv : Inv s) (orderly : Orderly s e) (move : Move max s e s') (k : ConnId)
    (running : s'.running = some k) : Supervisor.beforeTake (s'.supervisors k) = true := by
  have before := inv.slot k
  have life := inv.life k
  cases move with
  | connect how => exact before running
  | supervisor how =>
      cases how <;> simp only [State.setSupervisor, Function.update_apply] at running ⊢ <;> grind
  | stop how => exact before running
  | established phase empty =>
      simp only [State.setConnect, Option.some.injEq] at running
      subst running
      exact orderly
  | replaced phase occupied =>
      simp only [State.setConnect, State.abort, Option.some.injEq] at running
      subst running
      have previous := ((inv.life _).slot occupied).1
      simp only [State.setConnect, State.abort, Function.update_apply]
      split
      · rename_i same
        subst same
        simp [phase, Connect.hasReturned] at previous
      · exact orderly
  | cancelled aborted phase =>
      have evicted := life.evicted
      simp only [State.setSupervisor, Function.update_apply] at running ⊢
      grind
  | _ =>
      simp only [State.setConnect, State.setLoop, State.setSupervisor, State.setStop, State.establish, State.send,
        State.record, Function.update_apply] at running ⊢
      grind

theorem Inv.found_move (inv : Inv s) (move : Move max s e s') (k : ConnId) (before : ConnectionState)
    (pending : s'.connects k = .announce before ∨ s'.connects k = .build before) :
    before = s'.found k := by
  have found := inv.found k before
  cases move with
  | connect how =>
      cases how <;> simp only [State.setConnect, Function.update_apply] at pending ⊢ <;> grind
  | supervisor how => exact found pending
  | stop how => exact found pending
  | _ =>
      simp only [State.setConnect, State.setLoop, State.setSupervisor, State.setStop, State.establish,
        State.send, State.record, State.abort, Function.update_apply] at pending ⊢
      grind

theorem Supervisor.answers_of_beforeTake {phase : Supervisor} (before : Supervisor.beforeTake phase = true) :
    Supervisor.answers phase = true := by
  cases phase <;> simp_all [Supervisor.beforeTake, Supervisor.answers]

theorem isTerminal_settled {state : ConnectionState} (terminal : isTerminal state = true) :
    settled state = true := by
  cases state <;> simp_all [isTerminal, settled]

theorem updateState_settled {current : ConnectionState} {event : LibraryEvent}
    (down : event = .disconnected ∨ event = .loggedOut ∨ event = .temporaryBan) :
    settled (updateState current event) = true := by
  rcases down with rfl | rfl | rfl <;> cases current <;> rfl

theorem Inv.recorded {k : ConnId} {event : LibraryEvent} (inv : Inv s) (orderly : Orderly s (.record k event))
    (may : mayRecord s k event = true) :
    settled (updateState s.state event) = true ∨ Answerable (s.record k event) := by
  have answers (answerable : Answerable s) : Answerable (s.record k event) :=
    answerable.keep (fun _ => id) (fun _ answers _ => answers) (fun _ => id) rfl
  cases event with
  | connected | pairSuccess =>
      have alive : s.loops k = .alive := by simpa [mayRecord] using may
      exact .inr (answers ((inv.life k).answerable alive orderly))
  | disconnected | loggedOut | temporaryBan => exact .inl (updateState_settled (by decide))
  | other => exact inv.state.imp_right answers

theorem Inv.state_move (inv : Inv s) (orderly : Orderly s e) (move : Move max s e s') :
    settled s'.state = true ∨ Answerable s' := by
  have state := inv.state
  cases move with
  | connect how =>
      apply state.imp_right
      intro answerable
      refine answerable.connect_moved ?_ rfl rfl rfl rfl
      cases how <;> simp_all [Connect.answers]
  | announced phase =>
      right
      rename_i k _ _
      apply Answerable.connect (k := k)
      simp [State.setConnect, Connect.answers]
  | buildFailed phase =>
      apply (orderly _ phase).imp_right
      intro other
      exact other.keep (fun _ => id) (fun _ answers _ => answers) (fun _ => id) rfl
  | found phase | clientSet phase | spawned phase | counted phase =>
      apply state.imp_right
      intro answerable
      refine answerable.connect_moved ?_ rfl rfl rfl rfl
      simp [phase, Connect.answers]
  | supervised phase =>
      right
      rename_i k _
      have unaborted := (inv.life k).unaborted (by rw [phase]; rfl)
      apply Answerable.supervisor (k := k)
      · simp [State.setConnect, State.setSupervisor, Supervisor.answers]
      · exact unaborted
  | established phase empty =>
      right
      rename_i k
      have unaborted := (inv.life k).unaborted (by rw [phase]; rfl)
      apply Answerable.supervisor (k := k)
      · exact Supervisor.answers_of_beforeTake orderly
      · exact unaborted
  | replaced phase occupied =>
      right
      rename_i k i
      have unaborted := (inv.life k).unaborted (by rw [phase]; rfl)
      have previous := ((inv.life i).slot occupied).1
      have other : k ≠ i := by
        rintro rfl
        simp [phase, Connect.hasReturned] at previous
      apply Answerable.supervisor (k := k)
      · simp only [State.setConnect, State.abort, Function.update_of_ne other]
        exact Supervisor.answers_of_beforeTake orderly
      · simpa only [State.setConnect, State.abort, Function.update_of_ne other] using unaborted
  | recorded may => exact inv.recorded orderly may
  | exited alive =>
      apply state.imp_right
      intro answerable
      exact answerable.keep (fun _ => id) (fun _ answers _ => answers) (fun _ => id) rfl
  | supervisor how =>
      cases how with
      | terminal phase terminal => exact .inl (isTerminal_settled terminal)
      | _ =>
          apply state.imp_right
          intro answerable
          exact answerable.supervisor_moved (fun _ _ => rfl) rfl rfl rfl rfl
  | took phase | cleared phase =>
      apply state.imp_right
      intro answerable
      exact answerable.supervisor_moved (fun _ _ => rfl) rfl rfl rfl rfl
  | sent phase => exact .inl rfl
  | released phase =>
      apply state.imp_right
      intro answerable
      refine answerable.supervisor_moved ?_ rfl rfl rfl rfl
      simp [phase, Supervisor.answers]
  | cancelled aborted phase =>
      apply state.imp_right
      intro answerable
      refine answerable.supervisor_moved ?_ rfl rfl rfl rfl
      simp [aborted]
  | stop how =>
      cases how with
      | terminal phase terminal => exact .inl (isTerminal_settled terminal)
      | _ phase =>
          apply state.imp_right
          intro answerable
          refine answerable.stop_moved ?_ rfl rfl rfl rfl
          simp [phase, Stop.inProgress]
  | stopTook phase | stopCleared phase =>
      apply state.imp_right
      intro answerable
      exact answerable.stop_moved (fun _ => rfl) rfl rfl rfl rfl
  | stopSent phase => exact .inl rfl

theorem Inv.move (inv : Inv s) (orderly : Orderly s e) (move : Move max s e s') : Inv s' where
  life := Lifecycle.move inv.life move
  slot := inv.slot_move orderly move
  state := inv.state_move orderly move
  found := inv.found_move move

end Step

theorem Inv.reaches (reaches : (machine max).Reaches Orderly s) : Inv s := by
  apply reaches.invariant Inv
  · have start : (machine max).Reaches Free (machine max).initial := .initial
    constructor
    · exact Lifecycle.reaches start
    · simp [machine]
    · exact .inl rfl
    · simp [machine]
  · intro s e s' inv orderly moved
    exact inv.move orderly (step_move moved)

/-- No `connect` and no stop is in progress, and every supervisor whose run loop has exited is
through. -/
structure AtRest (s : State) : Prop where
  connects : ∀ k, s.connects k = .idle ∨ Connect.hasReturned (s.connects k) = true
  stops : ∀ q, Stop.inProgress (s.stops q) = false
  supervisors : ∀ k, s.loops k = .exited → s.supervisors k = .done ∨ s.supervisors k = .cancelled

structure TellsTruth (s : State) : Prop where
  slot : ∀ k, s.running = some k → s.loops k = .alive
  state : (∀ k, s.loops k ≠ .alive) →
    s.state = .disconnected ∨ s.state = .loggedOut ∨ s.state = .banned

/-- A `connect` that fails in this step leaves the state it found, and the other cells alone; one
that is over the budget has written nothing. -/
def FailureRestores (max : Nat) (s : State) : Prop :=
  ∀ e s' k error, step max s e = some s' → Connect.hasReturned (s.connects k) = false →
    s'.connects k = .returned (.error error) →
    s'.running = s.running ∧ s'.client = s.client ∧
      s'.state = if error = .client then s.found k else s.state

theorem Inv.failureRestores (inv : Inv s) : FailureRestores max s := by
  intro e s' k error moved pending failed
  have unreturned (result : Except WamuxError Unit) : s.connects k ≠ .returned result := by
    intro returned
    simp [returned, Connect.hasReturned] at pending
  cases step_move moved with
  | connect how =>
      refine ⟨rfl, rfl, ?_⟩
      simp only [State.setConnect, Function.update_apply] at failed ⊢
      cases how <;> grind
  | buildFailed phase =>
      refine ⟨rfl, rfl, ?_⟩
      have found := inv.found k
      simp only [State.setConnect, State.send, Function.update_apply] at failed ⊢
      grind
  | _ =>
      simp only [State.setConnect, State.setLoop, State.setSupervisor, State.setStop, State.establish,
        State.send, State.record, State.abort, Function.update_apply] at failed
      grind

def OnlyConnect (k : ConnId) (_ : State) : Event → Prop
  | .connect j | .advance j _ | .built j | .buildFailed j | .setRunning j => j = k
  | _ => False

/-- What a `connect` that can still fail has written; from `build_bot`'s success on it cannot. -/
def Written (before : State) (k : ConnId) (s : State) : Prop :=
  match s.connects k with
  | .idle | .isRunning | .budget | .before | .returned (.error _) =>
      s.running = before.running ∧ s.client = before.client ∧ s.state = before.state
  | .announce found =>
      s.running = before.running ∧ s.client = before.client ∧ s.state = before.state ∧ found = before.state
  | .build found => s.running = before.running ∧ s.client = before.client ∧ found = before.state
  | .setClient | .spawn | .fetchAdd | .supervise | .setRunning | .returned (.ok _) => True

theorem Written.move {before : State} {k : ConnId} (written : Written before k s) (only : OnlyConnect k s e)
    (move : Move max s e s') : Written before k s' := by
  cases move with
  | connect how => cases how <;> cases only <;> simp_all [Written, State.setConnect]
  | found phase | announced phase | buildFailed phase | clientSet phase | spawned phase | counted phase
  | supervised phase | established phase =>
      cases only
      simp_all [Written, State.setConnect, State.send]
  | replaced phase occupied =>
      cases only
      simp [Written, State.setConnect, State.abort]
  | supervisor how => cases how <;> cases only
  | stop how => cases how <;> cases only
  | _ => cases only

theorem failed_connect_restores {k : ConnId} {error : WamuxError}
    (leads : (machine max).Leads (OnlyConnect k) s s') (uncalled : s.connects k = .idle)
    (failed : s'.connects k = .returned (.error error)) :
    s'.running = s.running ∧ s'.client = s.client ∧ s'.state = s.state := by
  have written : Written s k s' := by
    clear failed
    induction leads with
    | here => simp [Written, uncalled]
    | next _ only moved ih => exact ih.move only (step_move moved)
  simpa only [Written, failed] using written

theorem Inv.tellsTruth (inv : Inv s) (rest : AtRest s) : TellsTruth s := by
  have watched {k : ConnId} (present : s.supervisors k ≠ .absent)
      (unfinished : s.supervisors k ≠ .done ∧ s.supervisors k ≠ .cancelled) : s.loops k = .alive := by
    have spawned := (inv.life k).watched present
    have through := rest.supervisors k
    cases runLoop : s.loops k <;> simp_all
  constructor
  · intro k running
    have before := inv.slot k running
    apply watched
    · intro absent
      simp [absent, Supervisor.beforeTake] at before
    · constructor <;> intro past <;> simp [past, Supervisor.beforeTake] at before
  · intro none
    have nobody : ¬Answerable s := by
      rintro (⟨answers⟩ | ⟨answers, -⟩ | ⟨inProgress⟩)
      · rename_i k
        rcases rest.connects k with idle | returned
        · simp [idle, Connect.answers] at answers
        · cases phase : s.connects k <;> simp_all [Connect.hasReturned, Connect.answers]
      · rename_i k
        apply none k
        apply watched
        · intro absent
          simp [absent, Supervisor.answers] at answers
        · constructor <;> intro past <;> simp [past, Supervisor.answers] at answers
      · simp [rest.stops] at inProgress
    have state := inv.state.resolve_right nobody
    cases now : s.state <;> simp_all [settled]

/-- Rests on `mayRecord`, the one assumption about the library: no `Connected` or `PairSuccess` comes
from a run loop that is not alive. -/
theorem truth_at_rest (reaches : (machine max).Reaches Orderly s) :
    (AtRest s → TellsTruth s) ∧ FailureRestores max s :=
  ⟨(Inv.reaches reaches).tellsTruth, (Inv.reaches reaches).failureRestores⟩

/-! ## Two runs -/

def onFirst (_ : State) (e : Event) : Bool := about e == 0

theorem onFirst_sound (s : State) (e : Event) (checked : onFirst s e = true) : about e = 0 := by
  simpa [onFirst] using checked

def orderlyOnFirst (s : State) (e : Event) : Bool :=
  onFirst s e && match e with
    | .setRunning k => Supervisor.beforeTake (s.supervisors k)
    | .buildFailed _ => false
    | .record k .connected | .record k .pairSuccess => !s.aborted k
    | _ => true

theorem orderlyOnFirst_sound (s : State) (e : Event) (checked : orderlyOnFirst s e = true) :
    Orderly s e ∧ about e = 0 := by
  simp only [orderlyOnFirst, Bool.and_eq_true] at checked
  refine ⟨?_, onFirst_sound s e checked.1⟩
  cases e with
  | record k event => cases event <;> simp_all [Orderly]
  | _ => simp_all [Orderly]

def firstAtRest (s : State) : Bool :=
  Connect.hasReturned (s.connects 0) && !Stop.inProgress (s.stops 0) &&
    (s.loops 0 != .exited || s.supervisors 0 == .done)

theorem atRest_of_first {allowed : State → Event → Prop} (only : ∀ s e, allowed s e → about e = 0)
    (reaches : (machine max).Reaches allowed s) (rest : firstAtRest s = true) : AtRest s := by
  have untouched {n : Nat} (other : n ≠ 0) : Untouched s n :=
    untouched_of_reaches (fun s e allowed => only s e allowed ▸ other.symm) reaches
  simp only [firstAtRest, Bool.and_eq_true, Bool.or_eq_true, bne_iff_ne, beq_iff_eq, Bool.not_eq_true'] at rest
  obtain ⟨⟨returned, stopped⟩, through⟩ := rest
  constructor
  · intro k
    by_cases same : k = 0
    · exact .inr (same ▸ returned)
    · exact .inl (untouched same).connect
  · intro q
    by_cases same : q = 0
    · exact same ▸ stopped
    · rw [(untouched same).stop]
      rfl
  · intro k exited
    by_cases same : k = 0
    · subst same
      exact .inl (through.resolve_left (by simp [exited]))
    · simp [(untouched same).runLoop] at exited

theorem truth_at_rest_connected : ∃ s, (machine 0).Reaches Orderly s ∧ AtRest s ∧ s.running = some 0 ∧
    s.loops 0 = .alive := by
  obtain ⟨s, reaches, passes⟩ := reaches_of_replay (m := machine 0) orderlyOnFirst_sound
    (fun s => firstAtRest s && s.running == some 0) (comesUp 0 ++ [.setRunning 0, .record 0 .connected]) rfl
  simp only [Bool.and_eq_true, beq_iff_eq] at passes
  have orderly := reaches.weaken fun s e _ allowed => allowed.1
  have rest := atRest_of_first (fun s e allowed => allowed.2) reaches passes.1
  exact ⟨s, orderly, rest, passes.2, ((truth_at_rest orderly).1 rest).slot 0 passes.2⟩

/-- The run loop exits, and its supervisor is through, before `set_running`. -/
theorem slot_kept_dead : ¬∀ s, (machine 0).Reaches Free s →
    (AtRest s → TellsTruth s) ∧ FailureRestores 0 s := by
  intro claim
  obtain ⟨s, reaches, passes⟩ := reaches_of_replay (m := machine 0) onFirst_sound
    (fun s => firstAtRest s && s.running == some 0 && s.loops 0 == .exited)
    (comesUp 0 ++ goesDown 0 ++ [.setRunning 0]) rfl
  simp only [Bool.and_eq_true, beq_iff_eq] at passes
  obtain ⟨⟨rest, running⟩, exited⟩ := passes
  have atRest := atRest_of_first (fun s e allowed => allowed) reaches rest
  have free : (machine 0).Reaches Free s := reaches.weaken fun _ _ _ _ => trivial
  have alive := ((claim s free).1 atRest).slot 0 running
  rw [exited] at alive
  cases alive

end Wamux.Proof.Accounts
