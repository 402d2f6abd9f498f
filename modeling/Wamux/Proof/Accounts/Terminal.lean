import Wamux.Proof.Accounts.Lifecycle

namespace Wamux.Proof.Accounts
open Wamux.Accounts Wamux.Runs Wamux.Runs.Machine

variable {max : Nat} {s s' : State}

/-- A teardown has read a state that is not terminal and is about to send DISCONNECTED. -/
def Sending (s : State) : Prop := (∃ q took, s.stops q = .send took) ∨ ∃ k, s.supervisors k = .send

def mayReplace : Event ⊕ LibraryEvent → Bool
  | .inr event | .inl (.record _ event) => event ≠ .disconnected && event ≠ .other
  | .inl (.connect _) | .inl (.advance _ _) | .inl (.built _) | .inl (.buildFailed _) | .inl (.setRunning _) => true
  | .inl (.exit _) | .inl (.poll _) | .inl (.pend _) | .inl (.supervise _) | .inl (.cancel _) | .inl (.stop _)
  | .inl (.logout _) | .inl (.stopNext _ _) | .inl (.timeout _) => false

def TerminalStays (max : Nat) (s : State) : Prop :=
  isTerminal s.state = true → ∀ e s', (dispatching max).step s e = some s' → s'.state = s.state ∨ mayReplace e = true

def recordsTerminal (event : LibraryEvent) : Bool := event = .loggedOut || event = .temporaryBan

def writesTerminal (s : State) : Event ⊕ LibraryEvent → Bool
  | .inr event | .inl (.record _ event) => recordsTerminal event
  | .inl (.buildFailed k) => match s.connects k with
      | .build before => isTerminal before
      | _ => false
  | .inl _ => false

def NotInBetween (s : State) (e : Event ⊕ LibraryEvent) : Prop := writesTerminal s e = true → ¬Sending s

theorem updateState_terminal {current : ConnectionState} {event : LibraryEvent}
    (terminal : isTerminal (updateState current event) = true) :
    recordsTerminal event = true ∨ updateState current event = current := by
  cases event <;> cases current <;> simp_all [updateState, written, recordsTerminal, isTerminal]

theorem updateState_keeps {current : ConnectionState} {event : LibraryEvent} (terminal : isTerminal current = true) :
    updateState current event = current ∨ (event ≠ .disconnected && event ≠ .other) = true := by
  cases event <;> cases current <;> simp_all [updateState, written, isTerminal]

theorem Sending.of_supervisor {k : ConnId} {phase : Supervisor} (sending : Sending (s.setSupervisor k phase))
    (other : phase ≠ .send) : Sending s := by
  rcases sending with stop | ⟨j, send⟩
  · exact .inl stop
  · by_cases same : j = k
    · subst same
      simp only [State.setSupervisor, Function.update_self] at send
      exact absurd send other
    · simp only [State.setSupervisor, Function.update_of_ne same] at send
      exact .inr ⟨j, send⟩

theorem Sending.of_stop {q : StopId} {phase : Stop} (sending : Sending (s.setStop q phase))
    (other : ∀ took, phase ≠ .send took) : Sending s := by
  rcases sending with ⟨r, took, send⟩ | supervisor
  · by_cases same : r = q
    · subst same
      simp only [State.setStop, Function.update_self] at send
      exact absurd send (other took)
    · simp only [State.setStop, Function.update_of_ne same] at send
      exact .inl ⟨r, took, send⟩
  · exact .inr supervisor

theorem Sending.of_abort {k : ConnId} (sending : Sending (s.abort k)) : Sending s := by
  rcases sending with stop | ⟨j, send⟩
  · exact .inl stop
  · refine .inr ⟨j, ?_⟩
    simp only [State.abort, Function.update_apply] at send
    grind

theorem move_quiet {e : Event} (move : Move max s e s') (quiet : isTerminal s.state = true → ¬Sending s)
    (apart : NotInBetween s (.inl e)) (terminal : isTerminal s'.state = true) : ¬Sending s' := by
  intro sending
  cases move with
  | connect how => exact quiet terminal sending
  | found | clientSet | spawned | counted | established | exited => exact quiet terminal sending
  | @supervised k _ phase =>
      have sending : Sending (s.setSupervisor k .parked) := sending
      exact quiet terminal (sending.of_supervisor (by simp))
  | announced | sent | stopSent => cases terminal
  | @buildFailed k before phase =>
      have writes : writesTerminal s (.inl (.buildFailed k)) = true := by
        simp only [writesTerminal, phase]
        exact terminal
      exact apart writes sending
  | replaced phase running => exact quiet terminal sending.of_abort
  | recorded may =>
      rcases updateState_terminal terminal with records | same
      · exact apart records sending
      · rw [show (s.record _ _).state = s.state from same] at terminal
        exact quiet terminal sending
  | supervisor how =>
      cases how with
      | polled | pending | woken | terminal => exact quiet terminal (sending.of_supervisor (by simp))
      | notTerminal phase unsettled => exact unsettled terminal
  | took | cleared | released | cancelled => exact quiet terminal (sending.of_supervisor (by simp))
  | stop how =>
      cases how with
      | notTerminal phase unsettled => exact unsettled terminal
      | _ => exact quiet terminal (sending.of_stop (by simp))
  | stopTook | stopCleared => exact quiet terminal (sending.of_stop (by simp))

theorem step_quiet {e : Event ⊕ LibraryEvent} (quiet : isTerminal s.state = true → ¬Sending s) (apart : NotInBetween s e)
    (moved : (dispatching max).step s e = some s') : isTerminal s'.state = true → ¬Sending s' := by
  cases e with
  | inl e => exact move_quiet (step_move moved) quiet apart
  | inr event =>
      cases moved
      intro terminal
      rcases updateState_terminal terminal with records | same
      · exact apart records
      · rw [show updateState s.state event = s.state from same] at terminal
        exact quiet terminal

theorem terminalStays_of_quiet (quiet : isTerminal s.state = true → ¬Sending s) : TerminalStays max s := by
  intro terminal e s' moved
  have nobody := quiet terminal
  cases e with
  | inr event =>
      cases moved
      exact updateState_keeps terminal
  | inl e =>
      cases step_move moved with
      | connect how => exact .inl rfl
      | announced | buildFailed => exact .inr rfl
      | recorded may => exact updateState_keeps terminal
      | sent phase => exact absurd (.inr ⟨_, phase⟩) nobody
      | stopSent phase => exact absurd (.inl ⟨_, _, phase⟩) nobody
      | _ => exact .inl rfl

theorem writesTerminal_writes {e : Event ⊕ LibraryEvent} (writes : writesTerminal s e = true)
    (moved : (dispatching max).step s e = some s') : isTerminal s'.state = true ∧ (Sending s → Sending s') := by
  have recorded {current : ConnectionState} {event : LibraryEvent} (records : recordsTerminal event = true) :
      isTerminal (updateState current event) = true := by
    cases event <;> simp_all [recordsTerminal, updateState, written, isTerminal]
  cases e with
  | inr event =>
      cases moved
      exact ⟨recorded writes, id⟩
  | inl e =>
      cases step_move moved with
      | recorded may => exact ⟨recorded writes, id⟩
      | buildFailed phase =>
          simp only [writesTerminal, phase] at writes
          exact ⟨writes, id⟩
      | connect how => cases how <;> cases writes
      | supervisor how => cases how <;> cases writes
      | stop how => cases how <;> cases writes
      | _ => cases writes

theorem sending_overwrites (terminal : isTerminal s.state = true) (sending : Sending s) : ¬TerminalStays max s := by
  intro stays
  have overwritten : ConnectionState.disconnected ≠ s.state := by
    intro same
    rw [← same] at terminal
    cases terminal
  rcases sending with ⟨q, took, send⟩ | ⟨k, send⟩
  · have moved : (dispatching max).step s (.inl (.stopNext q false)) =
        some ((s.send .disconnected).setStop q (.returned (.ok ()))) := by
      simp [dispatching, Accounts.step, stopNext, send]
    rcases stays terminal _ _ moved with same | may
    · exact overwritten same
    · cases may
  · have moved : (dispatching max).step s (.inl (.supervise k)) =
        some ((s.send .disconnected).setSupervisor k .fetchSub) := by
      simp [dispatching, Accounts.step, supervise, send]
    rcases stays terminal _ _ moved with same | may
    · exact overwritten same
    · cases may

/-- Where no terminal state comes in between a read and a send it stays; where one does, the send
overwrites it. -/
theorem terminal_survives (max : Nat) : (∀ s, (dispatching max).Reaches NotInBetween s → TerminalStays max s) ∧
    ∀ s e s', ¬NotInBetween s e → (dispatching max).step s e = some s' → ¬TerminalStays max s' := by
  constructor
  · intro s reaches
    apply terminalStays_of_quiet
    apply reaches.invariant fun s => isTerminal s.state = true → ¬Sending s
    · intro terminal
      cases terminal
    · intro s e s' quiet apart moved
      exact step_quiet quiet apart moved
  · intro s e s' between moved
    simp only [NotInBetween, Classical.not_imp, Classical.not_not] at between
    obtain ⟨terminal, sending⟩ := writesTerminal_writes between.1 moved
    exact sending_overwrites terminal (sending between.2)

/-! ## Two runs -/

def stopsIdle : List (Event ⊕ LibraryEvent) := [.inl (.stop 0)] ++ List.replicate 5 (.inl (.stopNext 0 false))

theorem terminal_survives_stop : ∃ s, (dispatching 0).Reaches NotInBetween s ∧
    (match s.stops 0 with | .returned _ => true | _ => false) = true ∧ s.state = .loggedOut ∧ TerminalStays 0 s := by
  have recorded : (dispatching 0).Reaches NotInBetween { state := .loggedOut } := by
    apply Reaches.next .initial _ (rfl : (dispatching 0).step _ (.inr .loggedOut) = _)
    rintro _ (⟨_, _, send⟩ | ⟨_, send⟩)
    · cases send
    · cases send
  have sound (s : State) (e : Event ⊕ LibraryEvent) (passes : (!writesTerminal s e) = true) : NotInBetween s e := by
    intro writes
    simp [writes] at passes
  cases replayed : (dispatching 0).replay (fun s e => !writesTerminal s e) { state := .loggedOut } stopsIdle with
  | none =>
      have some : ((dispatching 0).replay (fun s e => !writesTerminal s e) { state := .loggedOut } stopsIdle).isSome =
        true := rfl
      simp [replayed] at some
  | some s =>
      have reaches := replay_reaches sound recorded replayed
      have ends : ((dispatching 0).replay (fun s e => !writesTerminal s e) { state := .loggedOut } stopsIdle).map
          (fun s => (match s.stops 0 with | .returned _ => true | _ => false) && s.state = .loggedOut) = some true := rfl
      simp only [replayed, Option.map_some, Option.some.injEq, Bool.and_eq_true, decide_eq_true_eq] at ends
      exact ⟨s, reaches, ends.1, ends.2, (terminal_survives 0).1 s reaches⟩

/-- The stop of a connected account reads CONNECTED; LoggedOut is recorded before it sends. -/
def loggedOutInBetween : List Event :=
  comesUp 0 ++ [.setRunning 0, .record 0 .connected, .stop 0] ++ List.replicate 3 (.stopNext 0 false) ++
    [.timeout 0] ++ List.replicate 2 (.stopNext 0 false) ++ [.record 0 .loggedOut]

theorem terminal_overwritten : ¬∀ s, (dispatching 0).Reaches Free s → TerminalStays 0 s := by
  intro claim
  obtain ⟨s, reaches, passes⟩ := reaches_of_replay (m := dispatching 0) free_sound
    (fun s => (match s.stops 0 with | .send _ => true | _ => false) && s.state = .loggedOut)
    (loggedOutInBetween.map .inl) rfl
  simp only [Bool.and_eq_true, decide_eq_true_eq] at passes
  have sending : Sending s := by
    cases phase : s.stops 0 with
    | send took => exact .inl ⟨0, took, phase⟩
    | _ => simp [phase] at passes
  have terminal : isTerminal s.state = true := by
    rw [passes.2]
    rfl
  exact sending_overwrites terminal sending (claim s reaches)

end Wamux.Proof.Accounts
