import Wamux.GroupCommit.System

namespace Wamux.Proof.GroupCommit
open Wamux.GroupCommit Wamux.Runs Wamux.Runs.Async

inductive Resumption (cap : Nat) (s : Sys) :
    Event → TaskId → Method → Locked Outcome → BatchState → List TaskId → Prop where
  | granted {t choice method} (phase : s.phase t = .locking method) (holds : s.holder = some t) :
      Resumption cap s (.poll t choice) t method (body cap t method) (s.take t method).batch
        (s.take t method).taken
  | served {t choice method statement next} (phase : s.phase t = .running method (.await statement next)) :
      Resumption cap s (.poll t choice) t method (next (serve statement choice s.batch).1)
        (serve statement choice s.batch).2 s.taken
  | loaded {t choice method next} (phase : s.phase t = .running method (.load next)) :
      Resumption cap s (.poll t choice) t method (next s.pending) s.batch s.taken
  | finishing {t aborted} (phase : s.phase t = .jobHeld aborted) :
      Resumption cap s (.finish t) t .finish (finishBody (max cap 1) t) s.batch s.taken
  | failing {t aborted} (phase : s.phase t = .jobHeld aborted) :
      Resumption cap s (.fail t) t .fail failBody s.batch s.taken

inductive Move (cap : Nat) (s : Sys) : Event → Sys → Prop where
  | entered {t} (idle : s.phase t = .idle) :
      Move cap s (.call t .beginJob) (s.enter.setPhase t (.requesting .beginJob))
  | called {t method} (idle : s.phase t = .idle) (guards : method = .lock ∨ method = .lockAutocommit) :
      Move cap s (.call t method) (s.setPhase t (.requesting method))
  | requested {t choice method} (phase : s.phase t = .requesting method) :
      Move cap s (.poll t choice) (s.request t method)
  | resumed {e t method code batch taken} (how : Resumption cap s e t method code batch taken) :
      Move cap s e ({ s with taken := taken }.resume t method code batch)
  | registered {t choice} (phase : s.phase t = .registering) : Move cap s (.poll t choice)
      ({ s with drained := Function.update s.drained t false }.setPhase t .checking)
  | counted {t choice} (phase : s.phase t = .checking) (busy : s.pending ≠ 0) :
      Move cap s (.poll t choice) (s.setPhase t .parked)
  | drained {t choice} (phase : s.phase t = .checking) (quiet : s.pending = 0) :
      Move cap s (.poll t choice) (s.setPhase t (.requesting .commitIfDrained))
  | received {t answer} (phase : s.phase t = .parked) (value : s.batch.tryRecv t = .value answer) :
      Move cap s (.poll t true) (s.setPhase t (.ended (.finished (batchAnswer (some answer)))))
  | orphaned {t} (phase : s.phase t = .parked) (closed : s.batch.tryRecv t = .closed) :
      Move cap s (.poll t true) (s.setPhase t (.ended (.finished (batchAnswer none))))
  | woken {t} (phase : s.phase t = .parked) (notified : s.drained t = true) :
      Move cap s (.poll t false) (s.setPhase t .registering)
  | left {t choice first rest next} (phase : s.phase t = .leaving (first :: rest) next) :
      Move cap s (.poll t choice) ((s.dropOwned first).setPhase t (leave next rest))
  | wroteJob {t value} (phase : s.phase t = .jobHeld false) : Move cap s (.write t value)
      { s with batch := { s.batch with conn := s.batch.conn.write ⟨t, value⟩ },
               written := Function.update s.written t (s.written t ++ [value]) }
  | wroteGuard {t value method} (phase : s.phase t = .connHeld method) : Move cap s (.write t value)
      { s with batch := { s.batch with conn := s.batch.conn.write ⟨t, value⟩ } }
  | aborted {t} (phase : s.phase t = .jobHeld false) : Move cap s (.autoRollback t)
      ({ s with batch := { s.batch with conn := s.batch.conn.rollbackOpen,
                                        ledger := s.batch.ledger.record false .rollback } }.setPhase t
        (.jobHeld true))
  | droppedGranted {t ran method} (phase : s.phase t = .locking method) (holds : s.holder = some t) :
      Move cap s (.drop t ran) (s.setPhase t (.leaving (glue method) (.ended (.dropped method))))
  | droppedQueued {t ran method} (phase : s.phase t = .locking method) (queued : s.holder ≠ some t) :
      Move cap s (.drop t ran) ({ s with queue := s.queue.erase t }.setPhase t
        (leave (.ended (.dropped method)) ((glue method).filter (· = Owned.slot))))
  | droppedAwaiting {t ran method statement next}
      (phase : s.phase t = .running method (.await statement next)) :
      Move cap s (.drop t ran)
        ({ s with batch := if ran then (serve statement false s.batch).2 else s.batch }.setPhase t
          (.leaving (glue method) (.ended (.dropped method))))
  | droppedJob {t ran aborted} (phase : s.phase t = .jobHeld aborted) :
      Move cap s (.drop t ran) (s.setPhase t (.leaving [.guard, .slot] (.ended .abandoned)))
  | droppedGuard {t ran method} (phase : s.phase t = .connHeld method) :
      Move cap s (.drop t ran) (s.setPhase t (.leaving [.guard] (.ended .released)))
  | droppedParked {t ran} (phase : s.phase t = .parked) :
      Move cap s (.drop t ran) (s.setPhase t (.ended (.dropped .commitIfDrained)))

variable {cap : Nat} {s s' : Sys} {t : TaskId}

theorem call_move {method : Method} (moved : call s t method = some s') :
    Move cap s (.call t method) s' := by
  unfold call at moved
  split at moved
  · rename_i idle
    cases moved
    exact .entered idle
  · rename_i idle
    cases moved
    exact .called idle (.inl rfl)
  · rename_i idle
    cases moved
    exact .called idle (.inr rfl)
  · cases moved

theorem poll_move {choice : Bool} (moved : poll cap s t choice = some s') :
    Move cap s (.poll t choice) s' := by
  unfold poll at moved
  split at moved
  · cases moved
    exact .requested ‹_›
  · split at moved
    · cases moved
      rename_i method _ _
      have same : (s.take t method).resume t method (body cap t method) (s.take t method).batch =
          { s with taken := (s.take t method).taken }.resume t method (body cap t method)
            (s.take t method).batch := by cases method <;> rfl
      rw [same]
      exact .resumed (.granted ‹_› ‹_›)
    · cases moved
  · cases moved
    exact .resumed (.served ‹_›)
  · cases moved
    exact .resumed (.loaded ‹_›)
  · cases moved
    exact .registered ‹_›
  · cases moved
    split_ifs with busy
    · exact .counted ‹_› busy
    · exact .drained ‹_› (not_not.1 busy)
  · split at moved
    · rename_i taken
      subst taken
      split at moved
      · cases moved
      · cases moved
        exact .received ‹_› ‹_›
      · cases moved
        exact .orphaned ‹_› ‹_›
    · rename_i other
      simp only [Bool.not_eq_true] at other
      subst other
      split at moved
      · cases moved
        exact .woken ‹_› ‹_›
      · cases moved
  · cases moved
    exact .left ‹_›
  · cases moved

theorem drop_move {ran : Bool} (moved : drop s t ran = some s') : Move cap s (.drop t ran) s' := by
  unfold drop at moved
  split at moved
  · split at moved
    · cases moved
      exact .droppedGranted ‹_› ‹_›
    · cases moved
      exact .droppedQueued ‹_› ‹_›
  · cases moved
    exact .droppedAwaiting ‹_›
  · cases moved
    exact .droppedJob ‹_›
  · cases moved
    exact .droppedGuard ‹_›
  · cases moved
    exact .droppedParked ‹_›
  · cases moved

theorem step_move {e : Event} (moved : step cap s e = some s') : Move cap s e s' := by
  cases e with
  | call t method => exact call_move moved
  | poll t choice => exact poll_move moved
  | drop t ran => exact drop_move moved
  | write t value =>
      simp only [step, write] at moved
      split at moved
      · cases moved
        exact .wroteJob ‹_›
      · cases moved
        exact .wroteGuard ‹_›
      · cases moved
  | autoRollback t =>
      simp only [step, autoRollback] at moved
      split at moved
      · cases moved
        exact .aborted ‹_›
      · cases moved
  | finish t =>
      simp only [step, endWith] at moved
      split at moved
      · cases moved
        exact .resumed (.finishing ‹_›)
      · cases moved
  | fail t =>
      simp only [step, endWith] at moved
      split at moved
      · cases moved
        exact .resumed (.failing ‹_›)
      · cases moved

def task : Event → TaskId
  | .call t _ | .poll t _ | .write t _ | .autoRollback t | .finish t | .fail t | .drop t _ => t

theorem Resumption.task {e : Event} {method : Method} {code : Locked Outcome} {batch : BatchState}
    {taken : List TaskId} (how : Resumption cap s e t method code batch taken) : t = GroupCommit.task e := by
  cases how <;> rfl

theorem Move.other {e : Event} {u : TaskId} (move : Move cap s e s') (other : u ≠ task e) :
    s'.phase u = s.phase u := by
  cases move with
  | wroteJob phase => rfl
  | wroteGuard phase => rfl
  | resumed how =>
      rw [← how.task] at other
      simp [Sys.resume, Sys.setPhase, other]
  | requested phase =>
      simp only [task] at other
      unfold Sys.request
      split <;> simp [Sys.setPhase, other]
  | left phase =>
      rename_i first rest next
      simp only [task] at other
      cases first with
      | slot => simp [Sys.dropOwned, Sys.dropSlot, Sys.setPhase, other]
      | guard =>
          simp only [Sys.dropOwned, Sys.unlock]
          split <;> simp [Sys.setPhase, other]
  | _ =>
      simp only [task] at other
      simp [Sys.setPhase, Sys.enter, other]

theorem replay_untouched {check : Sys → Event → Bool} {events : List Event} {u : TaskId}
    (replayed : (machine cap).replay check s events = some s') (untouched : u ∉ events.map task) :
    s'.phase u = s.phase u := by
  induction events generalizing s with
  | nil =>
      simp only [Machine.replay, Option.some.injEq] at replayed
      rw [replayed]
  | cons e rest ih =>
      simp only [List.map_cons, List.mem_cons, not_or] at untouched
      simp only [Machine.replay] at replayed
      split at replayed
      · cases moved : (machine cap).step s e with
        | none => simp [moved] at replayed
        | some middle =>
            simp only [moved, Option.bind_some] at replayed
            rw [ih replayed untouched.2, (step_move moved).other untouched.1]
      · cases replayed

end Wamux.Proof.GroupCommit
