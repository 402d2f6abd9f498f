import Wamux.Runs.Mutex
import Wamux.Proof.GroupCommit.Moves

namespace Wamux.Proof.GroupCommit
open Wamux.GroupCommit Wamux.Runs Wamux.Runs.Async

variable {cap : Nat} {s s' : Sys} {e : Event} {t u : TaskId}

@[simp] theorem setPhase_self (phase : Phase) : (s.setPhase t phase).phase t = phase := by
  simp [Sys.setPhase]

theorem setPhase_other {phase : Phase} (other : u ≠ t) : (s.setPhase t phase).phase u = s.phase u := by
  simp [Sys.setPhase, other]

/-! ## The lock and the phases -/

def role : Phase → Role
  | .locking _ => .waiter
  | .running _ _ | .jobHeld _ | .connHeld _ => .owner
  | .leaving drops _ => if .guard ∈ drops then .owner else .away
  | .idle | .requesting _ | .registering | .checking | .parked | .ended _ => .away

def Tidy : Phase → Prop
  | .leaving drops _ => drops.Nodup
  | _ => True

structure Locking (s : Sys) : Prop where
  mutex : Exclusive s.holder s.queue fun t => role (s.phase t)
  tidy : ∀ t, Tidy (s.phase t)

theorem after_role (method : Method) (outcome : Outcome) :
    role (after method outcome) = .owner ∧ Tidy (after method outcome) := by
  unfold after
  split <;> simp [role, Tidy]

theorem codePhase_role (method : Method) (code : Locked Outcome) :
    role (codePhase method code) = .owner ∧ Tidy (codePhase method code) := by
  cases code with
  | done outcome => exact after_role method outcome
  | get next => exact ⟨rfl, trivial⟩
  | put state next => exact ⟨rfl, trivial⟩
  | await op next => exact ⟨rfl, trivial⟩
  | load next => exact ⟨rfl, trivial⟩

theorem leave_role (next : After) {rest : List Owned} (once : rest.Nodup) :
    role (leave next rest) = (if .guard ∈ rest then .owner else .away) ∧ Tidy (leave next rest) := by
  cases rest with
  | nil => cases next <;> simp [leave, After.phase, role, Tidy]
  | cons first rest => exact ⟨rfl, once⟩

theorem glue_owner (method : Method) : .guard ∈ glue method ∧ (glue method).Nodup := by
  cases method <;> simp [glue]

theorem Locking.tidied (locking : Locking s) {phase : Phase} (now : s'.phase = Function.update s.phase t phase)
    (tidy : Tidy phase) (u : TaskId) : Tidy (s'.phase u) := by
  rw [now]
  by_cases same : u = t
  · simpa [same] using tidy
  · simpa [same] using locking.tidy u

theorem Locking.stay (locking : Locking s) {phase : Phase} (now : s'.phase = Function.update s.phase t phase)
    (holder : s'.holder = s.holder) (queue : s'.queue = s.queue) (same : role phase = role (s.phase t))
    (tidy : Tidy phase) : Locking s' := by
  refine ⟨?_, locking.tidied now tidy⟩
  rw [holder, queue, now]
  exact locking.mutex.stay (t := t) (by simpa using same) fun u other => by simp [other]

theorem Locking.owned (locking : Locking s) {phase : Phase} (now : s'.phase = Function.update s.phase t phase)
    (holder : s'.holder = s.holder) (queue : s'.queue = s.queue) (holds : s.holder = some t)
    (owner : role phase = .owner) (tidy : Tidy phase) : Locking s' := by
  refine ⟨?_, locking.tidied now tidy⟩
  rw [holder, queue, now]
  exact locking.mutex.grant holds (by simpa using owner) fun u other => by simp [other]

theorem Locking.request (locking : Locking s) (method : Method) (away : role (s.phase t) = .away) :
    Locking (s.request t method) := by
  unfold Sys.request
  cases holder : s.holder with
  | none =>
      refine ⟨?_, locking.tidied (t := t) rfl (show Tidy (.locking method) from trivial)⟩
      have mutex := locking.mutex
      rw [holder] at mutex
      exact mutex.acquire (by simp [role]) fun u other => by rw [setPhase_other other]
  | some other =>
      refine ⟨?_, locking.tidied (t := t) rfl (show Tidy (.locking method) from trivial)⟩
      have mutex := locking.mutex
      rw [holder] at mutex
      refine mutex.enqueue (t := t) (by simp) away ?_ fun u other => ?_
      · rw [setPhase_self]; rfl
      · rw [setPhase_other other]

theorem Locking.left (locking : Locking s) {first : Owned} {rest : List Owned} {next : After}
    (phase : s.phase t = .leaving (first :: rest) next) :
    Locking ((s.dropOwned first).setPhase t (leave next rest)) := by
  have all := locking.tidy t
  rw [phase] at all
  obtain ⟨fresh, once⟩ := List.nodup_cons.1 all
  obtain ⟨now, tidy⟩ := leave_role next once
  cases first with
  | slot => exact locking.stay (t := t) rfl rfl rfl (by rw [now, phase]; simp [role]) tidy
  | guard =>
      have unlocked : (s.unlock.holder = s.queue.head?) ∧ (s.unlock.queue = s.queue.tail) ∧
          s.unlock.phase = s.phase := by
        unfold Sys.unlock
        split <;> rename_i queue <;> simp [queue]
      obtain ⟨holder, queue, phases⟩ := unlocked
      refine ⟨?_, locking.tidied (t := t) (by rw [← phases]; rfl) tidy⟩
      change Exclusive s.unlock.holder s.unlock.queue _
      rw [holder, queue]
      refine locking.mutex.release (t := t) (by simp [phase, role]) (by simp [now, fresh]) fun u other => ?_
      simp [Sys.dropOwned, Sys.setPhase, phases, other]

theorem Locking.move (locking : Locking s) (move : Move cap s e s') : Locking s' := by
  have owns {t : TaskId} (owner : role (s.phase t) = .owner) : s.holder = some t :=
    locking.mutex.owner t owner
  cases move with
  | entered idle => exact locking.stay rfl rfl rfl (by simp [idle, role]) trivial
  | called idle guards => exact locking.stay rfl rfl rfl (by simp [idle, role]) trivial
  | requested phase => exact locking.request _ (by simp [phase, role])
  | @resumed _ t method code batch taken how =>
      obtain ⟨owner, tidy⟩ := codePhase_role method (code.advance batch).2
      refine locking.owned (t := t) rfl rfl rfl ?_ owner tidy
      cases how with
      | granted phase holds => exact holds
      | served phase => exact owns (by simp [phase, role])
      | loaded phase => exact owns (by simp [phase, role])
      | finishing phase => exact owns (by simp [phase, role])
      | failing phase => exact owns (by simp [phase, role])
  | registered phase => exact locking.stay rfl rfl rfl (by simp [phase, role]) trivial
  | counted phase busy => exact locking.stay rfl rfl rfl (by simp [phase, role]) trivial
  | drained phase quiet => exact locking.stay rfl rfl rfl (by simp [phase, role]) trivial
  | received phase value => exact locking.stay rfl rfl rfl (by simp [phase, role]) trivial
  | orphaned phase closed => exact locking.stay rfl rfl rfl (by simp [phase, role]) trivial
  | woken phase notified => exact locking.stay rfl rfl rfl (by simp [phase, role]) trivial
  | left phase => exact locking.left phase
  | wroteJob phase => exact ⟨locking.mutex, locking.tidy⟩
  | wroteGuard phase => exact ⟨locking.mutex, locking.tidy⟩
  | aborted phase => exact locking.stay rfl rfl rfl (by simp [phase, role]) trivial
  | @droppedGranted t ran method phase holds =>
      exact locking.owned rfl rfl rfl holds (by simp [role, (glue_owner method).1]) (glue_owner method).2
  | @droppedQueued t ran method phase queued =>
      have rest : ((glue method).filter (· = Owned.slot)).Nodup ∧ .guard ∉ (glue method).filter (· = .slot) :=
        ⟨(glue_owner method).2.filter _, by simp⟩
      obtain ⟨now, tidy⟩ := leave_role (.ended (.dropped method)) rest.1
      refine ⟨?_, locking.tidied (t := t) rfl tidy⟩
      refine locking.mutex.cancel queued (by rw [setPhase_self, now, if_neg rest.2]) fun u other => ?_
      rw [setPhase_other other]
  | @droppedAwaiting t ran method statement next phase =>
      exact locking.owned rfl rfl rfl (owns (by simp [phase, role])) (by simp [role, (glue_owner method).1])
        (glue_owner method).2
  | droppedJob phase => exact locking.owned rfl rfl rfl (owns (by simp [phase, role])) rfl (by simp [Tidy])
  | droppedGuard phase => exact locking.owned rfl rfl rfl (owns (by simp [phase, role])) rfl (by simp [Tidy])
  | droppedParked phase => exact locking.stay rfl rfl rfl (by simp [phase, role]) trivial

theorem Locking.initial : Locking (machine cap).initial :=
  ⟨⟨by simp [machine, role], by simp [machine, role], by simp [machine], by simp [machine],
    List.nodup_nil, fun _ => rfl⟩, fun _ => trivial⟩

end Wamux.Proof.GroupCommit
