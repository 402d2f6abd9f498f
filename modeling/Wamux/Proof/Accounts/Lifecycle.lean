import Wamux.Proof.Accounts.Moves

namespace Wamux.Proof.Accounts
open Wamux.Accounts Wamux.Runs

section Phases

def Connect.unspawned : Connect → Bool
  | .idle | .isRunning | .budget | .before | .announce _ | .build _ | .setClient | .spawn => true
  | .fetchAdd | .supervise | .setRunning | .returned _ => false

def Connect.unsupervised : Connect → Bool
  | .fetchAdd | .supervise => true
  | .idle | .isRunning | .budget | .before | .announce _ | .build _ | .setClient | .spawn | .setRunning
  | .returned _ => false

def Connect.hasReturned : Connect → Bool
  | .returned _ => true
  | _ => false

def Supervisor.sawExit : Supervisor → Bool
  | .take | .clearClient | .isTerminal | .send | .fetchSub | .done => true
  | .absent | .parked | .polled | .cancelled => false

end Phases

structure Lifecycle (s : State) (k : ConnId) : Prop where
  unspawned : Connect.unspawned (s.connects k) = true → s.loops k = .unspawned ∧ s.supervisors k = .absent
  unsupervised : Connect.unsupervised (s.connects k) = true → s.loops k ≠ .unspawned ∧ s.supervisors k = .absent
  supervised : s.connects k = .setRunning → s.supervisors k ≠ .absent
  watched : s.supervisors k ≠ .absent → s.loops k ≠ .unspawned
  unwatched : s.supervisors k = .absent → s.loops k ≠ .unspawned → Connect.unsupervised (s.connects k) = true
  sawExit : Supervisor.sawExit (s.supervisors k) = true → s.loops k = .exited
  aborted : s.aborted k = true → Connect.hasReturned (s.connects k) = true
  cancelled : s.supervisors k = .cancelled → s.aborted k = true
  slot : s.running = some k → Connect.hasReturned (s.connects k) = true ∧ s.supervisors k ≠ .absent
  evicted : s.aborted k = true → s.running ≠ some k

variable {max : Nat} {s s' : State} {e : Event} {k : ConnId}

theorem Lifecycle.unaborted (life : Lifecycle s k) (pending : Connect.hasReturned (s.connects k) = false) :
    s.aborted k = false := by
  cases aborted : s.aborted k with
  | false => rfl
  | true => exact absurd (life.aborted aborted) (by simp [pending])

attribute [local grind] Connect.unspawned Connect.unsupervised Connect.hasReturned Supervisor.sawExit
attribute [local grind cases] Lifecycle

theorem Lifecycle.move (life : ∀ k, Lifecycle s k) (move : Move max s e s') (k : ConnId) : Lifecycle s' k := by
  have mine := life k
  cases move with
  | connect how =>
      cases how <;> constructor <;> simp only [State.setConnect, Function.update_apply] <;> grind -ring -linarith
  | supervisor how =>
      cases how <;> constructor <;> simp only [State.setSupervisor, Function.update_apply] <;> grind -ring -linarith
  | stop how => exact ⟨mine.1, mine.2, mine.3, mine.4, mine.5, mine.6, mine.7, mine.8, mine.9, mine.10⟩
  | replaced phase running =>
      -- the connection in the slot has returned, so it is not the one that replaces it
      have previous := ((life _).slot running).1
      constructor <;>
        simp only [State.setConnect, State.abort, Function.update_apply] <;> grind -ring -linarith
  | _ =>
      constructor <;> simp only [State.setConnect, State.setLoop, State.setSupervisor, State.setStop, State.establish, State.send,
          State.record, Function.update_apply] <;> grind -ring -linarith

theorem Lifecycle.reaches {allowed : State → Event → Prop} (reaches : (machine max).Reaches allowed s) :
    ∀ k, Lifecycle s k := by
  apply reaches.invariant (fun s => ∀ k, Lifecycle s k)
  · intro k
    constructor <;> simp [machine, Connect.unspawned, Connect.unsupervised, Supervisor.sawExit]
  · intro s e s' life _ moved k
    exact Lifecycle.move life (step_move moved) k

def about : Event → Nat
  | .connect k | .advance k _ | .built k | .buildFailed k | .setRunning k | .record k _ | .exit k | .poll k
  | .pend k | .supervise k | .cancel k => k
  | .stop q | .logout q | .stopNext q _ | .timeout q => q

structure Untouched (s : State) (n : Nat) : Prop where
  connect : s.connects n = .idle
  runLoop : s.loops n = .unspawned
  stop : s.stops n = .idle

theorem Untouched.step {n : Nat} (untouched : Untouched s n) (other : about e ≠ n)
    (moved : step max s e = some s') : Untouched s' n := by
  obtain ⟨connect, runLoop, stop⟩ := untouched
  cases step_move moved with
  | connect how =>
      cases how <;> simp only [about] at other <;> constructor <;>
        simp only [State.setConnect, Function.update_apply] <;> grind
  | supervisor how => exact ⟨connect, runLoop, stop⟩
  | stop how =>
      cases how <;> simp only [about] at other <;> constructor <;>
        simp only [State.setStop, Function.update_apply] <;> grind
  | _ =>
      simp only [about] at other
      constructor <;> simp only [State.setConnect, State.setLoop, State.setSupervisor, State.setStop, State.establish, State.send,
          State.record, State.abort, Function.update_apply] <;> grind

theorem untouched_of_reaches {n : Nat} {allowed : State → Event → Prop}
    (other : ∀ s e, allowed s e → about e ≠ n) (reaches : (machine max).Reaches allowed s) : Untouched s n := by
  apply reaches.invariant (Untouched · n)
  · exact ⟨rfl, rfl, rfl⟩
  · intro s e s' untouched permitted moved
    exact untouched.step (other s e permitted) moved

def comesUp (k : ConnId) : List Event :=
  [.connect k] ++ List.replicate 4 (.advance k 0) ++ [.built k] ++ List.replicate 4 (.advance k 0)

def goesDown (k : ConnId) : List Event := [.exit k, .poll k] ++ List.replicate 6 (.supervise k)

end Wamux.Proof.Accounts
