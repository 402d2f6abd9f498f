import Mathlib.Data.List.Basic

/-!
# Critical sections that can be dropped at an await

`Async` is the body of a future that holds a lock: it reads and writes the guarded state, awaits
operations on it, and loads a value other tasks change. The future may be dropped at an await, and
the operation awaited then either ran or did not.

`Safe` is the proof rule for such a body: what must hold for the next holder of the lock whenever
the future is dropped, what holds at every moment another task can look, and what one write of the
body may change under the other tasks.
-/

namespace Wamux.Runs

inductive Async (σ ω ρ η α : Type) : Type where
  | done (value : α)
  | get (next : σ → Async σ ω ρ η α)
  | put (state : σ) (next : Async σ ω ρ η α)
  | await (op : ω) (next : ρ → Async σ ω ρ η α)
  | load (next : η → Async σ ω ρ η α)

namespace Async
variable {σ ω ρ η α β : Type}

def bind : Async σ ω ρ η α → (α → Async σ ω ρ η β) → Async σ ω ρ η β
  | done value, f => f value
  | get next, f => get fun s => (next s).bind f
  | put state next, f => put state (next.bind f)
  | await op next, f => await op fun reply => (next reply).bind f
  | load next, f => load fun seen => (next seen).bind f

instance : Monad (Async σ ω ρ η) where
  pure := done
  bind := bind

def read : Async σ ω ρ η σ := get done

def modify (f : σ → σ) : Async σ ω ρ η Unit := get fun s => put (f s) (done ())

def perform (op : ω) : Async σ ω ρ η ρ := await op done

def observe : Async σ ω ρ η η := load done

/-- Run the reads and writes up to the next await, load or return: nothing of it is seen by
another task, which has no access to the guarded state. -/
def advance : Async σ ω ρ η α → σ → σ × Async σ ω ρ η α
  | done value, s => (s, done value)
  | get next, s => (next s).advance s
  | put state next, _ => next.advance state
  | await op next, s => (s, await op next)
  | load next, s => (s, load next)

def Paused : Async σ ω ρ η α → Prop
  | await _ _ | load _ => True
  | done _ | get _ | put _ _ => False

theorem advance_paused (m : Async σ ω ρ η α) (s : σ) :
    (∃ value, (m.advance s).2 = done value) ∨ (m.advance s).2.Paused := by
  induction m generalizing s with
  | done value => exact .inl ⟨value, rfl⟩
  | get next ih => exact ih s s
  | put state next ih => exact ih state
  | await op next ih => exact .inr trivial
  | load next ih => exact .inr trivial

variable {χ : Type}

/-- Run a body to its end, never dropped, with the outcomes and the loaded values given. Total:
a body returns after finitely many awaits. -/
def exec (serve : ω → χ → σ → ρ × σ) (choose : Nat → χ) (loaded : Nat → η) :
    Async σ ω ρ η α → Nat → σ → α × σ
  | done value, _, s => (value, s)
  | get next, n, s => (next s).exec serve choose loaded n s
  | put state next, n, _ => next.exec serve choose loaded n state
  | await op next, n, s =>
      let served := serve op (choose n) s
      (next served.1).exec serve choose loaded (n + 1) served.2
  | load next, n, s => (next (loaded n)).exec serve choose loaded (n + 1) s

end Async

/-- What a critical section must respect: `serve` runs an awaited operation with one of its
outcomes, `dropped` is what the next holder must find, `always` what holds whenever another task
can look, and `guar` bounds what one step may change. -/
structure Discipline (σ ω ρ χ : Type) where
  serve : ω → χ → σ → ρ × σ
  always : σ → Prop
  dropped : σ → Prop
  mayDrop : ω → σ → Prop
  guar : σ → σ → Prop

namespace Async
variable {σ ω ρ η α β χ : Type} (D : Discipline σ ω ρ χ)

/-- The last argument is the value just loaded, if nothing was awaited since. -/
def Safe (post : α → σ → Option η → Prop) : Async σ ω ρ η α → σ → Option η → Prop
  | done value, s, seen => post value s seen
  | get next, s, seen => (next s).Safe post s seen
  | put state next, s, seen => D.guar s state ∧ next.Safe post state seen
  | await op next, s, _ =>
      D.always s ∧ (D.mayDrop op s → D.dropped s) ∧
      ∀ c, (D.mayDrop op s → D.dropped (D.serve op c s).2) ∧ D.guar s (D.serve op c s).2 ∧
        (next (D.serve op c s).1).Safe post (D.serve op c s).2 none
  | load next, s, _ => D.always s ∧ ∀ value, (next value).Safe post s (some value)

variable {D} {post : α → σ → Option η → Prop} {s : σ} {seen : Option η}

@[simp] theorem safe_pure (value : α) :
    Safe D post (pure value : Async σ ω ρ η α) s seen ↔ post value s seen := Iff.rfl

@[simp] theorem safe_read {post : σ → σ → Option η → Prop} :
    Safe D post (read : Async σ ω ρ η σ) s seen ↔ post s s seen := Iff.rfl

@[simp] theorem safe_modify {post : Unit → σ → Option η → Prop} (f : σ → σ) :
    Safe D post (modify f : Async σ ω ρ η Unit) s seen ↔ D.guar s (f s) ∧ post () (f s) seen :=
  Iff.rfl

@[simp] theorem safe_observe {post : η → σ → Option η → Prop} :
    Safe D post (observe : Async σ ω ρ η η) s seen ↔
      D.always s ∧ ∀ value, post value s (some value) := Iff.rfl

theorem safe_perform {post : ρ → σ → Option η → Prop} (op : ω) :
    Safe D post (perform op : Async σ ω ρ η ρ) s seen ↔
      D.always s ∧ (D.mayDrop op s → D.dropped s) ∧
      ∀ c, (D.mayDrop op s → D.dropped (D.serve op c s).2) ∧ D.guar s (D.serve op c s).2 ∧
        post (D.serve op c s).1 (D.serve op c s).2 none := Iff.rfl

@[simp] theorem safe_bind {post : β → σ → Option η → Prop} (m : Async σ ω ρ η α)
    (f : α → Async σ ω ρ η β) :
    Safe D post (m >>= f) s seen ↔
      Safe D (fun value s seen => Safe D post (f value) s seen) m s seen := by
  change Safe D post (m.bind f) s seen ↔ _
  induction m generalizing s seen with
  | done value => rfl
  | get next ih => exact ih s
  | put state next ih => exact and_congr_right fun _ => ih
  | await op next ih =>
      exact and_congr_right fun _ => and_congr_right fun _ => forall_congr' fun _ =>
        and_congr_right fun _ => and_congr_right fun _ => ih _
  | load next ih => exact and_congr_right fun _ => forall_congr' fun value => ih value

theorem Safe.weaken {post' : α → σ → Option η → Prop} {m : Async σ ω ρ η α}
    (implies : ∀ value s seen, post value s seen → post' value s seen)
    (safe : Safe D post m s seen) : Safe D post' m s seen := by
  induction m generalizing s seen with
  | done value => exact implies _ _ _ safe
  | get next ih => exact ih s safe
  | put state next ih => exact ⟨safe.1, ih safe.2⟩
  | await op next ih =>
      exact ⟨safe.1, safe.2.1, fun c => ⟨(safe.2.2 c).1, (safe.2.2 c).2.1, ih _ (safe.2.2 c).2.2⟩⟩
  | load next ih => exact ⟨safe.1, fun value => ih value (safe.2 value)⟩

theorem Safe.remember {m : Async σ ω ρ η α} (refl : ∀ s, D.guar s s)
    (trans : ∀ {a b c}, D.guar a b → D.guar b c → D.guar a c) (safe : Safe D post m s seen) :
    Safe D (fun value s' seen' => post value s' seen' ∧ D.guar s s') m s seen := by
  induction m generalizing s seen with
  | done value => exact ⟨safe, refl s⟩
  | get next ih => exact ih s safe
  | put state next ih =>
      exact ⟨safe.1, (ih safe.2).weaken fun _ _ _ kept => ⟨kept.1, trans safe.1 kept.2⟩⟩
  | await op next ih =>
      refine ⟨safe.1, safe.2.1, fun c => ⟨(safe.2.2 c).1, (safe.2.2 c).2.1, ?_⟩⟩
      exact (ih _ (safe.2.2 c).2.2).weaken fun _ _ _ kept => ⟨kept.1, trans (safe.2.2 c).2.1 kept.2⟩
  | load next ih => exact ⟨safe.1, fun value => ih value (safe.2 value)⟩

theorem Safe.advance {m : Async σ ω ρ η α} (refl : ∀ s, D.guar s s)
    (trans : ∀ {a b c}, D.guar a b → D.guar b c → D.guar a c) (safe : Safe D post m s seen) :
    D.guar s (m.advance s).1 ∧ Safe D post (m.advance s).2 (m.advance s).1 seen := by
  induction m generalizing s seen with
  | done value => exact ⟨refl s, safe⟩
  | get next ih => exact ih s safe
  | put state next ih =>
      obtain ⟨moved, rest⟩ := ih safe.2
      exact ⟨trans safe.1 moved, rest⟩
  | await op next ih => exact ⟨refl s, safe⟩
  | load next ih => exact ⟨refl s, safe⟩

theorem Safe.always {m : Async σ ω ρ η α} (paused : m.Paused) (safe : Safe D post m s seen) :
    D.always s := by
  cases m with
  | await op next => exact safe.1
  | load next => exact safe.1
  | done value => exact paused.elim
  | get next => exact paused.elim
  | put state next => exact paused.elim

theorem Safe.exec {m : Async σ ω ρ η α} (safe : Safe D post m s seen) (choose : Nat → χ)
    (loaded : Nat → η) (n : Nat) :
    ∃ seen', post (m.exec D.serve choose loaded n s).1 (m.exec D.serve choose loaded n s).2 seen' := by
  induction m generalizing s seen n with
  | done value => exact ⟨seen, safe⟩
  | get next ih => exact ih s safe n
  | put state next ih => exact ih safe.2 n
  | await op next ih => exact ih _ (safe.2.2 (choose n)).2.2 (n + 1)
  | load next ih => exact ih _ (safe.2 (loaded n)) (n + 1)

end Async
end Wamux.Runs
