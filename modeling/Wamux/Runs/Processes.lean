import Mathlib.Logic.Relation
import Wamux.Runs.Transition

/-!
# Processes that share a world

A process is a program that makes one call after another on a world it shares with the others. Calls
of different processes interleave, each may go through or fail, and a process may be killed between
any two of its calls.

`Keeps` is the proof rule for one program among such others: from what every process promises to
change at most, the program keeps the invariant and its own promise.
-/

namespace Wamux.Runs

inductive Program {ω : Type} (reply : ω → Type) (α : Type) : Type where
  | done (value : α)
  | call (op : ω) (next : reply op → Program reply α)

namespace Program
variable {ω α β : Type} {reply : ω → Type}

def bind : Program reply α → (α → Program reply β) → Program reply β
  | done value, f => f value
  | call op next, f => call op fun answer => (next answer).bind f

instance : Monad (Program reply) where
  pure := done
  bind := bind

def ask (op : ω) : Program reply (reply op) := call op done

@[simp] theorem done_bind (value : α) (f : α → Program reply β) : (done value : Program reply α) >>= f = f value := rfl

@[simp] theorem pure_bind (value : α) (f : α → Program reply β) : (pure value : Program reply α) >>= f = f value := rfl

@[simp] theorem call_bind (op : ω) (next : reply op → Program reply α) (f : α → Program reply β) :
    call op next >>= f = call op fun answer => next answer >>= f := rfl

@[simp] theorem ask_bind (op : ω) (f : reply op → Program reply β) : ask op >>= f = call op f := rfl

end Program

inductive Process {ω : Type} (reply : ω → Type) (α : Type) : Type where
  | idle
  | running (code : Program reply α)
  | ended (result : Option α)

/-- What the processes run, and what the world makes of their calls, of a start, and of what a
process leaves when it ends. -/
structure Processes (π σ χ ε α : Type) {ω : Type} (reply : ω → Type) where
  initial : σ
  code : π → Program reply α
  perform : π → (op : ω) → χ → σ → Option (reply op × σ)
  start : π → σ → Option σ
  leave : π → σ → σ
  outside : ε → σ → σ

namespace Processes
variable {π σ χ ε α ω : Type} {reply : ω → Type} [DecidableEq π]

structure State (π σ : Type) {ω : Type} (reply : ω → Type) (α : Type) where
  world : σ
  process : π → Process reply α

def State.set (s : State π σ reply α) (p : π) (process : Process reply α) (world : σ) : State π σ reply α :=
  ⟨world, Function.update s.process p process⟩

inductive Event (π χ ε : Type) where
  | start (p : π)
  | call (p : π) (choice : χ)
  | exit (p : π)
  | kill (p : π)
  | outside (event : ε)

variable (P : Processes π σ χ ε α reply)

def step (s : State π σ reply α) : Event π χ ε → Option (State π σ reply α)
  | .start p => match s.process p with
    | .idle => (P.start p s.world).map (s.set p (.running (P.code p)))
    | _ => none
  | .call p choice => match s.process p with
    | .running (.call op next) =>
        (P.perform p op choice s.world).map fun answered => s.set p (.running (next answered.1)) answered.2
    | _ => none
  | .exit p => match s.process p with
    | .running (.done value) => some (s.set p (.ended (some value)) (P.leave p s.world))
    | _ => none
  | .kill p => match s.process p with
    | .running _ => some (s.set p (.ended none) (P.leave p s.world))
    | _ => none
  | .outside event => some { s with world := P.outside event s.world }

def machine : Machine (State π σ reply α) (Event π χ ε) := ⟨⟨P.initial, fun _ => .idle⟩, P.step⟩

end Processes

/-! ## Rules -/

inductive Label (ω : Type) where
  | start
  | call (op : ω)
  | leave

/-- What a process may change in one step, what may change from outside, and what holds of the
world throughout. -/
structure Promises (π σ ω ε : Type) where
  invariant : σ → Prop
  changes : π → Label ω → σ → σ → Prop
  drifts : ε → σ → σ → Prop

namespace Promises
variable {π σ χ ε α β ω : Type} {reply : ω → Type}

def Other (R : Promises π σ ω ε) (p : π) (s s' : σ) : Prop :=
  R.invariant s ∧ R.invariant s' ∧ ((∃ q label, q ≠ p ∧ R.changes q label s s') ∨ ∃ event, R.drifts event s s')

def Stable (R : Promises π σ ω ε) (p : π) (held : σ → Prop) : Prop :=
  ∀ s s', R.Other p s s' → held s → held s'

variable {R : Promises π σ ω ε} {p : π}

theorem Stable.and {held held' : σ → Prop} (first : R.Stable p held) (second : R.Stable p held') :
    R.Stable p fun s => held s ∧ held' s :=
  fun s s' other both => ⟨first s s' other both.1, second s s' other both.2⟩

theorem Stable.many {held : σ → Prop} (stable : R.Stable p held) {s s' : σ}
    (others : Relation.ReflTransGen (R.Other p) s s') (now : held s) : held s' := by
  induction others with
  | refl => exact now
  | tail _ other ih => exact stable _ _ other ih

variable (R) in
/-- Whatever the others do in between, every call of the program keeps the invariant and the
promise of its process, and its result comes with the postcondition. -/
def Keeps (perform : π → (op : ω) → χ → σ → Option (reply op × σ)) (p : π) (post : α → σ → Prop) :
    Program reply α → σ → Prop
  | .done value, s => ∀ s', Relation.ReflTransGen (R.Other p) s s' → R.invariant s' → post value s'
  | .call op next, s => ∀ s', Relation.ReflTransGen (R.Other p) s s' → R.invariant s' →
      ∀ choice answer s'', perform p op choice s' = some (answer, s'') →
        R.invariant s'' ∧ R.changes p (.call op) s' s'' ∧ Keeps perform p post (next answer) s''

variable {perform : π → (op : ω) → χ → σ → Option (reply op × σ)} {post : α → σ → Prop}

theorem keeps_done {held : σ → Prop} {value : α} {s : σ} (now : held s) (stable : R.Stable p held)
    (enough : ∀ s', R.invariant s' → held s' → post value s') : R.Keeps perform p post (.done value) s :=
  fun s' others inv => enough s' inv (stable.many others now)

theorem keeps_call {held : σ → Prop} {op : ω} {next : reply op → Program reply α} {s : σ} (now : held s)
    (stable : R.Stable p held)
    (calls : ∀ s', R.invariant s' → held s' → ∀ choice answer s'', perform p op choice s' = some (answer, s'') →
      R.invariant s'' ∧ R.changes p (.call op) s' s'' ∧ R.Keeps perform p post (next answer) s'') :
    R.Keeps perform p post (.call op next) s :=
  fun s' others inv => calls s' inv (stable.many others now)

theorem keeps_ask {held : σ → Prop} {op : ω} {f : reply op → Program reply α} {s : σ} (now : held s)
    (stable : R.Stable p held)
    (calls : ∀ s', R.invariant s' → held s' → ∀ choice answer s'', perform p op choice s' = some (answer, s'') →
      (R.invariant s'' ∧ R.changes p (.call op) s' s'') ∧ (R.invariant s'' → R.Keeps perform p post (f answer) s'')) :
    R.Keeps perform p post (Program.ask op >>= f) s := by
  refine keeps_call now stable ?_
  intro s' inv held' choice answer s'' performed
  obtain ⟨⟨inv', changed⟩, rest⟩ := calls s' inv held' choice answer s'' performed
  exact ⟨inv', changed, rest inv'⟩

theorem keeps_return {held : σ → Prop} {value : α} {s : σ} (now : held s) (stable : R.Stable p held)
    (enough : ∀ s', R.invariant s' → held s' → post value s') :
    R.Keeps perform p post (pure value : Program reply α) s := keeps_done now stable enough

theorem Keeps.interfered {m : Program reply α} {s s' : σ} (keeps : R.Keeps perform p post m s)
    (other : R.Other p s s') : R.Keeps perform p post m s' := by
  cases m with
  | done value => exact fun s'' others inv => keeps s'' (.head other others) inv
  | call op next => exact fun s'' others inv => keeps s'' (.head other others) inv

theorem Keeps.weaken {post' : α → σ → Prop} (implies : ∀ value s, R.invariant s → post value s → post' value s)
    {m : Program reply α} {s : σ} (keeps : R.Keeps perform p post m s) : R.Keeps perform p post' m s := by
  induction m generalizing s with
  | done value => exact fun s' others inv => implies value s' inv (keeps s' others inv)
  | call op next ih =>
      intro s' others inv choice answer s'' performed
      obtain ⟨kept, changed, rest⟩ := keeps s' others inv choice answer s'' performed
      exact ⟨kept, changed, ih answer rest⟩

theorem Keeps.bind {f : β → Program reply α} {m : Program reply β} {s : σ} (inv : R.invariant s)
    (keeps : R.Keeps perform p (fun value s => R.Keeps perform p post (f value) s) m s) :
    R.Keeps perform p post (m >>= f) s := by
  induction m generalizing s with
  | done value => exact keeps s .refl inv
  | call op next ih =>
      intro s' others inv choice answer s'' performed
      obtain ⟨kept, changed, rest⟩ := keeps s' others inv choice answer s'' performed
      exact ⟨kept, changed, ih answer kept rest⟩

end Promises

/-! ## Runs of all the processes -/

namespace Processes
variable {π σ χ ε α ω : Type} {reply : ω → Type} [DecidableEq π]
variable {P : Processes π σ χ ε α reply} {R : Promises π σ ω ε} {joins : π → σ → Prop} {post : π → α → σ → Prop}

/-- Each program keeps its promise by itself, if it starts in a world it may join. -/
structure Sound (P : Processes π σ χ ε α reply) (R : Promises π σ ω ε) (joins : π → σ → Prop)
    (post : π → α → σ → Prop) : Prop where
  initial : R.invariant P.initial
  start : ∀ p s s', R.invariant s → joins p s → P.start p s = some s' →
    R.invariant s' ∧ R.changes p .start s s' ∧ R.Keeps P.perform p (post p) (P.code p) s'
  leave : ∀ p s, R.invariant s → R.invariant (P.leave p s) ∧ R.changes p .leave s (P.leave p s)
  outside : ∀ event s, R.invariant s → R.invariant (P.outside event s) ∧ R.drifts event s (P.outside event s)

def Joins (joins : π → σ → Prop) (s : State π σ reply α) : Event π χ ε → Prop
  | .start p => joins p s.world
  | _ => True

def Permits (R : Promises π σ ω ε) (s : State π σ reply α) (s' : σ) : Event π χ ε → Prop
  | .start p => R.changes p .start s.world s'
  | .call p _ => ∃ op next, s.process p = .running (.call op next) ∧ R.changes p (.call op) s.world s'
  | .exit p | .kill p => R.changes p .leave s.world s'
  | .outside event => R.drifts event s.world s'

def Kept (P : Processes π σ χ ε α reply) (R : Promises π σ ω ε) (post : π → α → σ → Prop)
    (s : State π σ reply α) : Prop :=
  R.invariant s.world ∧ ∀ p code, s.process p = .running code → R.Keeps P.perform p (post p) code s.world

theorem Kept.set {s : State π σ reply α} {p : π} {label : Label ω} {process : Process reply α} {world : σ}
    (kept : Kept P R post s) (inv : R.invariant world) (changed : R.changes p label s.world world)
    (own : ∀ code, process = .running code → R.Keeps P.perform p (post p) code world) :
    Kept P R post (s.set p process world) := by
  refine ⟨inv, ?_⟩
  intro q code running
  by_cases same : q = p
  · subst same
    simp only [State.set, Function.update_self] at running
    exact own code running
  · simp only [State.set, Function.update_of_ne same] at running
    exact (kept.2 q code running).interfered ⟨kept.1, inv, .inl ⟨p, label, Ne.symm same, changed⟩⟩

theorem Kept.step (sound : P.Sound R joins post) {s s' : State π σ reply α} {e : Event π χ ε} (kept : Kept P R post s)
    (joined : Joins joins s e) (moved : P.step s e = some s') : Kept P R post s' ∧ Permits R s s'.world e := by
  cases e with
  | start p =>
      simp only [Processes.step] at moved
      split at moved
      · obtain ⟨world, started, rfl⟩ := Option.map_eq_some_iff.1 moved
        obtain ⟨inv, changed, keeps⟩ := sound.start p _ _ kept.1 joined started
        refine ⟨kept.set inv changed ?_, changed⟩
        rintro code ⟨⟩
        exact keeps
      · cases moved
  | call p choice =>
      simp only [Processes.step] at moved
      split at moved
      · rename_i op next running
        obtain ⟨⟨answer, world⟩, performed, rfl⟩ := Option.map_eq_some_iff.1 moved
        obtain ⟨inv, changed, keeps⟩ := kept.2 p _ running _ .refl kept.1 choice answer world performed
        refine ⟨kept.set inv changed ?_, op, next, running, changed⟩
        rintro code ⟨⟩
        exact keeps
      · cases moved
  | exit p =>
      simp only [Processes.step] at moved
      split at moved
      · cases moved
        obtain ⟨inv, changed⟩ := sound.leave p _ kept.1
        exact ⟨kept.set inv changed (by rintro code ⟨⟩), changed⟩
      · cases moved
  | kill p =>
      simp only [Processes.step] at moved
      split at moved
      · cases moved
        obtain ⟨inv, changed⟩ := sound.leave p _ kept.1
        exact ⟨kept.set inv changed (by rintro code ⟨⟩), changed⟩
      · cases moved
  | outside event =>
      cases moved
      obtain ⟨inv, drifted⟩ := sound.outside event _ kept.1
      refine ⟨⟨inv, ?_⟩, drifted⟩
      intro p code running
      exact (kept.2 p code running).interfered ⟨kept.1, inv, .inr ⟨event, drifted⟩⟩

theorem kept_of_reaches (sound : P.Sound R joins post) {s : State π σ reply α}
    (reaches : P.machine.Reaches (Joins joins) s) : Kept P R post s := by
  refine reaches.invariant (Kept P R post) ⟨sound.initial, ?_⟩ ?_
  · rintro p code ⟨⟩
  · intro s e s' kept joined moved
    exact (kept.step sound joined moved).1

/-- An invariant of the world that the promises keep by themselves. -/
theorem invariant_of_promises (sound : P.Sound R joins post) {allowed : State π σ reply α → Event π χ ε → Prop}
    (joined : ∀ s e, allowed s e → Joins joins s e) (held : σ → Prop) (initial : held P.initial)
    (step : ∀ s e s', R.invariant s.world → R.invariant s' → held s.world → allowed s e → Permits R s s' e → held s')
    {s : State π σ reply α} (reaches : P.machine.Reaches allowed s) : held s.world := by
  refine (reaches.invariant (fun s => Kept P R post s ∧ held s.world) ⟨⟨sound.initial, ?_⟩, initial⟩ ?_).2
  · rintro p code ⟨⟩
  · rintro s e s' ⟨kept, now⟩ permitted moved
    obtain ⟨kept', changed⟩ := kept.step sound (joined s e permitted) moved
    exact ⟨kept', step s e s'.world kept.1 kept'.1 now permitted changed⟩

/-! ## A process left to itself -/

inductive Goes {β : Type} (P : Processes π σ χ ε α reply) (p : π) (choice : χ) (code' : Program reply β) (s' : σ) :
    Program reply β → σ → Prop where
  | here : Goes P p choice code' s' code' s'
  | call {op : ω} {next : reply op → Program reply β} {answer : reply op} {s middle : σ}
      (performed : P.perform p op choice s = some (answer, middle)) (rest : Goes P p choice code' s' (next answer) middle) :
      Goes P p choice code' s' (.call op next) s

variable {p : π} {choice : χ} {s s' middle : σ}

omit [DecidableEq π] in
theorem Goes.bind {β γ : Type} {m : Program reply β} {value : β} {f : β → Program reply γ} {code' : Program reply γ}
    (first : Goes P p choice (.done value) middle m s) (rest : Goes P p choice code' s' (f value) middle) :
    Goes P p choice code' s' (m >>= f) s := by
  induction first with
  | here => exact rest
  | call performed _ ih => exact .call performed ih

theorem Goes.leads {code code' : Program reply α} {state : State π σ reply α} (goes : Goes P p choice code' s' code s)
    (running : state.process p = .running code) (world : state.world = s) :
    ∃ state', P.machine.Leads (fun _ e => e = .call p choice) state state' ∧ state'.process p = .running code' ∧
      state'.world = s' := by
  induction goes generalizing state with
  | here => exact ⟨state, .here, running, world⟩
  | @call op next answer s middle performed _ ih =>
      have running' : (state.set p (.running (next answer)) middle).process p = .running (next answer) :=
        Function.update_self _ _ _
      obtain ⟨state', leads, at', world'⟩ := ih running' rfl
      refine ⟨state', leads.after rfl ?_, at', world'⟩
      simp only [machine, step, running, world, performed, Option.map_some]

end Processes
end Wamux.Runs
