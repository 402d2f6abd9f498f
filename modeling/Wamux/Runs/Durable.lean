import Mathlib.Data.List.Basic

/-!
# Programs that commit

A program over a durable store leaves a new store behind at each commit, and can be stopped after
any of them. A program is what it leaves, commit by commit, and what it answers.
-/

namespace Wamux.Runs

def Durable (σ ε α : Type) := σ → List σ × Except ε α

namespace Durable
variable {σ ε α β : Type}

protected def pure (a : α) : Durable σ ε α := fun _ => ([], .ok a)

protected def bind (m : Durable σ ε α) (next : α → Durable σ ε β) : Durable σ ε β := fun s =>
  match m s with
  | (commits, .error e) => (commits, .error e)
  | (commits, .ok a) =>
      let rest := next a (commits.getLastD s)
      (commits ++ rest.1, rest.2)

instance : Monad (Durable σ ε) where
  pure := Durable.pure
  bind := Durable.bind

def fail (e : ε) : Durable σ ε α := fun _ => ([], .error e)

def store : Durable σ ε σ := fun s => ([], .ok s)

def commit (s : σ) : Durable σ ε Unit := fun _ => ([s], .ok ())

def ofExcept : Except ε α → Durable σ ε α
  | .ok a => .pure a
  | .error e => fail e

/-- A transaction: all of it, or an error and nothing. -/
def transact (body : σ → Except ε σ) : Durable σ ε Unit := fun s =>
  match body s with
  | .ok s' => ([s'], .ok ())
  | .error e => ([], .error e)

/-- What is left when the program ends, and when it is stopped after `n` commits. -/
def final (m : Durable σ ε α) (s : σ) : σ := (m s).1.getLastD s

def stopped (m : Durable σ ε α) (n : Nat) (s : σ) : σ := ((m s).1.take n).getLastD s

def answer (m : Durable σ ε α) (s : σ) : Except ε α := (m s).2

/-- From this store every commit leaves a store in `inv`, and an answer comes with `post`. -/
structure Always (m : Durable σ ε α) (s : σ) (inv : σ → Prop) (post : α → σ → Prop) : Prop where
  commits : ∀ s' ∈ (m s).1, inv s'
  answers : ∀ a, (m s).2 = .ok a → post a ((m s).1.getLastD s)

def Answers (m : Durable σ ε α) (s : σ) : Prop := ∃ a, (m s).2 = .ok a

def Refuses (m : Durable σ ε α) (s : σ) : Prop := ∃ e, m s = ([], .error e)

variable {m : Durable σ ε α} {s : σ} {inv : σ → Prop} {post : α → σ → Prop}

theorem getLastD_append (first second : List σ) (s : σ) :
    (first ++ second).getLastD s = second.getLastD (first.getLastD s) := by
  induction first generalizing s with
  | nil => rfl
  | cons head tail ih =>
      rw [List.cons_append, List.getLastD_cons, ih, List.getLastD_cons]

theorem getLastD_mem (commits : List σ) (s : σ) : commits.getLastD s = s ∨ commits.getLastD s ∈ commits := by
  induction commits generalizing s with
  | nil => exact .inl rfl
  | cons head tail ih =>
      rw [List.getLastD_cons]
      rcases ih head with same | member
      · rw [same]
        exact .inr List.mem_cons_self
      · exact .inr (List.mem_cons_of_mem _ member)

theorem bind_error {next : α → Durable σ ε β} {e : ε} (failed : (m s).2 = .error e) :
    (m >>= next) s = ((m s).1, .error e) := by
  show Durable.bind m next s = _
  unfold Durable.bind
  cases ran : m s with
  | mk commits answer =>
      rw [ran] at failed
      cases failed
      rfl

theorem bind_ok {next : α → Durable σ ε β} {a : α} (answered : (m s).2 = .ok a) :
    (m >>= next) s = ((m s).1 ++ (next a (m.final s)).1, (next a (m.final s)).2) := by
  show Durable.bind m next s = _
  unfold Durable.bind Durable.final
  cases ran : m s with
  | mk commits answer =>
      rw [ran] at answered
      cases answered
      rfl

theorem store_bind {next : σ → Durable σ ε β} : (store >>= next) s = next s s := by
  rw [bind_ok rfl]
  rfl

theorem ofExcept_bind {next : α → Durable σ ε β} {a : α} : (ofExcept (.ok a) >>= next) s = next a s := by
  rw [bind_ok rfl]
  rfl

namespace Always

theorem pure {a : α} (now : post a s) : Always (Pure.pure a : Durable σ ε α) s inv post where
  commits := by simp [Pure.pure, Durable.pure]
  answers := by
    intro b same
    cases same
    exact now

theorem fail {e : ε} : Always (fail e : Durable σ ε α) s inv post where
  commits := by simp [Durable.fail]
  answers := by
    intro b same
    cases same

theorem store {post : σ → σ → Prop} (now : post s s) : Always (store : Durable σ ε σ) s inv post where
  commits := by simp [Durable.store]
  answers := by
    intro b same
    cases same
    exact now

theorem commit {s' : σ} {post : Unit → σ → Prop} (kept : inv s') (now : post () s') :
    Always (commit s' : Durable σ ε Unit) s inv post where
  commits := by simpa [Durable.commit] using kept
  answers := by
    intro b same
    exact now

theorem ofExcept {answer : Except ε α} (now : ∀ a, answer = .ok a → post a s) :
    Always (ofExcept answer : Durable σ ε α) s inv post := by
  cases answer with
  | ok a => exact pure (now a rfl)
  | error e => exact fail

theorem transact {body : σ → Except ε σ} {post : Unit → σ → Prop}
    (now : ∀ s', body s = .ok s' → inv s' ∧ post () s') :
    Always (transact body : Durable σ ε Unit) s inv post := by
  unfold Durable.transact
  cases ran : body s with
  | ok s' =>
      obtain ⟨kept, after⟩ := now s' ran
      constructor
      · simpa [ran] using kept
      · intro b _
        simpa [ran] using after
  | error e => constructor <;> simp [ran]

theorem bind {next : α → Durable σ ε β} (middle : α → σ → Prop) {post : β → σ → Prop}
    (first : Always m s inv middle) (then' : ∀ a s', middle a s' → Always (next a) s' inv post) :
    Always (m >>= next) s inv post := by
  cases answered : (m s).2 with
  | error e =>
      constructor
      · rw [bind_error answered]
        exact first.commits
      · rw [bind_error answered]
        intro b same
        cases same
  | ok a =>
      have rest := then' a _ (first.answers a answered)
      constructor
      · rw [bind_ok answered]
        intro s' member
        rcases List.mem_append.1 member with before | after
        · exact first.commits s' before
        · exact rest.commits s' after
      · rw [bind_ok answered]
        intro b same
        rw [getLastD_append]
        exact rest.answers b same

theorem weaken {inv' : σ → Prop} {post' : α → σ → Prop} (always : Always m s inv post)
    (keeps : ∀ s, inv s → inv' s) (ends : ∀ a s, post a s → post' a s) : Always m s inv' post' where
  commits := fun s' member => keeps s' (always.commits s' member)
  answers := fun a same => ends a _ (always.answers a same)

theorem stopped (always : Always m s inv post) (now : inv s) (n : Nat) : inv (m.stopped n s) := by
  rcases getLastD_mem ((m s).1.take n) s with same | member
  · rw [Durable.stopped, same]
    exact now
  · exact always.commits _ (List.mem_of_mem_take member)

theorem final (always : Always m s inv post) (now : inv s) : inv (m.final s) := by
  rcases getLastD_mem (m s).1 s with same | member
  · rw [Durable.final, same]
    exact now
  · exact always.commits _ member

end Always

/-! ## Where a program is stopped -/

theorem final_eq_stopped (m : Durable σ ε α) (s : σ) : m.final s = m.stopped (m s).1.length s := by
  rw [final, stopped, List.take_length]

theorem stopped_of_length_le {n : Nat} (all : (m s).1.length ≤ n) : m.stopped n s = m.final s := by
  rw [final, stopped, List.take_of_length_le all]

theorem final_bind_ok {next : α → Durable σ ε β} {a : α} (answered : (m s).2 = .ok a) :
    (m >>= next).final s = (next a).final (m.final s) := by
  rw [final, bind_ok answered, getLastD_append]
  rfl

theorem stopped_bind_early {next : α → Durable σ ε β} {n : Nat} (within : n ≤ (m s).1.length) :
    (m >>= next).stopped n s = m.stopped n s := by
  unfold Durable.stopped
  cases answered : (m s).2 with
  | error e => rw [bind_error answered]
  | ok a => rw [bind_ok answered, List.take_append_of_le_length within]

theorem stopped_bind_late {next : α → Durable σ ε β} {a : α} {n : Nat} (answered : (m s).2 = .ok a)
    (beyond : (m s).1.length ≤ n) :
    (m >>= next).stopped n s = (next a).stopped (n - (m s).1.length) (m.final s) := by
  unfold Durable.stopped
  rw [bind_ok answered, List.take_append, List.take_of_length_le beyond, getLastD_append]
  rfl

theorem stopped_bind_error {next : α → Durable σ ε β} {e : ε} (failed : (m s).2 = .error e) (n : Nat) :
    (m >>= next).stopped n s = m.stopped n s := by
  unfold Durable.stopped
  rw [bind_error failed]

/-- Stopped before its `k`-th commit, or failing, the program leaves a store in `inv`; a program that
answers has made `k` commits. -/
structure Counts (m : Durable σ ε α) (s : σ) (k : Nat) (inv : σ → Prop) (post : α → σ → Prop) : Prop where
  early : ∀ n, n < k → inv (m.stopped n s)
  fails : ∀ e, (m s).2 = .error e → ∀ n, inv (m.stopped n s)
  answers : ∀ a, (m s).2 = .ok a → (m s).1.length = k ∧ post a (m.final s)

namespace Counts
variable {k j : Nat}

theorem pure {a : α} (now : post a s) : Counts (Pure.pure a : Durable σ ε α) s 0 inv post where
  early := by simp
  fails := by
    intro e failed
    cases failed
  answers := by
    intro b same
    cases same
    exact ⟨rfl, now⟩

theorem store {post : σ → σ → Prop} (now : post s s) : Counts (store : Durable σ ε σ) s 0 inv post where
  early := by simp
  fails := by
    intro e failed
    cases failed
  answers := by
    intro b same
    cases same
    exact ⟨rfl, now⟩

theorem fail {e : ε} (before : inv s) : Counts (fail e : Durable σ ε α) s 0 inv post where
  early := by simp
  fails := by
    intro _ _ n
    simp only [Durable.stopped, Durable.fail, List.take_nil]
    exact before
  answers := by
    intro b same
    cases same

theorem ofExcept {answer : Except ε α} (before : inv s) (now : ∀ a, answer = .ok a → post a s) :
    Counts (ofExcept answer : Durable σ ε α) s 0 inv post := by
  cases answer with
  | ok a => exact pure (now a rfl)
  | error e => exact fail before

theorem transact {body : σ → Except ε σ} {post : Unit → σ → Prop} (before : inv s)
    (now : ∀ s', body s = .ok s' → post () s') : Counts (transact body : Durable σ ε Unit) s 1 inv post := by
  constructor
  case early =>
    intro n none
    rw [show n = 0 by omega]
    exact before
  case fails =>
    intro e failed n
    cases ran : body s with
    | ok s' => simp [Durable.transact, ran] at failed
    | error e =>
        simp only [Durable.stopped, Durable.transact, ran, List.take_nil]
        exact before
  case answers =>
    intro b answered
    cases ran : body s with
    | ok s' =>
        simp only [Durable.final, Durable.transact, ran]
        exact ⟨rfl, now s' ran⟩
    | error e => simp [Durable.transact, ran] at answered

theorem bind {next : α → Durable σ ε β} (middle : α → σ → Prop) {post : β → σ → Prop}
    (first : Counts m s k inv middle) (then' : ∀ a s', middle a s' → Counts (next a) s' j inv post) :
    Counts (m >>= next) s (k + j) inv post := by
  cases answered : (m s).2 with
  | error e =>
      have stays (n : Nat) : inv ((m >>= next).stopped n s) := by
        rw [stopped_bind_error answered]
        exact first.fails e answered n
      refine ⟨fun n _ => stays n, fun _ _ n => stays n, ?_⟩
      rw [bind_error answered]
      intro b same
      cases same
  | ok a =>
      obtain ⟨length, here⟩ := first.answers a answered
      have rest := then' a _ here
      constructor
      case early =>
        intro n before
        by_cases within : n < k
        · rw [stopped_bind_early (by omega)]
          exact first.early n within
        · rw [stopped_bind_late answered (by omega)]
          exact rest.early _ (by omega)
      case fails =>
        intro e failed n
        rw [bind_ok answered] at failed
        by_cases within : n < k
        · rw [stopped_bind_early (by omega)]
          exact first.early n within
        · rw [stopped_bind_late answered (by omega)]
          exact rest.fails e failed _
      case answers =>
        intro b same
        rw [bind_ok answered] at same
        obtain ⟨length', after⟩ := rest.answers b same
        rw [final, bind_ok answered, List.length_append, length, length', getLastD_append]
        exact ⟨rfl, after⟩

theorem after {next : α → Durable σ ε β} (middle : α → σ → Prop) {post : β → σ → Prop}
    (first : Counts m s 0 inv middle) (then' : ∀ a s', middle a s' → Counts (next a) s' j inv post) :
    Counts (m >>= next) s j inv post := by
  have both := first.bind middle then'
  rwa [Nat.zero_add] at both

theorem weaken {inv' : σ → Prop} {post' : α → σ → Prop} (counts : Counts m s k inv post)
    (keeps : ∀ s, inv s → inv' s) (ends : ∀ a s, post a s → post' a s) : Counts m s k inv' post' where
  early := fun n before => keeps _ (counts.early n before)
  fails := fun e failed n => keeps _ (counts.fails e failed n)
  answers := fun a answered => ⟨(counts.answers a answered).1, ends a _ (counts.answers a answered).2⟩

/-- Wherever the program is stopped, it is before its last commit or has answered. -/
theorem always (counts : Counts m s k inv post) : Always m s (fun s' => inv s' ∨ ∃ a, post a s') post where
  commits := by
    intro s' member
    obtain ⟨i, below, rfl⟩ := List.getElem_of_mem member
    have here : m.stopped (i + 1) s = (m s).1[i] := by
      rw [Durable.stopped, List.take_succ_eq_append_getElem below, getLastD_append]
      rfl
    rw [← here]
    cases answered : (m s).2 with
    | error e => exact .inl (counts.fails e answered _)
    | ok a =>
        obtain ⟨length, after⟩ := counts.answers a answered
        by_cases last : i + 1 = k
        · rw [final_eq_stopped, length, ← last] at after
          exact .inr ⟨a, after⟩
        · exact .inl (counts.early _ (by omega))
  answers := fun a answered => (counts.answers a answered).2

end Counts

theorem Answers.bind {next : α → Durable σ ε β} {middle : α → σ → Prop} (first : Always m s inv middle)
    (answers : Answers m s) (then' : ∀ a s', middle a s' → Answers (next a) s') : Answers (m >>= next) s := by
  obtain ⟨a, answered⟩ := answers
  obtain ⟨b, rest⟩ := then' a _ (first.answers a answered)
  refine ⟨b, ?_⟩
  rw [bind_ok answered]
  exact rest

theorem Answers.seq {next : α → Durable σ ε β} (answers : Answers m s) (then' : ∀ a s', Answers (next a) s') :
    Answers (m >>= next) s := by
  have anywhere : Always m s (fun _ => True) fun _ _ => True := ⟨fun _ _ => trivial, fun _ _ => trivial⟩
  exact Answers.bind anywhere answers fun a s' _ => then' a s'

theorem Refuses.bind {next : α → Durable σ ε β} (first : Refuses m s) : Refuses (m >>= next) s := by
  obtain ⟨e, refused⟩ := first
  have failed : (m s).2 = .error e := by rw [refused]
  refine ⟨e, ?_⟩
  rw [bind_error failed, refused]

theorem Refuses.after {next : α → Durable σ ε β} {a : α} (first : m s = ([], .ok a)) (second : Refuses (next a) s) :
    Refuses (m >>= next) s := by
  obtain ⟨e, refused⟩ := second
  have answered : (m s).2 = .ok a := by rw [first]
  have same : m.final s = s := by rw [final, first]; rfl
  refine ⟨e, ?_⟩
  rw [bind_ok answered, same, refused, first]
  rfl

theorem Refuses.ofExcept {answer : Except ε α} (never : ∀ a, answer ≠ .ok a) :
    Refuses (ofExcept answer : Durable σ ε α) s := by
  cases answer with
  | ok a => exact absurd rfl (never a)
  | error e => exact ⟨e, rfl⟩

end Durable
end Wamux.Runs
