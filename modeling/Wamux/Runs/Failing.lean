import Mathlib.Data.List.Forall2

namespace Wamux.Runs.Failing
variable {ε α β σ : Type}

theorem bind_eq_ok {m : Except ε α} {next : α → Except ε β} {b : β} :
    (m >>= next) = .ok b ↔ ∃ a, m = .ok a ∧ next a = .ok b := by
  cases m with
  | error e => simp [bind, Except.bind]
  | ok a => simp [bind, Except.bind]

theorem map_eq_ok {f : α → β} {m : Except ε α} {b : β} : m.map f = .ok b ↔ ∃ a, m = .ok a ∧ f a = b := by
  cases m <;> simp [Except.map]

theorem mapError_eq_ok {ε' : Type} {f : ε → ε'} {m : Except ε α} {a : α} : m.mapError f = .ok a ↔ m = .ok a := by
  cases m <;> simp [Except.mapError]

theorem pure_eq_ok {a b : α} : (pure a : Except ε α) = .ok b ↔ a = b := by simp [pure, Except.pure]

theorem mapM_ok {f : α → Except ε β} {g : α → β} {items : List α} (all : ∀ item ∈ items, f item = .ok (g item)) :
    items.mapM f = .ok (items.map g) := by
  induction items with
  | nil => rfl
  | cons item rest ih =>
      rw [List.mapM_cons, all item (by simp), ih fun i member => all i (by simp [member])]
      rfl

theorem mapM_eq_ok {f : α → Except ε β} {items : List α} {results : List β} (ran : items.mapM f = .ok results) :
    List.Forall₂ (fun item result => f item = .ok result) items results := by
  induction items generalizing results with
  | nil =>
      cases ran
      exact .nil
  | cons item rest ih =>
      simp only [List.mapM_cons, bind_eq_ok, pure_eq_ok] at ran
      obtain ⟨result, first, others, ran, rfl⟩ := ran
      exact .cons first (ih ran)

theorem mapM_then {γ : Type} {f : α → Except ε β} {g : β → γ} (items : List α) :
    items.mapM (fun item => (f item).map g) = (items.mapM f).map (List.map g) := by
  induction items with
  | nil => rfl
  | cons item rest ih =>
      rw [List.mapM_cons, List.mapM_cons, ih]
      cases f item with
      | error e => rfl
      | ok first => cases rest.mapM f <;> rfl

theorem foldlM_keeps {f : σ → α → Except ε σ} {items : List α} (kept : σ → Prop)
    (step : ∀ s, ∀ item ∈ items, ∀ s', kept s → f s item = .ok s' → kept s') {s s' : σ} (now : kept s)
    (ran : items.foldlM f s = .ok s') : kept s' := by
  induction items generalizing s with
  | nil =>
      cases ran
      exact now
  | cons item rest ih =>
      rw [List.foldlM_cons, bind_eq_ok] at ran
      obtain ⟨middle, first, ran⟩ := ran
      exact ih (fun s i member => step s i (by simp [member])) (step s item (by simp) middle now first) ran

end Wamux.Runs.Failing

/-! ## Texts with a canonical form

A parser and a printer. Two texts are the same when they parse to one value; printing gives the value's
canonical text.
-/

namespace Wamux.Runs.Canonical

variable {τ ε α : Type} {parse : τ → Except ε α} {print : α → τ} {first second third : τ} {value : α}

def Same (parse : τ → Except ε α) (first second : τ) : Prop :=
  ∃ value, parse first = .ok value ∧ parse second = .ok value

def RoundTrips (parse : τ → Except ε α) (print : α → τ) : Prop :=
  ∀ text value, parse text = .ok value → parse (print value) = .ok value

theorem Same.symm (same : Same parse first second) : Same parse second first := by
  obtain ⟨value, left, right⟩ := same
  exact ⟨value, right, left⟩

theorem Same.trans (same : Same parse first second) (same' : Same parse second third) : Same parse first third := by
  obtain ⟨value, left, middle⟩ := same
  obtain ⟨value', middle', right⟩ := same'
  obtain rfl : value = value' := by
    rw [middle] at middle'
    exact Except.ok.inj middle'
  exact ⟨value, left, right⟩

theorem Same.printed (roundTrips : RoundTrips parse print) (parsed : parse first = .ok value) :
    Same parse first (print value) := ⟨value, parsed, roundTrips first value parsed⟩

end Wamux.Runs.Canonical
