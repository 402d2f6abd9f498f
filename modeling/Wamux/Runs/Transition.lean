import Mathlib.Data.List.Basic

/-!
# Machines and their runs

A machine moves from state to state on labelled events. A run may be restricted by a condition on
the state before each step and the event taken there; a result about every run is the case where
the condition always holds.
-/

namespace Wamux.Runs

structure Machine (σ ε : Type) where
  initial : σ
  step : σ → ε → Option σ

namespace Machine
variable {σ ε : Type} (m : Machine σ ε)

/-- The states of the runs all of whose steps are allowed. -/
inductive Reaches (allowed : σ → ε → Prop) : σ → Prop where
  | initial : Reaches allowed m.initial
  | next {s s' : σ} {e : ε} : Reaches allowed s → allowed s e → m.step s e = some s' →
      Reaches allowed s'

def Free (_ : σ) (_ : ε) : Prop := True

def free (_ : σ) (_ : ε) : Bool := true

theorem free_sound (s : σ) (e : ε) (_ : free s e = true) : Free s e := trivial

variable {m}

theorem Reaches.invariant {allowed : σ → ε → Prop} (inv : σ → Prop) (initial : inv m.initial)
    (step : ∀ s e s', inv s → allowed s e → m.step s e = some s' → inv s')
    {s : σ} (reaches : m.Reaches allowed s) : inv s := by
  induction reaches with
  | initial => exact initial
  | next _ permitted moved ih => exact step _ _ _ ih permitted moved

theorem Reaches.weaken {allowed wider : σ → ε → Prop}
    (implies : ∀ s e, m.Reaches allowed s → allowed s e → wider s e)
    {s : σ} (reaches : m.Reaches allowed s) : m.Reaches wider s := by
  induction reaches with
  | initial => exact .initial
  | next before permitted moved ih => exact .next ih (implies _ _ before permitted) moved

variable (m)

/-- What the runs that pass through a state can still come to. -/
inductive Leads (allowed : σ → ε → Prop) (s : σ) : σ → Prop where
  | here : Leads allowed s s
  | next {middle s' : σ} {e : ε} : Leads allowed s middle → allowed middle e →
      m.step middle e = some s' → Leads allowed s s'

variable {m}

theorem Leads.reaches {allowed : σ → ε → Prop} {s s' : σ} (reaches : m.Reaches allowed s)
    (leads : m.Leads allowed s s') : m.Reaches allowed s' := by
  induction leads with
  | here => exact reaches
  | next _ permitted moved ih => exact .next ih permitted moved

theorem Leads.weaken {allowed wider : σ → ε → Prop} (implies : ∀ s e, allowed s e → wider s e) {s s' : σ}
    (leads : m.Leads allowed s s') : m.Leads wider s s' := by
  induction leads with
  | here => exact .here
  | next _ permitted moved ih => exact .next ih (implies _ _ permitted) moved

theorem Leads.after {allowed : σ → ε → Prop} {s middle s' : σ} {e : ε} (permitted : allowed s e)
    (moved : m.step s e = some middle) (leads : m.Leads allowed middle s') : m.Leads allowed s s' := by
  induction leads with
  | here => exact .next .here permitted moved
  | next _ permitted moved ih => exact .next ih permitted moved

theorem Leads.trans {allowed : σ → ε → Prop} {s middle s' : σ} (first : m.Leads allowed s middle)
    (second : m.Leads allowed middle s') : m.Leads allowed s s' := by
  induction second with
  | here => exact first
  | next _ permitted moved ih => exact .next ih permitted moved

theorem Leads.stable {allowed : σ → ε → Prop} {s s' : σ} (leads : m.Leads allowed s s')
    (kept : σ → Prop) (reaches : m.Reaches allowed s) (now : kept s)
    (step : ∀ s e s', m.Reaches allowed s → kept s → allowed s e → m.step s e = some s' → kept s') :
    kept s' := by
  induction leads with
  | here => exact now
  | next before permitted moved ih => exact step _ _ _ (before.reaches reaches) ih permitted moved

variable (m)

def replay (allowed : σ → ε → Bool) : σ → List ε → Option σ
  | s, [] => some s
  | s, e :: rest => if allowed s e then (m.step s e).bind (replay allowed · rest) else none

variable {m}

theorem replay_reaches {check : σ → ε → Bool} {allowed : σ → ε → Prop}
    (sound : ∀ s e, check s e = true → allowed s e) {events : List ε} {s s' : σ}
    (start : m.Reaches allowed s) (replayed : m.replay check s events = some s') :
    m.Reaches allowed s' := by
  induction events generalizing s with
  | nil =>
      simp only [replay, Option.some.injEq] at replayed
      exact replayed ▸ start
  | cons e rest ih =>
      simp only [replay] at replayed
      split at replayed
      · rename_i permitted
        cases moved : m.step s e with
        | none => simp [moved] at replayed
        | some middle =>
            simp only [moved, Option.bind_some] at replayed
            exact ih (.next start (sound s e permitted) moved) replayed
      · cases replayed

theorem reaches_of_replay {check : σ → ε → Bool} {allowed : σ → ε → Prop}
    (sound : ∀ s e, check s e = true → allowed s e) (test : σ → Bool) (events : List ε)
    (passes : (m.replay check m.initial events).map test = some true) :
    ∃ s, m.Reaches allowed s ∧ test s = true := by
  cases replayed : m.replay check m.initial events with
  | none => simp [replayed] at passes
  | some s =>
      simp only [replayed, Option.map_some, Option.some.injEq] at passes
      exact ⟨s, replay_reaches sound .initial replayed, passes⟩

end Machine
end Wamux.Runs
