import Mathlib.Data.List.Basic

namespace Wamux.Runs.Takes
variable {ν π : Type}

inductive Entry (ν π : Type) where
  | stored (name : ν) (value : π)
  | taken (name : ν) (value : π)
  deriving DecidableEq

/-- Between two takes of a name it was stored. -/
def Once (log : List (Entry ν π)) : Prop :=
  ∀ name first second before between after,
    log = before ++ .taken name first :: (between ++ .taken name second :: after) → ∃ value, .stored name value ∈ between

/-- A take answers with what was stored last. -/
def Latest (log : List (Entry ν π)) : Prop :=
  ∀ name value stored before between after,
    log = before ++ .stored name stored :: (between ++ .taken name value :: after) →
      (∀ other, .stored name other ∉ between) → value = stored

/-- A value that is kept was not taken since it was stored, and is what was stored last. -/
structure Kept (holds : ν → Option π) (log : List (Entry ν π)) : Prop where
  untaken : ∀ name value taken before after, holds name = some value →
    log = before ++ .taken name taken :: after → ∃ stored, .stored name stored ∈ after
  latest : ∀ name value stored before after, holds name = some value →
    log = before ++ .stored name stored :: after → (∀ other, .stored name other ∉ after) → value = stored
  once : Once log
  last : Latest log

theorem append_cases {log before after : List (Entry ν π)} {entry added : Entry ν π}
    (same : log ++ [added] = before ++ entry :: after) :
    (after = [] ∧ entry = added ∧ before = log) ∨ ∃ rest, after = rest ++ [added] ∧ log = before ++ entry :: rest := by
  rcases List.eq_nil_or_concat after with rfl | ⟨rest, last, rfl⟩
  · obtain ⟨rfl, last⟩ := List.append_inj' same rfl
    exact .inl ⟨rfl, (List.cons.inj last).1.symm, rfl⟩
  · rw [List.concat_eq_append, ← List.cons_append, ← List.append_assoc] at same
    obtain ⟨rfl, last⟩ := List.append_inj' same rfl
    exact .inr ⟨rest, by rw [List.concat_eq_append, (List.cons.inj last).1], rfl⟩

theorem Once.stored {log : List (Entry ν π)} {name : ν} {value : π} (once : Once log) : Once (log ++ [.stored name value]) := by
  intro other first second before between after same
  rw [← List.cons_append, ← List.append_assoc] at same
  rcases append_cases same with ⟨-, entry, -⟩ | ⟨rest, -, log_eq⟩
  · cases entry
  · exact once other first second before between rest (by rw [log_eq, List.append_assoc, List.cons_append])

theorem Latest.stored {log : List (Entry ν π)} {name : ν} {value : π} (latest : Latest log) :
    Latest (log ++ [.stored name value]) := by
  intro other taken stored before between after same none_between
  rw [← List.cons_append, ← List.append_assoc] at same
  rcases append_cases same with ⟨-, entry, -⟩ | ⟨rest, -, log_eq⟩
  · cases entry
  · exact latest other taken stored before between rest (by rw [log_eq, List.append_assoc, List.cons_append]) none_between

namespace Kept
variable {holds holds' : ν → Option π} {log : List (Entry ν π)} {name : ν} {value : π}

theorem initial (holds : ν → Option π) : Kept holds [] where
  untaken := by simp
  latest := by simp
  once := by simp [Once]
  last := by simp [Latest]

theorem lose (kept : Kept holds log) (fewer : ∀ name value, holds' name = some value → holds name = some value) :
    Kept holds' log where
  untaken name value taken before after here := kept.untaken name value taken before after (fewer name value here)
  latest name value stored before after here := kept.latest name value stored before after (fewer name value here)
  once := kept.once
  last := kept.last

theorem store (kept : Kept holds log) (others : ∀ other held, other ≠ name → holds' other = some held → holds other = some held)
    (now : ∀ held, holds' name = some held → held = value) : Kept holds' (log ++ [.stored name value]) where
  untaken other held taken before after here same := by
    rcases append_cases same with ⟨-, entry, -⟩ | ⟨rest, rfl, log_eq⟩
    · cases entry
    · by_cases named : other = name
      · exact ⟨value, by simp [named]⟩
      · obtain ⟨stored, member⟩ := kept.untaken other held taken before rest (others other held named here) log_eq
        exact ⟨stored, List.mem_append_left _ member⟩
  latest other held stored before after here same absent := by
    rcases append_cases same with ⟨-, entry, -⟩ | ⟨rest, rfl, log_eq⟩
    · cases entry
      exact now held here
    · have named : other ≠ name := by
        rintro rfl
        exact absent value (by simp)
      exact kept.latest other held stored before rest (others other held named here) log_eq
        fun other' member => absent other' (List.mem_append_left _ member)
  once := kept.once.stored
  last := kept.last.stored

theorem take (kept : Kept holds log) (held : holds name = some value) (gone : holds' name = none)
    (others : ∀ other held, other ≠ name → holds' other = some held → holds other = some held) :
    Kept holds' (log ++ [.taken name value]) := by
  have before_take {other : ν} {found : π} (here : holds' other = some found) : other ≠ name ∧ holds other = some found := by
    have apart : other ≠ name := by
      rintro rfl
      rw [gone] at here
      cases here
    exact ⟨apart, others other found apart here⟩
  refine ⟨fun other found taken before after here same => ?_, fun other found stored before after here same absent => ?_,
    fun other first second before between after same => ?_, fun other taken stored before between after same absent => ?_⟩
  · rcases append_cases same with ⟨-, entry, -⟩ | ⟨rest, rfl, log_eq⟩
    · cases entry
      exact absurd rfl (before_take here).1
    · obtain ⟨stored, member⟩ := kept.untaken other found taken before rest (before_take here).2 log_eq
      exact ⟨stored, List.mem_append_left _ member⟩
  · rcases append_cases same with ⟨-, entry, -⟩ | ⟨rest, rfl, log_eq⟩
    · cases entry
    · exact kept.latest other found stored before rest (before_take here).2 log_eq
        fun other' member => absent other' (List.mem_append_left _ member)
  · rw [← List.cons_append, ← List.append_assoc] at same
    rcases append_cases same with ⟨-, entry, log_eq⟩ | ⟨rest, -, log_eq⟩
    · cases entry
      exact kept.untaken name value first before between held log_eq.symm
    · exact kept.once other first second before between rest (by rw [log_eq, List.append_assoc, List.cons_append])
  · rw [← List.cons_append, ← List.append_assoc] at same
    rcases append_cases same with ⟨-, entry, log_eq⟩ | ⟨rest, -, log_eq⟩
    · cases entry
      exact kept.latest name value stored before between held log_eq.symm absent
    · exact kept.last other taken stored before between rest (by rw [log_eq, List.append_assoc, List.cons_append]) absent

end Kept
end Wamux.Runs.Takes
