import Mathlib.Data.List.Basic
import Mathlib.Data.Multiset.Lattice
import Mathlib.Logic.Function.Basic
import Mathlib.Order.WithBot

namespace Wamux.Runs.Keyed
variable {κ ρ : Type} [DecidableEq κ]

abbrev Rows (κ ρ : Type) := κ → Option ρ

structure Statement (κ ρ : Type) where
  key : κ
  update : Option ρ → Option ρ

def upsert (key : κ) (row : ρ) : Statement κ ρ := ⟨key, fun _ => some row⟩

def delete (key : κ) : Statement κ ρ := ⟨key, fun _ => none⟩

def Statement.apply (statement : Statement κ ρ) (rows : Rows κ ρ) : Rows κ ρ :=
  Function.update rows statement.key (statement.update (rows statement.key))

def run (statements : List (Statement κ ρ)) (rows : Rows κ ρ) : Rows κ ρ :=
  statements.foldl (fun rows statement => statement.apply rows) rows

variable {statements : List (Statement κ ρ)} {statement : Statement κ ρ} {rows : Rows κ ρ} {key : κ}

@[simp] theorem run_nil : run [] rows = rows := rfl

@[simp] theorem run_cons : run (statement :: statements) rows = run statements (statement.apply rows) := rfl

@[simp] theorem run_append (statements' : List (Statement κ ρ)) :
    run (statements ++ statements') rows = run statements' (run statements rows) := List.foldl_append

theorem run_flatMap {α : Type} {items : List α} {statements : α → List (Statement κ ρ)} :
    run (items.flatMap statements) rows = items.foldl (fun rows item => run (statements item) rows) rows := by
  induction items generalizing rows with
  | nil => rfl
  | cons item rest ih => rw [List.flatMap_cons, run_append, ih, List.foldl_cons]

theorem apply_self : statement.apply rows statement.key = statement.update (rows statement.key) :=
  Function.update_self ..

theorem apply_other (other : key ≠ statement.key) : statement.apply rows key = rows key :=
  Function.update_of_ne other ..

theorem run_other (untouched : key ∉ statements.map Statement.key) : run statements rows key = rows key := by
  induction statements generalizing rows with
  | nil => rfl
  | cons first rest ih =>
      simp only [List.map_cons, List.mem_cons, not_or] at untouched
      rw [run_cons, ih untouched.2, apply_other untouched.1]

theorem run_congr {rows' : Rows κ ρ} (same : rows key = rows' key) :
    run statements rows key = run statements rows' key := by
  induction statements generalizing rows rows' with
  | nil => exact same
  | cons first rest ih =>
      rw [run_cons, run_cons]
      apply ih
      by_cases here : key = first.key
      · subst here
        rw [apply_self, apply_self, same]
      · rw [apply_other here, apply_other here, same]

theorem run_on (key : κ) : run statements rows key = run (statements.filter (·.key = key)) rows key := by
  induction statements generalizing rows with
  | nil => rfl
  | cons first rest ih =>
      rw [run_cons, ih, List.filter_cons]
      by_cases here : first.key = key
      · simp [here]
      · rw [if_neg (by simpa using here), ← ih, ← ih]
        exact run_congr (apply_other (Ne.symm here))

theorem run_last {before after : List (Statement κ ρ)} (last : statement.key ∉ after.map Statement.key) :
    run (before ++ statement :: after) rows statement.key = statement.update (run before rows statement.key) := by
  rw [run_append, run_cons, run_other last, apply_self]

theorem run_deletes {keys : List κ} : run (keys.map delete) rows key = if key ∈ keys then none else rows key := by
  induction keys generalizing rows with
  | nil => rfl
  | cons first rest ih =>
      rw [List.map_cons, run_cons, ih]
      by_cases here : key = first
      · subst here
        simp [Statement.apply, delete]
      · simp [Statement.apply, delete, here]

end Wamux.Runs.Keyed

/-! ## What a row that only grows comes to

The join of all it was given, in whatever order.
-/

namespace Wamux.Runs
variable {α β : Type} [SemilatticeSup β] [OrderBot β] {f : α → β} {items items' : List α} {item : α}

def join (f : α → β) (items : List α) : β := (Multiset.ofList (items.map f)).sup

@[simp] theorem join_nil : join f [] = ⊥ := Multiset.sup_zero

@[simp] theorem join_cons : join f (item :: items) = f item ⊔ join f items := by
  rw [join, List.map_cons, ← Multiset.cons_coe, Multiset.sup_cons]
  rfl

@[simp] theorem join_append : join f (items ++ items') = join f items ⊔ join f items' := by
  rw [join, List.map_append, ← Multiset.coe_add, Multiset.sup_add]
  rfl

theorem join_perm (perm : items.Perm items') : join f items = join f items' := by
  rw [join, join, Multiset.coe_eq_coe.2 (perm.map f)]

theorem le_join (member : item ∈ items) : f item ≤ join f items :=
  Multiset.le_sup (List.mem_map_of_mem member)

end Wamux.Runs
