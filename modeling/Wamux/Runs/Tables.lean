import Mathlib.Data.List.AList
import Mathlib.Data.List.Forall2

/-!
# Tables and statements on them

A table has one row for each key. A statement inserts or updates the row of a key, updates the rows that meet
a condition, or deletes them; whichever it is, what becomes of a key depends on the row of that key.
-/

namespace Wamux.Runs.Tables
variable {κ ρ : Type} [DecidableEq κ]

abbrev Table (κ ρ : Type) := AList fun _ : κ => ρ

inductive Statement (κ ρ : Type) where
  | upsert (key : κ) (new : ρ) (onConflict : ρ → ρ)
  | update (when : κ → ρ → Bool) (set : ρ → ρ)
  | delete (when : κ → ρ → Bool)

namespace Table

def upsert (key : κ) (new : ρ) (onConflict : ρ → ρ) (table : Table κ ρ) : Table κ ρ :=
  table.insert key (((table.lookup key).map onConflict).getD new)

def update (when : κ → ρ → Bool) (set : ρ → ρ) (table : Table κ ρ) : Table κ ρ where
  entries := table.entries.map (.map id fun key row => if when key row then set row else row)
  nodupKeys := table.nodupKeys.map₂ (fun key row => if when key row then set row else row)

def delete (when : κ → ρ → Bool) (table : Table κ ρ) : Table κ ρ where
  entries := table.entries.filter fun entry => !when entry.1 entry.2
  nodupKeys := table.nodupKeys.sublist List.filter_sublist

variable {table table' : Table κ ρ} {key : κ} {row : ρ}

theorem mem_entries : (⟨key, row⟩ : Σ _ : κ, ρ) ∈ table.entries ↔ table.lookup key = some row :=
  AList.mem_lookup_iff.symm

theorem lookup_upsert (at' : κ) (new : ρ) (onConflict : ρ → ρ) :
    (upsert at' new onConflict table).lookup key =
      if key = at' then some (((table.lookup key).map onConflict).getD new) else table.lookup key := by
  unfold upsert
  by_cases here : key = at'
  · subst here
    rw [if_pos rfl, AList.lookup_insert]
  · rw [if_neg here, AList.lookup_insert_ne here]

theorem lookup_update (when : κ → ρ → Bool) (set : ρ → ρ) :
    (update when set table).lookup key = (table.lookup key).map fun row => if when key row then set row else row := by
  exact List.dlookup_map₂ key

theorem lookup_delete (when : κ → ρ → Bool) :
    (delete when table).lookup key = (table.lookup key).filter fun row => !when key row := by
  apply Option.ext
  intro row
  rw [← mem_entries, delete, List.mem_filter, mem_entries]
  simp [Option.filter_eq_some_iff]

theorem filter_key {entries : List (Σ _ : κ, ρ)} (order : entries.Perm table.entries) :
    entries.filter (fun entry => entry.1 = key) = ((table.lookup key).map (Sigma.mk key)).toList := by
  have unique : entries.NodupKeys := (List.perm_nodupKeys order).2 table.nodupKeys
  have listed : entries.dlookup key = table.lookup key := List.perm_dlookup key unique order
  rw [← listed]
  clear listed order
  induction entries with
  | nil => rfl
  | cons entry rest ih =>
      obtain ⟨key', row⟩ := entry
      rw [List.nodupKeys_cons] at unique
      by_cases here : key' = key
      · subst here
        have others : rest.filter (fun entry => entry.1 = key') = [] := by
          rw [ih unique.2, List.dlookup_eq_none.2 unique.1]
          rfl
        rw [List.filter_cons_of_pos (by simp), others, List.dlookup_cons_eq]
        rfl
      · rw [List.filter_cons_of_neg (by simpa using here), List.dlookup_cons_ne _ _ (Ne.symm here), ih unique.2]

theorem perm_of_lookup (same : ∀ key, table.lookup key = table'.lookup key) : table.entries.Perm table'.entries := by
  apply List.lookup_ext table.nodupKeys table'.nodupKeys
  intro key row
  exact iff_of_eq (congrArg (row ∈ ·) (same key))

theorem perm_filter (among : κ → Bool) (same : ∀ key, among key → table.lookup key = table'.lookup key) :
    (table.entries.filter (among ·.1)).Perm (table'.entries.filter (among ·.1)) := by
  have kept (table : Table κ ρ) : (delete (fun key _ => !among key) table).entries = table.entries.filter (among ·.1) := by
    simp [delete]
  rw [← kept, ← kept]
  apply perm_of_lookup
  intro key
  rw [lookup_delete, lookup_delete]
  by_cases chosen : among key
  · rw [same key chosen]
  · simp [chosen]

/-- Tables whose rows are related key by key can be listed in one order. -/
theorem related_order {related : κ → ρ → ρ → Prop}
    (each : ∀ key, Option.Rel (related key) (table.lookup key) (table'.lookup key)) {entries : List (Σ _ : κ, ρ)}
    (order : entries.Perm table.entries) : ∃ entries', entries'.Perm table'.entries ∧
      List.Forall₂ (fun entry entry' => entry.1 = entry'.1 ∧ related entry.1 entry.2 entry'.2) entries entries' := by
  have unique : entries.NodupKeys := (List.perm_nodupKeys order).2 table.nodupKeys
  have held (key : κ) : entries.dlookup key = table.lookup key := List.perm_dlookup key unique order
  refine ⟨entries.map (.map id fun key row => (table'.lookup key).getD row), ?_, ?_⟩
  · apply List.lookup_ext (unique.map₂ fun key row => (table'.lookup key).getD row) table'.nodupKeys
    intro key row
    rw [List.dlookup_map₂, held]
    have both := each key
    show row ∈ Option.map _ (table.lookup key) ↔ row ∈ table'.lookup key
    generalize table.lookup key = found, table'.lookup key = found' at both
    cases both <;> simp
  · rw [List.forall₂_map_right_iff, List.forall₂_same]
    rintro ⟨key, row⟩ member
    refine ⟨rfl, ?_⟩
    have here : table.lookup key = some row := mem_entries.1 (order.mem_iff.1 member)
    have both := each key
    rw [here] at both
    show related key row ((table'.lookup key).getD row)
    generalize table'.lookup key = found' at both
    cases both
    assumption

end Table

namespace Statement

def run : Statement κ ρ → Table κ ρ → Table κ ρ
  | upsert key new onConflict, table => Table.upsert key new onConflict table
  | update when set, table => Table.update when set table
  | delete when, table => Table.delete when table

def on : Statement κ ρ → κ → Option ρ → Option ρ
  | upsert at' new onConflict, key, found => if key = at' then some ((found.map onConflict).getD new) else found
  | update when set, key, found => found.map fun row => if when key row then set row else row
  | delete when, key, found => found.filter fun row => !when key row

theorem lookup_run (statement : Statement κ ρ) (table : Table κ ρ) (key : κ) :
    (statement.run table).lookup key = statement.on key (table.lookup key) := by
  cases statement with
  | upsert at' new onConflict => exact Table.lookup_upsert at' new onConflict
  | update when set => exact Table.lookup_update when set
  | delete when => exact Table.lookup_delete when

def Spares (statement : Statement κ ρ) (key : κ) : Prop := ∀ found, statement.on key found = found

end Statement

def runAll (statements : List (Statement κ ρ)) (table : Table κ ρ) : Table κ ρ :=
  statements.foldl (fun table statement => statement.run table) table

def onAll (statements : List (Statement κ ρ)) (key : κ) (found : Option ρ) : Option ρ :=
  statements.foldl (fun found statement => statement.on key found) found

variable {statements : List (Statement κ ρ)} {table : Table κ ρ} {key : κ}

theorem lookup_runAll : (runAll statements table).lookup key = onAll statements key (table.lookup key) := by
  induction statements generalizing table with
  | nil => rfl
  | cons first rest ih =>
      show (runAll rest (first.run table)).lookup key = onAll rest key (first.on key (table.lookup key))
      rw [ih, first.lookup_run]

theorem onAll_spared (spares : ∀ statement ∈ statements, statement.Spares key) (found : Option ρ) :
    onAll statements key found = found := by
  induction statements with
  | nil => rfl
  | cons first rest ih =>
      rw [List.forall_mem_cons] at spares
      show onAll rest key (first.on key found) = found
      rw [spares.1 found, ih spares.2]

theorem onAll_append (statements' : List (Statement κ ρ)) (found : Option ρ) :
    onAll (statements ++ statements') key found = onAll statements' key (onAll statements key found) :=
  List.foldl_append

end Wamux.Runs.Tables
