import Mathlib.Data.List.AList
import Mathlib.Data.Finset.Card

namespace Wamux.Runs
variable {α β κ : Type} [DecidableEq κ]

abbrev Tally (κ : Type) := AList fun _ : κ => Nat

namespace Tally

def value (tally : Tally κ) (key : κ) : Nat := (tally.lookup key).getD 0

def increment (tally : Tally κ) (key : κ) : Tally κ := tally.insert key (value tally key + 1)

def count (keys : List κ) : Tally κ := keys.foldl increment ∅

variable {tally : Tally κ} {key key' : κ}

theorem value_increment : value (increment tally key) key' = value tally key' + if key = key' then 1 else 0 := by
  by_cases same : key = key'
  · subst same
    rw [value, increment, AList.lookup_insert, Option.getD_some, if_pos rfl]
  · rw [value, increment, AList.lookup_insert_ne (Ne.symm same), if_neg same, Nat.add_zero, value]

theorem mem_increment : key' ∈ increment tally key ↔ key' = key ∨ key' ∈ tally := AList.mem_insert tally

theorem count_concat (keys : List κ) : count (keys ++ [key]) = increment (count keys) key := by
  rw [count, List.foldl_append]
  rfl

theorem value_count (keys : List κ) : value (count keys) key = keys.countP fun other => other = key := by
  induction keys using List.reverseRecOn with
  | nil => rfl
  | append_singleton keys last ih =>
      rw [count_concat, value_increment, ih, List.countP_append, List.countP_singleton]
      simp only [decide_eq_true_eq]

theorem mem_count (keys : List κ) : key ∈ count keys ↔ key ∈ keys := by
  induction keys using List.reverseRecOn with
  | nil => exact iff_of_false (AList.notMem_empty key) List.not_mem_nil
  | append_singleton keys last ih =>
      rw [count_concat, mem_increment, ih, List.mem_append, List.mem_singleton, or_comm]

theorem keys_length_le (bound : Finset κ) (within : ∀ key ∈ tally, key ∈ bound) : tally.keys.length ≤ bound.card := by
  rw [← List.toFinset_card_of_nodup tally.keys_nodup]
  refine Finset.card_le_card fun key counted => within key ?_
  exact AList.mem_keys.2 (List.mem_toFinset.1 counted)

end Tally

/-! ## Reports -/

variable {report : α → Option β} {items : List α} {i : Nat} {old : α}

theorem reports_set (new : α) (here : items[i]? = some old) (silent : report old = none) :
    ((items.set i new).filterMap report).Perm (items.filterMap report ++ (report new).toList) := by
  induction items generalizing i with
  | nil => cases here
  | cons first rest ih =>
      cases i with
      | zero =>
          cases here
          rw [List.set_cons_zero, List.filterMap_cons, List.filterMap_cons, silent]
          cases report new with
          | none => simp
          | some line => exact (List.perm_append_singleton line _).symm
      | succ i =>
          have rest := ih here
          rw [List.set_cons_succ, List.filterMap_cons, List.filterMap_cons]
          cases report first with
          | none => exact rest
          | some line => exact rest.cons line

end Wamux.Runs
