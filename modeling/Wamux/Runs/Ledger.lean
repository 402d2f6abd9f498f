import Mathlib.Algebra.Order.Ring.Nat
import Mathlib.Algebra.BigOperators.Group.List.Basic
import Mathlib.Data.List.Basic

namespace Wamux.Runs.Ledger
variable {α : Type} (amount : α → Nat)

def total (entries : List α) : Nat := (entries.map amount).sum

@[simp] theorem total_append (entries entries' : List α) :
    total amount (entries ++ entries') = total amount entries + total amount entries' := by
  simp [total]

@[simp] theorem total_cons (entry : α) (entries : List α) :
    total amount (entry :: entries) = amount entry + total amount entries := by
  simp [total]

@[simp] theorem total_nil : total amount [] = 0 := rfl

variable {amount}

theorem total_set {entries : List α} {i : Nat} {entry : α} (new : α) (here : entries[i]? = some entry) :
    total amount (entries.set i new) + amount entry = total amount entries + amount new := by
  induction entries generalizing i with
  | nil => cases here
  | cons first rest ih =>
      cases i with
      | zero =>
          cases here
          simp only [List.set_cons_zero, total_cons]
          omega
      | succ i =>
          have rest := ih here
          simp only [List.set_cons_succ, total_cons]
          omega

theorem amount_le_total {entries : List α} {entry : α} (member : entry ∈ entries) :
    amount entry ≤ total amount entries := by
  induction entries with
  | nil => cases member
  | cons first rest ih =>
      rw [total_cons]
      rcases List.mem_cons.1 member with rfl | later
      · omega
      · have := ih later
        omega

theorem total_le_total {other : α → Nat} {entries : List α} (below : ∀ entry ∈ entries, amount entry ≤ other entry) :
    total amount entries ≤ total other entries := by
  induction entries with
  | nil => exact Nat.le_refl 0
  | cons first rest ih =>
      have here := below first List.mem_cons_self
      have later := ih fun entry member => below entry (List.mem_cons_of_mem _ member)
      simp only [total_cons]
      omega

end Wamux.Runs.Ledger
