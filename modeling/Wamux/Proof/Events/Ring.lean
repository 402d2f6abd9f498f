import Mathlib.Data.List.DropRight
import Wamux.Events.Ring

namespace Wamux.Proof.Events
open Wamux.Events

/-! ## The last entries of a list -/

section Last
variable {β : Type} (l : List β)

theorem rtake_rtake (j k : Nat) : (l.rtake k).rtake j = l.rtake (min j k) := by
  simp [List.rtake_eq_reverse_take_reverse, List.take_take]

theorem subset_rtake {k : Nat} {front back : List β} (short : back.length ≤ k) :
    back ⊆ (front ++ back).rtake k := by
  intro x member
  rw [List.rtake_eq_reverse_take_reverse, List.mem_reverse, List.reverse_append, List.take_append]
  have whole : back.reverse.take k = back.reverse := List.take_of_length_le (by simpa using short)
  rw [whole]
  exact List.mem_append_left _ (List.mem_reverse.2 member)

theorem rtake_subset (k : Nat) : l.rtake k ⊆ l := by
  unfold List.rtake
  exact List.drop_subset _ _

theorem rtake_pairwise {r : β → β → Prop} (k : Nat) (pairwise : l.Pairwise r) : (l.rtake k).Pairwise r := by
  unfold List.rtake
  exact pairwise.drop

end Last

/-! ## The ring keeps the last replayable envelopes -/

variable {α : Type} {ring : EventRing α}

theorem evict_rtake {capacity : Nat} (positive : 0 < capacity) (queue : List (Envelope α)) :
    EventRing.evict capacity queue = queue.rtake (capacity - 1) := by
  induction queue with
  | nil => simp [EventRing.evict]
  | cons oldest rest ih =>
      unfold EventRing.evict
      split_ifs with full
      · rw [ih]
        simp only [List.rtake, List.length_cons]
        have drops : rest.length + 1 - (capacity - 1) = (rest.length - (capacity - 1)) + 1 := by omega
        rw [drops, List.drop_succ_cons]
      · have keeps : rest.length + 1 - (capacity - 1) = 0 := by omega
        simp [List.rtake, keeps]

theorem snapshot_rtake (n : Nat) : ring.snapshot n = ring.inner.rtake n := by
  have same : ring.inner.length - min n ring.inner.length = ring.inner.length - n := by omega
  simp only [EventRing.snapshot, List.rtake, same]

theorem push_rtake {history : List (Envelope α)} (event : Envelope α)
    (kept : ring.inner = history.rtake ring.capacity) :
    (ring.push event).inner = (history ++ [event]).rtake ring.capacity ∧
      (ring.push event).capacity = ring.capacity := by
  unfold EventRing.push
  split_ifs with zero
  · refine ⟨?_, rfl⟩
    rw [kept, zero]
    simp [List.rtake]
  · obtain ⟨capacity, succ⟩ := Nat.exists_eq_succ_of_ne_zero zero
    refine ⟨?_, rfl⟩
    simp only [kept, succ, Nat.succ_eq_add_one, List.rtake_concat_succ]
    rw [evict_rtake (Nat.succ_pos capacity), rtake_rtake]
    simp

end Wamux.Proof.Events
