import Wamux.BatchedReads.Reads
import Wamux.Proof.Encryption.Agreement

namespace Wamux.Proof.BatchedReads
open Wamux.Encryption.Tables (chunks padToReadChunk paddedChunks readChunk)
open Wamux.Proof.Encryption.Naming (mem_padToReadChunk mem_paddedChunks)

variable {α : Type}

theorem chunks_flatten (items : List α) : (chunks items).flatten = items := by
  fun_induction chunks items with
  | case1 => rfl
  | case2 first rest ih => rw [List.flatten_cons, ih, List.take_append_drop]

theorem chunks_bounds {items chunk : List α} (member : chunk ∈ chunks items) : chunk ≠ [] ∧ chunk.length ≤ readChunk := by
  fun_induction chunks items with
  | case1 => cases member
  | case2 first rest ih =>
      rcases List.mem_cons.1 member with rfl | later
      · exact ⟨by simp [readChunk], List.length_take_le ..⟩
      · exact ih later

theorem length_padToReadChunk {chunk : List α} (nonempty : chunk ≠ []) (small : chunk.length ≤ readChunk) :
    (padToReadChunk chunk).length = readChunk := by
  rw [padToReadChunk, List.getLast?_eq_some_getLast nonempty, List.length_append, List.length_replicate]
  exact Nat.add_sub_cancel' small

theorem length_paddedChunks [BEq α] {items chunk : List α} (member : chunk ∈ paddedChunks items) :
    chunk.length = readChunk := by
  obtain ⟨short, inside, rfl⟩ := List.mem_map.1 member
  obtain ⟨nonempty, small⟩ := chunks_bounds inside
  exact length_padToReadChunk nonempty small

theorem nodup_eraseDups [BEq α] [LawfulBEq α] (items : List α) : items.eraseDups.Nodup := by
  match items with
  | [] => exact .nil
  | item :: rest =>
      rw [List.eraseDups_cons, List.nodup_cons, List.mem_eraseDups]
      exact ⟨by simp, nodup_eraseDups _⟩
termination_by items.length
decreasing_by exact Nat.lt_succ_of_le (List.length_filter_le ..)

theorem disjoint_paddedChunks [BEq α] [LawfulBEq α] (items : List α) : (paddedChunks items).Pairwise List.Disjoint := by
  have distinct : (chunks items.eraseDups).flatten.Nodup := by
    rw [chunks_flatten]
    exact nodup_eraseDups items
  rw [paddedChunks, List.pairwise_map]
  refine (List.nodup_flatten.1 distinct).2.imp ?_
  intro chunk chunk' disjoint item member member'
  exact disjoint (mem_padToReadChunk.1 member) (mem_padToReadChunk.1 member')

end Wamux.Proof.BatchedReads
