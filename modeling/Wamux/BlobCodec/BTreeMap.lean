import Mathlib.Data.String.Basic
import Mathlib.Order.Basic
import Wamux.Encryption.Cipher

namespace Wamux.BlobCodec
open Wamux.Encryption (Bytes)

structure BTreeMap where
  entries : List (String × Bytes)
  sorted : entries.Pairwise fun entry entry' => entry.1 < entry'.1
  deriving DecidableEq

/-- `BTreeMap::insert`. -/
def insertEntry (entry : String × Bytes) : List (String × Bytes) → List (String × Bytes)
  | [] => [entry]
  | first :: rest =>
      if entry.1 < first.1 then entry :: first :: rest
      else if entry.1 = first.1 then entry :: rest
      else first :: insertEntry entry rest

theorem insertEntry_mem {entry other : String × Bytes} {entries : List (String × Bytes)}
    (member : other ∈ insertEntry entry entries) : other = entry ∨ other ∈ entries := by
  induction entries with
  | nil => exact .inl (List.mem_singleton.1 member)
  | cons first rest ih =>
      rw [insertEntry] at member
      split at member
      · exact List.mem_cons.1 member
      · split at member
        · exact (List.mem_cons.1 member).imp_right (List.mem_cons_of_mem _)
        · rcases List.mem_cons.1 member with rfl | member
          · exact .inr (by simp)
          · exact (ih member).imp_right (List.mem_cons_of_mem _)

theorem insertEntry_sorted {entry : String × Bytes} {entries : List (String × Bytes)}
    (sorted : entries.Pairwise fun entry entry' => entry.1 < entry'.1) :
    (insertEntry entry entries).Pairwise fun entry entry' => entry.1 < entry'.1 := by
  induction entries with
  | nil => exact List.pairwise_singleton _ _
  | cons first rest ih =>
      obtain ⟨ahead, sorted_rest⟩ := List.pairwise_cons.1 sorted
      rw [insertEntry]
      split
      · rename_i before
        refine List.pairwise_cons.2 ⟨fun other member => ?_, sorted⟩
        rcases List.mem_cons.1 member with rfl | member
        · exact before
        · exact lt_trans before (ahead other member)
      · split
        · rename_i same
          exact List.pairwise_cons.2 ⟨fun other member => same ▸ ahead other member, sorted_rest⟩
        · rename_i not_before other_key
          refine List.pairwise_cons.2 ⟨fun other member => ?_, ih sorted_rest⟩
          rcases insertEntry_mem member with rfl | member
          · exact lt_of_le_of_ne (not_lt.1 not_before) (Ne.symm other_key)
          · exact ahead other member

def BTreeMap.insert (map : BTreeMap) (entry : String × Bytes) : BTreeMap :=
  ⟨insertEntry entry map.entries, insertEntry_sorted map.sorted⟩

/-- `collect()` into the generated map. -/
def BTreeMap.collect (entries : List (String × Bytes)) : BTreeMap := entries.foldl BTreeMap.insert ⟨[], .nil⟩

theorem BTreeMap.distinct (map : BTreeMap) : (map.entries.map Prod.fst).Nodup :=
  List.pairwise_map.2 (map.sorted.imp fun before => ne_of_lt before)

theorem insertEntry_perm {entry : String × Bytes} {entries : List (String × Bytes)}
    (fresh : ∀ other ∈ entries, other.1 ≠ entry.1) : (insertEntry entry entries).Perm (entry :: entries) := by
  induction entries with
  | nil => exact .refl _
  | cons first rest ih =>
      rw [insertEntry]
      split
      · exact .refl _
      · rw [if_neg (fresh first (by simp)).symm]
        exact ((ih fun other member => fresh other (by simp [member])).cons first).trans (.swap _ _ _)

theorem BTreeMap.collect_perm {entries : List (String × Bytes)} (distinct : (entries.map Prod.fst).Nodup) :
    (collect entries).entries.Perm entries := by
  have grows : ∀ (rest : List (String × Bytes)) (sorted : BTreeMap), ((sorted.entries ++ rest).map Prod.fst).Nodup →
      (rest.foldl BTreeMap.insert sorted).entries.Perm (sorted.entries ++ rest) := by
    intro rest
    induction rest with
    | nil =>
        intro sorted _
        simp
    | cons entry rest ih =>
        intro sorted distinct
        have inserted : (sorted.insert entry).entries.Perm (entry :: sorted.entries) := by
          refine insertEntry_perm fun other member same => ?_
          rw [List.map_append, List.nodup_append] at distinct
          exact distinct.2.2 other.1 (List.mem_map_of_mem member) entry.1 (by simp) same
        have moved : ((sorted.insert entry).entries ++ rest).Perm (sorted.entries ++ entry :: rest) :=
          (inserted.append_right rest).trans List.perm_middle.symm
        exact (ih (sorted.insert entry) ((moved.map Prod.fst).nodup_iff.2 distinct)).trans moved
  simpa [collect] using grows entries ⟨[], .nil⟩ (by simpa using distinct)

theorem BTreeMap.eq_of_perm {map map' : BTreeMap} (same : map.entries.Perm map'.entries) : map = map' := by
  have entries : map.entries = map'.entries :=
    same.eq_of_pairwise (fun entry entry' _ _ before after => absurd after (lt_asymm before)) map.sorted map'.sorted
  cases map
  cases map'
  cases entries
  rfl

theorem BTreeMap.collect_entries (map : BTreeMap) : collect map.entries = map :=
  eq_of_perm (collect_perm map.distinct)

end Wamux.BlobCodec
