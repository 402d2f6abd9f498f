import Wamux.Proof.Encryption.Naming

namespace Wamux.Proof.Encryption.Naming
open Wamux.Encryption Wamux.Encryption.Tables Runs Runs.Failing

variable {slot : Slot} {row : StoredRow} {rows rows' : List StoredRow} {device : DeviceId} {changes inserted : Cells}

/-! ## Rows that keep to their slots -/

theorem column_free (slot : Slot) : ∀ cell ∈ slot.site.binds, cell.1 ≠ slot.site.column := by
  cases slot <;> simp [Slot.site]

theorem lookup_binds (slot : Slot) (further : Cells) :
    ∀ cell ∈ slot.site.binds, (slot.site.binds ++ further).lookup cell.1 = some cell.2 := by
  cases slot <;> simp [Slot.site, List.lookup_cons]

theorem lookup_column (slot : Slot) (further : Cells) :
    (slot.site.binds ++ further).lookup slot.site.column = further.lookup slot.site.column := by
  cases slot <;> simp [Slot.site, List.lookup_cons]

theorem cell_set (row : StoredRow) (changes : Cells) (name : String) :
    (row.set changes).cell name = (row.cell name).map fun value => (changes.lookup name).getD value := by
  obtain ⟨table, device, cells⟩ := row
  simp only [StoredRow.set, StoredRow.cell]
  induction cells with
  | nil => rfl
  | cons cell rest ih =>
      obtain ⟨name', value⟩ := cell
      by_cases here : name = name'
      · subst here
        simp
      · simp [List.lookup_cons, beq_false_of_ne here, ih]

structure Sets (slot : Slot) (changes : Cells) : Prop where
  key : ∀ cell ∈ slot.site.binds, changes.lookup cell.1 = none
  blob : ∀ value, changes.lookup slot.site.column = some value → ∃ blob, value = .blob blob

theorem Sets.nil : Sets slot [] := ⟨fun _ _ => rfl, fun _ found => by cases found⟩

theorem Sets.cons {sealed : Bytes} (free : ∀ cell ∈ slot.site.binds, changes.lookup cell.1 = none) :
    Sets slot ((slot.site.column, .blob sealed) :: changes) where
  key cell bound := by
    rw [List.lookup_cons, beq_false_of_ne (column_free slot cell bound)]
    exact free cell bound
  blob value found := by
    simp only [List.lookup_cons, BEq.rfl, Option.some.injEq] at found
    exact ⟨sealed, found.symm⟩

theorem InSlot.set (inSlot : InSlot slot row) (sets : Sets slot changes) : InSlot slot (row.set changes) where
  table := inSlot.table
  key cell bound := by
    rw [cell_set, inSlot.key cell bound, sets.key cell bound]
    rfl
  blob := by
    obtain ⟨blob, held⟩ := inSlot.blob
    rw [cell_set, held]
    cases set : changes.lookup slot.site.column with
    | none => exact ⟨blob, rfl⟩
    | some value =>
        obtain ⟨sealed, rfl⟩ := sets.blob value set
        exact ⟨sealed, rfl⟩

theorem newRow_column {sealed : Bytes} (found : inserted.lookup slot.site.column = some (.blob sealed)) :
    (newRow device slot inserted).cell slot.site.column = some (.blob sealed) :=
  (lookup_column slot inserted).trans found

theorem inSlot_newRow {sealed : Bytes} (found : inserted.lookup slot.site.column = some (.blob sealed)) :
    InSlot slot (newRow device slot inserted) where
  table := rfl
  key := lookup_binds slot inserted
  blob := ⟨sealed, newRow_column found⟩

/-- Every row holds the value of a slot, and no two of one account the value of the same. -/
structure Kept (rows : List StoredRow) : Prop where
  named : ∀ row ∈ rows, ∃ slot, InSlot slot row
  primary : rows.Pairwise fun row row' => ¬row.sameKey row' = true

namespace Kept

theorem filter (kept : Kept rows) (keeps : StoredRow → Bool) : Kept (rows.filter keeps) where
  named row member := kept.named row (List.mem_of_mem_filter member)
  primary := kept.primary.filter keeps

theorem map (kept : Kept rows) {change : StoredRow → StoredRow}
    (inSlot : ∀ row ∈ rows, ∀ slot, InSlot slot row → InSlot slot (change row))
    (device : ∀ row ∈ rows, (change row).device = row.device) : Kept (rows.map change) where
  named row member := by
    obtain ⟨before, earlier, rfl⟩ := List.mem_map.1 member
    obtain ⟨slot, holds⟩ := kept.named before earlier
    exact ⟨slot, inSlot before earlier slot holds⟩
  primary := by
    refine List.pairwise_map.2 (kept.primary.imp_of_mem fun {row row'} member member' apart same => apart ?_)
    obtain ⟨slot, holds⟩ := kept.named row member
    obtain ⟨slot', holds'⟩ := kept.named row' member'
    rw [sameKey_iff (inSlot row member slot holds) (inSlot row' member' slot' holds'), device row member,
      device row' member'] at same
    exact (sameKey_iff holds holds').2 same

theorem append (kept : Kept rows) {new : StoredRow} (inSlot : InSlot slot new)
    (fresh : ∀ row ∈ rows, ¬row.sameKey new = true) : Kept (rows ++ [new]) where
  named row member := by
    rcases List.mem_append.1 member with member | member
    · exact kept.named row member
    · obtain rfl := List.mem_singleton.1 member
      exact ⟨slot, inSlot⟩
  primary := by
    refine List.pairwise_append.2 ⟨kept.primary, List.pairwise_singleton _ _, fun row member last here => ?_⟩
    obtain rfl := List.mem_singleton.1 here
    exact fresh row member

theorem unique (kept : Kept rows) {row' : StoredRow} (member : row ∈ rows) (member' : row' ∈ rows)
    (inSlot : InSlot slot row) (inSlot' : InSlot slot row') (device : row.device = row'.device) : row = row' := by
  let alike (row row' : StoredRow) : Prop :=
    InSlot slot row → InSlot slot row' → row.device = row'.device → row = row'
  have apart : rows.Pairwise alike := kept.primary.imp fun {row row'} differ holds holds' same =>
    absurd ((sameKey_iff holds holds').2 ⟨rfl, same⟩) differ
  have turned : rows.Pairwise (flip alike) := apart.imp fun {row row'} alike holds' holds same =>
    (alike holds holds' same.symm).symm
  exact List.Pairwise.forall_of_forall_of_flip (fun _ _ _ _ _ => rfl) apart turned member member' inSlot inSlot' device

theorem nodup (kept : Kept rows) : rows.Nodup := by
  refine kept.primary.imp_of_mem fun {row row'} member _ apart same => apart ?_
  subst same
  obtain ⟨slot, holds⟩ := kept.named row member
  exact (sameKey_iff holds holds).2 ⟨rfl, rfl⟩

theorem mem_upsert (kept : Kept rows) {sealed : Bytes} {when : StoredRow → Bool}
    (found : inserted.lookup slot.site.column = some (.blob sealed))
    (member : row ∈ upsert rows (newRow device slot inserted) changes when) :
    row ∈ rows ∨ row = newRow device slot inserted ∨
      ∃ before ∈ rows, InSlot slot before ∧ before.device = device ∧ row = before.set changes := by
  rw [upsert] at member
  split at member
  · obtain ⟨before, earlier, rfl⟩ := List.mem_map.1 member
    split
    · rename_i changed
      obtain ⟨held, holds⟩ := kept.named before earlier
      have same := (sameKey_iff holds (inSlot_newRow found)).1 (Bool.and_eq_true_iff.1 changed).1
      exact .inr (.inr ⟨before, earlier, same.1 ▸ holds, same.2, rfl⟩)
    · exact .inl earlier
  · rcases List.mem_append.1 member with member | member
    · exact .inl member
    · exact .inr (.inl (List.mem_singleton.1 member))

theorem upsert (kept : Kept rows) {sealed : Bytes} {when : StoredRow → Bool}
    (found : inserted.lookup slot.site.column = some (.blob sealed)) (sets : Sets slot changes) :
    Kept (upsert rows (newRow device slot inserted) changes when) := by
  have new : InSlot slot (newRow device slot inserted) := inSlot_newRow found
  rw [Tables.upsert]
  split
  · refine kept.map (fun row member held holds => ?_) (fun row _ => ?_)
    · split
      · rename_i changed
        obtain ⟨rfl, -⟩ := (sameKey_iff holds new).1 (Bool.and_eq_true_iff.1 changed).1
        exact holds.set sets
      · exact holds
    · split <;> rfl
  · rename_i none
    exact kept.append new fun row member same => none (List.any_eq_true.2 ⟨row, member, same⟩)

theorem updateRow (kept : Kept rows) {column : SealedColumn} (mem : column ∈ sealedColumns) {parts : List RowPart}
    {turned : Bytes} : Kept (updateRow rows device column parts turned) := by
  refine kept.map (fun row member slot holds => ?_) (fun row _ => ?_)
  · split
    · rename_i selected
      have table : row.table = column.table := (of_decide_eq_true selected).1
      have same : column = columnOf slot.site :=
        table_inj mem (columnOf_mem slot) (table.symm.trans holds.table)
      subst same
      exact holds.set (.cons fun _ _ => rfl)
    · exact holds
  · split <;> rfl

theorem convertColumn (kept : Kept rows) {crypto : Crypto} {family : Family} {turn : Turn}
    {nonces : List RowPart → Option Nonce} {column : SealedColumn} (mem : column ∈ sealedColumns)
    (ran : convertColumn crypto family turn nonces device column rows = .ok rows') : Kept rows' := by
  simp only [Tables.convertColumn, bind_eq_ok] at ran
  obtain ⟨fetched, -, ran⟩ := ran
  refine foldlM_keeps Kept (fun rows pair _ rows' kept ran => ?_) kept ran
  simp only [bind_eq_ok, pure_eq_ok] at ran
  obtain ⟨turned, -, rfl⟩ := ran
  exact kept.updateRow mem

end Kept

/-! ## What the store methods write -/

section Writes
variable {crypto : Crypto} {cipher : BlobCipher} {entries entries' : List (Slot × Bytes)}

structure Wrote (crypto : Crypto) (cipher : BlobCipher) (device : DeviceId) (entries : List (Slot × Bytes))
    (rows rows' : List StoredRow) : Prop where
  kept : Kept rows'
  cases : ∀ row ∈ rows', row ∈ rows ∨ ∃ entry ∈ entries, InSlot entry.1 row ∧ row.device = device ∧
    ∃ nonce blob, row.cell entry.1.site.column = some (.blob blob) ∧
      sealAt crypto cipher device nonce entry.1 entry.2 = .ok blob

namespace Wrote

theorem none (kept : Kept rows) : Wrote crypto cipher device entries rows rows := ⟨kept, fun _ => .inl⟩

theorem trans {rows'' : List StoredRow} (first : Wrote crypto cipher device entries rows rows')
    (second : Wrote crypto cipher device entries' rows' rows'') :
    Wrote crypto cipher device (entries ++ entries') rows rows'' where
  kept := second.kept
  cases row member := by
    rcases second.cases row member with member | ⟨entry, listed, written⟩
    · rcases first.cases row member with member | ⟨entry, listed, written⟩
      · exact .inl member
      · exact .inr ⟨entry, List.mem_append_left _ listed, written⟩
    · exact .inr ⟨entry, List.mem_append_right _ listed, written⟩

theorem upsert (kept : Kept rows) {plaintext sealed : Bytes} {nonce : Option Nonce} {when : StoredRow → Bool}
    (sealing : sealAt crypto cipher device nonce slot plaintext = .ok sealed)
    (found : inserted.lookup slot.site.column = some (.blob sealed)) (sets : Sets slot changes)
    (changed : changes = [] ∨ changes.lookup slot.site.column = some (.blob sealed)) :
    Wrote crypto cipher device [(slot, plaintext)] rows (upsert rows (newRow device slot inserted) changes when) where
  kept := kept.upsert found sets
  cases row member := by
    rcases kept.mem_upsert found member with old | rfl | ⟨before, earlier, inSlot, at_device, rfl⟩
    · exact .inl old
    · exact .inr ⟨_, List.mem_singleton_self _, inSlot_newRow found, rfl, nonce, sealed, newRow_column found, sealing⟩
    · rcases changed with rfl | changed
      · have same : before.set [] = before := by simp [StoredRow.set]
        exact .inl (by rwa [same])
      · refine .inr ⟨_, List.mem_singleton_self _, inSlot.set sets, at_device, nonce, sealed, ?_, sealing⟩
        obtain ⟨blob, held⟩ := inSlot.blob
        rw [cell_set, held, changed]
        rfl

theorem put (kept : Kept rows) {further : Cells} {nonce : Option Nonce} {plaintext : Bytes}
    (free : ∀ cell ∈ slot.site.binds, further.lookup cell.1 = .none)
    (ran : put crypto cipher device slot further nonce plaintext rows = .ok rows') :
    Wrote crypto cipher device [(slot, plaintext)] rows rows' := by
  simp only [Tables.put, bind_eq_ok, pure_eq_ok] at ran
  obtain ⟨sealed, sealing, rfl⟩ := ran
  have found : ((slot.site.column, Value.blob sealed) :: further).lookup slot.site.column = some (.blob sealed) := by
    simp
  exact upsert kept sealing found (.cons free) (.inr found)

theorem putFrom {nonces : Nat → Option Nonce} (kept : Kept rows) {first : Nat}
    (ran : (entries.zipIdx first).foldlM (fun rows entry =>
      Tables.put crypto cipher device entry.1.1 [] (nonces entry.2) entry.1.2 rows) rows = .ok rows') :
    Wrote crypto cipher device entries rows rows' := by
  induction entries generalizing rows first with
  | nil =>
      cases ran
      exact none kept
  | cons entry rest ih =>
      simp only [List.zipIdx_cons, List.foldlM_cons, bind_eq_ok] at ran
      obtain ⟨middle, head, ran⟩ := ran
      have now : Wrote crypto cipher device [entry] rows middle := put kept (fun _ _ => rfl) head
      exact now.trans (ih now.kept ran)

theorem putAll {nonces : Nat → Option Nonce} (kept : Kept rows)
    (ran : putAll crypto cipher device nonces entries rows = .ok rows') :
    Wrote crypto cipher device entries rows rows' := putFrom kept ran

end Wrote

end Writes

end Wamux.Proof.Encryption.Naming
