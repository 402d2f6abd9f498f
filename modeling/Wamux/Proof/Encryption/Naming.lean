import Wamux.Runs.Failing
import Wamux.Encryption.Tables
import Wamux.Proof.Encryption.Cipher

namespace Wamux.Proof.Encryption.Naming
open Wamux.Encryption Wamux.Encryption.Tables Runs Runs.Failing

/-! ## The table of columns, read off the call sites -/

def keyOf (cell : String × Value) : KeyColumn :=
  match cell.2 with
  | .text _ => .text cell.1
  | .int _ => .id cell.1
  | .blob _ => .bytes cell.1

def partOf : Value → RowPart
  | .text value => .text value
  | .int value => .int value
  | .blob value => .bytes value

def columnOf (site : Site) : SealedColumn := ⟨site.table, site.column, site.binds.map keyOf⟩

def partsOf (site : Site) : List RowPart := site.binds.map fun cell => partOf cell.2

theorem columnOf_mem (slot : Slot) : columnOf slot.site ∈ sealedColumns := by
  cases slot <;> simp [columnOf, Slot.site, keyOf, sealedColumns]

theorem table_inj {column column' : SealedColumn} (mem : column ∈ sealedColumns) (mem' : column' ∈ sealedColumns)
    (same : column.table = column'.table) : column = column' := by
  have all : ∀ column ∈ sealedColumns, ∀ column' ∈ sealedColumns, column.table = column'.table → column = column' := by
    decide
  exact all column mem column' mem' same

theorem widened_id (id : UInt32) : id.toInt32.toInt64.toUInt64.toUInt32 = id := by
  apply UInt32.toBitVec_inj.1
  have cut : (id.toBitVec.signExtend 64).setWidth 32 = id.toBitVec := by
    apply BitVec.eq_of_getElem_eq
    intro i small
    have wide : i < 64 := by omega
    rw [BitVec.getElem_setWidth, BitVec.getLsbD_signExtend]
    simp [small, wide]
  simpa using cut

theorem widened_inj {id id' : UInt32} : id.toInt32.toInt64 = id'.toInt32.toInt64 ↔ id = id' := by
  constructor
  · intro same
    rw [← widened_id id, ← widened_id id', same]
  · exact fun same => same ▸ rfl

theorem rowKey_partsOf (slot : Slot) : rowKey (partsOf slot.site) = slot.site.row := by
  cases slot <;>
    simp [rowKey, partsOf, Slot.site, partOf, partBytes, joinedRow, widened_id, List.intercalate, List.intersperse]

structure InSlot (slot : Slot) (row : StoredRow) : Prop where
  table : row.table = slot.site.table
  key : ∀ cell ∈ slot.site.binds, row.cell cell.1 = some cell.2
  blob : ∃ blob, row.cell slot.site.column = some (.blob blob)

theorem slot_inj {slot slot' : Slot} (table : slot.site.table = slot'.site.table)
    (binds : slot.site.binds = slot'.site.binds) : slot = slot' := by
  cases slot <;> cases slot' <;> simp_all [Slot.site, widened_inj]

theorem primaryKey_site (slot : Slot) : primaryKey slot.site.table = slot.site.binds.map Prod.fst := by
  cases slot <;> rfl

theorem names_eq {slot slot' : Slot} (table : slot.site.table = slot'.site.table) :
    slot.site.binds.map Prod.fst = slot'.site.binds.map Prod.fst := by
  rw [← primaryKey_site, ← primaryKey_site, table]

theorem binds_eq {row row' : StoredRow} : ∀ {binds binds' : Cells}, binds.map Prod.fst = binds'.map Prod.fst →
    (∀ cell ∈ binds, row.cell cell.1 = some cell.2) → (∀ cell ∈ binds', row'.cell cell.1 = some cell.2) →
    (∀ name ∈ binds.map Prod.fst, row.cell name = row'.cell name) → binds = binds'
  | [], [], _, _, _, _ => rfl
  | cell :: rest, cell' :: rest', names, held, held', same => by
      simp only [List.map_cons, List.cons.injEq] at names
      have value : some cell.2 = some cell'.2 := by
        rw [← held cell (by simp), ← held' cell' (by simp), ← names.1]
        exact same _ (by simp)
      have rest_eq : rest = rest' := binds_eq names.2 (fun c member => held c (by simp [member]))
        (fun c member => held' c (by simp [member])) (fun name member => same name (by simp [member]))
      rw [rest_eq, Prod.ext names.1 (Option.some.inj value)]

variable {slot slot' : Slot} {row row' : StoredRow} {device : DeviceId}

theorem InSlot.unique (inSlot : InSlot slot row) (inSlot' : InSlot slot' row) : slot = slot' := by
  have table : slot.site.table = slot'.site.table := inSlot.table.symm.trans inSlot'.table
  exact slot_inj table (binds_eq (names_eq table) inSlot.key inSlot'.key fun _ _ => rfl)

theorem sameKey_iff (inSlot : InSlot slot row) (inSlot' : InSlot slot' row') :
    row.sameKey row' = true ↔ slot = slot' ∧ row.device = row'.device := by
  simp only [StoredRow.sameKey, decide_eq_true_eq]
  constructor
  · rintro ⟨table, devices, same⟩
    have tables : slot.site.table = slot'.site.table := by rw [← inSlot.table, ← inSlot'.table, table]
    rw [inSlot.table, primaryKey_site] at same
    exact ⟨slot_inj tables (binds_eq (names_eq tables) inSlot.key inSlot'.key same), devices⟩
  · rintro ⟨rfl, devices⟩
    refine ⟨inSlot.table.trans inSlot'.table.symm, devices, fun name member => ?_⟩
    rw [inSlot.table, primaryKey_site] at member
    obtain ⟨cell, bound, rfl⟩ := List.mem_map.1 member
    rw [inSlot.key cell bound, inSlot'.key cell bound]

end Wamux.Proof.Encryption.Naming
