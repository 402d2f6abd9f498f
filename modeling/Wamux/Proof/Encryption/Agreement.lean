import Wamux.Proof.Encryption.Tables

namespace Wamux.Proof.Encryption.Naming
open Wamux.Encryption Wamux.Encryption.Tables Runs Runs.Failing

variable {crypto : Crypto} {cipher : BlobCipher} {device : DeviceId} {slot : Slot} {row : StoredRow}
  {rows : List StoredRow} {plain : Slot → Bytes}

theorem open_of_seal {nonce : Option Nonce} {context : BlobContext} {plaintext blob : Bytes}
    (sealed : cipher.seal crypto nonce context plaintext = .ok blob) : cipher.open crypto context blob = .ok plaintext := by
  cases cipher with
  | passthrough =>
      cases sealed
      rfl
  | sealing key => exact open_seal sealed

theorem rowContext_slot (slot : Slot) :
    rowContext device (columnOf slot.site) (partsOf slot.site) = slot.context device := by
  rw [rowContext, rowKey_partsOf]
  rfl

def Finds (plain : Slot → Bytes) (wanted : Slot → Prop) (result : Except StoreError (List (Slot × Bytes))) : Prop :=
  ∃ found, result = .ok found ∧ ∀ slot bytes, (slot, bytes) ∈ found ↔ wanted slot ∧ bytes = plain slot

def present (rows : List StoredRow) (device : DeviceId) (slot : Slot) : Prop :=
  ∃ row ∈ rows, InSlot slot row ∧ row.device = device

theorem Finds.congr {wanted wanted' : Slot → Prop} {result : Except StoreError (List (Slot × Bytes))}
    (finds : Finds plain wanted result) (same : ∀ slot, wanted slot ↔ wanted' slot) : Finds plain wanted' result := by
  obtain ⟨found, ran, exact_⟩ := finds
  exact ⟨found, ran, fun slot bytes => (exact_ slot bytes).trans (and_congr_left' (same slot))⟩

theorem mem_chunks {α : Type} {item : α} {items : List α} : (∃ chunk ∈ chunks items, item ∈ chunk) ↔ item ∈ items := by
  fun_induction chunks items with
  | case1 => simp
  | case2 first rest ih =>
      rw [List.exists_mem_cons_iff, ih, ← List.mem_append, List.take_append_drop]

theorem mem_padToReadChunk {α : Type} {item : α} {chunk : List α} : item ∈ padToReadChunk chunk ↔ item ∈ chunk := by
  rw [padToReadChunk]
  split
  · rfl
  · rename_i last ends
    simp only [List.mem_append, List.mem_replicate, or_iff_left_iff_imp]
    rintro ⟨-, rfl⟩
    exact List.mem_of_getLast? ends

theorem mem_paddedChunks {α : Type} [BEq α] [LawfulBEq α] {item : α} {items : List α} :
    (∃ chunk ∈ paddedChunks items, item ∈ chunk) ↔ item ∈ items := by
  simp only [paddedChunks, List.mem_map, exists_exists_and_eq_and, mem_padToReadChunk, mem_chunks, List.mem_eraseDups]

/-- The ways a blob came to a row: a store method sealed it, or a turn did. -/
inductive SealedBy (crypto : Crypto) (cipher : BlobCipher) (device : DeviceId) (slot : Slot) (column : SealedColumn)
    (parts : List RowPart) (plaintext blob : Bytes) : Prop where
  | store {nonce : Option Nonce} : sealAt crypto cipher device nonce slot plaintext = .ok blob →
      SealedBy crypto cipher device slot column parts plaintext blob
  | conversion {nonce : Option Nonce} : turnBlob crypto (.seal cipher) nonce device column parts plaintext = .ok blob →
      SealedBy crypto cipher device slot column parts plaintext blob
  | rotation {nonce : Option Nonce} {opens : BlobCipher} {before : Bytes} :
      opens.open crypto (rowContext device column parts) before = .ok plaintext →
      turnBlob crypto (.rotate opens cipher) nonce device column parts before = .ok blob →
      SealedBy crypto cipher device slot column parts plaintext blob

def Holds (device : DeviceId) (slot : Slot) (row : StoredRow) : Prop :=
  row.selected slot.site.table device slot.site.binds = true

theorem SealedBy.opens {plaintext blob : Bytes}
    (sealed : SealedBy crypto cipher device slot (columnOf slot.site) (partsOf slot.site) plaintext blob) :
    openAt crypto cipher device slot blob = .ok plaintext := by
  cases sealed with
  | store sealing => exact open_of_seal sealing
  | conversion turned =>
      rw [turnBlob, rowContext_slot] at turned
      exact open_of_seal turned
  | rotation before turned =>
      simp only [turnBlob, before, bind, Except.bind] at turned
      rw [rowContext_slot] at turned
      exact open_of_seal turned

end Wamux.Proof.Encryption.Naming
