import Mathlib.Data.Set.Function
import Wamux.Encryption.Columns
import Wamux.Proof.Encryption.Cipher

namespace Wamux.Proof.Encryption
open Wamux.Encryption

/-! ## Separated lists -/

section Separated
variable {β : Type} {separator : β}

theorem separated_inj {first second rest rest' : List β} (free : separator ∉ first) (free' : separator ∉ second)
    (same : first ++ separator :: rest = second ++ separator :: rest') : first = second ∧ rest = rest' := by
  induction first generalizing second with
  | nil =>
      cases second with
      | nil => exact ⟨rfl, (List.cons.inj same).2⟩
      | cons b more => exact absurd (List.cons.inj same).1 fun equal => free' (equal ▸ List.mem_cons_self)
  | cons a others ih =>
      cases second with
      | nil => exact absurd (List.cons.inj same).1 fun equal => free (equal ▸ List.mem_cons_self)
      | cons b more =>
          obtain ⟨head, tail⟩ := List.cons.inj same
          obtain ⟨equal, behind⟩ := ih (fun member => free (List.mem_cons_of_mem _ member))
            (fun member => free' (List.mem_cons_of_mem _ member)) tail
          exact ⟨by rw [head, equal], behind⟩

theorem intercalate_inj {parts parts' : List (List β)} (length : parts.length = parts'.length)
    (free : ∀ part ∈ parts.dropLast, separator ∉ part) (free' : ∀ part ∈ parts'.dropLast, separator ∉ part)
    (same : [separator].intercalate parts = [separator].intercalate parts') : parts = parts' := by
  induction parts generalizing parts' with
  | nil => exact (List.length_eq_zero_iff.1 length.symm).symm
  | cons part rest ih =>
      cases parts' with
      | nil => cases length
      | cons part' rest' =>
          cases rest with
          | nil =>
              have single : rest' = [] := List.length_eq_zero_iff.1 (Nat.succ.inj length).symm
              subst single
              simpa using same
          | cons next more =>
              cases rest' with
              | nil => cases length
              | cons next' more' =>
                  rw [List.intercalate_cons_cons, List.intercalate_cons_cons, List.append_assoc, List.append_assoc] at same
                  obtain ⟨equal, behind⟩ := separated_inj (free part List.mem_cons_self)
                    (free' part' List.mem_cons_self) same
                  rw [equal, ih (Nat.succ.inj length) (fun p member => free p (List.mem_cons_of_mem _ member))
                    (fun p member => free' p (List.mem_cons_of_mem _ member)) behind]

end Separated

/-! ## Places -/

structure Place where
  deviceId : DeviceId
  table : String
  column : String
  parts : List Bytes
  deriving DecidableEq

def Place.context (place : Place) : BlobContext :=
  ⟨place.deviceId, place.table, place.column, joinedRow place.parts⟩

/-- Names without a zero byte, and as many parts as the table's rows have, of which only the last may
hold one. -/
structure Named (arity : String → Nat) (place : Place) : Prop where
  table : 0 ∉ textBytes place.table
  column : 0 ∉ textBytes place.column
  parts : ∀ part ∈ place.parts.dropLast, 0 ∉ part
  arity : place.parts.length = arity place.table

theorem textBytes_inj {text text' : String} (same : textBytes text = textBytes text') : text = text' :=
  String.toByteArray_inj.1 (ByteArray.ext (Array.toList_inj.1 same))

theorem beBytes_inj {n n' : UInt32} (same : beBytes n = beBytes n') : n = n' := by
  simp only [beBytes, List.cons.injEq, and_true] at same
  obtain ⟨a, b, c, d⟩ := same
  replace a := congrArg UInt8.toNat a
  replace b := congrArg UInt8.toNat b
  replace c := congrArg UInt8.toNat c
  replace d := congrArg UInt8.toNat d
  simp [Nat.shiftRight_eq_div_pow] at a b c d
  have low := n.toNat_lt
  have low' := n'.toNat_lt
  apply UInt32.toNat_inj.1
  omega

theorem Place.aad (place : Place) : contextAad place.context = beBytes place.deviceId.toUInt32 ++
    (textBytes place.table ++ 0 :: (textBytes place.column ++ 0 :: joinedRow place.parts)) := by
  simp [contextAad, Place.context]

theorem aad_injOn (arity : String → Nat) :
    Set.InjOn (fun place : Place => contextAad place.context) {place | Named arity place} := by
  intro place named place' named' same
  dsimp only at same
  rw [place.aad, place'.aad] at same
  obtain ⟨device, same⟩ := List.append_inj same rfl
  obtain ⟨table, same⟩ := separated_inj named.table named'.table same
  obtain ⟨column, row⟩ := separated_inj named.column named'.column same
  have tables := textBytes_inj table
  have length : place.parts.length = place'.parts.length := by rw [named.arity, named'.arity, tables]
  have parts := intercalate_inj length named.parts named'.parts row
  have devices : place.deviceId = place'.deviceId := congrArg UInt32.toInt32 (beBytes_inj device)
  cases place
  cases place'
  cases devices
  cases tables
  cases textBytes_inj column
  cases parts
  rfl

/-! ## No index is out of range -/

variable {crypto : Crypto} {key key' : StoreKey} {nonce : Nonce} {context : BlobContext} {plaintext stored : Bytes}

theorem indexed_splitBlob : Indexed.splitBlob crypto key context stored = some (splitBlob crypto key context stored) := by
  unfold Indexed.splitBlob splitBlob
  split
  · rfl
  · rename_i long
    -- at least 45 bytes
    obtain ⟨v, a, b, c, d, rest, rfl⟩ : ∃ v a b c d rest, stored = v :: a :: b :: c :: d :: rest := by
      rcases stored with _ | ⟨v, _ | ⟨a, _ | ⟨b, _ | ⟨c, _ | ⟨d, rest⟩⟩⟩⟩⟩
      case cons.cons.cons.cons.cons => exact ⟨v, a, b, c, d, rest, rfl⟩
      all_goals simp [headerLen, tagLen] at long
    simp only [headerLen, tagLen, List.length_cons, not_lt] at long
    have nonce : 24 ≤ rest.length := by omega
    by_cases version : v = blobVersion
    · by_cases id : [a, b, c, d] = crypto.id key
      · simp [Indexed.index, Indexed.slice, version, id, headerLen, nonce]
      · simp [Indexed.index, Indexed.slice, version, id]
    · simp [Indexed.index, version]

theorem indexed_open {cipher : BlobCipher} :
    Indexed.open crypto cipher context stored = some (BlobCipher.open crypto cipher context stored) := by
  cases cipher with
  | passthrough => rfl
  | sealing key =>
      simp only [Indexed.open, BlobCipher.open, indexed_splitBlob]
      split
      · rfl
      · simp only [Option.map_some]

/-! ## Opening -/

theorem open_of_place {arity : String → Nat} {place place' : Place} (named : Named arity place)
    (named' : Named arity place') (present : plaintext ≠ []) :
    ∃ blob, BlobCipher.seal crypto (.sealing key) (some nonce) place.context plaintext = .ok blob ∧
      if key' = key ∧ place' = place then BlobCipher.open crypto (.sealing key') place'.context blob = .ok plaintext
      else ∃ e, BlobCipher.open crypto (.sealing key') place'.context blob = .error e := by
  have sealed : BlobCipher.seal crypto (.sealing key) (some nonce) place.context plaintext =
      .ok (blobOf crypto key nonce place.context plaintext) := by
    simp [BlobCipher.seal, present, blobOf]
  refine ⟨_, sealed, ?_⟩
  split
  · rename_i same
    rw [same.1, same.2]
    exact open_seal sealed
  · rename_i other
    cases opens : BlobCipher.open crypto (.sealing key') place'.context
        (blobOf crypto key nonce place.context plaintext) with
    | error e => exact ⟨e, rfl⟩
    | ok opened =>
        obtain ⟨sameKey, sameAad⟩ := open_where sealed present opens
        exact absurd ⟨sameKey, aad_injOn arity named' named sameAad⟩ other

/-- A blob opens under its key at its place, and nowhere else; no two places share their associated
data; what is empty stays empty; and no byte string takes `open` out of range. -/
theorem opens_where_sealed (crypto : Crypto) (arity : String → Nat) :
    (∀ place place', Named arity place → Named arity place' → ∀ key key' nonce plaintext, plaintext ≠ [] →
      ∃ blob, BlobCipher.seal crypto (.sealing key) (some nonce) place.context plaintext = .ok blob ∧
        if key' = key ∧ place' = place then BlobCipher.open crypto (.sealing key') place'.context blob = .ok plaintext
        else ∃ e, BlobCipher.open crypto (.sealing key') place'.context blob = .error e) ∧
    Set.InjOn (fun place : Place => contextAad place.context) {place | Named arity place} ∧
    (∀ key nonce context, BlobCipher.seal crypto (.sealing key) nonce context [] = .ok [] ∧
      BlobCipher.open crypto (.sealing key) context [] = .ok []) ∧
    ∀ cipher context stored, Indexed.open crypto cipher context stored =
      some (BlobCipher.open crypto cipher context stored) := by
  refine ⟨?_, aad_injOn arity, fun _ _ _ => ⟨rfl, rfl⟩, fun _ _ _ => indexed_open⟩
  intro place place' named named' key key' nonce plaintext present
  exact open_of_place named named' present

def partsOf (table : String) : Nat :=
  match sealedColumns.find? (·.table == table) with
  | some column => column.key.length
  | none => 0

/-- Two rows that differ in where the first part ends, the last part with a zero byte in it. -/
def macRow (name mac : Bytes) : Place := ⟨1, "app_state_mutation_macs", "value_mac", [name, mac]⟩

theorem opens_where_sealed_macs : ∃ blob,
    BlobCipher.seal openLetter (.sealing ⟨List.replicate 32 7, rfl⟩) (some ⟨List.replicate 24 9, rfl⟩)
      (macRow [97] [98, 0, 99]).context [1] = .ok blob ∧
    BlobCipher.open openLetter (.sealing ⟨List.replicate 32 7, rfl⟩) (macRow [97] [98, 0, 99]).context blob = .ok [1] ∧
    ∃ e, BlobCipher.open openLetter (.sealing ⟨List.replicate 32 7, rfl⟩) (macRow [97, 98] [0, 99]).context blob =
      .error e := by
  have named : Named partsOf (macRow [97] [98, 0, 99]) := ⟨by decide, by decide, by decide, by decide⟩
  have named' : Named partsOf (macRow [97, 98] [0, 99]) := ⟨by decide, by decide, by decide, by decide⟩
  obtain ⟨blob, sealed, opens⟩ := (opens_where_sealed openLetter partsOf).1 _ _ named named ⟨List.replicate 32 7, rfl⟩
    ⟨List.replicate 32 7, rfl⟩ ⟨List.replicate 24 9, rfl⟩ [1] (by simp)
  obtain ⟨blob', sealed', refused⟩ := (opens_where_sealed openLetter partsOf).1 _ _ named named'
    ⟨List.replicate 32 7, rfl⟩ ⟨List.replicate 32 7, rfl⟩ ⟨List.replicate 24 9, rfl⟩ [1] (by simp)
  rw [sealed] at sealed'
  cases sealed'
  rw [if_pos ⟨rfl, rfl⟩] at opens
  rw [if_neg (by decide)] at refused
  exact ⟨blob, sealed, opens, refused⟩

end Wamux.Proof.Encryption
