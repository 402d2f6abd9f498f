import Mathlib.Algebra.Order.Ring.Nat
import Mathlib.Data.List.Basic

/-!
# The wire format of proto3

A message is a sequence of fields, each a key (number and wire type) and a payload. Varints and
lengths are unbounded.
-/

namespace Wamux.Protobuf

abbrev Bytes := List UInt8

abbrev Number := Fin (2 ^ 29)

inductive Payload where
  | varint (value : Nat)
  | len (bytes : Bytes)
  deriving DecidableEq, Repr

structure Field where
  number : Number
  payload : Payload
  deriving DecidableEq, Repr

/-! ## Varints -/

/-- Seven bits a byte, lowest first; all but the last have the high bit. -/
def groups : Nat → Nat → Bytes
  | 0, n => [n.toUInt8]
  | fuel + 1, n => if n < 128 then [n.toUInt8] else (n % 128 + 128).toUInt8 :: groups fuel (n / 128)

def varint (n : Nat) : Bytes := groups n n

def readVarint : Bytes → Except String (Nat × Bytes)
  | [] => .error "invalid varint"
  | byte :: rest =>
      if byte.toNat < 128 then .ok (byte.toNat, rest)
      else do
        let (high, rest) ← readVarint rest
        return (byte.toNat - 128 + 128 * high, rest)

theorem readVarint_small {n : Nat} (small : n < 128) (rest : Bytes) : readVarint (n.toUInt8 :: rest) = .ok (n, rest) := by
  have value : n.toUInt8.toNat = n := UInt8.toNat_ofNat_of_lt' (by simp only [UInt8.size]; omega)
  rw [readVarint, value, if_pos small]

theorem readVarint_large {high n : Nat} {bytes rest : Bytes} (tail : readVarint bytes = .ok (high, rest)) :
    readVarint ((n % 128 + 128).toUInt8 :: bytes) = .ok (n % 128 + 128 * high, rest) := by
  have value : (n % 128 + 128).toUInt8.toNat = n % 128 + 128 :=
    UInt8.toNat_ofNat_of_lt' (by simp only [UInt8.size]; omega)
  rw [readVarint, value, if_neg (by omega), tail, Nat.add_sub_cancel]
  rfl

theorem readVarint_groups {fuel n : Nat} (enough : n ≤ fuel) (rest : Bytes) :
    readVarint (groups fuel n ++ rest) = .ok (n, rest) := by
  induction fuel generalizing n with
  | zero => exact readVarint_small (by omega) rest
  | succ fuel ih =>
      rw [groups]
      split
      · rename_i small
        exact readVarint_small small rest
      · have tail := ih (n := n / 128) (by omega)
        rw [List.cons_append, readVarint_large tail, Nat.mod_add_div]

theorem readVarint_varint (n : Nat) (rest : Bytes) : readVarint (varint n ++ rest) = .ok (n, rest) :=
  readVarint_groups (Nat.le_refl n) rest

/-! ## Fields -/

def Field.write (field : Field) : Bytes :=
  match field.payload with
  | .varint value => varint (field.number.1 * 8) ++ varint value
  | .len bytes => varint (field.number.1 * 8 + 2) ++ (varint bytes.length ++ bytes)

def readPayload (wireType : Nat) (bytes : Bytes) : Except String (Payload × Bytes) :=
  match wireType with
  | 0 => do
      let (value, rest) ← readVarint bytes
      return (.varint value, rest)
  | 2 => do
      let (length, rest) ← readVarint bytes
      if length ≤ rest.length then return (.len (rest.take length), rest.drop length)
      else .error "buffer underflow"
  | _ => .error "invalid wire type value"

def readField (bytes : Bytes) : Except String (Field × Bytes) := do
  let (key, rest) ← readVarint bytes
  if small : key / 8 < 2 ^ 29 then
    let (payload, rest) ← readPayload (key % 8) rest
    return (⟨⟨key / 8, small⟩, payload⟩, rest)
  else .error "invalid key value"

theorem readPayload_varint (value : Nat) (rest : Bytes) :
    readPayload 0 (varint value ++ rest) = .ok (.varint value, rest) := by
  rw [readPayload, readVarint_varint]
  rfl

theorem readPayload_len (bytes rest : Bytes) :
    readPayload 2 (varint bytes.length ++ (bytes ++ rest)) = .ok (.len bytes, rest) := by
  simp [readPayload, readVarint_varint, bind, Except.bind, pure, Except.pure]

theorem readField_key (number : Number) {wireType : Nat} (small : wireType < 8) {payload : Payload} {body rest : Bytes}
    (read : readPayload wireType body = .ok (payload, rest)) :
    readField (varint (number.1 * 8 + wireType) ++ body) = .ok (⟨number, payload⟩, rest) := by
  have quotient : (number.1 * 8 + wireType) / 8 = number.1 := by omega
  have remainder : (number.1 * 8 + wireType) % 8 = wireType := by omega
  simp only [readField, readVarint_varint, bind, Except.bind, quotient, remainder, number.2, dite_true, read]
  rfl

theorem readField_write (field : Field) (rest : Bytes) : readField (field.write ++ rest) = .ok (field, rest) := by
  obtain ⟨number, payload⟩ := field
  cases payload with
  | varint value =>
      have read := readField_key number (by omega : 0 < 8) (readPayload_varint value rest)
      rwa [Field.write, List.append_assoc]
  | len bytes =>
      have read := readField_key number (by omega : 2 < 8) (readPayload_len bytes rest)
      rwa [Field.write, List.append_assoc, List.append_assoc]

theorem write_ne_nil (field : Field) : field.write ≠ [] := by
  intro empty
  have read := readField_write field []
  rw [empty] at read
  cases read

/-! ## Messages -/

def serialize (fields : List Field) : Bytes := fields.flatMap Field.write

/-- Each field takes a byte at least, so as many rounds as there are bytes are enough. -/
def parseWith : Nat → Bytes → Except String (List Field)
  | 0, bytes => if bytes = [] then .ok [] else .error "buffer underflow"
  | fuel + 1, bytes =>
      if bytes = [] then .ok []
      else do
        let (field, rest) ← readField bytes
        return field :: (← parseWith fuel rest)

def parse (bytes : Bytes) : Except String (List Field) := parseWith bytes.length bytes

theorem parseWith_cons (fuel : Nat) (field : Field) (rest : Bytes) :
    parseWith (fuel + 1) (field.write ++ rest) = (parseWith fuel rest).map (field :: ·) := by
  have nonempty : field.write ++ rest ≠ [] := fun empty => write_ne_nil field (List.append_eq_nil_iff.1 empty).1
  rw [parseWith, if_neg nonempty, readField_write]
  simp only [bind, Except.bind]
  cases parseWith fuel rest <;> rfl

theorem parseWith_serialize (fields : List Field) {fuel : Nat} (enough : (serialize fields).length ≤ fuel) :
    parseWith fuel (serialize fields) = .ok fields := by
  induction fields generalizing fuel with
  | nil => cases fuel <;> rfl
  | cons field fields ih =>
      have written : 0 < field.write.length := List.length_pos_of_ne_nil (write_ne_nil field)
      have length : (serialize (field :: fields)).length = field.write.length + (serialize fields).length := by
        simp [serialize]
      obtain ⟨fuel, rfl⟩ : ∃ fuel', fuel = fuel' + 1 := ⟨fuel - 1, by omega⟩
      have rest : parseWith fuel (serialize fields) = .ok fields := ih (by omega)
      rw [show serialize (field :: fields) = field.write ++ serialize fields from rfl, parseWith_cons, rest]
      rfl

theorem parse_serialize (fields : List Field) : parse (serialize fields) = .ok fields :=
  parseWith_serialize fields (Nat.le_refl _)

end Wamux.Protobuf
