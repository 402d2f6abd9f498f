import Wamux.Protobuf.Wire

namespace Wamux.Protobuf
variable {α μ : Type}

/-! ## Values -/

structure Value (α : Type) where
  write : α → Payload
  read : Payload → Except String α
  read_write : ∀ a, read (write a) = .ok a

def ofVarint (toNat : α → Nat) (ofNat : Nat → α) (inverse : ∀ a, ofNat (toNat a) = a) : Value α where
  write a := .varint (toNat a)
  read
    | .varint value => .ok (ofNat value)
    | .len _ => .error "invalid wire type"
  read_write a := congrArg Except.ok (inverse a)

def uint64 : Value UInt64 := ofVarint UInt64.toNat UInt64.ofNat fun _ => UInt64.ofNat_toNat

def uint32 : Value UInt32 := ofVarint UInt32.toNat UInt32.ofNat fun _ => UInt32.ofNat_toNat

def int64 : Value Int64 :=
  ofVarint (fun a => a.toUInt64.toNat) (fun n => (UInt64.ofNat n).toInt64) fun a => by simp

/-- A negative `int32` is sign-extended. -/
def int32 : Value Int32 :=
  ofVarint (fun a => a.toInt64.toUInt64.toNat) (fun n => (UInt64.ofNat n).toInt64.toInt32) fun a => by simp

def bool : Value Bool := ofVarint Bool.toNat (· != 0) fun a => by cases a <;> rfl

def bytes : Value Bytes where
  write a := .len a
  read
    | .len bytes => .ok bytes
    | .varint _ => .error "invalid wire type"
  read_write _ := rfl

def string : Value String where
  write a := .len a.toByteArray.data.toList
  read
    | .len bytes =>
        match String.fromUTF8? ⟨bytes.toArray⟩ with
        | some a => .ok a
        | none => .error "invalid string value: data is not UTF-8 encoded"
    | .varint _ => .error "invalid wire type"
  read_write a := by
    have valid : String.fromUTF8? a.toByteArray = some a := by
      rw [String.fromUTF8?, dif_pos a.isValidUTF8]
      rfl
    simp [valid]

/-! ## Slots -/

structure Slot (α : Type) where
  write : α → List Payload
  read : List Payload → Except String α
  read_write : ∀ a, read (write a) = .ok a

def singular [DecidableEq α] (value : Value α) (default : α) : Slot α where
  write a := if a = default then [] else [value.write a]
  read payloads :=
    match payloads.getLast? with
    | none => .ok default
    | some payload => value.read payload
  read_write a := by
    by_cases same : a = default
    · simp [same]
    · simp [same, value.read_write]

def optional (value : Value α) : Slot (Option α) where
  write a := a.toList.map value.write
  read payloads :=
    match payloads.getLast? with
    | none => .ok none
    | some payload => (value.read payload).map some
  read_write a := by
    cases a with
    | none => rfl
    | some a => simp [value.read_write, Except.map]

/-! ## Messages -/

structure Codec (μ : Type) where
  toFields : μ → List Field
  ofFields : List Field → Except String μ
  ofFields_toFields : ∀ message, ofFields (toFields message) = .ok message

def Codec.encode (codec : Codec μ) (message : μ) : Bytes := serialize (codec.toFields message)

def Codec.decode (codec : Codec μ) (bytes : Bytes) : Except String μ := do
  codec.ofFields (← parse bytes)

theorem Codec.decode_encode (codec : Codec μ) (message : μ) : codec.decode (codec.encode message) = .ok message := by
  rw [Codec.decode, Codec.encode, parse_serialize]
  exact codec.ofFields_toFields message

def embed (codec : Codec μ) (message : μ) : Payload := .len (codec.encode message)

def Payload.fields : Payload → Except String (List Field)
  | .len bytes => parse bytes
  | .varint _ => .error "invalid wire type"

theorem fields_embed (codec : Codec μ) (message : μ) : (embed codec message).fields = .ok (codec.toFields message) :=
  parse_serialize _

/-- Merging messages is reading their fields one after the other. -/
def embedded (codec : Codec μ) : Slot (Option μ) where
  write message := message.toList.map (embed codec)
  read
    | [] => .ok none
    | payloads => do
        let fields ← payloads.mapM Payload.fields
        return some (← codec.ofFields fields.flatten)
  read_write message := by
    cases message with
    | none => rfl
    | some message =>
        simp [fields_embed, codec.ofFields_toFields, bind, Except.bind, pure, Except.pure]

def repeated (codec : Codec μ) : Slot (List μ) where
  write messages := messages.map (embed codec)
  read payloads := payloads.mapM fun payload => do codec.ofFields (← payload.fields)
  read_write messages := by
    induction messages with
    | nil => rfl
    | cons message rest ih =>
        rw [List.map_cons, List.mapM_cons, ih, fields_embed]
        simp [codec.ofFields_toFields, bind, Except.bind, pure, Except.pure]

/-! ## The fields of a message -/

def payloads (number : Number) (fields : List Field) : List Payload :=
  (fields.filter (·.number = number)).map Field.payload

def Slot.fields (slot : Slot α) (number : Number) (a : α) : List Field := (slot.write a).map (Field.mk number)

def Slot.get (slot : Slot α) (number : Number) (fields : List Field) : Except String α :=
  slot.read (payloads number fields)

theorem payloads_append (number : Number) (fields fields' : List Field) :
    payloads number (fields ++ fields') = payloads number fields ++ payloads number fields' := by
  simp [payloads]

theorem payloads_own (slot : Slot α) (number : Number) (a : α) :
    payloads number (slot.fields number a) = slot.write a := by
  simp [payloads, Slot.fields, List.filter_map, Function.comp_def]

theorem payloads_other (slot : Slot α) {number number' : Number} (other : number' ≠ number) (a : α) :
    payloads number (slot.fields number' a) = [] := by
  simp [payloads, Slot.fields, List.filter_map, Function.comp_def, other]

end Wamux.Protobuf
