import Wamux.Encryption.Cipher

namespace Wamux.Encryption

inductive KeyColumn where
  | text (name : String)
  | id (name : String)
  | bytes (name : String)
  deriving DecidableEq, Repr

inductive RowPart where
  | text (value : String)
  | int (value : Int64)
  | bytes (value : Bytes)
  deriving DecidableEq

structure SealedColumn where
  table : String
  column : String
  key : List KeyColumn
  deriving DecidableEq, Repr

def sealedColumns : List SealedColumn :=
  [⟨"device", "data", []⟩,
   ⟨"identities", "key", [.text "address"]⟩,
   ⟨"sessions", "record", [.text "address"]⟩,
   ⟨"prekeys", "key", [.id "id"]⟩,
   ⟨"signed_prekeys", "record", [.id "id"]⟩,
   ⟨"sender_keys", "record", [.text "address"]⟩,
   ⟨"app_state_keys", "key_data", [.bytes "key_id"]⟩,
   ⟨"app_state_versions", "state_data", [.text "name"]⟩,
   ⟨"app_state_mutation_macs", "value_mac", [.text "name", .bytes "index_mac"]⟩,
   ⟨"base_keys", "base_key", [.text "address", .text "message_id"]⟩,
   ⟨"tc_tokens", "token", [.text "jid"]⟩,
   ⟨"msg_secrets", "secret", [.text "chat", .text "sender", .text "msg_id"]⟩,
   ⟨"sent_messages", "payload", [.text "chat_jid", .text "message_id"]⟩]

def partBytes : RowPart → Bytes
  | .text value => textBytes value
  | .int value => beBytes value.toUInt64.toUInt32
  | .bytes value => value

/-- The parts joined by a zero byte; also `blob_cipher::joined_row`. -/
def joinedRow (parts : List Bytes) : Bytes := [(0 : UInt8)].intercalate parts

def rowKey (parts : List RowPart) : Bytes := joinedRow (parts.map partBytes)

def rowContext (device : DeviceId) (column : SealedColumn) (parts : List RowPart) : BlobContext :=
  ⟨device, column.table, column.column, rowKey parts⟩

end Wamux.Encryption
