import Mathlib.Data.List.ReduceOption
import Mathlib.Logic.Function.Basic
import Wamux.BatchedReads.Statements
import Wamux.TcTokens.Table

namespace Wamux.BatchedReads
open Encryption (Bytes DeviceId Crypto BlobCipher StoreError)
open Encryption.Tables (StoredRow Value asInt asInt32 asText asBlob openAt paddedChunks)
open TcTokens (TcTokenEntry)

/-- `row_optional_sql!` and `scalar_optional_sql!`, with what is made of the row. -/
def optionalRow {α : Type} (query : Query) (binds : List Value) (read : StoredRow → Except StoreError α) (rows : List StoredRow) :
    Except StoreError (Option α) := do
  match ← query.run binds rows with
  | [] => return none
  | row :: _ => return some (← read row)

/-- `rows_in_list_sql!` for one chunk after the other; a row that is read as none is skipped. -/
def rowsInList {α : Type} (query : Query) (leading : List Value) (read : StoredRow → Except StoreError (Option α))
    (rows : List StoredRow) : List (List Value) → Except StoreError (List α)
  | [] => .ok []
  | chunk :: chunks => do
      let fetched ← query.run (leading ++ chunk) rows
      let found ← fetched.mapM read
      return found.reduceOption ++ (← rowsInList query leading read rows chunks)

def hashMap {κ α : Type} [DecidableEq κ] (entries : List (κ × α)) : κ → Option α :=
  entries.foldl (fun map (key, value) => Function.update map key (some value)) fun _ => none

section Methods
variable (crypto : Crypto) (cipher : BlobCipher) (device : DeviceId)

def deviceValue : Value := .int device.toInt64

/-! ## Sessions -/

def getSession (address : String) : List StoredRow → Except StoreError (Option Bytes) :=
  optionalRow GET_SESSION [.text address, deviceValue device] fun row => do
    openAt crypto cipher device (.session address) (← asBlob (row.cell "record"))

def sessionOf (row : StoredRow) : Except StoreError (Option (String × Bytes)) := do
  let address ← asText (row.cell "address")
  let stored ← asBlob (row.cell "record")
  let record ← openAt crypto cipher device (.session address) stored
  return some (address, record)

def getSessions (addresses : List String) (rows : List StoredRow) : Except StoreError (List (String × Bytes)) :=
  rowsInList SELECT_SESSIONS [deviceValue device] (sessionOf crypto cipher device) rows
    ((paddedChunks addresses).map (·.map .text))

/-! ## Prekeys -/

def idValue (id : UInt32) : Value := .int id.toInt32.toInt64

def loadPrekey (id : UInt32) : List StoredRow → Except StoreError (Option Bytes) :=
  optionalRow LOAD_PREKEY [idValue id, deviceValue device] fun row => do
    openAt crypto cipher device (.prekey id) (← asBlob (row.cell "key"))

/-- The id of a row is an `i32`, whose big-endian bytes are those of the `u32`. -/
def prekeyOf (row : StoredRow) : Except StoreError (Option (UInt32 × Bytes)) := do
  let id ← asInt32 (row.cell "id")
  let stored ← asBlob (row.cell "key")
  let record ← openAt crypto cipher device (.prekey id.toUInt32) stored
  return some (id.toUInt32, record)

def loadPrekeys (ids : List UInt32) (rows : List StoredRow) : Except StoreError (List (UInt32 × Bytes)) :=
  rowsInList SELECT_PREKEYS [deviceValue device] (prekeyOf crypto cipher device) rows
    ((paddedChunks ids).map (·.map idValue))

/-! ## The device registry -/

section Devices
variable {DeviceInfo : Type} (fromStr : String → Except StoreError (List DeviceInfo))

structure DeviceListRecord (DeviceInfo : Type) where
  user : String
  devices : List DeviceInfo
  timestamp : Int64
  phash : Option String
  rawId : Option UInt32

def deviceListRecord (row : StoredRow) : Except StoreError (DeviceListRecord DeviceInfo) := do
  let user ← asText (row.cell "user_id")
  let devicesJson ← asText (row.cell "devices_json")
  let timestamp ← asInt (row.cell "timestamp")
  let phash ← nullable asText (row.cell "phash")
  let rawId ← nullable asInt32 (row.cell "raw_id")
  let devices ← fromStr devicesJson
  return ⟨user, devices, timestamp, phash, rawId.map Int32.toUInt32⟩

def getDevices (user : String) : List StoredRow → Except StoreError (Option (DeviceListRecord DeviceInfo)) :=
  optionalRow GET_DEVICES [.text user, deviceValue device] (deviceListRecord fromStr)

def getDevicesBatch (users : List String) (rows : List StoredRow) : Except StoreError (List (DeviceListRecord DeviceInfo)) :=
  rowsInList SELECT_DEVICES [deviceValue device] (fun row => (deviceListRecord fromStr row).map some) rows
    ((paddedChunks users).map (·.map .text))

end Devices

/-! ## Trusted-contact tokens -/

def tcTokenRow (row : StoredRow) : Except StoreError TcTokens.Row := do
  let stored ← asBlob (row.cell "token")
  let tokenTimestamp ← asInt (row.cell "token_timestamp")
  let senderTimestamp ← nullable asInt (row.cell "sender_timestamp")
  return ⟨stored, tokenTimestamp, senderTimestamp⟩

def getTcToken (jid : String) : List StoredRow → Except StoreError (Option TcTokenEntry) :=
  optionalRow GET_TC_TOKEN [.text jid, deviceValue device] fun row => do
    TcTokens.entryOf crypto cipher device jid (← tcTokenRow row)

def tcTokenOf (row : StoredRow) : Except StoreError (Option (String × TcTokenEntry)) := do
  let jid ← asText (row.cell "jid")
  let stored ← tcTokenRow row
  let entry ← TcTokens.entryOf crypto cipher device jid stored
  return some (jid, entry)

/-- In the order asked, repeated positions kept. -/
def getTcTokens (jids : List String) (rows : List StoredRow) : Except StoreError (List (Option TcTokenEntry)) := do
  let found ← rowsInList SELECT_TC_TOKENS [deviceValue device] (tcTokenOf crypto cipher device) rows
    ((paddedChunks jids).map (·.map .text))
  return jids.map (hashMap found)

/-! ## Mutation MACs -/

abbrev IndexMac := { bytes : Bytes // bytes.length = 32 }

def getMutationMac (name : String) (indexMac : Bytes) : List StoredRow → Except StoreError (Option Bytes) :=
  optionalRow GET_MUTATION_MAC [.text name, .blob indexMac, deviceValue device] fun row => do
    openAt crypto cipher device (.mutationMac name indexMac) (← asBlob (row.cell "value_mac"))

/-- A stored index that is not 32 bytes cannot be one that was asked for. -/
def mutationMacOf (name : String) (row : StoredRow) : Except StoreError (Option (IndexMac × Bytes)) := do
  let index ← asBlob (row.cell "index_mac")
  let stored ← asBlob (row.cell "value_mac")
  if length : index.length = 32 then
    let mac ← openAt crypto cipher device (.mutationMac name index) stored
    return some (⟨index, length⟩, mac)
  else return none

def getMutationMacs (name : String) (indexMacs : List IndexMac) (rows : List StoredRow) :
    Except StoreError (IndexMac → Option Bytes) := do
  let found ← rowsInList SELECT_MUTATION_MACS [.text name, deviceValue device] (mutationMacOf crypto cipher device name) rows
    ((paddedChunks indexMacs).map (·.map fun indexMac => .blob indexMac.1))
  return hashMap found

end Methods
end Wamux.BatchedReads
