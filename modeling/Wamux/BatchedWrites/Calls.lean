import Wamux.Runs.RowLocks
import Wamux.BatchedWrites.Statements
import Wamux.BlobCodec.Codec

namespace Wamux.BatchedWrites
open Runs Runs.Keyed
open Encryption (Bytes DeviceId Crypto BlobCipher Nonce)
open Encryption.Tables (sealAt)
open BlobCodec (Prost HashState encodeHashState)

inductive RowError where
  | sealing (error : Encryption.StoreError)
  | serialization (message : String)
  deriving DecidableEq, Repr

structure AppStateMutationMAC where
  indexMac : Bytes
  valueMac : Bytes

structure LidPnMappingEntry where
  lid : String
  phoneNumber : String
  createdAt : Int64
  updatedAt : Int64
  learningSource : String

structure DeviceListRecord (info : Type) where
  user : String
  devices : List info
  timestamp : Int64
  phash : Option String
  rawId : Option UInt32

/-- `serde_json::to_string` of the devices. -/
abbrev ToJson (info : Type) := List info → Except String String

abbrev Prepared := Except RowError (Statement Key Row)

variable {info : Type} (crypto : Crypto) (cipher : BlobCipher) (prost : Prost) (toJson : ToJson info)
  (device : DeviceId)

def sealed (nonce : Option Nonce) (slot : Encryption.Tables.Slot) (plaintext : Bytes) : Except RowError Bytes :=
  (sealAt crypto cipher device nonce slot plaintext).mapError .sealing

def devicesJson (record : DeviceListRecord info) : Except RowError String :=
  (toJson record.devices).mapError .serialization

/-! ## One row -/

namespace OneRow

def putIdentity (nonce : Option Nonce) (address : String) (key : Bytes) : Prepared := do
  return Statements.putIdentity device address (← sealed crypto cipher device nonce (.identity address) key)

def deleteIdentity (address : String) : Prepared := .ok (Statements.deleteIdentity device address)

def putSession (nonce : Option Nonce) (address : String) (session : Bytes) : Prepared := do
  return Statements.putSession device address (← sealed crypto cipher device nonce (.session address) session)

def deleteSession (address : String) : Prepared := .ok (Statements.deleteSession device address)

def putSenderKey (nonce : Option Nonce) (address : String) (record : Bytes) : Prepared := do
  return Statements.putSenderKey device address (← sealed crypto cipher device nonce (.senderKey address) record)

def deleteSenderKey (address : String) : Prepared := .ok (Statements.deleteSenderKey device address)

def storePrekey (nonce : Option Nonce) (id : UInt32) (record : Bytes) (uploaded : Bool) : Prepared := do
  return Statements.storePrekey device id.toInt32 (← sealed crypto cipher device nonce (.prekey id) record) uploaded

def removePrekey (id : UInt32) : Prepared := .ok (Statements.deletePrekey device id.toInt32)

def setVersion (nonce : Option Nonce) (name : String) (state : HashState) : Prepared := do
  let data ← sealed crypto cipher device nonce (.version name) (encodeHashState prost state)
  return Statements.setVersion device name data

/-- `put_mutation_macs` of one MAC. -/
def putMutationMac (nonce : Option Nonce) (name : String) (version : UInt64) (mutation : AppStateMutationMAC) :
    Prepared := do
  let value ← sealed crypto cipher device nonce (.mutationMac name mutation.indexMac) mutation.valueMac
  return Statements.putMutationMac device name version.toInt64 mutation.indexMac value

/-- `delete_mutation_macs` of one index. -/
def deleteMutationMac (name : String) (indexMac : Bytes) : Prepared :=
  .ok (Statements.deleteMutationMac device name indexMac)

def putLidMapping (entry : LidPnMappingEntry) : Prepared :=
  .ok (Statements.putLidMapping device entry.lid entry.phoneNumber entry.createdAt entry.learningSource
    entry.updatedAt)

def updateDeviceList (now : Int64) (record : DeviceListRecord info) : Prepared := do
  let devicesJson ← devicesJson toJson record
  return Statements.updateDeviceList device record.user devicesJson record.timestamp record.phash now
    (record.rawId.map (·.toInt32))

end OneRow

/-! ## Batches -/

inductive Body where
  /-- `Ok` before any transaction. -/
  | nothing
  /-- `Err` before any transaction. -/
  | fails (error : RowError)
  /-- The rows of the transaction as they are prepared, up to the first that cannot be. -/
  | transaction (rows : List Prepared)

def Body.ofRows {α : Type} (items : List α) (row : Nat → α → Prepared) : Body :=
  if items.isEmpty then .nothing else .transaction (items.mapIdx row)

structure SealedColumn where
  sql : String → Bytes → Statement Key Row
  table : String
  column : String

section Batches
-- The nonce drawn for each row.
variable (nonces : Nat → Option Nonce)

def putAddressRecords (target : SealedColumn) (records : List (String × Bytes)) : Body :=
  .ofRows records fun i (address, record) => do
    let stored ← (cipher.seal crypto (nonces i)
      ⟨device, target.table, target.column, Encryption.textBytes address⟩ record).mapError .sealing
    return target.sql address stored

def deleteByAddress (sql : String → Statement Key Row) (addresses : List String) : Body :=
  .ofRows addresses fun _ address => .ok (sql address)

def putIdentities (identities : List (String × Bytes)) : Body :=
  .ofRows identities fun i (address, key) => do
    let stored ← sealed crypto cipher device (nonces i) (.identity address) key
    return Statements.putIdentity device address stored

def deleteIdentities (addresses : List String) : Body := deleteByAddress (Statements.deleteIdentity device) addresses

def putSessions (sessions : List (String × Bytes)) : Body :=
  putAddressRecords crypto cipher device nonces ⟨Statements.putSession device, "sessions", "record"⟩ sessions

def deleteSessions (addresses : List String) : Body := deleteByAddress (Statements.deleteSession device) addresses

def putSenderKeys (senderKeys : List (String × Bytes)) : Body :=
  putAddressRecords crypto cipher device nonces ⟨Statements.putSenderKey device, "sender_keys", "record"⟩ senderKeys

def deleteSenderKeys (addresses : List String) : Body :=
  deleteByAddress (Statements.deleteSenderKey device) addresses

def storePrekeys (keys : List (UInt32 × Bytes)) (uploaded : Bool) : Body :=
  .ofRows keys fun i (id, record) => do
    let stored ← sealed crypto cipher device (nonces i) (.prekey id) record
    return Statements.storePrekey device id.toInt32 stored uploaded

def removePrekeys (ids : List UInt32) : Body :=
  .ofRows ids fun _ id => .ok (Statements.deletePrekey device id.toInt32)

def putLidMappings (entries : List LidPnMappingEntry) : Body :=
  .ofRows entries fun _ e =>
    .ok (Statements.putLidMapping device e.lid e.phoneNumber e.createdAt e.learningSource e.updatedAt)

/-- `put_device_list_in`; the time is read once. -/
def updateDeviceLists (now : Int64) (records : List (DeviceListRecord info)) : Body :=
  .ofRows records fun _ record => do
    let devicesJson ← devicesJson toJson record
    return Statements.updateDeviceList device record.user devicesJson record.timestamp record.phash now
      (record.rawId.map (·.toInt32))

def putMacsIn (name : String) (version : UInt64) (added : List AppStateMutationMAC) : List Prepared :=
  added.mapIdx fun i m => do
    let value ← sealed crypto cipher device (nonces i) (.mutationMac name m.indexMac) m.valueMac
    return Statements.putMutationMac device name version.toInt64 m.indexMac value

def deleteMacsIn (name : String) (indexMacs : List Bytes) : List Prepared :=
  indexMacs.map fun indexMac => .ok (Statements.deleteMutationMac device name indexMac)

def putMutationMacs (name : String) (version : UInt64) (mutations : List AppStateMutationMAC) : Body :=
  .transaction (putMacsIn crypto cipher device nonces name version mutations)

def deleteMutationMacs (name : String) (indexMacs : List Bytes) : Body :=
  .transaction (deleteMacsIn device name indexMacs)

/-- The state is sealed before the transaction begins. -/
def commitPatch (name : String) (state : HashState) (removedIndexMacs : List Bytes)
    (added : List AppStateMutationMAC) : Body :=
  match sealed crypto cipher device (nonces 0) (.version name) (encodeHashState prost state) with
  | .error error => .fails error
  | .ok data => .transaction (.ok (Statements.setVersion device name data) :: deleteMacsIn device name removedIndexMacs ++
      putMacsIn crypto cipher device (fun i => nonces (i + 1)) name state.version added)

end Batches

inductive Call (info : Type) where
  | putIdentities (nonces : Nat → Option Nonce) (identities : List (String × Bytes))
  | deleteIdentities (addresses : List String)
  | putSessions (nonces : Nat → Option Nonce) (sessions : List (String × Bytes))
  | deleteSessions (addresses : List String)
  | putSenderKeys (nonces : Nat → Option Nonce) (senderKeys : List (String × Bytes))
  | deleteSenderKeys (addresses : List String)
  | storePrekeys (nonces : Nat → Option Nonce) (keys : List (UInt32 × Bytes)) (uploaded : Bool)
  | removePrekeys (ids : List UInt32)
  | putLidMappings (entries : List LidPnMappingEntry)
  | updateDeviceLists (now : Int64) (records : List (DeviceListRecord info))
  | putMutationMacs (nonces : Nat → Option Nonce) (name : String) (version : UInt64)
      (mutations : List AppStateMutationMAC)
  | deleteMutationMacs (name : String) (indexMacs : List Bytes)
  | commitPatch (nonces : Nat → Option Nonce) (name : String) (state : HashState) (removedIndexMacs : List Bytes)
      (added : List AppStateMutationMAC)

structure Store (info : Type) where
  crypto : Crypto
  cipher : BlobCipher
  prost : Prost
  toJson : ToJson info
  device : DeviceId

def Store.body (store : Store info) : Call info → Body
  | .putIdentities nonces identities => putIdentities store.crypto store.cipher store.device nonces identities
  | .deleteIdentities addresses => deleteIdentities store.device addresses
  | .putSessions nonces sessions => putSessions store.crypto store.cipher store.device nonces sessions
  | .deleteSessions addresses => deleteSessions store.device addresses
  | .putSenderKeys nonces senderKeys => putSenderKeys store.crypto store.cipher store.device nonces senderKeys
  | .deleteSenderKeys addresses => deleteSenderKeys store.device addresses
  | .storePrekeys nonces keys uploaded => storePrekeys store.crypto store.cipher store.device nonces keys uploaded
  | .removePrekeys ids => removePrekeys store.device ids
  | .putLidMappings entries => putLidMappings store.device entries
  | .updateDeviceLists now records => updateDeviceLists store.toJson store.device now records
  | .putMutationMacs nonces name version mutations =>
      putMutationMacs store.crypto store.cipher store.device nonces name version mutations
  | .deleteMutationMacs name indexMacs => deleteMutationMacs store.device name indexMacs
  | .commitPatch nonces name state removedIndexMacs added =>
      commitPatch store.crypto store.cipher store.prost store.device nonces name state removedIndexMacs added

/-- The one-row writes a batch stands for, in list order; a patch is `set_version`, the removals, the
additions. -/
def Store.oneRowWrites (store : Store info) : Call info → List Prepared
  | .putIdentities nonces identities => identities.mapIdx fun i (address, key) =>
      OneRow.putIdentity store.crypto store.cipher store.device (nonces i) address key
  | .deleteIdentities addresses => addresses.map (OneRow.deleteIdentity store.device)
  | .putSessions nonces sessions => sessions.mapIdx fun i (address, session) =>
      OneRow.putSession store.crypto store.cipher store.device (nonces i) address session
  | .deleteSessions addresses => addresses.map (OneRow.deleteSession store.device)
  | .putSenderKeys nonces senderKeys => senderKeys.mapIdx fun i (address, record) =>
      OneRow.putSenderKey store.crypto store.cipher store.device (nonces i) address record
  | .deleteSenderKeys addresses => addresses.map (OneRow.deleteSenderKey store.device)
  | .storePrekeys nonces keys uploaded => keys.mapIdx fun i (id, record) =>
      OneRow.storePrekey store.crypto store.cipher store.device (nonces i) id record uploaded
  | .removePrekeys ids => ids.map (OneRow.removePrekey store.device)
  | .putLidMappings entries => entries.map (OneRow.putLidMapping store.device)
  | .updateDeviceLists now records => records.map (OneRow.updateDeviceList store.toJson store.device now)
  | .putMutationMacs nonces name version mutations => mutations.mapIdx fun i mutation =>
      OneRow.putMutationMac store.crypto store.cipher store.device (nonces i) name version mutation
  | .deleteMutationMacs name indexMacs => indexMacs.map (OneRow.deleteMutationMac store.device name)
  | .commitPatch nonces name state removedIndexMacs added =>
      OneRow.setVersion store.crypto store.cipher store.prost store.device (nonces 0) name state ::
        removedIndexMacs.map (OneRow.deleteMutationMac store.device name) ++ added.mapIdx fun i mutation =>
          OneRow.putMutationMac store.crypto store.cipher store.device (nonces (i + 1)) name state.version mutation

end Wamux.BatchedWrites
