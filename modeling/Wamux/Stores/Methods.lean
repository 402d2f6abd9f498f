import Wamux.BatchedWrites.Calls
import Wamux.TcTokens.Table
import Wamux.Stores.Statements

namespace Wamux.Stores
open Runs Runs.Tables
open Encryption (Bytes DeviceId Crypto BlobCipher Nonce Engine StoreError)
open Encryption.Tables (Slot openAt)
open BatchedWrites (RowError AppStateMutationMAC LidPnMappingEntry DeviceListRecord ToJson sealed devicesJson)
open MsgSecrets (MsgSecretEntry)
open TcTokens (TcTokenEntry)

/-! ## Writes -/

/-- What the methods are called with; a `Device`, a `HashState` and a sync key as their encoding. -/
inductive Write (info : Type) where
  | save (data : Bytes)
  | create (data : Bytes)
  | putIdentity (address : String) (key : Bytes)
  | deleteIdentity (address : String)
  | putSession (address : String) (session : Bytes)
  | deleteSession (address : String)
  | storePrekey (id : UInt32) (record : Bytes) (uploaded : Bool)
  | markPrekeysUploaded (ids : List UInt32)
  | removePrekey (id : UInt32)
  | storeSignedPrekey (id : UInt32) (record : Bytes)
  | removeSignedPrekey (id : UInt32)
  | putSenderKey (address : String) (record : Bytes)
  | deleteSenderKey (address : String)
  | putIdentities (identities : List (String × Bytes))
  | deleteIdentities (addresses : List String)
  | putSessions (sessions : List (String × Bytes))
  | deleteSessions (addresses : List String)
  | storePrekeys (keys : List (UInt32 × Bytes)) (uploaded : Bool)
  | removePrekeys (ids : List UInt32)
  | putSenderKeys (senderKeys : List (String × Bytes))
  | deleteSenderKeys (addresses : List String)
  | setSyncKey (keyId data : Bytes)
  | setVersion (name : String) (data : Bytes)
  | deleteVersion (name : String)
  | putMutationMacs (name : String) (version : UInt64) (mutations : List AppStateMutationMAC)
  | deleteMutationMacs (name : String) (indexMacs : List Bytes)
  | clearMutationMacs (name : String)
  | commitPatch (name : String) (data : Bytes) (version : UInt64) (removed : List Bytes) (added : List AppStateMutationMAC)
  | setSenderKeyStatus (groupJid : String) (entries : List (String × Bool))
  | clearSenderKeyDevices (groupJid : String)
  | deleteSenderKeyDeviceRows (deviceJids : List String)
  | clearAllSenderKeyDevices
  | putLidMapping (entry : LidPnMappingEntry)
  | putLidMappings (entries : List LidPnMappingEntry)
  | saveBaseKey (address messageId : String) (baseKey : Bytes)
  | deleteBaseKey (address messageId : String)
  | deleteExpiredBaseKeys (cutoff : Int64)
  | updateDeviceList (record : DeviceListRecord info)
  | updateDeviceLists (records : List (DeviceListRecord info))
  | deleteDevices (user : String)
  | putTcToken (jid : String) (entry : TcTokenEntry)
  | deleteTcToken (jid : String)
  | deleteExpiredTcTokens (tokenCutoff senderCutoff : Int64)
  | touchTcTokenSenderTimestamp (jid : String) (senderTimestamp : Int64)
  | storeReceivedTcToken (jid : String) (token : Bytes) (tokenTimestamp : Int64)
  | storeSentMessage (chatJid messageId : String) (payload : Bytes)
  | takeSentMessage (chatJid messageId : String)
  | deleteExpiredSentMessages (cutoff : Int64)
  | putMsgSecrets (entries : List MsgSecretEntry)
  | deleteExpiredMsgSecrets (cutoff : Int64)

abbrev Prepared := Except RowError (List (Statement Key Row))

section Methods
variable {info : Type} (crypto : Crypto) (cipher : BlobCipher) (toJson : ToJson info) (engine : Engine) (device : DeviceId)

def sealing (nonce : Option Nonce) (slot : Slot) (plaintext : Bytes) (statement : Bytes → Statement Key Row) : Prepared := do
  return [statement (← sealed crypto cipher device nonce slot plaintext)]

def sealingEach {α : Type} (nonces : Nat → Option Nonce) (slot : α → Slot) (plaintext : α → Bytes)
    (statement : α → Bytes → Statement Key Row) (items : List α) : Prepared :=
  items.zipIdx.mapM fun item => do
    return statement item.1 (← sealed crypto cipher device (nonces item.2) (slot item.1) (plaintext item.1))

def statusStatement (groupJid : String) (entry : String × Bool) : Statement Key Row :=
  Statements.setSenderKeyStatus device groupJid entry.1 (if entry.2 then 1 else 0)

def lidStatement (entry : LidPnMappingEntry) : Statement Key Row :=
  Statements.putLidMapping device entry.lid entry.phoneNumber entry.createdAt entry.learningSource entry.updatedAt

def deviceListStatement (record : DeviceListRecord info) : Except RowError (Statement Key Row) := do
  return Statements.updateDeviceList device record.user (← devicesJson toJson record) record.timestamp record.phash
    (record.rawId.map (·.toInt32))

/-- Postgres binds one array; SQLite and Turso run one statement for each id, in one transaction. -/
def markUploaded (ids : List UInt32) : List (Statement Key Row) :=
  if ids.isEmpty then []
  else match engine with
    | .pg => [Statements.markPrekeysUploaded device (ids.map (·.toInt32))]
    | .sqlite => ids.map fun id => Statements.markPrekeyUploaded device id.toInt32

/-- What is not opened is not taken. -/
def takeStatements (rows : Rows) (chatJid messageId : String) : Prepared :=
  match rows.lookup ⟨device, .sealed (.sentMessage chatJid messageId)⟩ with
  | none => .ok []
  | some row => do
      let _ ← (openAt crypto cipher device (.sentMessage chatJid messageId) row.secret).mapError .sealing
      return [Statements.deleteSentMessage device chatJid messageId]

def Write.prepare (nonces : Nat → Option Nonce) (now : Int64) (rows : Rows) : Write info → Prepared
  | .save data => sealing crypto cipher device (nonces 0) .device data (Statements.saveDevice device)
  | .create data => sealing crypto cipher device (nonces 0) .device data (Statements.createDevice device)
  | .putIdentity address key =>
      sealing crypto cipher device (nonces 0) (.identity address) key (Statements.putIdentity device address)
  | .deleteIdentity address => .ok [Statements.deleteIdentity device address]
  | .putSession address session =>
      sealing crypto cipher device (nonces 0) (.session address) session (Statements.putSession device address)
  | .deleteSession address => .ok [Statements.deleteSession device address]
  | .storePrekey id record uploaded =>
      sealing crypto cipher device (nonces 0) (.prekey id) record fun key => Statements.storePrekey device id.toInt32 key uploaded
  | .markPrekeysUploaded ids => .ok (markUploaded engine device ids)
  | .removePrekey id => .ok [Statements.deletePrekey device id.toInt32]
  | .storeSignedPrekey id record =>
      sealing crypto cipher device (nonces 0) (.signedPrekey id) record (Statements.storeSignedPrekey device id.toInt32)
  | .removeSignedPrekey id => .ok [Statements.removeSignedPrekey device id.toInt32]
  | .putSenderKey address record =>
      sealing crypto cipher device (nonces 0) (.senderKey address) record (Statements.putSenderKey device address)
  | .deleteSenderKey address => .ok [Statements.deleteSenderKey device address]
  | .putIdentities identities => sealingEach crypto cipher device nonces (fun identity => .identity identity.1) Prod.snd
      (fun identity => Statements.putIdentity device identity.1) identities
  | .deleteIdentities addresses => .ok (addresses.map (Statements.deleteIdentity device))
  | .putSessions sessions => sealingEach crypto cipher device nonces (fun session => .session session.1) Prod.snd
      (fun session => Statements.putSession device session.1) sessions
  | .deleteSessions addresses => .ok (addresses.map (Statements.deleteSession device))
  | .storePrekeys keys uploaded => sealingEach crypto cipher device nonces (fun prekey => .prekey prekey.1) Prod.snd
      (fun prekey key => Statements.storePrekey device prekey.1.toInt32 key uploaded) keys
  | .removePrekeys ids => .ok (ids.map fun id => Statements.deletePrekey device id.toInt32)
  | .putSenderKeys senderKeys => sealingEach crypto cipher device nonces (fun senderKey => .senderKey senderKey.1) Prod.snd
      (fun senderKey => Statements.putSenderKey device senderKey.1) senderKeys
  | .deleteSenderKeys addresses => .ok (addresses.map (Statements.deleteSenderKey device))
  | .setSyncKey keyId data =>
      sealing crypto cipher device (nonces 0) (.syncKey keyId) data (Statements.setSyncKey device keyId)
  | .setVersion name data => sealing crypto cipher device (nonces 0) (.version name) data (Statements.setVersion device name)
  | .deleteVersion name => .ok [Statements.deleteVersion device name]
  | .putMutationMacs name version mutations =>
      sealingEach crypto cipher device nonces (fun mac => .mutationMac name mac.indexMac) (·.valueMac)
        (fun mac => Statements.putMutationMac device name version.toInt64 mac.indexMac) mutations
  | .deleteMutationMacs name indexMacs => .ok (indexMacs.map (Statements.deleteMutationMac device name))
  | .clearMutationMacs name => .ok [Statements.clearMutationMacs device name]
  | .commitPatch name data version removed added => do
      let state ← sealing crypto cipher device (nonces 0) (.version name) data (Statements.setVersion device name)
      let macs ← sealingEach crypto cipher device (fun i => nonces (i + 1)) (fun mac => .mutationMac name mac.indexMac)
        (·.valueMac) (fun mac => Statements.putMutationMac device name version.toInt64 mac.indexMac) added
      return state ++ removed.map (Statements.deleteMutationMac device name) ++ macs
  | .setSenderKeyStatus groupJid entries => .ok (entries.map (statusStatement device groupJid))
  | .clearSenderKeyDevices groupJid => .ok [Statements.clearSenderKeyDevices device groupJid]
  | .deleteSenderKeyDeviceRows deviceJids => .ok (deviceJids.map (Statements.deleteSenderKeyDeviceRow device))
  | .clearAllSenderKeyDevices => .ok [Statements.clearAllSenderKeyDevices device]
  | .putLidMapping entry => .ok [lidStatement device entry]
  | .putLidMappings entries => .ok (entries.map (lidStatement device))
  | .saveBaseKey address messageId baseKey => sealing crypto cipher device (nonces 0) (.baseKey address messageId) baseKey
      fun key => Statements.saveBaseKey device address messageId key now
  | .deleteBaseKey address messageId => .ok [Statements.deleteBaseKey device address messageId]
  | .deleteExpiredBaseKeys cutoff => .ok [Statements.deleteExpiredBaseKeys device cutoff]
  | .updateDeviceList record => do return [← deviceListStatement toJson device record]
  | .updateDeviceLists records => records.mapM (deviceListStatement toJson device)
  | .deleteDevices user => .ok [Statements.deleteDevices device user]
  | .putTcToken jid entry => sealing crypto cipher device (nonces 0) (.tcToken jid) entry.token
      fun token => Statements.putTcToken device jid token entry.tokenTimestamp entry.senderTimestamp
  | .deleteTcToken jid => .ok [Statements.deleteTcToken device jid]
  | .deleteExpiredTcTokens tokenCutoff senderCutoff => .ok [Statements.deleteExpiredTcTokens device tokenCutoff senderCutoff]
  | .touchTcTokenSenderTimestamp jid senderTimestamp => .ok [Statements.touchSenderTimestamp device jid senderTimestamp]
  | .storeReceivedTcToken jid token tokenTimestamp => sealing crypto cipher device (nonces 0) (.tcToken jid) token
      fun token => Statements.storeReceivedTcToken device jid token tokenTimestamp
  | .storeSentMessage chatJid messageId payload =>
      sealing crypto cipher device (nonces 0) (.sentMessage chatJid messageId) payload
        fun payload => Statements.storeSentMessage device chatJid messageId payload now
  | .takeSentMessage chatJid messageId => takeStatements crypto cipher device rows chatJid messageId
  | .deleteExpiredSentMessages cutoff => .ok [Statements.deleteExpiredSentMessages device cutoff]
  | .putMsgSecrets entries =>
      sealingEach crypto cipher device nonces (fun entry => .msgSecret entry.chat entry.sender entry.msgId) (·.secret)
        (fun entry secret => Statements.putMsgSecret device entry.chat entry.sender entry.msgId secret entry.expiresAt
          entry.messageTs) entries
  | .deleteExpiredMsgSecrets cutoff => .ok [Statements.deleteExpiredMsgSecrets device cutoff]

/-! ## Reads -/

inductive Read where
  | load
  | exists
  | loadIdentity (address : String)
  | getSession (address : String)
  | loadPrekey (id : UInt32)
  | getMaxPrekeyId
  | loadSignedPrekey (id : UInt32)
  | loadAllSignedPrekeys
  | getSenderKey (address : String)
  | getSyncKey (keyId : Bytes)
  | getLatestSyncKeyId
  | getVersion (name : String)
  | getMutationMac (name : String) (indexMac : Bytes)
  | getSenderKeyDevices (groupJid : String)
  | getLidMapping (lid : String)
  | getPnMapping (phone : String)
  | getAllLidMappings
  | getBaseKey (address messageId : String)
  | getDevices (user : String)
  | getTcToken (jid : String)
  | getAllTcTokenJids
  | getSentMessage (chatJid messageId : String)
  | getMsgSecret (chat sender msgId : String)

def isPhone (phone : String) : Cells → Bool
  | .lidPnMapping phoneNumber _ _ _ => phoneNumber = phone
  | _ => false

/-- The `WHERE` of a read, its `device_id` aside. -/
def Read.chooses : Read → Name → Row → Bool
  | .load, name, _ | .exists, name, _ => name = .sealed .device
  | .loadIdentity address, name, _ => name = .sealed (.identity address)
  | .getSession address, name, _ => name = .sealed (.session address)
  | .loadPrekey id, name, _ => name = .sealed (.prekey id.toInt32.toUInt32)
  | .getMaxPrekeyId, .sealed (.prekey _), _ => true
  | .loadSignedPrekey id, name, _ => name = .sealed (.signedPrekey id.toInt32.toUInt32)
  | .loadAllSignedPrekeys, .sealed (.signedPrekey _), _ => true
  | .getSenderKey address, name, _ => name = .sealed (.senderKey address)
  | .getSyncKey keyId, name, _ => name = .sealed (.syncKey keyId)
  | .getLatestSyncKeyId, .sealed (.syncKey _), _ => true
  | .getVersion name, name', _ => name' = .sealed (.version name)
  | .getMutationMac name indexMac, name', _ => name' = .sealed (.mutationMac name indexMac)
  | .getSenderKeyDevices groupJid, name, _ => Statements.isSenderKeyDevice (fun group _ => group = groupJid) name
  | .getLidMapping lid, name, _ => name = .lidPnMapping lid
  | .getPnMapping phone, .lidPnMapping _, row => isPhone phone row.cells
  | .getAllLidMappings, .lidPnMapping _, _ => true
  | .getBaseKey address messageId, name, _ => name = .sealed (.baseKey address messageId)
  | .getDevices user, name, _ => name = .deviceRegistry user
  | .getTcToken jid, name, _ => name = .sealed (.tcToken jid)
  | .getAllTcTokenJids, .sealed (.tcToken _), _ => true
  | .getSentMessage chatJid messageId, name, _ => name = .sealed (.sentMessage chatJid messageId)
  | .getMsgSecret chat sender msgId, name, _ => name = .sealed (.msgSecret chat sender msgId)
  | _, _, _ => false

def Read.opens : Read → Bool
  | .exists | .getMaxPrekeyId | .getLatestSyncKeyId | .getAllTcTokenJids => false
  | _ => true

def openRow (opens : Bool) (name : Name) (row : Row) : Except StoreError (Name × Row) :=
  match name with
  | .sealed slot => if opens then do return (name, { row with secret := ← openAt crypto cipher device slot row.secret })
      else .ok (name, { row with secret := [] })
  | _ => .ok (name, row)

def Read.fetch (read : Read) (entries : List (Σ _ : Key, Row)) : Except StoreError (List (Name × Row)) :=
  (entries.filter fun entry => entry.1.device = device && read.chooses entry.1.name entry.2).mapM fun entry =>
    openRow crypto cipher device read.opens entry.1.name entry.2

/-- What a read can answer: an engine lists the rows in any order. -/
def Read.MayFetch (read : Read) (rows : Rows) (answer : Except StoreError (List (Name × Row))) : Prop :=
  ∃ entries, entries.Perm rows.entries ∧ read.fetch crypto cipher device entries = answer

end Methods

/-! ## What the methods make of the rows -/

def storedPrekeyId : Name × Row → Option Int32
  | (.sealed (.prekey id), _) => some id.toInt32
  | _ => none

/-- `COALESCE(MAX(id), 0)` -/
def maxPrekeyId (fetched : List (Name × Row)) : UInt32 :=
  (((fetched.filterMap storedPrekeyId).max?).getD 0).toUInt32

def senderKeyDevice : Name × Row → Option (String × Bool)
  | (.senderKeyDevice _ deviceJid, ⟨_, .senderKeyDevice hasKey⟩) => some (deviceJid, hasKey ≠ 0)
  | _ => none

def lidEntry : Name × Row → Option LidPnMappingEntry
  | (.lidPnMapping lid, ⟨_, .lidPnMapping phoneNumber createdAt learningSource updatedAt⟩) =>
      some ⟨lid, phoneNumber, createdAt, updatedAt, learningSource⟩
  | _ => none

/-- `ORDER BY updated_at DESC LIMIT 1` -/
def newest (entries : List LidPnMappingEntry) : Option LidPnMappingEntry :=
  entries.maxOn? (·.updatedAt)

def hasSameBaseKey (fetched : List (Name × Row)) (currentBaseKey : Bytes) : Bool :=
  fetched.head?.map (·.2.secret) = some currentBaseKey

end Wamux.Stores
