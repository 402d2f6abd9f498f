import Wamux.Runs.Tables
import Wamux.Encryption.Tables
import Wamux.MsgSecrets.Table

namespace Wamux.Stores
open Runs.Tables
open Encryption (Bytes DeviceId)
open Encryption.Tables (Slot)

/-! ## Rows -/

inductive Name where
  | sealed (slot : Slot)
  | senderKeyDevice (groupJid deviceJid : String)
  | lidPnMapping (lid : String)
  | deviceRegistry (userId : String)
  deriving DecidableEq

inductive TableName where
  | device | identities | sessions | prekeys | signedPrekeys | senderKeys | appStateKeys | appStateVersions
  | appStateMutationMacs | senderKeyDevices | lidPnMapping | baseKeys | deviceRegistry | tcTokens | msgSecrets | sentMessages
  deriving DecidableEq

def Name.table : Name → TableName
  | .sealed .device => .device
  | .sealed (.identity _) => .identities
  | .sealed (.session _) => .sessions
  | .sealed (.prekey _) => .prekeys
  | .sealed (.signedPrekey _) => .signedPrekeys
  | .sealed (.senderKey _) => .senderKeys
  | .sealed (.syncKey _) => .appStateKeys
  | .sealed (.version _) => .appStateVersions
  | .sealed (.mutationMac _ _) => .appStateMutationMacs
  | .sealed (.baseKey _ _) => .baseKeys
  | .sealed (.tcToken _) => .tcTokens
  | .sealed (.msgSecret _ _ _) => .msgSecrets
  | .sealed (.sentMessage _ _) => .sentMessages
  | .senderKeyDevice _ _ => .senderKeyDevices
  | .lidPnMapping _ => .lidPnMapping
  | .deviceRegistry _ => .deviceRegistry

structure Key where
  device : DeviceId
  name : Name
  deriving DecidableEq

/-- The columns that are neither in the key nor sealed. -/
inductive Cells where
  | nothing
  | prekey (uploaded : Bool)
  | mutationMac (version : Int64)
  | baseKey (createdAt : Int64)
  | tcToken (tokenTimestamp : Int64) (senderTimestamp : Option Int64)
  | msgSecret (expiresAt messageTs : Int64)
  | sentMessage (createdAt : Int64)
  | senderKeyDevice (hasKey : Int32)
  | lidPnMapping (phoneNumber : String) (createdAt : Int64) (learningSource : String) (updatedAt : Int64)
  | deviceRegistry (devicesJson : String) (timestamp : Int64) (phash : Option String) (rawId : Option Int32)
  deriving DecidableEq

structure Row where
  /-- The sealed column; empty in the tables that have none. -/
  secret : Bytes
  cells : Cells
  deriving DecidableEq

abbrev Rows := Table Key Row

/-! ## Statements -/

namespace Statements
variable (device : DeviceId)

/-- `ON CONFLICT … DO UPDATE SET` every column that is not in the key. -/
def replace (name : Name) (row : Row) : Statement Key Row := .upsert ⟨device, name⟩ row fun _ => row

def deleteNamed (name : Name) : Statement Key Row :=
  .delete fun key _ => key.name = name ∧ key.device = device

def deleteWhere (table : TableName) (old : Row → Bool) : Statement Key Row :=
  .delete fun key row => (key.name.table = table && old row) ∧ key.device = device

def putIdentity (address : String) (key : Bytes) : Statement Key Row :=
  replace device (.sealed (.identity address)) ⟨key, .nothing⟩

def deleteIdentity (address : String) : Statement Key Row := deleteNamed device (.sealed (.identity address))

def putSession (address : String) (record : Bytes) : Statement Key Row :=
  replace device (.sealed (.session address)) ⟨record, .nothing⟩

def deleteSession (address : String) : Statement Key Row := deleteNamed device (.sealed (.session address))

/-- The id is bound `as i32`: the row is that of the `u32`. -/
def storePrekey (id : Int32) (key : Bytes) (uploaded : Bool) : Statement Key Row :=
  replace device (.sealed (.prekey id.toUInt32)) ⟨key, .prekey uploaded⟩

def deletePrekey (id : Int32) : Statement Key Row := deleteNamed device (.sealed (.prekey id.toUInt32))

def uploadedRow (row : Row) : Row := { row with cells := .prekey true }

def markPrekeyUploaded (id : Int32) : Statement Key Row :=
  .update (fun key _ => key.name = .sealed (.prekey id.toUInt32) ∧ key.device = device) uploadedRow

/-- Postgres: `id = ANY($2)`. -/
def markPrekeysUploaded (ids : List Int32) : Statement Key Row :=
  .update (fun key _ => key.device = device ∧ ∃ id ∈ ids, key.name = .sealed (.prekey id.toUInt32)) uploadedRow

def storeSignedPrekey (id : Int32) (record : Bytes) : Statement Key Row :=
  replace device (.sealed (.signedPrekey id.toUInt32)) ⟨record, .nothing⟩

def removeSignedPrekey (id : Int32) : Statement Key Row := deleteNamed device (.sealed (.signedPrekey id.toUInt32))

def putSenderKey (address : String) (record : Bytes) : Statement Key Row :=
  replace device (.sealed (.senderKey address)) ⟨record, .nothing⟩

def deleteSenderKey (address : String) : Statement Key Row := deleteNamed device (.sealed (.senderKey address))

def setSyncKey (keyId keyData : Bytes) : Statement Key Row :=
  replace device (.sealed (.syncKey keyId)) ⟨keyData, .nothing⟩

def setVersion (name : String) (stateData : Bytes) : Statement Key Row :=
  replace device (.sealed (.version name)) ⟨stateData, .nothing⟩

def deleteVersion (name : String) : Statement Key Row := deleteNamed device (.sealed (.version name))

def putMutationMac (name : String) (version : Int64) (indexMac valueMac : Bytes) : Statement Key Row :=
  replace device (.sealed (.mutationMac name indexMac)) ⟨valueMac, .mutationMac version⟩

def deleteMutationMac (name : String) (indexMac : Bytes) : Statement Key Row :=
  deleteNamed device (.sealed (.mutationMac name indexMac))

def isMacOf (name : String) : Name → Bool
  | .sealed (.mutationMac name' _) => name' = name
  | _ => false

def clearMutationMacs (name : String) : Statement Key Row := .delete fun key _ => isMacOf name key.name ∧ key.device = device

def setSenderKeyStatus (groupJid deviceJid : String) (hasKey : Int32) : Statement Key Row :=
  replace device (.senderKeyDevice groupJid deviceJid) ⟨[], .senderKeyDevice hasKey⟩

def isSenderKeyDevice (when : String → String → Bool) : Name → Bool
  | .senderKeyDevice groupJid deviceJid => when groupJid deviceJid
  | _ => false

def clearSenderKeyDevices (groupJid : String) : Statement Key Row :=
  .delete fun key _ => isSenderKeyDevice (fun group _ => group = groupJid) key.name ∧ key.device = device

def deleteSenderKeyDeviceRow (deviceJid : String) : Statement Key Row :=
  .delete fun key _ => isSenderKeyDevice (fun _ jid => jid = deviceJid) key.name ∧ key.device = device

def clearAllSenderKeyDevices : Statement Key Row :=
  .delete fun key _ => isSenderKeyDevice (fun _ _ => true) key.name ∧ key.device = device

/-- `ON CONFLICT … DO UPDATE` leaves `created_at` out. -/
def putLidMapping (lid phoneNumber : String) (createdAt : Int64) (learningSource : String) (updatedAt : Int64) :
    Statement Key Row :=
  .upsert ⟨device, .lidPnMapping lid⟩ ⟨[], .lidPnMapping phoneNumber createdAt learningSource updatedAt⟩ fun row =>
    { row with cells := match row.cells with
      | .lidPnMapping _ stored _ _ => .lidPnMapping phoneNumber stored learningSource updatedAt
      | cells => cells }

/-- `ON CONFLICT … DO UPDATE` leaves `created_at` out. -/
def saveBaseKey (address messageId : String) (baseKey : Bytes) (createdAt : Int64) : Statement Key Row :=
  .upsert ⟨device, .sealed (.baseKey address messageId)⟩ ⟨baseKey, .baseKey createdAt⟩ fun row => { row with secret := baseKey }

def deleteBaseKey (address messageId : String) : Statement Key Row :=
  deleteNamed device (.sealed (.baseKey address messageId))

def oldBaseKey (cutoff : Int64) : Cells → Bool
  | .baseKey createdAt => createdAt < cutoff
  | _ => false

def deleteExpiredBaseKeys (cutoff : Int64) : Statement Key Row :=
  deleteWhere device .baseKeys fun row => oldBaseKey cutoff row.cells

def updateDeviceList (userId devicesJson : String) (timestamp : Int64) (phash : Option String) (rawId : Option Int32) :
    Statement Key Row :=
  replace device (.deviceRegistry userId) ⟨[], .deviceRegistry devicesJson timestamp phash rawId⟩

def deleteDevices (userId : String) : Statement Key Row := deleteNamed device (.deviceRegistry userId)

def putTcToken (jid : String) (token : Bytes) (tokenTimestamp : Int64) (senderTimestamp : Option Int64) : Statement Key Row :=
  replace device (.sealed (.tcToken jid)) ⟨token, .tcToken tokenTimestamp senderTimestamp⟩

def deleteTcToken (jid : String) : Statement Key Row := deleteNamed device (.sealed (.tcToken jid))

/-- A new row has the empty token of `$5`, and `$2` for both timestamps. -/
def touchSenderTimestamp (jid : String) (senderTimestamp : Int64) : Statement Key Row :=
  .upsert ⟨device, .sealed (.tcToken jid)⟩ ⟨[], .tcToken senderTimestamp (some senderTimestamp)⟩ fun row =>
    { row with cells := match row.cells with
      | .tcToken tokenTimestamp stored => .tcToken tokenTimestamp (some
          (if stored.getD senderTimestamp > senderTimestamp then stored.getD senderTimestamp else senderTimestamp))
      | cells => cells }

def receivedTcToken (token : Bytes) (tokenTimestamp : Int64) (row : Row) : Row :=
  match row.cells with
  | .tcToken stored senderTimestamp =>
      if row.secret.length = 0 ∨ tokenTimestamp ≥ stored then ⟨token, .tcToken tokenTimestamp senderTimestamp⟩ else row
  | _ => row

def storeReceivedTcToken (jid : String) (token : Bytes) (tokenTimestamp : Int64) : Statement Key Row :=
  .upsert ⟨device, .sealed (.tcToken jid)⟩ ⟨token, .tcToken tokenTimestamp none⟩ (receivedTcToken token tokenTimestamp)

/-- Both windows must be stale. -/
def expiredTcToken (tokenCutoff senderCutoff : Int64) (row : Row) : Bool :=
  match row.cells with
  | .tcToken tokenTimestamp senderTimestamp =>
      (row.secret.length = 0 || tokenTimestamp < tokenCutoff) && senderTimestamp.all (· < senderCutoff)
  | _ => false

def deleteExpiredTcTokens (tokenCutoff senderCutoff : Int64) : Statement Key Row :=
  deleteWhere device .tcTokens (expiredTcToken tokenCutoff senderCutoff)

def storeSentMessage (chatJid messageId : String) (payload : Bytes) (createdAt : Int64) : Statement Key Row :=
  replace device (.sealed (.sentMessage chatJid messageId)) ⟨payload, .sentMessage createdAt⟩

def deleteSentMessage (chatJid messageId : String) : Statement Key Row :=
  deleteNamed device (.sealed (.sentMessage chatJid messageId))

def oldSentMessage (cutoff : Int64) : Cells → Bool
  | .sentMessage createdAt => createdAt < cutoff
  | _ => false

def deleteExpiredSentMessages (cutoff : Int64) : Statement Key Row :=
  deleteWhere device .sentMessages fun row => oldSentMessage cutoff row.cells

def putMsgSecret (chat sender msgId : String) (secret : Bytes) (expiresAt messageTs : Int64) : Statement Key Row :=
  .upsert ⟨device, .sealed (.msgSecret chat sender msgId)⟩ ⟨secret, .msgSecret expiresAt messageTs⟩ fun row =>
    { secret := secret
      cells := match row.cells with
        | .msgSecret storedExpiry storedTs =>
            .msgSecret (MsgSecrets.laterExpiry storedExpiry expiresAt) (MsgSecrets.laterTs storedTs messageTs)
        | cells => cells }

def expiredMsgSecret (cutoff : Int64) : Cells → Bool
  | .msgSecret expiresAt _ => expiresAt ≠ 0 ∧ expiresAt ≤ cutoff
  | _ => false

def deleteExpiredMsgSecrets (cutoff : Int64) : Statement Key Row :=
  deleteWhere device .msgSecrets fun row => expiredMsgSecret cutoff row.cells

def saveDevice (data : Bytes) : Statement Key Row := replace device (.sealed .device) ⟨data, .nothing⟩

/-- `ON CONFLICT … DO NOTHING` -/
def createDevice (data : Bytes) : Statement Key Row := .upsert ⟨device, .sealed .device⟩ ⟨data, .nothing⟩ id

/-- `ON DELETE CASCADE` of every table -/
def deleteScoped : Statement Key Row := .delete fun key _ => key.device = device

end Statements

end Wamux.Stores
