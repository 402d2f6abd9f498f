import Wamux.Runs.Keyed
import Wamux.Encryption.Tables

namespace Wamux.BatchedWrites
open Runs.Keyed
open Encryption (Bytes DeviceId)
open Encryption.Tables (Slot)

inductive Key where
  /-- `identities`, `sessions`, `sender_keys`, `prekeys`, `app_state_versions`, `app_state_mutation_macs`. -/
  | sealed (device : DeviceId) (slot : Slot)
  | lidPnMapping (device : DeviceId) (lid : String)
  | deviceRegistry (device : DeviceId) (userId : String)
  deriving DecidableEq

inductive Row where
  | blob (stored : Bytes)
  | prekey (key : Bytes) (uploaded : Bool)
  | mutationMac (version : Int64) (valueMac : Bytes)
  | lidPnMapping (phoneNumber : String) (createdAt : Int64) (learningSource : String) (updatedAt : Int64)
  | deviceRegistry (devicesJson : String) (timestamp : Int64) (phash : Option String) (updatedAt : Int64)
      (rawId : Option Int32)
  deriving DecidableEq

namespace Statements
variable (device : DeviceId)

def putIdentity (address : String) (key : Bytes) : Statement Key Row :=
  upsert (.sealed device (.identity address)) (.blob key)

def deleteIdentity (address : String) : Statement Key Row := delete (.sealed device (.identity address))

def putSession (address : String) (record : Bytes) : Statement Key Row :=
  upsert (.sealed device (.session address)) (.blob record)

def deleteSession (address : String) : Statement Key Row := delete (.sealed device (.session address))

def putSenderKey (address : String) (record : Bytes) : Statement Key Row :=
  upsert (.sealed device (.senderKey address)) (.blob record)

def deleteSenderKey (address : String) : Statement Key Row := delete (.sealed device (.senderKey address))

/-- The id is bound `as i32`: the row is that of the `u32`. -/
def storePrekey (id : Int32) (key : Bytes) (uploaded : Bool) : Statement Key Row :=
  upsert (.sealed device (.prekey id.toUInt32)) (.prekey key uploaded)

def deletePrekey (id : Int32) : Statement Key Row := delete (.sealed device (.prekey id.toUInt32))

def setVersion (name : String) (stateData : Bytes) : Statement Key Row :=
  upsert (.sealed device (.version name)) (.blob stateData)

def putMutationMac (name : String) (version : Int64) (indexMac valueMac : Bytes) : Statement Key Row :=
  upsert (.sealed device (.mutationMac name indexMac)) (.mutationMac version valueMac)

def deleteMutationMac (name : String) (indexMac : Bytes) : Statement Key Row :=
  delete (.sealed device (.mutationMac name indexMac))

/-- `ON CONFLICT … DO UPDATE` leaves `created_at` out. -/
def putLidMapping (lid phoneNumber : String) (createdAt : Int64) (learningSource : String) (updatedAt : Int64) :
    Statement Key Row where
  key := .lidPnMapping device lid
  update := fun
    | some (.lidPnMapping _ stored _ _) => some (.lidPnMapping phoneNumber stored learningSource updatedAt)
    | _ => some (.lidPnMapping phoneNumber createdAt learningSource updatedAt)

def updateDeviceList (userId devicesJson : String) (timestamp : Int64) (phash : Option String) (updatedAt : Int64)
    (rawId : Option Int32) : Statement Key Row :=
  upsert (.deviceRegistry device userId) (.deviceRegistry devicesJson timestamp phash updatedAt rawId)

end Statements
end Wamux.BatchedWrites
