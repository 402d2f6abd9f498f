import Wamux.Runs.Transition
import Wamux.Runs.Takes
import Wamux.Encryption.Tables

namespace Wamux.SentMessages
open Wamux.Encryption Wamux.Encryption.Tables

structure SentName where
  device : DeviceId
  chatJid : String
  messageId : String
  deriving DecidableEq

def SentName.slot (name : SentName) : Slot := .sentMessage name.chatJid name.messageId

structure SentRow where
  name : SentName
  payload : Bytes
  createdAt : Int64
  deriving DecidableEq

abbrev Cache := { rows : List SentRow // (rows.map SentRow.name).Nodup }

abbrev Log := List (Runs.Takes.Entry SentName Bytes)

/-! ## Statements -/

/-- `GET_SENT_MESSAGE`. -/
def selectSent (rows : List SentRow) (name : SentName) : Option SentRow := rows.find? (·.name = name)

/-- `DELETE_SENT_MESSAGE`. -/
def deleteSent (rows : List SentRow) (name : SentName) : List SentRow := rows.filter (·.name ≠ name)

/-- `STORE_SENT_MESSAGE`. -/
def storeSent (rows : List SentRow) (row : SentRow) : List SentRow := deleteSent rows row.name ++ [row]

/-- The condition of `DELETE_EXPIRED_SENT_MESSAGES`. -/
def SentRow.expired (row : SentRow) (device : DeviceId) (cutoff : Int64) : Bool :=
  row.name.device = device ∧ row.createdAt < cutoff

section Calls
variable (crypto : Crypto) (cipher : BlobCipher)

def sealSent (name : SentName) (nonce : Option Nonce) (payload : Bytes) : Except StoreError Bytes :=
  sealAt crypto cipher name.device nonce name.slot payload

def openSent (name : SentName) (stored : Option SentRow) : Except StoreError (Option Bytes) :=
  match stored with
  | none => .ok none
  | some row => do return some (← openAt crypto cipher name.device name.slot row.payload)

def getSentMessage (rows : List SentRow) (name : SentName) : Except StoreError (Option Bytes) :=
  openSent crypto cipher name (selectSent rows name)

/-- `take_sent_message` as a job of the group commit: what it answers and the rows it leaves. The
sqlx family opens the blob after the DELETE, the turso family before it. -/
def takeJob (family : Family) (rows : List SentRow) (name : SentName) : Except StoreError (Option Bytes × List SentRow) :=
  match family with
  | .sqlx => do
      let stored := selectSent rows name
      let rows := if stored.isSome then deleteSent rows name else rows
      let payload ← openSent crypto cipher name stored
      return (payload, rows)
  | .turso => do
      let stored := selectSent rows name
      let payload ← openSent crypto cipher name stored
      let rows := if payload.isSome then deleteSent rows name else rows
      return (payload, rows)

end Calls

end Wamux.SentMessages
