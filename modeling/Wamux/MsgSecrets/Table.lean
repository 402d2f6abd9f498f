import Wamux.Runs.Keyed
import Wamux.Runs.Transition
import Wamux.Encryption.Tables

namespace Wamux.MsgSecrets
open Runs Runs.Keyed
open Encryption (Bytes DeviceId Crypto BlobCipher Nonce StoreError)
open Encryption.Tables (Slot sealAt openAt)

structure Key where
  device : DeviceId
  chat : String
  sender : String
  msgId : String
  deriving DecidableEq

structure Row where
  secret : Bytes
  expiresAt : Int64
  messageTs : Int64

structure MsgSecretEntry where
  chat : String
  sender : String
  msgId : String
  secret : Bytes
  expiresAt : Int64
  messageTs : Int64

def MsgSecretEntry.key (device : DeviceId) (entry : MsgSecretEntry) : Key := ⟨device, entry.chat, entry.sender, entry.msgId⟩

def Key.slot (key : Key) : Slot := .msgSecret key.chat key.sender key.msgId

/-! ## Statements -/

def laterExpiry (stored excluded : Int64) : Int64 :=
  if stored = 0 ∨ excluded = 0 then 0
  else if stored > excluded then stored
  else excluded

def laterTs (stored excluded : Int64) : Int64 := if stored > excluded then stored else excluded

def putMsgSecret (key : Key) (secret : Bytes) (expiresAt messageTs : Int64) : Statement Key Row where
  key := key
  update := fun
    | none => some ⟨secret, expiresAt, messageTs⟩
    | some row => some ⟨secret, laterExpiry row.expiresAt expiresAt, laterTs row.messageTs messageTs⟩

def expired (device : DeviceId) (cutoff : Int64) (key : Key) (row : Row) : Bool :=
  row.expiresAt ≠ 0 ∧ row.expiresAt ≤ cutoff ∧ key.device = device

def deleteExpired (device : DeviceId) (cutoff : Int64) (rows : Rows Key Row) : Rows Key Row := fun key =>
  (rows key).filter fun row => !expired device cutoff key row

/-! ## Methods -/

section Methods
variable (crypto : Crypto) (cipher : BlobCipher) (device : DeviceId)

def preparedPut (nonce : Option Nonce) (entry : MsgSecretEntry) : Except StoreError (Statement Key Row) := do
  let sealed ← sealAt crypto cipher device nonce (entry.key device).slot entry.secret
  return putMsgSecret (entry.key device) sealed entry.expiresAt entry.messageTs

/-- One upsert for each row in one transaction. -/
def putMsgSecrets (nonces : Nat → Option Nonce) (entries : List MsgSecretEntry) (rows : Rows Key Row) :
    Except StoreError (Nat × Rows Key Row) :=
  if entries.isEmpty then .ok (0, rows)
  else do
    let statements ← (entries.mapIdx fun i entry => preparedPut crypto cipher device (nonces i) entry).mapM id
    return (entries.length, run statements rows)

def getMsgSecret (chat sender msgId : String) (rows : Rows Key Row) : Except StoreError (Option Bytes) :=
  match rows ⟨device, chat, sender, msgId⟩ with
  | none => .ok none
  | some row => (openAt crypto cipher device (.msgSecret chat sender msgId) row.secret).map some

def getStoredMsgSecret (chat sender msgId : String) (rows : Rows Key Row) : Except StoreError (Option (Bytes × Int64)) :=
  match rows ⟨device, chat, sender, msgId⟩ with
  | none => .ok none
  | some row => (openAt crypto cipher device (.msgSecret chat sender msgId) row.secret).map fun secret =>
      some (secret, row.messageTs)

end Methods

/-! ## Runs -/

inductive Event where
  | put (device : DeviceId) (nonces : Nat → Option Nonce) (entries : List MsgSecretEntry)
  | sweep (device : DeviceId) (cutoff : Int64)

structure State where
  rows : Rows Key Row
  /-- History: what was put on a row since it was last deleted. -/
  puts : Key → List MsgSecretEntry

def putsOn (device : DeviceId) (entries : List MsgSecretEntry) (key : Key) : List MsgSecretEntry :=
  entries.filter fun entry => entry.key device = key

def step (crypto : Crypto) (cipher : BlobCipher) (s : State) : Event → Option State
  | .put device nonces entries => match putMsgSecrets crypto cipher device nonces entries s.rows with
      | .ok (_, rows) => some ⟨rows, fun key => s.puts key ++ putsOn device entries key⟩
      | .error _ => some s
  | .sweep device cutoff =>
      let rows := deleteExpired device cutoff s.rows
      some ⟨rows, fun key => if (rows key).isNone then [] else s.puts key⟩

def machine (crypto : Crypto) (cipher : BlobCipher) : Machine State Event := ⟨⟨fun _ => none, fun _ => []⟩, step crypto cipher⟩

end Wamux.MsgSecrets
