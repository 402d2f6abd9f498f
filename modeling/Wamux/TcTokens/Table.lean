import Wamux.Runs.Keyed
import Wamux.Encryption.Tables

namespace Wamux.TcTokens
open Runs.Keyed
open Encryption (Bytes DeviceId Crypto BlobCipher Nonce StoreError)
open Encryption.Tables (sealAt openAt)

structure Key where
  device : DeviceId
  jid : String
  deriving DecidableEq

structure Row where
  token : Bytes
  tokenTimestamp : Int64
  senderTimestamp : Option Int64

structure TcTokenEntry where
  token : Bytes
  tokenTimestamp : Int64
  senderTimestamp : Option Int64
  deriving DecidableEq

/-! ## Statements -/

namespace Statements

/-- A new row has the empty token of `$5`, and `$2` for both timestamps. -/
def touchSenderTimestamp (key : Key) (senderTimestamp : Int64) : Statement Key Row where
  key := key
  update := fun
    | none => some ⟨[], senderTimestamp, some senderTimestamp⟩
    | some row => some { row with
        senderTimestamp := some (if row.senderTimestamp.getD senderTimestamp > senderTimestamp
          then row.senderTimestamp.getD senderTimestamp else senderTimestamp) }

def storeReceived (key : Key) (token : Bytes) (tokenTimestamp : Int64) : Statement Key Row where
  key := key
  update := fun
    | none => some ⟨token, tokenTimestamp, none⟩
    | some row => some (if row.token.length = 0 ∨ tokenTimestamp ≥ row.tokenTimestamp
        then { row with token := token, tokenTimestamp := tokenTimestamp } else row)

def expired (device : DeviceId) (tokenCutoff senderCutoff : Int64) (key : Key) (row : Row) : Bool :=
  (row.token.length = 0 || row.tokenTimestamp < tokenCutoff) && row.senderTimestamp.all (· < senderCutoff) &&
    key.device = device

end Statements

/-! ## Methods -/

section Methods
variable (crypto : Crypto) (cipher : BlobCipher) (device : DeviceId)

def touchSenderTimestamp (jid : String) (senderTimestamp : Int64) (rows : Rows Key Row) : Rows Key Row :=
  (Statements.touchSenderTimestamp ⟨device, jid⟩ senderTimestamp).apply rows

def storeReceived (nonce : Option Nonce) (jid : String) (token : Bytes) (tokenTimestamp : Int64) (rows : Rows Key Row) :
    Except StoreError (Rows Key Row) := do
  let sealed ← sealAt crypto cipher device nonce (.tcToken jid) token
  return (Statements.storeReceived ⟨device, jid⟩ sealed tokenTimestamp).apply rows

def entryOf (jid : String) (row : Row) : Except StoreError TcTokenEntry := do
  let token ← openAt crypto cipher device (.tcToken jid) row.token
  return ⟨token, row.tokenTimestamp, row.senderTimestamp⟩

def getTcToken (jid : String) (found : Option Row) : Except StoreError (Option TcTokenEntry) :=
  match found with
  | none => .ok none
  | some row => (entryOf crypto cipher device jid row).map some

def deleteExpiredTcTokens (tokenCutoff senderCutoff : Int64) (rows : Rows Key Row) : Rows Key Row := fun key =>
  (rows key).filter fun row => !Statements.expired device tokenCutoff senderCutoff key row

inductive Call where
  | touch (senderTimestamp : Int64)
  | receive (nonce : Nonce) (token : Bytes) (tokenTimestamp : Int64)

def Call.run (jid : String) (rows : Rows Key Row) : Call → Except StoreError (Rows Key Row)
  | .touch senderTimestamp => .ok (touchSenderTimestamp device jid senderTimestamp rows)
  | .receive nonce token tokenTimestamp => storeReceived crypto cipher device (some nonce) jid token tokenTimestamp rows

def runAll (jid : String) (calls : List Call) (rows : Rows Key Row) : Except StoreError (Rows Key Row) :=
  calls.foldlM (Call.run crypto cipher device jid) rows

end Methods
end Wamux.TcTokens
