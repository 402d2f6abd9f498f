import Wamux.SentMessages.Table

/-!
# The cache on SQLite and turso

Each call is a job of the group commit: it runs alone on the batch's transaction and is answered by
the COMMIT that carries it. A job that fails or is dropped is rolled back to its savepoint.
-/

namespace Wamux.SentMessages.Jobs
open Wamux.Encryption Wamux.Encryption.Tables Runs

structure State where
  /-- The rows as of the last COMMIT. -/
  rows : List SentRow
  /-- The rows as the open batch has them. -/
  batch : List SentRow
  /-- What the jobs of the batch will be answered. -/
  waiting : Log := []
  /-- History: what was committed, in order. -/
  log : Log := []

inductive Event where
  /-- `stops`: the job fails or is dropped before it is finished. -/
  | store (name : SentName) (payload : Bytes) (nonce : Option Nonce) (now : Int64) (stops : Bool)
  | take (name : SentName) (stops : Bool)
  | sweep (device : DeviceId) (cutoff : Int64) (stops : Bool)
  | get (name : SentName)
  | commit
  /-- The COMMIT fails, or the engine rolls the transaction back on its own. -/
  | discard

variable (crypto : Crypto) (cipher : BlobCipher) (family : Family)

def step (s : State) : Event → Option State
  | .store name payload nonce now stops => match sealSent crypto cipher name nonce payload with
      | .error _ => some s
      | .ok sealed => some (if stops then s else
          { s with batch := storeSent s.batch ⟨name, sealed, now⟩, waiting := s.waiting ++ [.stored name payload] })
  | .take name stops => match takeJob crypto cipher family s.batch name with
      | .error _ => some s
      | .ok (payload, batch) => some (if stops then s else
          { s with batch := batch, waiting := s.waiting ++ (payload.map (.taken name)).toList })
  | .sweep device cutoff stops =>
      some (if stops then s else { s with batch := s.batch.filter fun row => !row.expired device cutoff })
  | .get _ => some s
  | .commit => some { s with rows := s.batch, log := s.log ++ s.waiting, waiting := [] }
  | .discard => some { s with batch := s.rows, waiting := [] }

def refuses (s : State) : Event → Bool
  | .take name stops => stops || (takeJob crypto cipher family s.batch name).toOption.isNone
  | .discard => true
  | _ => false

def machine (rows : Cache) : Machine State Event := ⟨⟨rows.1, rows.1, [], []⟩, step crypto cipher family⟩

end Wamux.SentMessages.Jobs
