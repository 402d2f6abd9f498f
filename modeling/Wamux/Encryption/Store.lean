import Mathlib.Data.List.Sort
import Wamux.Runs.Transition
import Wamux.Runs.Durable
import Wamux.Encryption.Decision

/-!
# A store and its encryption runs

`open_cipher`, `decrypt_store` and `rotate_store` as programs that commit: a transaction is one
commit, and so is each statement of the scrub. A run may be stopped after any of them. Accounts come
and go between runs; rows are written through the cipher of the last successful open.
-/

namespace Wamux.Encryption
open Runs

inductive Engine where
  | pg | sqlite
  deriving DecidableEq, Repr

structure Row where
  device : DeviceId
  column : SealedColumn
  parts : List RowPart
  blob : Bytes
  /-- History: the plaintext last written. -/
  written : Bytes
  deriving DecidableEq

abbrev Name := DeviceId × SealedColumn × List RowPart

def Row.name (row : Row) : Name := (row.device, row.column, row.parts)

structure Db where
  /-- The `store_encryption` row. -/
  encrypted : Bool := false
  keyId : Option Bytes := none
  verifier : Option Bytes := none
  accounts : List DeviceId := []
  /-- `store_conversion_progress`. -/
  progress : List DeviceId := []
  rows : List Row := []
  /-- History: the accounts turned since the state last flipped, those turned from the flip before
  to that one, and whether old secrets were replaced and not scrubbed since. -/
  turned : List DeviceId := []
  flipped : List DeviceId := []
  owed : Bool := false

structure Env where
  nonces : DeviceId → SealedColumn → List RowPart → Option Nonce
  verifierNonce : Option Nonce
  busy : Bool

namespace Db

def stored (db : Db) : StoredEncryption := ⟨db.encrypted, db.keyId, db.verifier⟩

def selectRows (db : Db) (device : DeviceId) (column : SealedColumn) : List (List RowPart × Bytes) :=
  (db.rows.filter fun row => row.device = device ∧ row.column = column).map fun row => (row.parts, row.blob)

def updateRow (db : Db) (device : DeviceId) (column : SealedColumn) (parts : List RowPart) (blob : Bytes) : Db :=
  { db with rows := db.rows.map fun row =>
      if row.name = (device, column, parts) then { row with blob := blob } else row }

/-- `device_id` is a primary key and refers to an account. -/
def insertProgress (db : Db) (device : DeviceId) : Except StoreError Db :=
  if device ∈ db.progress ∨ device ∉ db.accounts then .error .database
  else .ok { db with progress := db.progress ++ [device], turned := db.turned ++ [device] }

end Db

inductive Direction where
  | seal | open
  deriving DecidableEq, Repr

inductive Turn where
  | seal (cipher : BlobCipher)
  | open (cipher : BlobCipher)
  | rotate (opens seals : BlobCipher)

def Turn.of (cipher : BlobCipher) : Direction → Turn
  | .seal => .seal cipher
  | .open => .open cipher

/-- The bytes a row held before are plaintext, or open with the previous key. -/
def Turn.leavesSecrets : Turn → Bool
  | .seal _ | .rotate _ _ => true
  | .open _ => false

section Runs
variable (crypto : Crypto)

def turnBlob (turn : Turn) (nonce : Option Nonce) (device : DeviceId) (column : SealedColumn)
    (parts : List RowPart) (blob : Bytes) : Except StoreError Bytes :=
  let context := rowContext device column parts
  match turn with
  | .seal cipher => cipher.seal crypto nonce context blob
  | .open cipher => cipher.open crypto context blob
  | .rotate opens seals => do
      let plain ← opens.open crypto context blob
      seals.seal crypto nonce context plain

def turnRow (turn : Turn) (env : Env) (device : DeviceId) (column : SealedColumn) (db : Db)
    (row : List RowPart × Bytes) : Except StoreError Db := do
  let turned ← turnBlob crypto turn (env.nonces device column row.1) device column row.1 row.2
  return { db.updateRow device column row.1 turned with owed := db.owed || turn.leavesSecrets }

def convertColumn (turn : Turn) (env : Env) (device : DeviceId) (db : Db) (column : SealedColumn) :
    Except StoreError Db :=
  (db.selectRows device column).foldlM (turnRow crypto turn env device column) db

def convertColumns (turn : Turn) (env : Env) (db : Db) (device : DeviceId) : Except StoreError Db :=
  sealedColumns.foldlM (convertColumn crypto turn env device) db

/-- `FINISH_SEALING` or `FINISH_OPENING`, then `CLEAR_PROGRESS`. -/
def finish (direction : Direction) (db : Db) : Db :=
  match direction, db.encrypted with
  | .seal, false => { db with encrypted := true, progress := [], turned := [], flipped := db.turned }
  | .open, true =>
      { db with encrypted := false, keyId := none, verifier := none, progress := [], turned := [], flipped := db.turned }
  | _, _ => { db with progress := [] }

def convertAccount (cipher : BlobCipher) (direction : Direction) (env : Env) (device : DeviceId) (isLast : Bool)
    (db : Db) : Except StoreError Db := do
  let db ← convertColumns crypto (.of cipher direction) env db device
  let db ← db.insertProgress device
  return if isLast then finish direction db else db

def accountsLeft (all done : List DeviceId) : List DeviceId :=
  (all.insertionSort (· ≤ ·)).filter (· ∉ done)

def convertAccounts (cipher : BlobCipher) (direction : Direction) (env : Env) :
    List DeviceId → Durable Db StoreError Unit
  | [] => pure ()
  | device :: rest => do
      .transact (convertAccount crypto cipher direction env device rest.isEmpty)
      convertAccounts cipher direction env rest

def convert (cipher : BlobCipher) (direction : Direction) (env : Env) : Durable Db StoreError Nat := do
  let db ← Durable.store
  let left := accountsLeft db.accounts db.progress
  convertAccounts crypto cipher direction env left
  if left.isEmpty then .transact fun db => .ok (finish direction db)
  return left.length

/-- `VACUUM FULL` of one table after the other; only the last one ends the scrub. -/
def vacuumTables : List SealedColumn → Durable Db StoreError Unit
  | [] => pure ()
  | _ :: rest => do
      .transact fun db => .ok { db with owed := db.owed && !rest.isEmpty }
      vacuumTables rest

def walBusy : StoreError :=
  .connection ("the WAL could not be truncated after the secret columns were rewritten, so their " ++
    "old bytes may still be in the -wal file: stop whatever else has the store open and run again")

def scrubOldPlaintext (env : Env) : Engine → Durable Db StoreError Unit
  | .pg => vacuumTables sealedColumns
  | .sqlite => do
      .transact .ok
      if env.busy then .fail walBusy
      .transact fun db => .ok { db with owed := false }

/-- `MARK_CONVERTING` or `MARK_ENCRYPTED`. -/
def writeMark (resolution : Resolution) : Durable Db StoreError Unit :=
  match resolution.mark with
  | none => pure ()
  | some mark => .transact fun db =>
      if !db.encrypted && (if resolution.convert then db.verifier.isNone else db.accounts.isEmpty) then
        .ok { db with encrypted := !resolution.convert, keyId := some mark.keyId, verifier := some mark.verifier }
      else .error (.invalidConfig "the store changed while it was being marked for encryption")

/-- `open_cipher` up to its scrub. -/
def settle (env : Env) (key : Option StoreKey) : Durable Db StoreError Resolution := do
  let db ← Durable.store
  let resolution ← .ofExcept (resolve crypto db.stored (!db.accounts.isEmpty) (!db.progress.isEmpty) key
    env.verifierNonce)
  writeMark resolution
  if resolution.convert then
    let _ ← convert crypto resolution.cipher .seal env
  return resolution

def openCipher (engine : Engine) (env : Env) (key : Option StoreKey) : Durable Db StoreError BlobCipher := do
  let resolution ← settle crypto env key
  if resolution.convert then scrubOldPlaintext env engine
  return resolution.cipher

def decryptStore (env : Env) (key : StoreKey) : Durable Db StoreError Nat := do
  let db ← Durable.store
  let cipher ← .ofExcept (cipherForDecrypt crypto db.stored key)
  convert crypto cipher .open env

def swapMark (mark : NewMark) (db : Db) : Except StoreError Db :=
  if db.encrypted then .ok { db with keyId := some mark.keyId, verifier := some mark.verifier }
  else .error (.invalidConfig "the store stopped being encrypted while its key was being rotated")

def rotateAccounts (rotation : Rotation) (env : Env) (db : Db) : Except StoreError Db := do
  let devices := db.accounts.insertionSort (· ≤ ·)
  let db ← devices.foldlM (convertColumns crypto (.rotate rotation.opens rotation.seals) env) db
  swapMark rotation.mark db

/-- `rotate_store` up to its scrub. -/
def rotateTransaction (env : Env) (old new : StoreKey) : Durable Db StoreError Nat := do
  let db ← Durable.store
  let rotation ← .ofExcept (planRotation crypto db.stored (!db.progress.isEmpty) old new env.verifierNonce)
  .transact (rotateAccounts crypto rotation env)
  return db.accounts.length

def rotateStore (engine : Engine) (env : Env) (old new : StoreKey) : Durable Db StoreError Nat := do
  let rotated ← rotateTransaction crypto env old new
  scrubOldPlaintext env engine
  return rotated

end Runs

/-! ## Runs and what happens between them -/

structure State where
  db : Db := {}
  session : Option BlobCipher := none
  /-- History: what the backends were told to keep. -/
  contents : List (Name × Bytes) := []

inductive Event where
  /-- A run; `stop` is the number of commits after which it is cut off. -/
  | open (key : Option StoreKey) (env : Env) (stop : Option Nat)
  | decrypt (key : StoreKey) (env : Env) (stop : Option Nat)
  | rotate (old new : StoreKey) (env : Env) (stop : Option Nat)
  | create (device : DeviceId)
  | delete (device : DeviceId)
  | write (device : DeviceId) (column : SealedColumn) (parts : List RowPart) (plaintext : Bytes)
      (nonce : Option Nonce)
  | remove (device : DeviceId) (column : SealedColumn) (parts : List RowPart)

def leaves {α : Type} (run : Durable Db StoreError α) (db : Db) : Option Nat → Db
  | none => run.final db
  | some n => run.stopped n db

namespace Db

def deleteAccount (db : Db) (device : DeviceId) : Db :=
  { db with accounts := db.accounts.filter (· ≠ device),
            progress := db.progress.filter (· ≠ device),
            rows := db.rows.filter (·.device ≠ device),
            turned := db.turned.filter (· ≠ device) }

def removeRow (db : Db) (name : Name) : Db :=
  { db with rows := db.rows.filter (·.name ≠ name) }

def writeRow (db : Db) (row : Row) : Db :=
  { db with rows := (db.removeRow row.name).rows ++ [row] }

end Db

def step (crypto : Crypto) (engine : Engine) (s : State) : Event → Option State
  | .open key env stop =>
      let run := openCipher crypto engine env key
      some { s with db := leaves run s.db stop,
                    session := if stop.isNone then (run.answer s.db).toOption else none }
  | .decrypt key env stop =>
      some { s with db := leaves (decryptStore crypto env key) s.db stop, session := none }
  | .rotate old new env stop =>
      some { s with db := leaves (rotateStore crypto engine env old new) s.db stop, session := none }
  | .create device =>
      if device ∈ s.db.accounts then none
      else some { s with db := { s.db with accounts := s.db.accounts ++ [device] } }
  | .delete device =>
      some { s with db := s.db.deleteAccount device, contents := s.contents.filter (·.1.1 ≠ device) }
  | .write device column parts plaintext nonce => match s.session with
      | none => none
      | some cipher =>
          if device ∈ s.db.accounts ∧ column ∈ sealedColumns then
            match cipher.seal crypto nonce (rowContext device column parts) plaintext with
            | .ok blob =>
                some { s with db := s.db.writeRow ⟨device, column, parts, blob, plaintext⟩,
                              contents := s.contents.filter (·.1 ≠ (device, column, parts)) ++
                                [((device, column, parts), plaintext)] }
            | .error _ => some s
          else none
  | .remove device column parts => match s.session with
      | none => none
      | some _ =>
          some { s with db := s.db.removeRow (device, column, parts),
                        contents := s.contents.filter (·.1 ≠ (device, column, parts)) }

def machine (crypto : Crypto) (engine : Engine) : Machine State Event := ⟨{}, step crypto engine⟩

end Wamux.Encryption
