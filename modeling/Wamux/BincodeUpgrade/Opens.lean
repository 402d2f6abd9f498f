import Mathlib.Logic.Function.Basic
import Wamux.Encryption.Store
import Wamux.BincodeUpgrade.Plan

/-!
# Opening a store

Any number of openers run the upgrade one statement at a time, each statement failing or not, and
any of them may crash. An opener that is through serves the store or runs its encryption. The writes
of an open transaction are kept aside until its COMMIT.
-/

namespace Wamux.BincodeUpgrade
open Runs
open Wamux.Encryption (Bytes DeviceId Crypto Engine Name Db BlobCipher SealedColumn RowPart Row)

inductive Family where
  | pg | sqlite | turso
  deriving DecidableEq, Repr

/-- The encryption runs of Turso are statement by statement those of SQLite. -/
def Family.engine : Family → Engine
  | .pg => .pg
  | .sqlite | .turso => .sqlite

/-! ## The three columns -/

def deviceData : SealedColumn := ⟨"device", "data", []⟩
def stateData : SealedColumn := ⟨"app_state_versions", "state_data", [.text "name"]⟩
def keyData : SealedColumn := ⟨"app_state_keys", "key_data", [.bytes "key_id"]⟩

structure Files where
  db : Db
  format : Option String

/-- In the order of `device_id`; the order among the rows of one account is left to the driver. -/
def rowsOf (db : Db) (column : SealedColumn) : List Row :=
  (db.rows.filter (·.column = column)).insertionSort fun row row' => row.device ≤ row'.device

def textOf : List RowPart → String
  | [.text name] => name
  | _ => ""

def bytesOf : List RowPart → Bytes
  | [.bytes keyId] => keyId
  | _ => []

def selectLegacyDevices (db : Db) : List (DeviceId × Bytes) :=
  (rowsOf db deviceData).map fun row => (row.device, row.blob)

def selectLegacyVersions (db : Db) : List (DeviceId × String × Bytes) :=
  (rowsOf db stateData).map fun row => (row.device, textOf row.parts, row.blob)

def selectLegacySyncKeys (db : Db) : List (DeviceId × Bytes × Bytes) :=
  (rowsOf db keyData).map fun row => (row.device, bytesOf row.parts, row.blob)

/-! ## The writes -/

inductive Write where
  | blob (name : Name) (new : Bytes)
  | mark
  deriving DecidableEq

def updateDeviceBlob : DeviceId × Bytes → Write
  | (device, new) => .blob (device, deviceData, []) new

def updateVersionBlob : DeviceId × String × Bytes → Write
  | (device, name, new) => .blob (device, stateData, [.text name]) new

def updateSyncKeyBlob : DeviceId × Bytes × Bytes → Write
  | (device, keyId, new) => .blob (device, keyData, [.bytes keyId]) new

def writePlan (plan : BincodeUpgradePlan) : List Write :=
  plan.devices.map updateDeviceBlob ++ plan.versions.map updateVersionBlob ++ plan.syncKeys.map updateSyncKeyBlob ++
    [.mark]

def Write.context : Write → String
  | .blob name _ => "updating " ++ name.2.1.table
  | .mark => "updating blob_format"

/-- The bytes are the row's plaintext: nothing is sealed yet. -/
def Write.row (row : Row) : Write → Row
  | .blob name new => if row.name = name then { row with blob := new, written := new } else row
  | .mark => row

def Write.run (files : Files) (write : Write) : Files where
  db := { files.db with rows := files.db.rows.map fun row => write.row row }
  format := match write with
    | .blob _ _ => files.format
    | .mark => files.format.map fun _ => blobFormatProtobuf

/-! ## One opener -/

abbrev OpenerId := Nat

inductive Phase where
  | begin
  | readFormat
  | readDevices
  | readVersions (devices : List (DeviceId × Bytes))
  | readSyncKeys (devices : List (DeviceId × Bytes)) (versions : List (DeviceId × String × Bytes))
  /-- The writes that ran and those that are left; with none left, COMMIT. -/
  | writing (done left : List Write)
  /-- The explicit rollback, and what is answered after it. -/
  | rollingBack (answer : Except UpgradeError Unit)
  /-- The transaction was dropped; the driver, or the next user of the writer, rolls it back. -/
  | abandoned (e : UpgradeError)
  | failed (e : UpgradeError)
  | migrated

/-- How a statement ends; a COMMIT that reports an error may have happened. -/
inductive Outcome where
  | ok | error | lost
  deriving DecidableEq, Repr

inductive Move where
  | to (phase : Phase)
  /-- It takes the lock, waiting while another opener has it. -/
  | locked (phase : Phase)
  | ended (phase : Phase)
  | committed (writes : List Write) (phase : Phase)

section Opener
variable {wacore : Wamux.BlobCodec.Wacore} (codec : Codec wacore) (bincode : Bincode wacore)

/-- An error inside the transaction: the sqlx family drops it, Turso rolls it back first. -/
def Family.fails (family : Family) (e : UpgradeError) : Phase :=
  match family with
  | .pg | .sqlite => .abandoned e
  | .turso => .rollingBack (.error e)

def afterFormat (family : Family) : Option String → Phase
  | none => family.fails (match family with
      | .pg | .sqlite => .database "reading blob_format"
      | .turso => .unknownFormat "<no blob_format row>")
  | some format => match needsBincodeUpgrade format with
      | .error e => family.fails e
      | .ok false => .rollingBack (.ok ())
      | .ok true => .readDevices

def afterRead (family : Family) (rows : LegacyBlobRows) : Phase :=
  match planBincodeUpgrade codec bincode rows with
  | .error e => family.fails e
  | .ok plan => .writing [] (writePlan plan)

/-- The lock is the writer's on SQLite and Turso, and the marker row's on Postgres. -/
def next (family : Family) (files : Files) (phase : Phase) (outcome : Outcome) : Option Move :=
  match phase, outcome with
  | .begin, .ok => match family with
      | .pg => some (.to .readFormat)
      | .sqlite | .turso => some (.locked .readFormat)
  | .begin, _ => some (.to (.failed (.database "begin")))
  | .readFormat, .ok => match family with
      | .pg => some (.locked (afterFormat family files.format))
      | .sqlite | .turso => some (.to (afterFormat family files.format))
  | .readFormat, _ => some (.to (family.fails (.database "reading blob_format")))
  | .readDevices, .ok => some (.to (.readVersions (selectLegacyDevices files.db)))
  | .readDevices, _ => some (.to (family.fails (.database "reading device")))
  | .readVersions devices, .ok => some (.to (.readSyncKeys devices (selectLegacyVersions files.db)))
  | .readVersions _, _ => some (.to (family.fails (.database "reading app_state_versions")))
  | .readSyncKeys devices versions, .ok =>
      some (.to (afterRead codec bincode family ⟨devices, versions, selectLegacySyncKeys files.db⟩))
  | .readSyncKeys _ _, _ => some (.to (family.fails (.database "reading app_state_keys")))
  | .writing done (write :: left), .ok => some (.to (.writing (done ++ [write]) left))
  | .writing _ (write :: _), _ => some (.to (family.fails (.database write.context)))
  | .writing done [], .ok => some (.committed done .migrated)
  | .writing _ [], .error => some (.ended (.failed (.database "commit")))
  | .writing done [], .lost => some (.committed done (.failed (.database "commit")))
  | .rollingBack (.ok ()), .ok => some (.ended .migrated)
  | .rollingBack (.ok ()), _ => match family with
      | .pg => some (.ended (.failed (.database "rolling back")))
      | .sqlite | .turso => some (.ended .migrated)
  | .rollingBack (.error e), _ => some (.ended (.failed e))
  | .abandoned e, _ => some (.ended (.failed e))
  | .failed _, _ => none
  | .migrated, _ => none

end Opener

/-! ## The machine -/

structure State where
  files : Files
  phases : OpenerId → Phase := fun _ => .begin
  lock : Option OpenerId := none
  sessions : OpenerId → Option BlobCipher := fun _ => none

inductive Event where
  | upgrade (opener : OpenerId) (outcome : Outcome)
  /-- The process is gone, or its open failed and it starts over. -/
  | crash (opener : OpenerId)
  | store (opener : OpenerId) (event : Encryption.Event)

def freed (opener : OpenerId) (lock : Option OpenerId) : Option OpenerId :=
  if lock = some opener then none else lock

namespace State

def setPhase (s : State) (opener : OpenerId) (phase : Phase) : State :=
  { s with phases := Function.update s.phases opener phase }

def apply (s : State) (opener : OpenerId) : Move → Option State
  | .to phase => some (s.setPhase opener phase)
  | .locked phase =>
      if s.lock.isSome then none
      else some { s.setPhase opener phase with lock := some opener }
  | .ended phase => some { s.setPhase opener phase with lock := freed opener s.lock }
  | .committed writes phase =>
      some { s.setPhase opener phase with files := writes.foldl Write.run s.files, lock := freed opener s.lock }

end State

section Machine
variable {wacore : Wamux.BlobCodec.Wacore} (codec : Codec wacore) (bincode : Bincode wacore) (crypto : Crypto)
variable (family : Family)

def step (s : State) : Event → Option State
  | .upgrade opener outcome => do
      let move ← next codec bincode family s.files (s.phases opener) outcome
      s.apply opener move
  | .crash opener =>
      some { s.setPhase opener .begin with
        lock := freed opener s.lock, sessions := Function.update s.sessions opener none }
  | .store opener event => match s.phases opener with
      | .migrated => do
          let after ← Encryption.step crypto family.engine ⟨s.files.db, s.sessions opener, []⟩ event
          return { s with
            files := { s.files with db := after.db }, sessions := Function.update s.sessions opener after.session }
      | _ => none

structure Keyed (row : Row) : Prop where
  device : row.column = deviceData → row.parts = []
  version : row.column = stateData → row.parts = [.text (textOf row.parts)]
  syncKey : row.column = keyData → row.parts = [.bytes (bytesOf row.parts)]

/-- A store as an earlier release left it: nothing in it is sealed. -/
structure LegacyStore where
  files : Files
  distinct : (files.db.rows.map Row.name).Nodup
  keyed : ∀ row ∈ files.db.rows, Keyed row
  plain : ∀ row ∈ files.db.rows, row.blob = row.written
  unmarked : files.db.encrypted = false ∧ files.db.verifier = none

def machine (store : LegacyStore) : Machine State Event := ⟨{ files := store.files }, step codec bincode crypto family⟩

end Machine

end Wamux.BincodeUpgrade
