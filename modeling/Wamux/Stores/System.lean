import Wamux.Runs.Transition
import Wamux.Stores.Methods

/-!
# One database, many accounts

The accounts, the rows of all of them, and what changes either. A device id is above every id that was handed
out before. A call that fails leaves the database as it was, so only those that succeed are events.
-/

namespace Wamux.Stores
open Runs Runs.Tables
open Encryption (Bytes DeviceId Crypto BlobCipher Nonce Engine)
open BatchedWrites (ToJson)

structure Account where
  uuid : String
  externalRef : Option String
  device : DeviceId
  deriving DecidableEq

structure Database where
  accounts : List Account
  sequence : Int
  rows : Rows

namespace Database

def empty : Database := ⟨[], 0, ∅⟩

def hasAccount (db : Database) (device : DeviceId) : Bool := db.accounts.any (·.device = device)

/-- `INSERT_ACCOUNT`; both columns are `UNIQUE`. -/
def insertAccount (db : Database) (account : Account) : Option Database :=
  if db.sequence < account.device.toInt ∧ db.accounts.all (·.uuid ≠ account.uuid) ∧
      db.accounts.all fun other => other.externalRef = none ∨ other.externalRef ≠ account.externalRef then
    some { db with accounts := db.accounts ++ [account], sequence := account.device.toInt }
  else none

def deleteAccount (db : Database) (uuid : String) : Database :=
  let gone := db.accounts.filter (·.uuid = uuid)
  { db with
    accounts := db.accounts.filter (·.uuid ≠ uuid)
    rows := runAll (gone.map fun account => Statements.deleteScoped account.device) db.rows }

/-- A row that is inserted references its account. -/
def refuses (db : Database) : Statement Key Row → Bool
  | .upsert key _ _ => (db.rows.lookup key).isNone ∧ ¬ db.hasAccount key.device
  | _ => false

def execute (db : Database) (statement : Statement Key Row) : Option Database :=
  if db.refuses statement then none else some { db with rows := statement.run db.rows }

end Database

inductive Event (info : Type) where
  | createAccount (account : Account)
  | deleteAccount (uuid : String)
  | call (device : DeviceId) (nonces : Nat → Option Nonce) (now : Int64) (write : Write info)

section Runs
variable {info : Type} (crypto : Crypto) (cipher : BlobCipher) (toJson : ToJson info) (engine : Engine)

def Database.call (db : Database) (device : DeviceId) (nonces : Nat → Option Nonce) (now : Int64) (write : Write info) :
    Option Database := do
  let statements ← (write.prepare crypto cipher toJson engine device nonces now db.rows).toOption
  statements.foldlM Database.execute db

def step (db : Database) : Event info → Option Database
  | .createAccount account => db.insertAccount account
  | .deleteAccount uuid => some (db.deleteAccount uuid)
  | .call device nonces now write => db.call crypto cipher toJson engine device nonces now write

def machine : Machine Database (Event info) := ⟨.empty, step crypto cipher toJson engine⟩

def run (events : List (Event info)) : Option Database :=
  events.foldlM (step crypto cipher toJson engine) .empty

end Runs
end Wamux.Stores
