import Wamux.Runs.Selects
import Wamux.Encryption.Tables

namespace Wamux.BatchedReads
open Runs.Selects
open Encryption (StoreError)
open Encryption.Tables (StoredRow Value readChunk asInt asInt32 asText primaryKey)

/-! ## Rows -/

def column (row : StoredRow) (name : String) : Option Value :=
  if name = "device_id" then some (.int row.device.toInt64) else row.cell name

def keyColumns : String → List String
  | "device_registry" => ["user_id"]
  | table => primaryKey table

def SameKey (row row' : StoredRow) : Prop :=
  row.table = row'.table ∧ row.device = row'.device ∧ ∀ name ∈ keyColumns row.table, row.cell name = row'.cell name

structure Content where
  rows : List StoredRow
  unique : rows.Pairwise fun row row' => ¬ SameKey row row'

/-! ## Statements -/

structure Query where
  table : String
  select : Select String

/-- An engine refuses binds that are not as many as the parameters. -/
def Query.run (query : Query) (binds : List Value) (rows : List StoredRow) : Except StoreError (List StoredRow) :=
  if binds.length = query.select.parameters then
    .ok (rows.filter fun row => row.table = query.table && query.select.chooses (column row) binds)
  else .error .database

def inPlaceholders (first count : Nat) : List Nat := List.range' first count

def GET_SESSION : Query := ⟨"sessions", [("address", 1), ("device_id", 2)], none⟩
def SELECT_SESSIONS : Query := ⟨"sessions", [("device_id", 1)], some ("address", inPlaceholders 2 readChunk)⟩

def LOAD_PREKEY : Query := ⟨"prekeys", [("id", 1), ("device_id", 2)], none⟩
def SELECT_PREKEYS : Query := ⟨"prekeys", [("device_id", 1)], some ("id", inPlaceholders 2 readChunk)⟩

def GET_DEVICES : Query := ⟨"device_registry", [("user_id", 1), ("device_id", 2)], none⟩
def SELECT_DEVICES : Query := ⟨"device_registry", [("device_id", 1)], some ("user_id", inPlaceholders 2 readChunk)⟩

def GET_TC_TOKEN : Query := ⟨"tc_tokens", [("jid", 1), ("device_id", 2)], none⟩
def SELECT_TC_TOKENS : Query := ⟨"tc_tokens", [("device_id", 1)], some ("jid", inPlaceholders 2 readChunk)⟩

def GET_MUTATION_MAC : Query :=
  ⟨"app_state_mutation_macs", [("name", 1), ("index_mac", 2), ("device_id", 3)], none⟩
def SELECT_MUTATION_MACS : Query :=
  ⟨"app_state_mutation_macs", [("name", 1), ("device_id", 2)], some ("index_mac", inPlaceholders 3 readChunk)⟩

/-! ## Cells that may be `NULL` -/

def nullable {α : Type} (read : Option Value → Except StoreError α) : Option Value → Except StoreError (Option α)
  | none => .ok none
  | some value => (read (some value)).map some

end Wamux.BatchedReads
