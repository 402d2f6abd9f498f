import Wamux.Encryption.Tables
import Wamux.Runs.Parameters

/-!
# Placeholders in the text of a statement

The shared statements spell their placeholders `$1`, `$2` and so on. sqlx binds them by number; turso binds
a `$` by its name, in the order of first appearance, and a `?` by number, which is why its engine rewrites
the one to the other.
-/

namespace Wamux.Placeholders
open Encryption (KeyColumn SealedColumn)
open Runs.Parameters

inductive Marker where
  | dollar (name : List Char)
  | question (digits : List Char)
  deriving DecidableEq

def isNameChar (c : Char) : Bool := c.isAlphanum || c = '_'

def scan : List Char → List Marker
  | [] => []
  | c :: rest =>
      if c = '$' then .dollar (rest.takeWhile isNameChar) :: scan rest
      else if c = '?' then .question (rest.takeWhile Char.isDigit) :: scan rest
      else scan rest

/-- As SQLite and turso read one. -/
def Marker.parameter : Marker → Parameter (List Char)
  | .dollar name => .named name
  | .question [] => .anonymous
  | .question digits => .numbered (Nat.ofDigitChars 10 digits 0)

/-- As sqlx reads one: `$` and a number. -/
def Marker.number? : Marker → Option Nat
  | .dollar name => if name ≠ [] ∧ name.all Char.isDigit = true then some (Nat.ofDigitChars 10 name 0) else none
  | .question _ => none

def sqlxSlots (sql : String) : Option (List Nat) := (scan sql.toList).mapM Marker.number?

def tursoSlots (sql : String) : List Nat := slots ((scan sql.toList).map Marker.parameter)

def questioned (c : Char) : Char := if c = '$' then '?' else c

/-- `sql.replace('$', "?")` -/
def tursoPlaceholders (sql : String) : String := String.ofList (sql.toList.map questioned)

/-! ## Statements -/

def inPlaceholders (first count : Nat) : String :=
  ", ".intercalate ((List.range' first count).map fun n => "$" ++ toString n)

def withList {V : Type} (leading list : List V) : List V := leading ++ list

def selectWithin (condition : String) (first : Nat) : String :=
  condition ++ " IN (" ++ inPlaceholders first Encryption.Tables.readChunk ++ ")"

def SELECT_SESSIONS : String := selectWithin "SELECT address, record FROM sessions WHERE device_id = $1 AND address" 2

def SELECT_PREKEYS : String := selectWithin "SELECT id, key FROM prekeys WHERE device_id = $1 AND id" 2

def SELECT_DEVICES : String := selectWithin "SELECT user_id, devices_json, timestamp, phash, raw_id
         FROM device_registry WHERE device_id = $1 AND user_id" 2

def SELECT_TC_TOKENS : String := selectWithin "SELECT jid, token, token_timestamp, sender_timestamp
         FROM tc_tokens WHERE device_id = $1 AND jid" 2

def SELECT_MUTATION_MACS : String := selectWithin "SELECT index_mac, value_mac FROM app_state_mutation_macs
         WHERE name = $1 AND device_id = $2 AND index_mac" 3

def TOUCH_SENDER_TIMESTAMP : String := "INSERT INTO tc_tokens
            (jid, token, token_timestamp, sender_timestamp, device_id, updated_at)
         VALUES ($1, $5, $2, $2, $3, $4)
         ON CONFLICT (jid, device_id) DO UPDATE SET
            sender_timestamp = CASE
                WHEN COALESCE(tc_tokens.sender_timestamp, $2) > $2
                    THEN COALESCE(tc_tokens.sender_timestamp, $2)
                ELSE $2
            END,
            updated_at = EXCLUDED.updated_at"

def KeyColumn.name : KeyColumn → String
  | .text name | .id name | .bytes name => name

def keyNames (column : SealedColumn) : List String := column.key.map KeyColumn.name

/-- `update_row`: the key columns from `position` on. -/
def keyConditions (position : Nat) : List String → String
  | [] => ""
  | name :: rest => " AND " ++ name ++ " = $" ++ toString position ++ keyConditions (position + 1) rest

def updateRow (column : SealedColumn) : String :=
  "UPDATE " ++ column.table ++ " SET " ++ column.column ++ " = $1 WHERE device_id = $2" ++ keyConditions 3 (keyNames column)

end Wamux.Placeholders
