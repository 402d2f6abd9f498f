import Wamux.Encryption.Store

namespace Wamux.Encryption.Tables
open Runs

inductive Family where
  | sqlx | turso
  deriving DecidableEq, Repr

inductive Value where
  | text (value : String)
  | int (value : Int64)
  | blob (value : Bytes)
  deriving DecidableEq

abbrev Cells := List (String × Value)

structure StoredRow where
  table : String
  device : DeviceId
  cells : Cells
  deriving DecidableEq

def primaryKey : String → List String
  | "identities" | "sessions" | "sender_keys" => ["address"]
  | "prekeys" | "signed_prekeys" => ["id"]
  | "app_state_keys" => ["key_id"]
  | "app_state_versions" => ["name"]
  | "app_state_mutation_macs" => ["name", "index_mac"]
  | "base_keys" => ["address", "message_id"]
  | "tc_tokens" => ["jid"]
  | "msg_secrets" => ["chat", "sender", "msg_id"]
  | "sent_messages" => ["chat_jid", "message_id"]
  | _ => []

namespace StoredRow

def cell (row : StoredRow) (name : String) : Option Value := row.cells.lookup name

def set (row : StoredRow) (changes : Cells) : StoredRow :=
  { row with cells := row.cells.map fun (name, value) => (name, (changes.lookup name).getD value) }

/-- `WHERE device_id = … AND name = …` -/
def selected (row : StoredRow) (table : String) (device : DeviceId) (wanted : Cells) : Bool :=
  row.table = table ∧ row.device = device ∧ ∀ cell ∈ wanted, row.cell cell.1 = some cell.2

def sameKey (row row' : StoredRow) : Bool :=
  row.table = row'.table ∧ row.device = row'.device ∧
    ∀ name ∈ primaryKey row.table, row.cell name = row'.cell name

end StoredRow

/-! ## Statements -/

def select (rows : List StoredRow) (table : String) (device : DeviceId) (wanted : Cells) : List StoredRow :=
  rows.filter (·.selected table device wanted)

def update (rows : List StoredRow) (table : String) (device : DeviceId) (wanted changes : Cells) : List StoredRow :=
  rows.map fun row => if row.selected table device wanted then row.set changes else row

/-- `INSERT … ON CONFLICT (…) DO UPDATE SET … WHERE …`; the conflict target is the primary key. -/
def upsert (rows : List StoredRow) (new : StoredRow) (changes : Cells) (when : StoredRow → Bool) : List StoredRow :=
  if rows.any (·.sameKey new) then
    rows.map fun row => if row.sameKey new && when row then row.set changes else row
  else rows ++ [new]

/-! ## Reading a column -/

def asText : Option Value → Except StoreError String
  | some (.text value) => .ok value
  | _ => .error .database

def asInt : Option Value → Except StoreError Int64
  | some (.int value) => .ok value
  | _ => .error .database

def asBlob : Option Value → Except StoreError Bytes
  | some (.blob value) => .ok value
  | _ => .error .database

def asInt32 (value : Option Value) : Except StoreError Int32 := do
  let wide ← asInt value
  if wide.toInt32.toInt64 = wide then return wide.toInt32 else .error .database

/-! ## The conversion -/

def keyName : KeyColumn → String
  | .text name | .id name | .bytes name => name

def readKey (family : Family) (row : StoredRow) : KeyColumn → Except StoreError RowPart
  | .text name => return .text (← asText (row.cell name))
  | .id name => match family with
      | .sqlx => return .int (← asInt32 (row.cell name)).toInt64
      | .turso => return .int (← asInt (row.cell name))
  | .bytes name => return .bytes (← asBlob (row.cell name))

def readRow (family : Family) (column : SealedColumn) (row : StoredRow) : Except StoreError (List RowPart × Bytes) := do
  let parts ← column.key.mapM (readKey family row)
  return (parts, ← asBlob (row.cell column.column))

/-- `part_value`, and what `write_row` binds. -/
def partValue : RowPart → Value
  | .text value => .text value
  | .int value => .int value
  | .bytes value => .blob value

/-- What `update_row` puts after `device_id = $2`. -/
def updateWhere (column : SealedColumn) (parts : List RowPart) : Cells :=
  (column.key.map keyName).zip (parts.map partValue)

def updateRow (rows : List StoredRow) (device : DeviceId) (column : SealedColumn) (parts : List RowPart)
    (turned : Bytes) : List StoredRow :=
  update rows column.table device (updateWhere column parts) [(column.column, .blob turned)]

def convertColumn (crypto : Crypto) (family : Family) (turn : Turn) (nonces : List RowPart → Option Nonce)
    (device : DeviceId) (column : SealedColumn) (rows : List StoredRow) : Except StoreError (List StoredRow) := do
  let fetched ← (select rows column.table device []).mapM (readRow family column)
  fetched.foldlM (fun rows (parts, blob) => do
    let turned ← turnBlob crypto turn (nonces parts) device column parts blob
    return updateRow rows device column parts turned) rows

/-! ## The stores -/

inductive Slot where
  | device
  | identity (address : String)
  | session (address : String)
  | prekey (id : UInt32)
  | signedPrekey (id : UInt32)
  | senderKey (address : String)
  | syncKey (keyId : Bytes)
  | version (name : String)
  | mutationMac (name : String) (indexMac : Bytes)
  | baseKey (address messageId : String)
  | tcToken (jid : String)
  | msgSecret (chat sender msgId : String)
  | sentMessage (chatJid messageId : String)
  deriving DecidableEq

structure Site where
  table : String
  column : String
  /-- The row bytes given to `seal_at` and `open_at`. -/
  row : Bytes
  binds : Cells

def Slot.site : Slot → Site
  | .device => ⟨"device", "data", [], []⟩
  | .identity address => ⟨"identities", "key", textBytes address, [("address", .text address)]⟩
  | .session address => ⟨"sessions", "record", textBytes address, [("address", .text address)]⟩
  | .prekey id => ⟨"prekeys", "key", beBytes id, [("id", .int id.toInt32.toInt64)]⟩
  | .signedPrekey id => ⟨"signed_prekeys", "record", beBytes id, [("id", .int id.toInt32.toInt64)]⟩
  | .senderKey address => ⟨"sender_keys", "record", textBytes address, [("address", .text address)]⟩
  | .syncKey keyId => ⟨"app_state_keys", "key_data", keyId, [("key_id", .blob keyId)]⟩
  | .version name => ⟨"app_state_versions", "state_data", textBytes name, [("name", .text name)]⟩
  | .mutationMac name indexMac => ⟨"app_state_mutation_macs", "value_mac", joinedRow [textBytes name, indexMac],
      [("name", .text name), ("index_mac", .blob indexMac)]⟩
  | .baseKey address messageId => ⟨"base_keys", "base_key", joinedRow [textBytes address, textBytes messageId],
      [("address", .text address), ("message_id", .text messageId)]⟩
  | .tcToken jid => ⟨"tc_tokens", "token", textBytes jid, [("jid", .text jid)]⟩
  | .msgSecret chat sender msgId => ⟨"msg_secrets", "secret",
      joinedRow [textBytes chat, textBytes sender, textBytes msgId],
      [("chat", .text chat), ("sender", .text sender), ("msg_id", .text msgId)]⟩
  | .sentMessage chatJid messageId => ⟨"sent_messages", "payload",
      joinedRow [textBytes chatJid, textBytes messageId],
      [("chat_jid", .text chatJid), ("message_id", .text messageId)]⟩

def Slot.context (device : DeviceId) (slot : Slot) : BlobContext :=
  ⟨device, slot.site.table, slot.site.column, slot.site.row⟩

section Methods
variable (crypto : Crypto) (cipher : BlobCipher) (device : DeviceId)

def sealAt (nonce : Option Nonce) (slot : Slot) (plaintext : Bytes) : Except StoreError Bytes :=
  cipher.seal crypto nonce (slot.context device) plaintext

def openAt (slot : Slot) (stored : Bytes) : Except StoreError Bytes :=
  cipher.open crypto (slot.context device) stored

def newRow (slot : Slot) (changes : Cells) : StoredRow :=
  ⟨slot.site.table, device, slot.site.binds ++ changes⟩

def put (slot : Slot) (further : Cells) (nonce : Option Nonce) (plaintext : Bytes) (rows : List StoredRow) :
    Except StoreError (List StoredRow) := do
  let sealed ← sealAt crypto cipher device nonce slot plaintext
  let changes := (slot.site.column, .blob sealed) :: further
  return upsert rows (newRow device slot changes) changes fun _ => true

def putAll (nonces : Nat → Option Nonce) (entries : List (Slot × Bytes)) (rows : List StoredRow) :
    Except StoreError (List StoredRow) :=
  entries.zipIdx.foldlM (fun rows ((slot, plaintext), i) =>
    put crypto cipher device slot [] (nonces i) plaintext rows) rows

def deleteSlot (slot : Slot) (rows : List StoredRow) : List StoredRow :=
  rows.filter fun row => !row.selected slot.site.table device slot.site.binds

inductive Write where
  | save (data : Bytes)
  | create (data : Bytes)
  | putIdentity (address : String) (key : Bytes)
  | putSession (address : String) (session : Bytes)
  | storePrekey (id : UInt32) (record : Bytes)
  | storeSignedPrekey (id : UInt32) (record : Bytes)
  | putSenderKey (address : String) (record : Bytes)
  | putIdentities (identities : List (String × Bytes))
  | putSessions (sessions : List (String × Bytes))
  | storePrekeys (keys : List (UInt32 × Bytes))
  | putSenderKeys (senderKeys : List (String × Bytes))
  | setSyncKey (keyId : Bytes) (data : Bytes)
  | setVersion (name : String) (data : Bytes)
  | putMutationMacs (name : String) (mutations : List (Bytes × Bytes))
  | commitPatch (name : String) (data : Bytes) (removed : List Bytes) (added : List (Bytes × Bytes))
  | saveBaseKey (address messageId : String) (baseKey : Bytes)
  | putTcToken (jid : String) (token : Bytes) (tokenTimestamp : Int64)
  | touchSenderTimestamp (jid : String) (senderTimestamp : Int64)
  | storeReceived (jid : String) (token : Bytes) (tokenTimestamp : Int64)
  | putMsgSecrets (entries : List ((String × String × String) × Bytes))
  | storeSentMessage (chatJid messageId : String) (payload : Bytes)

def macEntries (name : String) (mutations : List (Bytes × Bytes)) : List (Slot × Bytes) :=
  mutations.map fun (indexMac, valueMac) => (.mutationMac name indexMac, valueMac)

def Write.entries : Write → List (Slot × Bytes)
  | .save data | .create data => [(.device, data)]
  | .putIdentity address key => [(.identity address, key)]
  | .putSession address session => [(.session address, session)]
  | .storePrekey id record => [(.prekey id, record)]
  | .storeSignedPrekey id record => [(.signedPrekey id, record)]
  | .putSenderKey address record => [(.senderKey address, record)]
  | .putIdentities identities => identities.map fun (address, key) => (.identity address, key)
  | .putSessions sessions => sessions.map fun (address, record) => (.session address, record)
  | .storePrekeys keys => keys.map fun (id, record) => (.prekey id, record)
  | .putSenderKeys senderKeys => senderKeys.map fun (address, record) => (.senderKey address, record)
  | .setSyncKey keyId data => [(.syncKey keyId, data)]
  | .setVersion name data => [(.version name, data)]
  | .putMutationMacs name mutations => macEntries name mutations
  | .commitPatch name data _ added => (.version name, data) :: macEntries name added
  | .saveBaseKey address messageId baseKey => [(.baseKey address messageId, baseKey)]
  | .putTcToken jid token _ | .storeReceived jid token _ => [(.tcToken jid, token)]
  | .touchSenderTimestamp jid _ => [(.tcToken jid, [])]
  | .putMsgSecrets entries => entries.map fun ((chat, sender, msgId), secret) => (.msgSecret chat sender msgId, secret)
  | .storeSentMessage chatJid messageId payload => [(.sentMessage chatJid messageId, payload)]

/-- `length(tc_tokens.token) = 0 OR EXCLUDED.token_timestamp >= tc_tokens.token_timestamp`. -/
def receives (tokenTimestamp : Int64) (row : StoredRow) : Bool :=
  row.cell "token" = some (.blob []) || match row.cell "token_timestamp" with
    | some (.int stored) => stored ≤ tokenTimestamp
    | _ => false

def Write.run (nonces : Nat → Option Nonce) (write : Write) (rows : List StoredRow) :
    Except StoreError (List StoredRow) :=
  match write with
  | .create data => do
      -- ON CONFLICT DO NOTHING
      let sealed ← sealAt crypto cipher device (nonces 0) .device data
      return upsert rows (newRow device .device [("data", .blob sealed)]) [] fun _ => false
  | .commitPatch name data removed added => do
      let sealed ← sealAt crypto cipher device (nonces 0) (.version name) data
      let changes := [("state_data", .blob sealed)]
      let rows := upsert rows (newRow device (.version name) changes) changes fun _ => true
      let rows := removed.foldl (fun rows indexMac => deleteSlot device (.mutationMac name indexMac) rows) rows
      putAll crypto cipher device (fun i => nonces (i + 1)) (macEntries name added) rows
  | .putTcToken jid token tokenTimestamp =>
      put crypto cipher device (.tcToken jid) [("token_timestamp", .int tokenTimestamp)] (nonces 0) token rows
  | .touchSenderTimestamp jid senderTimestamp =>
      -- an existing row keeps its token and its token_timestamp
      .ok (upsert rows (newRow device (.tcToken jid) [("token", .blob []), ("token_timestamp", .int senderTimestamp)])
        [] fun _ => true)
  | .storeReceived jid token tokenTimestamp => do
      let sealed ← sealAt crypto cipher device (nonces 0) (.tcToken jid) token
      let changes := [("token", .blob sealed), ("token_timestamp", .int tokenTimestamp)]
      return upsert rows (newRow device (.tcToken jid) changes) changes (receives tokenTimestamp)
  | write => putAll crypto cipher device nonces write.entries rows

/-! ## Reads -/

def readChunk : Nat := 100

def chunks {α : Type} : List α → List (List α)
  | [] => []
  | item :: rest => (item :: rest).take readChunk :: chunks ((item :: rest).drop readChunk)
termination_by items => items.length
decreasing_by
  simp only [readChunk, List.length_drop, List.length_cons]
  omega

def padToReadChunk {α : Type} (chunk : List α) : List α :=
  match chunk.getLast? with
  | none => chunk
  | some last => chunk ++ List.replicate (readChunk - chunk.length) last

def paddedChunks {α : Type} [BEq α] (items : List α) : List (List α) := (chunks items.eraseDups).map padToReadChunk

def fetchOne (slot : Slot) (rows : List StoredRow) : Except StoreError (List (Slot × Bytes)) :=
  match select rows slot.site.table device slot.site.binds with
  | [] => .ok []
  | row :: _ => do
      let stored ← asBlob (row.cell slot.site.column)
      return [(slot, ← openAt crypto cipher device slot stored)]

/-- The rows of a query opened one after the other, each under the name its own cells give it. -/
def openAll (named : StoredRow → Except StoreError (Option Slot)) (column : String) :
    List StoredRow → Except StoreError (List (Slot × Bytes))
  | [] => .ok []
  | row :: rest => do
      match ← named row with
      | none => openAll named column rest
      | some slot => do
          let stored ← asBlob (row.cell column)
          let opened ← openAt crypto cipher device slot stored
          return (slot, opened) :: (← openAll named column rest)

def fetchIn (table column : String) (fixed : Cells) (asked : String) (named : StoredRow → Except StoreError (Option Slot))
    (rows : List StoredRow) : List (List Value) → Except StoreError (List (Slot × Bytes))
  | [] => .ok []
  | chunk :: rest => do
      let fetched := (select rows table device fixed).filter fun row => ∃ value ∈ chunk, row.cell asked = some value
      let found ← openAll crypto cipher device named column fetched
      return found ++ (← fetchIn table column fixed asked named rows rest)

inductive Read where
  | load
  | loadIdentity (address : String)
  | getSession (address : String)
  | loadPrekey (id : UInt32)
  | loadSignedPrekey (id : UInt32)
  | loadAllSignedPrekeys
  | getSenderKey (address : String)
  | getSessions (addresses : List String)
  | loadPrekeys (ids : List UInt32)
  | getSyncKey (keyId : Bytes)
  | getVersion (name : String)
  | getMutationMac (name : String) (indexMac : Bytes)
  | getMutationMacs (name : String) (indexMacs : List { indexMac : Bytes // indexMac.length = 32 })
  | hasSameBaseKey (address messageId : String)
  | getTcToken (jid : String)
  | getTcTokens (jids : List String)
  | getMsgSecret (chat sender msgId : String)
  | getStoredMsgSecret (chat sender msgId : String)
  | takeSentMessage (chatJid messageId : String)
  | getSentMessage (chatJid messageId : String)

/-- The id of a row as the batched reads have it: an `i32`, whose big-endian bytes name the row. -/
def idSlot (slot : UInt32 → Slot) (row : StoredRow) : Except StoreError (Option Slot) := do
  return some (slot (← asInt32 (row.cell "id")).toUInt32)

def textSlot (slot : String → Slot) (name : String) (row : StoredRow) : Except StoreError (Option Slot) := do
  return some (slot (← asText (row.cell name)))

/-- A stored index that is not 32 bytes is skipped. -/
def macSlot (name : String) (row : StoredRow) : Except StoreError (Option Slot) := do
  let indexMac ← asBlob (row.cell "index_mac")
  return if indexMac.length = 32 then some (.mutationMac name indexMac) else none

def Read.run (read : Read) (rows : List StoredRow) : Except StoreError (List (Slot × Bytes)) :=
  match read with
  | .load => fetchOne crypto cipher device .device rows
  | .loadIdentity address => fetchOne crypto cipher device (.identity address) rows
  | .getSession address => fetchOne crypto cipher device (.session address) rows
  | .loadPrekey id => fetchOne crypto cipher device (.prekey id) rows
  | .loadSignedPrekey id => fetchOne crypto cipher device (.signedPrekey id) rows
  | .loadAllSignedPrekeys =>
      openAll crypto cipher device (idSlot .signedPrekey) "record" (select rows "signed_prekeys" device [])
  | .getSenderKey address => fetchOne crypto cipher device (.senderKey address) rows
  | .getSessions addresses =>
      fetchIn crypto cipher device "sessions" "record" [] "address" (textSlot .session "address") rows
        ((paddedChunks addresses).map (·.map .text))
  | .loadPrekeys ids =>
      fetchIn crypto cipher device "prekeys" "key" [] "id" (idSlot .prekey) rows
        ((paddedChunks ids).map (·.map fun id => .int id.toInt32.toInt64))
  | .getSyncKey keyId => fetchOne crypto cipher device (.syncKey keyId) rows
  | .getVersion name => fetchOne crypto cipher device (.version name) rows
  | .getMutationMac name indexMac => fetchOne crypto cipher device (.mutationMac name indexMac) rows
  | .getMutationMacs name indexMacs =>
      fetchIn crypto cipher device "app_state_mutation_macs" "value_mac" [("name", .text name)] "index_mac"
        (macSlot name) rows ((paddedChunks indexMacs).map (·.map fun indexMac => .blob indexMac.1))
  | .hasSameBaseKey address messageId => fetchOne crypto cipher device (.baseKey address messageId) rows
  | .getTcToken jid => fetchOne crypto cipher device (.tcToken jid) rows
  | .getTcTokens jids =>
      fetchIn crypto cipher device "tc_tokens" "token" [] "jid" (textSlot .tcToken "jid") rows
        ((paddedChunks jids).map (·.map .text))
  | .getMsgSecret chat sender msgId | .getStoredMsgSecret chat sender msgId =>
      fetchOne crypto cipher device (.msgSecret chat sender msgId) rows
  | .takeSentMessage chatJid messageId | .getSentMessage chatJid messageId =>
      fetchOne crypto cipher device (.sentMessage chatJid messageId) rows

end Methods

/-! ## What happens to the tables -/

inductive Event where
  | write (device : DeviceId) (cipher : BlobCipher) (nonces : Nat → Option Nonce) (write : Write)
  | delete (keeps : StoredRow → Bool)
  | convert (turn : Turn) (nonces : List RowPart → Option Nonce) (device : DeviceId) (column : SealedColumn)

/-- A call that fails leaves the rows as they were. -/
def step (crypto : Crypto) (family : Family) (rows : List StoredRow) : Event → Option (List StoredRow)
  | .write device cipher nonces write => (write.run crypto cipher device nonces rows).toOption
  | .delete keeps => some (rows.filter keeps)
  | .convert turn nonces device column =>
      if column ∈ sealedColumns then (convertColumn crypto family turn nonces device column rows).toOption else none

def machine (crypto : Crypto) (family : Family) : Machine (List StoredRow) Event := ⟨[], step crypto family⟩

end Wamux.Encryption.Tables
