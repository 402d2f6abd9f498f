import Wamux.Proof.Encryption.Agreement
import Wamux.Proof.Stores.Isolation

namespace Wamux.Proof.Stores
open Wamux.Stores Runs Runs.Tables Runs.Failing
open Wamux.Encryption (Bytes DeviceId Crypto BlobCipher Nonce Engine StoreError StoreKey)
open Wamux.Encryption.Tables (Slot openAt sealAt)
open Wamux.BatchedWrites (ToJson RowError sealed LidPnMappingEntry DeviceListRecord)
open Wamux.Proof.Encryption (openLetter)

variable {info : Type} {crypto : Crypto} {cipher : BlobCipher} {toJson : ToJson info} {engine : Engine} {device : DeviceId}
  {nonces : Nat → Option Nonce} {now : Int64} {write : Write info} {rows rows' : Rows} {row row' : Row} {key : Key}
  {statement statement' : Statement Key Row} {statements statements' : List (Statement Key Row)} {db plain after : Database} {account : Account}

/-! ## Rows -/

/-- The sealed column opens where the row is, and is empty just when the plain one is. -/
def SecretOf (crypto : Crypto) (cipher : BlobCipher) (key : Key) (stored plaintext : Bytes) : Prop :=
  match key.name with
  | .sealed slot => openAt crypto cipher key.device slot stored = .ok plaintext ∧ (stored.length = 0 ↔ plaintext.length = 0)
  | _ => stored = plaintext

structure Twins (crypto : Crypto) (cipher : BlobCipher) (key : Key) (row row' : Row) : Prop where
  cells : row.cells = row'.cells
  secret : SecretOf crypto cipher key row.secret row'.secret

theorem SecretOf.empty (key : Key) : SecretOf crypto cipher key [] [] := by
  unfold SecretOf
  split
  · refine ⟨?_, Iff.rfl⟩
    cases cipher <;> rfl
  · rfl

theorem SecretOf.length {stored plaintext : Bytes} (secret : SecretOf crypto cipher key stored plaintext) :
    stored.length = 0 ↔ plaintext.length = 0 := by
  unfold SecretOf at secret
  split at secret
  · exact secret.2
  · rw [secret]

theorem secretOf_sealed {nonce : Option Nonce} {slot : Slot} {plaintext stored : Bytes}
    (prepared : sealed crypto cipher device nonce slot plaintext = .ok stored) :
    SecretOf crypto cipher ⟨device, .sealed slot⟩ stored plaintext := by
  have made : sealAt crypto cipher device nonce slot plaintext = .ok stored := mapError_eq_ok.1 prepared
  refine ⟨Encryption.Naming.open_of_seal made, ?_⟩
  cases cipher with
  | passthrough =>
      cases made
      rfl
  | sealing key =>
      rcases Encryption.seal_eq made with ⟨rfl, rfl⟩ | ⟨present, drawn, -, rfl⟩
      · rfl
      · simp [Encryption.blobOf, present]

/-! ## Statements -/

def target : Statement Key Row → Option Key
  | .upsert key _ _ => some key
  | _ => none

structure Alike (crypto : Crypto) (cipher : BlobCipher) (statement statement' : Statement Key Row) : Prop where
  target : target statement = target statement'
  on : ∀ key found found', Option.Rel (Twins crypto cipher key) found found' →
    Option.Rel (Twins crypto cipher key) (statement.on key found) (statement'.on key found')

theorem alike_upsert {new new' : Row} {onConflict onConflict' : Row → Row} (inserted : Twins crypto cipher key new new')
    (updated : ∀ row row', Twins crypto cipher key row row' → Twins crypto cipher key (onConflict row) (onConflict' row')) :
    Alike crypto cipher (.upsert key new onConflict) (.upsert key new' onConflict') := by
  refine ⟨rfl, fun at' found found' both => ?_⟩
  by_cases here : at' = key
  · subst here
    simp only [Statement.on, if_true]
    cases both with
    | none => exact .some inserted
    | some both => exact .some (updated _ _ both)
  · simpa only [Statement.on, if_neg here] using both

theorem alike_update {when : Key → Row → Bool} {set : Row → Row}
    (chosen : ∀ key row row', Twins crypto cipher key row row' → when key row = when key row')
    (kept : ∀ key row row', Twins crypto cipher key row row' → Twins crypto cipher key (set row) (set row')) :
    Alike crypto cipher (.update when set) (.update when set) := by
  refine ⟨rfl, fun key found found' both => ?_⟩
  cases both with
  | none => exact .none
  | some both =>
      simp only [Statement.on, Option.map_some, chosen _ _ _ both]
      split
      · exact .some (kept _ _ _ both)
      · exact .some both

theorem alike_delete {when : Key → Row → Bool}
    (chosen : ∀ key row row', Twins crypto cipher key row row' → when key row = when key row') :
    Alike crypto cipher (.delete when) (.delete when) := by
  refine ⟨rfl, fun key found found' both => ?_⟩
  cases both with
  | none => exact .none
  | some both =>
      simp only [Statement.on, Option.filter_some, chosen _ _ _ both]
      split
      · exact .some both
      · exact .none

theorem alike_deleteNamed {name : Name} :
    Alike crypto cipher (Statements.deleteNamed device name) (Statements.deleteNamed device name) :=
  alike_delete fun _ _ _ _ => rfl

theorem alike_replace {name : Name} {row row' : Row} (inserted : Twins crypto cipher ⟨device, name⟩ row row') :
    Alike crypto cipher (Statements.replace device name row) (Statements.replace device name row') :=
  alike_upsert inserted fun _ _ _ => inserted

theorem alike_deleteWhere {table : TableName} {old : Row → Bool}
    (chosen : ∀ key row row', Twins crypto cipher key row row' → old row = old row') :
    Alike crypto cipher (Statements.deleteWhere device table old) (Statements.deleteWhere device table old) := by
  apply alike_delete
  intro key row row' twins
  rw [chosen key row row' twins]

theorem alike_deleteOld {table : TableName} {old : Cells → Bool} :
    Alike crypto cipher (Statements.deleteWhere device table fun row => old row.cells)
      (Statements.deleteWhere device table fun row => old row.cells) := by
  apply alike_deleteWhere
  intro key row row' twins
  rw [twins.cells]

theorem alike_saveBaseKey {address messageId : String} {stored plaintext : Bytes} {createdAt : Int64}
    (secret : SecretOf crypto cipher ⟨device, .sealed (.baseKey address messageId)⟩ stored plaintext) :
    Alike crypto cipher (Statements.saveBaseKey device address messageId stored createdAt)
      (Statements.saveBaseKey device address messageId plaintext createdAt) :=
  alike_upsert ⟨rfl, secret⟩ fun _ _ twins => ⟨twins.cells, secret⟩

theorem alike_putMsgSecret {chat sender msgId : String} {stored plaintext : Bytes} {expiresAt messageTs : Int64}
    (secret : SecretOf crypto cipher ⟨device, .sealed (.msgSecret chat sender msgId)⟩ stored plaintext) :
    Alike crypto cipher (Statements.putMsgSecret device chat sender msgId stored expiresAt messageTs)
      (Statements.putMsgSecret device chat sender msgId plaintext expiresAt messageTs) := by
  refine alike_upsert ⟨rfl, secret⟩ fun row row' twins => ⟨?_, secret⟩
  rw [twins.cells]

theorem alike_touch {jid : String} {senderTimestamp : Int64} :
    Alike crypto cipher (Statements.touchSenderTimestamp device jid senderTimestamp)
      (Statements.touchSenderTimestamp device jid senderTimestamp) := by
  refine alike_upsert ⟨rfl, SecretOf.empty _⟩ fun row row' twins => ⟨?_, twins.secret⟩
  rw [twins.cells]

theorem alike_storeReceived {jid : String} {stored plaintext : Bytes} {tokenTimestamp : Int64}
    (secret : SecretOf crypto cipher ⟨device, .sealed (.tcToken jid)⟩ stored plaintext) :
    Alike crypto cipher (Statements.storeReceivedTcToken device jid stored tokenTimestamp)
      (Statements.storeReceivedTcToken device jid plaintext tokenTimestamp) := by
  refine alike_upsert ⟨rfl, secret⟩ fun row row' twins => ?_
  unfold Statements.receivedTcToken
  rw [twins.cells]
  split
  · simp only [twins.secret.length]
    split
    · exact ⟨rfl, secret⟩
    · exact twins
  · exact twins

theorem alike_deleteExpiredTcTokens {tokenCutoff senderCutoff : Int64} :
    Alike crypto cipher (Statements.deleteExpiredTcTokens device tokenCutoff senderCutoff)
      (Statements.deleteExpiredTcTokens device tokenCutoff senderCutoff) := by
  apply alike_deleteWhere
  intro key row row' twins
  unfold Statements.expiredTcToken
  rw [twins.cells, decide_eq_decide.2 twins.secret.length]

theorem alike_putLidMapping {entry : LidPnMappingEntry} :
    Alike crypto cipher (lidStatement device entry) (lidStatement device entry) := by
  refine alike_upsert ⟨rfl, SecretOf.empty _⟩ fun row row' twins => ⟨?_, twins.secret⟩
  rw [twins.cells]

theorem alike_createDevice {stored plaintext : Bytes}
    (secret : SecretOf crypto cipher ⟨device, .sealed .device⟩ stored plaintext) :
    Alike crypto cipher (Statements.createDevice device stored) (Statements.createDevice device plaintext) :=
  alike_upsert ⟨rfl, secret⟩ fun _ _ twins => twins

/-! ## What a write prepares -/

abbrev AllAlike (crypto : Crypto) (cipher : BlobCipher) := List.Forall₂ (Alike crypto cipher)

theorem allAlike_self {α : Type} {items : List α} {make : α → Statement Key Row}
    (each : ∀ item, Alike crypto cipher (make item) (make item)) : AllAlike crypto cipher (items.map make) (items.map make) := by
  apply List.forall₂_same.2
  intro statement member
  obtain ⟨item, _, rfl⟩ := List.mem_map.1 member
  exact each item

theorem allAlike_one (alike : Alike crypto cipher statement statement') : AllAlike crypto cipher [statement] [statement'] :=
  .cons alike .nil

theorem sealing_alike {nonce : Option Nonce} {slot : Slot} {plaintext : Bytes} {make : Bytes → Statement Key Row}
    (prepared : sealing crypto cipher device nonce slot plaintext make = .ok statements)
    (each : ∀ stored, SecretOf crypto cipher ⟨device, .sealed slot⟩ stored plaintext →
      Alike crypto cipher (make stored) (make plaintext)) :
    ∃ statements', sealing crypto .passthrough device nonce slot plaintext make = .ok statements' ∧
      AllAlike crypto cipher statements statements' := by
  obtain ⟨stored, made, rfl⟩ := sealing_ok prepared
  exact ⟨_, rfl, allAlike_one (each stored (secretOf_sealed made))⟩

theorem sealingEach_alike {α : Type} {slot : α → Slot} {plaintext : α → Bytes} {make : α → Bytes → Statement Key Row}
    {items : List α} (prepared : sealingEach crypto cipher device nonces slot plaintext make items = .ok statements)
    (each : ∀ item stored, SecretOf crypto cipher ⟨device, .sealed (slot item)⟩ stored (plaintext item) →
      Alike crypto cipher (make item stored) (make item (plaintext item))) :
    ∃ statements', sealingEach crypto .passthrough device nonces slot plaintext make items = .ok statements' ∧
      AllAlike crypto cipher statements statements' := by
  unfold sealingEach at prepared ⊢
  generalize items.zipIdx = indexed at prepared ⊢
  induction indexed generalizing statements with
  | nil =>
      cases prepared
      exact ⟨_, rfl, .nil⟩
  | cons item rest ih =>
      simp only [List.mapM_cons, bind_eq_ok, pure_eq_ok] at prepared
      obtain ⟨first, ⟨stored, made, rfl⟩, others, prepared, rfl⟩ := prepared
      obtain ⟨others', prepared', alike⟩ := ih prepared
      refine ⟨make item.1 (plaintext item.1) :: others', ?_, .cons (each _ stored (secretOf_sealed made)) alike⟩
      rw [List.mapM_cons, prepared']
      rfl

def TwinRows (crypto : Crypto) (cipher : BlobCipher) (rows rows' : Rows) : Prop :=
  ∀ key, Option.Rel (Twins crypto cipher key) (rows.lookup key) (rows'.lookup key)

theorem take_alike {chatJid messageId : String} (twins : TwinRows crypto cipher rows rows')
    (prepared : takeStatements crypto cipher device rows chatJid messageId = .ok statements) :
    ∃ statements', takeStatements crypto .passthrough device rows' chatJid messageId = .ok statements' ∧
      AllAlike crypto cipher statements statements' := by
  have both := twins ⟨device, .sealed (.sentMessage chatJid messageId)⟩
  unfold takeStatements at prepared ⊢
  generalize rows.lookup ⟨device, .sealed (.sentMessage chatJid messageId)⟩ = found,
    rows'.lookup ⟨device, .sealed (.sentMessage chatJid messageId)⟩ = found' at prepared both ⊢
  cases both with
  | none =>
      cases prepared
      exact ⟨_, rfl, .nil⟩
  | some twins =>
      simp only [bind_eq_ok, pure_eq_ok] at prepared
      obtain ⟨_, _, rfl⟩ := prepared
      exact ⟨_, rfl, allAlike_one alike_deleteNamed⟩

theorem alike_markUploaded {ids : List UInt32} :
    AllAlike crypto cipher (markUploaded engine device ids) (markUploaded engine device ids) := by
  have uploaded (key : Key) (row row' : Row) (twins : Twins crypto cipher key row row') :
      Twins crypto cipher key (Statements.uploadedRow row) (Statements.uploadedRow row') := ⟨rfl, twins.secret⟩
  unfold markUploaded
  split
  · exact .nil
  · cases engine with
    | pg => exact allAlike_one (alike_update (fun _ _ _ _ => rfl) uploaded)
    | sqlite => exact allAlike_self fun _ => alike_update (fun _ _ _ _ => rfl) uploaded

theorem alike_deviceList {record : DeviceListRecord info} (made : deviceListStatement toJson device record = .ok statement) :
    Alike crypto cipher statement statement := by
  simp only [deviceListStatement, bind_eq_ok, pure_eq_ok] at made
  obtain ⟨json, _, rfl⟩ := made
  exact alike_replace ⟨rfl, rfl⟩

theorem prepare_alike (twins : TwinRows crypto cipher rows rows')
    (prepared : write.prepare crypto cipher toJson engine device nonces now rows = .ok statements) :
    ∃ statements', write.prepare crypto .passthrough toJson engine device nonces now rows' = .ok statements' ∧
      AllAlike crypto cipher statements statements' := by
  cases write with simp only [Write.prepare] at prepared ⊢
  | save | putIdentity | putSession | storePrekey | storeSignedPrekey | putSenderKey | setSyncKey | setVersion
  | putTcToken | storeSentMessage => exact sealing_alike prepared fun _ secret => alike_replace ⟨rfl, secret⟩
  | create => exact sealing_alike prepared fun _ => alike_createDevice
  | saveBaseKey => exact sealing_alike prepared fun _ => alike_saveBaseKey
  | storeReceivedTcToken => exact sealing_alike prepared fun _ => alike_storeReceived
  | putIdentities | putSessions | storePrekeys | putSenderKeys | putMutationMacs =>
      exact sealingEach_alike prepared fun _ _ secret => alike_replace ⟨rfl, secret⟩
  | putMsgSecrets => exact sealingEach_alike prepared fun _ _ => alike_putMsgSecret
  | deleteIdentity | deleteSession | removePrekey | removeSignedPrekey | deleteSenderKey | deleteVersion | deleteBaseKey
  | deleteDevices | deleteTcToken =>
      cases prepared
      exact ⟨_, rfl, allAlike_one alike_deleteNamed⟩
  | clearMutationMacs | clearSenderKeyDevices | clearAllSenderKeyDevices =>
      cases prepared
      exact ⟨_, rfl, allAlike_one (alike_delete fun _ _ _ _ => rfl)⟩
  | deleteExpiredBaseKeys | deleteExpiredSentMessages | deleteExpiredMsgSecrets =>
      cases prepared
      exact ⟨_, rfl, allAlike_one alike_deleteOld⟩
  | deleteExpiredTcTokens =>
      cases prepared
      exact ⟨_, rfl, allAlike_one alike_deleteExpiredTcTokens⟩
  | deleteIdentities | deleteSessions | removePrekeys | deleteSenderKeys | deleteMutationMacs =>
      cases prepared
      exact ⟨_, rfl, allAlike_self fun _ => alike_deleteNamed⟩
  | deleteSenderKeyDeviceRows =>
      cases prepared
      exact ⟨_, rfl, allAlike_self fun _ => alike_delete fun _ _ _ _ => rfl⟩
  | setSenderKeyStatus =>
      cases prepared
      exact ⟨_, rfl, allAlike_self fun _ => alike_replace ⟨rfl, rfl⟩⟩
  | putLidMapping =>
      cases prepared
      exact ⟨_, rfl, allAlike_one alike_putLidMapping⟩
  | putLidMappings =>
      cases prepared
      exact ⟨_, rfl, allAlike_self fun _ => alike_putLidMapping⟩
  | touchTcTokenSenderTimestamp =>
      cases prepared
      exact ⟨_, rfl, allAlike_one alike_touch⟩
  | markPrekeysUploaded =>
      cases prepared
      exact ⟨_, rfl, alike_markUploaded⟩
  | commitPatch =>
      simp only [bind_eq_ok, pure_eq_ok] at prepared
      obtain ⟨state, version, macs, added, rfl⟩ := prepared
      obtain ⟨state', version', alike⟩ := sealing_alike version fun _ secret => alike_replace ⟨rfl, secret⟩
      obtain ⟨macs', added', alike'⟩ := sealingEach_alike added fun _ _ secret => alike_replace ⟨rfl, secret⟩
      refine ⟨_, by simpa only [bind_eq_ok, pure_eq_ok] using ⟨state', version', macs', added', rfl⟩, ?_⟩
      exact List.rel_append (List.rel_append alike (allAlike_self fun _ => alike_deleteNamed)) alike'
  | updateDeviceList =>
      refine ⟨_, prepared, ?_⟩
      simp only [bind_eq_ok, pure_eq_ok] at prepared
      obtain ⟨statement, made, rfl⟩ := prepared
      exact allAlike_one (alike_deviceList made)
  | updateDeviceLists records =>
      exact ⟨_, prepared, List.forall₂_same.2 (all_mapM prepared fun _ _ => alike_deviceList)⟩
  | takeSentMessage => exact take_alike twins prepared

/-! ## Runs -/

structure PlainOf (crypto : Crypto) (cipher : BlobCipher) (db plain : Database) : Prop where
  accounts : plain.accounts = db.accounts
  sequence : plain.sequence = db.sequence
  rows : TwinRows crypto cipher db.rows plain.rows

namespace PlainOf

theorem refuses (plainOf : PlainOf crypto cipher db plain) (alike : Alike crypto cipher statement statement') :
    db.refuses statement = plain.refuses statement' := by
  have target := alike.target
  cases statement with
  | upsert key _ _ =>
      cases statement' with
      | upsert key' _ _ =>
          obtain rfl : key = key' := Option.some.inj target
          have missing : (db.rows.lookup key).isNone = (plain.rows.lookup key).isNone := by
            have both := plainOf.rows key
            generalize db.rows.lookup key = found, plain.rows.lookup key = found' at both
            cases both <;> rfl
          simp only [Database.refuses, Database.hasAccount, plainOf.accounts, missing]
      | update | delete => cases target
  | update | delete =>
      cases statement' with
      | upsert => cases target
      | update | delete => rfl

theorem execute (plainOf : PlainOf crypto cipher db plain) (alike : Alike crypto cipher statement statement') :
    Option.Rel (PlainOf crypto cipher) (db.execute statement) (plain.execute statement') := by
  rw [Database.execute, Database.execute, plainOf.refuses alike]
  split
  · exact .none
  · refine .some ⟨plainOf.accounts, plainOf.sequence, fun key => ?_⟩
    rw [statement.lookup_run, statement'.lookup_run]
    exact alike.on key _ _ (plainOf.rows key)

theorem executeAll (plainOf : PlainOf crypto cipher db plain) (alike : AllAlike crypto cipher statements statements') :
    Option.Rel (PlainOf crypto cipher) (statements.foldlM Database.execute db)
      (statements'.foldlM Database.execute plain) := by
  induction alike generalizing db plain with
  | nil => exact .some plainOf
  | cons first _ ih =>
      rw [List.foldlM_cons, List.foldlM_cons]
      have here := plainOf.execute first
      generalize db.execute _ = middle, plain.execute _ = middle' at here
      cases here with
      | none => exact .none
      | some plainOf => exact ih plainOf

theorem call (plainOf : PlainOf crypto cipher db plain)
    (ran : db.call crypto cipher toJson engine device nonces now write = some after) :
    ∃ after', plain.call crypto .passthrough toJson engine device nonces now write = some after' ∧
      PlainOf crypto cipher after after' := by
  rw [Database.call] at ran ⊢
  cases prepared : write.prepare crypto cipher toJson engine device nonces now db.rows with
  | error e =>
      rw [prepared] at ran
      cases ran
  | ok statements =>
      obtain ⟨statements', prepared', alike⟩ := prepare_alike plainOf.rows prepared
      rw [prepared] at ran
      rw [prepared']
      exact rel_some (plainOf.executeAll alike) ran

theorem deleteAccount {uuid : String} (plainOf : PlainOf crypto cipher db plain) :
    PlainOf crypto cipher (db.deleteAccount uuid) (plain.deleteAccount uuid) where
  accounts := by rw [Database.deleteAccount, Database.deleteAccount, plainOf.accounts]
  sequence := plainOf.sequence
  rows := by
    intro key
    rw [lookup_deleteAccount, lookup_deleteAccount, plainOf.accounts]
    split
    · exact .none
    · exact plainOf.rows key

theorem insertAccount (plainOf : PlainOf crypto cipher db plain) (ran : db.insertAccount account = some after) :
    ∃ after', plain.insertAccount account = some after' ∧ PlainOf crypto cipher after after' := by
  unfold Database.insertAccount at ran ⊢
  rw [plainOf.accounts, plainOf.sequence]
  split at ran
  · rename_i permitted
    cases ran
    exact ⟨_, if_pos permitted, rfl, rfl, plainOf.rows⟩
  · cases ran

theorem step {event : Event info} (plainOf : PlainOf crypto cipher db plain)
    (moved : step crypto cipher toJson engine db event = some after) :
    ∃ after', Wamux.Stores.step crypto .passthrough toJson engine plain event = some after' ∧
      PlainOf crypto cipher after after' := by
  cases event with
  | createAccount account => exact plainOf.insertAccount moved
  | deleteAccount uuid =>
      cases moved
      exact ⟨_, rfl, plainOf.deleteAccount⟩
  | call device nonces now write => exact plainOf.call moved

end PlainOf

theorem run_plain {events : List (Event info)} (ran : run crypto cipher toJson engine events = some db) :
    ∃ plain, run crypto .passthrough toJson engine events = some plain ∧ PlainOf crypto cipher db plain := by
  induction events using List.reverseRecOn generalizing db with
  | nil =>
      cases ran
      exact ⟨_, rfl, rfl, rfl, fun _ => .none⟩
  | append_singleton before event ih =>
      obtain ⟨middle, earlier, moved⟩ := run_append.1 ran
      obtain ⟨plain, earlier', plainOf⟩ := ih earlier
      obtain ⟨after, moved', plainOf⟩ := plainOf.step moved
      exact ⟨after, run_append.2 ⟨plain, earlier', moved'⟩, plainOf⟩

/-! ## Reads -/

theorem chooses_twins {read : Read} (twins : Twins crypto cipher key row row') :
    read.chooses key.name row = read.chooses key.name row' := by
  obtain ⟨device, name⟩ := key
  cases read with
  | getPnMapping phone =>
      cases name with
      | lidPnMapping lid =>
          show isPhone phone row.cells = isPhone phone row'.cells
          rw [twins.cells]
      | _ => rfl
  | getMaxPrekeyId | loadAllSignedPrekeys | getLatestSyncKeyId | getAllLidMappings | getAllTcTokenJids =>
      cases name with
      | sealed slot => cases slot <;> rfl
      | _ => rfl
  | _ => rfl

theorem openRow_twins {opens : Bool} (twins : Twins crypto cipher key row row') :
    openRow crypto cipher key.device opens key.name row = openRow crypto .passthrough key.device opens key.name row' := by
  obtain ⟨device, name⟩ := key
  obtain ⟨stored, cells⟩ := row
  obtain ⟨plaintext, cells'⟩ := row'
  obtain ⟨rfl, secret⟩ := twins
  cases name with
  | sealed slot =>
      cases opens with
      | false => rfl
      | true =>
          simp only [openRow, if_true, secret.1]
          rfl
  | senderKeyDevice | lidPnMapping | deviceRegistry =>
      obtain rfl : stored = plaintext := secret
      rfl

theorem fetch_twins {read : Read} {entries entries' : List (Σ _ : Key, Row)}
    (twins : List.Forall₂ (fun entry entry' => entry.1 = entry'.1 ∧ Twins crypto cipher entry.1 entry.2 entry'.2)
      entries entries') : read.fetch crypto cipher device entries = read.fetch crypto .passthrough device entries' := by
  unfold Read.fetch
  induction twins with
  | nil => rfl
  | cons first rest ih =>
      rename_i entry entry' entries entries'
      obtain ⟨key, row⟩ := entry
      obtain ⟨key', row'⟩ := entry'
      obtain ⟨rfl, twins⟩ := first
      rw [List.filter_cons, List.filter_cons, chooses_twins twins]
      split
      · rename_i chosen
        obtain rfl : key.device = device := of_decide_eq_true (Bool.and_eq_true_iff.1 chosen).1
        rw [List.mapM_cons, List.mapM_cons, openRow_twins twins, ih]
      · exact ih

theorem mayFetch_plain {read : Read} {answer : Except StoreError (List (Name × Row))}
    (twins : TwinRows crypto cipher rows rows') : read.MayFetch crypto cipher device rows answer ↔
      read.MayFetch crypto .passthrough device rows' answer := by
  constructor
  · rintro ⟨entries, order, rfl⟩
    obtain ⟨entries', order', both⟩ := Table.related_order twins order
    exact ⟨entries', order', (fetch_twins both).symm⟩
  · rintro ⟨entries', order', rfl⟩
    have flipped (key : Key) : Option.Rel (fun row' row => Twins crypto cipher key row row') (rows'.lookup key) (rows.lookup key) := by
      have both := twins key
      generalize rows.lookup key = found, rows'.lookup key = found' at both
      cases both with
      | none => exact .none
      | some twins => exact .some twins
    obtain ⟨entries, order, both⟩ := Table.related_order flipped order'
    refine ⟨entries, order, fetch_twins (both.flip.imp ?_)⟩
    rintro ⟨key, row⟩ ⟨_, row'⟩ ⟨rfl, twins⟩
    exact ⟨rfl, twins⟩

theorem openRow_plain (opens : Bool) (name : Name) (row : Row) :
    ∃ opened, openRow crypto .passthrough device opens name row = .ok opened := by
  cases name with
  | sealed slot => cases opens <;> exact ⟨_, rfl⟩
  | senderKeyDevice | lidPnMapping | deviceRegistry => exact ⟨_, rfl⟩

theorem fetch_plain (crypto : Crypto) (device : DeviceId) (read : Read) (entries : List (Σ _ : Key, Row)) :
    ∃ fetched, read.fetch crypto .passthrough device entries = .ok fetched := by
  choose opened ok using @openRow_plain crypto device
  exact ⟨_, mapM_ok fun entry _ => ok read.opens entry.1.name entry.2⟩

/-- After any run under a key every read of every account can be answered as in a store without one, where the
same run goes through, and none of them fails. -/
theorem sealed_like_plain {key : StoreKey} {events : List (Event info)}
    (ran : run crypto (.sealing key) toJson engine events = some db) :
    ∃ plain, run crypto .passthrough toJson engine events = some plain ∧ plain.accounts = db.accounts ∧
      ∀ device read, (∀ answer, Read.MayFetch crypto (.sealing key) device read db.rows answer ↔
          Read.MayFetch crypto .passthrough device read plain.rows answer) ∧
        ∀ e, ¬Read.MayFetch crypto (.sealing key) device read db.rows (.error e) := by
  obtain ⟨plain, ran', plainOf⟩ := run_plain ran
  refine ⟨plain, ran', plainOf.accounts, fun device read => ⟨fun answer => mayFetch_plain plainOf.rows, ?_⟩⟩
  intro e failed
  obtain ⟨entries, _, fetched⟩ := (mayFetch_plain plainOf.rows).1 failed
  obtain ⟨opened, ok⟩ := fetch_plain crypto device read entries
  rw [ok] at fetched
  cases fetched

def drawn (i : Nat) : Option Nonce := some ⟨List.replicate 24 i.toUInt8, List.length_replicate⟩

def keptAndTaken : List (Event Unit) :=
  [.createAccount ⟨"a", none, 1⟩, .call 1 drawn 5 (.storeSentMessage "chat" "id" [1, 2]),
    .call 1 drawn 6 (.storeReceivedTcToken "jid" [3] 6), .call 1 drawn 7 (.putMsgSecrets [⟨"chat", "sender", "id", [4], 0, 7⟩]),
    .call 1 drawn 8 (.takeSentMessage "chat" "id")]

theorem sealed_like_plain_keptAndTaken : ∃ db plain,
    run openLetter (.sealing ⟨List.replicate 32 7, rfl⟩) (fun _ => .ok "[]") .pg keptAndTaken = some db ∧
    run openLetter .passthrough (fun _ => .ok "[]") .pg keptAndTaken = some plain ∧
    ∀ answer, Read.MayFetch openLetter (.sealing ⟨List.replicate 32 7, rfl⟩) 1 (.getTcToken "jid") db.rows answer ↔
      Read.MayFetch openLetter .passthrough 1 (.getTcToken "jid") plain.rows answer := by
  obtain ⟨db, ran⟩ : ∃ db, run openLetter (.sealing ⟨List.replicate 32 7, rfl⟩) (fun _ => .ok "[]") .pg keptAndTaken = some db :=
    Option.isSome_iff_exists.1 (by decide +kernel)
  obtain ⟨plain, ran', _, reads⟩ := sealed_like_plain ran
  exact ⟨db, plain, ran, ran', (reads 1 (.getTcToken "jid")).1⟩

end Wamux.Proof.Stores
