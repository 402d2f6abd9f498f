import Wamux.Proof.Stores.History
import Wamux.Proof.Stores.Sealing

namespace Wamux.Proof.Stores
open Wamux.Stores Runs Runs.Tables Runs.Failing
open Wamux.Encryption (Bytes DeviceId Crypto BlobCipher Nonce Engine StoreError)
open Wamux.Encryption.Tables (Slot openAt)
open Wamux.BatchedWrites (ToJson sealed)
open Wamux.Proof.Encryption (openLetter)

/-! ## Maps of bytes -/

inductive Change where
  | set (slot : Slot) (bytes : Bytes)
  | drop (slots : Slot → Bool)

def Change.on (slot : Slot) (found : Option Bytes) : Change → Option Bytes
  | set slot' bytes => if slot = slot' then some bytes else found
  | drop slots => if slots slot then none else found

def onSlot (slot : Slot) (found : Option Bytes) (changes : List Change) : Option Bytes := changes.foldl (Change.on slot) found

def changes {info : Type} : Write info → List Change
  | .putIdentity address key => [.set (.identity address) key]
  | .deleteIdentity address => [.drop (· = .identity address)]
  | .putIdentities identities => identities.map fun identity => .set (.identity identity.1) identity.2
  | .deleteIdentities addresses => addresses.map fun address => .drop (· = .identity address)
  | .putSession address session => [.set (.session address) session]
  | .deleteSession address => [.drop (· = .session address)]
  | .putSessions sessions => sessions.map fun session => .set (.session session.1) session.2
  | .deleteSessions addresses => addresses.map fun address => .drop (· = .session address)
  | .storePrekey id record _ => [.set (.prekey id) record]
  | .removePrekey id => [.drop (· = .prekey id)]
  | .storePrekeys keys _ => keys.map fun key => .set (.prekey key.1) key.2
  | .removePrekeys ids => ids.map fun id => .drop (· = .prekey id)
  | .storeSignedPrekey id record => [.set (.signedPrekey id) record]
  | .removeSignedPrekey id => [.drop (· = .signedPrekey id)]
  | .putSenderKey address record => [.set (.senderKey address) record]
  | .deleteSenderKey address => [.drop (· = .senderKey address)]
  | .putSenderKeys senderKeys => senderKeys.map fun senderKey => .set (.senderKey senderKey.1) senderKey.2
  | .deleteSenderKeys addresses => addresses.map fun address => .drop (· = .senderKey address)
  | .setSyncKey keyId data => [.set (.syncKey keyId) data]
  | .setVersion name data => [.set (.version name) data]
  | .deleteVersion name => [.drop (· = .version name)]
  | .putMutationMacs name _ mutations => mutations.map fun mac => .set (.mutationMac name mac.indexMac) mac.valueMac
  | .deleteMutationMacs name indexMacs => indexMacs.map fun indexMac => .drop (· = .mutationMac name indexMac)
  | .clearMutationMacs name => [.drop fun slot => Statements.isMacOf name (.sealed slot)]
  | .commitPatch name data _ removed added => .set (.version name) data ::
      (removed.map (fun indexMac => .drop (· = .mutationMac name indexMac)) ++
        added.map fun mac => .set (.mutationMac name mac.indexMac) mac.valueMac)
  | _ => []

def isMap : Slot → Bool
  | .identity _ | .session _ | .prekey _ | .signedPrekey _ | .senderKey _ | .syncKey _ | .version _ | .mutationMac _ _ => true
  | _ => false

variable {info : Type} {crypto : Crypto} {cipher : BlobCipher} {toJson : ToJson info} {engine : Engine} {device : DeviceId}
  {nonces : Nat → Option Nonce} {now : Int64} {rows : Rows} {write : Write info} {statement : Statement Key Row}
  {statements statements' : List (Statement Key Row)} {account : Account} {db : Database} {events : List (Event info)}

/-! ## Statements -/

def Does (device : DeviceId) (statements : List (Statement Key Row)) (changes : List Change) : Prop :=
  ∀ slot found, isMap slot = true →
    (onAll statements ⟨device, .sealed slot⟩ found).map Row.secret = onSlot slot (found.map Row.secret) changes

theorem does_nil : Does device [] [] := fun _ _ _ => rfl

theorem Does.append {made made' : List Change} (first : Does device statements made) (second : Does device statements' made') :
    Does device (statements ++ statements') (made ++ made') := by
  intro slot found isMap
  rw [onAll_append, second slot _ isMap, first slot found isMap, onSlot, onSlot, onSlot, List.foldl_append]

theorem Does.cons {change : Change} {made : List Change} (first : Does device [statement] [change])
    (rest : Does device statements made) : Does device (statement :: statements) (change :: made) := first.append rest

theorem does_list {α : Type} {items : List α} {make : α → Statement Key Row} {change : α → Change}
    (each : ∀ item, Does device [make item] [change item]) : Does device (items.map make) (items.map change) := by
  induction items with
  | nil => exact does_nil
  | cons first rest ih => exact (each first).cons ih

theorem does_set {slot : Slot} {bytes : Bytes} {cells : Cells} :
    Does device [Statements.replace device (.sealed slot) ⟨bytes, cells⟩] [.set slot bytes] := by
  intro slot' found _
  show ((Statements.replace device (.sealed slot) ⟨bytes, cells⟩).on ⟨device, .sealed slot'⟩ found).map Row.secret = _
  by_cases here : slot' = slot <;> simp [on_replace, onSlot, Change.on, here]

theorem does_drop {slots : Slot → Bool} {when : Key → Row → Bool}
    (chosen : ∀ slot row, when ⟨device, .sealed slot⟩ row = slots slot) : Does device [.delete when] [.drop slots] := by
  intro slot found _
  show ((Statement.delete when).on ⟨device, .sealed slot⟩ found).map Row.secret = _
  cases found with
  | none => cases dropped : slots slot <;> simp [Statement.on, onSlot, Change.on, dropped]
  | some row => cases dropped : slots slot <;> simp [Statement.on, onSlot, Change.on, chosen, dropped]

theorem does_deleteNamed {slot : Slot} : Does device [Statements.deleteNamed device (.sealed slot)] [.drop (· = slot)] := by
  apply does_drop
  intro slot' row
  simp [eq_comm]

theorem does_nothing (spares : ∀ slot, isMap slot = true → ∀ statement ∈ statements, statement.Spares ⟨device, .sealed slot⟩) :
    Does device statements [] := by
  intro slot found isMap
  rw [onAll_spared (spares slot isMap)]
  rfl

/-! ## Writes -/

theorem sealingEach_plain {α : Type} {slot : α → Slot} {plaintext : α → Bytes} {make : α → Bytes → Statement Key Row}
    (items : List α) : sealingEach crypto .passthrough device nonces slot plaintext make items =
      .ok (items.map fun item => make item (plaintext item)) := by
  calc sealingEach crypto .passthrough device nonces slot plaintext make items
      = .ok ((items.zipIdx.map Prod.fst).map fun item => make item (plaintext item)) := by
        rw [List.map_map]
        exact mapM_ok fun _ _ => rfl
    _ = _ := by rw [List.zipIdx_map_fst]

theorem does_all (each : ∀ statement ∈ statements, Does device [statement] []) : Does device statements [] := by
  induction statements with
  | nil => exact does_nil
  | cons first rest ih =>
      rw [List.forall_mem_cons] at each
      exact each.1.append (ih each.2)

theorem does_uploaded {when : Key → Row → Bool} : Does device [.update when Statements.uploadedRow] [] := by
  intro slot found _
  cases found with
  | none => rfl
  | some row =>
      show some (if when _ row then Statements.uploadedRow row else row).secret = some row.secret
      split <;> rfl

theorem does_elsewhere (prepared : write.prepare crypto cipher toJson engine device nonces now rows = .ok statements)
    (elsewhere : ∀ slot, isMap slot = true → (Name.sealed slot).table ∉ writtenTables write) :
    Does device statements [] :=
  does_nothing fun slot isMap statement member => prepare_confined prepared statement member _ (elsewhere slot isMap)

theorem prepare_does (prepared : write.prepare crypto .passthrough toJson engine device nonces now rows = .ok statements) :
    Does device statements (changes write) := by
  have made := prepared
  cases write with simp only [Write.prepare] at made
  | putIdentity | putSession | storePrekey | storeSignedPrekey | putSenderKey | setSyncKey | setVersion =>
      obtain ⟨_, ⟨⟩, rfl⟩ := sealing_ok made
      exact does_set
  | putIdentities | putSessions | storePrekeys | putSenderKeys | putMutationMacs =>
      rw [sealingEach_plain] at made
      cases made
      exact does_list fun _ => does_set
  | deleteIdentity | deleteSession | removePrekey | removeSignedPrekey | deleteSenderKey | deleteVersion =>
      cases made
      exact does_deleteNamed
  | deleteIdentities | deleteSessions | removePrekeys | deleteSenderKeys | deleteMutationMacs =>
      cases made
      exact does_list fun _ => does_deleteNamed
  | clearMutationMacs =>
      cases made
      exact does_drop fun _ _ => by simp
  | commitPatch =>
      simp only [bind_eq_ok, pure_eq_ok] at made
      obtain ⟨state, version, macs, added, rfl⟩ := made
      obtain ⟨_, ⟨⟩, rfl⟩ := sealing_ok version
      rw [sealingEach_plain] at added
      cases added
      rw [List.append_assoc]
      exact does_set.cons ((does_list fun _ => does_deleteNamed).append (does_list fun _ => does_set))
  | markPrekeysUploaded =>
      cases made
      exact does_all (all_markUploaded does_uploaded fun _ => does_uploaded)
  | _ =>
      refine does_elsewhere prepared fun slot mapped => ?_
      cases slot with
      | device | baseKey | tcToken | msgSecret | sentMessage => cases mapped
      | _ => simp [Name.table, writtenTables]

/-! ## Runs -/

def written (maps : Slot → Option Bytes) (_ : Int64) (write : Write info) (slot : Slot) : Option Bytes :=
  onSlot slot (maps slot) (changes write)

def history (account : Account) (events : List (Event info)) : Slot → Option Bytes :=
  events.foldl (remembered written (fun _ => none) account) fun _ => none

def HoldsMaps (view : Name → Option Row) (maps : Slot → Option Bytes) : Prop :=
  ∀ slot, isMap slot = true → (view (.sealed slot)).map Row.secret = maps slot

theorem run_maps (ran : run crypto .passthrough toJson engine events = some db) (created : .createAccount account ∈ events)
    (slot : Slot) (mapped : isMap slot = true) :
    (db.rows.lookup ⟨account.device, .sealed slot⟩).map Row.secret = history account events slot := by
  refine run_remembers HoldsMaps (fun _ _ => rfl) ?_ ran created (fun _ member => member) ran slot mapped
  intro rows view maps nonces now write statements held prepared looks slot mapped
  rw [looks, prepare_does prepared slot _ mapped, held slot mapped]
  rfl

/-! ## Reads -/

def namedSlot : Read → Option Slot
  | .loadIdentity address => some (.identity address)
  | .getSession address => some (.session address)
  | .loadPrekey id => some (.prekey id)
  | .loadSignedPrekey id => some (.signedPrekey id)
  | .getSenderKey address => some (.senderKey address)
  | .getSyncKey keyId => some (.syncKey keyId)
  | .getVersion name => some (.version name)
  | .getMutationMac name indexMac => some (.mutationMac name indexMac)
  | _ => none

theorem namedSlot_eq {read : Read} {slot : Slot} (named : namedSlot read = some slot) :
    isMap slot = true ∧ read.opens = true ∧ ∀ name row, read.chooses name row = decide (name = .sealed slot) := by
  cases read with
  | loadIdentity | getSession | loadPrekey | loadSignedPrekey | getSenderKey | getSyncKey | getVersion | getMutationMac =>
      cases named
      exact ⟨rfl, rfl, fun _ _ => rfl⟩
  | _ => cases named

theorem fetch_named {read : Read} {slot : Slot} {entries : List (Σ _ : Key, Row)} (named : namedSlot read = some slot)
    (order : entries.Perm rows.entries) : read.fetch crypto .passthrough device entries =
      .ok ((rows.lookup ⟨device, .sealed slot⟩).map fun row => (.sealed slot, row)).toList := by
  obtain ⟨-, opens, chooses⟩ := namedSlot_eq named
  have chosen : entries.filter (fun entry => entry.1.device = device && read.chooses entry.1.name entry.2) =
      entries.filter fun entry => entry.1 = ⟨device, .sealed slot⟩ := by
    congr 1
    funext ⟨⟨device', name⟩, row⟩
    simp [chooses]
  rw [Read.fetch, chosen, Table.filter_key order, opens]
  cases rows.lookup ⟨device, .sealed slot⟩ <;> rfl

/-- Whatever the key, a read of a name of a map answers what the account's calls made of the map. -/
theorem store_is_a_map {read : Read} {slot : Slot} (named : namedSlot read = some slot)
    (ran : run crypto cipher toJson engine events = some db) (created : .createAccount account ∈ events)
    {answer : Except StoreError (List (Name × Row))} (fetched : read.MayFetch crypto cipher account.device db.rows answer) :
    answer.map (List.map fun entry => entry.2.secret) = .ok (history account events slot).toList := by
  obtain ⟨plain, ran', plainOf⟩ := run_plain ran
  obtain ⟨entries, order, rfl⟩ := (mayFetch_plain plainOf.rows).1 fetched
  rw [fetch_named named order, ← run_maps ran' created slot (namedSlot_eq named).1]
  cases plain.rows.lookup ⟨account.device, .sealed slot⟩ <;> rfl

def patched : List (Event Unit) :=
  [.createAccount ⟨"a", none, 1⟩, .call 1 drawn 1 (.putMutationMacs "regular" 1 [⟨[1], [5]⟩, ⟨[2], [6]⟩]),
    .call 1 drawn 2 (.commitPatch "regular" [9] 2 [[1], [2]] [⟨[2], [7]⟩]), .call 1 drawn 3 (.deleteVersion "regular")]

theorem store_is_a_map_patched : ∃ db, run openLetter (.sealing ⟨List.replicate 32 7, rfl⟩) (fun _ => .ok "[]") .pg patched = some db ∧
    (∀ answer, Read.MayFetch openLetter (.sealing ⟨List.replicate 32 7, rfl⟩) 1 (.getMutationMac "regular" [2]) db.rows answer →
      answer.map (List.map fun entry => entry.2.secret) = .ok [[7]]) ∧
    history ⟨"a", none, 1⟩ patched (.mutationMac "regular" [1]) = none := by
  obtain ⟨db, ran⟩ : ∃ db, run openLetter (.sealing ⟨List.replicate 32 7, rfl⟩) (fun _ => .ok "[]") .pg patched = some db :=
    Option.isSome_iff_exists.1 (by decide +kernel)
  refine ⟨db, ran, ?_, by decide⟩
  intro answer fetched
  exact store_is_a_map (show namedSlot (.getMutationMac "regular" [2]) = some _ from rfl) ran (.head _) fetched

/-! ## Answers made of the rows -/

variable {answer : Except StoreError (List (Name × Row))}

theorem lawfulMax_int32 : Std.LawfulOrderMax Int32 where
  max_le_iff first second bound := by
    simp only [show max first second = if first ≤ second then second else first from rfl, Int32.le_iff_toInt_le]
    split <;> omega
  max_eq_or first second := by
    rw [show max first second = if first ≤ second then second else first from rfl]
    split <;> simp

theorem storedPrekeyId_eq_some {entry : Name × Row} {id : UInt32} (stored : storedPrekeyId entry = some id.toInt32) :
    entry.1 = .sealed (.prekey id) := by
  obtain ⟨name, row⟩ := entry
  cases name with
  | sealed slot =>
      cases slot with
      | prekey id' =>
          have same : id' = id := congrArg Int32.toUInt32 (Option.some.inj stored)
          exact congrArg (fun id => Name.sealed (.prekey id)) same
      | _ => cases stored
  | _ => cases stored

/-- The ids that `get_max_prekey_id` sees, in whatever order, are those that have a row. -/
theorem storedPrekeyIds_fetched (fetched : Read.MayFetch crypto cipher device .getMaxPrekeyId rows answer) :
    ∃ found, answer = .ok found ∧ ∀ id : UInt32, id.toInt32 ∈ found.filterMap storedPrekeyId ↔
      ∃ row, rows.lookup ⟨device, .sealed (.prekey id)⟩ = some row := by
  obtain ⟨entries, order, rfl⟩ := fetched
  refine ⟨(entries.filter fun entry => entry.1.device = device && Read.chooses .getMaxPrekeyId entry.1.name entry.2).map
    fun entry => (entry.1.name, { entry.2 with secret := [] }), ?_, ?_⟩
  · refine mapM_ok ?_
    rintro ⟨⟨_, name⟩, row⟩ chosen
    cases name with
    | sealed slot => rfl
    | _ => simp [Read.chooses] at chosen
  · intro id
    constructor
    · intro listed
      obtain ⟨entry, listed, same⟩ := List.mem_filterMap.1 listed
      obtain ⟨⟨⟨device', name⟩, row⟩, chosen, rfl⟩ := List.mem_map.1 listed
      obtain ⟨member, chosen⟩ := List.mem_filter.1 chosen
      obtain rfl : device' = device := of_decide_eq_true (Bool.and_eq_true_iff.1 chosen).1
      obtain rfl : name = .sealed (.prekey id) := storedPrekeyId_eq_some same
      exact ⟨row, Table.mem_entries.1 (order.mem_iff.1 member)⟩
    · rintro ⟨row, here⟩
      refine List.mem_filterMap.2 ⟨(.sealed (.prekey id), { row with secret := [] }), ?_, rfl⟩
      refine List.mem_map.2 ⟨⟨⟨device, .sealed (.prekey id)⟩, row⟩, List.mem_filter.2 ⟨?_, by simp [Read.chooses]⟩, rfl⟩
      exact order.mem_iff.2 (Table.mem_entries.2 here)

theorem maxPrekeyId_greatest (fetched : Read.MayFetch crypto cipher device .getMaxPrekeyId rows answer) :
    ∃ found, answer = .ok found ∧
      (∀ id row, rows.lookup ⟨device, .sealed (.prekey id)⟩ = some row → id.toInt32 ≤ (maxPrekeyId found).toInt32) ∧
      ((∃ row, rows.lookup ⟨device, .sealed (.prekey (maxPrekeyId found))⟩ = some row) ∨
        maxPrekeyId found = 0 ∧ ∀ id, rows.lookup ⟨device, .sealed (.prekey id)⟩ = none) := by
  obtain ⟨found, read, there⟩ := storedPrekeyIds_fetched fetched
  refine ⟨found, read, ?_⟩
  rw [maxPrekeyId]
  cases top : (found.filterMap storedPrekeyId).max? with
  | none =>
      have empty := List.max?_eq_none_iff.1 top
      have absent : ∀ id, rows.lookup ⟨device, .sealed (.prekey id)⟩ = none := by
        intro id
        by_contra present
        have member := (there id).2 (Option.ne_none_iff_exists'.1 present)
        rw [empty] at member
        cases member
      refine ⟨fun id row here => ?_, .inr ⟨rfl, absent⟩⟩
      rw [absent id] at here
      cases here
  | some greatest =>
      have := lawfulMax_int32
      obtain ⟨member, above⟩ := List.max?_eq_some_iff.1 top
      have back : greatest.toUInt32.toInt32 = greatest := by simp
      refine ⟨fun id row here => ?_, .inl ((there _).1 ?_)⟩
      · show id.toInt32 ≤ greatest.toUInt32.toInt32
        rw [back]
        exact above _ ((there id).2 ⟨row, here⟩)
      · show greatest.toUInt32.toInt32 ∈ _
        rwa [back]

theorem hasSameBaseKey_opened {address messageId : String} {current : Bytes}
    (fetched : Read.MayFetch crypto cipher device (.getBaseKey address messageId) rows answer) :
    answer.map (hasSameBaseKey · current) = match rows.lookup ⟨device, .sealed (.baseKey address messageId)⟩ with
      | none => .ok false
      | some row => (openAt crypto cipher device (.baseKey address messageId) row.secret).map fun secret =>
          decide (secret = current) := by
  obtain ⟨entries, order, rfl⟩ := fetched
  have chosen : entries.filter (fun entry => entry.1.device = device &&
      Read.chooses (.getBaseKey address messageId) entry.1.name entry.2) =
      entries.filter fun entry => entry.1 = ⟨device, .sealed (.baseKey address messageId)⟩ := by
    congr 1
    funext ⟨⟨device', name⟩, row⟩
    simp [Read.chooses]
  rw [Read.fetch, chosen, Table.filter_key order]
  cases rows.lookup ⟨device, .sealed (.baseKey address messageId)⟩ with
  | none => rfl
  | some row =>
      cases opened : openAt crypto cipher device (.baseKey address messageId) row.secret with
      | error e => simp [openRow, Read.opens, opened, bind, Except.bind, Except.map, pure, Except.pure]
      | ok secret => simp [openRow, Read.opens, opened, bind, Except.bind, Except.map, pure, Except.pure, hasSameBaseKey]
end Wamux.Proof.Stores
