import Wamux.Proof.BatchedReads.Rows

namespace Wamux.Proof.BatchedReads
open Wamux.BatchedReads Wamux.Runs.Failing
open Wamux.Encryption (Bytes StoreError DeviceId Crypto BlobCipher)
open Wamux.Encryption.Tables (StoredRow Value paddedChunks readChunk asText asBlob asInt asInt32 openAt)
open Wamux.Proof.Encryption.Naming (mem_paddedChunks)

variable {crypto : Crypto} {cipher : BlobCipher} {device : DeviceId} {content : Content}

/-! ## The statements -/

theorem device_pair (device : DeviceId) (one many : Query) (listed : String) (table : one.table = many.table)
    (one_select : one.select = ⟨[(listed, 1), ("device_id", 2)], none⟩)
    (many_select : many.select = ⟨[("device_id", 1)], some (listed, inPlaceholders 2 readChunk)⟩)
    (key : keyColumns many.table = [listed]) (plain : listed ≠ "device_id") :
    Pair one many [("device_id", deviceValue device)] listed
      fun value => [(listed, value), ("device_id", deviceValue device)] where
  table := table
  one_equals _ := by rw [one_select]; rfl
  one_within := by rw [one_select]
  many_equals := by rw [many_select]; rfl
  many_within := by rw [many_select]; rfl
  cells value cell := by simp
  device := ⟨device, by simp⟩
  key name member := by
    rw [key, List.mem_singleton] at member
    exact ⟨member ▸ plain, .inl member⟩

theorem macs_pair (device : DeviceId) (name : String) : Pair GET_MUTATION_MAC SELECT_MUTATION_MACS
    [("name", .text name), ("device_id", deviceValue device)] "index_mac"
    fun index => [("name", .text name), ("index_mac", index), ("device_id", deviceValue device)] where
  table := rfl
  one_equals _ := rfl
  one_within := rfl
  many_equals := rfl
  many_within := rfl
  cells value cell := by
    simp only [List.mem_cons, List.not_mem_nil, or_false]
    exact or_left_comm
  device := ⟨device, by simp⟩
  key := by simp [SELECT_MUTATION_MACS, keyColumns, Wamux.Encryption.Tables.primaryKey]

/-! ## The reads -/

section Reads
variable (crypto : Crypto) (cipher : BlobCipher) (device : DeviceId) (content : Content)

theorem sessions_read (addresses : List String)
    (opens : ∀ address ∈ addresses, ∃ result, getSession crypto cipher device address content.rows = .ok result) :
    ∃ found, getSessions crypto cipher device addresses content.rows = .ok found ∧
      Reads addresses (fun address => getSession crypto cipher device address content.rows) found := by
  have pair := device_pair device GET_SESSION SELECT_SESSIONS "address" rfl rfl rfl rfl (by decide)
  refine (pair.alike content .text _ (sessionOf crypto cipher device) ?_ (by decide)).batch addresses opens
  intro address row record held opened
  obtain ⟨stored, blob, opened⟩ := bind_eq_ok.1 opened
  exact bind_eq_ok.2 ⟨address, by rw [held]; rfl, bind_eq_ok.2 ⟨stored, blob, bind_eq_ok.2 ⟨record, opened, rfl⟩⟩⟩

theorem prekeys_read (ids : List UInt32)
    (opens : ∀ id ∈ ids, ∃ result, loadPrekey crypto cipher device id content.rows = .ok result) :
    ∃ found, loadPrekeys crypto cipher device ids content.rows = .ok found ∧
      Reads ids (fun id => loadPrekey crypto cipher device id content.rows) found := by
  have pair := device_pair device LOAD_PREKEY SELECT_PREKEYS "id" rfl rfl rfl rfl (by decide)
  refine (pair.alike content idValue _ (prekeyOf crypto cipher device) ?_ (by decide)).batch ids opens
  intro id row record held opened
  obtain ⟨stored, blob, opened⟩ := bind_eq_ok.1 opened
  have narrow : asInt32 (row.cell "id") = .ok id.toInt32 := by
    simp [held, idValue, asInt32, asInt, bind, Except.bind, pure, Except.pure]
  have same : id.toInt32.toUInt32 = id := by simp
  rw [← same] at opened ⊢
  exact bind_eq_ok.2 ⟨_, narrow, bind_eq_ok.2 ⟨stored, blob, bind_eq_ok.2 ⟨record, opened, rfl⟩⟩⟩

theorem devices_read {DeviceInfo : Type} (fromStr : String → Except StoreError (List DeviceInfo)) (users : List String)
    (opens : ∀ user ∈ users, ∃ result, getDevices device fromStr user content.rows = .ok result) :
    ∃ found, getDevicesBatch device fromStr users content.rows = .ok found ∧
      Reads users (fun user => getDevices device fromStr user content.rows) (found.map fun record => (record.user, record)) := by
  have pair := device_pair device GET_DEVICES SELECT_DEVICES "user_id" rfl rfl rfl rfl (by decide)
  have agree (user : String) (row : StoredRow) (record : DeviceListRecord DeviceInfo)
      (held : row.cell "user_id" = some (.text user)) (decoded : deviceListRecord fromStr row = .ok record) :
      ((deviceListRecord fromStr row).map some).map (Option.map fun record => (record.user, record)) =
        .ok (some (user, record)) := by
    rw [decoded]
    obtain ⟨name, named, decoded⟩ := bind_eq_ok.1 decoded
    obtain rfl : name = user := by
      rw [held] at named
      exact (Except.ok.inj named).symm
    simp only [bind_eq_ok, pure_eq_ok] at decoded
    obtain ⟨-, -, -, -, -, -, -, -, -, -, rfl⟩ := decoded
    rfl
  obtain ⟨entries, ran, reads⟩ := (pair.alike content .text (fun _ => deviceListRecord fromStr) _ agree (by decide)).batch users
    opens
  rw [rowsInList_then, map_eq_ok] at ran
  obtain ⟨found, ran, rfl⟩ := ran
  exact ⟨found, ran, reads⟩

theorem tcTokens_read (jids : List String)
    (opens : ∀ jid ∈ jids, ∃ result, getTcToken crypto cipher device jid content.rows = .ok result) :
    ∃ entries, getTcTokens crypto cipher device jids content.rows = .ok entries ∧
      entries.map .ok = jids.map fun jid => getTcToken crypto cipher device jid content.rows := by
  have pair := device_pair device GET_TC_TOKEN SELECT_TC_TOKENS "jid" rfl rfl rfl rfl (by decide)
  have agree (jid : String) (row : StoredRow) (entry : Wamux.TcTokens.TcTokenEntry) (held : row.cell "jid" = some (.text jid))
      (opened : tcTokenRow row >>= Wamux.TcTokens.entryOf crypto cipher device jid = .ok entry) :
      tcTokenOf crypto cipher device row = .ok (some (jid, entry)) := by
    obtain ⟨stored, decoded, opened⟩ := bind_eq_ok.1 opened
    exact bind_eq_ok.2 ⟨jid, by rw [held]; rfl, bind_eq_ok.2 ⟨stored, decoded, bind_eq_ok.2 ⟨entry, opened, rfl⟩⟩⟩
  obtain ⟨found, ran, reads⟩ := (pair.alike content .text _ _ agree (by decide)).batch jids opens
  refine ⟨jids.map (hashMap found), bind_eq_ok.2 ⟨found, ran, rfl⟩, ?_⟩
  rw [List.map_map]
  refine List.map_congr_left fun jid member => ?_
  obtain ⟨result, got⟩ := opens jid member
  exact (congrArg Except.ok (reads.hashMap_eq member got)).trans got.symm

theorem mutationMacs_read (name : String) (indexMacs : List IndexMac)
    (opens : ∀ indexMac ∈ indexMacs, ∃ result, getMutationMac crypto cipher device name indexMac.1 content.rows = .ok result) :
    ∃ found, getMutationMacs crypto cipher device name indexMacs content.rows = .ok found ∧
      ∀ indexMac value, found indexMac = some value ↔
        indexMac ∈ indexMacs ∧ getMutationMac crypto cipher device name indexMac.1 content.rows = .ok (some value) := by
  have agree (indexMac : IndexMac) (row : StoredRow) (mac : Bytes) (held : row.cell "index_mac" = some (.blob indexMac.1))
      (opened : asBlob (row.cell "value_mac") >>= openAt crypto cipher device (.mutationMac name indexMac.1) = .ok mac) :
      mutationMacOf crypto cipher device name row = .ok (some (indexMac, mac)) := by
    obtain ⟨stored, blob, opened⟩ := bind_eq_ok.1 opened
    refine bind_eq_ok.2 ⟨indexMac.1, by rw [held]; rfl, bind_eq_ok.2 ⟨stored, blob, ?_⟩⟩
    rw [dif_pos indexMac.2]
    exact bind_eq_ok.2 ⟨mac, opened, rfl⟩
  obtain ⟨found, ran, reads⟩ := ((macs_pair device name).alike content (fun indexMac : IndexMac => .blob indexMac.1) _ _ agree
    (by decide)).batch indexMacs opens
  exact ⟨hashMap found, bind_eq_ok.2 ⟨found, ran, rfl⟩, fun indexMac value => reads.hashMap⟩

end Reads

def inLists : List (Query × Nat) :=
  [(SELECT_SESSIONS, 1), (SELECT_PREKEYS, 1), (SELECT_DEVICES, 1), (SELECT_TC_TOKENS, 1), (SELECT_MUTATION_MACS, 2)]

theorem inLists_parameters : ∀ entry ∈ inLists, entry.1.select.parameters = entry.2 + readChunk := by decide +kernel

theorem batched_reads_agree (crypto : Crypto) (cipher : BlobCipher) (device : DeviceId) (content : Content) {DeviceInfo : Type}
    (fromStr : String → Except StoreError (List DeviceInfo)) :
    (∀ addresses : List String,
      (∀ address ∈ addresses, ∃ result, getSession crypto cipher device address content.rows = .ok result) →
      ∃ found, getSessions crypto cipher device addresses content.rows = .ok found ∧
        Reads addresses (fun address => getSession crypto cipher device address content.rows) found) ∧
    (∀ ids : List UInt32, (∀ id ∈ ids, ∃ result, loadPrekey crypto cipher device id content.rows = .ok result) →
      ∃ found, loadPrekeys crypto cipher device ids content.rows = .ok found ∧
        Reads ids (fun id => loadPrekey crypto cipher device id content.rows) found) ∧
    (∀ users : List String, (∀ user ∈ users, ∃ result, getDevices device fromStr user content.rows = .ok result) →
      ∃ found, getDevicesBatch device fromStr users content.rows = .ok found ∧
        Reads users (fun user => getDevices device fromStr user content.rows)
          (found.map fun record => (record.user, record))) ∧
    (∀ (name : String) (indexMacs : List IndexMac),
      (∀ indexMac ∈ indexMacs, ∃ result, getMutationMac crypto cipher device name indexMac.1 content.rows = .ok result) →
      ∃ found, getMutationMacs crypto cipher device name indexMacs content.rows = .ok found ∧
        ∀ indexMac value, found indexMac = some value ↔
          indexMac ∈ indexMacs ∧ getMutationMac crypto cipher device name indexMac.1 content.rows = .ok (some value)) ∧
    (∀ jids : List String, (∀ jid ∈ jids, ∃ result, getTcToken crypto cipher device jid content.rows = .ok result) →
      ∃ entries, getTcTokens crypto cipher device jids content.rows = .ok entries ∧
        entries.map .ok = jids.map fun jid => getTcToken crypto cipher device jid content.rows) ∧
    (∀ entry ∈ inLists, entry.1.select.parameters = entry.2 + readChunk) ∧
    ∀ (α : Type) [BEq α] [LawfulBEq α] (items : List α),
      (∀ chunk ∈ paddedChunks items, chunk.length = readChunk) ∧ (paddedChunks items).Pairwise List.Disjoint ∧
        ∀ item, (∃ chunk ∈ paddedChunks items, item ∈ chunk) ↔ item ∈ items :=
  ⟨sessions_read crypto cipher device content, prekeys_read crypto cipher device content,
    devices_read device content fromStr, mutationMacs_read crypto cipher device content,
    tcTokens_read crypto cipher device content, inLists_parameters,
    fun _ _ _ items => ⟨fun _ => length_paddedChunks, disjoint_paddedChunks items, fun _ => mem_paddedChunks⟩⟩

/-- A prekey whose id is stored negative, and the same id of another account. -/
def twoAccounts : Content where
  rows := [
    ⟨"prekeys", 7, [("id", .int (-5)), ("key", .blob [1])]⟩,
    ⟨"prekeys", 8, [("id", .int (-5)), ("key", .blob [2])]⟩]
  unique := by simp [SameKey]

theorem batched_reads_agree_negative_id : ∃ found,
    loadPrekeys Encryption.openLetter .passthrough 7 [4294967291, 1, 4294967291] twoAccounts.rows = .ok found ∧
      (4294967291, [1]) ∈ found ∧ (found.map Prod.fst).Nodup := by
  have first : loadPrekey Encryption.openLetter .passthrough 7 4294967291 twoAccounts.rows = .ok (some [1]) := by rfl
  have absent : loadPrekey Encryption.openLetter .passthrough 7 1 twoAccounts.rows = .ok none := by rfl
  let noDevices : String → Except StoreError (List Unit) := fun _ => .ok []
  obtain ⟨-, prekeys, -⟩ := batched_reads_agree Encryption.openLetter .passthrough 7 twoAccounts noDevices
  obtain ⟨found, ran, reads⟩ := prekeys [4294967291, 1, 4294967291] (by simp [first, absent])
  exact ⟨found, ran, (reads.same _ _).2 ⟨by simp, first⟩, reads.once⟩

end Wamux.Proof.BatchedReads
