import Wamux.Proof.Stores.Deletion

namespace Wamux.Proof.Stores
open Wamux.Stores Runs Runs.Tables Runs.Failing
open Wamux.Encryption (Bytes DeviceId Crypto BlobCipher Nonce Engine StoreError)
open Wamux.Encryption.Tables (Slot)
open Wamux.BatchedWrites (ToJson DeviceListRecord)

variable {info : Type} {crypto : Crypto} {cipher : BlobCipher} {toJson : ToJson info} {engine : Engine} {device : DeviceId}
  {nonces : Nat → Option Nonce} {now : Int64} {rows : Rows} {write : Write info} {statement : Statement Key Row}
  {statements : List (Statement Key Row)} {account : Account} {db after : Database} {events : List (Event info)}

/-! ## Runs -/

theorem call_rows (ran : db.call crypto cipher toJson engine device nonces now write = some after) :
    ∃ statements, write.prepare crypto cipher toJson engine device nonces now db.rows = .ok statements ∧
      ∀ key, after.rows.lookup key = onAll statements key (db.rows.lookup key) := by
  rw [Database.call] at ran
  cases prepared : write.prepare crypto cipher toJson engine device nonces now db.rows with
  | error e =>
      rw [prepared] at ran
      cases ran
  | ok statements =>
      rw [prepared] at ran
      replace ran : statements.foldlM Database.execute db = some after := ran
      refine ⟨statements, rfl, fun key => ?_⟩
      clear prepared
      induction statements generalizing db with
      | nil =>
          cases ran
          rfl
      | cons first rest ih =>
          rw [List.foldlM_cons, Option.bind_eq_bind, Option.bind_eq_some_iff] at ran
          obtain ⟨middle, executed, ran⟩ := ran
          rw [ih ran, (execute_eq executed).2]
          exact congrArg (onAll rest key) (first.lookup_run db.rows key)

theorem sound_of_run (ran : run crypto cipher toJson engine events = some db) : Sound db := by
  induction events using List.reverseRecOn generalizing db with
  | nil =>
      cases ran
      exact sound_empty
  | append_singleton before event ih =>
      obtain ⟨middle, earlier, moved⟩ := run_append.1 ran
      exact (ih earlier).step moved

def remembered {σ : Type} (put : σ → Int64 → Write info → σ) (start : σ) (account : Account) (s : σ) : Event info → σ
  | .createAccount _ => s
  | .deleteAccount uuid => if uuid = account.uuid then start else s
  | .call device _ now write => if device = account.device then put s now write else s

theorem run_remembers {σ : Type} {put : σ → Int64 → Write info → σ} {start : σ} (holds : (Name → Option Row) → σ → Prop)
    (empty : holds (fun _ => none) start)
    (own : ∀ (rows : Rows) view s nonces now write statements, holds (fun name => rows.lookup ⟨account.device, name⟩) s →
      Write.prepare crypto cipher toJson engine account.device nonces now rows write = .ok statements →
      (∀ name, view name = onAll statements ⟨account.device, name⟩ (rows.lookup ⟨account.device, name⟩)) →
      holds view (put s now write))
    {all : List (Event info)} {final : Database} (whole : run crypto cipher toJson engine all = some final)
    (created : .createAccount account ∈ all) (within : ∀ event ∈ events, event ∈ all)
    (ran : run crypto cipher toJson engine events = some db) :
    holds (fun name => db.rows.lookup ⟨account.device, name⟩) (events.foldl (remembered put start account) start) := by
  induction events using List.reverseRecOn generalizing db with
  | nil =>
      cases ran
      exact empty
  | append_singleton before event ih =>
      obtain ⟨middle, earlier, moved⟩ := run_append.1 ran
      have within' : ∀ event ∈ before, event ∈ all := fun event member => within event (List.mem_append_left _ member)
      have held := ih within' earlier
      obtain ⟨_, _, agree⟩ := run_agree whole created within' earlier
      rw [List.foldl_append, List.foldl_cons, List.foldl_nil]
      generalize before.foldl (remembered put start account) start = s at held ⊢
      cases event with
      | createAccount other =>
          simp only [step, Database.insertAccount, Option.ite_none_right_eq_some, Option.some.injEq] at moved
          obtain ⟨-, rfl⟩ := moved
          exact held
      | deleteAccount uuid =>
          cases moved
          simp only [remembered]
          split
          · -- the account's rows are gone, or there were none without it
            rename_i same
            subst same
            convert empty using 2 with name
            rw [lookup_deleteAccount]
            split
            · rfl
            · rename_i spared
              by_contra present
              have held := (sound_of_run earlier).owned _ (Option.isSome_iff_ne_none.2 present)
              obtain ⟨other, member, here⟩ := hasAccount_iff.1 held
              exact spared ⟨other, member, agree.only other member here ▸ rfl, here⟩
          · rename_i different
            convert held using 2 with name
            rw [lookup_deleteAccount, if_neg]
            rintro ⟨other, member, rfl, here⟩
            exact different (agree.only other member here ▸ rfl)
      | call device nonces now write =>
          obtain ⟨statements, prepared, looks⟩ := call_rows moved
          simp only [remembered]
          split
          · rename_i same
            subst same
            exact own middle.rows _ _ nonces now write statements held prepared fun name => looks ⟨account.device, name⟩
          · rename_i different
            convert held using 2 with name
            rw [looks, onAll_spared fun statement member => (prepare_owned prepared statement member).spares (Ne.symm different)]

theorem on_replace {name name' : Name} {row : Row} {found : Option Row} :
    (Statements.replace device name row).on ⟨device, name'⟩ found = if name' = name then some row else found := by
  by_cases here : name' = name
  · subst here
    cases found <;> simp [Statements.replace, Statement.on]
  · simp [Statements.replace, Statement.on, here]

/-! ## Tables -/

def writtenTables : Write info → List TableName
  | .save _ | .create _ => [.device]
  | .putIdentity _ _ | .deleteIdentity _ | .putIdentities _ | .deleteIdentities _ => [.identities]
  | .putSession _ _ | .deleteSession _ | .putSessions _ | .deleteSessions _ => [.sessions]
  | .storePrekey _ _ _ | .markPrekeysUploaded _ | .removePrekey _ | .storePrekeys _ _ | .removePrekeys _ => [.prekeys]
  | .storeSignedPrekey _ _ | .removeSignedPrekey _ => [.signedPrekeys]
  | .putSenderKey _ _ | .deleteSenderKey _ | .putSenderKeys _ | .deleteSenderKeys _ => [.senderKeys]
  | .setSyncKey _ _ => [.appStateKeys]
  | .setVersion _ _ | .deleteVersion _ => [.appStateVersions]
  | .putMutationMacs _ _ _ | .deleteMutationMacs _ _ | .clearMutationMacs _ => [.appStateMutationMacs]
  | .commitPatch _ _ _ _ _ => [.appStateVersions, .appStateMutationMacs]
  | .setSenderKeyStatus _ _ | .clearSenderKeyDevices _ | .deleteSenderKeyDeviceRows _ | .clearAllSenderKeyDevices =>
      [.senderKeyDevices]
  | .putLidMapping _ | .putLidMappings _ => [.lidPnMapping]
  | .saveBaseKey _ _ _ | .deleteBaseKey _ _ | .deleteExpiredBaseKeys _ => [.baseKeys]
  | .updateDeviceList _ | .updateDeviceLists _ | .deleteDevices _ => [.deviceRegistry]
  | .putTcToken _ _ | .deleteTcToken _ | .deleteExpiredTcTokens _ _ | .touchTcTokenSenderTimestamp _ _
  | .storeReceivedTcToken _ _ _ => [.tcTokens]
  | .storeSentMessage _ _ _ | .takeSentMessage _ _ | .deleteExpiredSentMessages _ => [.sentMessages]
  | .putMsgSecrets _ | .deleteExpiredMsgSecrets _ => [.msgSecrets]

def Confined (tables : List TableName) (statement : Statement Key Row) : Prop :=
  ∀ key : Key, key.name.table ∉ tables → statement.Spares key

section Confined
variable {tables : List TableName}

theorem confined_upsert {key : Key} {new : Row} {onConflict : Row → Row} (inside : key.name.table ∈ tables) :
    Confined tables (.upsert key new onConflict) := by
  intro key' outside found
  have other : key' ≠ key := fun same => outside (same ▸ inside)
  simp only [Statement.on, if_neg other]

theorem confined_update {when : Key → Row → Bool} {set : Row → Row}
    (inside : ∀ key row, when key row → key.name.table ∈ tables) : Confined tables (.update when set) := by
  intro key outside found
  cases found with
  | none => rfl
  | some row =>
      have spared : ¬when key row = true := fun chosen => outside (inside key row chosen)
      simp only [Statement.on, Option.map_some, if_neg spared]

theorem confined_delete {when : Key → Row → Bool} (inside : ∀ key row, when key row → key.name.table ∈ tables) :
    Confined tables (.delete when) := by
  intro key outside found
  cases found with
  | none => rfl
  | some row =>
      have spared : when key row = false := eq_false_of_ne_true fun chosen => outside (inside key row chosen)
      simp only [Statement.on, Option.filter_some, spared, Bool.not_false, if_true]

theorem confined_deleteNamed {name : Name} (inside : name.table ∈ tables) :
    Confined tables (Statements.deleteNamed device name) := by
  apply confined_delete
  intro key row chosen
  obtain ⟨rfl, -⟩ := of_decide_eq_true chosen
  exact inside

theorem confined_deleteWhere {table : TableName} {old : Row → Bool} (inside : table ∈ tables) :
    Confined tables (Statements.deleteWhere device table old) := by
  apply confined_delete
  intro key row chosen
  have here := (Bool.and_eq_true_iff.1 (of_decide_eq_true chosen).1).1
  rw [of_decide_eq_true here]
  exact inside

theorem confined_senderKeyDevices {when : String → String → Bool} (inside : .senderKeyDevices ∈ tables) :
    Confined tables (.delete fun key _ => Statements.isSenderKeyDevice when key.name ∧ key.device = device) := by
  apply confined_delete
  rintro ⟨_, name⟩ row chosen
  obtain ⟨here, -⟩ := of_decide_eq_true chosen
  cases name with
  | senderKeyDevice => exact inside
  | sealed | lidPnMapping | deviceRegistry => cases here

theorem confined_clearMutationMacs {name : String} (inside : .appStateMutationMacs ∈ tables) :
    Confined tables (Statements.clearMutationMacs device name) := by
  apply confined_delete
  rintro ⟨_, name'⟩ row chosen
  obtain ⟨here, -⟩ := of_decide_eq_true chosen
  cases name' with
  | sealed slot =>
      cases slot with
      | mutationMac => exact inside
      | _ => cases here
  | senderKeyDevice | lidPnMapping | deviceRegistry => cases here

end Confined

theorem prepare_confined (prepared : write.prepare crypto cipher toJson engine device nonces now rows = .ok statements) :
    ∀ statement ∈ statements, Confined (writtenTables write) statement := by
  cases write with simp only [Write.prepare] at prepared
  | save | create | putIdentity | putSession | storePrekey | storeSignedPrekey | putSenderKey | setSyncKey | setVersion
  | saveBaseKey | putTcToken | storeReceivedTcToken | storeSentMessage =>
      exact all_sealing prepared fun _ => confined_upsert (.head _)
  | putIdentities | putSessions | storePrekeys | putSenderKeys | putMutationMacs | putMsgSecrets =>
      exact all_sealingEach prepared fun _ _ => confined_upsert (.head _)
  | deleteIdentity | deleteSession | removePrekey | removeSignedPrekey | deleteSenderKey | deleteVersion | deleteBaseKey
  | deleteDevices | deleteTcToken =>
      cases prepared
      exact all_one (confined_deleteNamed (.head _))
  | deleteExpiredBaseKeys | deleteExpiredTcTokens | deleteExpiredSentMessages | deleteExpiredMsgSecrets =>
      cases prepared
      exact all_one (confined_deleteWhere (.head _))
  | clearMutationMacs =>
      cases prepared
      exact all_one (confined_clearMutationMacs (.head _))
  | clearSenderKeyDevices | clearAllSenderKeyDevices =>
      cases prepared
      exact all_one (confined_senderKeyDevices (.head _))
  | deleteIdentities | deleteSessions | removePrekeys | deleteSenderKeys | deleteMutationMacs =>
      cases prepared
      exact all_list fun _ => confined_deleteNamed (.head _)
  | deleteSenderKeyDeviceRows =>
      cases prepared
      exact all_list fun _ => confined_senderKeyDevices (.head _)
  | setSenderKeyStatus | putLidMappings =>
      cases prepared
      exact all_list fun _ => confined_upsert (.head _)
  | putLidMapping | touchTcTokenSenderTimestamp =>
      cases prepared
      exact all_one (confined_upsert (.head _))
  | markPrekeysUploaded =>
      cases prepared
      apply all_markUploaded
      · apply confined_update
        intro key row chosen
        obtain ⟨-, id, -, here⟩ := of_decide_eq_true chosen
        rw [here]
        exact .head _
      · intro id
        apply confined_update
        intro key row chosen
        rw [(of_decide_eq_true chosen).1]
        exact .head _
  | commitPatch =>
      simp only [bind_eq_ok, pure_eq_ok] at prepared
      obtain ⟨state, version, macs, added, rfl⟩ := prepared
      simp only [List.forall_mem_append]
      exact ⟨⟨all_sealing version fun _ => confined_upsert (.head _),
        all_list fun _ => confined_deleteNamed (.tail _ (.head _))⟩,
        all_sealingEach added fun _ _ => confined_upsert (.tail _ (.head _))⟩
  | updateDeviceList =>
      simp only [bind_eq_ok, pure_eq_ok] at prepared
      obtain ⟨made, ok, rfl⟩ := prepared
      exact all_one (all_deviceList ok fun _ => confined_upsert (.head _))
  | updateDeviceLists => exact all_mapM prepared fun _ _ made => all_deviceList made fun _ => confined_upsert (.head _)
  | takeSentMessage => exact all_take prepared (confined_deleteNamed (.head _))

theorem untouched {name : Name} {found : Option Row} (outside : name.table ∉ writtenTables write)
    (prepared : write.prepare crypto cipher toJson engine device nonces now rows = .ok statements) :
    onAll statements ⟨device, name⟩ found = found :=
  onAll_spared (fun statement member => prepare_confined prepared statement member ⟨device, name⟩ outside) found

/-! ## Reads -/

theorem fetched_unsealed {read : Read} {answer : Except StoreError (List (Name × Row))}
    (unsealed : ∀ slot row, read.chooses (.sealed slot) row = false)
    (fetched : read.MayFetch crypto cipher device rows answer) : ∃ found, answer = .ok found ∧ (found.map Prod.fst).Nodup ∧
      ∀ name row, (name, row) ∈ found ↔ rows.lookup ⟨device, name⟩ = some row ∧ read.chooses name row = true := by
  obtain ⟨entries, order, rfl⟩ := fetched
  have unique : entries.NodupKeys := (List.perm_nodupKeys order).2 rows.nodupKeys
  let chosen := entries.filter fun entry => entry.1.device = device && read.chooses entry.1.name entry.2
  refine ⟨chosen.map fun entry => (entry.1.name, entry.2), ?_, ?_, ?_⟩
  · apply mapM_ok
    rintro ⟨⟨device', name⟩, row⟩ member
    have chose := (Bool.and_eq_true_iff.1 (List.mem_filter.1 member).2).2
    cases name with
    | sealed slot => exact absurd chose (by simp [unsealed])
    | senderKeyDevice | lidPnMapping | deviceRegistry => rfl
  · rw [List.map_map, List.Nodup, List.pairwise_map]
    have keys : chosen.Pairwise fun entry entry' => entry.1 ≠ entry'.1 :=
      (List.pairwise_map.1 unique).sublist List.filter_sublist
    refine keys.imp_of_mem ?_
    intro entry entry' member member' differ same
    have device := of_decide_eq_true (Bool.and_eq_true_iff.1 (List.mem_filter.1 member).2).1
    have device' := of_decide_eq_true (Bool.and_eq_true_iff.1 (List.mem_filter.1 member').2).1
    apply differ
    cases entry with
    | mk key row =>
        cases entry' with
        | mk key' row' =>
            cases key
            cases key'
            simp_all
  · intro name row
    rw [← Table.mem_entries, ← order.mem_iff]
    constructor
    · intro member
      obtain ⟨⟨⟨device', name'⟩, row'⟩, chose, same⟩ := List.mem_map.1 member
      obtain ⟨present, here⟩ := List.mem_filter.1 chose
      obtain ⟨owner, picked⟩ := Bool.and_eq_true_iff.1 here
      obtain rfl : device' = device := of_decide_eq_true owner
      cases same
      exact ⟨present, picked⟩
    · rintro ⟨present, picked⟩
      exact List.mem_map.2 ⟨⟨⟨device, name⟩, row⟩, List.mem_filter.2 ⟨present, by simp [picked]⟩, rfl⟩

section Shown
variable {α : Type} {view : Name × Row → Option α} {entry : α → Name × Row} {found : List (Name × Row)}

theorem filterMap_found (shape : ∀ pair ∈ found, ∃ a, pair = entry a) (shown : ∀ a, view (entry a) = some a) :
    (found.filterMap view).map entry = found := by
  induction found with
  | nil => rfl
  | cons pair rest ih =>
      rw [List.forall_mem_cons] at shape
      obtain ⟨⟨a, rfl⟩, shape⟩ := shape
      rw [List.filterMap_cons_some (shown a), List.map_cons, ih shape]

theorem mem_filterMap_found (shape : ∀ pair ∈ found, ∃ a, pair = entry a) (shown : ∀ a, view (entry a) = some a) (a : α) :
    a ∈ found.filterMap view ↔ entry a ∈ found := by
  rw [List.mem_filterMap]
  constructor
  · rintro ⟨pair, member, here⟩
    obtain ⟨a', rfl⟩ := shape pair member
    rw [shown] at here
    cases here
    exact member
  · intro member
    exact ⟨entry a, member, shown a⟩

end Shown

end Wamux.Proof.Stores
