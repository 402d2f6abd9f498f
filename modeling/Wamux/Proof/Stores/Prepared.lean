import Mathlib.Data.List.Forall2
import Wamux.Runs.Failing
import Wamux.Stores.System

namespace Wamux.Proof.Stores
open Wamux.Stores Runs Runs.Tables Runs.Failing
open Wamux.Encryption (Bytes DeviceId Crypto BlobCipher Nonce Engine)
open Wamux.Encryption.Tables (Slot)
open Wamux.BatchedWrites (ToJson DeviceListRecord sealed)

variable {info : Type} {crypto : Crypto} {cipher : BlobCipher} {toJson : ToJson info} {engine : Engine} {device : DeviceId}
  {nonces : Nat → Option Nonce} {now : Int64} {rows rows' : Rows} {write : Write info} {statement : Statement Key Row}
  {statements : List (Statement Key Row)}

theorem sealing_ok {nonce : Option Nonce} {slot : Slot} {plaintext : Bytes} {make : Bytes → Statement Key Row}
    (prepared : sealing crypto cipher device nonce slot plaintext make = .ok statements) :
    ∃ stored, sealed crypto cipher device nonce slot plaintext = .ok stored ∧ statements = [make stored] := by
  simp only [sealing, bind_eq_ok, pure_eq_ok] at prepared
  obtain ⟨stored, sealed, rfl⟩ := prepared
  exact ⟨stored, sealed, rfl⟩

theorem takeStatements_ok {chatJid messageId : String}
    (prepared : takeStatements crypto cipher device rows chatJid messageId = .ok statements) :
    statements = [] ∨ statements = [Statements.deleteSentMessage device chatJid messageId] := by
  unfold takeStatements at prepared
  split at prepared
  · cases prepared
    exact .inl rfl
  · simp only [bind_eq_ok, pure_eq_ok] at prepared
    obtain ⟨_, _, rfl⟩ := prepared
    exact .inr rfl

/-! ## What every statement is -/

section All
variable {fit : Statement Key Row → Prop}

theorem all_one (fits : fit statement) : ∀ statement' ∈ [statement], fit statement' := by
  simpa using fits

theorem all_list {α : Type} {items : List α} {make : α → Statement Key Row} (each : ∀ item, fit (make item)) :
    ∀ statement ∈ items.map make, fit statement := by
  intro statement member
  obtain ⟨item, _, rfl⟩ := List.mem_map.1 member
  exact each item

theorem all_mapM {α ε : Type} {items : List α} {make : α → Except ε (Statement Key Row)}
    (prepared : items.mapM make = .ok statements) (each : ∀ item statement, make item = .ok statement → fit statement) :
    ∀ statement ∈ statements, fit statement := by
  have steps := mapM_eq_ok prepared
  clear prepared
  induction steps with
  | nil => simp
  | cons first _ ih =>
      rw [List.forall_mem_cons]
      exact ⟨each _ _ first, ih⟩

theorem all_sealing {nonce : Option Nonce} {slot : Slot} {plaintext : Bytes} {make : Bytes → Statement Key Row}
    (prepared : sealing crypto cipher device nonce slot plaintext make = .ok statements)
    (each : ∀ stored, fit (make stored)) : ∀ statement ∈ statements, fit statement := by
  obtain ⟨stored, _, rfl⟩ := sealing_ok prepared
  exact all_one (each stored)

theorem all_sealingEach {α : Type} {slot : α → Slot} {plaintext : α → Bytes} {make : α → Bytes → Statement Key Row}
    {items : List α} (prepared : sealingEach crypto cipher device nonces slot plaintext make items = .ok statements)
    (each : ∀ item stored, fit (make item stored)) : ∀ statement ∈ statements, fit statement := by
  refine all_mapM prepared fun item statement made => ?_
  simp only [bind_eq_ok, pure_eq_ok] at made
  obtain ⟨stored, _, rfl⟩ := made
  exact each item.1 stored

theorem all_deviceList {record : DeviceListRecord info} (made : deviceListStatement toJson device record = .ok statement)
    (each : ∀ json, fit (Statements.updateDeviceList device record.user json record.timestamp record.phash
      (record.rawId.map (·.toInt32)))) : fit statement := by
  simp only [deviceListStatement, bind_eq_ok, pure_eq_ok] at made
  obtain ⟨json, _, rfl⟩ := made
  exact each json

theorem all_markUploaded {ids : List UInt32}
    (array : fit (Statements.markPrekeysUploaded device (ids.map (·.toInt32))))
    (each : ∀ id : UInt32, fit (Statements.markPrekeyUploaded device id.toInt32)) :
    ∀ statement ∈ markUploaded engine device ids, fit statement := by
  unfold markUploaded
  split
  · exact List.forall_mem_nil _
  · cases engine with
    | pg => exact all_one array
    | sqlite => exact all_list each

theorem all_take {chatJid messageId : String}
    (prepared : takeStatements crypto cipher device rows chatJid messageId = .ok statements)
    (taken : fit (Statements.deleteSentMessage device chatJid messageId)) : ∀ statement ∈ statements, fit statement := by
  rcases takeStatements_ok prepared with rfl | rfl
  · exact List.forall_mem_nil _
  · exact all_one taken

end All

/-! ## Whose rows -/

def OwnedBy (device : DeviceId) : Statement Key Row → Prop
  | .upsert key _ _ => key.device = device
  | .update when _ | .delete when => ∀ key row, when key row → key.device = device

theorem OwnedBy.spares (owned : OwnedBy device statement) {key : Key} (other : key.device ≠ device) : statement.Spares key := by
  intro found
  cases statement with
  | upsert at' new onConflict =>
      have elsewhere : key ≠ at' := fun same => other (same ▸ owned)
      simp [Statement.on, elsewhere]
  | update when set =>
      have never (row : Row) : when key row = false := by
        cases chosen : when key row with
        | false => rfl
        | true => exact absurd (owned key row chosen) other
      cases found <;> simp [Statement.on, never]
  | delete when =>
      have never (row : Row) : when key row = false := by
        cases chosen : when key row with
        | false => rfl
        | true => exact absurd (owned key row chosen) other
      cases found <;> simp [Statement.on, never, Option.filter]

theorem owned_deleteNamed {name : Name} : OwnedBy device (Statements.deleteNamed device name) := by
  intro key row chosen
  exact (of_decide_eq_true chosen).2

theorem owned_delete {when : Key → Row → Bool} :
    OwnedBy device (.delete fun key row => when key row ∧ key.device = device) := by
  intro key row chosen
  exact (of_decide_eq_true chosen).2

theorem prepare_owned (prepared : write.prepare crypto cipher toJson engine device nonces now rows = .ok statements) :
    ∀ statement ∈ statements, OwnedBy device statement := by
  cases write with simp only [Write.prepare] at prepared
  | save | create | putIdentity | putSession | storePrekey | storeSignedPrekey | putSenderKey | setSyncKey | setVersion
  | saveBaseKey | putTcToken | storeReceivedTcToken | storeSentMessage => exact all_sealing prepared fun _ => rfl
  | putIdentities | putSessions | storePrekeys | putSenderKeys | putMutationMacs | putMsgSecrets =>
      exact all_sealingEach prepared fun _ _ => rfl
  | deleteIdentity | deleteSession | removePrekey | removeSignedPrekey | deleteSenderKey | deleteVersion | deleteBaseKey
  | deleteDevices | deleteTcToken =>
      cases prepared
      exact all_one owned_deleteNamed
  | clearMutationMacs | clearSenderKeyDevices | clearAllSenderKeyDevices | deleteExpiredBaseKeys | deleteExpiredTcTokens
  | deleteExpiredSentMessages | deleteExpiredMsgSecrets =>
      cases prepared
      exact all_one owned_delete
  | deleteIdentities | deleteSessions | removePrekeys | deleteSenderKeys | deleteMutationMacs =>
      cases prepared
      exact all_list fun _ => owned_deleteNamed
  | deleteSenderKeyDeviceRows =>
      cases prepared
      exact all_list fun _ => owned_delete
  | setSenderKeyStatus | putLidMappings =>
      cases prepared
      exact all_list fun _ => rfl
  | putLidMapping | touchTcTokenSenderTimestamp =>
      cases prepared
      exact all_one rfl
  | markPrekeysUploaded =>
      cases prepared
      exact all_markUploaded (fun key row chosen => (of_decide_eq_true chosen).1) fun id key row chosen => (of_decide_eq_true chosen).2
  | commitPatch =>
      simp only [bind_eq_ok, pure_eq_ok] at prepared
      obtain ⟨state, version, macs, added, rfl⟩ := prepared
      simp only [List.forall_mem_append]
      exact ⟨⟨all_sealing version fun _ => rfl, all_list fun _ => owned_deleteNamed⟩, all_sealingEach added fun _ _ => rfl⟩
  | updateDeviceList =>
      simp only [bind_eq_ok, pure_eq_ok] at prepared
      obtain ⟨made, ok, rfl⟩ := prepared
      exact all_one (all_deviceList ok fun _ => rfl)
  | updateDeviceLists => exact all_mapM prepared fun _ _ made => all_deviceList made fun _ => rfl
  | takeSentMessage => exact all_take prepared owned_deleteNamed

theorem prepare_congr (same : ∀ name, rows.lookup ⟨device, name⟩ = rows'.lookup ⟨device, name⟩) :
    write.prepare crypto cipher toJson engine device nonces now rows =
      write.prepare crypto cipher toJson engine device nonces now rows' := by
  cases write with
  | takeSentMessage chatJid messageId => simp only [Write.prepare, takeStatements, same]
  | _ => rfl

end Wamux.Proof.Stores
