import Wamux.BincodeUpgrade.Opens
import Wamux.Proof.BlobCodec.RoundTrip

namespace Wamux.Proof.BincodeUpgrade
open Wamux.BincodeUpgrade Wamux.BlobCodec Runs.Failing
open Wamux.Encryption (Bytes DeviceId Name Db SealedColumn Row)
open Wamux.Proof.BlobCodec (Same)

variable {wacore : Wacore} {codec : Codec wacore} {bincode : Bincode wacore}

/-! ## One blob -/

theorem decodeWhole_eq_ok {α : Type} {decode : Bytes → Except String (α × Nat)} {blob : Bytes} {row : String} {value : α} :
    decodeWhole decode blob row = .ok value ↔ decode blob = .ok (value, blob.length) := by
  simp only [decodeWhole, bind_eq_ok, mapError_eq_ok, Prod.exists]
  constructor
  · rintro ⟨found, used, decoded, checked⟩
    split at checked
    · cases checked
    · rename_i all
      cases checked
      rw [decoded, not_not.1 all]
  · intro decoded
    refine ⟨value, blob.length, decoded, ?_⟩
    rw [if_neg (not_not_intro rfl)]
    rfl

theorem restored_eq_of_bincode {device device' : Device wacore} {bytes : Bytes}
    (encoded : bincode.encodeDevice device = .ok bytes) (encoded' : bincode.encodeDevice device' = .ok bytes) :
    restored device = restored device' := by
  have decoded := bincode.device_inverse device bytes encoded
  rw [bincode.device_inverse device' bytes encoded'] at decoded
  simp only [Except.ok.injEq, Prod.mk.injEq, and_true] at decoded
  exact decoded.symm

theorem upgradeDeviceBlob_eq_ok {blob new : Bytes} {row : String}
    (upgraded : upgradeDeviceBlob codec bincode blob row = .ok new) :
    ∃ value device bytes, bincode.decodeLegacyDevice blob = .ok (value, blob.length) ∧
      new = codec.encodeDevice value.toDevice ∧ codec.decodeDevice new = .ok device ∧
      bincode.encodeDevice device = .ok bytes ∧ bincode.encodeDevice value.toDevice = .ok bytes := by
  simp only [upgradeDeviceBlob, decodeLegacyDevice, encodeBincode, bind_eq_ok, pure_eq_ok, mapError_eq_ok,
    decodeWhole_eq_ok] at upgraded
  obtain ⟨_, ⟨value, read, rfl⟩, device, back, backBytes, back_eq, oldBytes, old_eq, checked⟩ := upgraded
  split at checked
  · cases checked
  · rename_i same
    cases checked
    rw [not_not.1 same] at back_eq
    exact ⟨value, device, oldBytes, read, rfl, back, back_eq, old_eq⟩

theorem eq_iff_perm {map map' : HashMap} : HashMap.eq map map' = true ↔ map.entries.Perm map'.entries := by
  simp only [HashMap.eq, decide_eq_true_eq]
  constructor
  · intro ⟨length, each⟩
    have inside : map.entries.Subperm map'.entries := List.subperm_of_subset (List.Nodup.of_map _ map.distinct) each
    exact inside.perm_of_length_le length.ge
  · intro same
    exact ⟨same.length_eq, fun _ => same.mem_iff.1⟩

theorem sameHashState_iff {state state' : HashState} : sameHashState state state' = true ↔ Same state state' := by
  simp only [sameHashState, decide_eq_true_eq, eq_iff_perm]
  exact ⟨fun ⟨version, hash, entries, fatal, bootstrapped⟩ => ⟨version, hash, entries, fatal, bootstrapped⟩,
    fun same => ⟨same.version, same.hash, same.entries, same.macMismatchFatal, same.bootstrapped⟩⟩

theorem upgradeHashStateBlob_eq_ok {blob new : Bytes} {row : String}
    (upgraded : upgradeHashStateBlob codec bincode blob row = .ok new) :
    ∃ value state, bincode.decodeHashState blob = .ok (value, blob.length) ∧ new = codec.encodeHashState value ∧
      codec.decodeHashState new = .ok state ∧ Same state value := by
  simp only [upgradeHashStateBlob, bind_eq_ok, mapError_eq_ok, decodeWhole_eq_ok] at upgraded
  obtain ⟨value, read, state, back, checked⟩ := upgraded
  split at checked
  · cases checked
  · rename_i same
    cases checked
    exact ⟨value, state, read, rfl, back, sameHashState_iff.1 (by simpa using same)⟩

theorem upgradeSyncKeyBlob_eq_ok {blob new : Bytes} {row : String}
    (upgraded : upgradeSyncKeyBlob codec bincode blob row = .ok new) :
    ∃ value, bincode.decodeSyncKey blob = .ok (value, blob.length) ∧ new = codec.encodeAppStateSyncKey value ∧
      codec.decodeAppStateSyncKey new = .ok value := by
  simp only [upgradeSyncKeyBlob, bind_eq_ok, mapError_eq_ok, decodeWhole_eq_ok] at upgraded
  obtain ⟨value, read, back_value, back, checked⟩ := upgraded
  split at checked
  · cases checked
  · rename_i same
    cases checked
    exact ⟨value, read, rfl, back.trans (congrArg Except.ok (not_not.1 same))⟩

/-! ## Rows -/

inductive Holds (codec : Codec wacore) (bincode : Bincode wacore) (column : SealedColumn) (old new : Bytes) : Prop where
  | device (is : column = deviceData) (value : LegacyDevice wacore) (device : Device wacore)
      (held : bincode.decodeLegacyDevice old = .ok (value, old.length)) (decoded : codec.decodeDevice new = .ok device)
      (same : restored device = value.toDevice)
  | version (is : column = stateData) (value state : HashState)
      (held : bincode.decodeHashState old = .ok (value, old.length)) (decoded : codec.decodeHashState new = .ok state)
      (same : Same state value)
  | syncKey (is : column = keyData) (value : AppStateSyncKey)
      (held : bincode.decodeSyncKey old = .ok (value, old.length))
      (decoded : codec.decodeAppStateSyncKey new = .ok value)

def legacyColumns : List SealedColumn := [deviceData, stateData, keyData]

def legacyRows (db : Db) : LegacyBlobRows :=
  ⟨selectLegacyDevices db, selectLegacyVersions db, selectLegacySyncKeys db⟩

theorem mem_rowsOf {db : Db} {column : SealedColumn} {row : Row} :
    row ∈ rowsOf db column ↔ row ∈ db.rows ∧ row.column = column := by
  rw [rowsOf, List.mem_insertionSort, List.mem_filter, decide_eq_true_eq]

def Write.From (codec : Codec wacore) (bincode : Bincode wacore) (db : Db) (name : Name) (new : Bytes) : Prop :=
  ∃ row ∈ db.rows, row.name = name ∧ Holds codec bincode row.column row.blob new

variable {db : Db} {plan : BincodeUpgradePlan}

theorem forall₂_left {α β : Type} {r : α → β → Prop} {items : List α} {results : List β}
    (related : List.Forall₂ r items results) {item : α} (member : item ∈ items) : ∃ result ∈ results, r item result := by
  induction related with
  | nil => cases member
  | cons first _ ih =>
      rcases List.mem_cons.1 member with rfl | member
      · exact ⟨_, List.mem_cons_self, first⟩
      · obtain ⟨result, inside, here⟩ := ih member
        exact ⟨result, List.mem_cons_of_mem _ inside, here⟩

theorem forall₂_right {α β : Type} {r : α → β → Prop} {items : List α} {results : List β}
    (related : List.Forall₂ r items results) {result : β} (member : result ∈ results) : ∃ item ∈ items, r item result :=
  forall₂_left related.flip member

theorem planBincodeUpgrade_eq_ok {rows : LegacyBlobRows} (planned : planBincodeUpgrade codec bincode rows = .ok plan) :
    List.Forall₂ (fun row new => planDevice codec bincode row = .ok new) rows.devices plan.devices ∧
      List.Forall₂ (fun row new => planVersion codec bincode row = .ok new) rows.versions plan.versions ∧
      List.Forall₂ (fun row new => planSyncKey codec bincode row = .ok new) rows.syncKeys plan.syncKeys := by
  simp only [planBincodeUpgrade, bind_eq_ok, pure_eq_ok] at planned
  obtain ⟨devices, devices_eq, versions, versions_eq, syncKeys, syncKeys_eq, rfl⟩ := planned
  exact ⟨mapM_eq_ok devices_eq, mapM_eq_ok versions_eq, mapM_eq_ok syncKeys_eq⟩

/-! Row and write, column by column. -/

theorem planned_device (planned : planBincodeUpgrade codec bincode (legacyRows db) = .ok plan) {row : Row}
    (member : row ∈ db.rows) (keyed : Keyed row) (is : row.column = deviceData) :
    ∃ text new, upgradeDeviceBlob codec bincode row.blob text = .ok new ∧ Write.blob row.name new ∈ writePlan plan := by
  have read : (row.device, row.blob) ∈ selectLegacyDevices db := List.mem_map.2 ⟨row, mem_rowsOf.2 ⟨member, is⟩, rfl⟩
  obtain ⟨written, inside, here⟩ := forall₂_left (planBincodeUpgrade_eq_ok planned).1 read
  simp only [planDevice, bind_eq_ok, pure_eq_ok] at here
  obtain ⟨new, upgraded, rfl⟩ := here
  have name : row.name = (row.device, deviceData, []) := by rw [Row.name, is, keyed.device is]
  refine ⟨_, new, upgraded, ?_⟩
  rw [name]
  simp only [writePlan, List.mem_append, List.mem_map]
  exact .inl (.inl (.inl ⟨_, inside, rfl⟩))

theorem planned_version (planned : planBincodeUpgrade codec bincode (legacyRows db) = .ok plan) {row : Row}
    (member : row ∈ db.rows) (keyed : Keyed row) (is : row.column = stateData) :
    ∃ text new, upgradeHashStateBlob codec bincode row.blob text = .ok new ∧ Write.blob row.name new ∈ writePlan plan := by
  have read : (row.device, textOf row.parts, row.blob) ∈ selectLegacyVersions db :=
    List.mem_map.2 ⟨row, mem_rowsOf.2 ⟨member, is⟩, rfl⟩
  obtain ⟨written, inside, here⟩ := forall₂_left (planBincodeUpgrade_eq_ok planned).2.1 read
  simp only [planVersion, bind_eq_ok, pure_eq_ok] at here
  obtain ⟨new, upgraded, rfl⟩ := here
  have name : row.name = (row.device, stateData, [.text (textOf row.parts)]) := by
    rw [Row.name, is, ← keyed.version is]
  refine ⟨_, new, upgraded, ?_⟩
  rw [name]
  simp only [writePlan, List.mem_append, List.mem_map]
  exact .inl (.inl (.inr ⟨_, inside, rfl⟩))

theorem planned_syncKey (planned : planBincodeUpgrade codec bincode (legacyRows db) = .ok plan) {row : Row}
    (member : row ∈ db.rows) (keyed : Keyed row) (is : row.column = keyData) :
    ∃ text new, upgradeSyncKeyBlob codec bincode row.blob text = .ok new ∧ Write.blob row.name new ∈ writePlan plan := by
  have read : (row.device, bytesOf row.parts, row.blob) ∈ selectLegacySyncKeys db :=
    List.mem_map.2 ⟨row, mem_rowsOf.2 ⟨member, is⟩, rfl⟩
  obtain ⟨written, inside, here⟩ := forall₂_left (planBincodeUpgrade_eq_ok planned).2.2 read
  simp only [planSyncKey, bind_eq_ok, pure_eq_ok] at here
  obtain ⟨new, upgraded, rfl⟩ := here
  have name : row.name = (row.device, keyData, [.bytes (bytesOf row.parts)]) := by
    rw [Row.name, is, ← keyed.syncKey is]
  refine ⟨_, new, upgraded, ?_⟩
  rw [name]
  simp only [writePlan, List.mem_append, List.mem_map]
  exact .inl (.inr ⟨_, inside, rfl⟩)

theorem planned_row (planned : planBincodeUpgrade codec bincode (legacyRows db) = .ok plan) {row : Row}
    (member : row ∈ db.rows) (keyed : Keyed row) (legacy : row.column ∈ legacyColumns) :
    ∃ new, Write.blob row.name new ∈ writePlan plan := by
  simp only [legacyColumns, List.mem_cons, List.not_mem_nil, or_false] at legacy
  rcases legacy with is | is | is
  · obtain ⟨_, new, -, inside⟩ := planned_device planned member keyed is
    exact ⟨new, inside⟩
  · obtain ⟨_, new, -, inside⟩ := planned_version planned member keyed is
    exact ⟨new, inside⟩
  · obtain ⟨_, new, -, inside⟩ := planned_syncKey planned member keyed is
    exact ⟨new, inside⟩

theorem planned_write (keyed : ∀ row ∈ db.rows, Keyed row)
    (planned : planBincodeUpgrade codec bincode (legacyRows db) = .ok plan) {name : Name} {new : Bytes}
    (member : Write.blob name new ∈ writePlan plan) : Write.From codec bincode db name new := by
  obtain ⟨devices, versions, syncKeys⟩ := planBincodeUpgrade_eq_ok planned
  simp only [writePlan, List.mem_append, List.mem_map, List.mem_singleton, reduceCtorEq, or_false] at member
  obtain (⟨written, inside, same⟩ | ⟨written, inside, same⟩) | ⟨written, inside, same⟩ := member
  · obtain ⟨_, read, here⟩ := forall₂_right devices inside
    obtain ⟨row, row_mem, rfl⟩ := List.mem_map.1 read
    obtain ⟨present, is⟩ := mem_rowsOf.1 row_mem
    simp only [planDevice, bind_eq_ok, pure_eq_ok] at here
    obtain ⟨_, upgraded, rfl⟩ := here
    cases same
    obtain ⟨value, device, bytes, held, -, decoded, encoded, encoded'⟩ := upgradeDeviceBlob_eq_ok upgraded
    have kept : restored device = value.toDevice := restored_eq_of_bincode encoded encoded'
    exact ⟨row, present, by rw [Row.name, is, (keyed row present).device is], .device is value device held decoded kept⟩
  · obtain ⟨_, read, here⟩ := forall₂_right versions inside
    obtain ⟨row, row_mem, rfl⟩ := List.mem_map.1 read
    obtain ⟨present, is⟩ := mem_rowsOf.1 row_mem
    simp only [planVersion, bind_eq_ok, pure_eq_ok] at here
    obtain ⟨_, upgraded, rfl⟩ := here
    cases same
    obtain ⟨value, state, held, -, decoded, kept⟩ := upgradeHashStateBlob_eq_ok upgraded
    exact ⟨row, present, by rw [Row.name, is, ← (keyed row present).version is], .version is value state held decoded kept⟩
  · obtain ⟨_, read, here⟩ := forall₂_right syncKeys inside
    obtain ⟨row, row_mem, rfl⟩ := List.mem_map.1 read
    obtain ⟨present, is⟩ := mem_rowsOf.1 row_mem
    simp only [planSyncKey, bind_eq_ok, pure_eq_ok] at here
    obtain ⟨_, upgraded, rfl⟩ := here
    cases same
    obtain ⟨value, held, -, decoded⟩ := upgradeSyncKeyBlob_eq_ok upgraded
    exact ⟨row, present, by rw [Row.name, is, ← (keyed row present).syncKey is], .syncKey is value held decoded⟩

/-! ## Rows that stop a plan -/

def bytesTaken (bincode : Bincode wacore) (column : SealedColumn) (blob : Bytes) : Option (Except String Nat) :=
  if column = deviceData then some ((bincode.decodeLegacyDevice blob).map Prod.snd)
  else if column = stateData then some ((bincode.decodeHashState blob).map Prod.snd)
  else if column = keyData then some ((bincode.decodeSyncKey blob).map Prod.snd)
  else none

/-- A blob that does not decode, leaves bytes over, or holds a value that is not proved to read back. -/
inductive Refused (codec : Codec wacore) (bincode : Bincode wacore) (column : SealedColumn) (blob : Bytes) : Prop where
  | undecodable (e : String) (failed : bytesTaken bincode column blob = some (.error e))
  | trailing (used : Nat) (read : bytesTaken bincode column blob = some (.ok used)) (excess : used ≠ blob.length)
  | device (is : column = deviceData) (value : LegacyDevice wacore)
      (held : bincode.decodeLegacyDevice blob = .ok (value, blob.length))
      (unproved : ∀ device bytes, codec.decodeDevice (codec.encodeDevice value.toDevice) = .ok device →
        bincode.encodeDevice device = .ok bytes → bincode.encodeDevice value.toDevice ≠ .ok bytes)
  | version (is : column = stateData) (value : HashState)
      (held : bincode.decodeHashState blob = .ok (value, blob.length))
      (unproved : ∀ state, codec.decodeHashState (codec.encodeHashState value) = .ok state → ¬ Same state value)
  | syncKey (is : column = keyData) (value : AppStateSyncKey)
      (held : bincode.decodeSyncKey blob = .ok (value, blob.length))
      (unproved : codec.decodeAppStateSyncKey (codec.encodeAppStateSyncKey value) ≠ .ok value)

theorem bytesTaken_of_plan (planned : planBincodeUpgrade codec bincode (legacyRows db) = .ok plan) {row : Row}
    (member : row ∈ db.rows) (keyed : Keyed row) :
    bytesTaken bincode row.column row.blob = none ∨
      bytesTaken bincode row.column row.blob = some (.ok row.blob.length) := by
  rw [bytesTaken]
  split
  · rename_i is
    obtain ⟨_, _, upgraded, -⟩ := planned_device planned member keyed is
    obtain ⟨value, _, _, held, -⟩ := upgradeDeviceBlob_eq_ok upgraded
    rw [held]
    exact .inr rfl
  · split
    · rename_i is
      obtain ⟨_, _, upgraded, -⟩ := planned_version planned member keyed is
      obtain ⟨value, _, held, -⟩ := upgradeHashStateBlob_eq_ok upgraded
      rw [held]
      exact .inr rfl
    · split
      · rename_i is
        obtain ⟨_, _, upgraded, -⟩ := planned_syncKey planned member keyed is
        obtain ⟨value, held, -⟩ := upgradeSyncKeyBlob_eq_ok upgraded
        rw [held]
        exact .inr rfl
      · exact .inl rfl

theorem not_refused_of_plan (planned : planBincodeUpgrade codec bincode (legacyRows db) = .ok plan) {row : Row}
    (member : row ∈ db.rows) (keyed : Keyed row) : ¬ Refused codec bincode row.column row.blob := by
  have taken := bytesTaken_of_plan planned member keyed
  intro refused
  cases refused with
  | undecodable e failed => simp [failed] at taken
  | trailing used read excess =>
      rw [read] at taken
      simp [excess] at taken
  | device is value held unproved =>
      obtain ⟨_, _, upgraded, -⟩ := planned_device planned member keyed is
      obtain ⟨value', device, bytes, held', rfl, decoded, encoded, encoded'⟩ := upgradeDeviceBlob_eq_ok upgraded
      cases (Prod.mk.inj (Except.ok.inj (held.symm.trans held'))).1
      exact unproved device bytes decoded encoded encoded'
  | version is value held unproved =>
      obtain ⟨_, _, upgraded, -⟩ := planned_version planned member keyed is
      obtain ⟨value', state, held', rfl, decoded, same⟩ := upgradeHashStateBlob_eq_ok upgraded
      cases (Prod.mk.inj (Except.ok.inj (held.symm.trans held'))).1
      exact unproved state decoded same
  | syncKey is value held unproved =>
      obtain ⟨_, _, upgraded, -⟩ := planned_syncKey planned member keyed is
      obtain ⟨value', held', rfl, decoded⟩ := upgradeSyncKeyBlob_eq_ok upgraded
      cases (Prod.mk.inj (Except.ok.inj (held.symm.trans held'))).1
      exact unproved decoded

end Wamux.Proof.BincodeUpgrade
