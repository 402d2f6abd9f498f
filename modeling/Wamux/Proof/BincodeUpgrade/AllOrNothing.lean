import Wamux.Proof.BincodeUpgrade.Opens
import Wamux.Proof.BlobCodec.Contract
import Wamux.Proof.Encryption.Lifetime

namespace Wamux.Proof.BincodeUpgrade
open Wamux.BincodeUpgrade Wamux.BlobCodec Wamux.Runs
open Wamux.Encryption (Bytes DeviceId Name Db SealedColumn Row Crypto)

variable {wacore : Wacore} {codec : Codec wacore} {bincode : Bincode wacore} {crypto : Crypto}
variable {family : Family} {store : LegacyStore} {s s' : State} {opener : OpenerId} {outcome : Outcome}

/-! ## Every run -/

theorem upgrade_eq_some (moved : step codec bincode crypto family s (.upgrade opener outcome) = some s') :
    ∃ move, next codec bincode family s.files (s.phases opener) outcome = some move ∧ s.apply opener move = some s' :=
  Option.bind_eq_some_iff.1 moved

theorem store_eq_some {event : Encryption.Event} (moved : step codec bincode crypto family s (.store opener event) = some s') :
    s.phases opener = .migrated ∧ s'.files.format = s.files.format ∧ s'.phases = s.phases ∧ s'.lock = s.lock := by
  simp only [BincodeUpgrade.step] at moved
  split at moved
  · rename_i migrated
    obtain ⟨after, -, same⟩ := Option.bind_eq_some_iff.1 moved
    cases same
    exact ⟨migrated, rfl, rfl, rfl⟩
  · cases moved

theorem protobuf_ne_bincode {format : Option String} (current : format = some blobFormatProtobuf)
    (legacy : format = some blobFormatBincode) : False := by
  rw [current] at legacy
  exact absurd legacy (by decide)

theorem Inv.step {e : Event} (inv : Inv codec bincode family store s) (moved : step codec bincode crypto family s e = some s') :
    Inv codec bincode family store s' := by
  cases e with
  | upgrade opener outcome =>
      obtain ⟨move, moves, applied⟩ := upgrade_eq_some moved
      exact inv.apply (next_allowed inv moves) applied
  | crash opener =>
      cases moved
      exact ⟨inv.frozen, fits_update trivial fun other differ => (inv.fits other).mono (freed_other differ)⟩
  | store opener event =>
      obtain ⟨migrated, format, phases, lock⟩ := store_eq_some moved
      have served := inv.fits opener
      rw [migrated] at served
      have marked : s'.files.format = some blobFormatProtobuf := format.trans served
      refine ⟨.inr marked, fun other => ?_⟩
      rw [phases, lock]
      exact (inv.fits other).converted id marked fun theirs => protobuf_ne_bincode served theirs.marked

theorem inv_of_reaches (reaches : (machine codec bincode crypto family store).Reaches Machine.Free s) :
    Inv codec bincode family store s :=
  reaches.invariant (Inv codec bincode family store) ⟨.inl rfl, fun _ => show Fits _ _ _ _ _ _ _ .begin from trivial⟩ fun _ _ _ inv _ moved => inv.step moved

/-! ## Runs of the upgrade -/

def Upgrades (_ : State) : Event → Prop
  | .upgrade _ _ | .crash _ => True
  | .store _ _ => False

theorem upgrade_files (inv : Inv codec bincode family store s)
    (moved : step codec bincode crypto family s (.upgrade opener outcome) = some s') :
    s'.files = s.files ∨ (Holding store s.lock s.files opener ∧
      (∃ plan, planBincodeUpgrade codec bincode (legacyRows store.files.db) = .ok plan) ∧
      Converted codec bincode s.files s'.files) := by
  obtain ⟨move, moves, applied⟩ := upgrade_eq_some moved
  cases next_allowed inv moves with
  | «to» _ =>
      cases applied
      exact .inl rfl
  | locked _ =>
      simp only [State.apply] at applied
      split at applied
      · cases applied
      · cases applied
        exact .inl rfl
  | ended _ =>
      cases applied
      exact .inl rfl
  | committed holding planned _ =>
      cases applied
      have converted := converted_of_plan planned (holding.same ▸ holding.marked)
      rw [← holding.same] at converted
      exact .inr ⟨holding, ⟨_, planned⟩, converted⟩

theorem upgrades_step {e : Event} (inv : Inv codec bincode family store s) (upgrades : Upgrades s e)
    (moved : step codec bincode crypto family s e = some s') :
    s'.files = s.files ∨ Converted codec bincode s.files s'.files := by
  cases e with
  | upgrade opener outcome => exact (upgrade_files inv moved).imp_right fun ⟨_, _, converted⟩ => converted
  | crash opener =>
      cases moved
      exact .inl rfl
  | store opener event => cases upgrades

theorem upgrades_run (inv : Inv codec bincode family store s)
    (leads : (machine codec bincode crypto family store).Leads Upgrades s s') :
    Inv codec bincode family store s' ∧ (s'.files = s.files ∨ Converted codec bincode s.files s'.files) := by
  induction leads with
  | here => exact ⟨inv, .inl rfl⟩
  | next _ upgrades moved ih =>
      obtain ⟨middle, so_far⟩ := ih
      refine ⟨middle.step moved, ?_⟩
      have last := upgrades_step middle upgrades moved
      rcases so_far with same | converted
      · rwa [same] at last
      · rcases last with same | again
        · rw [same]
          exact .inr converted
        · exact (protobuf_ne_bincode converted.after again.before).elim

theorem upgrades_idle (inv : Inv codec bincode family store s) (marked : s.files.format = some blobFormatProtobuf)
    (leads : (machine codec bincode crypto family store).Leads Upgrades s s') : s'.files = s.files :=
  (upgrades_run inv leads).2.resolve_right fun converted => protobuf_ne_bincode marked converted.before

/-! ## Stores that are refused -/

theorem stuck (reaches : (machine codec bincode crypto family store).Reaches Machine.Free s)
    (legacy : store.files.format ≠ some blobFormatProtobuf)
    (never : store.files.format = some blobFormatBincode →
      ∀ plan, planBincodeUpgrade codec bincode (legacyRows store.files.db) ≠ .ok plan) :
    s.files = store.files ∧ ∀ opener, s.phases opener ≠ .migrated := by
  have same : s.files = store.files := by
    induction reaches with
    | initial => rfl
    | @next s s' e reaches _ moved same =>
        have moved : step codec bincode crypto family s e = some s' := moved
        have inv := inv_of_reaches reaches
        cases e with
        | upgrade opener outcome =>
            rcases upgrade_files inv moved with still | ⟨holding, ⟨plan, planned⟩, -⟩
            · exact still.trans same
            · exact absurd planned (never (same ▸ holding.marked) plan)
        | crash opener =>
            cases moved
            exact same
        | store opener event =>
            have served := inv.fits opener
            rw [(store_eq_some moved).1, same] at served
            exact absurd served legacy
  refine ⟨same, fun opener migrated => legacy ?_⟩
  have served := (inv_of_reaches reaches).fits opener
  rw [migrated, same] at served
  exact served

/-! ## An open that nothing disturbs -/

def openAnswer (codec : Codec wacore) (bincode : Bincode wacore) (family : Family) (files : Files) :
    Except UpgradeError Unit :=
  match files.format with
  | none => .error (match family with
      | .pg | .sqlite => .database "reading blob_format"
      | .turso => .unknownFormat "<no blob_format row>")
  | some format => match needsBincodeUpgrade format with
      | .error e => .error e
      | .ok false => .ok ()
      | .ok true => (planBincodeUpgrade codec bincode (legacyRows files.db)).map fun _ => ()

def finalPhase {α : Type} : Except UpgradeError α → Phase
  | .ok _ => .migrated
  | .error e => .failed e

def Alone (opener : OpenerId) (_ : State) (e : Event) : Prop := e = .upgrade opener .ok

def Ends (codec : Codec wacore) (bincode : Bincode wacore) (crypto : Crypto) (family : Family) (store : LegacyStore)
    (opener : OpenerId) (s : State) (phase : Phase) : Prop :=
  ∃ s', (machine codec bincode crypto family store).Leads (Alone opener) s s' ∧ s'.phases opener = phase

theorem Ends.after {phase final : Phase} {move : Move} {middle : State} (now : s.phases opener = phase)
    (moves : next codec bincode family s.files phase .ok = some move) (applied : s.apply opener move = some middle)
    (ends : Ends codec bincode crypto family store opener middle final) :
    Ends codec bincode crypto family store opener s final := by
  obtain ⟨s', leads, done⟩ := ends
  rw [← now] at moves
  have moved : (machine codec bincode crypto family store).step s (.upgrade opener .ok) = some middle :=
    Option.bind_eq_some_iff.2 ⟨move, moves, applied⟩
  exact ⟨s', leads.after (show Alone opener s _ from rfl) moved, done⟩

theorem Ends.here {phase : Phase} (done : s.phases opener = phase) : Ends codec bincode crypto family store opener s phase :=
  ⟨s, .here, done⟩

theorem setPhase_self (s : State) (opener : OpenerId) (phase : Phase) : (s.setPhase opener phase).phases opener = phase :=
  Function.update_self _ _ _

theorem ends_fails {e : UpgradeError} (phase : s.phases opener = family.fails e) :
    Ends codec bincode crypto family store opener s (.failed e) := by
  cases family <;> exact .after phase rfl rfl (.here (setPhase_self s opener _))

theorem ends_rollingBack (phase : s.phases opener = .rollingBack (.ok ())) :
    Ends codec bincode crypto family store opener s .migrated :=
  .after phase rfl rfl (.here (setPhase_self s opener _))

theorem ends_writing {done left : List Write} (phase : s.phases opener = .writing done left) :
    Ends codec bincode crypto family store opener s .migrated := by
  induction left generalizing s done with
  | nil => exact .after phase rfl rfl (.here (setPhase_self s opener _))
  | cons write left ih => exact .after phase rfl rfl (ih (setPhase_self s opener _))

theorem ends_afterRead {rows : LegacyBlobRows} (phase : s.phases opener = afterRead codec bincode family rows) :
    Ends codec bincode crypto family store opener s (finalPhase (planBincodeUpgrade codec bincode rows)) := by
  cases planned : planBincodeUpgrade codec bincode rows with
  | error e =>
      simp only [afterRead, planned] at phase
      exact ends_fails phase
  | ok plan =>
      simp only [afterRead, planned] at phase
      exact ends_writing phase

theorem ends_reading (phase : s.phases opener = .readDevices) :
    Ends codec bincode crypto family store opener s
      (finalPhase (planBincodeUpgrade codec bincode (legacyRows s.files.db))) := by
  let versions := s.setPhase opener (.readVersions (selectLegacyDevices s.files.db))
  let syncKeys := versions.setPhase opener (.readSyncKeys (selectLegacyDevices s.files.db) (selectLegacyVersions s.files.db))
  have read : Ends codec bincode crypto family store opener syncKeys
      (finalPhase (planBincodeUpgrade codec bincode (legacyRows s.files.db))) :=
    .after (setPhase_self versions opener _) rfl rfl (ends_afterRead (setPhase_self syncKeys opener _))
  exact .after phase rfl rfl (.after (setPhase_self s opener _) rfl rfl read)

theorem ends_afterFormat (phase : s.phases opener = afterFormat family s.files.format) :
    Ends codec bincode crypto family store opener s (finalPhase (openAnswer codec bincode family s.files)) := by
  unfold openAnswer
  cases marker : s.files.format with
  | none =>
      rw [marker] at phase
      exact ends_fails phase
  | some format =>
      rw [marker, afterFormat] at phase
      cases needed : needsBincodeUpgrade format with
      | error e =>
          simp only [needed] at phase ⊢
          exact ends_fails phase
      | ok needed' =>
          cases needed' with
          | false =>
              simp only [needed] at phase ⊢
              exact ends_rollingBack phase
          | true =>
              simp only [needed] at phase ⊢
              have ends : Ends codec bincode crypto family store opener s
                  (finalPhase (planBincodeUpgrade codec bincode (legacyRows s.files.db))) := ends_reading phase
              cases planned : planBincodeUpgrade codec bincode (legacyRows s.files.db) <;>
                · rw [planned] at ends
                  exact ends

theorem apply_locked {phase : Phase} (free : s.lock = none) :
    s.apply opener (.locked phase) = some { s.setPhase opener phase with lock := some opener } := by
  rw [State.apply, free]
  rfl

theorem ends_begin (phase : s.phases opener = .begin) (free : s.lock = none) :
    Ends codec bincode crypto family store opener s (finalPhase (openAnswer codec bincode family s.files)) := by
  cases family with
  | pg =>
      let begun := s.setPhase opener .readFormat
      have locked : begun.apply opener (.locked (afterFormat .pg s.files.format)) =
          some { begun.setPhase opener (afterFormat .pg s.files.format) with lock := some opener } := apply_locked free
      exact .after phase rfl rfl (.after (setPhase_self s opener _) rfl locked (ends_afterFormat (setPhase_self begun opener _)))
  | sqlite =>
      let begun : State := { s.setPhase opener .readFormat with lock := some opener }
      exact .after phase rfl (apply_locked free)
        (.after (setPhase_self s opener _) rfl rfl (ends_afterFormat (setPhase_self begun opener _)))
  | turso =>
      let begun : State := { s.setPhase opener .readFormat with lock := some opener }
      exact .after phase rfl (apply_locked free)
        (.after (setPhase_self s opener _) rfl rfl (ends_afterFormat (setPhase_self begun opener _)))

/-! ## The upgrade and the encryption -/

def HasSealed (db : Db) : Prop := db.encrypted = true ∨ db.verifier.isSome ∨ ∃ row ∈ db.rows, row.blob ≠ row.written

theorem legacy_not_sealed (store : LegacyStore) : ¬ HasSealed store.files.db := by
  obtain ⟨plaintext, unmarked⟩ := store.unmarked
  rintro (encrypted | verifier | ⟨row, member, differ⟩)
  · rw [plaintext] at encrypted
    cases encrypted
  · rw [unmarked] at verifier
    cases verifier
  · exact differ (store.plain row member)

def Planning : Phase → Prop
  | .readDevices | .readVersions _ | .readSyncKeys _ _ | .writing _ _ => True
  | _ => False

theorem holding_of_planning (inv : Inv codec bincode family store s) (planning : Planning (s.phases opener)) :
    Holding store s.lock s.files opener := by
  have fits := inv.fits opener
  cases phase : s.phases opener with
  | readDevices =>
      rw [phase] at fits
      exact fits
  | readVersions devices | readSyncKeys devices versions | writing done left =>
      rw [phase] at fits
      exact fits.1
  | _ =>
      rw [phase] at planning
      cases planning

/-! ## The whole -/

structure Sound (codec : Codec wacore) (bincode : Bincode wacore) (crypto : Crypto) (family : Family) (store : LegacyStore)
    (s : State) : Prop where
  /-- After any number of opens, failing or crashing anywhere, the rows and the marker are as before or
  every row is converted. -/
  opens : ∀ s', (machine codec bincode crypto family store).Leads Upgrades s s' →
    s'.files = s.files ∨ Converted codec bincode s.files s'.files
  idle : s.files.format = some blobFormatProtobuf →
    ∀ s', (machine codec bincode crypto family store).Leads Upgrades s s' → s'.files = s.files
  refused : store.files.format = some blobFormatBincode →
    (∃ row ∈ store.files.db.rows, Refused codec bincode row.column row.blob) →
    s.files = store.files ∧ ∀ opener, s.phases opener ≠ .migrated
  unknown : store.files.format ≠ some blobFormatBincode → store.files.format ≠ some blobFormatProtobuf →
    s.files = store.files ∧ ∀ opener, s.phases opener ≠ .migrated
  /-- An open that nothing disturbs ends, with the answer that the store determines. -/
  ends : ∀ opener, s.phases opener = .begin → s.lock = none →
    Ends codec bincode crypto family store opener s (finalPhase (openAnswer codec bincode family s.files))
  sealed : HasSealed s.files.db → s.files.format = some blobFormatProtobuf
  planned : ∀ opener, Planning (s.phases opener) → ¬ HasSealed s.files.db

theorem upgrade_sound (codec : Codec wacore) (bincode : Bincode wacore) (crypto : Crypto) (family : Family)
    (store : LegacyStore) {s : State} (reaches : (machine codec bincode crypto family store).Reaches Machine.Free s) :
    Sound codec bincode crypto family store s := by
  have inv := inv_of_reaches reaches
  constructor
  case opens => exact fun s' leads => (upgrades_run inv leads).2
  case idle => exact fun marked s' leads => upgrades_idle inv marked leads
  case refused =>
    intro marked ⟨row, member, refused⟩
    refine stuck reaches (fun current => protobuf_ne_bincode current marked) fun _ plan planned => ?_
    exact not_refused_of_plan planned member (store.keyed row member) refused
  case unknown =>
    intro other current
    exact stuck reaches current fun marked => absurd marked other
  case ends => exact fun opener phase free => ends_begin phase free
  case sealed =>
    intro sealed
    refine inv.frozen.resolve_left fun same => ?_
    rw [same] at sealed
    exact legacy_not_sealed store sealed
  case planned =>
    intro opener planning
    rw [(holding_of_planning inv planning).same]
    exact legacy_not_sealed store

/-! One key of an app state, upgraded by a second opener after the first one crashed. -/

def readSmall : Bytes → Except String (Nat × Bytes)
  | byte :: rest => if byte < 251 then .ok (byte.toNat, rest) else .error "not a small integer"
  | [] => .error "unexpected end"

def readBytes (bytes : Bytes) : Except String (Bytes × Bytes) := do
  let (length, rest) ← readSmall bytes
  if length ≤ rest.length then return (rest.take length, rest.drop length) else .error "unexpected end"

def unzigzag (n : Nat) : Int64 := if n % 2 = 0 then Int64.ofNat (n / 2) else -Int64.ofNat ((n + 1) / 2)

def smallBincode : Bincode Proof.BlobCodec.library where
  decodeLegacyDevice _ := .error "not a device"
  decodeHashState _ := .error "not a hash state"
  decodeSyncKey blob := do
    let (keyData, rest) ← readBytes blob
    let (fingerprint, rest) ← readBytes rest
    let (timestamp, rest) ← readSmall rest
    return (⟨keyData, fingerprint, unzigzag timestamp⟩, blob.length - rest.length)
  encodeDevice _ := .error "not a device"
  decodeDevice _ := .error "not a device"
  device_inverse := by
    intro device bytes encoded
    cases encoded

def protoCodec : Codec Proof.BlobCodec.library := blobCodec _ Proto3.prost (fun _ => "serialization error")

def legacyKey : Bytes := [32] ++ List.replicate 32 7 ++ [2, 1, 2] ++ [10]

def oneKey : LegacyStore where
  files := ⟨{ accounts := [4], rows := [⟨4, keyData, [.bytes [9]], legacyKey, legacyKey⟩] }, some "bincode"⟩
  distinct := by decide
  keyed := by
    intro row member
    cases List.mem_singleton.1 member
    exact ⟨by decide, by decide, fun _ => rfl⟩
  plain := by decide
  unmarked := ⟨rfl, rfl⟩

def crashThenOpen : List Event :=
  List.replicate 6 (.upgrade 1 .ok) ++ [.crash 1] ++ List.replicate 8 (.upgrade 2 .ok) ++
    [.store 2 (.open (some Proof.Encryption.sevens) Proof.Encryption.calm none)]

theorem upgrade_sound_sealed : ∃ s,
    (machine protoCodec smallBincode Proof.Encryption.openLetter .sqlite oneKey).Reaches Machine.Free s ∧
      (s.files.format, s.files.db.encrypted, s.files.db.rows.map Row.written) =
        (some "protobuf", true, [[10, 32] ++ List.replicate 32 7 ++ [18, 2, 1, 2] ++ [24, 5]]) ∧
      Sound protoCodec smallBincode Proof.Encryption.openLetter .sqlite oneKey s := by
  obtain ⟨s, reaches, upgraded⟩ := Machine.reaches_of_replay
    (m := machine protoCodec smallBincode Proof.Encryption.openLetter .sqlite oneKey) Machine.free_sound
    (fun s => decide ((s.files.format, s.files.db.encrypted, s.files.db.rows.map Row.written) =
      (some "protobuf", true, [[10, 32] ++ List.replicate 32 7 ++ [18, 2, 1, 2] ++ [24, 5]]))) crashThenOpen
    (by decide +kernel)
  exact ⟨s, reaches, of_decide_eq_true upgraded, upgrade_sound _ _ _ _ _ reaches⟩

end Wamux.Proof.BincodeUpgrade
