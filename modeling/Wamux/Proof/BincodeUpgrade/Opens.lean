import Wamux.Proof.BincodeUpgrade.Plan

namespace Wamux.Proof.BincodeUpgrade
open Wamux.BincodeUpgrade Wamux.BlobCodec Wamux.Runs
open Wamux.Encryption (Bytes DeviceId Name Db SealedColumn Row Crypto)

variable {wacore : Wacore} {codec : Codec wacore} {bincode : Bincode wacore} {crypto : Crypto}
variable {family : Family} {store : LegacyStore} {s s' : State} {opener : OpenerId} {outcome : Outcome}

/-! ## The writes of a transaction -/

theorem foldl_run (writes : List Write) (files : Files) :
    (writes.foldl Write.run files).db = { files.db with rows := files.db.rows.map fun row => writes.foldl Write.row row } := by
  induction writes generalizing files with
  | nil => simp
  | cons write rest ih =>
      rw [List.foldl_cons, ih]
      simp [Write.run]

theorem foldl_run_format {writes rest : List Write} {files : Files} (marks : writes = rest ++ [.mark])
    (marked : files.format = some blobFormatBincode) : (writes.foldl Write.run files).format = some blobFormatProtobuf := by
  have stays (rest : List Write) (files : Files) (present : files.format ≠ none) :
      (rest.foldl Write.run files).format ≠ none := by
    induction rest generalizing files with
    | nil => exact present
    | cons write rest ih =>
        refine ih _ ?_
        cases write with
        | blob name new => exact present
        | mark => simpa [Write.run] using present
  rw [marks, List.foldl_append]
  obtain ⟨format, here⟩ := Option.ne_none_iff_exists'.1 (stays rest files (by simp [marked]))
  simp [Write.run, here]

theorem row_name (row : Row) (write : Write) : (Write.row row write).name = row.name := by
  cases write with
  | blob name new =>
      rw [Write.row]
      split <;> rfl
  | mark => rfl

theorem foldl_row_other {writes : List Write} {row : Row} (none : ∀ new, Write.blob row.name new ∉ writes) :
    writes.foldl Write.row row = row := by
  induction writes with
  | nil => rfl
  | cons write rest ih =>
      have same : Write.row row write = row := by
        cases write with
        | blob name new => exact if_neg fun is => none new (by simp [is])
        | mark => rfl
      rw [List.foldl_cons, same]
      exact ih fun new member => none new (List.mem_cons_of_mem _ member)

theorem row_updated (row : Row) (write : Write) (new : Bytes) :
    { Write.row row write with blob := new, written := new } = { row with blob := new, written := new } := by
  cases write with
  | blob name new =>
      rw [Write.row]
      split <;> rfl
  | mark => rfl

theorem foldl_row_written {writes : List Write} {row : Row} {new : Bytes} (member : Write.blob row.name new ∈ writes) :
    ∃ last, Write.blob row.name last ∈ writes ∧ writes.foldl Write.row row = { row with blob := last, written := last } := by
  induction writes generalizing row new with
  | nil => cases member
  | cons write rest ih =>
      have name := row_name row write
      by_cases later : ∃ last, Write.blob row.name last ∈ rest
      · obtain ⟨last, inside⟩ := later
        rw [← name] at inside
        obtain ⟨last, inside, result⟩ := ih inside
        rw [name] at inside
        exact ⟨last, List.mem_cons_of_mem _ inside, by rw [List.foldl_cons, result, row_updated]⟩
      · have here : write = .blob row.name new := by
          rcases List.mem_cons.1 member with here | inside
          · exact here.symm
          · exact absurd ⟨new, inside⟩ later
        have stays : rest.foldl Write.row (Write.row row write) = Write.row row write :=
          foldl_row_other fun last inside => later ⟨last, name ▸ inside⟩
        refine ⟨new, member, ?_⟩
        rw [List.foldl_cons, stays, here]
        exact if_pos rfl

/-! ## What a COMMIT leaves -/

structure RowConverted (codec : Codec wacore) (bincode : Bincode wacore) (row row' : Row) : Prop where
  name : row'.name = row.name
  held : row.column ∈ legacyColumns → Holds codec bincode row.column row.blob row'.blob ∧ row'.written = row'.blob
  other : row.column ∉ legacyColumns → row' = row

structure Converted (codec : Codec wacore) (bincode : Bincode wacore) (files files' : Files) : Prop where
  before : files.format = some blobFormatBincode
  after : files'.format = some blobFormatProtobuf
  rows : List.Forall₂ (RowConverted codec bincode) files.db.rows files'.db.rows
  rest : files'.db = { files.db with rows := files'.db.rows }

theorem holds_column {column : SealedColumn} {old new : Bytes} (holds : Holds codec bincode column old new) :
    column ∈ legacyColumns := by
  cases holds with
  | device is => simp [legacyColumns, is]
  | version is => simp [legacyColumns, is]
  | syncKey is => simp [legacyColumns, is]

theorem converted_of_plan {plan : BincodeUpgradePlan}
    (planned : planBincodeUpgrade codec bincode (legacyRows store.files.db) = .ok plan)
    (marked : store.files.format = some blobFormatBincode) :
    Converted codec bincode store.files ((writePlan plan).foldl Write.run store.files) := by
  have same {row row' : Row} (member : row ∈ store.files.db.rows) (member' : row' ∈ store.files.db.rows)
      (name : row'.name = row.name) : row' = row :=
    List.inj_on_of_nodup_map store.distinct member' member name
  have each (row : Row) (member : row ∈ store.files.db.rows) :
      RowConverted codec bincode row ((writePlan plan).foldl Write.row row) := by
    by_cases legacy : row.column ∈ legacyColumns
    · obtain ⟨_, written⟩ := planned_row planned member (store.keyed row member) legacy
      obtain ⟨last, inside, result⟩ := foldl_row_written written
      obtain ⟨row', member', name, holds⟩ := planned_write store.keyed planned inside
      cases same member member' name
      rw [result]
      exact ⟨rfl, fun _ => ⟨holds, rfl⟩, fun other => absurd legacy other⟩
    · have none (new : Bytes) : Write.blob row.name new ∉ writePlan plan := by
        intro inside
        obtain ⟨row', member', name, holds⟩ := planned_write store.keyed planned inside
        cases same member member' name
        exact legacy (holds_column holds)
      rw [foldl_row_other none]
      exact ⟨rfl, fun here => absurd here legacy, fun _ => rfl⟩
  have db := foldl_run (writePlan plan) store.files
  constructor
  case before => exact marked
  case after => exact foldl_run_format rfl marked
  case rows =>
    rw [db]
    exact List.forall₂_map_right_iff.2 (List.forall₂_same.2 each)
  case rest => rw [db]

/-! ## What each opener can rely on -/

structure Holding (store : LegacyStore) (lock : Option OpenerId) (files : Files) (opener : OpenerId) : Prop where
  locked : lock = some opener
  same : files = store.files
  marked : files.format = some blobFormatBincode

def Fits (codec : Codec wacore) (bincode : Bincode wacore) (family : Family) (store : LegacyStore)
    (lock : Option OpenerId) (files : Files) (opener : OpenerId) : Phase → Prop
  | .readFormat => family = .pg ∨ lock = some opener
  | .readDevices => Holding store lock files opener
  | .readVersions devices => Holding store lock files opener ∧ devices = selectLegacyDevices store.files.db
  | .readSyncKeys devices versions => Holding store lock files opener ∧ devices = selectLegacyDevices store.files.db ∧
      versions = selectLegacyVersions store.files.db
  | .writing done left => Holding store lock files opener ∧
      ∃ plan, planBincodeUpgrade codec bincode (legacyRows store.files.db) = .ok plan ∧ done ++ left = writePlan plan
  | .rollingBack (.ok ()) | .migrated => files.format = some blobFormatProtobuf
  | .begin | .rollingBack (.error _) | .abandoned _ | .failed _ => True

structure Inv (codec : Codec wacore) (bincode : Bincode wacore) (family : Family) (store : LegacyStore) (s : State) : Prop where
  frozen : s.files = store.files ∨ s.files.format = some blobFormatProtobuf
  fits : ∀ opener, Fits codec bincode family store s.lock s.files opener (s.phases opener)

inductive Allowed (codec : Codec wacore) (bincode : Bincode wacore) (family : Family) (store : LegacyStore) (s : State)
    (opener : OpenerId) : Move → Prop where
  | to {phase : Phase} (fits : Fits codec bincode family store s.lock s.files opener phase) :
      Allowed codec bincode family store s opener (.to phase)
  | locked {phase : Phase} (fits : Fits codec bincode family store (some opener) s.files opener phase) :
      Allowed codec bincode family store s opener (.locked phase)
  | ended {phase : Phase} (fits : ∀ lock, Fits codec bincode family store lock s.files opener phase) :
      Allowed codec bincode family store s opener (.ended phase)
  | committed {plan : BincodeUpgradePlan} {phase : Phase} (holding : Holding store s.lock s.files opener)
      (planned : planBincodeUpgrade codec bincode (legacyRows store.files.db) = .ok plan)
      (fits : ∀ lock files, files.format = some blobFormatProtobuf → Fits codec bincode family store lock files opener phase) :
      Allowed codec bincode family store s opener (.committed (writePlan plan) phase)

theorem fits_fails {lock : Option OpenerId} {files : Files} (e : UpgradeError) :
    Fits codec bincode family store lock files opener (family.fails e) := by
  cases family <;> exact trivial

theorem needsBincodeUpgrade_eq_ok {format : String} {needed : Bool} :
    needsBincodeUpgrade format = .ok needed ↔
      (needed = true ∧ format = blobFormatBincode) ∨ (needed = false ∧ format = blobFormatProtobuf) := by
  by_cases legacy : format = blobFormatBincode
  · subst legacy
    cases needed <;> decide
  · by_cases current : format = blobFormatProtobuf
    · subst current
      cases needed <;> decide
    · simp [needsBincodeUpgrade, parseBlobFormat, legacy, current, bind, Except.bind]

theorem fits_afterFormat {files : Files} (frozen : files = store.files ∨ files.format = some blobFormatProtobuf) :
    Fits codec bincode family store (some opener) files opener (afterFormat family files.format) := by
  cases marker : files.format with
  | none => exact fits_fails _
  | some format =>
      rw [afterFormat]
      split
      · exact fits_fails _
      · rename_i needed
        obtain ⟨is, -⟩ | ⟨-, rfl⟩ := needsBincodeUpgrade_eq_ok.1 needed
        · cases is
        · exact marker
      · rename_i needed
        obtain ⟨-, rfl⟩ | ⟨is, -⟩ := needsBincodeUpgrade_eq_ok.1 needed
        · have same : files = store.files := frozen.resolve_right (by rw [marker]; decide)
          exact ⟨rfl, same, marker⟩
        · cases is

theorem fits_afterRead {lock : Option OpenerId} {files : Files} (holding : Holding store lock files opener) :
    Fits codec bincode family store lock files opener (afterRead codec bincode family (legacyRows store.files.db)) := by
  cases planned : planBincodeUpgrade codec bincode (legacyRows store.files.db) with
  | error e =>
      simp only [afterRead, planned]
      exact fits_fails e
  | ok plan =>
      simp only [afterRead, planned]
      exact ⟨holding, plan, planned, rfl⟩

theorem next_allowed {move : Move} (inv : Inv codec bincode family store s)
    (moves : next codec bincode family s.files (s.phases opener) outcome = some move) :
    Allowed codec bincode family store s opener move := by
  have fits := inv.fits opener
  cases phase : s.phases opener with
  | begin =>
      rw [phase] at moves
      cases outcome with
      | ok =>
          cases family <;> cases moves
          · exact .to (.inl rfl)
          · exact .locked (.inr rfl)
          · exact .locked (.inr rfl)
      | error | lost =>
          cases moves
          exact .to trivial
  | readFormat =>
      rw [phase] at moves fits
      cases outcome with
      | ok =>
          have after : Fits codec bincode family store (some opener) s.files opener (afterFormat family s.files.format) :=
            fits_afterFormat inv.frozen
          rcases fits with pg | held
          · subst pg
            cases moves
            exact .locked after
          · rw [← held] at after
            cases family <;> cases moves
            · exact .locked (held ▸ after)
            · exact .to after
            · exact .to after
      | error | lost =>
          cases moves
          exact .to (fits_fails _)
  | readDevices =>
      rw [phase] at moves fits
      cases outcome with
      | ok =>
          cases moves
          exact .to ⟨fits, by rw [fits.same]⟩
      | error | lost =>
          cases moves
          exact .to (fits_fails _)
  | readVersions devices =>
      rw [phase] at moves fits
      obtain ⟨holding, read⟩ := fits
      cases outcome with
      | ok =>
          cases moves
          exact .to ⟨holding, read, by rw [holding.same]⟩
      | error | lost =>
          cases moves
          exact .to (fits_fails _)
  | readSyncKeys devices versions =>
      rw [phase] at moves fits
      obtain ⟨holding, rfl, rfl⟩ := fits
      cases outcome with
      | ok =>
          cases moves
          rw [holding.same]
          exact .to (fits_afterRead holding)
      | error | lost =>
          cases moves
          exact .to (fits_fails _)
  | writing done left =>
      rw [phase] at moves fits
      obtain ⟨holding, plan, planned, all⟩ := fits
      cases left with
      | cons write left =>
          cases outcome with
          | ok =>
              cases moves
              exact .to ⟨holding, plan, planned, by rw [List.append_assoc]; exact all⟩
          | error | lost =>
              cases moves
              exact .to (fits_fails _)
      | nil =>
          rw [List.append_nil] at all
          subst all
          cases outcome <;> cases moves
          · exact .committed holding planned fun _ _ marked => marked
          · exact .ended fun _ => trivial
          · exact .committed holding planned fun _ _ _ => trivial
  | rollingBack answer =>
      rw [phase] at moves fits
      cases answer with
      | error e =>
          cases outcome <;> cases moves <;> exact .ended fun _ => trivial
      | ok _ =>
          cases outcome <;> cases family <;> cases moves <;> first | exact .ended fun _ => fits | exact .ended fun _ => trivial
  | abandoned e =>
      rw [phase] at moves
      cases outcome <;> cases moves <;> exact .ended fun _ => trivial
  | failed e =>
      rw [phase] at moves
      cases outcome <;> cases moves
  | migrated =>
      rw [phase] at moves
      cases outcome <;> cases moves

theorem Fits.mono {lock lock' : Option OpenerId} {files : Files} {phase : Phase}
    (fits : Fits codec bincode family store lock files opener phase) (kept : lock = some opener → lock' = some opener) :
    Fits codec bincode family store lock' files opener phase := by
  have holding (held : Holding store lock files opener) : Holding store lock' files opener :=
    ⟨kept held.locked, held.same, held.marked⟩
  cases phase with
  | readFormat => exact fits.imp_right kept
  | readDevices => exact holding fits
  | readVersions devices => exact fits.imp_left holding
  | readSyncKeys devices versions => exact fits.imp_left holding
  | writing done left => exact fits.imp_left holding
  | rollingBack answer => cases answer <;> exact fits
  | migrated => exact fits
  | begin | abandoned e | failed e => trivial

theorem Fits.converted {lock lock' : Option OpenerId} {files files' : Files} {phase : Phase}
    (fits : Fits codec bincode family store lock files opener phase) (kept : lock = some opener → lock' = some opener)
    (marked : files'.format = some blobFormatProtobuf) (outside : ¬ Holding store lock files opener) :
    Fits codec bincode family store lock' files' opener phase := by
  cases phase with
  | readFormat => exact fits.imp_right kept
  | readDevices => exact absurd fits outside
  | readVersions devices => exact absurd fits.1 outside
  | readSyncKeys devices versions => exact absurd fits.1 outside
  | writing done left => exact absurd fits.1 outside
  | rollingBack answer =>
      cases answer with
      | error e => trivial
      | ok _ => exact marked
  | migrated => exact marked
  | begin | abandoned e | failed e => trivial

theorem freed_other {other : OpenerId} {lock : Option OpenerId} (differ : other ≠ opener) (held : lock = some other) :
    freed opener lock = some other := by
  rw [freed, held, if_neg]
  exact fun same => differ (Option.some.inj same)

theorem fits_update {lock : Option OpenerId} {files : Files} {phase : Phase}
    (mine : Fits codec bincode family store lock files opener phase)
    (others : ∀ other, other ≠ opener → Fits codec bincode family store lock files other (s.phases other)) (other : OpenerId) :
    Fits codec bincode family store lock files other (Function.update s.phases opener phase other) := by
  by_cases same : other = opener
  · subst same
    rwa [Function.update_self]
  · rw [Function.update_of_ne same]
    exact others other same

theorem Inv.apply {move : Move} (inv : Inv codec bincode family store s)
    (allowed : Allowed codec bincode family store s opener move) (applied : s.apply opener move = some s') :
    Inv codec bincode family store s' := by
  cases allowed with
  | «to» fits =>
      cases applied
      exact ⟨inv.frozen, fits_update fits fun other _ => inv.fits other⟩
  | locked fits =>
      simp only [State.apply] at applied
      split at applied
      · cases applied
      · rename_i free
        cases applied
        refine ⟨inv.frozen, fits_update fits fun other _ => (inv.fits other).mono fun held => ?_⟩
        simp [held] at free
  | ended fits =>
      cases applied
      exact ⟨inv.frozen, fits_update (fits _) fun other differ => (inv.fits other).mono (freed_other differ)⟩
  | committed holding planned fits =>
      cases applied
      have converted := converted_of_plan planned (holding.same ▸ holding.marked)
      rw [← holding.same] at converted
      refine ⟨.inr converted.after, fits_update (fits _ _ converted.after) fun other differ => ?_⟩
      refine (inv.fits other).converted (freed_other differ) converted.after fun theirs => ?_
      exact differ (Option.some.inj (theirs.locked.symm.trans holding.locked))

end Wamux.Proof.BincodeUpgrade
