import Wamux.Proof.Stores.History

namespace Wamux.Proof.Stores
open Wamux.Stores Runs Runs.Tables Runs.Failing
open Wamux.Encryption (Bytes DeviceId Crypto BlobCipher Nonce Engine StoreError)
open Wamux.BatchedWrites (ToJson LidPnMappingEntry)
open Wamux.Proof.Encryption (openLetter)

variable {info : Type} {crypto : Crypto} {cipher : BlobCipher} {toJson : ToJson info} {engine : Engine} {device : DeviceId}
  {account : Account} {db : Database} {events : List (Event info)}

/-! ## Sender-key devices -/

abbrev Statuses := String → String → Option Bool

def setStatus (groupJid : String) (known : Statuses) (entry : String × Bool) : Statuses := fun group jid =>
  if group = groupJid ∧ jid = entry.1 then some entry.2 else known group jid

def statuses (known : Statuses) (_ : Int64) : Write info → Statuses
  | .setSenderKeyStatus groupJid entries => entries.foldl (setStatus groupJid) known
  | .clearSenderKeyDevices groupJid => fun group jid => if group = groupJid then none else known group jid
  | .deleteSenderKeyDeviceRows deviceJids => fun group jid => if jid ∈ deviceJids then none else known group jid
  | .clearAllSenderKeyDevices => fun _ _ => none
  | _ => known

def statusRow (hasKey : Bool) : Row := ⟨[], .senderKeyDevice (if hasKey then 1 else 0)⟩

theorem statusRow_injective : Function.Injective statusRow := by
  intro hasKey hasKey' same
  cases hasKey <;> cases hasKey' <;> simp_all [statusRow]

def HoldsStatuses (view : Name → Option Row) (known : Statuses) : Prop :=
  ∀ groupJid deviceJid, view (.senderKeyDevice groupJid deviceJid) = (known groupJid deviceJid).map statusRow

theorem onAll_setStatus {groupJid : String} {entries : List (String × Bool)} {known : Statuses} {group jid : String} :
    onAll (entries.map (statusStatement device groupJid)) ⟨device, .senderKeyDevice group jid⟩ ((known group jid).map statusRow) =
      (entries.foldl (setStatus groupJid) known group jid).map statusRow := by
  induction entries generalizing known with
  | nil => rfl
  | cons entry rest ih =>
      have first : (statusStatement device groupJid entry).on ⟨device, .senderKeyDevice group jid⟩ ((known group jid).map statusRow) =
          (setStatus groupJid known entry group jid).map statusRow := by
        rw [statusStatement, Statements.setSenderKeyStatus, on_replace, setStatus]
        by_cases here : group = groupJid ∧ jid = entry.1
        · rw [if_pos here, if_pos (by rw [here.1, here.2])]
          rfl
        · rw [if_neg here, if_neg (by simpa using here)]
      show onAll (rest.map (statusStatement device groupJid)) _ ((statusStatement device groupJid entry).on _ _) = _
      rw [first, ih]
      rfl

theorem on_clear {when : String → String → Bool} {group jid : String} {found : Option Row} :
    (Statement.delete fun (key : Key) (_ : Row) => Statements.isSenderKeyDevice when key.name ∧ key.device = device).on
      ⟨device, .senderKeyDevice group jid⟩ found = if when group jid then none else found := by
  cases found with
  | none => exact (ite_self none).symm
  | some row => cases cleared : when group jid <;> simp [Statement.on, Statements.isSenderKeyDevice, cleared]

theorem onAll_deleteStatus {deviceJids : List String} {group jid : String} {found : Option Row} :
    onAll (deviceJids.map (Statements.deleteSenderKeyDeviceRow device)) ⟨device, .senderKeyDevice group jid⟩ found =
      if jid ∈ deviceJids then none else found := by
  induction deviceJids generalizing found with
  | nil => rfl
  | cons deviceJid rest ih =>
      show onAll (rest.map (Statements.deleteSenderKeyDeviceRow device)) _ ((Statements.deleteSenderKeyDeviceRow device deviceJid).on _ _) = _
      rw [ih, Statements.deleteSenderKeyDeviceRow, on_clear]
      by_cases here : jid = deviceJid <;> simp [here]

theorem run_statuses (ran : run crypto cipher toJson engine events = some db) (created : .createAccount account ∈ events) :
    HoldsStatuses (fun name => db.rows.lookup ⟨account.device, name⟩)
      (events.foldl (remembered statuses (fun _ _ => none) account) fun _ _ => none) := by
  refine run_remembers HoldsStatuses (fun _ _ => rfl) ?_ ran created (fun _ member => member) ran
  intro rows view known nonces now write statements held prepared looks group jid
  replace held := held group jid
  simp only at held
  rw [looks, held]
  cases write with
  | setSenderKeyStatus =>
      cases prepared
      exact onAll_setStatus
  | deleteSenderKeyDeviceRows deviceJids =>
      cases prepared
      rw [onAll_deleteStatus]
      by_cases here : jid ∈ deviceJids <;> simp [statuses, here]
  | clearSenderKeyDevices groupJid =>
      cases prepared
      show (Statements.clearSenderKeyDevices account.device groupJid).on _ _ = _
      rw [Statements.clearSenderKeyDevices, on_clear]
      by_cases here : group = groupJid <;> simp [statuses, here]
  | clearAllSenderKeyDevices =>
      cases prepared
      show (Statements.clearAllSenderKeyDevices account.device).on _ _ = _
      rw [Statements.clearAllSenderKeyDevices, on_clear]
      rfl
  | _ => exact untouched (by simp [Name.table, writtenTables]) prepared

/-- A group's devices are answered once each, with the status that was set last since they were cleared. -/
theorem senderKeyDevices_last (ran : run crypto cipher toJson engine events = some db)
    (created : .createAccount account ∈ events) {groupJid : String} {answer : Except StoreError (List (Name × Row))}
    (fetched : Read.MayFetch crypto cipher account.device (.getSenderKeyDevices groupJid) db.rows answer) :
    ∃ devices, answer.map (List.filterMap senderKeyDevice) = .ok devices ∧ (devices.map Prod.fst).Nodup ∧
      ∀ deviceJid hasKey, (deviceJid, hasKey) ∈ devices ↔
        events.foldl (remembered statuses (fun _ _ => none) account) (fun _ _ => none) groupJid deviceJid = some hasKey := by
  have held : ∀ group jid, db.rows.lookup ⟨account.device, .senderKeyDevice group jid⟩ = _ := run_statuses ran created
  generalize events.foldl (remembered statuses (fun _ _ => none) account) (fun _ _ => none) = known at held ⊢
  obtain ⟨found, rfl, unique, members⟩ := fetched_unsealed (fun _ _ => rfl) fetched
  let entry (device : String × Bool) : Name × Row := (.senderKeyDevice groupJid device.1, statusRow device.2)
  have shape : ∀ pair ∈ found, ∃ device, pair = entry device := by
    rintro ⟨name, row⟩ member
    obtain ⟨present, chosen⟩ := (members name row).1 member
    cases name with
    | senderKeyDevice group deviceJid =>
        obtain rfl : group = groupJid := of_decide_eq_true chosen
        rw [held, Option.map_eq_some_iff] at present
        obtain ⟨hasKey, _, rfl⟩ := present
        exact ⟨(deviceJid, hasKey), rfl⟩
    | sealed | lidPnMapping | deviceRegistry => cases chosen
  have shown (device : String × Bool) : senderKeyDevice (entry device) = some device := by
    obtain ⟨deviceJid, hasKey⟩ := device
    cases hasKey <;> rfl
  refine ⟨_, rfl, ?_, ?_⟩
  · rw [← filterMap_found shape shown, List.map_map] at unique
    refine List.Nodup.of_map (Name.senderKeyDevice groupJid) ?_
    rw [List.map_map]
    exact unique
  · intro deviceJid hasKey
    rw [mem_filterMap_found shape shown, members, held]
    simp [Read.chooses, Statements.isSenderKeyDevice, statusRow_injective.eq_iff]

def distributed : List (Event Unit) :=
  [.createAccount ⟨"a", none, 1⟩, .call 1 (fun _ => none) 1 (.setSenderKeyStatus "group" [("x", true), ("y", true), ("x", false)]),
    .call 1 (fun _ => none) 2 (.deleteSenderKeyDeviceRows ["y"])]

theorem senderKeyDevices_last_distributed : ∃ db,
    run openLetter .passthrough (fun _ => .ok "[]") .sqlite distributed = some db ∧
    ∀ answer, Read.MayFetch openLetter .passthrough 1 (.getSenderKeyDevices "group") db.rows answer →
      ∃ devices, answer.map (List.filterMap senderKeyDevice) = .ok devices ∧ ("x", false) ∈ devices := by
  obtain ⟨db, ran⟩ : ∃ db, run openLetter .passthrough (fun _ => .ok "[]") .sqlite distributed = some db :=
    Option.isSome_iff_exists.1 (by decide +kernel)
  refine ⟨db, ran, fun answer fetched => ?_⟩
  obtain ⟨devices, ok, _, members⟩ := senderKeyDevices_last ran (.head _) fetched
  exact ⟨devices, ok, (members "x" false).2 (by decide)⟩

/-! ## LID mappings -/

abbrev Mappings := String → Option LidPnMappingEntry

def learn (known : Mappings) (entry : LidPnMappingEntry) : Mappings := fun lid =>
  if lid = entry.lid then some { entry with createdAt := ((known lid).map (·.createdAt)).getD entry.createdAt } else known lid

def mappings (known : Mappings) (_ : Int64) : Write info → Mappings
  | .putLidMapping entry => learn known entry
  | .putLidMappings entries => entries.foldl learn known
  | _ => known

def mappingRow (entry : LidPnMappingEntry) : Row :=
  ⟨[], .lidPnMapping entry.phoneNumber entry.createdAt entry.learningSource entry.updatedAt⟩

def HoldsMappings (view : Name → Option Row) (known : Mappings) : Prop :=
  (∀ lid, view (.lidPnMapping lid) = (known lid).map mappingRow) ∧ ∀ lid entry, known lid = some entry → entry.lid = lid

theorem learn_lid {known : Mappings} {entry : LidPnMappingEntry} (named : ∀ lid entry, known lid = some entry → entry.lid = lid) :
    ∀ lid entry', learn known entry lid = some entry' → entry'.lid = lid := by
  intro lid entry' learned
  unfold learn at learned
  split at learned
  · rename_i here
    cases learned
    exact here.symm
  · exact named lid entry' learned

theorem on_lidStatement {known : Mappings} {entry : LidPnMappingEntry} {lid : String} :
    (lidStatement device entry).on ⟨device, .lidPnMapping lid⟩ ((known lid).map mappingRow) =
      (learn known entry lid).map mappingRow := by
  by_cases here : lid = entry.lid
  · subst here
    cases found : known entry.lid <;> simp [lidStatement, Statements.putLidMapping, Statement.on, learn, mappingRow, found]
  · simp [lidStatement, Statements.putLidMapping, Statement.on, learn, here]

theorem onAll_lidStatements {entries : List LidPnMappingEntry} {known : Mappings} {lid : String} :
    onAll (entries.map (lidStatement device)) ⟨device, .lidPnMapping lid⟩ ((known lid).map mappingRow) =
      (entries.foldl learn known lid).map mappingRow := by
  induction entries generalizing known with
  | nil => rfl
  | cons entry rest ih =>
      show onAll (rest.map (lidStatement device)) _ ((lidStatement device entry).on _ _) = _
      rw [on_lidStatement, ih]
      rfl

theorem foldl_learn_lid {entries : List LidPnMappingEntry} {known : Mappings}
    (named : ∀ lid entry, known lid = some entry → entry.lid = lid) :
    ∀ lid entry, entries.foldl learn known lid = some entry → entry.lid = lid := by
  induction entries generalizing known with
  | nil => exact named
  | cons entry rest ih => exact ih (learn_lid named)

theorem run_mappings (ran : run crypto cipher toJson engine events = some db) (created : .createAccount account ∈ events) :
    HoldsMappings (fun name => db.rows.lookup ⟨account.device, name⟩)
      (events.foldl (remembered mappings (fun _ => none) account) fun _ => none) := by
  refine run_remembers HoldsMappings ⟨fun _ => rfl, by simp⟩ ?_ ran created (fun _ member => member) ran
  rintro rows view known nonces now write statements ⟨held, named⟩ prepared looks
  simp only at held
  cases write with
  | putLidMapping entry =>
      cases prepared
      refine ⟨fun lid => ?_, learn_lid named⟩
      rw [looks, held]
      exact on_lidStatement
  | putLidMappings entries =>
      cases prepared
      refine ⟨fun lid => ?_, foldl_learn_lid named⟩
      rw [looks, held]
      exact onAll_lidStatements
  | _ =>
      refine ⟨fun lid => ?_, named⟩
      rw [looks, held]
      exact untouched (by simp [Name.table, writtenTables]) prepared

theorem fetched_mappings {read : Read} (wanted : LidPnMappingEntry → Bool) {known : Mappings} {rows : Rows}
    (held : HoldsMappings (fun name => rows.lookup ⟨device, name⟩) known)
    (only : ∀ name row, read.chooses name row = true → ∃ lid, name = .lidPnMapping lid)
    (wants : ∀ entry, read.chooses (.lidPnMapping entry.lid) (mappingRow entry) = wanted entry)
    {answer : Except StoreError (List (Name × Row))} (fetched : read.MayFetch crypto cipher device rows answer) :
    ∃ entries, answer.map (List.filterMap lidEntry) = .ok entries ∧ (entries.map (·.lid)).Nodup ∧
      ∀ entry, entry ∈ entries ↔ known entry.lid = some entry ∧ wanted entry = true := by
  obtain ⟨held, named⟩ := held
  simp only at held
  have unsealed (slot : Encryption.Tables.Slot) (row : Row) : read.chooses (.sealed slot) row = false := by
    refine eq_false_of_ne_true fun chosen => ?_
    obtain ⟨lid, here⟩ := only _ _ chosen
    cases here
  obtain ⟨found, rfl, unique, members⟩ := fetched_unsealed unsealed fetched
  let entry (mapping : LidPnMappingEntry) : Name × Row := (.lidPnMapping mapping.lid, mappingRow mapping)
  have shape : ∀ pair ∈ found, ∃ mapping, pair = entry mapping := by
    rintro ⟨name, row⟩ member
    obtain ⟨present, chosen⟩ := (members name row).1 member
    obtain ⟨lid, rfl⟩ := only name row chosen
    rw [held, Option.map_eq_some_iff] at present
    obtain ⟨mapping, learned, rfl⟩ := present
    obtain rfl := named lid mapping learned
    exact ⟨mapping, rfl⟩
  have shown (mapping : LidPnMappingEntry) : lidEntry (entry mapping) = some mapping := rfl
  refine ⟨_, rfl, ?_, ?_⟩
  · rw [← filterMap_found shape shown, List.map_map] at unique
    refine List.Nodup.of_map Name.lidPnMapping ?_
    rw [List.map_map]
    exact unique
  · intro mapping
    rw [mem_filterMap_found shape shown, members, held, wants, Option.map_eq_some_iff]
    constructor
    · rintro ⟨⟨mapping', learned, same⟩, chosen⟩
      have lid := named _ _ learned
      have back := shown mapping'
      rw [show entry mapping' = entry mapping from Prod.ext (congrArg Name.lidPnMapping lid) same, shown] at back
      cases back
      exact ⟨learned, chosen⟩
    · rintro ⟨learned, chosen⟩
      exact ⟨⟨mapping, learned, rfl⟩, chosen⟩

theorem newest_eq_none {entries : List LidPnMappingEntry} (nothing : newest entries = none) : entries = [] := by
  by_contra present
  have found := List.isSome_maxOn?_iff (f := fun entry : LidPnMappingEntry => entry.updatedAt).2 present
  rw [newest] at nothing
  rw [nothing] at found
  cases found

theorem newest_eq_some {entries : List LidPnMappingEntry} {entry : LidPnMappingEntry} (found : newest entries = some entry) :
    entry ∈ entries ∧ ∀ other ∈ entries, other.updatedAt ≤ entry.updatedAt := by
  refine ⟨List.maxOn?_mem found, fun other member => ?_⟩
  have latest := List.le_apply_get_maxOn?_of_mem (f := fun entry : LidPnMappingEntry => entry.updatedAt) member
  rw [newest] at found
  simpa only [found, Option.get_some] using latest

section Answers
variable {known : Mappings} {rows : Rows} {answer : Except StoreError (List (Name × Row))}

theorem getLidMapping_answer {lid : String} (held : HoldsMappings (fun name => rows.lookup ⟨device, name⟩) known)
    (fetched : Read.MayFetch crypto cipher device (.getLidMapping lid) rows answer) :
    answer.map (List.filterMap lidEntry) = .ok (known lid).toList := by
  have only (name : Name) (row : Row) (chosen : (Read.getLidMapping lid).chooses name row = true) :
      ∃ lid, name = .lidPnMapping lid := ⟨lid, of_decide_eq_true chosen⟩
  obtain ⟨entries, ok, unique, members⟩ := fetched_mappings (fun entry => entry.lid = lid) held only
    (fun entry => by simp [Read.chooses]) fetched
  have same (entry : LidPnMappingEntry) : entry ∈ entries ↔ known lid = some entry := by
    rw [members, decide_eq_true_iff]
    constructor
    · rintro ⟨learned, rfl⟩
      exact learned
    · intro learned
      obtain rfl := held.2 lid entry learned
      exact ⟨learned, rfl⟩
  rw [ok]
  cases learned : known lid with
  | none =>
      have empty : entries = [] := by
        rw [List.eq_nil_iff_forall_not_mem]
        intro entry member
        rw [same, learned] at member
        cases member
      rw [empty]
      rfl
  | some entry =>
      have only : entries.Perm [entry] := by
        rw [List.perm_ext_iff_of_nodup (unique.of_map _) (List.nodup_singleton entry)]
        intro other
        rw [same, learned, List.mem_singleton, Option.some.injEq, eq_comm]
      rw [List.perm_singleton.1 only]
      rfl

theorem getAllLidMappings_answer (held : HoldsMappings (fun name => rows.lookup ⟨device, name⟩) known)
    (fetched : Read.MayFetch crypto cipher device .getAllLidMappings rows answer) :
    ∃ entries, answer.map (List.filterMap lidEntry) = .ok entries ∧ (entries.map (·.lid)).Nodup ∧
      ∀ entry, entry ∈ entries ↔ known entry.lid = some entry := by
  have only (name : Name) (row : Row) (chosen : Read.getAllLidMappings.chooses name row = true) :
      ∃ lid, name = .lidPnMapping lid := by
    cases name with
    | lidPnMapping lid => exact ⟨lid, rfl⟩
    | sealed | senderKeyDevice | deviceRegistry => cases chosen
  obtain ⟨entries, ok, unique, members⟩ := fetched_mappings (fun _ => true) held only (fun _ => rfl) fetched
  exact ⟨entries, ok, unique, fun entry => by simpa using members entry⟩

theorem getPnMapping_answer {phone : String} (held : HoldsMappings (fun name => rows.lookup ⟨device, name⟩) known)
    (fetched : Read.MayFetch crypto cipher device (.getPnMapping phone) rows answer) :
    ∃ entries, answer.map (List.filterMap lidEntry) = .ok entries ∧ match newest entries with
      | none => ∀ lid entry, known lid = some entry → entry.phoneNumber ≠ phone
      | some entry => known entry.lid = some entry ∧ entry.phoneNumber = phone ∧ ∀ lid other, known lid = some other →
          other.phoneNumber = phone → other.updatedAt ≤ entry.updatedAt := by
  have only (name : Name) (row : Row) (chosen : (Read.getPnMapping phone).chooses name row = true) :
      ∃ lid, name = .lidPnMapping lid := by
    cases name with
    | lidPnMapping lid => exact ⟨lid, rfl⟩
    | sealed | senderKeyDevice | deviceRegistry => cases chosen
  obtain ⟨entries, ok, _, members⟩ := fetched_mappings (fun entry => entry.phoneNumber = phone) held only (fun _ => rfl) fetched
  have listed (lid : String) (entry : LidPnMappingEntry) (learned : known lid = some entry) (same : entry.phoneNumber = phone) :
      entry ∈ entries := by
    obtain rfl := held.2 lid entry learned
    exact (members entry).2 ⟨learned, decide_eq_true same⟩
  refine ⟨entries, ok, ?_⟩
  cases latest : newest entries with
  | none =>
      intro lid entry learned same
      have member := listed lid entry learned same
      rw [newest_eq_none latest] at member
      cases member
  | some entry =>
      obtain ⟨member, above⟩ := newest_eq_some latest
      obtain ⟨learned, same⟩ := (members entry).1 member
      exact ⟨learned, of_decide_eq_true same, fun lid other learned' same' => above other (listed lid other learned' same')⟩

end Answers

/-- The mappings an account has answered from: each LID has the number and the time it was last given, and the
time it was first learned; a number's mapping is one with the latest time among those that have the number. -/
theorem mappings_answered (ran : run crypto cipher toJson engine events = some db) (created : .createAccount account ∈ events) :
    let known := events.foldl (remembered mappings (fun _ => none) account) fun _ => none
    (∀ lid answer, Read.MayFetch crypto cipher account.device (.getLidMapping lid) db.rows answer →
      answer.map (List.filterMap lidEntry) = .ok (known lid).toList) ∧
    (∀ answer, Read.MayFetch crypto cipher account.device .getAllLidMappings db.rows answer →
      ∃ entries, answer.map (List.filterMap lidEntry) = .ok entries ∧ (entries.map (·.lid)).Nodup ∧
        ∀ entry, entry ∈ entries ↔ known entry.lid = some entry) ∧
    ∀ phone answer, Read.MayFetch crypto cipher account.device (.getPnMapping phone) db.rows answer →
      ∃ entries, answer.map (List.filterMap lidEntry) = .ok entries ∧ match newest entries with
        | none => ∀ lid entry, known lid = some entry → entry.phoneNumber ≠ phone
        | some entry => known entry.lid = some entry ∧ entry.phoneNumber = phone ∧ ∀ lid other, known lid = some other →
            other.phoneNumber = phone → other.updatedAt ≤ entry.updatedAt := by
  have held := run_mappings ran created
  exact ⟨fun _ _ => getLidMapping_answer held, fun _ => getAllLidMappings_answer held, fun _ _ => getPnMapping_answer held⟩

def learnedTwice : List (Event Unit) :=
  [.createAccount ⟨"a", none, 1⟩, .call 1 (fun _ => none) 1 (.putLidMapping ⟨"x", "5", 10, 10, "usync"⟩),
    .call 1 (fun _ => none) 2 (.putLidMappings [⟨"y", "6", 20, 20, "usync"⟩, ⟨"x", "6", 30, 30, "peer"⟩])]

theorem mappings_answered_learnedTwice : ∃ db,
    run openLetter .passthrough (fun _ => .ok "[]") .sqlite learnedTwice = some db ∧
    ∀ answer, Read.MayFetch openLetter .passthrough 1 (.getLidMapping "x") db.rows answer →
      answer.map (List.filterMap lidEntry) = .ok [⟨"x", "6", 10, 30, "peer"⟩] := by
  obtain ⟨db, ran⟩ : ∃ db, run openLetter .passthrough (fun _ => .ok "[]") .sqlite learnedTwice = some db :=
    Option.isSome_iff_exists.1 (by decide +kernel)
  exact ⟨db, ran, fun answer fetched => (mappings_answered ran (.head _)).1 "x" answer fetched⟩

end Wamux.Proof.Stores
