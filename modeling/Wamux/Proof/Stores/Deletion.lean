import Wamux.Proof.Stores.Isolation

namespace Wamux.Proof.Stores
open Wamux.Stores Runs Runs.Tables
open Wamux.Encryption (Bytes DeviceId Crypto BlobCipher Nonce Engine StoreError)
open Wamux.BatchedWrites (ToJson)
open Wamux.Proof.Encryption (openLetter)

variable {info : Type} {crypto : Crypto} {cipher : BlobCipher} {toJson : ToJson info} {engine : Engine} {device : DeviceId}
  {nonces : Nat → Option Nonce} {now : Int64} {write : Write info} {statement : Statement Key Row} {event : Event info}
  {account : Account} {db after later : Database}

/-- Of every state: a row references an account, no id is above the highest handed out, and no two accounts share one. -/
structure Sound (db : Database) : Prop where
  owned : ∀ key, (db.rows.lookup key).isSome → db.hasAccount key.device
  below : ∀ account ∈ db.accounts, account.device.toInt ≤ db.sequence
  distinct : ∀ account ∈ db.accounts, ∀ other ∈ db.accounts, other.device = account.device → other = account

theorem hasAccount_iff : db.hasAccount device = true ↔ ∃ account ∈ db.accounts, account.device = device := by
  simp [Database.hasAccount]

namespace Sound

theorem execute (sound : Sound db) (ran : db.execute statement = some after) : Sound after := by
  obtain ⟨permitted, rfl⟩ := execute_eq ran
  refine ⟨fun key held => ?_, sound.below, sound.distinct⟩
  show db.hasAccount key.device
  rw [statement.lookup_run] at held
  cases statement with
  | upsert at' new onConflict =>
      simp only [Statement.on] at held
      split at held
      · -- a row that is not there yet is inserted under an account only
        rename_i here
        subst here
        cases found : db.rows.lookup key with
        | none => simpa [Database.refuses, found] using permitted
        | some row => exact sound.owned key (by rw [found]; rfl)
      · exact sound.owned key held
  | update when set =>
      simp only [Statement.on, Option.isSome_map] at held
      exact sound.owned key held
  | delete when => exact sound.owned key (Option.isSome_of_isSome_filter _ _ held)

theorem insertAccount (sound : Sound db) (ran : db.insertAccount account = some after) : Sound after := by
  simp only [Database.insertAccount, Option.ite_none_right_eq_some, Option.some.injEq] at ran
  obtain ⟨⟨above, -⟩, rfl⟩ := ran
  have fresh {other : Account} (member : other ∈ db.accounts) : other.device ≠ account.device := by
    intro same
    have below := sound.below other member
    rw [same] at below
    omega
  constructor
  · intro key held
    obtain ⟨other, member, here⟩ := hasAccount_iff.1 (sound.owned key held)
    exact hasAccount_iff.2 ⟨other, List.mem_append_left _ member, here⟩
  · intro other member
    rcases List.mem_append.1 member with before | new
    · exact Int.le_trans (sound.below other before) (Int.le_of_lt above)
    · rw [List.mem_singleton.1 new]
  · intro other member other' member' same
    rcases List.mem_append.1 member with before | new <;> rcases List.mem_append.1 member' with before' | new'
    · exact sound.distinct other before other' before' same
    · rw [List.mem_singleton.1 new'] at same
      exact absurd same.symm (fresh before)
    · rw [List.mem_singleton.1 new] at same
      exact absurd same (fresh before')
    · rw [List.mem_singleton.1 new, List.mem_singleton.1 new']

theorem deleteAccount (sound : Sound db) (uuid : String) : Sound (db.deleteAccount uuid) where
  owned := by
    intro key held
    rw [lookup_deleteAccount] at held
    split at held
    · cases held
    · rename_i spared
      obtain ⟨account, member, here⟩ := hasAccount_iff.1 (sound.owned key held)
      have other : account.uuid ≠ uuid := fun same => spared ⟨account, member, same, here⟩
      exact hasAccount_iff.2 ⟨account, List.mem_filter.2 ⟨member, decide_eq_true other⟩, here⟩
  below := fun account member => sound.below account (List.mem_of_mem_filter member)
  distinct := fun account member other member' =>
    sound.distinct account (List.mem_of_mem_filter member) other (List.mem_of_mem_filter member')

theorem step (sound : Sound db) (moved : step crypto cipher toJson engine db event = some after) : Sound after := by
  cases event with
  | createAccount account => exact sound.insertAccount moved
  | deleteAccount uuid =>
      cases moved
      exact sound.deleteAccount uuid
  | call device nonces now write => exact call_keeps Sound sound (fun _ _ _ sound => sound.execute) moved

end Sound

theorem sound_empty : Sound .empty := by
  refine ⟨fun key held => ?_, List.forall_mem_nil _, List.forall_mem_nil _⟩
  cases held

theorem sound_of_reaches (reaches : (machine crypto cipher toJson engine).Reaches Machine.Free db) : Sound db :=
  reaches.invariant Sound sound_empty fun _ _ _ sound _ moved => sound.step moved

structure Gone (device : DeviceId) (db : Database) : Prop where
  below : device.toInt ≤ db.sequence
  missing : db.hasAccount device = false

theorem Gone.step (gone : Gone device db) (moved : step crypto cipher toJson engine db event = some after) :
    Gone device after := by
  have grows := (step_created moved).1
  refine ⟨Int.le_trans gone.below grows, ?_⟩
  have missing := gone.missing
  have below := gone.below
  cases event with
  | createAccount account =>
      have above := ((step_created moved).2 account rfl).1
      simp only [Wamux.Stores.step, Database.insertAccount, Option.ite_none_right_eq_some, Option.some.injEq] at moved
      obtain ⟨-, rfl⟩ := moved
      have other : account.device ≠ device := by
        rintro rfl
        omega
      simpa [Database.hasAccount, other] using missing
  | deleteAccount uuid =>
      cases moved
      simp only [Database.hasAccount, Database.deleteAccount, List.any_eq_false, List.mem_filter] at missing ⊢
      exact fun account member => missing account member.1
  | call device' nonces now write =>
      rw [Database.hasAccount, (call_accounts moved).1]
      exact missing

theorem fetch_nothing {read : Read} {rows : Rows} {answer : Except StoreError (List (Name × Row))}
    (nothing : ∀ name, rows.lookup ⟨device, name⟩ = none) :
    read.MayFetch crypto cipher device rows answer ↔ answer = .ok [] := by
  have empty {entries : List (Σ _ : Key, Row)} (order : entries.Perm rows.entries) :
      read.fetch crypto cipher device entries = .ok [] := by
    have none' : entries.filter (fun entry => entry.1.device = device && read.chooses entry.1.name entry.2) = [] := by
      rw [List.filter_eq_nil_iff]
      rintro ⟨⟨device', name⟩, row⟩ member chosen
      obtain rfl : device' = device := of_decide_eq_true (Bool.and_eq_true_iff.1 chosen).1
      have here := Table.mem_entries.1 (order.mem_iff.1 member)
      rw [nothing] at here
      cases here
    rw [Read.fetch, none']
    rfl
  constructor
  · rintro ⟨entries, order, rfl⟩
    exact empty order
  · rintro rfl
    exact ⟨rows.entries, .refl _, empty (.refl _)⟩

/-- In every state every row is an account's. Once an account is deleted no later state has its device id, and
what is read under it is nothing, whatever is called meanwhile. -/
theorem deleted_for_good (crypto : Crypto) (cipher : BlobCipher) (toJson : ToJson info) (engine : Engine)
    (reaches : (machine crypto cipher toJson engine).Reaches Machine.Free db) :
    (∀ key row, db.rows.lookup key = some row → ∃ account ∈ db.accounts, account.device = key.device) ∧
    ∀ account ∈ db.accounts, ∀ later,
      (machine crypto cipher toJson engine).Leads Machine.Free (db.deleteAccount account.uuid) later →
      (∀ other ∈ later.accounts, other.device ≠ account.device) ∧
      ∀ read answer, Read.MayFetch crypto cipher account.device read later.rows answer ↔ answer = .ok [] := by
  have sound := sound_of_reaches reaches
  refine ⟨?_, ?_⟩
  · intro key row held
    exact hasAccount_iff.1 (sound.owned key (by rw [held]; rfl))
  intro account member later leads
  have deleted : (machine crypto cipher toJson engine).Reaches Machine.Free (db.deleteAccount account.uuid) :=
    .next (e := .deleteAccount account.uuid) reaches trivial rfl
  have gone : Gone account.device (db.deleteAccount account.uuid) := by
    refine ⟨sound.below account member, ?_⟩
    simp only [Database.hasAccount, Database.deleteAccount, List.any_eq_false, List.mem_filter, decide_eq_true_eq]
    rintro other ⟨present, different⟩ same
    rw [sound.distinct account member other present same] at different
    exact different rfl
  have gone : Gone account.device later :=
    leads.stable (Gone account.device) deleted gone fun _ _ _ _ gone _ moved => gone.step moved
  have nothing (name : Name) : later.rows.lookup ⟨account.device, name⟩ = none := by
    by_contra present
    have held := (sound_of_reaches (leads.reaches deleted)).owned _ (Option.isSome_iff_ne_none.2 present)
    rw [gone.missing] at held
    cases held
  refine ⟨?_, fun read answer => fetch_nothing nothing⟩
  intro other present same
  have missing := gone.missing
  rw [hasAccount_iff.2 ⟨other, present, same⟩] at missing
  cases missing

theorem deleted_for_good_twoAccounts : ∃ db,
    (machine openLetter .passthrough (fun _ => .ok "[]") .sqlite : Machine Database (Event Unit)).Reaches Machine.Free db ∧
    (db.rows.lookup ⟨2, .sealed (.session "x")⟩).isSome ∧
    ∀ read answer, Read.MayFetch openLetter .passthrough 2 read (db.deleteAccount "b").rows answer ↔ answer = .ok [] := by
  obtain ⟨db, reaches, passes⟩ := Machine.reaches_of_replay
    (m := (machine openLetter .passthrough (fun _ => .ok "[]") .sqlite : Machine Database (Event Unit))) Machine.free_sound
    (fun db => (db.rows.lookup ⟨2, .sealed (.session "x")⟩).isSome && decide (⟨"b", some "ref", 2⟩ ∈ db.accounts))
    twoAccounts.dropLast (by decide +kernel)
  rw [Bool.and_eq_true] at passes
  have nothing := (deleted_for_good openLetter .passthrough (fun _ => .ok "[]") .sqlite reaches).2 ⟨"b", some "ref", 2⟩
    (of_decide_eq_true passes.2) _ .here
  exact ⟨db, reaches, passes.1, nothing.2⟩

end Wamux.Proof.Stores
