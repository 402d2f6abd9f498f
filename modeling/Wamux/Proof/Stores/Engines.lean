import Wamux.Proof.Stores.History

namespace Wamux.Proof.Stores
open Wamux.Stores Runs Runs.Tables
open Wamux.Encryption (Bytes DeviceId Crypto BlobCipher Nonce Engine StoreError)
open Wamux.BatchedWrites (ToJson)
open Wamux.Proof.Encryption (openLetter)

variable {info : Type} {crypto : Crypto} {cipher : BlobCipher} {toJson : ToJson info} {engine engine' : Engine} {device : DeviceId}
  {nonces : Nat → Option Nonce} {now : Int64} {write : Write info} {statements statements' : List (Statement Key Row)}
  {db db' after : Database} {events : List (Event info)}

theorem onAll_markEach {ids : List UInt32} {key : Key} {found : Option Row} :
    onAll (ids.map fun id => Statements.markPrekeyUploaded device id.toInt32) key found =
      (Statements.markPrekeysUploaded device (ids.map (·.toInt32))).on key found := by
  induction ids generalizing found with
  | nil => cases found <;> simp [onAll, Statements.markPrekeysUploaded, Statement.on]
  | cons id rest ih =>
      show onAll (rest.map fun id => Statements.markPrekeyUploaded device id.toInt32) key
        ((Statements.markPrekeyUploaded device id.toInt32).on key found) = _
      rw [ih]
      cases found with
      | none => rfl
      | some row =>
          by_cases owner : key.device = device <;> by_cases here : key.name = .sealed (.prekey id) <;>
            simp [Statements.markPrekeysUploaded, Statements.markPrekeyUploaded, Statement.on, owner, here, Statements.uploadedRow]

theorem onAll_markUploaded (engine engine' : Engine) {ids : List UInt32} {key : Key} {found : Option Row} :
    onAll (markUploaded engine device ids) key found = onAll (markUploaded engine' device ids) key found := by
  have each (engine : Engine) : onAll (markUploaded engine device ids) key found =
      onAll (ids.map fun id => Statements.markPrekeyUploaded device id.toInt32) key found := by
    unfold markUploaded
    split
    · rename_i empty
      rw [List.isEmpty_iff.1 empty]
      rfl
    · cases engine with
      | pg => exact onAll_markEach.symm
      | sqlite => rfl
  rw [each, each]

structure SameRows (db db' : Database) : Prop where
  accounts : db'.accounts = db.accounts
  sequence : db'.sequence = db.sequence
  rows : ∀ key, db.rows.lookup key = db'.rows.lookup key

namespace SameRows

theorem execute {statement : Statement Key Row} (same : SameRows db db') :
    Option.Rel SameRows (db.execute statement) (db'.execute statement) := by
  have refuses : db.refuses statement = db'.refuses statement := by
    cases statement with
    | upsert key new onConflict => simp only [Database.refuses, Database.hasAccount, same.accounts, same.rows]
    | update | delete => rfl
  rw [Database.execute, Database.execute, refuses]
  split
  · exact .none
  · refine .some ⟨same.accounts, same.sequence, fun key => ?_⟩
    rw [statement.lookup_run, statement.lookup_run, same.rows]

theorem executeAll (same : SameRows db db') :
    Option.Rel SameRows (statements.foldlM Database.execute db) (statements.foldlM Database.execute db') := by
  induction statements generalizing db db' with
  | nil => exact .some same
  | cons first rest ih =>
      rw [List.foldlM_cons, List.foldlM_cons]
      have here : Option.Rel SameRows (db.execute first) (db'.execute first) := same.execute
      generalize db.execute first = middle, db'.execute first = middle' at here
      cases here with
      | none => exact .none
      | some same => exact ih same

end SameRows

theorem executeAll_updates (updates : ∀ statement ∈ statements, ∀ db : Database, db.refuses statement = false) :
    statements.foldlM Database.execute db = some { db with rows := runAll statements db.rows } := by
  induction statements generalizing db with
  | nil => rfl
  | cons first rest ih =>
      rw [List.forall_mem_cons] at updates
      have executed : db.execute first = some { db with rows := first.run db.rows } := by
        simp [Database.execute, updates.1 db]
      rw [List.foldlM_cons, executed]
      exact ih updates.2

theorem markUploaded_updates {ids : List UInt32} :
    ∀ statement ∈ markUploaded engine device ids, ∀ db : Database, db.refuses statement = false :=
  all_markUploaded (fun _ => rfl) fun _ _ => rfl

theorem prepare_engines {rows : Rows} (unmarked : ∀ ids, write ≠ .markPrekeysUploaded ids) :
    write.prepare crypto cipher toJson engine device nonces now rows =
      write.prepare crypto cipher toJson engine' device nonces now rows := by
  cases write with
  | markPrekeysUploaded ids => exact absurd rfl (unmarked ids)
  | _ => rfl

theorem SameRows.call (same : SameRows db db') (ran : db.call crypto cipher toJson engine device nonces now write = some after) :
    ∃ after', db'.call crypto cipher toJson engine' device nonces now write = some after' ∧ SameRows after after' := by
  by_cases marks : ∃ ids, write = .markPrekeysUploaded ids
  · obtain ⟨ids, rfl⟩ := marks
    replace ran : (markUploaded engine device ids).foldlM Database.execute db = some after := ran
    rw [executeAll_updates markUploaded_updates] at ran
    cases ran
    refine ⟨_, executeAll_updates markUploaded_updates, same.accounts, same.sequence, fun key => ?_⟩
    rw [lookup_runAll, lookup_runAll, onAll_markUploaded engine engine', same.rows]
  · rw [Database.call, prepare_engines (fun ids marked => marks ⟨ids, marked⟩), prepare_congr fun name => same.rows ⟨device, name⟩] at ran
    rw [Database.call]
    generalize write.prepare crypto cipher toJson engine' device nonces now db'.rows = prepared at ran ⊢
    cases prepared with
    | error e => cases ran
    | ok statements => exact rel_some same.executeAll ran

theorem SameRows.step {event : Event info} (same : SameRows db db')
    (moved : step crypto cipher toJson engine db event = some after) :
    ∃ after', Wamux.Stores.step crypto cipher toJson engine' db' event = some after' ∧ SameRows after after' := by
  cases event with
  | createAccount account =>
      simp only [Wamux.Stores.step, Database.insertAccount, same.accounts, same.sequence] at moved ⊢
      split at moved
      · rename_i permitted
        cases moved
        exact ⟨_, if_pos permitted, rfl, rfl, same.rows⟩
      · cases moved
  | deleteAccount uuid =>
      cases moved
      refine ⟨_, rfl, ?_, same.sequence, fun key => ?_⟩
      · rw [Database.deleteAccount, Database.deleteAccount, same.accounts]
      · rw [lookup_deleteAccount, lookup_deleteAccount, same.accounts, same.rows]
  | call device nonces now write => exact same.call moved

/-- What succeeds on one engine succeeds on the other, and leaves the same accounts, rows and answers. -/
theorem engines_agree (ran : run crypto cipher toJson engine events = some db) (engine' : Engine) :
    ∃ db', run crypto cipher toJson engine' events = some db' ∧ db'.accounts = db.accounts ∧
      (∀ key, db.rows.lookup key = db'.rows.lookup key) ∧
      ∀ device read answer, Read.MayFetch crypto cipher device read db.rows answer ↔
        Read.MayFetch crypto cipher device read db'.rows answer := by
  obtain ⟨db', ran', same⟩ : ∃ db', run crypto cipher toJson engine' events = some db' ∧ SameRows db db' := by
    induction events using List.reverseRecOn generalizing db with
    | nil =>
        cases ran
        exact ⟨_, rfl, rfl, rfl, fun _ => rfl⟩
    | append_singleton before event ih =>
        obtain ⟨middle, earlier, moved⟩ := run_append.1 ran
        obtain ⟨middle', earlier', same⟩ := ih earlier
        obtain ⟨db', moved', same⟩ := same.step moved
        exact ⟨db', run_append.2 ⟨middle', earlier', moved'⟩, same⟩
  refine ⟨db', ran', same.accounts, same.rows, fun device read answer => ?_⟩
  exact ⟨mayFetch_of_same fun name => same.rows ⟨device, name⟩, mayFetch_of_same fun name => (same.rows ⟨device, name⟩).symm⟩

def marked : List (Event Unit) :=
  [.createAccount ⟨"a", none, 1⟩, .call 1 (fun _ => none) 1 (.storePrekeys [(1, [1]), (2, [2])] false),
    .call 1 (fun _ => none) 2 (.removePrekey 2), .call 1 (fun _ => none) 3 (.markPrekeysUploaded [1, 2, 1, 4294967295])]

theorem engines_agree_marked : ∃ db db', run openLetter .passthrough (fun _ => .ok "[]") .pg marked = some db ∧
    run openLetter .passthrough (fun _ => .ok "[]") .sqlite marked = some db' ∧
    ∀ key, db.rows.lookup key = db'.rows.lookup key := by
  obtain ⟨db, ran⟩ : ∃ db, run openLetter .passthrough (fun _ => .ok "[]") .pg marked = some db :=
    Option.isSome_iff_exists.1 (by decide +kernel)
  obtain ⟨db', ran', _, rows, _⟩ := engines_agree ran .sqlite
  exact ⟨db, db', ran, ran', rows⟩

end Wamux.Proof.Stores
