import Mathlib.Data.List.Induction
import Wamux.Proof.Encryption.Cipher
import Wamux.Proof.Stores.Prepared

namespace Wamux.Proof.Stores
open Wamux.Stores Runs Runs.Tables Runs.Failing
open Wamux.Encryption (Bytes DeviceId Crypto BlobCipher Nonce Engine StoreError)
open Wamux.BatchedWrites (ToJson)
open Wamux.Proof.Encryption (openLetter)

variable {info : Type} {crypto : Crypto} {cipher : BlobCipher} {toJson : ToJson info} {engine : Engine} {device : DeviceId}
  {nonces : Nat → Option Nonce} {now : Int64} {write : Write info} {statement : Statement Key Row}
  {statements : List (Statement Key Row)} {account : Account} {db db' after : Database}

def concerns (account : Account) : Event info → Bool
  | .createAccount account' => account' = account
  | .deleteAccount uuid => uuid = account.uuid
  | .call device _ _ _ => device = account.device

structure Agree (account : Account) (db db' : Database) : Prop where
  rows : ∀ name, db.rows.lookup ⟨account.device, name⟩ = db'.rows.lookup ⟨account.device, name⟩
  accounts : db'.accounts = db.accounts.filter (·.device = account.device)
  sequence : db'.sequence ≤ db.sequence
  only : ∀ other ∈ db.accounts, other.device = account.device → other = account

namespace Agree

theorem hasAccount (agree : Agree account db db') : db.hasAccount account.device = db'.hasAccount account.device := by
  rw [Database.hasAccount, Database.hasAccount, agree.accounts, List.any_filter]
  simp

theorem refuses (agree : Agree account db db') (owned : OwnedBy account.device statement) :
    db.refuses statement = db'.refuses statement := by
  cases statement with
  | upsert key new onConflict =>
      obtain ⟨device, name⟩ := key
      obtain rfl : device = account.device := owned
      rw [Database.refuses, Database.refuses, agree.rows, agree.hasAccount]
  | update | delete => rfl

theorem execute (agree : Agree account db db') (owned : OwnedBy account.device statement) :
    Option.Rel (Agree account) (db.execute statement) (db'.execute statement) := by
  rw [Database.execute, Database.execute, ← agree.refuses owned]
  split
  · exact .none
  · refine .some ⟨fun name => ?_, agree.accounts, agree.sequence, agree.only⟩
    rw [statement.lookup_run, statement.lookup_run, agree.rows]

theorem execute_other (agree : Agree account db db') (owned : OwnedBy device statement) (other : device ≠ account.device)
    (ran : db.execute statement = some after) : Agree account after db' := by
  rw [Database.execute] at ran
  split at ran
  · cases ran
  · cases ran
    refine ⟨fun name => ?_, agree.accounts, agree.sequence, agree.only⟩
    rw [statement.lookup_run, owned.spares (Ne.symm other), agree.rows]

theorem executeAll (agree : Agree account db db') (owned : ∀ statement ∈ statements, OwnedBy account.device statement) :
    Option.Rel (Agree account) (statements.foldlM Database.execute db) (statements.foldlM Database.execute db') := by
  induction statements generalizing db db' with
  | nil => exact .some agree
  | cons first rest ih =>
      rw [List.forall_mem_cons] at owned
      rw [List.foldlM_cons, List.foldlM_cons]
      have here := agree.execute owned.1
      generalize db.execute first = after, db'.execute first = after' at here
      cases here with
      | none => exact .none
      | some agree => exact ih agree owned.2

theorem executeAll_other (agree : Agree account db db') (owned : ∀ statement ∈ statements, OwnedBy device statement)
    (other : device ≠ account.device) (ran : statements.foldlM Database.execute db = some after) :
    Agree account after db' := by
  induction statements generalizing db with
  | nil =>
      cases ran
      exact agree
  | cons first rest ih =>
      rw [List.forall_mem_cons] at owned
      rw [List.foldlM_cons, Option.bind_eq_bind, Option.bind_eq_some_iff] at ran
      obtain ⟨middle, first, ran⟩ := ran
      exact ih (agree.execute_other owned.1 other first) owned.2 ran

theorem call (agree : Agree account db db') :
    Option.Rel (Agree account) (db.call crypto cipher toJson engine account.device nonces now write)
      (db'.call crypto cipher toJson engine account.device nonces now write) := by
  rw [Database.call, Database.call, prepare_congr agree.rows]
  cases prepared : write.prepare crypto cipher toJson engine account.device nonces now db'.rows with
  | error e => exact .none
  | ok statements => exact agree.executeAll (prepare_owned prepared)

theorem call_other (agree : Agree account db db') (other : device ≠ account.device)
    (ran : db.call crypto cipher toJson engine device nonces now write = some after) : Agree account after db' := by
  rw [Database.call] at ran
  cases prepared : write.prepare crypto cipher toJson engine device nonces now db.rows with
  | error e =>
      rw [prepared] at ran
      cases ran
  | ok statements =>
      rw [prepared] at ran
      exact agree.executeAll_other (prepare_owned prepared) other ran

/-! ## Accounts -/

theorem insertAccount (agree : Agree account db db') (ran : db.insertAccount account = some after) :
    ∃ after', db'.insertAccount account = some after' ∧ Agree account after after' := by
  simp only [Database.insertAccount, Option.ite_none_right_eq_some, List.all_eq_true, Option.some.injEq] at ran
  obtain ⟨⟨above, uuid, externalRef⟩, rfl⟩ := ran
  have among {other : Account} (member : other ∈ db'.accounts) : other ∈ db.accounts := by
    rw [agree.accounts] at member
    exact List.mem_of_mem_filter member
  have permitted : db'.sequence < account.device.toInt ∧ (∀ other ∈ db'.accounts, decide (other.uuid ≠ account.uuid) = true) ∧
      ∀ other ∈ db'.accounts, decide (other.externalRef = none ∨ other.externalRef ≠ account.externalRef) = true :=
    ⟨Int.lt_of_le_of_lt agree.sequence above, fun other member => uuid other (among member),
      fun other member => externalRef other (among member)⟩
  refine ⟨_, by simpa only [Database.insertAccount, Option.ite_none_right_eq_some, List.all_eq_true] using ⟨permitted, rfl⟩, ?_⟩
  refine ⟨agree.rows, ?_, Int.le_refl _, ?_⟩
  · simp [agree.accounts]
  · intro other member same
    rcases List.mem_append.1 member with before | new
    · exact agree.only other before same
    · exact List.mem_singleton.1 new

theorem insertAccount_other {other : Account} (agree : Agree account db db') (different : other.device ≠ account.device)
    (ran : db.insertAccount other = some after) : Agree account after db' := by
  simp only [Database.insertAccount, Option.ite_none_right_eq_some, Option.some.injEq] at ran
  obtain ⟨⟨above, -⟩, rfl⟩ := ran
  refine ⟨agree.rows, ?_, Int.le_trans agree.sequence (Int.le_of_lt above), ?_⟩
  · simp [agree.accounts, different]
  · intro account' member same
    rcases List.mem_append.1 member with before | new
    · exact agree.only account' before same
    · rw [List.mem_singleton.1 new] at same
      exact absurd same different

end Agree

theorem onAll_deleteScoped {devices : List DeviceId} {key : Key} {found : Option Row} :
    onAll (devices.map Statements.deleteScoped) key found = if key.device ∈ devices then none else found := by
  induction devices generalizing found with
  | nil => rfl
  | cons first rest ih =>
      show onAll (rest.map Statements.deleteScoped) key ((Statements.deleteScoped first).on key found) = _
      rw [ih]
      by_cases here : key.device = first <;> cases found <;> simp [Statements.deleteScoped, Statement.on, Option.filter, here]

theorem lookup_deleteAccount (uuid : String) (key : Key) : (db.deleteAccount uuid).rows.lookup key =
    if ∃ account ∈ db.accounts, account.uuid = uuid ∧ account.device = key.device then none else db.rows.lookup key := by
  have cascades : (db.accounts.filter (·.uuid = uuid)).map (fun account => Statements.deleteScoped account.device) =
      ((db.accounts.filter (·.uuid = uuid)).map Account.device).map Statements.deleteScoped := by
    rw [List.map_map]
    rfl
  rw [Database.deleteAccount, cascades, lookup_runAll, onAll_deleteScoped]
  simp [and_assoc]

theorem Agree.deleteAccount (agree : Agree account db db') :
    Agree account (db.deleteAccount account.uuid) (db'.deleteAccount account.uuid) where
  rows := by
    intro name
    have here : (∃ other ∈ db'.accounts, other.uuid = account.uuid ∧ other.device = account.device) ↔
        ∃ other ∈ db.accounts, other.uuid = account.uuid ∧ other.device = account.device := by
      simp only [agree.accounts, List.mem_filter, decide_eq_true_eq, and_assoc]
      tauto
    rw [lookup_deleteAccount, lookup_deleteAccount, agree.rows]
    simp only [here]
  accounts := by
    simp only [Database.deleteAccount, agree.accounts, List.filter_filter, Bool.and_comm]
  sequence := agree.sequence
  only := fun other member => agree.only other (List.mem_of_mem_filter member)

theorem Agree.deleteAccount_other {uuid : String} (agree : Agree account db db') (different : uuid ≠ account.uuid) :
    Agree account (db.deleteAccount uuid) db' where
  rows := by
    intro name
    have spared : ¬∃ other ∈ db.accounts, other.uuid = uuid ∧ other.device = account.device := by
      rintro ⟨other, member, rfl, same⟩
      exact different (agree.only other member same ▸ rfl)
    rw [lookup_deleteAccount, if_neg spared, agree.rows]
  accounts := by
    rw [agree.accounts, Database.deleteAccount, List.filter_filter]
    apply List.filter_congr
    intro other member
    by_cases same : other.device = account.device
    · simp [agree.only other member same, Ne.symm different]
    · simp [same]
  sequence := agree.sequence
  only := fun other member => agree.only other (List.mem_of_mem_filter member)

theorem rel_some {α β : Type} {related : α → β → Prop} {found : Option α} {found' : Option β}
    (both : Option.Rel related found found') {a : α} (here : found = some a) : ∃ b, found' = some b ∧ related a b := by
  cases both with
  | none => cases here
  | some both =>
      cases here
      exact ⟨_, rfl, both⟩

/-! ## Runs -/

theorem call_keeps (kept : Database → Prop) (held : kept db)
    (each : ∀ db statement after, kept db → db.execute statement = some after → kept after)
    (ran : db.call crypto cipher toJson engine device nonces now write = some after) : kept after := by
  simp only [Database.call, Option.bind_eq_bind, Option.bind_eq_some_iff] at ran
  obtain ⟨statements, -, ran⟩ := ran
  induction statements generalizing db with
  | nil =>
      cases ran
      exact held
  | cons first rest ih =>
      rw [List.foldlM_cons, Option.bind_eq_bind, Option.bind_eq_some_iff] at ran
      obtain ⟨middle, first, ran⟩ := ran
      exact ih (each _ _ _ held first) ran

theorem execute_eq (ran : db.execute statement = some after) :
    db.refuses statement = false ∧ after = { db with rows := statement.run db.rows } := by
  simp only [Database.execute, Option.ite_none_left_eq_some, Option.some.injEq] at ran
  exact ⟨eq_false_of_ne_true ran.1, ran.2.symm⟩

theorem call_accounts (ran : db.call crypto cipher toJson engine device nonces now write = some after) :
    after.accounts = db.accounts ∧ after.sequence = db.sequence := by
  refine call_keeps (fun after => after.accounts = db.accounts ∧ after.sequence = db.sequence) ⟨rfl, rfl⟩ ?_ ran
  intro middle statement after held executed
  rw [(execute_eq executed).2]
  exact held

theorem step_created {event : Event info} (moved : step crypto cipher toJson engine db event = some after) :
    db.sequence ≤ after.sequence ∧ ∀ account, event = .createAccount account →
      db.sequence < account.device.toInt ∧ account.device.toInt ≤ after.sequence := by
  cases event with
  | createAccount account =>
      simp only [step, Database.insertAccount, Option.ite_none_right_eq_some, Option.some.injEq] at moved
      obtain ⟨⟨above, -⟩, rfl⟩ := moved
      refine ⟨Int.le_of_lt above, ?_⟩
      rintro _ ⟨⟩
      exact ⟨above, Int.le_refl _⟩
  | deleteAccount uuid =>
      cases moved
      exact ⟨Int.le_refl _, by simp⟩
  | call device nonces now write =>
      refine ⟨?_, by simp⟩
      rw [(call_accounts moved).2]

variable {events : List (Event info)}

theorem run_append {event : Event info} : run crypto cipher toJson engine (events ++ [event]) = some after ↔
    ∃ db, run crypto cipher toJson engine events = some db ∧ step crypto cipher toJson engine db event = some after := by
  simp [run, List.foldlM_append, Option.bind_eq_some_iff]

theorem created_below (ran : run crypto cipher toJson engine events = some db) :
    ∀ account, .createAccount account ∈ events → account.device.toInt ≤ db.sequence := by
  induction events using List.reverseRecOn generalizing db with
  | nil => simp
  | append_singleton before event ih =>
      obtain ⟨middle, earlier, moved⟩ := run_append.1 ran
      obtain ⟨grows, new⟩ := step_created moved
      intro account member
      rcases List.mem_append.1 member with old | last
      · exact Int.le_trans (ih earlier account old) grows
      · exact (new account (List.mem_singleton.1 last).symm).2

theorem created_once (ran : run crypto cipher toJson engine events = some db) {other : Account}
    (created : .createAccount account ∈ events) (created' : .createAccount other ∈ events)
    (same : other.device = account.device) : other = account := by
  induction events using List.reverseRecOn generalizing db with
  | nil => simp at created
  | append_singleton before event ih =>
      obtain ⟨middle, earlier, moved⟩ := run_append.1 ran
      have below := created_below earlier
      have new := (step_created moved).2
      simp only [List.mem_append, List.mem_singleton] at created created'
      rcases created with old | last <;> rcases created' with old' | last'
      · exact ih earlier old old'
      · have above := (new other last'.symm).1
        have under := below account old
        rw [same] at above
        omega
      · have above := (new account last.symm).1
        have under := below other old'
        rw [same] at under
        omega
      · rw [← last'] at last
        cases last
        rfl

theorem run_agree {all : List (Event info)} {final : Database} (whole : run crypto cipher toJson engine all = some final)
    (created : .createAccount account ∈ all) (within : ∀ event ∈ events, event ∈ all)
    (ran : run crypto cipher toJson engine events = some db) :
    ∃ db', run crypto cipher toJson engine (events.filter (concerns account)) = some db' ∧ Agree account db db' := by
  induction events using List.reverseRecOn generalizing db with
  | nil =>
      cases ran
      exact ⟨_, rfl, fun _ => rfl, rfl, Int.le_refl _, by simp [Database.empty]⟩
  | append_singleton before event ih =>
      obtain ⟨middle, earlier, moved⟩ := run_append.1 ran
      obtain ⟨middle', ran', agree⟩ := ih (fun event member => within event (List.mem_append_left _ member)) earlier
      have own {after' : Database} (concerned : concerns account event = true)
          (moved' : step crypto cipher toJson engine middle' event = some after') (agrees : Agree account db after') :
          ∃ db', run crypto cipher toJson engine ((before ++ [event]).filter (concerns account)) = some db' ∧
            Agree account db db' := by
        refine ⟨after', ?_, agrees⟩
        rw [List.filter_append, List.filter_cons_of_pos concerned, List.filter_nil, run, List.foldlM_append]
        rw [run] at ran'
        simp [ran', moved']
      have others (unconcerned : concerns account event = false) (agrees : Agree account db middle') :
          ∃ db', run crypto cipher toJson engine ((before ++ [event]).filter (concerns account)) = some db' ∧
            Agree account db db' := by
        refine ⟨middle', ?_, agrees⟩
        rw [List.filter_append, List.filter_cons_of_neg (by simp [unconcerned]), List.filter_nil, List.append_nil]
        exact ran'
      cases event with
      | createAccount other =>
          by_cases same : other = account
          · subst same
            obtain ⟨after', moved', agrees⟩ := agree.insertAccount moved
            exact own (by simp [concerns]) moved' agrees
          · have member : .createAccount other ∈ all := within _ (by simp)
            have different : other.device ≠ account.device := fun h => same (created_once whole created member h)
            exact others (by simp [concerns, same]) (agree.insertAccount_other different moved)
      | deleteAccount uuid =>
          cases moved
          by_cases same : uuid = account.uuid
          · subst same
            exact own (by simp [concerns]) rfl agree.deleteAccount
          · exact others (by simp [concerns, same]) (agree.deleteAccount_other same)
      | call device nonces now write =>
          by_cases same : device = account.device
          · subst same
            obtain ⟨after', moved', agrees⟩ := rel_some agree.call moved
            exact own (by simp [concerns]) moved' agrees
          · exact others (by simp [concerns, same]) (agree.call_other same moved)

/-! ## Reads -/

theorem mayFetch_of_same {read : Read} {rows rows' : Rows}
    {answer : Except StoreError (List (Name × Row))}
    (same : ∀ name, rows.lookup ⟨device, name⟩ = rows'.lookup ⟨device, name⟩)
    (fetched : read.MayFetch crypto cipher device rows answer) : read.MayFetch crypto cipher device rows' answer := by
  obtain ⟨entries, order, rfl⟩ := fetched
  let own (entry : Σ _ : Key, Row) : Bool := entry.1.device = device
  have shared : (entries.filter own).Perm (rows'.entries.filter own) := by
    refine (order.filter own).trans (Table.perm_filter (fun key : Key => key.device = device) ?_)
    intro key here
    obtain ⟨_, name⟩ := key
    obtain rfl := of_decide_eq_true here
    exact same name
  refine ⟨entries.filter own ++ rows'.entries.filter (!own ·), ?_, ?_⟩
  · exact (shared.append_right _).trans (List.filter_append_perm own _)
  · have chosen (entries : List (Σ _ : Key, Row)) :
        entries.filter (fun entry => entry.1.device = device && read.chooses entry.1.name entry.2) =
          (entries.filter own).filter fun entry => read.chooses entry.1.name entry.2 := by
      rw [List.filter_filter]
      congr 1
      funext entry
      exact Bool.and_comm ..
    have others : (rows'.entries.filter (!own ·)).filter own = [] := by simp [List.filter_filter]
    rw [Read.fetch, Read.fetch, chosen, chosen, List.filter_append, others, List.append_nil, List.filter_filter]
    simp

/-- An account's store answers, after any run, what it answers after the events that concern the account. -/
theorem isolated {events : List (Event info)} {account : Account} {db : Database}
    (created : .createAccount account ∈ events) (ran : run crypto cipher toJson engine events = some db) :
    ∃ db', run crypto cipher toJson engine (events.filter (concerns account)) = some db' ∧
      (∀ read answer, Read.MayFetch crypto cipher account.device read db.rows answer ↔
        Read.MayFetch crypto cipher account.device read db'.rows answer) ∧
      ∀ nonces now write, (db.call crypto cipher toJson engine account.device nonces now write).isSome =
        (db'.call crypto cipher toJson engine account.device nonces now write).isSome := by
  obtain ⟨db', ran', agree⟩ := run_agree ran created (fun _ member => member) ran
  refine ⟨db', ran', ?_, ?_⟩
  · intro read answer
    exact ⟨mayFetch_of_same agree.rows, mayFetch_of_same fun name => (agree.rows name).symm⟩
  · intro nonces now write
    have both : Option.Rel (Agree account) (db.call crypto cipher toJson engine account.device nonces now write)
        (db'.call crypto cipher toJson engine account.device nonces now write) := agree.call
    generalize db.call crypto cipher toJson engine account.device nonces now write = after,
      db'.call crypto cipher toJson engine account.device nonces now write = after' at both
    cases both <;> rfl

def twoAccounts : List (Event Unit) :=
  [.createAccount ⟨"a", none, 1⟩, .createAccount ⟨"b", some "ref", 2⟩,
    .call 1 (fun _ => none) 0 (.putSession "x" [1]), .call 2 (fun _ => none) 0 (.putSession "x" [2]), .deleteAccount "b"]

theorem isolated_twoAccounts : ∃ db db',
    run openLetter .passthrough (fun _ => .ok "[]") .sqlite twoAccounts = some db ∧
    run openLetter .passthrough (fun _ => .ok "[]") .sqlite (twoAccounts.filter (concerns ⟨"a", none, 1⟩)) = some db' ∧
    ∀ read answer, Read.MayFetch openLetter .passthrough 1 read db.rows answer ↔
      Read.MayFetch openLetter .passthrough 1 read db'.rows answer := by
  obtain ⟨db, ran⟩ : ∃ db, run openLetter .passthrough (fun _ => .ok "[]") .sqlite twoAccounts = some db :=
    Option.isSome_iff_exists.1 (by decide +kernel)
  obtain ⟨db', ran', reads, _⟩ := isolated (.head _) ran
  exact ⟨db, db', ran, ran', reads⟩

end Wamux.Proof.Stores
