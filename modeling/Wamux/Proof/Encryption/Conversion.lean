import Wamux.Proof.Encryption.Consistency

namespace Wamux.Proof.Encryption
open Wamux.Encryption Wamux.Runs Wamux.Runs.Durable

variable {crypto : Crypto} {env : Env} {db db' : Db} {device : DeviceId} {key : StoreKey} {direction : Direction}

structure Left (crypto : Crypto) (db db' : Db) : Prop where
  consistent : ∃ marked, Consistent crypto marked db'
  same : SameStore db db'

theorem Converting.left (converting : Converting crypto key direction db') (same : SameStore db db') :
    Left crypto db db' := ⟨⟨_, converting.consistent⟩, same⟩

theorem Converted.left (converted : Converted crypto key direction db') (same : SameStore db db') :
    Left crypto db db' := ⟨⟨_, converted.consistent⟩, same⟩

def Remaining (db : Db) (left : List DeviceId) : Prop :=
  left.Nodup ∧ ∀ device, device ∈ left ↔ device ∈ db.accounts ∧ device ∉ db.progress

theorem accountsLeft_remaining (wellFormed : WellFormed db) :
    Remaining db (accountsLeft db.accounts db.progress) := by
  have perm := List.perm_insertionSort (· ≤ ·) db.accounts
  constructor
  · exact (perm.nodup_iff.2 wellFormed.accounts).filter _
  · intro device
    simp [accountsLeft, perm.mem_iff]

theorem Remaining.rest {rest : List DeviceId} (remaining : Remaining db (device :: rest))
    (progress : db'.progress = db.progress ++ [device]) (accounts : db'.accounts = db.accounts) :
    Remaining db' rest := by
  obtain ⟨nodup, each⟩ := remaining
  obtain ⟨fresh, nodup⟩ := List.nodup_cons.1 nodup
  refine ⟨nodup, ?_⟩
  intro d
  have before := each d
  rw [accounts, progress, List.mem_append, List.mem_singleton]
  rw [List.mem_cons] at before
  constructor
  · intro member
    obtain ⟨known, undone⟩ := before.1 (.inr member)
    refine ⟨known, ?_⟩
    rintro (done | rfl)
    · exact undone done
    · exact fresh member
  · rintro ⟨known, undone⟩
    rcases before.2 ⟨known, fun done => undone (.inl done)⟩ with rfl | member
    · exact absurd (.inr rfl) undone
    · exact member

def Sealable (env : Env) (devices : List DeviceId) (db : Db) : Prop :=
  ∀ row ∈ db.rows, row.device ∈ devices → row.blob = [] ∨ (env.nonces row.device row.column row.parts).isSome = true

structure AccountDone (crypto : Crypto) (key : StoreKey) (direction : Direction) (env : Env) (device : DeviceId)
    (isLast : Bool) (db db' : Db) : Prop where
  same : SameStore db db'
  others : ∀ row, row.device ≠ device → (row ∈ db'.rows ↔ row ∈ db.rows)
  drawn : direction = .seal → Sealable env [device] db
  owed : db'.owed = true ↔ db.owed = true ∨ direction = .seal ∧ ∃ row ∈ db.rows, row.device = device
  after : if isLast then Converted crypto key direction db'
    else Converting crypto key direction db' ∧ db'.progress = db.progress ++ [device]

theorem leavesSecrets_of (cipher : BlobCipher) : (Turn.of cipher direction).leavesSecrets = true ↔ direction = .seal := by
  cases direction <;> simp [Turn.of, Turn.leavesSecrets]

theorem finish_owed : (finish direction db).owed = db.owed := by
  unfold finish
  split <;> rfl

theorem finish_rows : (finish direction db).rows = db.rows := by
  unfold finish
  split <;> rfl

theorem Turns.sealable {db' : Db} (turns : Turns crypto (.seal (.sealing key)) env
    (fun n => n.1 = device ∧ n.2.1 ∈ sealedColumns) db db') (wellFormed : WellFormed db) : Sealable env [device] db := by
  intro row member mine
  obtain ⟨f, -, each⟩ := turns.rows
  have turned := ((each row member).1 ⟨List.mem_singleton.1 mine, (wellFormed.owned row member).2⟩).blob
  rcases seal_eq turned with ⟨empty, -⟩ | ⟨-, drawn, same, -⟩
  · exact .inl empty
  · exact .inr (by rw [same]; rfl)

theorem convertAccount_spec {isLast : Bool} (converting : Converting crypto key direction db)
    (last : isLast = true → ∀ d ∈ db.accounts, d ∈ db.progress ∨ d = device)
    (ran : convertAccount crypto (.sealing key) direction env device isLast db = .ok db') :
    AccountDone crypto key direction env device isLast db db' := by
  have wellFormed := converting.consistent.wellFormed
  simp only [convertAccount] at ran
  cases columns : convertColumns crypto (.of (.sealing key) direction) env db device with
  | error e => simp [columns, bind, Except.bind] at ran
  | ok turned =>
      have turns := convertColumns_turns wellFormed.distinct columns
      have others (row : Row) (other : row.device ≠ device) : row ∈ turned.rows ↔ row ∈ db.rows :=
        turns.unchosen fun mine => other mine.1
      have drawn (sealing : direction = .seal) : Sealable env [device] db := by
        subst sealing
        exact turns.sealable wellFormed
      have owed : turned.owed = true ↔ db.owed = true ∨ direction = .seal ∧ ∃ row ∈ db.rows, row.device = device := by
        have mine : (∃ row ∈ db.rows, row.name.1 = device ∧ row.name.2.1 ∈ sealedColumns) ↔
            ∃ row ∈ db.rows, row.device = device :=
          exists_congr fun row => and_congr_right fun member => and_iff_left (wellFormed.owned row member).2
        rw [turns.owed, leavesSecrets_of, mine]
      cases inserted : turned.insertProgress device with
      | error e => simp [columns, inserted, bind, Except.bind] at ran
      | ok entered =>
          simp only [columns, inserted, bind, Except.bind, pure, Except.pure, Except.ok.injEq] at ran
          obtain ⟨next, progress, same⟩ := converting.insertProgress turns inserted
          have kept : entered.rows = turned.rows ∧ entered.owed = turned.owed := by
            simp only [Db.insertProgress] at inserted
            split at inserted
            · cases inserted
            · cases inserted
              exact ⟨rfl, rfl⟩
          rw [← kept.1] at others
          rw [← kept.2] at owed
          subst ran
          cases isLast with
          | false => exact ⟨same, others, drawn, owed, next, progress⟩
          | true =>
              have all (d : DeviceId) (known : d ∈ entered.accounts) : d ∈ entered.progress := by
                rw [progress, List.mem_append, List.mem_singleton]
                exact last rfl d (same.accounts ▸ known)
              obtain ⟨converted, finished⟩ := next.finish all
              rw [← finish_rows] at others
              rw [← finish_owed] at owed
              exact ⟨same.trans finished, others, drawn, owed, converted⟩

structure ConversionDone (crypto : Crypto) (key : StoreKey) (direction : Direction) (env : Env) (left : List DeviceId)
    (db db' : Db) : Prop where
  converted : Converted crypto key direction db'
  same : SameStore db db'
  drawn : direction = .seal → Sealable env left db
  owed : db'.owed = true ↔ db.owed = true ∨ direction = .seal ∧ ∃ row ∈ db.rows, row.device ∈ left

structure Midway (crypto : Crypto) (key : StoreKey) (direction : Direction) (db db' : Db) : Prop where
  converting : Converting crypto key direction db'
  same : SameStore db db'
  owed : direction = .open → db'.owed = db.owed

theorem AccountDone.sealable {rest : List DeviceId} {isLast : Bool}
    (done : AccountDone crypto key direction env device isLast db db') (fresh : device ∉ rest) :
    Sealable env rest db' ↔ Sealable env rest db := by
  have others (row : Row) (member : row.device ∈ rest) : row ∈ db'.rows ↔ row ∈ db.rows := by
    apply done.others
    rintro rfl
    exact fresh member
  constructor
  · intro sealable row member mine
    exact sealable row ((others row mine).2 member) mine
  · intro sealable row member mine
    exact sealable row ((others row mine).1 member) mine

theorem sealable_cons {rest : List DeviceId} :
    Sealable env (device :: rest) db ↔ Sealable env [device] db ∧ Sealable env rest db := by
  simp only [Sealable, List.mem_cons, List.not_mem_nil, or_false]
  grind

theorem AccountDone.alone (done : AccountDone crypto key direction env device true db db') :
    ConversionDone crypto key direction env [device] db db' := by
  refine ⟨done.after, done.same, done.drawn, ?_⟩
  simp only [List.mem_singleton]
  exact done.owed

theorem AccountDone.more {rest : List DeviceId} {db'' : Db} (done : AccountDone crypto key direction env device false db db')
    (fresh : device ∉ rest) (later : ConversionDone crypto key direction env rest db' db'') :
    ConversionDone crypto key direction env (device :: rest) db db'' := by
  refine ⟨later.converted, done.same.trans later.same, ?_, ?_⟩
  · intro sealing
    exact sealable_cons.2 ⟨done.drawn sealing, (done.sealable fresh).1 (later.drawn sealing)⟩
  · have others : (∃ row ∈ db'.rows, row.device ∈ rest) ↔ ∃ row ∈ db.rows, row.device ∈ rest := by
      apply exists_congr
      intro row
      apply and_congr_left
      intro member
      apply done.others
      rintro rfl
      exact fresh member
    rw [later.owed, done.owed, others]
    simp only [List.mem_cons]
    grind

theorem convertAccounts_counts (left : List DeviceId) (nonempty : left ≠ []) (converting : Converting crypto key direction db)
    (remaining : Remaining db left) :
    Counts (convertAccounts crypto (.sealing key) direction env left) db left.length (Midway crypto key direction db)
      fun _ db' => ConversionDone crypto key direction env left db db' := by
  induction left generalizing db with
  | nil => exact absurd rfl nonempty
  | cons device rest ih =>
      have last (isLast : rest.isEmpty = true) (d : DeviceId) (known : d ∈ db.accounts) :
          d ∈ db.progress ∨ d = device := by
        have each := remaining.2 d
        rw [List.isEmpty_iff.1 isLast, List.mem_singleton] at each
        by_cases done : d ∈ db.progress
        · exact .inl done
        · exact .inr (each.2 ⟨known, done⟩)
      have start : Midway crypto key direction db db := ⟨converting, .refl, fun _ => rfl⟩
      have transaction : Counts (transact (convertAccount crypto (.sealing key) direction env device rest.isEmpty)) db 1
          (Midway crypto key direction db) fun _ db' => AccountDone crypto key direction env device rest.isEmpty db db' :=
        Counts.transact start fun db' ran => convertAccount_spec converting last ran
      have fresh := (List.nodup_cons.1 remaining.1).1
      rw [List.length_cons, Nat.add_comm]
      apply transaction.bind
      intro _ middle done
      cases rest with
      | nil => exact Counts.pure done.alone
      | cons next others =>
          obtain ⟨converting, progress⟩ := done.after
          have later := ih (by simp) converting (remaining.rest progress done.same.accounts)
          apply later.weaken
          · rintro db' ⟨converting, same, owed⟩
            refine ⟨converting, done.same.trans same, ?_⟩
            intro opening
            have stays := done.owed
            simp only [opening, reduceCtorEq, false_and, or_false] at stays
            rw [owed opening, Bool.eq_iff_iff, stays]
          · intro _ db' later
            exact done.more fresh later

/-! ## A conversion that is not cut off -/

theorem seal_ok {nonce : Option Nonce} (context : BlobContext) {plaintext : Bytes}
    (drawn : plaintext = [] ∨ nonce.isSome = true) :
    ∃ blob, BlobCipher.seal crypto (.sealing key) nonce context plaintext = .ok blob := by
  simp only [BlobCipher.seal]
  split
  · exact ⟨_, rfl⟩
  · rename_i present
    obtain ⟨nonce, rfl⟩ := Option.isSome_iff_exists.1 (drawn.resolve_left present)
    exact ⟨_, rfl⟩

theorem Converting.turnable (converting : Converting crypto key direction db)
    (sealable : direction = .seal → Sealable env [device] db) (fresh : device ∉ db.progress) :
    Turnable crypto (.of (.sealing key) direction) env (fun n => n.1 = device ∧ n.2.1 ∈ sealedColumns) db := by
  rintro row member ⟨mine, -⟩
  have form := converting.consistent.rows row member
  rw [show row.device = device from mine, saysSealed, decide_eq_false fresh, Bool.bne_false, converting.state] at form
  cases direction with
  | «seal» => exact seal_ok _ (sealable rfl row member (List.mem_singleton.2 mine))
  | «open» =>
      obtain ⟨nonce, sealed⟩ : SealedUnder crypto key row := form
      exact ⟨_, open_seal sealed⟩

theorem convertAccount_ok {isLast : Bool} (converting : Converting crypto key direction db)
    (sealable : direction = .seal → Sealable env [device] db) (known : device ∈ db.accounts)
    (fresh : device ∉ db.progress) :
    ∃ db', convertAccount crypto (.sealing key) direction env device isLast db = .ok db' := by
  have distinct := converting.consistent.wellFormed.distinct
  obtain ⟨turned, columns⟩ := convertColumns_ok distinct (converting.turnable sealable fresh)
  have frame := (convertColumns_turns distinct columns).frame
  have progress : turned.progress = db.progress := by rw [frame]
  have accounts : turned.accounts = db.accounts := by rw [frame]
  have allowed : ¬(device ∈ turned.progress ∨ device ∉ turned.accounts) := by
    rw [progress, accounts]
    rintro (done | unknown)
    · exact fresh done
    · exact unknown known
  simp only [convertAccount, columns, Db.insertProgress, if_neg allowed, bind, Except.bind]
  exact ⟨_, rfl⟩

theorem transact_answers {body : Db → Except StoreError Db} (ok : ∃ db', body db = .ok db') :
    Answers (transact body) db := by
  obtain ⟨db', ran⟩ := ok
  exact ⟨(), by simp [Durable.transact, ran]⟩

theorem convertAccounts_answers (left : List DeviceId) (sealable : direction = .seal → Sealable env left db)
    (ready : left ≠ [] → Converting crypto key direction db ∧ Remaining db left) :
    Answers (convertAccounts crypto (.sealing key) direction env left) db := by
  induction left generalizing db with
  | nil => exact ⟨(), rfl⟩
  | cons device rest ih =>
      obtain ⟨now, remaining⟩ := ready (by simp)
      obtain ⟨known, unturned⟩ := (remaining.2 device).1 List.mem_cons_self
      have fresh := (List.nodup_cons.1 remaining.1).1
      have mine (sealing : direction = .seal) := (sealable_cons.1 (sealable sealing)).1
      have always : Always (transact (convertAccount crypto (.sealing key) direction env device rest.isEmpty)) db
          (fun _ => True) fun _ db' => rest ≠ [] → AccountDone crypto key direction env device false db db' := by
        apply Always.transact
        intro db' ran
        refine ⟨trivial, ?_⟩
        intro more
        have notLast : rest.isEmpty = false := by simpa using more
        rw [notLast] at ran
        exact convertAccount_spec now (by simp) ran
      apply Answers.bind always (transact_answers (convertAccount_ok now mine known unturned))
      intro _ db' done
      by_cases more : rest = []
      · subst more
        exact ⟨(), rfl⟩
      · have done := done more
        apply ih
        · intro sealing
          exact (done.sealable fresh).2 (sealable_cons.1 (sealable sealing)).2
        · intro _
          exact ⟨done.after.1, remaining.rest done.after.2 done.same.accounts⟩

theorem Converting.finish_alone (converting : Converting crypto key direction db)
    (none : accountsLeft db.accounts db.progress = []) :
    ConversionDone crypto key direction env [] db (Encryption.finish direction db) := by
  have remaining := accountsLeft_remaining converting.consistent.wellFormed
  rw [none] at remaining
  have all (d : DeviceId) (known : d ∈ db.accounts) : d ∈ db.progress := by
    by_contra undone
    simpa using (remaining.2 d).2 ⟨known, undone⟩
  obtain ⟨converted, same⟩ := converting.finish all
  refine ⟨converted, same, ?_, ?_⟩
  · intro _ row _ none
    cases none
  · simp [finish_owed]

/-- The transactions of a conversion with these accounts to turn: the flip needs one of its own when
there are none. -/
def transactions (left : List DeviceId) : Nat := max 1 left.length

theorem convert_counts (converting : Converting crypto key direction db) :
    Counts (convert crypto (.sealing key) direction env) db (transactions (accountsLeft db.accounts db.progress))
      (Midway crypto key direction db)
      fun _ db' => ConversionDone crypto key direction env (accountsLeft db.accounts db.progress) db db' := by
  have remaining := accountsLeft_remaining converting.consistent.wellFormed
  have start : Midway crypto key direction db db := ⟨converting, .refl, fun _ => rfl⟩
  unfold convert
  apply Counts.after (fun now here => db = now ∧ db = here) (Counts.store ⟨rfl, rfl⟩)
  rintro _ _ ⟨rfl, rfl⟩
  dsimp only
  split
  · rename_i none
    have none := List.isEmpty_iff.1 none
    rw [none]
    rw [show transactions [] = 1 + 0 from rfl]
    apply Counts.after (fun _ here => db = here) (Counts.pure rfl)
    rintro _ _ rfl
    apply Counts.bind (fun _ db' => ConversionDone crypto key direction env [] db db')
    · apply Counts.transact start
      rintro db' ran
      cases ran
      exact converting.finish_alone none
    · intro _ db' done
      exact Counts.pure done
  · rename_i more
    have nonempty : accountsLeft db.accounts db.progress ≠ [] := by simpa using more
    have several : transactions (accountsLeft db.accounts db.progress) =
        (accountsLeft db.accounts db.progress).length + 0 :=
      max_eq_right (List.length_pos_iff.2 nonempty)
    rw [several]
    apply Counts.bind _ (convertAccounts_counts _ nonempty converting remaining)
    intro _ db' done
    exact Counts.pure done

theorem convert_always (converting : Converting crypto key direction db) :
    Always (convert crypto (.sealing key) direction env) db (Left crypto db)
      fun _ db' => Converted crypto key direction db' ∧ SameStore db db' := by
  apply (convert_counts converting).always.weaken
  · rintro db' (midway | ⟨_, done⟩)
    · exact midway.converting.left midway.same
    · exact done.converted.left done.same
  · intro _ db' done
    exact ⟨done.converted, done.same⟩

theorem convert_answers (converting : Converting crypto key direction db)
    (sealable : direction = .seal → Sealable env (accountsLeft db.accounts db.progress) db) :
    Answers (convert crypto (.sealing key) direction env) db := by
  have remaining := accountsLeft_remaining converting.consistent.wellFormed
  have start : Always (Durable.store : Durable Db StoreError Db) db (fun _ => True)
      fun now here => db = now ∧ db = here := Always.store ⟨rfl, rfl⟩
  have accounts := convertAccounts_answers _ sealable fun _ => ⟨converting, remaining⟩
  unfold convert
  apply Answers.bind start ⟨db, rfl⟩
  rintro _ _ ⟨rfl, rfl⟩
  apply accounts.seq
  intro _ db'
  split
  · exact ⟨_, rfl⟩
  · exact ⟨_, rfl⟩

end Wamux.Proof.Encryption
