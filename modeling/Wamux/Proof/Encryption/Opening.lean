import Wamux.Proof.Encryption.Conversion

namespace Wamux.Proof.Encryption
open Wamux.Encryption Wamux.Runs Wamux.Runs.Durable

variable {crypto : Crypto} {engine : Engine} {env : Env} {db db' : Db} {marked : Option StoreKey} {key : StoreKey}

def cipherKey : BlobCipher → Option StoreKey
  | .passthrough => none
  | .sealing key => some key

/-- The whole store is in the form this cipher reads and writes. -/
structure Serves (crypto : Crypto) (cipher : BlobCipher) (db : Db) : Prop where
  consistent : Consistent crypto (cipherKey cipher) db
  state : db.encrypted = cipher.isSealing
  progress : db.progress = []

theorem Serves.opens {cipher : BlobCipher} (serves : Serves crypto cipher db) (row : Row) (member : row ∈ db.rows) :
    cipher.open crypto (rowContext row.device row.column row.parts) row.blob = .ok row.written := by
  have form := serves.consistent.rows row member
  rw [saysSealed, serves.progress, serves.state] at form
  cases cipher with
  | passthrough =>
      have plain : Plain row := by simpa [InForm, BlobCipher.isSealing] using form
      rw [← show row.blob = row.written from plain]
      rfl
  | sealing key =>
      obtain ⟨nonce, sealed⟩ : SealedUnder crypto key row := by simpa [InForm, BlobCipher.isSealing, cipherKey] using form
      exact open_seal sealed

/-! ## What `resolve` answers -/

inductive Resolved (crypto : Crypto) (db : Db) : Option StoreKey → Option StoreKey → Resolution → Prop where
  | passthrough : Resolved crypto db none none ⟨.passthrough, none, false⟩
  | fresh {key : StoreKey} {mark : NewMark} (empty : db.accounts = [])
      (marks : ∀ encrypted, Marks crypto key ⟨encrypted, some mark.keyId, some mark.verifier⟩) :
      Resolved crypto db none (some key) ⟨.sealing key, some mark, false⟩
  | begun {key : StoreKey} {mark : NewMark}
      (marks : ∀ encrypted, Marks crypto key ⟨encrypted, some mark.keyId, some mark.verifier⟩) :
      Resolved crypto db none (some key) ⟨.sealing key, some mark, true⟩
  | resumed {key : StoreKey} (plaintext : db.encrypted = false) :
      Resolved crypto db (some key) (some key) ⟨.sealing key, none, true⟩
  | opened {key : StoreKey} (encrypted : db.encrypted = true) (whole : db.progress = []) :
      Resolved crypto db (some key) (some key) ⟨.sealing key, none, false⟩

theorem MarkedBy.verifier (marks : MarkedBy crypto db (some key)) : db.verifier.isSome = true := by
  obtain ⟨blob, _, verifier, _⟩ := Marks.verifier marks
  rw [show db.verifier = some blob from verifier]
  rfl

theorem verifyKey_cases {resolution : Resolution} {tried : StoreKey} (marks : MarkedBy crypto db (some key))
    (verified : verifyKey crypto db.stored tried = .ok resolution) :
    tried = key ∧ resolution = ⟨.sealing key, none, false⟩ := by
  by_cases right : tried = key
  · subst right
    rw [verifyKey_right marks] at verified
    cases verified
    exact ⟨rfl, rfl⟩
  · rw [verifyKey_wrong marks right] at verified
    cases verified

theorem resolve_cases {tried : Option StoreKey} {nonce : Option Nonce} {resolution : Resolution}
    (mark : MarkedBy crypto db marked)
    (resolved : resolve crypto db.stored (!db.accounts.isEmpty) (!db.progress.isEmpty) tried nonce = .ok resolution) :
    Resolved crypto db marked tried resolution := by
  cases marked with
  | none =>
      obtain ⟨plaintext, verifier, -⟩ := mark
      simp only [resolve, Db.stored, plaintext, verifier, Bool.false_eq_true, if_false, Option.isSome_none] at resolved
      cases tried with
      | none =>
          cases resolved
          exact .passthrough
      | some key =>
          simp only at resolved
          split at resolved
          · simp only [beginConversion] at resolved
            cases made : newEncryptedStore crypto key nonce with
            | error e => simp [made, bind, Except.bind] at resolved
            | ok new =>
                obtain ⟨cipher, -, mark, marked, marks⟩ := newEncryptedStore_marks made
                simp only [made, bind, Except.bind, pure, Except.pure, Except.ok.injEq] at resolved
                subst resolved
                rw [cipher, marked]
                exact .begun marks
          · rename_i empty
            obtain ⟨cipher, convert, mark, marked, marks⟩ := newEncryptedStore_marks resolved
            obtain ⟨_, _, _⟩ := resolution
            dsimp only at cipher convert marked
            subst cipher convert marked
            exact .fresh (by simpa using empty) marks
  | some key =>
      have present := MarkedBy.verifier mark
      cases state : db.encrypted with
      | true =>
          simp only [resolve, Db.stored, state, if_true] at resolved
          split at resolved
          · cases resolved
          · rename_i whole
            cases tried with
            | none => cases resolved
            | some tried =>
                have same : (⟨true, db.keyId, db.verifier⟩ : StoredEncryption) = db.stored := by rw [Db.stored, state]
                simp only [same] at resolved
                obtain ⟨rfl, rfl⟩ := verifyKey_cases mark resolved
                exact .opened state (by simpa using whole)
      | false =>
          simp only [resolve, Db.stored, state, Bool.false_eq_true, if_false, present, if_true] at resolved
          cases tried with
          | none => cases resolved
          | some tried =>
              have same : (⟨false, db.keyId, db.verifier⟩ : StoredEncryption) = db.stored := by rw [Db.stored, state]
              simp only [resumeConversion, same] at resolved
              cases verified : verifyKey crypto db.stored tried with
              | error e => simp [verified, bind, Except.bind] at resolved
              | ok found =>
                  obtain ⟨rfl, rfl⟩ := verifyKey_cases mark verified
                  simp only [verified, bind, Except.bind, pure, Except.pure, Except.ok.injEq] at resolved
                  subst resolved
                  exact .resumed state

/-! ## The runs -/

theorem Consistent.plain (consistent : Consistent crypto none db) (row : Row) (member : row ∈ db.rows) : Plain row := by
  obtain ⟨plaintext, -, whole⟩ := consistent.mark
  have form := consistent.rows row member
  simpa [saysSealed, plaintext, whole, InForm] using form

theorem Consistent.begin {mark : NewMark} (consistent : Consistent crypto none db)
    (marks : ∀ encrypted, Marks crypto key ⟨encrypted, some mark.keyId, some mark.verifier⟩) :
    Converting crypto key .seal { db with encrypted := false, keyId := some mark.keyId, verifier := some mark.verifier } := by
  obtain ⟨-, -, whole⟩ := consistent.mark
  have wellFormed := consistent.wellFormed
  refine ⟨⟨⟨wellFormed.1, wellFormed.2, wellFormed.3, wellFormed.4⟩, marks false, ?_, ?_⟩, rfl⟩
  · intro row member
    have plain := consistent.plain row member
    simpa [saysSealed, whole, InForm] using plain
  · exact consistent.turned

theorem Consistent.fresh {mark : NewMark} (consistent : Consistent crypto none db) (empty : db.accounts = [])
    (marks : ∀ encrypted, Marks crypto key ⟨encrypted, some mark.keyId, some mark.verifier⟩) :
    Serves crypto (.sealing key)
      { db with encrypted := true, keyId := some mark.keyId, verifier := some mark.verifier } := by
  obtain ⟨-, -, whole⟩ := consistent.mark
  have wellFormed := consistent.wellFormed
  refine ⟨⟨⟨wellFormed.1, wellFormed.2, wellFormed.3, wellFormed.4⟩, marks true, ?_, ?_⟩, rfl, whole⟩
  · intro row member
    have owned := (wellFormed.owned row member).1
    simp [empty] at owned
  · exact consistent.turned

theorem Converted.serves (converted : Converted crypto key .seal db) : Serves crypto (.sealing key) db :=
  ⟨converted.consistent, converted.state, converted.progress⟩

structure Settled (crypto : Crypto) (marked tried : Option StoreKey) (db : Db) (resolution : Resolution) (db' : Db) :
    Prop where
  resolved : Resolved crypto db marked tried resolution
  serves : Serves crypto resolution.cipher db'
  same : SameStore db db'
  converted : resolution.convert = true → ∀ key, resolution.cipher = .sealing key → Converted crypto key .seal db'

theorem Settled.of_converted {resolution : Resolution} (resolved : Resolved crypto db marked (some key) resolution)
    (cipher : resolution.cipher = .sealing key) (converted : Converted crypto key .seal db') (same : SameStore db db') :
    Settled crypto marked (some key) db resolution db' := by
  refine ⟨resolved, cipher ▸ converted.serves, same, ?_⟩
  intro _ other sealing
  rw [cipher] at sealing
  cases sealing
  exact converted

theorem settle_always {tried : Option StoreKey} (consistent : Consistent crypto marked db) :
    Always (settle crypto env tried) db (Left crypto db) (Settled crypto marked tried db) := by
  unfold settle
  apply Always.bind (fun now here => db = now ∧ db = here) (Always.store ⟨rfl, rfl⟩)
  rintro _ _ ⟨rfl, rfl⟩
  apply Always.bind (fun resolution here => Resolved crypto db marked tried resolution ∧ db = here)
    (Always.ofExcept fun _ resolved => ⟨resolve_cases consistent.mark resolved, rfl⟩)
  rintro resolution _ ⟨resolved, rfl⟩
  have way := resolved
  cases resolved with
  | passthrough =>
      obtain ⟨plaintext, -, whole⟩ := consistent.mark
      apply Always.bind (fun _ here => db = here) (Always.pure rfl)
      rintro _ _ rfl
      exact Always.pure ⟨way, ⟨consistent, plaintext, whole⟩, .refl, by simp⟩
  | fresh empty marks =>
      obtain ⟨plaintext, -, -⟩ := consistent.mark
      have serves := consistent.fresh empty marks
      apply Always.bind (fun _ db' => Serves crypto (.sealing _) db' ∧ SameStore db db')
      · apply Always.transact
        intro db' ran
        rw [if_pos (by simp [plaintext, empty])] at ran
        cases ran
        exact ⟨⟨⟨_, serves.consistent⟩, rfl, rfl⟩, serves, rfl, rfl⟩
      · rintro _ db' ⟨serves, same⟩
        exact Always.pure ⟨way, serves, same, by simp⟩
  | begun marks =>
      obtain ⟨plaintext, verifier, -⟩ := consistent.mark
      have converting := consistent.begin marks
      apply Always.bind (fun _ db' => Converting crypto _ .seal db' ∧ SameStore db db')
      · apply Always.transact
        intro db' ran
        rw [if_pos (by simp [plaintext, verifier])] at ran
        cases ran
        exact ⟨converting.left ⟨rfl, rfl⟩, converting, rfl, rfl⟩
      · rintro _ middle ⟨converting, same⟩
        apply Always.bind (fun _ db' => Converted crypto _ .seal db' ∧ SameStore db db')
        · apply (convert_always converting).weaken
          · rintro db' ⟨consistent, later⟩
            exact ⟨consistent, same.trans later⟩
          · rintro _ db' ⟨converted, later⟩
            exact ⟨converted, same.trans later⟩
        · rintro _ db' ⟨converted, same⟩
          exact Always.pure (.of_converted way rfl converted same)
  | resumed plaintext =>
      have converting : Converting crypto _ .seal db := ⟨consistent, plaintext⟩
      apply Always.bind (fun _ here => db = here) (Always.pure rfl)
      rintro _ _ rfl
      apply Always.bind _ (convert_always converting)
      rintro _ db' ⟨converted, same⟩
      exact Always.pure (.of_converted way rfl converted same)
  | opened encrypted whole =>
      apply Always.bind (fun _ here => db = here) (Always.pure rfl)
      rintro _ _ rfl
      exact Always.pure ⟨way, ⟨consistent, encrypted, whole⟩, .refl, by simp⟩

def OwedOnly (db db' : Db) : Prop := db' = { db with owed := db'.owed }

theorem OwedOnly.same (owed : OwedOnly db db') : SameStore db db' := by
  rw [owed]
  exact ⟨rfl, rfl⟩

theorem OwedOnly.consistent (owed : OwedOnly db db') (consistent : Consistent crypto marked db) :
    Consistent crypto marked db' := by
  obtain ⟨⟨accounts, distinct, owned, progress⟩, mark, rows, turned⟩ := consistent
  have marked' : MarkedBy crypto { db with owed := db'.owed } marked := by
    cases marked <;> exact mark
  rw [owed]
  exact ⟨⟨accounts, distinct, owned, progress⟩, marked', rows, turned⟩

theorem OwedOnly.serves {cipher : BlobCipher} (owed : OwedOnly db db') (serves : Serves crypto cipher db) :
    Serves crypto cipher db' := by
  obtain ⟨consistent, state, whole⟩ := serves
  have same := owed.consistent consistent
  rw [owed] at same ⊢
  exact ⟨same, state, whole⟩

def scrubStatements : Engine → Nat
  | .pg => sealedColumns.length
  | .sqlite => 2

theorem vacuumTables_counts (columns : List SealedColumn) : Counts (vacuumTables columns) db columns.length (· = db)
    fun _ db' => db' = if columns = [] then db else { db with owed := false } := by
  induction columns with
  | nil => exact Counts.pure rfl
  | cons column rest ih =>
      have first : Counts (transact fun db => .ok { db with owed := db.owed && !rest.isEmpty } : Durable Db StoreError Unit)
          db 1 (· = db) fun _ db' => db' = if rest = [] then { db with owed := false } else db := by
        apply Counts.transact (by rfl)
        intro db' ran
        cases ran
        cases rest <;> simp
      rw [List.length_cons, Nat.add_comm, if_neg (by simp)]
      apply first.bind
      rintro _ _ rfl
      cases rest with
      | nil => exact Counts.pure rfl
      | cons next others => exact ih

theorem scrub_counts : Counts (scrubOldPlaintext env engine) db (scrubStatements engine) (· = db)
    fun _ db' => db' = { db with owed := false } := by
  cases engine with
  | pg => exact vacuumTables_counts sealedColumns
  | sqlite =>
      have vacuum : Counts (transact .ok : Durable Db StoreError Unit) db 1 (· = db) fun _ db' => db' = db := by
        apply Counts.transact (by rfl)
        intro db' ran
        cases ran
        rfl
      have truncate : Counts (transact fun db => .ok { db with owed := false } : Durable Db StoreError Unit) db 1
          (· = db) fun _ db' => db' = { db with owed := false } := by
        apply Counts.transact (by rfl)
        intro db' ran
        cases ran
        rfl
      rw [show scrubStatements .sqlite = 1 + (0 + 1) from rfl]
      apply vacuum.bind
      rintro _ _ rfl
      split
      · apply Counts.bind (fun _ _ => False)
        · exact Counts.fail rfl
        · intro _ _ never
          exact never.elim
      · exact truncate

theorem scrub_always : Always (scrubOldPlaintext env engine) db (OwedOnly db) fun _ db' => OwedOnly db db' := by
  apply scrub_counts.always.weaken
  · rintro db' (rfl | ⟨_, rfl⟩)
    · rfl
    · rfl
  · rintro _ db' rfl
    rfl

theorem Serves.left {cipher : BlobCipher} (serves : Serves crypto cipher db') (same : SameStore db db') :
    Left crypto db db' := ⟨⟨_, serves.consistent⟩, same⟩

theorem OwedOnly.converted {direction : Direction} (owed : OwedOnly db db')
    (converted : Converted crypto key direction db) : Converted crypto key direction db' := by
  obtain ⟨consistent, state, progress, once⟩ := converted
  have same := owed.consistent consistent
  rw [owed] at same ⊢
  exact ⟨same, state, progress, once⟩

theorem Settled.scrubbed {tried : Option StoreKey} {resolution : Resolution} {middle : Db}
    (settled : Settled crypto marked tried db resolution middle) (owed : OwedOnly middle db') :
    Settled crypto marked tried db resolution db' :=
  ⟨settled.resolved, owed.serves settled.serves, settled.same.trans owed.same,
    fun convert key cipher => owed.converted (settled.converted convert key cipher)⟩

theorem openCipher_always {tried : Option StoreKey} (consistent : Consistent crypto marked db) :
    Always (openCipher crypto engine env tried) db (Left crypto db)
      fun cipher db' => ∃ resolution, resolution.cipher = cipher ∧ Settled crypto marked tried db resolution db' := by
  unfold openCipher
  apply Always.bind _ (settle_always consistent)
  intro resolution middle settled
  split
  · apply Always.bind (fun _ db' => Settled crypto marked tried db resolution db')
    · apply scrub_always.weaken
      · intro db' owed
        exact (settled.scrubbed owed).serves.left (settled.scrubbed owed).same
      · exact fun _ _ owed => settled.scrubbed owed
    · intro _ db' settled
      exact Always.pure ⟨_, rfl, settled⟩
  · exact Always.pure ⟨_, rfl, settled⟩

theorem cipherForDecrypt_cases {cipher : BlobCipher} (mark : MarkedBy crypto db marked)
    (resolved : cipherForDecrypt crypto db.stored key = .ok cipher) :
    marked = some key ∧ db.encrypted = true ∧ cipher = .sealing key := by
  unfold cipherForDecrypt at resolved
  cases encrypted : db.encrypted with
  | false =>
      rw [show db.stored.encrypted = false from encrypted] at resolved
      cases resolved
  | true =>
      rw [show db.stored.encrypted = true from encrypted, if_pos rfl] at resolved
      cases marked with
      | none =>
          obtain ⟨plaintext, -⟩ := mark
          rw [plaintext] at encrypted
          cases encrypted
      | some right =>
          cases verified : verifyKey crypto db.stored key with
          | error e => simp [verified, Except.map] at resolved
          | ok found =>
              obtain ⟨rfl, rfl⟩ := verifyKey_cases mark verified
              simp only [verified, Except.map, Except.ok.injEq] at resolved
              exact ⟨rfl, rfl, resolved.symm⟩

theorem decryptStore_always (consistent : Consistent crypto marked db) :
    Always (decryptStore crypto env key) db (Left crypto db)
      fun _ db' => Converted crypto key .open db' ∧ SameStore db db' := by
  unfold decryptStore
  apply Always.bind (fun now here => db = now ∧ db = here) (Always.store ⟨rfl, rfl⟩)
  rintro _ _ ⟨rfl, rfl⟩
  apply Always.bind (fun cipher here => Converting crypto key .open db ∧ cipher = .sealing key ∧ db = here)
  · apply Always.ofExcept
    intro cipher resolved
    obtain ⟨rfl, encrypted, sealing⟩ := cipherForDecrypt_cases consistent.mark resolved
    exact ⟨⟨consistent, encrypted⟩, sealing, rfl⟩
  · rintro _ _ ⟨converting, rfl, rfl⟩
    exact convert_always converting

end Wamux.Proof.Encryption
