import Wamux.Proof.Encryption.Rotation

namespace Wamux.Proof.Encryption
open Wamux.Encryption Wamux.Runs Wamux.Runs.Durable

variable {crypto : Crypto} {engine : Engine} {env : Env} {db db' : Db} {marked : Option StoreKey} {key old new : StoreKey}

/-! ## Refusals -/

theorem openCipher_refuses {tried : Option StoreKey} (mark : MarkedBy crypto db (some key)) (wrong : tried ≠ some key) :
    Refuses (openCipher crypto engine env tried) db := by
  unfold openCipher settle
  apply Refuses.bind
  apply Refuses.after (rfl : store db = ([], .ok db))
  apply Refuses.bind
  apply Refuses.ofExcept
  intro resolution resolved
  cases resolve_cases mark resolved with
  | resumed | opened => exact wrong rfl

theorem decryptStore_refuses (mark : MarkedBy crypto db marked) (wrong : some key ≠ marked) :
    Refuses (decryptStore crypto env key) db := by
  unfold decryptStore
  apply Refuses.after (rfl : store db = ([], .ok db))
  apply Refuses.bind
  apply Refuses.ofExcept
  intro cipher resolved
  exact wrong (cipherForDecrypt_cases mark resolved).1.symm

theorem rotateStore_refuses (mark : MarkedBy crypto db marked) (wrong : some old ≠ marked) :
    Refuses (rotateStore crypto engine env old new) db := by
  unfold rotateStore rotateTransaction
  apply Refuses.bind
  apply Refuses.after (rfl : store db = ([], .ok db))
  apply Refuses.bind
  apply Refuses.ofExcept
  intro rotation planned
  exact wrong (planRotation_cases mark planned).marked.symm

/-! ## Reruns -/

theorem resolve_resumes (mark : MarkedBy crypto db (some key)) (plaintext : db.encrypted = false)
    (hasAccounts hasProgress : Bool) (nonce : Option Nonce) :
    resolve crypto db.stored hasAccounts hasProgress (some key) nonce = .ok ⟨.sealing key, none, true⟩ := by
  have present : db.stored.verifier.isSome = true := MarkedBy.verifier mark
  unfold resolve
  rw [if_neg (by simp [Db.stored, plaintext]), if_pos present]
  simp only [resumeConversion, verifyKey_right mark, bind, Except.bind, pure, Except.pure]

theorem cipherForDecrypt_right (mark : MarkedBy crypto db (some key)) (encrypted : db.encrypted = true) :
    cipherForDecrypt crypto db.stored key = .ok (.sealing key) := by
  unfold cipherForDecrypt
  rw [if_pos (show db.stored.encrypted = true from encrypted), verifyKey_right mark]
  rfl

theorem vacuumTables_answers (columns : List SealedColumn) : Answers (vacuumTables columns) db := by
  induction columns generalizing db with
  | nil => exact ⟨(), rfl⟩
  | cons column rest ih =>
      apply Answers.seq ⟨(), rfl⟩
      intro _ db'
      exact ih

theorem scrub_answers (free : engine = .sqlite → env.busy = false) : Answers (scrubOldPlaintext env engine) db := by
  cases engine with
  | pg => exact vacuumTables_answers _
  | sqlite =>
      simp only [scrubOldPlaintext, free rfl]
      exact ⟨(), rfl⟩

theorem seal_answers {resolution : Resolution} (converting : Converting crypto key .seal db)
    (sealable : Sealable env (accountsLeft db.accounts db.progress) db) :
    Answers (convert crypto (.sealing key) .seal env >>= fun _ => pure resolution) db := by
  obtain ⟨turned, converted⟩ := convert_answers converting fun _ => sealable
  exact Answers.seq ⟨turned, converted⟩ fun _ _ => ⟨resolution, rfl⟩

theorem settle_answers {tried : Option StoreKey} {resolution : Resolution} (consistent : Consistent crypto marked db)
    (resolved : resolve crypto db.stored (!db.accounts.isEmpty) (!db.progress.isEmpty) tried env.verifierNonce =
      .ok resolution)
    (converts : resolution.convert = true) (sealable : Sealable env (accountsLeft db.accounts db.progress) db) :
    Answers (settle crypto env tried) db := by
  unfold settle Answers
  rw [store_bind, resolved, ofExcept_bind]
  cases resolve_cases consistent.mark resolved with
  | passthrough | fresh | opened => cases converts
  | @begun key mark marks =>
      obtain ⟨plaintext, verifier, -⟩ := consistent.mark
      have converting := consistent.begin marks
      have written : Always (writeMark ⟨.sealing key, some mark, true⟩) db (fun _ => True) fun _ here =>
          here = { db with encrypted := false, keyId := some mark.keyId, verifier := some mark.verifier } := by
        apply Always.transact
        intro db' ran
        rw [if_pos (by simp [plaintext, verifier])] at ran
        cases ran
        exact ⟨trivial, rfl⟩
      have writes : Answers (writeMark ⟨.sealing key, some mark, true⟩) db := by
        apply transact_answers
        rw [if_pos (by simp [plaintext, verifier])]
        exact ⟨_, rfl⟩
      apply Answers.bind written writes
      rintro _ _ rfl
      exact seal_answers converting sealable
  | @resumed key plaintext =>
      have converting : Converting crypto key .seal db := ⟨consistent, plaintext⟩
      exact seal_answers converting sealable

theorem openCipher_finishes (converting : Converting crypto key .seal db)
    (sealable : Sealable env (accountsLeft db.accounts db.progress) db) (free : engine = .sqlite → env.busy = false) :
    (openCipher crypto engine env (some key)).answer db = .ok (.sealing key) ∧
      Converted crypto key .seal ((openCipher crypto engine env (some key)).final db) ∧
      SameStore db ((openCipher crypto engine env (some key)).final db) := by
  have answers : Answers (openCipher crypto engine env (some key)) db := by
    unfold openCipher
    have resolved := resolve_resumes converting.consistent.mark converting.state (!db.accounts.isEmpty)
      (!db.progress.isEmpty) env.verifierNonce
    apply (settle_answers converting.consistent resolved rfl sealable).seq
    intro resolution db'
    split
    · exact (scrub_answers free).seq fun _ _ => ⟨_, rfl⟩
    · exact ⟨_, rfl⟩
  obtain ⟨cipher, answered⟩ := answers
  obtain ⟨resolution, rfl, settled⟩ := (openCipher_always converting.consistent).answers cipher answered
  cases settled.resolved with
  | resumed plaintext => exact ⟨answered, settled.converted rfl key rfl, settled.same⟩
  | opened encrypted =>
      have plaintext : db.encrypted = false := converting.state
      rw [plaintext] at encrypted
      cases encrypted

theorem decryptStore_finishes (converting : Converting crypto key .open db) :
    (∃ count, (decryptStore crypto env key).answer db = .ok count) ∧
      Converted crypto key .open ((decryptStore crypto env key).final db) ∧
      SameStore db ((decryptStore crypto env key).final db) := by
  have start : Always (store : Durable Db StoreError Db) db (fun _ => True) fun now here => db = now ∧ db = here :=
    Always.store ⟨rfl, rfl⟩
  have answers : Answers (decryptStore crypto env key) db := by
    unfold decryptStore
    apply Answers.bind start ⟨db, rfl⟩
    rintro _ _ ⟨rfl, rfl⟩
    rw [cipherForDecrypt_right converting.consistent.mark converting.state]
    have opens : Direction.open = .seal → Sealable env (accountsLeft db.accounts db.progress) db := by simp
    obtain ⟨turned, converted⟩ := convert_answers converting opens
    exact ⟨turned, converted⟩
  obtain ⟨count, answered⟩ := answers
  exact ⟨⟨count, answered⟩, (decryptStore_always converting.consistent).answers count answered⟩

end Wamux.Proof.Encryption
