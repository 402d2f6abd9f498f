import Wamux.Proof.Encryption.Lifetime

/-!
# What the scrub still owes

The scrub comes after the transaction that flips the state or swaps the mark, and nothing stored
says that it is still to be done. A run cut off in between is never made up for: the next open finds
an encrypted store and serves it.
-/

namespace Wamux.Proof.Encryption
open Wamux.Encryption Wamux.Runs Wamux.Runs.Durable

variable {crypto : Crypto} {engine : Engine} {env : Env} {db db' : Db} {marked : Option StoreKey} {key : StoreKey}

/-! ## The work before the scrub -/

theorem Midway.verifier (midway : Midway crypto key .seal db db') :
    db'.encrypted = false ∧ db'.verifier.isSome = true :=
  ⟨midway.converting.state, MarkedBy.verifier midway.converting.consistent.mark⟩

/-- The commits of `open_cipher` before its scrub: the mark of a new conversion, then the conversion. -/
def settlings (resolution : Resolution) (db : Db) : Nat :=
  (if resolution.mark.isSome then 1 else 0) + transactions (accountsLeft db.accounts db.progress)

theorem seal_counts {inv : Db → Prop} {resolution : Resolution} (converting : Converting crypto key .seal db)
    (midway : ∀ db', db'.encrypted = false ∧ db'.verifier.isSome = true → inv db') :
    Counts (convert crypto (.sealing key) .seal env >>= fun _ => pure resolution) db
      (transactions (accountsLeft db.accounts db.progress)) inv fun answer db' => answer = resolution ∧
        ConversionDone crypto key .seal env (accountsLeft db.accounts db.progress) db db' := by
  have turned : Counts (convert crypto (.sealing key) .seal env) db _ inv _ :=
    (convert_counts converting).weaken (fun _ here => midway _ here.verifier) fun _ _ done => done
  rw [← Nat.add_zero (transactions _)]
  apply turned.bind
  intro _ db' done
  exact Counts.pure ⟨rfl, done⟩

theorem settle_counts {inv : Db → Prop} {tried : Option StoreKey} {resolution : Resolution}
    (consistent : Consistent crypto marked db)
    (resolved : resolve crypto db.stored (!db.accounts.isEmpty) (!db.progress.isEmpty) tried env.verifierNonce =
      .ok resolution)
    (converts : resolution.convert = true) (start : inv db)
    (midway : ∀ db', db'.encrypted = false ∧ db'.verifier.isSome = true → inv db') :
    Counts (settle crypto env tried) db (settlings resolution db) inv fun answer db' => answer = resolution ∧
      ∃ key, resolution.cipher = .sealing key ∧
        ConversionDone crypto key .seal env (accountsLeft db.accounts db.progress) db db' := by
  unfold settle
  apply Counts.after (fun now here => db = now ∧ db = here) (Counts.store ⟨rfl, rfl⟩)
  rintro _ _ ⟨rfl, rfl⟩
  apply Counts.after (fun found here => resolution = found ∧ db = here)
  · apply Counts.ofExcept start
    intro found same
    rw [resolved] at same
    cases same
    exact ⟨rfl, rfl⟩
  rintro _ _ ⟨rfl, rfl⟩
  cases resolve_cases consistent.mark resolved with
  | passthrough | fresh | opened => cases converts
  | @begun key mark marks =>
      obtain ⟨plaintext, verifier, -⟩ := consistent.mark
      have converting := consistent.begin marks
      apply Counts.bind fun _ here =>
        here = { db with encrypted := false, keyId := some mark.keyId, verifier := some mark.verifier }
      · apply Counts.transact start
        intro db' ran
        rw [if_pos (by simp [plaintext, verifier])] at ran
        cases ran
        rfl
      · rintro _ _ rfl
        apply (seal_counts converting midway).weaken (fun _ here => here)
        rintro _ db' ⟨rfl, done⟩
        exact ⟨rfl, key, rfl, done.converted, ⟨done.same.accounts, done.same.idents⟩, done.drawn, done.owed⟩
  | @resumed key plaintext =>
      have converting : Converting crypto key .seal db := ⟨consistent, plaintext⟩
      apply Counts.bind (fun _ here => db = here) (Counts.pure rfl)
      rintro _ _ rfl
      apply (seal_counts converting midway).weaken (fun _ here => here)
      rintro _ db' ⟨rfl, done⟩
      exact ⟨rfl, key, rfl, done⟩

theorem rotateTransaction_counts {inv : Db → Prop} {old new : StoreKey} {rotation : Rotation}
    (consistent : Consistent crypto marked db)
    (planned : planRotation crypto db.stored (!db.progress.isEmpty) old new env.verifierNonce = .ok rotation)
    (start : inv db) :
    Counts (rotateTransaction crypto env old new) db 1 inv fun _ db' => Rotated crypto new db db' ∧
      Sealable env db.accounts db ∧ (db'.owed = true ↔ db.owed = true ∨ ∃ row ∈ db.rows, row.device ∈ db.accounts) := by
  have plan := planRotation_cases consistent.mark planned
  obtain rfl := plan.marked
  unfold rotateTransaction
  apply Counts.after (fun now here => db = now ∧ db = here) (Counts.store ⟨rfl, rfl⟩)
  rintro _ _ ⟨rfl, rfl⟩
  apply Counts.after (fun found here => rotation = found ∧ db = here)
  · apply Counts.ofExcept start
    intro found same
    rw [planned] at same
    cases same
    exact ⟨rfl, rfl⟩
  rintro _ _ ⟨rfl, rfl⟩
  rw [show 1 = 1 + 0 from rfl]
  apply Counts.bind fun _ db' => Rotated crypto new db db' ∧ Sealable env db.accounts db ∧
    (db'.owed = true ↔ db.owed = true ∨ ∃ row ∈ db.rows, row.device ∈ db.accounts)
  · apply Counts.transact start
    intro db' ran
    exact ⟨rotateAccounts_spec plan consistent ran, rotateAccounts_drawn plan consistent ran⟩
  · intro _ db' done
    exact Counts.pure done

/-! ## The work and the scrub -/

/-- A run that makes this many commits before its scrub is not stopped between the last of them and
the end of the scrub. -/
def ScrubCompletes (engine : Engine) (env : Env) (commits : Nat) : Option Nat → Prop
  | none => engine = .sqlite → env.busy = false
  | some n => n < commits ∨ commits + scrubStatements engine ≤ n ∧ (engine = .sqlite → env.busy = false)

def scrubbing {α β : Type} (env : Env) (engine : Engine) (work : Durable Db StoreError α) (answer : α → β) :
    Durable Db StoreError β := do
  let a ← work
  scrubOldPlaintext env engine
  return answer a

section
variable {α β : Type} {work : Durable Db StoreError α} {inv : Db → Prop} {post : α → Db → Prop} {commits : Nat}
  {answer : α → β} {stop : Option Nat} {a : α} {b : β}

theorem scrub_refuses (busy : ¬(engine = .sqlite → env.busy = false)) :
    ∃ e, (scrubOldPlaintext env engine db).2 = .error e := by
  cases engine with
  | pg => simp at busy
  | sqlite =>
      have busy : env.busy = true := by simpa using busy
      exact ⟨walBusy, by simp [scrubOldPlaintext, busy]; rfl⟩

theorem ends_counts : Counts (scrubOldPlaintext env engine >>= fun _ => pure b) db (scrubStatements engine) (· = db)
    fun _ db' => db' = { db with owed := false } := by
  rw [← Nat.add_zero (scrubStatements engine)]
  exact scrub_counts.bind _ fun _ _ done => Counts.pure done

theorem ends_scrubbed (stop : Option Nat) (free : engine = .sqlite → env.busy = false)
    (through : ∀ n, stop = some n → scrubStatements engine ≤ n) :
    leaves (scrubOldPlaintext env engine >>= fun _ => pure b) db stop = { db with owed := false } := by
  obtain ⟨b', answered⟩ : Answers (scrubOldPlaintext env engine >>= fun _ => pure b) db :=
    (scrub_answers free).seq fun _ _ => ⟨b, rfl⟩
  obtain ⟨length, done⟩ := ends_counts.answers b' answered
  cases stop with
  | none => exact done
  | some n =>
      have all := through n rfl
      rw [← length] at all
      rw [leaves, stopped_of_length_le all]
      exact done

theorem ends_cut (stop : Option Nat)
    (cut : ¬((engine = .sqlite → env.busy = false) ∧ ∀ n, stop = some n → scrubStatements engine ≤ n)) :
    leaves (scrubOldPlaintext env engine >>= fun _ => pure b) db stop = db := by
  by_cases free : engine = .sqlite → env.busy = false
  · cases stop with
    | none => exact absurd ⟨free, by simp⟩ cut
    | some n =>
        have early : n < scrubStatements engine := by
          by_contra through
          exact cut ⟨free, fun m same => by cases same; omega⟩
        exact ends_counts.early n early
  · obtain ⟨e, failed⟩ : ∃ e, (scrubOldPlaintext env engine db).2 = .error e := scrub_refuses free
    have failed : ((scrubOldPlaintext env engine >>= fun _ => pure b) db).2 = .error e := by rw [bind_error failed]
    cases stop with
    | none =>
        rw [leaves, final_eq_stopped]
        exact ends_counts.fails e failed _
    | some n => exact ends_counts.fails e failed n

theorem leaves_unscrubbed (counts : Counts work db commits inv post) (answered : (work db).2 = .ok a)
    (cut : ¬ScrubCompletes engine env commits stop) :
    leaves (scrubbing env engine work answer) db stop = work.final db := by
  obtain ⟨length, -⟩ := counts.answers a answered
  unfold scrubbing
  cases stop with
  | none =>
      rw [leaves, final_bind_ok answered]
      exact ends_cut none fun done => cut done.1
  | some n =>
      simp only [ScrubCompletes, not_or] at cut
      rw [leaves, stopped_bind_late answered (by omega)]
      apply ends_cut (some (n - (work db).1.length))
      rintro ⟨free, through⟩
      have all := through _ rfl
      exact cut.2 ⟨by omega, free⟩

theorem leaves_scrubbed {leftover : Prop} (counts : Counts work db commits inv post)
    (clean : ∀ db', db'.owed = false → inv db') (owes : ∀ a db', post a db' → db'.owed = true → leftover)
    (completes : leftover → ScrubCompletes engine env commits stop) :
    inv (leaves (scrubbing env engine work answer) db stop) := by
  cases answered : (work db).2 with
  | error e =>
      unfold scrubbing
      cases stop with
      | none =>
          rw [leaves, final_eq_stopped, stopped_bind_error answered]
          exact counts.fails e answered _
      | some n =>
          rw [leaves, stopped_bind_error answered]
          exact counts.fails e answered n
  | ok a =>
      obtain ⟨length, here⟩ := counts.answers a answered
      by_cases done : ScrubCompletes engine env commits stop
      · unfold scrubbing
        cases stop with
        | none =>
            rw [leaves, final_bind_ok answered]
            apply clean
            exact congrArg Db.owed (ends_scrubbed none done (by simp))
        | some n =>
            by_cases early : n < commits
            · rw [leaves, stopped_bind_early (by omega)]
              exact counts.early n early
            · obtain ⟨through, free⟩ := done.resolve_left early
              rw [leaves, stopped_bind_late answered (by omega)]
              apply clean
              apply congrArg Db.owed (ends_scrubbed (some (n - (work db).1.length)) free _)
              intro m same
              cases same
              omega
      · rw [leaves_unscrubbed counts answered done]
        by_cases owed : (work.final db).owed = true
        · exact absurd (completes (owes a _ here owed)) done
        · exact clean _ (by simpa using owed)

theorem answers_scrubbed (answered : (scrubbing env engine work answer db).2 = .ok b) :
    ((scrubbing env engine work answer).final db).owed = false := by
  unfold scrubbing at answered ⊢
  cases worked : (work db).2 with
  | error e =>
      rw [bind_error worked] at answered
      cases answered
  | ok a =>
      rw [bind_ok worked] at answered
      rw [final_bind_ok worked, (ends_counts.answers b answered).2]

end

/-! ## Every run -/

/-- When a run answers, a whole scrub has followed the last transaction that replaced secrets. -/
structure Scrubbed (crypto : Crypto) (engine : Engine) (s : State) : Prop where
  opens : ∀ tried env key, (openCipher crypto engine env tried).answer s.db = .ok (.sealing key) →
    ((openCipher crypto engine env tried).final s.db).owed = false
  rotates : ∀ old new env count, (rotateStore crypto engine env old new).answer s.db = .ok count →
    ((rotateStore crypto engine env old new).final s.db).owed = false

def Replaces (env : Env) (devices : List DeviceId) (db : Db) : Prop :=
  Sealable env devices db ∧ (db.owed = true ∨ ∃ row ∈ db.rows, row.device ∈ devices)

/-- A conversion or a rotation that leaves old secrets behind is not stopped in its scrub. -/
def ScrubsThrough (crypto : Crypto) (engine : Engine) (s : State) : Event → Prop
  | .open tried env stop => ∀ resolution,
      resolve crypto s.db.stored (!s.db.accounts.isEmpty) (!s.db.progress.isEmpty) tried env.verifierNonce =
        .ok resolution → resolution.convert = true → Replaces env (accountsLeft s.db.accounts s.db.progress) s.db →
      ScrubCompletes engine env (settlings resolution s.db) stop
  | .rotate old new env stop => ∀ rotation,
      planRotation crypto s.db.stored (!s.db.progress.isEmpty) old new env.verifierNonce = .ok rotation →
      Replaces env s.db.accounts s.db → ScrubCompletes engine env 1 stop
  | _ => True

def OwesMidway (db : Db) : Prop := db.owed = true → db.encrypted = false ∧ db.verifier.isSome = true

theorem rotateStore_eq (old new : StoreKey) :
    rotateStore crypto engine env old new = scrubbing env engine (rotateTransaction crypto env old new) id := rfl

theorem OwesMidway.encrypted (owes : OwesMidway db) (encrypted : db.encrypted = true) : db.owed = false := by
  by_contra owed
  have midway := (owes (by simpa using owed)).1
  rw [encrypted] at midway
  cases midway

theorem OwesMidway.unmarked (owes : OwesMidway db) (unmarked : db.verifier = none) : db.owed = false := by
  by_contra owed
  have midway := (owes (by simpa using owed)).2
  rw [unmarked] at midway
  cases midway

theorem OwesMidway.of_clean (clean : db.owed = false) : OwesMidway db := by
  intro owed
  rw [clean] at owed
  cases owed

theorem leaves_congr {α β : Type} {run : Durable Db StoreError α} {run' : Durable Db StoreError β}
    (same : (run db).1 = (run' db).1) (stop : Option Nat) : leaves run db stop = leaves run' db stop := by
  cases stop with
  | none => simp only [leaves, final, same]
  | some n => simp only [leaves, stopped, same]

theorem leaves_refused {α : Type} {run : Durable Db StoreError α} (refused : Refuses run db) (stop : Option Nat) :
    leaves run db stop = db := by
  obtain ⟨e, refused⟩ := refused
  cases stop with
  | none => simp [leaves, final, refused]
  | some n => simp [leaves, stopped, refused]

section
variable {tried : Option StoreKey} {resolution : Resolution}

theorem openCipher_unresolved
    (never : ∀ resolution, resolve crypto db.stored (!db.accounts.isEmpty) (!db.progress.isEmpty) tried
      env.verifierNonce ≠ .ok resolution) : Refuses (openCipher crypto engine env tried) db := by
  unfold openCipher settle
  apply Refuses.bind
  apply Refuses.after (rfl : store db = ([], .ok db))
  apply Refuses.bind
  exact Refuses.ofExcept never

theorem openCipher_converts (consistent : Consistent crypto marked db)
    (resolved : resolve crypto db.stored (!db.accounts.isEmpty) (!db.progress.isEmpty) tried env.verifierNonce =
      .ok resolution)
    (converts : resolution.convert = true) :
    openCipher crypto engine env tried db = scrubbing env engine (settle crypto env tried) Resolution.cipher db := by
  have counts : Counts (settle crypto env tried) db _ (fun _ => True) _ :=
    settle_counts consistent resolved converts trivial fun _ _ => trivial
  unfold openCipher scrubbing
  cases answered : (settle crypto env tried db).2 with
  | error e => rw [bind_error answered, bind_error answered]
  | ok found =>
      obtain ⟨-, rfl, -⟩ := counts.answers found answered
      rw [bind_ok answered, bind_ok answered, if_pos converts]

theorem openCipher_plain (consistent : Consistent crypto marked db) (owes : OwesMidway db)
    (resolved : resolve crypto db.stored (!db.accounts.isEmpty) (!db.progress.isEmpty) tried env.verifierNonce =
      .ok resolution)
    (plain : resolution.convert = false) :
    Always (openCipher crypto engine env tried) db (·.owed = false) fun _ db' => db'.owed = false := by
  have way := resolve_cases consistent.mark resolved
  have clean : db.owed = false := by
    cases way with
    | passthrough | fresh | begun => exact owes.unmarked consistent.mark.2.1
    | resumed => cases plain
    | opened encrypted => exact owes.encrypted encrypted
  have marked : Always (writeMark resolution) db (·.owed = false) fun _ db' => db'.owed = false := by
    unfold writeMark
    split
    · exact Always.pure clean
    · apply Always.transact
      intro db' ran
      simp only [plain, Bool.false_eq_true, if_false] at ran
      split at ran
      · cases ran
        exact ⟨clean, clean⟩
      · cases ran
  have settled : Always (settle crypto env tried) db (·.owed = false)
      fun answer db' => answer = resolution ∧ db'.owed = false := by
    unfold settle
    apply Always.bind (fun now here => db = now ∧ db = here) (Always.store ⟨rfl, rfl⟩)
    rintro _ _ ⟨rfl, rfl⟩
    apply Always.bind (fun found here => resolution = found ∧ db = here)
    · apply Always.ofExcept
      intro found same
      rw [resolved] at same
      cases same
      exact ⟨rfl, rfl⟩
    rintro _ _ ⟨rfl, rfl⟩
    apply Always.bind _ marked
    intro _ middle clean
    rw [if_neg (by simp [plain])]
    exact Always.pure ⟨rfl, clean⟩
  unfold openCipher
  apply Always.bind _ settled
  rintro _ middle ⟨rfl, clean⟩
  rw [if_neg (by simp [plain])]
  exact Always.pure clean

theorem openCipher_leaves {stop : Option Nat} (consistent : Consistent crypto marked db) (owes : OwesMidway db)
    (through : ∀ resolution, resolve crypto db.stored (!db.accounts.isEmpty) (!db.progress.isEmpty) tried
      env.verifierNonce = .ok resolution → resolution.convert = true →
      Replaces env (accountsLeft db.accounts db.progress) db → ScrubCompletes engine env (settlings resolution db) stop) :
    OwesMidway (leaves (openCipher crypto engine env tried) db stop) := by
  cases resolved : resolve crypto db.stored (!db.accounts.isEmpty) (!db.progress.isEmpty) tried env.verifierNonce with
  | error e =>
      rw [leaves_refused (openCipher_unresolved (by simp [resolved]))]
      exact owes
  | ok resolution =>
      cases converts : resolution.convert with
      | false =>
          have always : Always (openCipher crypto engine env tried) db _ _ :=
            openCipher_plain consistent owes resolved converts
          apply leaves_of_always (always.weaken (fun _ clean => OwesMidway.of_clean clean) fun _ _ clean => clean) owes
      | true =>
          rw [leaves_congr (congrArg Prod.fst (openCipher_converts consistent resolved converts))]
          apply leaves_scrubbed (settle_counts consistent resolved converts owes fun _ midway _ => midway)
            (fun _ => OwesMidway.of_clean) _ (through resolution resolved converts)
          rintro _ db' ⟨-, key, -, done⟩ owed
          exact ⟨done.drawn rfl, by simpa using done.owed.1 owed⟩

theorem openCipher_scrubs (consistent : Consistent crypto marked db) (owes : OwesMidway db) {cipher : BlobCipher}
    (answered : (openCipher crypto engine env tried).answer db = .ok cipher) :
    ((openCipher crypto engine env tried).final db).owed = false := by
  cases resolved : resolve crypto db.stored (!db.accounts.isEmpty) (!db.progress.isEmpty) tried env.verifierNonce with
  | error e =>
      obtain ⟨e, refused⟩ : Refuses (openCipher crypto engine env tried) db :=
        openCipher_unresolved (by simp [resolved])
      rw [answer, refused] at answered
      cases answered
  | ok resolution =>
      cases converts : resolution.convert with
      | false => exact (openCipher_plain consistent owes resolved converts).answers cipher answered
      | true =>
          have same : openCipher crypto engine env tried db = _ := openCipher_converts consistent resolved converts
          rw [answer, same] at answered
          rw [final, same]
          exact answers_scrubbed answered

end

theorem decryptStore_owed (consistent : Consistent crypto marked db) (owes : OwesMidway db) :
    Always (decryptStore crypto env key) db OwesMidway fun _ _ => True := by
  unfold decryptStore
  apply Always.bind (fun now here => db = now ∧ db = here) (Always.store ⟨rfl, rfl⟩)
  rintro _ _ ⟨rfl, rfl⟩
  apply Always.bind (fun cipher here => Converting crypto key .open db ∧ cipher = .sealing key ∧ db = here)
  · apply Always.ofExcept
    intro cipher resolved
    obtain ⟨rfl, encrypted, sealing⟩ := cipherForDecrypt_cases consistent.mark resolved
    exact ⟨⟨consistent, encrypted⟩, sealing, rfl⟩
  · rintro _ _ ⟨converting, rfl, rfl⟩
    have clean := owes.encrypted converting.state
    apply (convert_counts converting).always.weaken _ fun _ _ _ => trivial
    rintro db' (midway | ⟨_, done⟩)
    · exact .of_clean ((midway.owed rfl).trans clean)
    · have owed := done.owed
      simp only [clean, Bool.false_eq_true, reduceCtorEq, false_and, or_false, iff_false, Bool.not_eq_true] at owed
      exact .of_clean owed

theorem rotateStore_leaves {old new : StoreKey} {stop : Option Nat} (consistent : Consistent crypto marked db)
    (owes : OwesMidway db)
    (through : ∀ rotation, planRotation crypto db.stored (!db.progress.isEmpty) old new env.verifierNonce = .ok rotation →
      Replaces env db.accounts db → ScrubCompletes engine env 1 stop) :
    OwesMidway (leaves (rotateStore crypto engine env old new) db stop) := by
  cases planned : planRotation crypto db.stored (!db.progress.isEmpty) old new env.verifierNonce with
  | error e =>
      have refused : Refuses (rotateStore crypto engine env old new) db := by
        unfold rotateStore rotateTransaction
        apply Refuses.bind
        apply Refuses.after (rfl : store db = ([], .ok db))
        apply Refuses.bind
        exact Refuses.ofExcept (by simp [planned])
      rw [leaves_refused refused]
      exact owes
  | ok rotation =>
      rw [rotateStore_eq]
      apply leaves_scrubbed (rotateTransaction_counts consistent planned owes) (fun _ => OwesMidway.of_clean) _
        (through rotation planned)
      rintro _ db' ⟨-, drawn, owed⟩ now
      exact ⟨drawn, owed.1 now⟩

theorem OwesMidway.step {s s' : State} {e : Event} (kept : Kept crypto s) (owes : OwesMidway s.db)
    (through : ScrubsThrough crypto engine s e) (moved : step crypto engine s e = some s') : OwesMidway s'.db := by
  obtain ⟨marked, consistent⟩ := kept.consistent
  cases e with
  | «open» tried env stop =>
      cases moved
      exact openCipher_leaves consistent owes through
  | decrypt key env stop =>
      cases moved
      exact leaves_of_always (decryptStore_owed consistent owes) owes stop
  | rotate old new env stop =>
      cases moved
      exact rotateStore_leaves consistent owes through
  | create device =>
      simp only [Encryption.step] at moved
      split at moved
      · cases moved
      · cases moved
        exact owes
  | delete device =>
      cases moved
      exact owes
  | write device column parts plaintext nonce =>
      simp only [Encryption.step] at moved
      split at moved
      · cases moved
      · split at moved
        · split at moved
          · cases moved
            exact owes
          · cases moved
            exact owes
        · cases moved
  | remove device column parts =>
      simp only [Encryption.step] at moved
      split at moved
      · cases moved
      · cases moved
        exact owes

theorem owesMidway_of_reaches {s : State} (reaches : (machine crypto engine).Reaches (ScrubsThrough crypto engine) s) :
    Kept crypto s ∧ OwesMidway s.db := by
  apply reaches.invariant fun s => Kept crypto s ∧ OwesMidway s.db
  · exact ⟨kept_initial, OwesMidway.of_clean rfl⟩
  · rintro s e s' ⟨kept, owes⟩ through moved
    exact ⟨kept.step moved, owes.step kept through moved⟩

/-! ## A run cut off in its scrub -/

theorem serves_unscrubbed {s : State} (serves : Serves crypto (.sealing key) s.db) (owed : s.db.owed = true) :
    ¬Scrubbed crypto engine s := by
  intro scrubbed
  have resolved : resolve crypto s.db.stored (!s.db.accounts.isEmpty) (!s.db.progress.isEmpty) (some key) none =
      .ok ⟨.sealing key, none, false⟩ := by
    unfold resolve
    rw [if_pos (show s.db.stored.encrypted = true from serves.state), if_neg (by simp [serves.progress])]
    exact verifyKey_right serves.consistent.mark
  have ran : openCipher crypto engine ⟨fun _ _ _ => none, none, false⟩ (some key) s.db = ([], .ok (.sealing key)) := by
    have settled : settle crypto ⟨fun _ _ _ => none, none, false⟩ (some key) s.db =
        ([], .ok ⟨.sealing key, none, false⟩) := by
      rw [settle, store_bind, resolved, ofExcept_bind]
      rfl
    have answered := congrArg Prod.snd settled
    rw [openCipher, bind_ok answered, settled]
    rfl
  have clean := scrubbed.opens (some key) ⟨fun _ _ _ => none, none, false⟩ key (by rw [answer, ran])
  rw [final, ran] at clean
  rw [show s.db.owed = false from clean] at owed
  cases owed

theorem openCipher_cut {tried : Option StoreKey} {stop : Option Nat} {resolution : Resolution}
    (consistent : Consistent crypto marked db)
    (resolved : resolve crypto db.stored (!db.accounts.isEmpty) (!db.progress.isEmpty) tried env.verifierNonce =
      .ok resolution)
    (converts : resolution.convert = true) (replaces : Replaces env (accountsLeft db.accounts db.progress) db)
    (cut : ¬ScrubCompletes engine env (settlings resolution db) stop) :
    ∃ key, Serves crypto (.sealing key) (leaves (openCipher crypto engine env tried) db stop) ∧
      (leaves (openCipher crypto engine env tried) db stop).owed = true := by
  obtain ⟨sealable, secrets⟩ := replaces
  have counts : Counts (settle crypto env tried) db _ (fun _ => True) _ :=
    settle_counts consistent resolved converts trivial fun _ _ => trivial
  obtain ⟨found, answered⟩ := settle_answers consistent resolved converts sealable
  obtain ⟨-, -, key, -, done⟩ := counts.answers found answered
  rw [leaves_congr (congrArg Prod.fst (openCipher_converts consistent resolved converts)),
    leaves_unscrubbed counts answered cut]
  exact ⟨key, done.converted.serves, done.owed.2 (by simpa using secrets)⟩

theorem rotateStore_cut {old new : StoreKey} {stop : Option Nat} {rotation : Rotation}
    (consistent : Consistent crypto marked db)
    (planned : planRotation crypto db.stored (!db.progress.isEmpty) old new env.verifierNonce = .ok rotation)
    (replaces : Replaces env db.accounts db) (cut : ¬ScrubCompletes engine env 1 stop) :
    Serves crypto (.sealing new) (leaves (rotateStore crypto engine env old new) db stop) ∧
      (leaves (rotateStore crypto engine env old new) db stop).owed = true := by
  obtain ⟨sealable, secrets⟩ := replaces
  have plan := planRotation_cases consistent.mark planned
  obtain rfl := plan.marked
  have counts : Counts (rotateTransaction crypto env old new) db 1 (fun _ => True) _ :=
    rotateTransaction_counts consistent planned trivial
  have answers : Answers (rotateTransaction crypto env old new) db := by
    unfold rotateTransaction Answers
    rw [store_bind, planned, ofExcept_bind]
    exact Answers.seq (transact_answers (rotateAccounts_ok plan consistent sealable)) fun _ _ => ⟨_, rfl⟩
  obtain ⟨count, answered⟩ := answers
  obtain ⟨-, rotated, -, owed⟩ := counts.answers count answered
  rw [rotateStore_eq, leaves_unscrubbed counts answered cut]
  exact ⟨rotated.serves, owed.2 secrets⟩

theorem cut_unscrubbed {s s' : State} {e : Event} (kept : Kept crypto s) (cut : ¬ScrubsThrough crypto engine s e)
    (moved : step crypto engine s e = some s') : ¬Scrubbed crypto engine s' := by
  obtain ⟨marked, consistent⟩ := kept.consistent
  cases e with
  | «open» tried env stop =>
      simp only [ScrubsThrough, not_forall] at cut
      obtain ⟨resolution, resolved, converts, replaces, cut⟩ := cut
      obtain ⟨key, serves, owed⟩ := openCipher_cut consistent resolved converts replaces cut
      cases moved
      exact serves_unscrubbed serves owed
  | rotate old new env stop =>
      simp only [ScrubsThrough, not_forall] at cut
      obtain ⟨rotation, planned, replaces, cut⟩ := cut
      obtain ⟨serves, owed⟩ := rotateStore_cut consistent planned replaces cut
      cases moved
      exact serves_unscrubbed serves owed
  | decrypt | create | delete | write | remove => exact absurd trivial cut

/-- Where no run is stopped in its scrub, whatever is served was scrubbed; after one that was, the same
key opens the store unscrubbed. -/
theorem scrubbed_when_served (crypto : Crypto) (engine : Engine) :
    (∀ s, (machine crypto engine).Reaches (ScrubsThrough crypto engine) s → Scrubbed crypto engine s) ∧
      ∀ s e s', (machine crypto engine).Reaches Machine.Free s → ¬ScrubsThrough crypto engine s e →
        step crypto engine s e = some s' → ¬Scrubbed crypto engine s' := by
  constructor
  · intro s reaches
    obtain ⟨kept, owes⟩ := owesMidway_of_reaches reaches
    obtain ⟨marked, consistent⟩ := kept.consistent
    refine ⟨fun tried env key answered => openCipher_scrubs consistent owes answered, ?_⟩
    intro old new env count answered
    exact answers_scrubbed answered
  · intro s e s' reaches cut moved
    exact cut_unscrubbed (kept_of_reaches reaches) cut moved

def quiet (_ : State) : Event → Bool
  | .open _ env stop | .rotate _ _ env stop => stop.isNone && !env.busy
  | _ => true

theorem quiet_sound (s : State) (e : Event) (passes : quiet s e = true) : ScrubsThrough crypto engine s e := by
  cases e with
  | «open» tried env stop =>
      simp only [quiet, Bool.and_eq_true, Option.isNone_iff_eq_none, Bool.not_eq_true'] at passes
      obtain ⟨rfl, free⟩ := passes
      exact fun _ _ _ _ _ => free
  | rotate old new env stop =>
      simp only [quiet, Bool.and_eq_true, Option.isNone_iff_eq_none, Bool.not_eq_true'] at passes
      obtain ⟨rfl, free⟩ := passes
      exact fun _ _ _ _ => free
  | decrypt | create | delete | write | remove => trivial

theorem scrubbed_when_served_once : ∃ s, (machine openLetter .sqlite).Reaches (ScrubsThrough openLetter .sqlite) s ∧
    s.db.encrypted = true ∧ s.db.rows ≠ [] ∧ Scrubbed openLetter .sqlite s := by
  obtain ⟨s, reaches, passes⟩ := Machine.reaches_of_replay (m := machine openLetter .sqlite) quiet_sound
    (fun s => s.db.encrypted && !s.db.rows.isEmpty)
    [.create 1, .open none calm none, .write 1 ⟨"device", "data", []⟩ [] [5, 6] none, .open (some sevens) calm none]
    (by decide +kernel)
  simp only [Bool.and_eq_true, Bool.not_eq_true', List.isEmpty_eq_false_iff] at passes
  exact ⟨s, reaches, passes.1, passes.2, (scrubbed_when_served openLetter .sqlite).1 s reaches⟩

/-- The checkpoint is busy, the run says to run again, and the next one serves what was not scrubbed. -/
def runAgain : List Event :=
  [.create 1, .open none calm none, .write 1 ⟨"device", "data", []⟩ [] [5, 6] none,
    .open (some sevens) { calm with busy := true } none]

theorem served_unscrubbed : ¬∀ s, (machine openLetter .sqlite).Reaches Machine.Free s → Scrubbed openLetter .sqlite s := by
  intro claim
  obtain ⟨s, reaches, passes⟩ := Machine.reaches_of_replay (m := machine openLetter .sqlite) Machine.free_sound
    (fun s => decide ((openCipher openLetter .sqlite calm (some sevens)).answer s.db = .ok (.sealing sevens)) &&
      ((openCipher openLetter .sqlite calm (some sevens)).final s.db).owed) runAgain (by decide +kernel)
  simp only [Bool.and_eq_true, decide_eq_true_eq] at passes
  have clean := (claim s reaches).opens (some sevens) calm sevens passes.1
  rw [passes.2] at clean
  cases clean

end Wamux.Proof.Encryption
