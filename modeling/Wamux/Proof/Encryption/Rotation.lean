import Wamux.Proof.Encryption.Opening

namespace Wamux.Proof.Encryption
open Wamux.Encryption Wamux.Runs Wamux.Runs.Durable

variable {crypto : Crypto} {engine : Engine} {env : Env} {db db' : Db} {marked : Option StoreKey} {old new : StoreKey}

structure Rotated (crypto : Crypto) (new : StoreKey) (db db' : Db) : Prop where
  serves : Serves crypto (.sealing new) db'
  same : SameStore db db'

structure Planned (crypto : Crypto) (marked : Option StoreKey) (old new : StoreKey) (db : Db) (rotation : Rotation) :
    Prop where
  marked : marked = some old
  encrypted : db.encrypted = true
  progress : db.progress = []
  opens : rotation.opens = .sealing old
  seals : rotation.seals = .sealing new
  marks : ∀ encrypted, Marks crypto new ⟨encrypted, some rotation.mark.keyId, some rotation.mark.verifier⟩

theorem planRotation_cases {nonce : Option Nonce} {rotation : Rotation} (mark : MarkedBy crypto db marked)
    (planned : planRotation crypto db.stored (!db.progress.isEmpty) old new nonce = .ok rotation) :
    Planned crypto marked old new db rotation := by
  unfold planRotation at planned
  cases encrypted : db.encrypted with
  | false =>
      rw [show db.stored.encrypted = false from encrypted] at planned
      cases planned
  | true =>
      rw [show db.stored.encrypted = true from encrypted, if_neg (by simp)] at planned
      cases whole : db.progress.isEmpty with
      | false =>
          rw [whole] at planned
          cases planned
      | true =>
          rw [whole, if_neg (by simp)] at planned
          cases marked with
          | none =>
              obtain ⟨plaintext, -⟩ := mark
              rw [plaintext] at encrypted
              cases encrypted
          | some key =>
              cases verified : verifyKey crypto db.stored old with
              | error e => simp [verified, bind, Except.bind] at planned
              | ok found =>
                  obtain ⟨rfl, rfl⟩ := verifyKey_cases mark verified
                  simp only [verified, bind, Except.bind] at planned
                  split at planned
                  · cases planned
                  · cases made : newEncryptedStore crypto new nonce with
                    | error e => simp [made] at planned
                    | ok resolution =>
                        obtain ⟨-, -, mark, marked, marks⟩ := newEncryptedStore_marks made
                        simp only [made, marked, pure, Except.pure, Except.ok.injEq] at planned
                        subst planned
                        exact ⟨rfl, encrypted, List.isEmpty_iff.1 whole, rfl, rfl, marks⟩

theorem Turned.rotated {row row' : Row} (turned : Turned crypto (.rotate (.sealing old) (.sealing new)) env row row')
    (before : SealedUnder crypto old row) : SealedUnder crypto new row' := by
  obtain ⟨same, blob⟩ := turned
  obtain ⟨nonce, sealed⟩ := before
  simp only [turnBlob, open_seal sealed, bind, Except.bind] at blob
  rw [same]
  exact ⟨_, blob⟩

theorem Serves.sealed {key : StoreKey} (serves : Serves crypto (.sealing key) db) (row : Row) (member : row ∈ db.rows) :
    SealedUnder crypto key row := by
  have form := serves.consistent.rows row member
  rwa [saysSealed, serves.progress, serves.state] at form

theorem rotateAccounts_turns {rotation : Rotation} (planned : Planned crypto (some old) old new db rotation)
    (consistent : Consistent crypto (some old) db) (ran : rotateAccounts crypto rotation env db = .ok db') :
    ∃ turned, Turns crypto (.rotate (.sealing old) (.sealing new)) env
        (fun n => n.1 ∈ db.accounts ∧ n.2.1 ∈ sealedColumns) db turned ∧
      db' = { turned with keyId := some rotation.mark.keyId, verifier := some rotation.mark.verifier } := by
  have wellFormed := consistent.wellFormed
  have perm := List.perm_insertionSort (· ≤ ·) db.accounts
  simp only [rotateAccounts, planned.opens, planned.seals] at ran
  cases columns : (db.accounts.insertionSort (· ≤ ·)).foldlM
      (convertColumns crypto (.rotate (.sealing old) (.sealing new)) env) db with
  | error e => simp [columns, bind, Except.bind] at ran
  | ok turned =>
      have turns := convertDevices_turns (perm.nodup_iff.2 wellFormed.accounts) wellFormed.distinct columns
      have encrypted : turned.encrypted = true := by
        rw [turns.frame]
        exact planned.encrypted
      simp only [columns, bind, Except.bind, swapMark, encrypted, if_true, Except.ok.injEq] at ran
      refine ⟨turned, turns.congr ?_, by rw [← ran, encrypted]⟩
      intro row _
      rw [perm.mem_iff]

theorem rotateAccounts_spec {rotation : Rotation} (planned : Planned crypto (some old) old new db rotation)
    (consistent : Consistent crypto (some old) db) (ran : rotateAccounts crypto rotation env db = .ok db') :
    Rotated crypto new db db' := by
  have serves : Serves crypto (.sealing old) db := ⟨consistent, planned.encrypted, planned.progress⟩
  have wellFormed := consistent.wellFormed
  obtain ⟨turned, turns, rfl⟩ := rotateAccounts_turns planned consistent ran
  have frame := turns.frame
  have accounts : turned.accounts = db.accounts := by rw [frame]
  have encrypted : turned.encrypted = true := by rw [frame]; exact planned.encrypted
  have progress : turned.progress = [] := by rw [frame]; exact planned.progress
  have history : turned.turned = db.turned := by rw [frame]
  have kept := turns.wellFormed wellFormed
  refine ⟨⟨⟨⟨kept.1, kept.2, kept.3, kept.4⟩, planned.marks _, ?_, ?_⟩, encrypted, progress⟩, accounts, turns.ident_eq⟩
  · intro row member
    have sealed : SealedUnder crypto new row := by
      rcases turns.row_cases member with ⟨before, present, -, turned⟩ | ⟨present, other⟩
      · exact turned.rotated (serves.sealed before present)
      · exact absurd (wellFormed.owned row present) other
    simpa [saysSealed, encrypted, progress, InForm, cipherKey] using sealed
  · intro d
    show turned.turned.count d = _
    rw [history, consistent.turned d, progress, planned.progress]

theorem SealedUnder.empty {key : StoreKey} {row : Row} (sealed : SealedUnder crypto key row) :
    row.blob = [] ↔ row.written = [] := by
  obtain ⟨nonce, sealed⟩ := sealed
  rcases seal_eq sealed with ⟨empty, blob⟩ | ⟨present, drawn, -, blob⟩
  · simp [empty, blob]
  · simp [present, blob, blobOf]

theorem rotateAccounts_drawn {rotation : Rotation} (planned : Planned crypto (some old) old new db rotation)
    (consistent : Consistent crypto (some old) db) (ran : rotateAccounts crypto rotation env db = .ok db') :
    Sealable env db.accounts db ∧ (db'.owed = true ↔ db.owed = true ∨ ∃ row ∈ db.rows, row.device ∈ db.accounts) := by
  have serves : Serves crypto (.sealing old) db := ⟨consistent, planned.encrypted, planned.progress⟩
  obtain ⟨turned, turns, rfl⟩ := rotateAccounts_turns planned consistent ran
  constructor
  · intro row member _
    obtain ⟨f, -, each⟩ := turns.rows
    have empties := (serves.sealed row member).empty
    obtain ⟨nonce, before⟩ := serves.sealed row member
    have blob := ((each row member).1 (consistent.wellFormed.owned row member)).blob
    simp only [turnBlob, open_seal before, bind, Except.bind] at blob
    rcases seal_eq blob with ⟨empty, -⟩ | ⟨-, drawn, same, -⟩
    · exact .inl (empties.2 empty)
    · exact .inr (by rw [same]; rfl)
  · have mine : (∃ row ∈ db.rows, row.name.1 ∈ db.accounts ∧ row.name.2.1 ∈ sealedColumns) ↔
        ∃ row ∈ db.rows, row.device ∈ db.accounts :=
      exists_congr fun row => and_congr_right fun member => and_iff_left (consistent.wellFormed.owned row member).2
    show turned.owed = true ↔ _
    rw [turns.owed, mine]
    simp [Turn.leavesSecrets]

theorem rotateAccounts_ok {rotation : Rotation} (planned : Planned crypto (some old) old new db rotation)
    (consistent : Consistent crypto (some old) db) (sealable : Sealable env db.accounts db) :
    ∃ db', rotateAccounts crypto rotation env db = .ok db' := by
  have serves : Serves crypto (.sealing old) db := ⟨consistent, planned.encrypted, planned.progress⟩
  have wellFormed := consistent.wellFormed
  have perm := List.perm_insertionSort (· ≤ ·) db.accounts
  have able : Turnable crypto (.rotate (.sealing old) (.sealing new)) env
      (fun n => n.1 ∈ db.accounts.insertionSort (· ≤ ·) ∧ n.2.1 ∈ sealedColumns) db := by
    intro row member _
    have sealed := serves.sealed row member
    have drawn := sealable row member (wellFormed.owned row member).1
    rw [sealed.empty] at drawn
    obtain ⟨nonce, before⟩ := sealed
    obtain ⟨blob, after⟩ := seal_ok (rowContext row.device row.column row.parts) drawn
    simp only [turnBlob, open_seal before, bind, Except.bind]
    exact ⟨blob, after⟩
  obtain ⟨turned, columns⟩ := convertDevices_ok (perm.nodup_iff.2 wellFormed.accounts) wellFormed.distinct able
  have turns := convertDevices_turns (perm.nodup_iff.2 wellFormed.accounts) wellFormed.distinct columns
  have encrypted : turned.encrypted = true := by
    rw [turns.frame]
    exact planned.encrypted
  simp only [rotateAccounts, planned.opens, planned.seals, columns, bind, Except.bind, swapMark, encrypted, if_true]
  exact ⟨_, rfl⟩

theorem OwedOnly.rotated {middle : Db} (owed : OwedOnly middle db') (rotated : Rotated crypto new db middle) :
    Rotated crypto new db db' := ⟨owed.serves rotated.serves, rotated.same.trans owed.same⟩

theorem rotateTransaction_always (consistent : Consistent crypto marked db) :
    Always (rotateTransaction crypto env old new) db (Rotated crypto new db) fun _ db' => Rotated crypto new db db' := by
  unfold rotateTransaction
  apply Always.bind (fun now here => db = now ∧ db = here) (Always.store ⟨rfl, rfl⟩)
  rintro _ _ ⟨rfl, rfl⟩
  apply Always.bind (fun rotation here => Planned crypto marked old new db rotation ∧ db = here)
    (Always.ofExcept fun _ planned => ⟨planRotation_cases consistent.mark planned, rfl⟩)
  rintro rotation _ ⟨planned, rfl⟩
  obtain rfl := planned.marked
  apply Always.bind (fun _ db' => Rotated crypto new db db')
  · apply Always.transact
    intro db' ran
    have rotated := rotateAccounts_spec planned consistent ran
    exact ⟨rotated, rotated⟩
  · intro _ db' rotated
    exact Always.pure rotated

theorem rotateStore_always (consistent : Consistent crypto marked db) :
    Always (rotateStore crypto engine env old new) db (Rotated crypto new db) fun _ db' => Rotated crypto new db db' := by
  unfold rotateStore
  apply Always.bind _ (rotateTransaction_always consistent)
  intro _ middle rotated
  apply Always.bind (fun _ db' => Rotated crypto new db db')
  · exact scrub_always.weaken (fun _ owed => owed.rotated rotated) fun _ _ owed => owed.rotated rotated
  · intro _ db' rotated
    exact Always.pure rotated

end Wamux.Proof.Encryption
