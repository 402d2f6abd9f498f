import Wamux.Proof.Encryption.Reruns

namespace Wamux.Proof.Encryption
open Wamux.Encryption Wamux.Runs Wamux.Runs.Durable

variable {crypto : Crypto} {engine : Engine} {env : Env} {db db' : Db} {marked : Option StoreKey} {cipher : BlobCipher}

/-! ## Between the runs -/

theorem MarkedBy.congr (mark : MarkedBy crypto db marked) (stored : db'.stored = db.stored)
    (progress : db.progress = [] → db'.progress = []) : MarkedBy crypto db' marked := by
  simp only [Db.stored, StoredEncryption.mk.injEq] at stored
  obtain ⟨encrypted, keyId, verifier⟩ := stored
  cases marked with
  | none =>
      obtain ⟨plaintext, unmarked, whole⟩ := mark
      exact ⟨encrypted.trans plaintext, verifier.trans unmarked, progress whole⟩
  | some key =>
      obtain ⟨marks, blob⟩ : Marks crypto key db.stored := mark
      have marks' : db'.keyId = some (crypto.id key) := keyId.trans marks
      refine ⟨marks', ?_⟩
      show ∃ blob nonce, db'.verifier = some blob ∧ _
      rw [verifier]
      exact blob

theorem Consistent.create {device : DeviceId} (consistent : Consistent crypto marked db) (fresh : device ∉ db.accounts) :
    Consistent crypto marked { db with accounts := db.accounts ++ [device] } := by
  obtain ⟨⟨accounts, distinct, owned, progress⟩, mark, rows, turned⟩ := consistent
  refine ⟨⟨?_, distinct, ?_, ?_⟩, mark.congr rfl id, rows, turned⟩
  · rw [List.nodup_append]
    refine ⟨accounts, by simp, ?_⟩
    rintro a member b single rfl
    rw [List.mem_singleton] at single
    exact fresh (single ▸ member)
  · intro row member
    exact ⟨List.mem_append_left _ (owned row member).1, (owned row member).2⟩
  · intro d member
    exact List.mem_append_left _ (progress d member)

theorem count_filter (devices : List DeviceId) (device d : DeviceId) :
    (devices.filter (· ≠ device)).count d = if d = device then 0 else devices.count d := by
  by_cases same : d = device
  · subst same
    simp [List.count_eq_zero]
  · rw [if_neg same, List.count_filter]
    simpa using same

theorem Consistent.delete (consistent : Consistent crypto marked db) (device : DeviceId) :
    Consistent crypto marked (db.deleteAccount device) := by
  obtain ⟨⟨accounts, distinct, owned, progress⟩, mark, rows, turned⟩ := consistent
  refine ⟨⟨accounts.filter _, ?_, ?_, ?_⟩, mark.congr rfl ?_, ?_, ?_⟩
  · exact distinct.sublist (List.filter_sublist.map _)
  · intro row member
    obtain ⟨present, other⟩ := List.mem_filter.1 member
    exact ⟨List.mem_filter.2 ⟨(owned row present).1, other⟩, (owned row present).2⟩
  · intro d member
    obtain ⟨present, other⟩ := List.mem_filter.1 member
    exact List.mem_filter.2 ⟨progress d present, other⟩
  · intro none
    show db.progress.filter _ = []
    rw [none]
    rfl
  · intro row member
    obtain ⟨present, other⟩ := List.mem_filter.1 member
    have form := rows row present
    have differ : row.device ≠ device := by simpa using other
    have same : saysSealed (db.deleteAccount device) row.device = saysSealed db row.device := by
      simp [saysSealed, Db.deleteAccount, differ]
    rw [same]
    exact form
  · intro d
    show (db.turned.filter _).count d = if d ∈ db.progress.filter _ then 1 else 0
    rw [count_filter, turned d]
    by_cases same : d = device
    · simp [same]
    · simp [same]

theorem Serves.create {device : DeviceId} (serves : Serves crypto cipher db) (fresh : device ∉ db.accounts) :
    Serves crypto cipher { db with accounts := db.accounts ++ [device] } :=
  ⟨serves.consistent.create fresh, serves.state, serves.progress⟩

theorem Serves.delete (serves : Serves crypto cipher db) (device : DeviceId) :
    Serves crypto cipher (db.deleteAccount device) := by
  refine ⟨serves.consistent.delete device, serves.state, ?_⟩
  show db.progress.filter _ = []
  rw [serves.progress]
  rfl

theorem Serves.remove (serves : Serves crypto cipher db) (name : Name) : Serves crypto cipher (db.removeRow name) := by
  obtain ⟨⟨⟨accounts, distinct, owned, progress⟩, mark, rows, turned⟩, state, whole⟩ := serves
  refine ⟨⟨⟨accounts, ?_, ?_, progress⟩, mark.congr rfl id, ?_, turned⟩, state, whole⟩
  · exact distinct.sublist (List.filter_sublist.map _)
  · exact fun row member => owned row (List.mem_of_mem_filter member)
  · exact fun row member => rows row (List.mem_of_mem_filter member)

theorem Serves.form (serves : Serves crypto cipher db) {nonce : Option Nonce} {row : Row}
    (sealed : cipher.seal crypto nonce (rowContext row.device row.column row.parts) row.written = .ok row.blob) :
    InForm crypto (cipherKey cipher) (saysSealed db row.device) row := by
  rw [saysSealed, serves.progress, serves.state]
  cases cipher with
  | passthrough =>
      have plain : row.written = row.blob := by simpa [BlobCipher.seal] using sealed
      exact plain.symm
  | sealing key => exact ⟨nonce, sealed⟩

theorem Serves.write (serves : Serves crypto cipher db) {nonce : Option Nonce} {row : Row}
    (known : row.device ∈ db.accounts) (column : row.column ∈ sealedColumns)
    (sealed : cipher.seal crypto nonce (rowContext row.device row.column row.parts) row.written = .ok row.blob) :
    Serves crypto cipher (db.writeRow row) := by
  have form := serves.form sealed
  obtain ⟨⟨⟨accounts, distinct, owned, progress⟩, mark, rows, turned⟩, state, whole⟩ := serves.remove row.name
  refine ⟨⟨⟨accounts, ?_, ?_, progress⟩, mark.congr rfl id, ?_, turned⟩, state, whole⟩
  · show (((db.removeRow row.name).rows ++ [row]).map Row.name).Nodup
    rw [List.map_append, List.nodup_append]
    refine ⟨distinct, by simp, ?_⟩
    rintro name member other single rfl
    obtain ⟨before, present, rfl⟩ := List.mem_map.1 member
    have differ := (List.mem_filter.1 present).2
    simp only [List.map_cons, List.map_nil, List.mem_singleton] at single
    simp [single] at differ
  · intro written member
    rcases List.mem_append.1 member with before | now
    · exact owned written before
    · cases List.mem_singleton.1 now
      exact ⟨known, column⟩
  · intro written member
    rcases List.mem_append.1 member with before | now
    · exact rows written before
    · cases List.mem_singleton.1 now
      exact form

/-! ## The invariant -/

structure Kept (crypto : Crypto) (s : State) : Prop where
  consistent : ∃ marked, Consistent crypto marked s.db
  contents : s.db.rows.map ident = s.contents
  session : ∀ cipher, s.session = some cipher → Serves crypto cipher s.db

theorem kept_initial : Kept crypto (machine crypto engine).initial := by
  refine ⟨⟨none, ⟨by simp [machine], by simp [Distinct, machine], by simp [machine], by simp [machine]⟩,
    ⟨rfl, rfl, rfl⟩, by simp [machine], by simp [TurnedOnce, machine]⟩, rfl, ?_⟩
  intro cipher none
  cases none

theorem leaves_of_always {α : Type} {run : Durable Db StoreError α} {inv : Db → Prop} {post : α → Db → Prop}
    (always : Always run db inv post) (now : inv db) (stop : Option Nat) : inv (leaves run db stop) := by
  cases stop with
  | none => exact always.final now
  | some n => exact always.stopped now n

theorem Left.refl (consistent : Consistent crypto marked db) : Left crypto db db := ⟨⟨_, consistent⟩, .refl⟩

theorem Rotated.left {new : StoreKey} (rotated : Rotated crypto new db db') : Left crypto db db' :=
  rotated.serves.left rotated.same

theorem Kept.run {s : State} {db' : Db} {session : Option BlobCipher} (kept : Kept crypto s) (left : Left crypto s.db db')
    (serves : ∀ cipher, session = some cipher → Serves crypto cipher db') :
    Kept crypto { s with db := db', session := session } :=
  ⟨left.consistent, left.same.idents.trans kept.contents, serves⟩

theorem filter_idents (rows : List Row) (p : Name → Bool) :
    (rows.filter fun row => p row.name).map ident = (rows.map ident).filter fun entry => p entry.1 := by
  rw [List.filter_map]
  rfl

theorem Kept.opened {s s' : State} {key : Option StoreKey} {stop : Option Nat} (kept : Kept crypto s)
    (moved : step crypto engine s (.open key env stop) = some s') : Kept crypto s' := by
  obtain ⟨marked, consistent⟩ := kept.consistent
  have always : Always (openCipher crypto engine env key) s.db (Left crypto s.db) _ := openCipher_always consistent
  cases moved
  apply kept.run (leaves_of_always always (.refl consistent) stop)
  intro cipher current
  cases stop with
  | some n => cases current
  | none =>
      have answered : (openCipher crypto engine env key).answer s.db = .ok cipher := by
        cases answer : (openCipher crypto engine env key).answer s.db with
        | error e => simp [answer, Except.toOption] at current
        | ok found =>
            simp only [answer, Except.toOption, Option.isNone_none, if_true, Option.some.injEq] at current
            rw [current]
      obtain ⟨resolution, rfl, settled⟩ := always.answers cipher answered
      exact settled.serves

theorem Kept.write {s : State} {row : Row} {nonce : Option Nonce} (kept : Kept crypto s)
    (session : s.session = some cipher) (known : row.device ∈ s.db.accounts) (column : row.column ∈ sealedColumns)
    (sealed : cipher.seal crypto nonce (rowContext row.device row.column row.parts) row.written = .ok row.blob) :
    Kept crypto { s with db := s.db.writeRow row,
                         contents := s.contents.filter (·.1 ≠ row.name) ++ [(row.name, row.written)] } := by
  have serves := (kept.session cipher session).write known column sealed
  refine ⟨⟨_, serves.consistent⟩, ?_, ?_⟩
  · show ((s.db.rows.filter _) ++ [row]).map ident = _
    rw [List.map_append, ← kept.contents]
    congr 1
    exact filter_idents _ fun name => decide (name ≠ row.name)
  · intro other same
    cases session.symm.trans same
    exact serves

theorem Kept.remove {s : State} (kept : Kept crypto s) (session : s.session = some cipher) (name : Name) :
    Kept crypto { s with db := s.db.removeRow name, contents := s.contents.filter (·.1 ≠ name) } := by
  have serves := (kept.session cipher session).remove name
  refine ⟨⟨_, serves.consistent⟩, ?_, ?_⟩
  · show (s.db.rows.filter _).map ident = _
    rw [← kept.contents]
    exact filter_idents _ fun other => decide (other ≠ name)
  · intro other same
    cases session.symm.trans same
    exact serves

theorem Kept.step {s s' : State} {e : Event} (kept : Kept crypto s)
    (moved : step crypto engine s e = some s') : Kept crypto s' := by
  obtain ⟨marked, consistent⟩ := kept.consistent
  cases e with
  | «open» key env stop => exact kept.opened moved
  | decrypt key env stop =>
      cases moved
      apply kept.run (leaves_of_always (decryptStore_always consistent) (.refl consistent) stop)
      intro cipher none
      cases none
  | rotate old new env stop =>
      have always : Always (rotateStore crypto engine env old new) s.db (Rotated crypto new s.db) _ :=
        rotateStore_always consistent
      have left := always.weaken (fun _ rotated => rotated.left) fun _ _ rotated => rotated
      cases moved
      apply kept.run (leaves_of_always left (.refl consistent) stop)
      intro cipher none
      cases none
  | create device =>
      simp only [Encryption.step] at moved
      split at moved
      · cases moved
      · rename_i fresh
        cases moved
        exact ⟨⟨marked, consistent.create fresh⟩, kept.contents,
          fun cipher session => (kept.session cipher session).create fresh⟩
  | delete device =>
      cases moved
      refine ⟨⟨marked, consistent.delete device⟩, ?_, fun cipher session => (kept.session cipher session).delete device⟩
      show (s.db.rows.filter _).map ident = s.contents.filter _
      rw [← kept.contents]
      exact filter_idents _ fun name => decide (name.1 ≠ device)
  | write device column parts plaintext nonce =>
      cases session : s.session with
      | none => simp [Encryption.step, session] at moved
      | some cipher =>
          simp only [Encryption.step, session] at moved
          split at moved
          · rename_i allowed
            cases sealed : cipher.seal crypto nonce (rowContext device column parts) plaintext with
            | error e =>
                simp only [sealed, Option.some.injEq] at moved
                exact moved ▸ kept
            | ok blob =>
                have written : Kept crypto { s with db := s.db.writeRow ⟨device, column, parts, blob, plaintext⟩,
                                                    contents := _ } := kept.write session allowed.1 allowed.2 sealed
                simp only [sealed, Option.some.injEq] at moved
                subst moved
                rw [session] at written
                exact written
          · cases moved
  | remove device column parts =>
      cases session : s.session with
      | none => simp [Encryption.step, session] at moved
      | some cipher =>
          have removed := kept.remove session (device, column, parts)
          simp only [Encryption.step, session, Option.some.injEq] at moved
          subst moved
          rw [session] at removed
          exact removed

theorem kept_of_reaches {s : State} (reaches : (machine crypto engine).Reaches Machine.Free s) : Kept crypto s :=
  reaches.invariant (Kept crypto) kept_initial fun _ _ _ kept _ moved => kept.step moved

/-! ## What holds between any two runs -/

def reads (crypto : Crypto) (cipher : BlobCipher) (db : Db) : List (Name × Except StoreError Bytes) :=
  db.rows.map fun row => (row.name, cipher.open crypto (rowContext row.device row.column row.parts) row.blob)

theorem Serves.reads (serves : Serves crypto cipher db) :
    reads crypto cipher db = (db.rows.map ident).map fun entry => (entry.1, .ok entry.2) := by
  rw [Encryption.reads, List.map_map]
  apply List.map_congr_left
  intro row member
  rw [serves.opens row member]
  rfl

theorem MarkedBy.unique {marked' : Option StoreKey} (mark : MarkedBy crypto db marked)
    (mark' : MarkedBy crypto db marked') : marked' = marked := by
  cases marked with
  | none =>
      cases marked' with
      | none => rfl
      | some key =>
          have present := MarkedBy.verifier mark'
          rw [mark.2.1] at present
          cases present
  | some key =>
      cases marked' with
      | none =>
          have present := MarkedBy.verifier mark
          rw [mark'.2.1] at present
          cases present
      | some key' => rw [Marks.unique mark mark']

structure Sound (crypto : Crypto) (engine : Engine) (s : State) : Prop where
  /-- The columns of an account are plaintext or sealed under the one marked key, as the state and the
  progress rows say. -/
  forms : ∃ marked, MarkedBy crypto s.db marked ∧
    ∀ row ∈ s.db.rows, InForm crypto marked (saysSealed s.db row.device) row
  opens : ∀ key env cipher, (openCipher crypto engine env key).answer s.db = .ok cipher →
    reads crypto cipher ((openCipher crypto engine env key).final s.db) =
      s.contents.map fun entry => (entry.1, .ok entry.2)
  serves : ∀ cipher, s.session = some cipher → reads crypto cipher s.db = s.contents.map fun entry => (entry.1, .ok entry.2)
  refuses : ∀ marked, MarkedBy crypto s.db marked →
    (∀ tried env, marked ≠ none → tried ≠ marked → Refuses (openCipher crypto engine env tried) s.db) ∧
      (∀ key env, some key ≠ marked → Refuses (decryptStore crypto env key) s.db) ∧
      ∀ old new env, some old ≠ marked → Refuses (rotateStore crypto engine env old new) s.db
  resumes : ∀ key env, MarkedBy crypto s.db (some key) → s.db.encrypted = false →
    Sealable env (accountsLeft s.db.accounts s.db.progress) s.db → (engine = .sqlite → env.busy = false) →
    (openCipher crypto engine env (some key)).answer s.db = .ok (.sealing key) ∧
      Converted crypto key .seal ((openCipher crypto engine env (some key)).final s.db) ∧
      SameStore s.db ((openCipher crypto engine env (some key)).final s.db)
  decrypts : ∀ key env, MarkedBy crypto s.db (some key) → s.db.encrypted = true →
    (∃ count, (decryptStore crypto env key).answer s.db = .ok count) ∧
      Converted crypto key .open ((decryptStore crypto env key).final s.db) ∧
      SameStore s.db ((decryptStore crypto env key).final s.db)
  rotates : ∀ old new env stop, leaves (rotateStore crypto engine env old new) s.db stop = s.db ∨
    Rotated crypto new s.db (leaves (rotateStore crypto engine env old new) s.db stop)
  rotated : ∀ old new env count, (rotateStore crypto engine env old new).answer s.db = .ok count →
    Rotated crypto new s.db ((rotateStore crypto engine env old new).final s.db)

theorem store_sound (crypto : Crypto) (engine : Engine) {s : State}
    (reaches : (machine crypto engine).Reaches Machine.Free s) : Sound crypto engine s := by
  have kept := kept_of_reaches reaches
  obtain ⟨marked, consistent⟩ := kept.consistent
  have mine {key : StoreKey} (mark : MarkedBy crypto s.db (some key)) : Consistent crypto (some key) s.db := by
    rw [consistent.mark.unique mark]
    exact consistent
  constructor
  case forms => exact ⟨marked, consistent.mark, consistent.rows⟩
  case opens =>
    intro key env cipher answered
    obtain ⟨resolution, rfl, settled⟩ := (openCipher_always consistent).answers cipher answered
    have same := settled.same.idents
    rw [kept.contents] at same
    rw [← same]
    exact settled.serves.reads
  case serves =>
    intro cipher session
    rw [← kept.contents]
    exact (kept.session cipher session).reads
  case refuses =>
    intro marked mark
    refine ⟨?_, fun key env wrong => decryptStore_refuses mark wrong, fun old new env wrong => rotateStore_refuses mark wrong⟩
    intro tried env present wrong
    obtain ⟨key, rfl⟩ := Option.ne_none_iff_exists'.1 present
    exact openCipher_refuses mark wrong
  case resumes =>
    intro key env mark plaintext sealable free
    exact openCipher_finishes ⟨mine mark, plaintext⟩ sealable free
  case decrypts =>
    intro key env mark encrypted
    exact decryptStore_finishes ⟨mine mark, encrypted⟩
  case rotates =>
    intro old new env stop
    have always : Always (rotateStore crypto engine env old new) s.db (Rotated crypto new s.db) _ :=
      rotateStore_always consistent
    have either : Always (rotateStore crypto engine env old new) s.db
        (fun db => db = s.db ∨ Rotated crypto new s.db db) _ :=
      always.weaken (fun _ => .inr) fun _ _ rotated => rotated
    exact leaves_of_always either (.inl rfl) stop
  case rotated =>
    intro old new env count answered
    exact (rotateStore_always consistent).answers count answered

def sevens : StoreKey := ⟨List.replicate 32 7, by decide⟩

def calm : Env := ⟨fun _ _ _ => some ⟨List.replicate 24 0, by decide⟩, some ⟨List.replicate 24 0, by decide⟩, false⟩

def halfway : List Event :=
  [.create 1, .create 2, .open none calm none, .write 1 ⟨"device", "data", []⟩ [] [5, 6] none,
    .write 2 ⟨"device", "data", []⟩ [] [8] none, .open (some sevens) calm (some 2)]

theorem store_sound_halfway : ∃ s, (machine openLetter .sqlite).Reaches Machine.Free s ∧
    (s.db.encrypted, s.db.progress, s.db.accounts) = (false, [1], [1, 2]) ∧ Sound openLetter .sqlite s := by
  obtain ⟨s, reaches, half⟩ := Machine.reaches_of_replay (m := machine openLetter .sqlite) Machine.free_sound
    (fun s => decide ((s.db.encrypted, s.db.progress, s.db.accounts) = (false, [1], [1, 2]))) halfway (by decide +kernel)
  exact ⟨s, reaches, of_decide_eq_true half, store_sound openLetter .sqlite reaches⟩

end Wamux.Proof.Encryption
