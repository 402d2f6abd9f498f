import Wamux.Proof.Encryption.Cipher
import Wamux.Proof.Encryption.Turning

namespace Wamux.Proof.Encryption
open Wamux.Encryption

variable {crypto : Crypto} {env : Env} {db db' : Db} {device : DeviceId} {key : StoreKey}

def Plain (row : Row) : Prop := row.blob = row.written

def SealedUnder (crypto : Crypto) (key : StoreKey) (row : Row) : Prop :=
  ∃ nonce, BlobCipher.seal crypto (.sealing key) nonce (rowContext row.device row.column row.parts) row.written =
    .ok row.blob

def saysSealed (db : Db) (device : DeviceId) : Bool := db.encrypted != decide (device ∈ db.progress)

def InForm (crypto : Crypto) (marked : Option StoreKey) (isSealed : Bool) (row : Row) : Prop :=
  match isSealed, marked with
  | false, _ => Plain row
  | true, some key => SealedUnder crypto key row
  | true, none => False

structure WellFormed (db : Db) : Prop where
  accounts : db.accounts.Nodup
  distinct : Distinct db
  owned : ∀ row ∈ db.rows, row.device ∈ db.accounts ∧ row.column ∈ sealedColumns
  progress : ∀ device ∈ db.progress, device ∈ db.accounts

def MarkedBy (crypto : Crypto) (db : Db) : Option StoreKey → Prop
  | some key => Marks crypto key db.stored
  | none => db.encrypted = false ∧ db.verifier = none ∧ db.progress = []

/-- Since the state flipped, the accounts with a progress row were turned once, the others not at all. -/
def TurnedOnce (db : Db) : Prop := ∀ device, db.turned.count device = if device ∈ db.progress then 1 else 0

structure Consistent (crypto : Crypto) (marked : Option StoreKey) (db : Db) : Prop where
  wellFormed : WellFormed db
  mark : MarkedBy crypto db marked
  rows : ∀ row ∈ db.rows, InForm crypto marked (saysSealed db row.device) row
  turned : TurnedOnce db

def ident (row : Row) : Name × Bytes := (row.name, row.written)

theorem Turns.ident_eq {turn : Turn} {chosen : Name → Prop} (turns : Turns crypto turn env chosen db db') :
    db'.rows.map ident = db.rows.map ident := by
  obtain ⟨f, rows, each⟩ := turns.rows
  rw [rows, List.map_map]
  apply List.map_congr_left
  intro row member
  by_cases pick : chosen row.name
  · have turned := (each row member).1 pick
    rw [Function.comp, turned.same]
    rfl
  · rw [Function.comp, (each row member).2 pick]

theorem Turned.inForm {direction : Direction} {row row' : Row}
    (turned : Turned crypto (.of (.sealing key) direction) env row row')
    (before : InForm crypto (some key) (direction = .open) row) :
    InForm crypto (some key) (direction ≠ .open) row' := by
  obtain ⟨same, blob⟩ := turned
  cases direction with
  | «seal» =>
      have plain : row.blob = row.written := before
      rw [plain] at blob
      rw [same]
      exact ⟨_, blob⟩
  | «open» =>
      obtain ⟨nonce, sealed⟩ : SealedUnder crypto key row := before
      have opened := open_seal sealed
      simp only [turnBlob, Turn.of] at blob
      rw [opened, Except.ok.injEq] at blob
      rw [same]
      exact blob.symm

/-! ## One account -/

structure SameStore (db db' : Db) : Prop where
  accounts : db'.accounts = db.accounts
  idents : db'.rows.map ident = db.rows.map ident

theorem SameStore.refl : SameStore db db := ⟨rfl, rfl⟩

theorem SameStore.trans {db'' : Db} (first : SameStore db db') (second : SameStore db' db'') : SameStore db db'' :=
  ⟨second.accounts.trans first.accounts, second.idents.trans first.idents⟩

theorem Turns.owned {turn : Turn} {chosen : Name → Prop} (turns : Turns crypto turn env chosen db db')
    (owned : ∀ row ∈ db.rows, row.device ∈ db.accounts ∧ row.column ∈ sealedColumns) :
    ∀ row ∈ db'.rows, row.device ∈ db'.accounts ∧ row.column ∈ sealedColumns := by
  intro row member
  have named : row.name ∈ db.rows.map Row.name := turns.name_eq ▸ List.mem_map_of_mem member
  obtain ⟨before, present, same⟩ := List.mem_map.1 named
  have accounts : db'.accounts = db.accounts := by rw [turns.frame]
  simp only [Row.name, Prod.mk.injEq] at same
  rw [accounts, ← same.1, ← same.2.1]
  exact owned before present

theorem Turns.wellFormed {turn : Turn} {chosen : Name → Prop} (turns : Turns crypto turn env chosen db db')
    (wellFormed : WellFormed db) : WellFormed db' where
  accounts := by
    rw [turns.frame]
    exact wellFormed.accounts
  distinct := turns.distinct wellFormed.distinct
  owned := turns.owned wellFormed.owned
  progress := by
    rw [turns.frame]
    exact wellFormed.progress

structure Converting (crypto : Crypto) (key : StoreKey) (direction : Direction) (db : Db) : Prop where
  consistent : Consistent crypto (some key) db
  state : db.encrypted = decide (direction = .open)

theorem count_insert {turned progress : List DeviceId} (fresh : device ∉ progress)
    (before : ∀ d, turned.count d = if d ∈ progress then 1 else 0) (d : DeviceId) :
    (turned ++ [device]).count d = if d ∈ progress ++ [device] then 1 else 0 := by
  rw [List.count_append, before d]
  by_cases same : d = device
  · subst same
    simp [fresh]
  · simp [same, Ne.symm same]

theorem Converting.rows_turned {direction : Direction} {turned : Db} (converting : Converting crypto key direction db)
    (turns : Turns crypto (.of (.sealing key) direction) env (fun n => n.1 = device ∧ n.2.1 ∈ sealedColumns) db turned)
    (fresh : device ∉ db.progress) (row : Row) (member : row ∈ turned.rows) :
    InForm crypto (some key) (db.encrypted != decide (row.device ∈ db.progress ++ [device])) row := by
  obtain ⟨consistent, state⟩ := converting
  rcases turns.row_cases member with ⟨before, present, ⟨mine, -⟩, turned⟩ | ⟨present, other⟩
  · have same : row.device = device := by
      rw [← mine, turned.same]
      rfl
    have form := consistent.rows before present
    rw [show before.device = device from mine, saysSealed, decide_eq_false fresh, Bool.bne_false, state] at form
    have now := turned.inForm form
    rw [same, decide_eq_true (List.mem_append_right _ List.mem_cons_self), state]
    cases direction <;> exact now
  · have owned := (consistent.wellFormed.owned row present).2
    have differ : row.device ≠ device := fun same => other ⟨same, owned⟩
    have same : decide (row.device ∈ db.progress ++ [device]) = decide (row.device ∈ db.progress) := by
      simp [differ]
    rw [same]
    exact consistent.rows row present

theorem Converting.insertProgress {direction : Direction} {turned : Db} (converting : Converting crypto key direction db)
    (turns : Turns crypto (.of (.sealing key) direction) env (fun n => n.1 = device ∧ n.2.1 ∈ sealedColumns) db turned)
    (ran : turned.insertProgress device = .ok db') :
    Converting crypto key direction db' ∧ db'.progress = db.progress ++ [device] ∧ SameStore db db' := by
  have frame := turns.frame
  have progress : turned.progress = db.progress := by rw [frame]
  have accounts : turned.accounts = db.accounts := by rw [frame]
  have history : turned.turned = db.turned := by rw [frame]
  have encrypted : turned.encrypted = db.encrypted := by rw [frame]
  have stored : turned.stored = db.stored := by rw [frame]; rfl
  have kept := turns.wellFormed converting.consistent.wellFormed
  simp only [Db.insertProgress] at ran
  split at ran
  · cases ran
  · rename_i allowed
    rw [not_or, Classical.not_not, progress, accounts] at allowed
    obtain ⟨fresh, known⟩ := allowed
    have counts := count_insert fresh converting.consistent.turned
    rw [← history, ← progress] at counts
    have rows := converting.rows_turned turns fresh
    cases ran
    refine ⟨⟨⟨⟨kept.1, kept.2, kept.3, ?_⟩, ?_, ?_, ?_⟩, encrypted.trans converting.state⟩, ?_,
      ⟨accounts, turns.ident_eq⟩⟩
    · intro d member
      rw [progress, List.mem_append, List.mem_singleton] at member
      show d ∈ turned.accounts
      rw [accounts]
      rcases member with before | rfl
      · exact converting.consistent.wellFormed.progress d before
      · exact known
    · have marks : Marks crypto key db.stored := converting.consistent.mark
      rw [← stored] at marks
      exact marks
    · intro row member
      have form := rows row member
      rw [← encrypted, ← progress] at form
      exact form
    · exact counts
    · show turned.progress ++ [device] = _
      rw [progress]

def markAfter (key : StoreKey) : Direction → Option StoreKey
  | .seal => some key
  | .open => none

structure Converted (crypto : Crypto) (key : StoreKey) (direction : Direction) (db : Db) : Prop where
  consistent : Consistent crypto (markAfter key direction) db
  state : db.encrypted = decide (direction = .seal)
  progress : db.progress = []
  once : ∀ device ∈ db.accounts, db.flipped.count device = 1

theorem Converting.finish {direction : Direction} (converting : Converting crypto key direction db)
    (all : ∀ device ∈ db.accounts, device ∈ db.progress) :
    Converted crypto key direction (finish direction db) ∧ SameStore db (finish direction db) := by
  obtain ⟨⟨wellFormed, mark, rows, turned⟩, state⟩ := converting
  have sealed (row : Row) (member : row ∈ db.rows) : InForm crypto (some key) (!db.encrypted) row := by
    have form := rows row member
    rwa [saysSealed, decide_eq_true (all _ (wellFormed.owned row member).1), Bool.bne_true] at form
  have once (d : DeviceId) (known : d ∈ db.accounts) : db.turned.count d = 1 := by
    rw [turned d, if_pos (all d known)]
  cases direction with
  | «seal» =>
      have plaintext : db.encrypted = false := state
      have marks : Marks crypto key db.stored := mark
      rw [plaintext] at sealed
      simp only [Encryption.finish, plaintext]
      refine ⟨⟨⟨⟨wellFormed.1, wellFormed.2, wellFormed.3, by simp⟩, ⟨marks.1, marks.2⟩, ?_, by simp [TurnedOnce]⟩,
        rfl, rfl, once⟩, rfl, rfl⟩
      exact sealed
  | «open» =>
      have encrypted : db.encrypted = true := state
      rw [encrypted] at sealed
      simp only [Encryption.finish, encrypted]
      refine ⟨⟨⟨⟨wellFormed.1, wellFormed.2, wellFormed.3, by simp⟩, ⟨rfl, rfl, rfl⟩, ?_, by simp [TurnedOnce]⟩,
        rfl, rfl, once⟩, rfl, rfl⟩
      exact sealed

end Wamux.Proof.Encryption
