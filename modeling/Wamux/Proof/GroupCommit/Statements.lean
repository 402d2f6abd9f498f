import Mathlib.Data.List.Nodup
import Mathlib.Data.List.Flatten
import Wamux.GroupCommit.Batch

namespace Wamux.Proof.GroupCommit
open Wamux.GroupCommit

/-! ## The four situations of the connection -/

inductive Transaction where
  | out | begun | saved | implicit
  deriving DecidableEq

def transaction (db : FakeDb) : Transaction :=
  if db.inTransaction then
    if db.implicit then .implicit else if db.savepointMark.isSome then .saved else .begun
  else .out

/-- What every statement keeps: nothing is open outside a transaction, an implicit transaction
lives as long as its savepoint, and a running job has a savepoint. -/
structure Sound (db : FakeDb) (ledger : Ledger) : Prop where
  outside : db.inTransaction = false → db.savepointMark = none ∧ db.implicit = false ∧
    db.openWrites = [] ∧ ledger.held = []
  implied : db.implicit = true → db.savepointMark.isSome ∧ ledger.held = []
  running : ledger.running.isSome → db.savepointMark.isSome

variable {s : BatchState} {c : Bool}

theorem transaction_out {db : FakeDb} : transaction db = .out ↔ db.inTransaction = false := by
  unfold transaction
  split_ifs <;> simp_all

theorem transaction_begun {db : FakeDb} : transaction db = .begun ↔
    db.inTransaction = true ∧ db.implicit = false ∧ db.savepointMark = none := by
  unfold transaction
  split_ifs <;> simp_all [Option.isSome_iff_ne_none]

theorem transaction_saved {db : FakeDb} : transaction db = .saved ↔
    db.inTransaction = true ∧ db.implicit = false ∧ db.savepointMark.isSome := by
  unfold transaction
  split_ifs <;> simp_all

theorem transaction_implicit {db : FakeDb} : transaction db = .implicit ↔
    db.inTransaction = true ∧ db.implicit = true := by
  unfold transaction
  split_ifs <;> simp_all

theorem Sound.held_out {db : FakeDb} {ledger : Ledger} (sound : Sound db ledger)
    (out : transaction db = .out) : ledger.held = [] ∧ ledger.running = none := by
  obtain ⟨mark, -, -, held⟩ := sound.outside (transaction_out.1 out)
  refine ⟨held, ?_⟩
  cases job : ledger.running with
  | none => rfl
  | some t => simpa [mark] using sound.running (by simp [job])

theorem Sound.running_begun {db : FakeDb} {ledger : Ledger} (sound : Sound db ledger)
    (begun : transaction db = .begun) : ledger.running = none := by
  cases job : ledger.running with
  | none => rfl
  | some t => simpa [(transaction_begun.1 begun).2.2] using sound.running (by simp [job])

theorem Sound.held_implicit {db : FakeDb} {ledger : Ledger} (sound : Sound db ledger)
    (implicit : transaction db = .implicit) : ledger.held = [] :=
  (sound.implied (transaction_implicit.1 implicit).2).2

/-! ## What a statement does in each situation -/

section Frame
variable (statement : ControlStatement)

@[simp] theorem serve_openBatch : (serve statement c s).2.openBatch = s.openBatch := by
  unfold serve; split <;> rfl

@[simp] theorem serve_jobOpen : (serve statement c s).2.jobOpen = s.jobOpen := by
  unfold serve; split <;> rfl

@[simp] theorem serve_inFlight : (serve statement c s).2.inFlight = s.inFlight := by
  unfold serve; split <;> rfl

@[simp] theorem serve_answers : (serve statement c s).2.answers = s.answers := by
  unfold serve; split <;> rfl

@[simp] theorem serve_senders : (serve statement c s).2.ledger.senders = s.ledger.senders := by
  unfold serve
  split
  · cases statement <;> simp only [Ledger.record]
    split_ifs <;> rfl
  · rfl

@[simp] theorem serve_starting : (serve statement c s).2.ledger.starting = s.ledger.starting := by
  unfold serve
  split
  · cases statement <;> simp only [Ledger.record]
    split_ifs <;> rfl
  · rfl

theorem serve_mark (mark : Option ControlStatement) :
    serve statement c { s with inFlight := mark } =
      ((serve statement c s).1, { (serve statement c s).2 with inFlight := mark }) := by
  unfold serve
  split <;> rename_i h <;> simp only [h]

end Frame

theorem begin_out (out : transaction s.conn = .out) :
    serve .begin c s = (.ok (), { s with conn := { s.conn with inTransaction := true } }) := by
  simp [serve, FakeDb.run, FakeDb.begin, transaction_out.1 out, Ledger.record]

theorem savepoint_inside (inside : transaction s.conn ≠ .out) :
    serve .savepoint c s = (.ok (), { s with
      conn := { s.conn with savepointMark := some s.conn.openWrites.length },
      ledger := { s.ledger with running := some s.ledger.starting } }) := by
  have inside : s.conn.inTransaction = true := by simpa [transaction_out] using inside
  simp [serve, FakeDb.run, FakeDb.savepoint, inside, Ledger.record]

theorem savepoint_out (out : transaction s.conn = .out) :
    serve .savepoint c s = (.ok (), { s with
      conn := { s.conn with inTransaction := true, implicit := true,
                            savepointMark := some s.conn.openWrites.length },
      ledger := { s.ledger with running := some s.ledger.starting } }) := by
  simp [serve, FakeDb.run, FakeDb.savepoint, transaction_out.1 out, Ledger.record]

theorem release_saved (saved : transaction s.conn = .saved) :
    serve .release c s = (.ok (), { s with
      conn := { s.conn with savepointMark := none },
      ledger := { s.ledger with running := none,
                                held := s.ledger.held ++ s.ledger.running.toList } }) := by
  obtain ⟨-, explicit, marked⟩ := transaction_saved.1 saved
  obtain ⟨mark, marked⟩ := Option.isSome_iff_exists.1 marked
  simp [serve, FakeDb.run, FakeDb.release, marked, explicit, Ledger.record]

theorem release_implicit (sound : Sound s.conn s.ledger) (implicit : transaction s.conn = .implicit) :
    serve .release c s = (.ok (), { s with
      conn := s.conn.commitOpen,
      ledger := { s.ledger with running := none, held := [],
                                durable := s.ledger.durable ++ s.ledger.running.toList } }) := by
  have implied := (transaction_implicit.1 implicit).2
  obtain ⟨marked, held⟩ := sound.implied implied
  obtain ⟨mark, marked⟩ := Option.isSome_iff_exists.1 marked
  simp [serve, FakeDb.run, FakeDb.release, marked, implied, held, Ledger.record, FakeDb.commitOpen]

theorem release_unmarked (unmarked : s.conn.savepointMark = none) :
    serve .release c s = (.error .noSavepoint, s) := by
  simp [serve, FakeDb.run, FakeDb.release, unmarked]

theorem rollbackTo_marked {mark : Nat} (marked : s.conn.savepointMark = some mark) :
    serve .rollbackToSavepoint c s = (.ok (), { s with
      conn := { s.conn with openWrites := s.conn.openWrites.take mark },
      ledger := { s.ledger with running := none } }) := by
  simp [serve, FakeDb.run, FakeDb.rollbackTo, marked, Ledger.record]

theorem rollbackTo_unmarked (unmarked : s.conn.savepointMark = none) :
    serve .rollbackToSavepoint c s = (.error .noSavepoint, s) := by
  simp [serve, FakeDb.run, FakeDb.rollbackTo, unmarked]

theorem commit_out (out : transaction s.conn = .out) :
    serve .commit c s = (.error .nothingToCommit, s) := by
  simp [serve, FakeDb.run, FakeDb.commit, transaction_out.1 out]

theorem commit_fails (inside : transaction s.conn ≠ .out) :
    serve .commit true s = (.error .diskFull, s) := by
  have inside : s.conn.inTransaction = true := by simpa [transaction_out] using inside
  simp [serve, FakeDb.run, FakeDb.commit, inside]

theorem commit_runs (inside : transaction s.conn ≠ .out) :
    serve .commit false s = (.ok (), { s with
      conn := s.conn.commitOpen,
      ledger := { s.ledger with
                    running := none, held := [],
                    durable := s.ledger.durable ++ s.ledger.held ++ s.ledger.running.toList } }) := by
  have inside : s.conn.inTransaction = true := by simpa [transaction_out] using inside
  simp [serve, FakeDb.run, FakeDb.commit, inside, Ledger.record]

theorem rollback_runs (inside : transaction s.conn ≠ .out) :
    serve .rollback c s = (.ok (), { s with
      conn := s.conn.rollbackOpen,
      ledger := { s.ledger with running := none, held := [] } }) := by
  have inside : s.conn.inTransaction = true := by simpa [transaction_out] using inside
  simp [serve, FakeDb.run, FakeDb.rollback, inside, Ledger.record]

theorem rollback_out (out : transaction s.conn = .out) :
    serve .rollback c s = (.error .nothingToRollback, s) := by
  simp [serve, FakeDb.run, FakeDb.rollback, transaction_out.1 out]

theorem rollback_leaves_out : transaction (serve .rollback c s).2.conn = .out := by
  by_cases out : transaction s.conn = .out
  · rw [rollback_out out]; exact out
  · rw [rollback_runs out]; rfl

inductive Effect (s : BatchState) : ControlStatement → StoreResult Unit × BatchState → Prop where
  | refused (statement : ControlStatement) (e : StoreError) : Effect s statement (.error e, s)
  | begun (out : transaction s.conn = .out) :
      Effect s .begin (.ok (), { s with conn := { s.conn with inTransaction := true } })
  | implied (out : transaction s.conn = .out) : Effect s .savepoint (.ok (), { s with
      conn := { s.conn with inTransaction := true, implicit := true,
                            savepointMark := some s.conn.openWrites.length },
      ledger := { s.ledger with running := some s.ledger.starting } })
  | saved (inside : transaction s.conn ≠ .out) : Effect s .savepoint (.ok (), { s with
      conn := { s.conn with savepointMark := some s.conn.openWrites.length },
      ledger := { s.ledger with running := some s.ledger.starting } })
  | released (saved : transaction s.conn = .saved) : Effect s .release (.ok (), { s with
      conn := { s.conn with savepointMark := none },
      ledger := { s.ledger with running := none,
                                held := s.ledger.held ++ s.ledger.running.toList } })
  | committedAlone (implicit : transaction s.conn = .implicit) : Effect s .release (.ok (), { s with
      conn := s.conn.commitOpen,
      ledger := { s.ledger with running := none, held := [],
                                durable := s.ledger.durable ++ s.ledger.running.toList } })
  | undone {mark : Nat} (marked : s.conn.savepointMark = some mark) :
      Effect s .rollbackToSavepoint (.ok (), { s with
        conn := { s.conn with openWrites := s.conn.openWrites.take mark },
        ledger := { s.ledger with running := none } })
  | committed (inside : transaction s.conn ≠ .out) : Effect s .commit (.ok (), { s with
      conn := s.conn.commitOpen,
      ledger := { s.ledger with
                    running := none, held := [],
                    durable := s.ledger.durable ++ s.ledger.held ++ s.ledger.running.toList } })
  | rolledBack (inside : transaction s.conn ≠ .out) : Effect s .rollback (.ok (), { s with
      conn := s.conn.rollbackOpen,
      ledger := { s.ledger with running := none, held := [] } })

theorem Sound.marked_inside {db : FakeDb} {ledger : Ledger} (sound : Sound db ledger) {mark : Nat}
    (marked : db.savepointMark = some mark) :
    transaction db = .saved ∨ transaction db = .implicit := by
  have inside : db.inTransaction = true := by
    by_contra out
    simpa [marked] using (sound.outside (by simpa using out)).1
  by_cases implied : db.implicit = true
  · exact .inr (transaction_implicit.2 ⟨inside, implied⟩)
  · exact .inl (transaction_saved.2 ⟨inside, by simpa using implied, by simp [marked]⟩)

theorem serve_effect (sound : Sound s.conn s.ledger) (statement : ControlStatement) :
    Effect s statement (serve statement c s) := by
  cases statement with
  | begin =>
      by_cases out : transaction s.conn = .out
      · rw [begin_out out]
        exact .begun out
      · have inside : s.conn.inTransaction = true := by simpa [transaction_out] using out
        have refused : serve .begin c s = (.error .withinTransaction, s) := by
          simp [serve, FakeDb.run, FakeDb.begin, inside]
        rw [refused]
        exact .refused _ _
  | savepoint =>
      by_cases out : transaction s.conn = .out
      · rw [savepoint_out out]
        exact .implied out
      · rw [savepoint_inside out]
        exact .saved out
  | release =>
      cases marked : s.conn.savepointMark with
      | none => rw [release_unmarked marked]; exact .refused _ _
      | some mark =>
          rcases sound.marked_inside marked with saved | implicit
          · rw [release_saved saved]
            exact .released saved
          · rw [release_implicit sound implicit]
            exact .committedAlone implicit
  | rollbackToSavepoint =>
      cases marked : s.conn.savepointMark with
      | none => rw [rollbackTo_unmarked marked]; exact .refused _ _
      | some mark => rw [rollbackTo_marked marked]; exact .undone marked
  | commit =>
      by_cases out : transaction s.conn = .out
      · rw [commit_out out]; exact .refused _ _
      · cases c with
        | true => rw [commit_fails out]; exact .refused _ _
        | false => rw [commit_runs out]; exact .committed out
  | rollback =>
      by_cases out : transaction s.conn = .out
      · rw [rollback_out out]; exact .refused _ _
      · rw [rollback_runs out]; exact .rolledBack out

theorem Effect.sound {statement : ControlStatement} {served : StoreResult Unit × BatchState}
    (effect : Effect s statement served) (sound : Sound s.conn s.ledger) :
    Sound served.2.conn served.2.ledger := by
  cases effect with
  | refused => exact sound
  | begun out => exact ⟨by simp, sound.implied, sound.running⟩
  | implied out => exact ⟨by simp, fun _ => ⟨rfl, (sound.held_out out).1⟩, fun _ => rfl⟩
  | saved inside =>
      have inside : s.conn.inTransaction = true := by simpa [transaction_out] using inside
      exact ⟨by simp [inside], fun implied => ⟨rfl, (sound.implied implied).2⟩, fun _ => rfl⟩
  | released saved =>
      obtain ⟨inside, explicit, -⟩ := transaction_saved.1 saved
      exact ⟨by simp [inside], by simp [explicit], by simp⟩
  | committedAlone => exact ⟨by simp [FakeDb.commitOpen], by simp [FakeDb.commitOpen], by simp⟩
  | undone marked =>
      refine ⟨fun out => ?_, sound.implied, by simp⟩
      simpa [marked] using (sound.outside out).1
  | committed => exact ⟨by simp [FakeDb.commitOpen], by simp [FakeDb.commitOpen], by simp⟩
  | rolledBack => exact ⟨by simp [FakeDb.rollbackOpen], by simp [FakeDb.rollbackOpen], by simp⟩

end Wamux.Proof.GroupCommit
