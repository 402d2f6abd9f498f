import Wamux.Runs.Failing
import Wamux.Spool.BoundedFile

namespace Wamux.Proof.Spool.BoundedFile
open Wamux.Spool Wamux.Spool.BoundedFile Wamux.Runs Wamux.Runs.Failing

variable {writer writer' : BoundedFile}

/-- A truncation that goes through cuts within the limit. -/
def Cuts (writer : BoundedFile) : Call → Prop
  | .truncate len fails => fails = false → len.toNat ≤ maxOffset → len ≤ writer.limit
  | _ => True

def Tracked (writer : BoundedFile) : Prop := writer.position.toNat = writer.file.offset

/-! ## The system's calls -/

theorem ofNat_toNat_of_le {n : Nat} (small : n ≤ maxOffset) : (UInt64.ofNat n).toNat = n :=
  UInt64.toNat_ofNat_of_lt (Nat.lt_of_le_of_lt small (by decide))

theorem file_write_ok {file file' : File} {size written : Nat} {takes : Option Nat}
    (ran : file.write size takes = .ok (written, file')) :
    written ≤ size ∧ file'.offset = file.offset + written ∧
      file'.length ≤ max file.length (file.offset + written) ∧
      (written = 0 → file'.length = file.length) := by
  cases takes with
  | none => cases ran
  | some upTo =>
      cases ran
      have taken : file.room size upTo ≤ size := Nat.le_trans (Nat.min_le_right _ _) (Nat.min_le_left _ _)
      refine ⟨taken, rfl, ?_, fun none => if_pos none⟩
      show (if file.room size upTo = 0 then file.length else max file.length (file.offset + file.room size upTo)) ≤ _
      split
      · exact Nat.le_max_left _ _
      · exact Nat.le_refl _

theorem file_seek_ok {file file' : File} {«to» : SeekFrom} {fails : Bool} (ran : file.seek «to» fails = .ok file') :
    file'.length = file.length := by
  simp only [File.seek] at ran
  split at ran <;> cases ran
  rfl

theorem file_setLen_ok {file file' : File} {len : UInt64} {fails : Bool} (ran : file.setLen len fails = .ok file') :
    fails = false ∧ len.toNat ≤ maxOffset ∧ file'.offset = file.offset ∧ file'.length = len.toNat := by
  simp only [File.setLen] at ran
  split at ran
  · rename_i within
    cases ran
    exact ⟨within.1, within.2, rfl, rfl⟩
  · cases ran

/-! ## The writer's calls -/

theorem write_ok {buf : UInt64} {takes : Option Nat} {written : Nat}
    (ran : writer.write buf takes = .ok (written, writer')) :
    saturatingAdd writer.position buf ≤ writer.limit ∧ writer'.limit = writer.limit ∧
      writer'.position = writer.position + .ofNat written ∧
      writer.file.write buf.toNat takes = .ok (written, writer'.file) := by
  simp only [BoundedFile.write] at ran
  split at ran
  · cases ran
  · rename_i within
    obtain ⟨⟨n, file⟩, wrote, same⟩ := bind_eq_ok.1 ran
    cases same
    exact ⟨UInt64.not_lt.1 within, rfl, rfl, wrote⟩

theorem end_le_limit {position buf limit : UInt64} {written : Nat} (within : saturatingAdd position buf ≤ limit)
    (taken : written ≤ buf.toNat) (room : position.toNat + written ≤ maxOffset) :
    position.toNat + written ≤ limit.toNat := by
  have within := UInt64.le_iff_toNat_le.1 within
  unfold saturatingAdd at within
  split at within
  · rename_i small
    rw [UInt64.toNat_add, Nat.mod_eq_of_lt small] at within
    omega
  · have top : u64Max.toNat = 18446744073709551615 := rfl
    unfold maxOffset at room
    omega

theorem call_tracked {c : Call} (tracked : Tracked writer) (ran : writer.call c = .ok writer') :
    Tracked writer' ∧ writer'.limit = writer.limit := by
  cases c with
  | write buf takes =>
      obtain ⟨⟨written, after⟩, went, rfl⟩ := map_eq_ok.1 ran
      obtain ⟨-, limit, position, wrote⟩ := write_ok went
      obtain ⟨-, offset, -⟩ := file_write_ok wrote
      refine ⟨?_, limit⟩
      have room := after.file.offset_le
      have small : written ≤ maxOffset := by omega
      have fits : writer.position.toNat + (UInt64.ofNat written).toNat < 2 ^ 64 := by
        rw [ofNat_toNat_of_le small, tracked]
        exact Nat.lt_of_le_of_lt (offset ▸ room) (by decide)
      rw [Tracked, position, UInt64.toNat_add, Nat.mod_eq_of_lt fits, ofNat_toNat_of_le small, tracked, offset]
  | seek «to» fails =>
      obtain ⟨answer, went, rfl⟩ := map_eq_ok.1 ran
      obtain ⟨file, -, same⟩ := bind_eq_ok.1 went
      cases same
      exact ⟨ofNat_toNat_of_le file.offset_le, rfl⟩
  | truncate len fails =>
      obtain ⟨file, cut, same⟩ := bind_eq_ok.1 ran
      cases same
      obtain ⟨-, -, offset, -⟩ := file_setLen_ok cut
      exact ⟨tracked.trans offset.symm, rfl⟩
  | flush fails =>
      simp only [call, flush] at ran
      split at ran <;> cases ran
      exact ⟨tracked, rfl⟩

theorem call_length {c : Call} (tracked : Tracked writer) (bounded : writer.file.length ≤ writer.limit.toNat)
    (ran : writer.call c = .ok writer') : writer'.file.length ≤ writer.limit.toNat ↔ Cuts writer c := by
  cases c with
  | write buf takes =>
      refine iff_of_true ?_ trivial
      obtain ⟨⟨written, after⟩, went, rfl⟩ := map_eq_ok.1 ran
      obtain ⟨within, -, -, wrote⟩ := write_ok went
      obtain ⟨taken, offset, length, -⟩ := file_write_ok wrote
      have room : writer.position.toNat + written ≤ maxOffset := by
        rw [tracked, ← offset]
        exact after.file.offset_le
      have ends := end_le_limit within taken room
      rw [tracked] at ends
      exact Nat.le_trans length (Nat.max_le.2 ⟨bounded, ends⟩)
  | seek «to» fails =>
      refine iff_of_true ?_ trivial
      obtain ⟨answer, went, rfl⟩ := map_eq_ok.1 ran
      obtain ⟨file, sought, same⟩ := bind_eq_ok.1 went
      cases same
      exact (file_seek_ok sought).trans_le bounded
  | truncate len fails =>
      obtain ⟨file, cut, same⟩ := bind_eq_ok.1 ran
      cases same
      obtain ⟨goes, small, -, length⟩ := file_setLen_ok cut
      show file.length ≤ _ ↔ _
      rw [length]
      constructor
      · exact fun within _ _ => UInt64.le_iff_toNat_le.2 within
      · exact fun cuts => UInt64.le_iff_toNat_le.1 (cuts goes small)
  | flush fails =>
      refine iff_of_true ?_ trivial
      simp only [call, flush] at ran
      split at ran <;> cases ran
      exact bounded

/-! ## Runs -/

variable {limit : UInt64}

theorem step_eq {c : Call} (moved : writer.step c = some writer') : writer.call c = .ok writer' ∨ writer' = writer := by
  simp only [BoundedFile.step] at moved
  split at moved
  · rename_i ran
    exact .inl (ran.trans (congrArg Except.ok (Option.some.inj moved)))
  · exact .inr (Option.some.inj moved).symm

theorem tracked_of_reaches (reaches : (machine limit).Reaches Machine.Free writer) : Tracked writer ∧ writer.limit = limit :=
  reaches.invariant (fun writer => Tracked writer ∧ writer.limit = limit) ⟨show Tracked (new {} limit) from rfl, rfl⟩ fun writer c writer' inv _ moved => by
    have moved : writer.step c = some writer' := moved
    rcases step_eq moved with ran | rfl
    · obtain ⟨tracked, same⟩ := call_tracked inv.1 ran
      exact ⟨tracked, same.trans inv.2⟩
    · exact inv

theorem reaches_free (reaches : (machine limit).Reaches Cuts writer) : (machine limit).Reaches Machine.Free writer :=
  reaches.weaken fun _ _ _ _ => trivial

theorem bounded_of_reaches (reaches : (machine limit).Reaches Cuts writer) : writer.file.length ≤ limit.toNat := by
  induction reaches with
  | initial => exact Nat.zero_le _
  | @next writer writer' c before cuts moved ih =>
      obtain ⟨tracked, rfl⟩ := tracked_of_reaches (reaches_free before)
      have moved : writer.step c = some writer' := moved
      rcases step_eq moved with ran | rfl
      · exact (call_length tracked ih ran).2 cuts
      · exact ih

/-- Tracked in every run; bounded in those that cut within the limit, and past it from the first call
that does not. -/
theorem outgrows_iff (limit : UInt64) :
    (∀ writer, (machine limit).Reaches Machine.Free writer → writer.position.toNat = writer.file.offset) ∧
    (∀ writer, (machine limit).Reaches Cuts writer → writer.file.length ≤ limit.toNat) ∧
    ∀ writer c writer', (machine limit).Reaches Cuts writer → writer.call c = .ok writer' →
      (writer'.file.length ≤ limit.toNat ↔ Cuts writer c) := by
  refine ⟨fun writer reaches => (tracked_of_reaches reaches).1, fun writer => bounded_of_reaches, ?_⟩
  intro writer c writer' reaches ran
  obtain ⟨tracked, rfl⟩ := tracked_of_reaches (reaches_free reaches)
  exact call_length tracked (bounded_of_reaches reaches) ran

instance decidableCuts (writer : BoundedFile) : (c : Call) → Decidable (Cuts writer c)
  | .truncate len fails => inferInstanceAs (Decidable (fails = false → len.toNat ≤ maxOffset → len ≤ writer.limit))
  | .write _ _ | .seek _ _ | .flush _ => .isTrue trivial

def withHole : List Call :=
  [.write 4 (some 2), .write 9 (some 9), .seek (.end 3) false, .write 3 (some 3), .truncate 7 false, .flush true]

theorem outgrows_iff_withHole : ∃ writer : BoundedFile, writer.file.length = 7 ∧ writer.position = 8 ∧ writer.file.offset = 8 ∧
    writer.file.length ≤ 8 := by
  obtain ⟨writer, reaches, ends⟩ := Machine.reaches_of_replay (fun writer c => of_decide_eq_true (p := Cuts writer c))
    (fun writer : BoundedFile => writer.file.length = 7 ∧ writer.position = 8) withHole
    (show ((machine 8).replay (fun writer c => decide (Cuts writer c)) _ withHole).map _ = some true by decide +kernel)
  obtain ⟨length, position⟩ := of_decide_eq_true ends
  have tracked := (outgrows_iff 8).1 writer (reaches_free reaches)
  have bounded := (outgrows_iff 8).2.1 writer reaches
  exact ⟨writer, length, position, by rw [← tracked, position, UInt64.toNat_ofNat], bounded⟩

theorem truncate_outgrows : ¬∀ limit writer, (machine limit).Reaches Machine.Free writer →
    writer.position.toNat = writer.file.offset ∧ writer.file.length ≤ limit.toNat := by
  intro all
  obtain ⟨writer, reaches, ends⟩ := Machine.reaches_of_replay Machine.free_sound
    (fun writer : BoundedFile => writer.file.length = 9) [Call.truncate 9 false]
    (show ((machine 8).replay Machine.free _ [Call.truncate 9 false]).map _ = some true by decide +kernel)
  have bounded := (all 8 writer reaches).2
  rw [of_decide_eq_true ends] at bounded
  exact absurd bounded (by decide)

end Wamux.Proof.Spool.BoundedFile
