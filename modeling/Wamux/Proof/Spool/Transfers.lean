import Wamux.Proof.Spool.BoundedFile
import Wamux.Proof.Spool.Budget
import Wamux.Spool.Transfers

/-!
# The budget covers the files

Each open file is within what its transfer reserves, and the counter is the sum of the reservations,
as long as no future is dropped while a blocking task or the library has its file, and no sum passes
`u64::MAX`. A future dropped there gives the reservation back and leaves the file open.
-/

namespace Wamux.Proof.Spool.Transfers
open Wamux.Spool Wamux.Spool.Transfer Wamux.Spool.MediaSpool Wamux.Runs Wamux.Runs.Ledger
open Wamux.Proof.Spool.Budget (Room claimed_eq_some released_toNat toNat_add_of_lt)
open Wamux.Proof.Spool.BoundedFile (Cuts Tracked)

variable {budget : SpoolBudget} {held held' : UInt64} {t t' : Transfer} {action : Action} {s s' : State}

/-! ## The conditions -/

/-- The encryptor writes what it was given and no more, and the library cuts within its limit. -/
def Behaves : Transfer → Action → Prop
  | .push (.running stage) _ _, .encrypt bytes | .finish (.running stage) _, .encrypt bytes
  | .runaway (.encryptor stage), .encrypt bytes => stage.size + bytes ≤ stage.most
  | .download writer _, .call call | .runaway (.writer writer), .call call => Cuts writer call
  | _, _ => True

/-- The plaintext is counted and what it lacks has room; nothing is dropped while its file is away. -/
def Lasts (budget : SpoolBudget) (held : UInt64) : Transfer → Action → Prop
  | .upload _ reservation plaintext, .push chunk => plaintext.toNat + chunk.toNat < 2 ^ 64 ∧
      Room budget held (uncovered reservation (plaintext + chunk))
  | .upload _ reservation plaintext, .finish => plaintext.toNat + ciphertextOverhead.toNat < 2 ^ 64 ∧
      Room budget held (uncovered reservation (plaintext + ciphertextOverhead))
  | .push (.running _) _ _, .drop | .finish (.running _) _, .drop | .uploadStaged _ _, .drop | .download _ _, .drop =>
      False
  | _, _ => True

def Assumed (s : State) : Event → Prop
  | .on id action => ∀ t ∈ s.transfers[id]?, Behaves t action
  | _ => True

def Kept (budget : SpoolBudget) (s : State) : Event → Prop
  | .beginUpload => Room budget s.held 0
  | .beginDownload bytes => Room budget s.held bytes
  | .on id action => ∀ t ∈ s.transfers[id]?, Lasts budget s.held t action

/-! ## One transfer -/

def reserved (t : Transfer) : Nat := (t.reservation.getD 0).toNat

def Holds (stage : Option Stage) (bound : Nat) : Prop :=
  ∀ here ∈ stage, here.size ≤ here.most ∧ here.most ≤ bound

def stageOf : Task → Option Stage
  | .running stage => some stage
  | .returned stage => stage

def Covered : Transfer → Prop
  | .upload stage reservation plaintext => Holds stage reservation.toNat ∧ Holds stage plaintext.toNat
  | .push task reservation plaintext => Holds (stageOf task) reservation.toNat ∧ Holds (stageOf task) plaintext.toNat
  | .finish task reservation => Holds (stageOf task) reservation.toNat
  | .stagedUpload len reservation | .uploadStaged len reservation | .spooledDownload len reservation _ _ =>
      len ≤ reservation.toNat
  | .downloadSlot writer reservation | .download writer reservation =>
      Tracked writer ∧ writer.limit = reservation ∧ writer.file.length ≤ writer.limit.toNat
  | .runaway _ => False
  | .beginDownload _ | .closed => True

theorem stageSize_le {stage : Option Stage} {bound : Nat} (holds : Holds stage bound) : stageSize stage ≤ bound := by
  cases stage with
  | none => exact Nat.zero_le _
  | some stage => exact Nat.le_trans (holds stage rfl).1 (holds stage rfl).2

theorem taskSize_le {task : Task} {bound : Nat} (holds : Holds (stageOf task) bound) : taskSize task ≤ bound := by
  cases task <;> exact stageSize_le holds

theorem openSize_le (covered : Covered t) : t.openSize ≤ reserved t := by
  cases t with
  | upload => exact stageSize_le covered.1
  | push => exact taskSize_le covered.1
  | finish => exact taskSize_le covered
  | stagedUpload | uploadStaged | spooledDownload => exact covered
  | downloadSlot | download => exact covered.2.1 ▸ covered.2.2
  | runaway => exact covered.elim
  | beginDownload | closed => exact Nat.zero_le _

structure Booked (budget : SpoolBudget) (held held' : UInt64) (t t' : Transfer) : Prop where
  counter : held'.toNat + reserved t = held.toNat + reserved t'
  within : budget.maxBytes ≠ 0 → held ≤ budget.maxBytes → held' ≤ budget.maxBytes
  covered : Covered t'

theorem Booked.still (covered : Covered t') (same : reserved t' = reserved t) : Booked budget held held t t' :=
  ⟨by rw [same], fun _ within => within, covered⟩

theorem Booked.settled {reservation : UInt64} (own : t.reservation = some reservation)
    (enough : reserved t ≤ held.toNat) : Booked budget held (released held reservation) t .closed := by
  have here : reserved t = reservation.toNat := by rw [reserved, own]; rfl
  rw [here] at enough
  have left := released_toNat enough
  refine ⟨here ▸ left, fun _ within => ?_, trivial⟩
  have within := UInt64.le_iff_toNat_le.1 within
  rw [UInt64.le_iff_toNat_le]
  omega

theorem Booked.trans {middle : UInt64} {between : Transfer} (first : Booked budget held middle t between)
    (second : Booked budget middle held' between t') : Booked budget held held' t t' := by
  refine ⟨?_, fun bounded within => second.within bounded (first.within bounded within), second.covered⟩
  have := first.counter
  have := second.counter
  omega

theorem holds_none (bound : Nat) : Holds none bound := nofun

theorem Holds.fed {stage : Stage} {chunk plaintext : UInt64} (holds : Holds (some stage) plaintext.toNat)
    (counted : plaintext.toNat + chunk.toNat < 2 ^ 64) : Holds (some (stage.fed chunk)) (plaintext + chunk).toNat := by
  intro here member
  cases member
  obtain ⟨written, bounded⟩ := holds stage rfl
  simp only [Stage.fed, toNat_add_of_lt counted]
  omega

theorem Holds.weaken {stage : Option Stage} {bound bound' : Nat} (holds : Holds stage bound) (le : bound ≤ bound') :
    Holds stage bound' :=
  fun here member => ⟨(holds here member).1, Nat.le_trans (holds here member).2 le⟩

theorem Holds.encrypt {stage : Stage} {bytes bound : Nat} (holds : Holds (some stage) bound)
    (behaves : stage.size + bytes ≤ stage.most) : Holds (some { stage with size := stage.size + bytes }) bound := by
  intro here member
  cases member
  exact ⟨behaves, (holds stage rfl).2⟩

theorem uncovered_toNat {reservation needed : UInt64} :
    (uncovered reservation needed).toNat = needed.toNat - reservation.toNat := by
  unfold uncovered
  split
  · rename_i le
    exact UInt64.toNat_sub_of_le _ _ le
  · rename_i above
    have above := UInt64.le_iff_toNat_le.not.1 above
    rw [UInt64.toNat_zero]
    omega

theorem cover_eq_some {reservation reservation' needed : UInt64}
    (granted : cover budget held reservation needed = some (held', reservation'))
    (room : Room budget held (uncovered reservation needed)) (enough : reservation.toNat ≤ held.toNat) :
    held'.toNat + reservation.toNat = held.toNat + reservation'.toNat ∧ needed.toNat ≤ reservation'.toNat ∧
      reservation.toNat ≤ reservation'.toNat ∧ (budget.maxBytes ≠ 0 → held' ≤ budget.maxBytes) := by
  obtain ⟨new, claimed, same⟩ := Option.map_eq_some_iff.1 granted
  cases same
  obtain ⟨adds, within⟩ := claimed_eq_some claimed room
  have small := held'.toNat_lt
  have grown : (reservation + uncovered reservation needed).toNat =
      reservation.toNat + (uncovered reservation needed).toNat := toNat_add_of_lt (by omega)
  rw [grown]
  rw [uncovered_toNat] at adds ⊢
  exact ⟨by omega, by omega, by omega, within⟩

theorem pushed_booked {stage : Option Stage} {reservation plaintext chunk : UInt64}
    (covered : Covered (.upload stage reservation plaintext)) (enough : reservation.toNat ≤ held.toNat)
    (counted : plaintext.toNat + chunk.toNat < 2 ^ 64)
    (room : Room budget held (uncovered reservation (plaintext + chunk)))
    (moved : pushed budget held stage reservation plaintext chunk = (held', t')) :
    Booked budget held held' (.upload stage reservation plaintext) t' := by
  have more : plaintext.toNat ≤ (plaintext + chunk).toNat := by rw [toNat_add_of_lt counted]; omega
  simp only [pushed] at moved
  cases granted : cover budget held reservation (plaintext + chunk) with
  | none =>
      simp only [granted] at moved
      cases moved
      exact .still ⟨covered.1, covered.2.weaken more⟩ rfl
  | some answer =>
      obtain ⟨new, reservation'⟩ := answer
      obtain ⟨counter, needed, -, within⟩ := cover_eq_some granted room enough
      simp only [granted] at moved
      cases stage with
      | none =>
          cases moved
          exact ⟨counter, fun bounded _ => within bounded, holds_none _, holds_none _⟩
      | some stage =>
          cases moved
          have fed := Holds.fed covered.2 counted
          exact ⟨counter, fun bounded _ => within bounded, fed.weaken needed, fed⟩

theorem finished_booked {stage : Option Stage} {reservation plaintext : UInt64}
    (covered : Covered (.upload stage reservation plaintext)) (enough : reservation.toNat ≤ held.toNat)
    (counted : plaintext.toNat + ciphertextOverhead.toNat < 2 ^ 64)
    (room : Room budget held (uncovered reservation (plaintext + ciphertextOverhead)))
    (moved : finished budget held stage reservation plaintext = (held', t')) :
    Booked budget held held' (.upload stage reservation plaintext) t' := by
  simp only [finished] at moved
  cases granted : cover budget held reservation (plaintext + ciphertextOverhead) with
  | none =>
      simp only [granted] at moved
      cases moved
      exact .settled rfl enough
  | some answer =>
      obtain ⟨new, reservation'⟩ := answer
      obtain ⟨counter, needed, -, within⟩ := cover_eq_some granted room enough
      simp only [granted] at moved
      cases stage with
      | none =>
          cases moved
          have grown : Booked budget held new (.upload none reservation plaintext) (.upload none reservation' plaintext) :=
            ⟨counter, fun bounded _ => within bounded, holds_none _, holds_none _⟩
          exact grown.trans (.settled rfl (show reservation'.toNat ≤ new.toNat by omega))
      | some stage =>
          cases moved
          exact ⟨counter, fun bounded _ => within bounded, (Holds.fed covered.2 counted).weaken needed⟩

theorem dropped_booked (covered : Covered t) (enough : reserved t ≤ held.toNat) (lasts : Lasts budget held t .drop)
    (moved : t.dropped held = some (held', t')) : Booked budget held held' t t' := by
  cases t with
  | push task | finish task =>
      cases task with
      | running => exact lasts.elim
      | returned =>
          cases moved
          exact .settled rfl enough
  | uploadStaged | download => exact lasts.elim
  | spooledDownload len reservation streaming reads =>
      cases streaming with
      | false => cases moved
      | true =>
          cases reads with
          | zero =>
              cases moved
              exact .settled rfl enough
          | succ reads =>
              cases moved
              exact .still covered rfl
  | upload | stagedUpload | beginDownload | downloadSlot =>
      cases moved
      exact .settled rfl enough
  | runaway | closed => cases moved

theorem Holds.returns {stage : Stage} {bound : Nat} (holds : Holds (some stage) bound) (ok : Bool) :
    Holds (if ok then some stage else none) bound := by
  cases ok with
  | true => exact holds
  | false => exact holds_none bound

theorem call_covered {writer writer' : BoundedFile} {reservation : UInt64} {c : BoundedFile.Call}
    (covered : Covered (.download writer reservation)) (cuts : Cuts writer c) (moved : writer.step c = some writer') :
    Covered (.download writer' reservation) := by
  obtain ⟨tracked, limit, within⟩ := covered
  rcases Proof.Spool.BoundedFile.step_eq moved with ran | rfl
  · obtain ⟨tracked', same⟩ := Proof.Spool.BoundedFile.call_tracked tracked ran
    have within' := (Proof.Spool.BoundedFile.call_length tracked within ran).2 cuts
    exact ⟨tracked', same.trans limit, same ▸ within'⟩
  · exact ⟨tracked, limit, within⟩

theorem step_drop : t.step budget held .drop = t.dropped held := by
  cases t with
  | push task | finish task => cases task with
    | running => rfl
    | returned stage => cases stage <;> rfl
  | spooledDownload len reservation streaming reads => cases streaming <;> cases reads <;> rfl
  | runaway holder => cases holder <;> rfl
  | _ => rfl

theorem step_booked (covered : Covered t) (enough : reserved t ≤ held.toNat) (behaves : Behaves t action)
    (lasts : Lasts budget held t action) (moved : t.step budget held action = some (held', t')) :
    Booked budget held held' t t' := by
  cases t with
  | upload stage reservation plaintext =>
      cases action with
      | push chunk => exact pushed_booked covered enough lasts.1 lasts.2 (Option.some.inj moved)
      | finish => exact finished_booked covered enough lasts.1 lasts.2 (Option.some.inj moved)
      | drop => exact dropped_booked covered enough lasts (step_drop.symm.trans moved)
      | _ => cases moved
  | push task reservation plaintext =>
      cases task with
      | running stage =>
          cases action with
          | encrypt bytes =>
              cases moved
              exact .still ⟨covered.1.encrypt behaves, covered.2.encrypt behaves⟩ rfl
          | taskReturns ok =>
              cases moved
              exact .still ⟨covered.1.returns ok, covered.2.returns ok⟩ rfl
          | drop => exact dropped_booked covered enough lasts (step_drop.symm.trans moved)
          | _ => cases moved
      | returned stage =>
          cases action with
          | resume =>
              cases moved
              exact .still covered rfl
          | drop => exact dropped_booked covered enough lasts (step_drop.symm.trans moved)
          | _ => cases moved
  | finish task reservation =>
      cases task with
      | running stage =>
          cases action with
          | encrypt bytes =>
              cases moved
              exact .still (Holds.encrypt covered behaves) rfl
          | taskReturns ok =>
              cases moved
              exact .still (Holds.returns covered ok) rfl
          | drop => exact dropped_booked covered enough lasts (step_drop.symm.trans moved)
          | _ => cases moved
      | returned stage =>
          cases action with
          | resume =>
              cases stage with
              | none =>
                  cases moved
                  exact .settled rfl enough
              | some stage =>
                  cases moved
                  exact .still (stageSize_le covered) rfl
          | drop => exact dropped_booked covered enough lasts (step_drop.symm.trans moved)
          | _ => cases stage <;> cases moved
  | stagedUpload len reservation =>
      cases action with
      | uploadStaged =>
          cases moved
          exact .still covered rfl
      | drop => exact dropped_booked covered enough lasts (step_drop.symm.trans moved)
      | _ => cases moved
  | uploadStaged len reservation =>
      cases action with
      | libraryReturns ok =>
          cases moved
          exact .settled rfl enough
      | drop => exact dropped_booked covered enough lasts (step_drop.symm.trans moved)
      | _ => cases moved
  | beginDownload reservation =>
      cases action with
      | created ok =>
          cases ok with
          | false =>
              cases moved
              exact .settled rfl enough
          | true =>
              cases moved
              exact .still ⟨rfl, rfl, Nat.zero_le _⟩ rfl
      | drop => exact dropped_booked covered enough lasts (step_drop.symm.trans moved)
      | _ => cases moved
  | downloadSlot writer reservation =>
      cases action with
      | downloadToWriter =>
          cases moved
          exact .still covered rfl
      | drop => exact dropped_booked covered enough lasts (step_drop.symm.trans moved)
      | _ => cases moved
  | download writer reservation =>
      cases action with
      | call call =>
          obtain ⟨writer', called, same⟩ := Option.map_eq_some_iff.1 moved
          cases same
          exact .still (call_covered covered behaves called) rfl
      | libraryReturns ok =>
          cases ok with
          | false =>
              cases moved
              exact .settled rfl enough
          | true =>
              cases moved
              exact .still (covered.2.1 ▸ covered.2.2) rfl
      | drop => exact dropped_booked covered enough lasts (step_drop.symm.trans moved)
      | _ => cases moved
  | spooledDownload len reservation streaming reads =>
      cases action with
      | readChunk =>
          cases streaming with
          | false => cases reads <;> cases moved
          | true =>
              cases reads <;> cases moved <;> exact .still covered rfl
      | readReturns =>
          cases reads with
          | zero => cases streaming <;> cases moved
          | succ reads =>
              simp only [Transfer.step] at moved
              split at moved <;> cases moved
              · exact .settled rfl enough
              · exact .still covered rfl
      | drop => exact dropped_booked covered enough lasts (step_drop.symm.trans moved)
      | _ => cases streaming <;> cases reads <;> cases moved
  | runaway => exact covered.elim
  | closed => cases action <;> cases moved

/-! ## All transfers -/

structure Sound (budget : SpoolBudget) (s : State) : Prop where
  sum : s.held.toNat = total reserved s.transfers
  within : budget.maxBytes ≠ 0 → s.held ≤ budget.maxBytes
  covered : ∀ t ∈ s.transfers, Covered t

theorem reserve_sound {bytes : UInt64} (sound : Sound budget s) (room : Room budget s.held bytes)
    (covered : Covered t) (own : t.reservation = some bytes) : Sound budget (reserve budget s bytes t) := by
  unfold reserve
  cases granted : budget.claimed s.held bytes with
  | none => exact sound
  | some held =>
      obtain ⟨adds, within⟩ := claimed_eq_some granted room
      have here : reserved t = bytes.toNat := by rw [reserved, own]; rfl
      refine ⟨?_, within, fun other member => ?_⟩
      · show held.toNat = total reserved (s.transfers ++ [t])
        rw [adds, sound.sum, total_append, total_cons, here]
        rfl
      · rcases List.mem_append.1 member with before | last
        · exact sound.covered other before
        · exact List.mem_singleton.1 last ▸ covered

theorem step_sound {e : Event} (sound : Sound budget s) (assumed : Assumed s e) (kept : Kept budget s e)
    (moved : MediaSpool.step budget s e = some s') : Sound budget s' := by
  cases e with
  | beginUpload =>
      cases moved
      exact reserve_sound sound kept (by constructor <;> intro here member <;> cases member <;> decide) rfl
  | beginDownload bytes =>
      cases moved
      exact reserve_sound sound kept trivial rfl
  | on id action =>
      obtain ⟨t, here, moved⟩ := Option.bind_eq_some_iff.1 moved
      obtain ⟨⟨held, t'⟩, stepped, same⟩ := Option.map_eq_some_iff.1 moved
      cases same
      have member : t ∈ s.transfers := List.mem_of_getElem? here
      have enough : reserved t ≤ s.held.toNat := sound.sum ▸ amount_le_total member
      have booked := step_booked (sound.covered t member) enough (assumed t here) (kept t here) stepped
      have changed : total reserved (s.transfers.set id t') + reserved t = total reserved s.transfers + reserved t' :=
        total_set t' here
      refine ⟨?_, fun bounded => booked.within bounded (sound.within bounded), fun other among => ?_⟩
      · have := booked.counter
        have := sound.sum
        show held.toNat = total reserved (s.transfers.set id t')
        omega
      · rcases List.mem_or_eq_of_mem_set among with before | rfl
        · exact sound.covered other before
        · exact booked.covered

theorem sound_of_reaches (reaches : (machine budget).Reaches (fun s e => Assumed s e ∧ Kept budget s e) s) :
    Sound budget s :=
  reaches.invariant (Sound budget) ⟨rfl, fun _ => UInt64.le_iff_toNat_le.2 (Nat.zero_le _), fun _ member => (List.not_mem_nil member).elim⟩
    fun _ _ _ sound allowed moved => step_sound sound allowed.1 allowed.2 moved

theorem disk_covered (budget : SpoolBudget) {s : State}
    (reaches : (machine budget).Reaches (fun s e => Assumed s e ∧ Kept budget s e) s) :
    total openSize s.transfers ≤ s.inFlight.toNat ∧ (budget.maxBytes ≠ 0 → s.inFlight ≤ budget.maxBytes) := by
  have sound := sound_of_reaches reaches
  refine ⟨?_, sound.within⟩
  calc total openSize s.transfers
    _ ≤ total reserved s.transfers := total_le_total fun t member => openSize_le (sound.covered t member)
    _ = s.inFlight.toNat := sound.sum.symm

/-! ## Two runs -/

instance decidableBehaves (t : Transfer) (action : Action) : Decidable (Behaves t action) := by
  unfold Behaves
  split <;> infer_instance

instance decidableLasts (t : Transfer) (action : Action) : Decidable (Lasts budget held t action) := by
  unfold Lasts
  split <;> infer_instance

instance decidableAssumed (s : State) : (e : Event) → Decidable (Assumed s e)
  | .on id action => inferInstanceAs (Decidable (∀ t ∈ s.transfers[id]?, Behaves t action))
  | .beginUpload | .beginDownload _ => .isTrue trivial

instance decidableKept (s : State) : (e : Event) → Decidable (Kept budget s e)
  | .on id action => inferInstanceAs (Decidable (∀ t ∈ s.transfers[id]?, Lasts budget s.held t action))
  | .beginUpload => inferInstanceAs (Decidable (Room budget s.held 0))
  | .beginDownload bytes => inferInstanceAs (Decidable (Room budget s.held bytes))

def sideBySide : List Event :=
  [.beginUpload, .on 0 (.push 40), .beginDownload 20, .on 0 (.encrypt 32), .on 1 (.created true), .on 0 (.taskReturns true),
    .on 1 .downloadToWriter, .on 0 .resume, .on 1 (.call (.write 20 (some 20))), .on 0 .finish, .on 0 (.encrypt 26),
    .on 0 (.taskReturns true), .on 1 (.libraryReturns true), .on 0 .resume, .on 1 .readChunk, .on 0 .uploadStaged, .on 1 .drop]

theorem disk_covered_sideBySide : ∃ s : State, total openSize s.transfers = 78 ∧ s.inFlight = 86 ∧
    (total openSize s.transfers ≤ s.inFlight.toNat ∧ s.inFlight ≤ 100) := by
  obtain ⟨s, reaches, ends⟩ := Machine.reaches_of_replay
    (fun s e => of_decide_eq_true (p := Assumed s e ∧ Kept ⟨100⟩ s e))
    (fun s : State => total openSize s.transfers = 78 ∧ s.inFlight = 86) sideBySide
    (show ((machine ⟨100⟩).replay (fun s e => decide (Assumed s e ∧ Kept ⟨100⟩ s e)) _ sideBySide).map _ = some true by
      decide +kernel)
  obtain ⟨size, held⟩ := of_decide_eq_true ends
  obtain ⟨covered, within⟩ := disk_covered ⟨100⟩ reaches
  exact ⟨s, size, held, covered, within (by decide)⟩

/-- The future of a push is dropped, and its task goes on writing. -/
def abandoned : List Event := [.beginUpload, .on 0 (.push 40), .on 0 .drop, .on 0 (.encrypt 32)]

theorem abandoned_uncovered : ¬∀ budget s, (machine budget).Reaches Assumed s →
    total openSize s.transfers ≤ s.inFlight.toNat := by
  intro all
  obtain ⟨s, reaches, ends⟩ := Machine.reaches_of_replay (fun s e => of_decide_eq_true (p := Assumed s e))
    (fun s : State => total openSize s.transfers = 32 ∧ s.inFlight = 0) abandoned
    (show ((machine ⟨100⟩).replay (fun s e => decide (Assumed s e)) _ abandoned).map _ = some true by decide +kernel)
  obtain ⟨size, held⟩ := of_decide_eq_true ends
  have covered := all ⟨100⟩ s reaches
  rw [size, held] at covered
  exact absurd covered (by decide)

end Wamux.Proof.Spool.Transfers
