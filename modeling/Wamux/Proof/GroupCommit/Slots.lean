import Wamux.Proof.GroupCommit.Invariant

namespace Wamux.Proof.GroupCommit
open Wamux.GroupCommit Wamux.Runs Wamux.Runs.Async

variable {F : Faults} {cap : Nat} {s s' : Sys} {e : Event} {t u : TaskId}

/-! ## The pending count counts the slots -/

def HasSlot : Phase → Prop
  | .requesting method | .locking method | .running method _ => .slot ∈ glue method
  | .jobHeld _ => True
  | .leaving drops _ => .slot ∈ drops
  | .idle | .connHeld _ | .registering | .checking | .parked | .ended _ => False

/-- A slot outlives its guard only in a future or guard that was dropped. -/
def Shed : Phase → Prop
  | .leaving drops next => .slot ∈ drops → .guard ∈ drops.tail ∨
      next = .ended .abandoned ∨ ∃ method, next = .ended (.dropped method)
  | _ => True

structure Slots (s : Sys) : Prop where
  counted : ∃ holders : List TaskId, holders.Nodup ∧ holders.length = s.pending ∧
    ∀ t, t ∈ holders ↔ HasSlot (s.phase t)
  shed : ∀ t, Shed (s.phase t)

theorem Slots.step (slots : Slots s) {phase : Phase} (now : s'.phase = Function.update s.phase t phase)
    (pending : s'.pending = s.pending) (same : HasSlot phase ↔ HasSlot (s.phase t)) (shed : Shed phase) :
    Slots s' := by
  obtain ⟨holders, once, counted, members⟩ := slots.counted
  refine ⟨⟨holders, once, by rw [pending, counted], fun u => ?_⟩, fun u => ?_⟩
  · rw [members u, now]
    by_cases eq : u = t
    · subst eq
      rw [Function.update_self, same]
    · rw [Function.update_of_ne eq]
  · rw [now]
    by_cases eq : u = t
    · subst eq
      rwa [Function.update_self]
    · rw [Function.update_of_ne eq]
      exact slots.shed u

theorem Slots.entered (slots : Slots s) (idle : s.phase t = .idle) :
    Slots (s.enter.setPhase t (.requesting .beginJob)) := by
  obtain ⟨holders, once, counted, members⟩ := slots.counted
  have fresh : t ∉ holders := by simp [members, idle, HasSlot]
  refine ⟨⟨t :: holders, List.nodup_cons.2 ⟨fresh, once⟩, by simp [counted, Sys.enter, Sys.setPhase],
    fun u => ?_⟩, fun u => ?_⟩
  · by_cases eq : u = t
    · subst eq
      simp [HasSlot, glue]
    · rw [setPhase_other eq, List.mem_cons, or_iff_right eq]
      exact members u
  · by_cases eq : u = t
    · subst eq
      rw [setPhase_self]
      trivial
    · rw [setPhase_other eq]
      exact slots.shed u

theorem leave_slot (next : After) (rest : List Owned) : HasSlot (leave next rest) ↔ .slot ∈ rest := by
  cases rest with
  | nil => cases next <;> simp [leave, After.phase, HasSlot]
  | cons first rest => rfl

theorem Shed.leave {first : Owned} {rest : List Owned} {next : After}
    (shed : Shed (.leaving (first :: rest) next)) (once : (first :: rest).Nodup) :
    Shed (leave next rest) := by
  cases rest with
  | nil => cases next <;> trivial
  | cons second rest =>
      intro slot
      refine (shed (List.mem_cons_of_mem _ slot)).imp_left fun guard => ?_
      -- With the slot and the guard both still to drop, the slot was to go first.
      cases first <;> cases second <;> simp_all

theorem Slots.left (locking : Locking s) (slots : Slots s) {first : Owned} {rest : List Owned} {next : After}
    (phase : s.phase t = .leaving (first :: rest) next) :
    Slots ((s.dropOwned first).setPhase t (leave next rest)) := by
  have once := locking.tidy t
  have before := slots.shed t
  rw [phase] at once before
  have shed := before.leave once
  cases first with
  | guard =>
      have same : s.unlock.pending = s.pending ∧ s.unlock.phase = s.phase := by
        unfold Sys.unlock
        split <;> simp
      refine slots.step (t := t) (by rw [← same.2]; rfl) same.1 ?_ shed
      rw [leave_slot, phase]
      simp [HasSlot]
  | slot =>
      obtain ⟨holders, nodup, counted, members⟩ := slots.counted
      have member : t ∈ holders := by simp [members, phase, HasSlot]
      have gone : .slot ∉ rest := (List.nodup_cons.1 once).1
      refine ⟨⟨holders.erase t, nodup.erase t, ?_, fun u => ?_⟩, fun u => ?_⟩
      · rw [List.length_erase_of_mem member, counted]
        rfl
      · rw [nodup.mem_erase_iff]
        by_cases eq : u = t
        · subst eq
          simp [leave_slot, gone]
        · rw [setPhase_other eq, and_iff_right eq]
          exact members u
      · by_cases eq : u = t
        · subst eq
          rwa [setPhase_self]
        · rw [setPhase_other eq]
          exact slots.shed u

theorem Post.slot {method : Method} {outcome : Outcome} {b : BatchState} {taken : List TaskId}
    {written : TaskId → List String} {seen : Option Nat}
    (post : Post F cap taken written method t outcome b seen) :
    (HasSlot (after method outcome) ↔ .slot ∈ glue method) ∧ Shed (after method outcome) := by
  cases outcome with
  | started result =>
      obtain ⟨rfl, rfl, -⟩ := post
      exact ⟨by simp [after, HasSlot, glue], trivial⟩
  | finished result =>
      obtain ⟨rfl, -⟩ := post
      exact ⟨by simp [after, HasSlot, glue], fun _ => .inl (by simp)⟩
  | waits =>
      obtain ⟨rfl, -⟩ := post
      exact ⟨by simp [after, HasSlot, glue], fun _ => .inl (by simp)⟩
  | failed =>
      obtain ⟨rfl, -⟩ := post
      exact ⟨by simp [after, HasSlot, glue], fun _ => .inl (by simp)⟩
  | guard result =>
      cases result with
      | ok =>
          obtain ⟨rfl | rfl, -⟩ := post
          · exact ⟨by simp [after, HasSlot, glue], trivial⟩
          · exact ⟨by simp [after, HasSlot, glue], trivial⟩
      | error e =>
          obtain ⟨rfl, -⟩ := post
          exact ⟨by simp [after, HasSlot, glue], fun slot => by simp at slot⟩
  | rechecked result =>
      cases result with
      | none =>
          obtain ⟨rfl, -⟩ := post
          exact ⟨by simp [after, HasSlot, glue], fun slot => by simp at slot⟩
      | some result =>
          obtain ⟨rfl, -⟩ := post
          exact ⟨by simp [after, HasSlot, glue], fun slot => by simp at slot⟩

theorem Resumption.slot {method : Method} {code : Locked Outcome} {batch : BatchState} {taken : List TaskId}
    (how : Resumption cap s e t method code batch taken) : HasSlot (s.phase t) ↔ .slot ∈ glue method := by
  cases how with
  | granted phase holds => rw [phase]; rfl
  | served phase => rw [phase]; rfl
  | loaded phase => rw [phase]; rfl
  | finishing phase => simp [phase, HasSlot, glue]
  | failing phase => simp [phase, HasSlot, glue]

theorem Slots.move (inv : Inv F (max cap 1) s) (slots : Slots s) (move : Move cap s e s') : Slots s' := by
  cases move with
  | entered idle => exact slots.entered idle
  | called idle guards =>
      refine slots.step rfl rfl ?_ trivial
      rcases guards with rfl | rfl <;> simp [idle, HasSlot, glue]
  | @requested t choice method phase =>
      unfold Sys.request
      split
      · exact slots.step (t := t) rfl rfl (by rw [phase]; rfl) (show Shed (.locking method) from trivial)
      · exact slots.step (t := t) rfl rfl (by rw [phase]; rfl) (show Shed (.locking method) from trivial)
  | @resumed _ t method code batch taken how =>
      obtain ⟨seen, runs⟩ := inv.runs how
      obtain ⟨-, rest⟩ := advanced runs.safe
      have kept : (HasSlot (codePhase method (code.advance batch).2) ↔ .slot ∈ glue method) ∧
          Shed (codePhase method (code.advance batch).2) := by
        rcases code.advance_paused batch with ⟨outcome, stopped⟩ | paused
        · rw [stopped] at rest ⊢
          exact Post.slot rest
        · rw [codePhase_paused paused]
          exact ⟨Iff.rfl, trivial⟩
      exact slots.step (t := t) rfl rfl (kept.1.trans how.slot.symm) kept.2
  | registered phase => exact slots.step rfl rfl (by simp [phase, HasSlot]) trivial
  | counted phase busy => exact slots.step rfl rfl (by simp [phase, HasSlot]) trivial
  | drained phase quiet => exact slots.step rfl rfl (by simp [phase, HasSlot, glue]) trivial
  | received phase value => exact slots.step rfl rfl (by simp [phase, HasSlot]) trivial
  | orphaned phase closed => exact slots.step rfl rfl (by simp [phase, HasSlot]) trivial
  | woken phase heard => exact slots.step rfl rfl (by simp [phase, HasSlot]) trivial
  | left phase => exact slots.left inv.locking phase
  | wroteJob phase => exact ⟨slots.counted, slots.shed⟩
  | wroteGuard phase => exact ⟨slots.counted, slots.shed⟩
  | aborted phase => exact slots.step rfl rfl (by simp [phase, HasSlot]) trivial
  | droppedGranted phase holds =>
      exact slots.step rfl rfl (by rw [phase]; rfl) fun _ => .inr (.inr ⟨_, rfl⟩)
  | @droppedQueued t ran method phase queued =>
      refine slots.step (t := t) rfl rfl ?_ ?_
      · rw [leave_slot, phase]
        simp [HasSlot]
      · cases method <;> simp [glue, leave, After.phase, Shed]
  | droppedAwaiting phase => exact slots.step rfl rfl (by rw [phase]; rfl) fun _ => .inr (.inr ⟨_, rfl⟩)
  | droppedJob phase => exact slots.step rfl rfl (by simp [phase, HasSlot]) fun _ => .inr (.inl rfl)
  | droppedGuard phase => exact slots.step rfl rfl (by simp [phase, HasSlot]) fun slot => by simp at slot
  | droppedParked phase => exact slots.step rfl rfl (by simp [phase, HasSlot]) trivial

def Coming (s : Sys) (u : TaskId) : Prop :=
  s.phase u = .requesting .beginJob ∨ s.phase u = .locking .beginJob ∨
    ∃ drops next, s.phase u = .leaving drops next ∧ .slot ∈ drops ∧
      (next = .ended .abandoned ∨ ∃ method, next = .ended (.dropped method))

theorem Slots.other (slots : Slots s)
    (many : 1 < s.pending ∨ (¬HasSlot (s.phase t) ∧ 0 < s.pending)) :
    ∃ u, u ≠ t ∧ HasSlot (s.phase u) := by
  obtain ⟨holders, once, counted, members⟩ := slots.counted
  rw [← counted] at many
  rcases many with two | ⟨none, one⟩
  · by_contra alone
    have all : holders ⊆ [t] := by
      intro u member
      rw [List.mem_singleton]
      by_contra other
      exact alone ⟨u, other, (members u).1 member⟩
    have short := List.Nodup.length_le_of_subset once all
    simp only [List.length_singleton] at short
    omega
  · obtain ⟨u, member⟩ := List.exists_mem_of_length_pos one
    have slot := (members u).1 member
    exact ⟨u, fun same => none (same ▸ slot), slot⟩

theorem Slots.coming (inv : Inv F cap s) (slots : Slots s) (holds : s.holder = some t)
    (many : 1 < s.pending ∨ (¬HasSlot (s.phase t) ∧ 0 < s.pending)) :
    ∃ u, u ≠ t ∧ Coming s u := by
  obtain ⟨u, other, slot⟩ := slots.other many
  refine ⟨u, other, ?_⟩
  have notOwner : role (s.phase u) ≠ .owner := by
    intro owner
    have same := inv.locking.mutex.owner u owner
    rw [holds, Option.some.injEq] at same
    exact other same.symm
  have shed := slots.shed u
  have fact := inv.fact u
  unfold Coming
  cases phase : s.phase u with
  | requesting method =>
      rw [phase] at slot fact
      cases method with
      | beginJob => exact .inl rfl
      | finish => exact fact.elim
      | fail => exact fact.elim
      | _ => simp [HasSlot, glue] at slot
  | locking method =>
      rw [phase] at slot fact
      cases method with
      | beginJob => exact .inr (.inl rfl)
      | finish => exact fact.elim
      | fail => exact fact.elim
      | _ => simp [HasSlot, glue] at slot
  | leaving drops next =>
      rw [phase] at slot shed notOwner
      refine .inr (.inr ⟨drops, next, rfl, slot, (shed slot).resolve_left fun guard => ?_⟩)
      simp [role, List.mem_of_mem_tail guard] at notOwner
  | running method code => simp [phase, role] at notOwner
  | jobHeld aborted => simp [phase, role] at notOwner
  | connHeld method => simp [phase, role] at notOwner
  | idle => simp [phase, HasSlot] at slot
  | registering => simp [phase, HasSlot] at slot
  | checking => simp [phase, HasSlot] at slot
  | parked => simp [phase, HasSlot] at slot
  | ended ending => simp [phase, HasSlot] at slot

theorem Slots.initial : Slots (machine cap).initial :=
  ⟨⟨[], List.nodup_nil, rfl, by simp [machine, HasSlot]⟩, fun _ => trivial⟩

end Wamux.Proof.GroupCommit
