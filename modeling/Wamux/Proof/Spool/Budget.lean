import Wamux.Spool.Budget

namespace Wamux.Proof.Spool.Budget
open Wamux.Spool Wamux.Spool.Budget Wamux.Runs Wamux.Runs.Ledger

variable {budget : SpoolBudget} {s s' : State}

def reserved : List Reservation → Nat := total fun reservation => reservation.bytes.toNat

/-- A maximum below `u64::MAX`, or no need of one. -/
def Room (budget : SpoolBudget) (held bytes : UInt64) : Prop :=
  (budget.maxBytes ≠ 0 ∧ budget.maxBytes ≠ u64Max) ∨ held.toNat + bytes.toNat < 2 ^ 64

instance (budget : SpoolBudget) (held bytes : UInt64) : Decidable (Room budget held bytes) :=
  inferInstanceAs (Decidable (_ ∨ _))

def Fits (budget : SpoolBudget) (s : State) : Event → Prop
  | .exchange task spurious => match s.calls task with
      | none => True
      | some call => s.held = call.seen ∧ spurious = false → Room budget s.held call.bytes
  | _ => True

/-! ## Claims -/

theorem toNat_add_of_lt {a b : UInt64} (small : a.toNat + b.toNat < 2 ^ 64) : (a + b).toNat = a.toNat + b.toNat := by
  rw [UInt64.toNat_add, Nat.mod_eq_of_lt small]

theorem released_toNat {held bytes : UInt64} (enough : bytes.toNat ≤ held.toNat) :
    (released held bytes).toNat + bytes.toNat = held.toNat := by
  rw [released, UInt64.toNat_sub_of_le _ _ (UInt64.le_iff_toNat_le.2 enough), Nat.sub_add_cancel enough]

theorem eq_u64Max {a : UInt64} (top : u64Max ≤ a) : a = u64Max := by
  have below := a.toNat_lt
  have above : 18446744073709551615 ≤ a.toNat := UInt64.le_iff_toNat_le.1 top
  exact UInt64.toNat_inj.1 (show a.toNat = 18446744073709551615 by omega)

theorem claimed_eq_some {held bytes new : UInt64} (granted : budget.claimed held bytes = some new)
    (room : Room budget held bytes) :
    new.toNat = held.toNat + bytes.toNat ∧ (budget.maxBytes ≠ 0 → new ≤ budget.maxBytes) := by
  simp only [SpoolBudget.claimed] at granted
  split at granted
  · rename_i allowed
    cases granted
    have small : held.toNat + bytes.toNat < 2 ^ 64 := by
      rcases room with ⟨bounded, below⟩ | small
      · by_contra large
        rw [saturatingAdd, if_neg large] at allowed
        exact below (eq_u64Max (allowed.resolve_left bounded))
      · exact small
    rw [saturatingAdd, if_pos small] at allowed ⊢
    exact ⟨toNat_add_of_lt small, fun bounded => allowed.resolve_left bounded⟩
  · cases granted

/-! ## Steps -/

def granted (budget : SpoolBudget) (s : State) : Event → UInt64
  | .exchange task spurious => match s.calls task with
      | some call =>
          if (s.held = call.seen ∧ spurious = false) ∧ (budget.claimed call.seen call.bytes).isSome then call.bytes else 0
      | none => 0
  | _ => 0

def givenBack (s : State) : Event → UInt64
  | .drop id => (s.reservations[id]?.map Reservation.bytes).getD 0
  | _ => 0

structure Moved (budget : SpoolBudget) (s : State) (e : Event) (s' : State) : Prop where
  held : s'.held.toNat + (givenBack s e).toNat = s.held.toNat + (granted budget s e).toNat
  sum : reserved s'.reservations + (givenBack s e).toNat = reserved s.reservations + (granted budget s e).toNat
  within : budget.maxBytes ≠ 0 → s'.held ≤ s.held ∨ s'.held ≤ budget.maxBytes

theorem Moved.still {e : Event} (granted : granted budget s e = 0) (givenBack : givenBack s e = 0) (held : s'.held = s.held)
    (sum : reserved s'.reservations = reserved s.reservations) : Moved budget s e s' := by
  constructor
  · rw [granted, givenBack, held]
  · rw [granted, givenBack, sum]
  · exact fun _ => .inl (UInt64.le_of_eq held)

theorem reserved_set {reservations : List Reservation} {id : ReservationId} {old : Reservation} (new : Reservation)
    (here : reservations[id]? = some old) :
    reserved (reservations.set id new) + old.bytes.toNat = reserved reservations + new.bytes.toNat :=
  total_set new here

theorem bytes_le_reserved {reservations : List Reservation} {id : ReservationId} {reservation : Reservation}
    (here : reservations[id]? = some reservation) : reservation.bytes.toNat ≤ reserved reservations :=
  @amount_le_total _ (fun reservation => reservation.bytes.toNat) _ _ (List.mem_of_getElem? here)

theorem returned_some {id : ReservationId} {bytes : UInt64} (returned : s.returned (some id) bytes = some s')
    (fits : reserved s.reservations + bytes.toNat < 2 ^ 64) :
    s'.held = s.held ∧ reserved s'.reservations = reserved s.reservations + bytes.toNat := by
  simp only [State.returned] at returned
  split at returned
  · rename_i held here
    cases returned
    have small : held.toNat ≤ reserved s.reservations := bytes_le_reserved here
    have sum := reserved_set (.live (held + bytes)) here
    simp only [Reservation.bytes, toNat_add_of_lt (show held.toNat + bytes.toNat < 2 ^ 64 by omega)] at sum
    refine ⟨rfl, ?_⟩
    show reserved (s.reservations.set id _) = _
    omega
  · cases returned

theorem exchange_moved {task : TaskId} {spurious : Bool} {call : Call} (exact : s.held.toNat = reserved s.reservations)
    (calls : s.calls task = some call) (fits : s.held = call.seen ∧ spurious = false → Room budget s.held call.bytes)
    (moved : step budget s (.exchange task spurious) = some s') : Moved budget s (.exchange task spurious) s' := by
  have small := s.held.toNat_lt
  simp only [step, calls] at moved
  cases asked : budget.claimed call.seen call.bytes with
  | none =>
      have nothing : granted budget s (.exchange task spurious) = 0 := by simp [granted, calls, asked]
      simp only [asked] at moved
      cases grows : call.grows with
      | none =>
          rw [grows] at moved
          cases moved
          exact .still nothing rfl rfl rfl
      | some id =>
          rw [grows] at moved
          have refused := returned_some moved (show reserved s.reservations + 0 < 2 ^ 64 by omega)
          exact .still nothing rfl refused.1 refused.2
  | some total =>
      simp only [asked] at moved
      split at moved
      · rename_i won
        have claim : granted budget s (.exchange task spurious) = call.bytes := by simp [granted, calls, asked, won]
        obtain ⟨adds, within⟩ := claimed_eq_some (won.1 ▸ asked) (fits won)
        have small := total.toNat_lt
        cases grows : call.grows with
        | none =>
            simp only [grows] at moved
            cases moved
            exact ⟨by rw [claim]; exact adds, by rw [claim]; simp [reserved, Reservation.bytes, givenBack],
              fun bounded => .inr (within bounded)⟩
        | some id =>
            simp only [grows] at moved
            have given := returned_some moved (show reserved s.reservations + call.bytes.toNat < 2 ^ 64 by omega)
            exact ⟨by rw [claim, given.1]; exact adds, by rw [claim]; exact given.2,
              fun bounded => .inr (by rw [given.1]; exact within bounded)⟩
      · rename_i lost
        cases moved
        exact .still (by simp [granted, calls, lost]) rfl rfl rfl

theorem step_moved {e : Event} (exact : s.held.toNat = reserved s.reservations) (fits : Fits budget s e)
    (moved : step budget s e = some s') : Moved budget s e s' := by
  cases e with
  | tryReserve task bytes =>
      simp only [step] at moved
      split at moved <;> cases moved
      exact .still rfl rfl rfl rfl
  | tryGrow task id bytes =>
      simp only [step] at moved
      split at moved
      · rename_i held _ here
        cases moved
        have sum := reserved_set (.growing held) here
        exact .still rfl rfl rfl (Nat.add_right_cancel sum)
      · cases moved
  | exchange task spurious =>
      cases calls : s.calls task with
      | none => simp [step, calls] at moved
      | some call =>
          simp only [Fits, calls] at fits
          exact exchange_moved exact calls fits moved
  | drop id =>
      simp only [step] at moved
      split at moved
      · rename_i held here
        cases moved
        have back : givenBack s (.drop id) = held := by simp [givenBack, here, Reservation.bytes]
        have sum : reserved (s.reservations.set id .dropped) + held.toNat = reserved s.reservations := reserved_set .dropped here
        have left := released_toNat (show held.toNat ≤ s.held.toNat by omega)
        refine ⟨by rw [back]; exact left, by rw [back]; exact sum, fun _ => .inl ?_⟩
        rw [UInt64.le_iff_toNat_le]
        exact Nat.le.intro left
      · cases moved

/-! ## Runs -/

structure Exact (budget : SpoolBudget) (s : State) : Prop where
  sum : s.held.toNat = reserved s.reservations
  within : budget.maxBytes ≠ 0 → s.held ≤ budget.maxBytes

theorem Exact.step {e : Event} (exact : Exact budget s) (fits : Fits budget s e) (moved : step budget s e = some s') :
    Exact budget s' := by
  obtain ⟨held, sum, within⟩ := step_moved exact.sum fits moved
  have before := exact.sum
  refine ⟨by omega, fun bounded => ?_⟩
  rcases within bounded with less | below
  · exact UInt64.le_trans less (exact.within bounded)
  · exact below

theorem exact_of_reaches (reaches : (machine budget).Reaches (Fits budget) s) : Exact budget s :=
  reaches.invariant (Exact budget) ⟨rfl, fun _ => UInt64.le_iff_toNat_le.2 (Nat.zero_le _)⟩
    fun _ _ _ exact fits moved => exact.step fits moved

theorem total_eq_zero {reservations : List Reservation} (none : ∀ reservation ∈ reservations, reservation = .dropped) :
    reserved reservations = 0 := by
  induction reservations with
  | nil => rfl
  | cons first rest ih =>
      have here := none first List.mem_cons_self
      have later := ih fun reservation member => none reservation (List.mem_cons_of_mem _ member)
      subst here
      show total _ (Reservation.dropped :: rest) = 0
      rw [total_cons]
      exact (Nat.zero_add _).trans later

theorem refused_bytes {task : TaskId} {call : Call} {spurious : Bool} (calls : s.calls task = some call)
    (refused : budget.claimed call.seen call.bytes = none) (moved : step budget s (.exchange task spurious) = some s') :
    s'.held = s.held ∧ s'.reservations.map Reservation.bytes = s.reservations.map Reservation.bytes := by
  simp only [step, calls, refused] at moved
  cases grows : call.grows with
  | none =>
      rw [grows] at moved
      cases moved
      exact ⟨rfl, rfl⟩
  | some id =>
      simp only [grows, State.returned] at moved
      split at moved
      · rename_i held here
        cases moved
        refine ⟨rfl, ?_⟩
        have same : (s.reservations.map Reservation.bytes)[id]? = some held := by
          rw [List.getElem?_map]
          exact congrArg (Option.map Reservation.bytes) here
        show (s.reservations.set id _).map Reservation.bytes = _
        rw [List.map_set, show (Reservation.live (held + 0)).bytes = held from UInt64.add_zero held]
        obtain ⟨inside, there⟩ := List.getElem?_eq_some_iff.1 same
        rw [← there, List.set_getElem_self]
      · cases moved

structure Accounted (budget : SpoolBudget) (s : State) : Prop where
  sum : s.held.toNat = reserved s.reservations
  within : budget.maxBytes ≠ 0 → s.held ≤ budget.maxBytes
  refused : ∀ task call spurious s', s.calls task = some call → budget.claimed call.seen call.bytes = none →
    step budget s (.exchange task spurious) = some s' →
    s'.held = s.held ∧ s'.reservations.map Reservation.bytes = s.reservations.map Reservation.bytes
  /-- The counter never wraps: it moves by what is granted or given back. -/
  moves : ∀ e s', Fits budget s e → step budget s e = some s' →
    s'.held.toNat + (givenBack s e).toNat = s.held.toNat + (granted budget s e).toNat
  empty : (∀ reservation ∈ s.reservations, reservation = .dropped) → s.held = 0

theorem upload_budget_exact (budget : SpoolBudget) {s : State} (reaches : (machine budget).Reaches (Fits budget) s) :
    Accounted budget s := by
  have exact := exact_of_reaches reaches
  constructor
  case sum => exact exact.sum
  case within => exact exact.within
  case refused => exact fun task call spurious s' calls refused moved => refused_bytes calls refused moved
  case moves => exact fun e s' fits moved => (step_moved exact.sum fits moved).held
  case empty =>
    intro none
    exact UInt64.toNat_inj.1 (exact.sum.trans (total_eq_zero none))

/-! ## Two transfers -/

instance decidableFits (budget : SpoolBudget) (s : State) : (e : Event) → Decidable (Fits budget s e)
  | .tryReserve _ _ | .tryGrow _ _ _ | .drop _ => .isTrue trivial
  | .exchange task spurious => match calls : s.calls task with
      | none => .isTrue (by simp [Fits, calls])
      | some call =>
          decidable_of_iff (s.held = call.seen ∧ spurious = false → Room budget s.held call.bytes) (by simp [Fits, calls])

def fits (budget : SpoolBudget) (s : State) (e : Event) : Bool := decide (Fits budget s e)

theorem fits_sound (s : State) (e : Event) (checked : fits budget s e = true) : Fits budget s e :=
  of_decide_eq_true checked

def bounded : List Event :=
  [.tryReserve 0 6, .tryReserve 1 8, .exchange 0 false, .exchange 1 true, .exchange 1 false,
    .tryGrow 0 0 4, .exchange 0 false, .drop 0]

theorem budget_exact_bounded : ∃ s, s.reservations = [Reservation.dropped] ∧ Accounted ⟨10⟩ s := by
  obtain ⟨s, reaches, reservations⟩ := Machine.reaches_of_replay fits_sound
    (fun s : State => s.reservations = [.dropped]) bounded
    (show ((machine ⟨10⟩).replay (fits ⟨10⟩) _ bounded).map _ = some true by decide +kernel)
  exact ⟨s, of_decide_eq_true reservations, upload_budget_exact ⟨10⟩ reaches⟩

def undeclared : List Event :=
  [.tryReserve 0 u64Max, .exchange 0 false, .tryReserve 1 u64Max, .exchange 1 false]

/-- The counter saturates, and wraps when both are over. -/
theorem budget_undercounts :
    (¬∀ s, (machine ⟨0⟩).Reaches Machine.Free s → s.held.toNat = reserved s.reservations) ∧
    ¬∀ s, (machine ⟨u64Max⟩).Reaches Machine.Free s →
      (∀ reservation ∈ s.reservations, reservation = .dropped) → s.held = 0 := by
  constructor
  · intro all
    obtain ⟨s, reaches, left⟩ := Machine.reaches_of_replay Machine.free_sound
      (fun s : State => s.held = u64Max ∧ s.reservations = [.live u64Max, .live u64Max]) undeclared
      (show ((machine ⟨0⟩).replay Machine.free _ undeclared).map _ = some true by decide +kernel)
    obtain ⟨held, reservations⟩ := of_decide_eq_true left
    have exact := all s reaches
    rw [held, reservations] at exact
    exact absurd exact (by decide)
  · intro all
    obtain ⟨s, reaches, left⟩ := Machine.reaches_of_replay Machine.free_sound
      (fun s : State => s.held = 1 ∧ s.reservations = [.dropped, .dropped]) (undeclared ++ [.drop 0, .drop 1])
      (show ((machine ⟨u64Max⟩).replay Machine.free _ _).map _ = some true by decide +kernel)
    obtain ⟨held, reservations⟩ := of_decide_eq_true left
    have empty := all s reaches (by simp [reservations])
    rw [held] at empty
    exact absurd empty (by decide)

end Wamux.Proof.Spool.Budget
