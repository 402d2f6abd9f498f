import Wamux.Runs.Keyed
import Wamux.Runs.Transition

/-!
# Transactions with row locks

Each transaction runs the statements of a plan, some of which cannot be prepared. A statement sees the
committed rows under its own writes. One that changes a row waits for whoever has it locked and locks it
until its transaction ends. One that finds no row and makes none waits for nobody: a row that another
transaction has inserted and not committed is not there for it.

A statement reads as of its start. So it can also find no row where there is one now, if another
transaction has committed to that row in the meantime: it was not there yet, or it was deleted and another
one inserted.
-/

namespace Wamux.Runs.RowLocks
open Keyed

variable {κ ρ ε : Type} [DecidableEq κ]

abbrev TxId := Nat

abbrev Plan (κ ρ ε : Type) := List (Except ε (Statement κ ρ))

abbrev Writes (κ ρ : Type) := κ → Option (Option ρ)

inductive Tx (κ ρ : Type) where
  | idle
  /-- How many statements have run, how many commits there were when the last one did, and the rows written. -/
  | active (ran seen : Nat) (writes : Writes κ ρ)
  | committed
  /-- Over with no effect: a row or the COMMIT failed, or it was dropped. -/
  | refused

/-- A statement as it ran; one that wrote nothing found no row and made none. -/
structure Entry (κ ρ : Type) where
  tx : TxId
  statement : Statement κ ρ
  wrote : Bool

structure State (κ ρ : Type) where
  rows : Rows κ ρ
  tx : TxId → Tx κ ρ := fun _ => .idle
  locks : List (TxId × κ) := []
  commits : List (Writes κ ρ) := []
  /-- History. -/
  log : List (Entry κ ρ) := []

inductive Event where
  | begin (id : TxId)
  /-- The next entry of the plan, whose statement may fail. -/
  | next (id : TxId) (ok : Bool)
  /-- The next entry of the plan, which finds no row as of its start. -/
  | miss (id : TxId)
  | commit (id : TxId) (ok : Bool)
  /-- Dropped, its COMMIT run or not if it was there. -/
  | drop (id : TxId) (ran : Bool)

def overlay (writes : Writes κ ρ) (rows : Rows κ ρ) : Rows κ ρ := fun key => (writes key).getD (rows key)

def idles (statement : Statement κ ρ) (view : Rows κ ρ) : Bool :=
  (view statement.key).isNone && (statement.update none).isNone

namespace State

def setTx (s : State κ ρ) (id : TxId) (tx : Tx κ ρ) : State κ ρ := { s with tx := Function.update s.tx id tx }

def unlock (s : State κ ρ) (id : TxId) : State κ ρ := { s with locks := s.locks.filter (·.1 ≠ id) }

def refuse (s : State κ ρ) (id : TxId) : State κ ρ := (s.unlock id).setTx id .refused

def commit (s : State κ ρ) (id : TxId) (writes : Writes κ ρ) : State κ ρ :=
  { (s.unlock id).setTx id .committed with rows := overlay writes s.rows, commits := s.commits ++ [writes] }

def locked (s : State κ ρ) (id : TxId) (key : κ) : Bool := s.locks.any fun lock => lock.1 ≠ id && lock.2 = key

def moved (s : State κ ρ) (seen : Nat) (key : κ) : Bool := (s.commits.drop seen).any fun writes => (writes key).isSome

def skip (s : State κ ρ) (id : TxId) (ran : Nat) (writes : Writes κ ρ) (statement : Statement κ ρ) : State κ ρ :=
  { s.setTx id (.active (ran + 1) s.commits.length writes) with log := s.log ++ [⟨id, statement, false⟩] }

def write (s : State κ ρ) (id : TxId) (ran : Nat) (writes : Writes κ ρ) (statement : Statement κ ρ) : State κ ρ :=
  let row := statement.update (overlay writes s.rows statement.key)
  { s.setTx id (.active (ran + 1) s.commits.length (Function.update writes statement.key (some row))) with
    locks := (id, statement.key) :: s.locks
    log := s.log ++ [⟨id, statement, true⟩] }

end State

def step (plans : TxId → Plan κ ρ ε) (s : State κ ρ) : Event → Option (State κ ρ)
  | .begin id => match s.tx id with
      | .idle => some (s.setTx id (.active 0 s.commits.length fun _ => none))
      | _ => none
  | .next id ok => match s.tx id with
      | .active ran _ writes => match (plans id)[ran]? with
          | some (.ok statement) =>
              if ok = false then some (s.refuse id)
              else if idles statement (overlay writes s.rows) then some (s.skip id ran writes statement)
              else if s.locked id statement.key then none
              else some (s.write id ran writes statement)
          | some (.error _) => some (s.refuse id)
          | none => none
      | _ => none
  | .miss id => match s.tx id with
      | .active ran seen writes => match (plans id)[ran]? with
          | some (.ok statement) =>
              -- its own rows it always finds
              if (writes statement.key).isNone && s.moved seen statement.key && (statement.update none).isNone then
                some (s.skip id ran writes statement)
              else none
          | _ => none
      | _ => none
  | .commit id ok => match s.tx id with
      | .active ran _ writes =>
          if ran = (plans id).length then some (if ok then s.commit id writes else s.refuse id) else none
      | _ => none
  | .drop id ran' => match s.tx id with
      | .active ran _ writes =>
          some (if ran' = true ∧ ran = (plans id).length then s.commit id writes else s.refuse id)
      | _ => none

def machine (plans : TxId → Plan κ ρ ε) (rows : Rows κ ρ) : Machine (State κ ρ) Event := ⟨{ rows }, step plans⟩

/-! ## Steps -/

variable {plans : TxId → Plan κ ρ ε} {initial : Rows κ ρ} {s s' : State κ ρ}

inductive Moved (plans : TxId → Plan κ ρ ε) (s : State κ ρ) (id : TxId) : State κ ρ → Prop where
  | began (idle : s.tx id = .idle) : Moved plans s id (s.setTx id (.active 0 s.commits.length fun _ => none))
  | wrote {ran seen : Nat} {writes : Writes κ ρ} {statement : Statement κ ρ} (active : s.tx id = .active ran seen writes)
      (entry : (plans id)[ran]? = some (.ok statement)) (free : s.locked id statement.key = false) :
      Moved plans s id (s.write id ran writes statement)
  | skipped {ran seen : Nat} {writes : Writes κ ρ} {statement : Statement κ ρ} (active : s.tx id = .active ran seen writes)
      (entry : (plans id)[ran]? = some (.ok statement)) (makes : statement.update none = none)
      (absent : overlay writes s.rows statement.key = none ∨
        writes statement.key = none ∧ s.moved seen statement.key = true) :
      Moved plans s id (s.skip id ran writes statement)
  | committed {seen : Nat} {writes : Writes κ ρ} (active : s.tx id = .active (plans id).length seen writes) :
      Moved plans s id (s.commit id writes)
  | refused {ran seen : Nat} {writes : Writes κ ρ} (active : s.tx id = .active ran seen writes) :
      Moved plans s id (s.refuse id)

def transaction : Event → TxId
  | .begin id | .next id _ | .miss id | .commit id _ | .drop id _ => id

theorem step_moved {e : Event} (moved : step plans s e = some s') : Moved plans s (transaction e) s' := by
  cases e with
  | begin id =>
      simp only [step] at moved
      split at moved <;> cases moved
      exact .began ‹_›
  | next id ok =>
      simp only [step] at moved
      split at moved
      · rename_i ran seen writes active
        split at moved
        · rename_i statement entry
          split at moved
          · cases moved
            exact .refused active
          · split at moved
            · rename_i nothing
              cases moved
              rw [idles, Bool.and_eq_true, Option.isNone_iff_eq_none, Option.isNone_iff_eq_none] at nothing
              exact .skipped active entry nothing.2 (.inl nothing.1)
            · split at moved
              · cases moved
              · rename_i free
                cases moved
                exact .wrote active entry (Bool.eq_false_iff.2 free)
        · cases moved
          exact .refused active
        · cases moved
      · cases moved
  | miss id =>
      simp only [step] at moved
      split at moved
      · rename_i ran seen writes active
        split at moved
        · rename_i statement entry
          split at moved
          · rename_i missed
            cases moved
            rw [Bool.and_eq_true, Bool.and_eq_true, Option.isNone_iff_eq_none, Option.isNone_iff_eq_none] at missed
            exact .skipped active entry missed.2 (.inr missed.1)
          · cases moved
        · cases moved
      · cases moved
  | commit id ok =>
      simp only [step] at moved
      split at moved
      · rename_i ran seen writes active
        split at moved
        · rename_i all
          subst all
          cases ok <;> cases moved
          · exact .refused active
          · exact .committed active
        · cases moved
      · cases moved
  | drop id ran' =>
      simp only [step] at moved
      split at moved
      · rename_i ran seen writes active
        split at moved
        · rename_i all
          obtain ⟨-, rfl⟩ := all
          cases moved
          exact .committed active
        · cases moved
          exact .refused active
      · cases moved

theorem Moved.other {id other : TxId} (moved : Moved plans s id s') (different : other ≠ id) :
    s'.tx other = s.tx other := by
  cases moved <;> exact Function.update_of_ne different ..

/-! ## Locks -/

def Tx.writes : Tx κ ρ → Writes κ ρ
  | .active _ _ writes => writes
  | .idle | .committed | .refused => fun _ => none

structure Guarded (s : State κ ρ) : Prop where
  locks : ∀ id key, (s.tx id).writes key ≠ none → (id, key) ∈ s.locks
  apart : ∀ id other key, (s.tx id).writes key ≠ none → (s.tx other).writes key ≠ none → id = other

omit [DecidableEq κ] in
theorem Guarded.fewer {tx : Tx κ ρ} {id : TxId} (guarded : Guarded s)
    (fewer : ∀ key, tx.writes key ≠ none → (s.tx id).writes key ≠ none ∧ (id, key) ∈ s'.locks)
    (now : s'.tx = Function.update s.tx id tx) (locks : ∀ other key, other ≠ id → (other, key) ∈ s.locks → (other, key) ∈ s'.locks) :
    Guarded s' := by
  have writes : ∀ other key, (s'.tx other).writes key ≠ none → (s.tx other).writes key ≠ none := by
    intro other key written
    rw [now] at written
    by_cases same : other = id
    · subst same
      rw [Function.update_self] at written
      exact (fewer key written).1
    · rwa [Function.update_of_ne same] at written
  constructor
  · intro other key written
    by_cases same : other = id
    · subst same
      rw [now, Function.update_self] at written
      exact (fewer key written).2
    · exact locks other key same (guarded.locks other key (writes other key written))
  · intro one other key written written'
    exact guarded.apart one other key (writes one key written) (writes other key written')

theorem locked_false {id other : TxId} {key : κ} (guarded : Guarded s) (free : s.locked id key = false)
    (different : other ≠ id) : (s.tx other).writes key = none := by
  by_contra written
  have lock := guarded.locks other key written
  simp only [State.locked, List.any_eq_false, Bool.and_eq_true, decide_eq_true_eq, not_and] at free
  exact free (other, key) lock different rfl

theorem Guarded.write {id ran seen : Nat} {writes : Writes κ ρ} {statement : Statement κ ρ} (guarded : Guarded s)
    (active : s.tx id = .active ran seen writes) (free : s.locked id statement.key = false) :
    Guarded (s.write id ran writes statement) := by
  have writers : ∀ other key, ((s.write id ran writes statement).tx other).writes key ≠ none →
      (other = id ∧ key = statement.key) ∨ (key ≠ statement.key ∧ (s.tx other).writes key ≠ none) := by
    intro other key written
    by_cases here : other = id
    · subst here
      simp only [State.write, State.setTx, Function.update_self, Tx.writes] at written
      by_cases at' : key = statement.key
      · exact .inl ⟨rfl, at'⟩
      · rw [Function.update_of_ne at'] at written
        exact .inr ⟨at', by rwa [active]⟩
    · simp only [State.write, State.setTx, Function.update_of_ne here] at written
      refine .inr ⟨?_, written⟩
      rintro rfl
      exact written (locked_false guarded free here)
  constructor
  · intro other key written
    rcases writers other key written with ⟨rfl, rfl⟩ | ⟨-, before⟩
    · exact List.mem_cons_self
    · exact List.mem_cons_of_mem _ (guarded.locks other key before)
  · intro one other key written written'
    rcases writers one key written with ⟨rfl, rfl⟩ | ⟨different, before⟩
    · rcases writers other _ written' with ⟨rfl, -⟩ | ⟨different, -⟩
      · rfl
      · exact absurd rfl different
    · rcases writers other key written' with ⟨rfl, rfl⟩ | ⟨-, before'⟩
      · exact absurd rfl different
      · exact guarded.apart one other key before before'

theorem Guarded.step {id : TxId} (guarded : Guarded s) (moved : Moved plans s id s') : Guarded s' := by
  have kept : ∀ other key, other ≠ id → (other, key) ∈ s.locks → (other, key) ∈ (s.unlock id).locks :=
    fun other key different lock => List.mem_filter.2 ⟨lock, by simpa using different⟩
  cases moved with
  | began idle => exact guarded.fewer (fun _ written => absurd rfl written) rfl fun _ _ _ lock => lock
  | wrote active entry free => exact guarded.write active free
  | skipped active entry makes absent =>
      refine guarded.fewer (fun key written => ?_) rfl fun _ _ _ lock => lock
      have written : (s.tx id).writes key ≠ none := by rwa [active]
      exact ⟨written, guarded.locks id key written⟩
  | committed active => exact guarded.fewer (fun _ written => absurd rfl written) rfl kept
  | refused active => exact guarded.fewer (fun _ written => absurd rfl written) rfl kept

/-! ## What the committed rows are -/

def logOf (among : TxId → Bool) (s : State κ ρ) : List (Statement κ ρ) :=
  (s.log.filter fun entry => among entry.tx && entry.wrote).map Entry.statement

structure Among (s : State κ ρ) (among : TxId → Bool) : Prop where
  committed : ∀ id, s.tx id = .committed → among id = true
  refused : ∀ id, s.tx id = .refused → among id = false

/-- The row some transactions would leave together: written by one of them, or committed. -/
def Sees (s : State κ ρ) (among : TxId → Bool) (key : κ) (row : Option ρ) : Prop :=
  (∃ id, among id = true ∧ (s.tx id).writes key = some row) ∨
    ((∀ id, among id = true → (s.tx id).writes key = none) ∧ row = s.rows key)

structure Serial (initial : Rows κ ρ) (s : State κ ρ) : Prop where
  guarded : Guarded s
  sees : ∀ among, Among s among → ∀ key, Sees s among key (run (logOf among s) initial key)

omit [DecidableEq κ] in
theorem Sees.congr {among : TxId → Bool} {key : κ} {row : Option ρ} (sees : Sees s among key row)
    (writes : ∀ id, among id = true → (s'.tx id).writes key = (s.tx id).writes key) (rows : s'.rows key = s.rows key) :
    Sees s' among key row := by
  rcases sees with ⟨id, member, written⟩ | ⟨none, same⟩
  · exact .inl ⟨id, member, (writes id member).trans written⟩
  · exact .inr ⟨fun id member => (writes id member).trans (none id member), same.trans rows.symm⟩

theorem Among.before {among : TxId → Bool} {id : TxId} (here : Among s' among) (moved : Moved plans s id s') :
    Among s among := by
  have live : s.tx id ≠ .committed ∧ s.tx id ≠ .refused := by
    cases moved with
    | began idle => simp [idle]
    | wrote active | skipped active | committed active | refused active => simp [active]
  constructor
  · intro other committed
    have different : other ≠ id := fun same => live.1 (same ▸ committed)
    exact here.committed other (by rw [moved.other different, committed])
  · intro other refused
    have different : other ≠ id := fun same => live.2 (same ▸ refused)
    exact here.refused other (by rw [moved.other different, refused])

theorem logOf_write {among : TxId → Bool} {id ran : TxId} {writes : Writes κ ρ} {statement : Statement κ ρ} :
    logOf among (s.write id ran writes statement) =
      if among id then logOf among s ++ [statement] else logOf among s := by
  rw [logOf, State.write, List.filter_append, List.map_append]
  cases member : among id <;> simp [member, logOf]

omit [DecidableEq κ] in
theorem logOf_skip {among : TxId → Bool} {id ran : TxId} {writes : Writes κ ρ} {statement : Statement κ ρ} :
    logOf among (s.skip id ran writes statement) = logOf among s := by
  rw [logOf, State.skip, List.filter_append, List.map_append]
  simp [logOf]

omit [DecidableEq κ] in
/-- Nobody else among them has written the row, so the transaction sees what they would all leave. -/
theorem Sees.own {among : TxId → Bool} {id ran seen : TxId} {writes : Writes κ ρ} {key : κ} {row : Option ρ}
    (active : s.tx id = .active ran seen writes) (alone : ∀ other, among other = true → other ≠ id → (s.tx other).writes key = none)
    (member : among id = true) (sees : Sees s among key row) : overlay writes s.rows key = row := by
  have own : (s.tx id).writes key = writes key := by rw [active]; rfl
  rcases sees with ⟨other, inside, written⟩ | ⟨none, same⟩
  · by_cases same : other = id
    · subst same
      rw [own] at written
      simp [overlay, written]
    · rw [alone other inside same] at written
      cases written
  · have absent := none id member
    rw [own] at absent
    simp [overlay, absent, same]

theorem Serial.write {id ran seen : TxId} {writes : Writes κ ρ} {statement : Statement κ ρ} (serial : Serial initial s)
    (active : s.tx id = .active ran seen writes) (free : s.locked id statement.key = false)
    {among : TxId → Bool} (before : Among s among) (key : κ) :
    Sees (s.write id ran writes statement) among key (run (logOf among (s.write id ran writes statement)) initial key) := by
  rw [logOf_write]
  have seen := serial.sees among before
  have others : ∀ other, other ≠ id → (s.write id ran writes statement).tx other = s.tx other := fun other different =>
    Function.update_of_ne different ..
  cases member : among id with
  | false =>
      refine (seen key).congr (fun other inside => ?_) rfl
      have different : other ≠ id := fun same => by simp [← same, inside] at member
      rw [others other different]
  | true =>
      have view := (seen statement.key).own active (fun other _ different => locked_false serial.guarded free different) member
      have own : ((s.write id ran writes statement).tx id).writes =
          Function.update writes statement.key (some (statement.update (overlay writes s.rows statement.key))) := by
        simp only [State.write, State.setTx, Function.update_self, Tx.writes]
      rw [if_pos rfl, run_append, run_cons, run_nil]
      by_cases at' : key = statement.key
      · subst at'
        rw [apply_self, ← view]
        exact .inl ⟨id, member, by rw [own, Function.update_self]⟩
      · rw [apply_other at']
        refine (seen key).congr (fun other _ => ?_) rfl
        by_cases here : other = id
        · rw [here, own, Function.update_of_ne at', active]
          rfl
        · rw [others other here]

theorem Serial.commit {id ran seen : TxId} {writes : Writes κ ρ} (serial : Serial initial s)
    (active : s.tx id = .active ran seen writes) {among : TxId → Bool} (here : Among (s.commit id writes) among)
    (before : Among s among) (key : κ) :
    Sees (s.commit id writes) among key (run (logOf among s) initial key) := by
  have member : among id = true := here.committed id (Function.update_self ..)
  have own : (s.tx id).writes key = writes key := by rw [active]; rfl
  have others : ∀ other, other ≠ id → ((s.commit id writes).tx other) = s.tx other := fun other different =>
    Function.update_of_ne different ..
  have ended : ((s.commit id writes).tx id).writes key = none := by simp [State.commit, State.setTx, Tx.writes]
  rcases serial.sees among before key with ⟨other, inside, written⟩ | ⟨none, same⟩
  · by_cases here : other = id
    · subst here
      rw [own] at written
      refine .inr ⟨fun another _ => ?_, by simp [State.commit, overlay, written]⟩
      by_cases same : another = other
      · rw [same, ended]
      · rw [others another same]
        by_contra some
        exact same (serial.guarded.apart another other key some (by simp [own, written]))
    · exact .inl ⟨other, inside, by rw [others other here, written]⟩
  · refine .inr ⟨fun another inside => ?_, ?_⟩
    · by_cases here : another = id
      · rw [here, ended]
      · rw [others another here, none another inside]
    · have absent := none id member
      rw [own] at absent
      rw [same]
      simp [State.commit, overlay, absent]

theorem Serial.step {id : TxId} (serial : Serial initial s) (moved : Moved plans s id s') : Serial initial s' := by
  refine ⟨serial.guarded.step moved, fun among here key => ?_⟩
  have before := here.before moved
  have seen := serial.sees among before key
  cases moved with
  | began idle =>
      refine seen.congr (fun other _ => ?_) rfl
      by_cases same : other = id
      · subst same
        simp [State.setTx, idle, Tx.writes]
      · simp [State.setTx, same]
  | wrote active entry free => exact serial.write active free before key
  | skipped active entry makes absent =>
      rw [logOf_skip]
      refine seen.congr (fun other _ => ?_) rfl
      by_cases same : other = id
      · subst same
        simp [State.skip, State.setTx, active, Tx.writes]
      · simp [State.skip, State.setTx, same]
  | committed active => exact serial.commit active here before key
  | refused active =>
      refine seen.congr (fun other inside => ?_) rfl
      have different : other ≠ id := by
        rintro rfl
        rw [here.refused other (Function.update_self ..)] at inside
        cases inside
      simp [State.refuse, State.setTx, State.unlock, different]

/-! ## Whole transactions -/

def entriesOf (s : State κ ρ) (id : TxId) : List (Entry κ ρ) := s.log.filter (·.tx = id)

def statementsOf (s : State κ ρ) (id : TxId) : List (Statement κ ρ) := (entriesOf s id).map Entry.statement

inductive Logged (id : TxId) (s s' : State κ ρ) : Prop where
  | ran (statement : Statement κ ρ) (wrote : Bool) (log : s'.log = s.log ++ [⟨id, statement, wrote⟩])
  | nothing (log : s'.log = s.log)

theorem Moved.logged {id : TxId} (moved : Moved plans s id s') : Logged id s s' := by
  cases moved with
  | wrote active entry free => exact .ran _ _ rfl
  | skipped active entry makes absent => exact .ran _ _ rfl
  | began idle => exact .nothing rfl
  | committed active => exact .nothing rfl
  | refused active => exact .nothing rfl

omit [DecidableEq κ] in
theorem entriesOf_other {id other : TxId} (logged : Logged id s s') (different : other ≠ id) :
    entriesOf s' other = entriesOf s other := by
  cases logged with
  | ran statement wrote log =>
      rw [entriesOf, log, List.filter_append]
      simp [entriesOf, Ne.symm different]
  | nothing log => rw [entriesOf, log, entriesOf]

omit [DecidableEq κ] in
theorem entriesOf_self {id : TxId} {statement : Statement κ ρ} {wrote : Bool} (log : s'.log = s.log ++ [⟨id, statement, wrote⟩]) :
    entriesOf s' id = entriesOf s id ++ [⟨id, statement, wrote⟩] := by
  rw [entriesOf, log, List.filter_append]
  simp [entriesOf]

def Ran (plan ran : Plan κ ρ ε) : Tx κ ρ → Prop
  | .idle => ran = []
  | .active count _ _ => ran = plan.take count
  | .committed => ran = plan
  | .refused => True

def Whole (plans : TxId → Plan κ ρ ε) (s : State κ ρ) (id : TxId) : Prop :=
  Ran (plans id) ((statementsOf s id).map .ok) (s.tx id)

omit [DecidableEq κ] in
theorem Whole.ran {id ran seen seen' : TxId} {writes writes' : Writes κ ρ} {statement : Statement κ ρ} {wrote : Bool}
    (whole : Whole plans s id) (active : s.tx id = .active ran seen writes) (entry : (plans id)[ran]? = some (.ok statement))
    (log : s'.log = s.log ++ [⟨id, statement, wrote⟩]) (now : s'.tx id = .active (ran + 1) seen' writes') : Whole plans s' id := by
  rw [Whole, active] at whole
  have before : (statementsOf s id).map .ok = (plans id).take ran := whole
  rw [Whole, now, statementsOf, entriesOf_self log, List.map_append, List.map_append]
  show _ = (plans id).take (ran + 1)
  rw [List.take_add_one, entry, ← before]
  rfl

theorem Whole.step {id : TxId} (whole : ∀ id, Whole plans s id) (moved : Moved plans s id s') (other : TxId) :
    Whole plans s' other := by
  by_cases same : other = id
  · subst same
    have before := whole other
    cases moved with
    | began idle =>
        have now : (s.setTx other (.active 0 s.commits.length fun _ => none)).tx other = _ := Function.update_self ..
        rw [Whole, idle] at before
        rw [Whole, now]
        exact before
    | wrote active entry free => exact before.ran active entry rfl (Function.update_self ..)
    | skipped active entry makes absent => exact before.ran active entry rfl (Function.update_self ..)
    | @committed seen writes active =>
        have now : (s.commit other writes).tx other = .committed := Function.update_self ..
        rw [Whole, active] at before
        have before : (statementsOf s other).map .ok = (plans other).take (plans other).length := before
        rw [List.take_length] at before
        rw [Whole, now]
        exact before
    | refused active =>
        have now : (s.refuse other).tx other = .refused := Function.update_self ..
        rw [Whole, now]
        trivial
  · rw [Whole, moved.other same, statementsOf, entriesOf_other moved.logged same]
    exact whole other

/-! ## Runs -/

def Tx.isCommitted : Tx κ ρ → Bool
  | .committed => true
  | .idle | .active _ _ _ | .refused => false

omit [DecidableEq κ] in
theorem isCommitted_iff {tx : Tx κ ρ} : tx.isCommitted = true ↔ tx = .committed := by
  cases tx <;> simp [Tx.isCommitted]

omit [DecidableEq κ] in
theorem among_committed : Among s fun id => (s.tx id).isCommitted :=
  ⟨fun id committed => by rw [committed]; rfl, fun id refused => by rw [refused]; rfl⟩

theorem serial_of_reaches {allowed : State κ ρ → Event → Prop} (reaches : (machine plans initial).Reaches allowed s) :
    Serial initial s ∧ ∀ id, Whole plans s id := by
  have start : ∀ id, Whole plans (machine plans initial).initial id := fun id => show Ran (plans id) [] .idle from rfl
  refine reaches.invariant (fun s => Serial initial s ∧ ∀ id, Whole plans s id) ⟨⟨⟨?_, ?_⟩, ?_⟩, start⟩
    fun s e s' inv _ moved => ⟨inv.1.step (step_moved moved), Whole.step inv.2 (step_moved moved)⟩
  · exact fun _ _ written => absurd rfl written
  · exact fun _ _ _ written => absurd rfl written
  · exact fun among _ key => .inr ⟨fun _ _ => rfl, rfl⟩

theorem committed_whole {allowed : State κ ρ → Event → Prop} (reaches : (machine plans initial).Reaches allowed s) :
    s.rows = run (logOf (fun id => (s.tx id).isCommitted) s) initial ∧
      ∀ id, s.tx id = .committed → (statementsOf s id).map .ok = plans id := by
  obtain ⟨serial, whole⟩ := serial_of_reaches reaches
  constructor
  · funext key
    rcases serial.sees _ among_committed key with ⟨id, committed, written⟩ | ⟨-, same⟩
    · rw [isCommitted_iff.1 committed] at written
      cases written
    · exact same.symm
  · intro id committed
    have here := whole id
    rwa [Whole, committed] at here

/-- A statement that wrote nothing makes nothing where there is no row. -/
theorem skipped_makes {allowed : State κ ρ → Event → Prop} (reaches : (machine plans initial).Reaches allowed s) :
    ∀ entry ∈ s.log, entry.wrote = false → entry.statement.update none = none := by
  refine reaches.invariant (fun s => ∀ entry ∈ s.log, entry.wrote = false → entry.statement.update none = none) nofun ?_
  intro s e s' before _ moved entry member wrote
  cases step_moved moved with
  | began | committed | refused => exact before entry member wrote
  | wrote active here free =>
      rcases List.mem_append.1 member with old | new
      · exact before entry old wrote
      · rw [List.mem_singleton.1 new] at wrote
        cases wrote
  | skipped active here makes absent =>
      rcases List.mem_append.1 member with old | new
      · exact before entry old wrote
      · rw [List.mem_singleton.1 new]
        exact makes

theorem refused_stays {id : TxId} {e : Event} (refused : s.tx id = .refused) (moved : step plans s e = some s') :
    s'.tx id = .refused := by
  have moved := step_moved moved
  by_cases same : id = transaction e
  · subst same
    cases moved with
    | began idle => exact nomatch refused.symm.trans idle
    | wrote active | skipped active | committed active | refused active => exact nomatch refused.symm.trans active
  · rw [moved.other same, refused]

end Wamux.Runs.RowLocks
