import Wamux.Runs.RowLocks

namespace Wamux.Runs.RowLocks
open Keyed

variable {κ ρ ε : Type} [DecidableEq κ] {plans : TxId → Plan κ ρ ε} {initial : Rows κ ρ} {s s' : State κ ρ}

theorem overlay_update {writes : Writes κ ρ} {rows : Rows κ ρ} {key : κ} {row : Option ρ} :
    overlay (Function.update writes key (some row)) rows = Function.update (overlay writes rows) key row := by
  funext other
  by_cases same : other = key
  · subst same
    simp [overlay]
  · simp [overlay, same]

/-! ## Alone -/

def Alone (id : TxId) (_ : State κ ρ) (e : Event) : Prop := transaction e = id

/-- What the statements of a transaction that nobody has stepped beside make of the rows it found. -/
def Undisturbed (s s' : State κ ρ) (id : TxId) : Prop := match s'.tx id with
  | .idle => s'.rows = s.rows ∧ statementsOf s' id = []
  | .active _ seen writes =>
      s'.rows = s.rows ∧ s'.commits.length = seen ∧ overlay writes s.rows = run (statementsOf s' id) s.rows
  | .committed => s'.rows = run (statementsOf s' id) s.rows
  | .refused => True

theorem Undisturbed.step {later : State κ ρ} {id : TxId} (undisturbed : Undisturbed s s' id) (moved : Moved plans s' id later) :
    Undisturbed s later id := by
  cases moved with
  | began idle =>
      have now : (s'.setTx id (.active 0 s'.commits.length fun _ => none)).tx id = _ := Function.update_self ..
      rw [Undisturbed, idle] at undisturbed
      rw [Undisturbed, now]
      have none : statementsOf (s'.setTx id (.active 0 s'.commits.length fun _ => none)) id = [] := undisturbed.2
      exact ⟨undisturbed.1, rfl, by rw [none]; rfl⟩
  | @wrote ran seen writes statement active entry free =>
      have now : (s'.write id ran writes statement).tx id = _ := Function.update_self ..
      rw [Undisturbed, active] at undisturbed
      obtain ⟨rows, commits, view⟩ := undisturbed
      rw [Undisturbed, now]
      refine ⟨rows, rfl, ?_⟩
      rw [statementsOf, entriesOf_self rfl, List.map_append, run_append, ← statementsOf, ← view, overlay_update, rows]
      rfl
  | @skipped ran seen writes statement active entry makes absent =>
      have now : (s'.skip id ran writes statement).tx id = _ := Function.update_self ..
      rw [Undisturbed, active] at undisturbed
      obtain ⟨rows, commits, view⟩ := undisturbed
      have absent : overlay writes s.rows statement.key = none := by
        rcases absent with absent | ⟨-, moved⟩
        · rwa [rows] at absent
        · rw [State.moved, ← commits, List.drop_length] at moved
          cases moved
      rw [Undisturbed, now]
      refine ⟨rows, rfl, ?_⟩
      rw [statementsOf, entriesOf_self rfl, List.map_append, run_append, ← statementsOf, ← view]
      show _ = Function.update (overlay writes s.rows) statement.key (statement.update (overlay writes s.rows statement.key))
      rw [absent, makes, ← absent, Function.update_eq_self]
  | @committed seen writes active =>
      have now : (s'.commit id writes).tx id = .committed := Function.update_self ..
      rw [Undisturbed, active] at undisturbed
      obtain ⟨rows, commits, view⟩ := undisturbed
      rw [Undisturbed, now]
      show overlay writes s'.rows = _
      rw [rows, view]
      rfl
  | refused active =>
      have now : (s'.refuse id).tx id = .refused := Function.update_self ..
      rw [Undisturbed, now]
      trivial

theorem alone_whole {allowed : State κ ρ → Event → Prop} {id : TxId} (reaches : (machine plans initial).Reaches allowed s)
    (idle : s.tx id = .idle) (leads : (machine plans initial).Leads (Alone id) s s') (committed : s'.tx id = .committed) :
    s'.rows = run (statementsOf s' id) s.rows := by
  have fresh : statementsOf s id = [] := by
    have here := (serial_of_reaches reaches).2 id
    rw [Whole, idle] at here
    exact List.map_eq_nil_iff.1 here
  have undisturbed : Undisturbed s s' id := by
    clear committed
    induction leads with
    | here =>
        rw [Undisturbed, idle]
        exact ⟨rfl, fresh⟩
    | next _ own moved ih =>
        have moved := step_moved moved
        rw [own] at moved
        exact ih.step moved
  rwa [Undisturbed, committed] at undisturbed

/-! ## Rows that only some have statements on -/

def Only (plans : TxId → Plan κ ρ ε) (among : TxId → Bool) (key : κ) : Prop :=
  ∀ id statement, .ok statement ∈ plans id → statement.key = key → among id = true

structure Planned (plans : TxId → Plan κ ρ ε) (s : State κ ρ) : Prop where
  written : ∀ id key, (s.tx id).writes key ≠ none → ∃ statement, .ok statement ∈ plans id ∧ statement.key = key
  fresh : ∀ id seen writes, s.tx id = .active 0 seen writes → ∀ key, writes key = none

theorem Planned.step {id : TxId} (planned : Planned plans s) (moved : Moved plans s id s') : Planned plans s' := by
  constructor
  · intro other key written
    by_cases same : other = id
    · subst same
      cases moved with
      | began idle => simp [State.setTx, Tx.writes] at written
      | @wrote ran seen writes statement active entry free =>
          simp only [State.write, State.setTx, Function.update_self, Tx.writes] at written
          by_cases here : key = statement.key
          · exact ⟨statement, List.mem_of_getElem? entry, here.symm⟩
          · rw [Function.update_of_ne here] at written
            exact planned.written other key (by rwa [active])
      | skipped active entry makes absent =>
          simp only [State.skip, State.setTx, Function.update_self, Tx.writes] at written
          exact planned.written other key (by rwa [active])
      | committed active => simp [State.commit, State.setTx, Tx.writes] at written
      | refused active => simp [State.refuse, State.setTx, Tx.writes] at written
    · rw [moved.other same] at written
      exact planned.written other key written
  · intro other seen writes active key
    by_cases same : other = id
    · subst same
      cases moved with
      | began idle =>
          simp only [State.setTx, Function.update_self, Tx.active.injEq] at active
          rw [← active.2.2]
      | wrote | skipped => simp [State.write, State.skip, State.setTx] at active
      | committed | refused => simp [State.commit, State.refuse, State.setTx] at active
    · rw [moved.other same] at active
      exact planned.fresh other seen writes active key

theorem planned_of_reaches {allowed : State κ ρ → Event → Prop} (reaches : (machine plans initial).Reaches allowed s) :
    Planned plans s := by
  refine reaches.invariant (Planned plans) ⟨fun _ _ written => absurd rfl written, fun _ _ _ active => by cases active⟩ ?_
  intro s e s' planned _ moved
  exact planned.step (step_moved moved)

def allOf (among : TxId → Bool) (s : State κ ρ) : List (Statement κ ρ) :=
  (s.log.filter fun entry => among entry.tx).map Entry.statement

/-- On this row a statement that wrote nothing would have changed nothing. -/
def Counted (initial : Rows κ ρ) (key : κ) (s : State κ ρ) : Prop :=
  ∀ among, Among s among → run (allOf among s) initial key = run (logOf among s) initial key

omit [DecidableEq κ] in
theorem allOf_ran {among : TxId → Bool} {id : TxId} {statement : Statement κ ρ} {wrote : Bool}
    (log : s'.log = s.log ++ [⟨id, statement, wrote⟩]) :
    allOf among s' = if among id then allOf among s ++ [statement] else allOf among s := by
  rw [allOf, log, List.filter_append, List.map_append]
  cases member : among id <;> simp [member, allOf]

theorem Counted.step {id : TxId} {key : κ} (counted : Counted initial key s) (serial : Serial initial s)
    (moved : Moved plans s id s')
    (clear : ∀ ran seen writes statement, s.tx id = .active ran seen writes → (plans id)[ran]? = some (.ok statement) →
      statement.key = key → statement.update none = none →
        s.moved seen key = false ∧ ∀ other, other ≠ id → (s.tx other).writes key = none) :
    Counted initial key s' := by
  intro among here
  have before := here.before moved
  have same := counted among before
  cases moved with
  | began | committed | refused => exact same
  | @wrote ran seen writes statement active entry free =>
      rw [allOf_ran rfl, logOf_write]
      cases among id with
      | false => exact same
      | true =>
          rw [if_pos rfl, if_pos rfl, run_append, run_append]
          exact run_congr same
  | @skipped ran seen writes statement active entry makes absent =>
      rw [allOf_ran rfl, logOf_skip]
      cases member : among id with
      | false => exact same
      | true =>
          rw [if_pos rfl, run_append, run_cons, run_nil, ← same]
          by_cases at' : statement.key = key
          · obtain ⟨unmoved, alone⟩ := clear ran seen writes statement active entry at' makes
            have absent : overlay writes s.rows key = none := by
              rcases absent with absent | ⟨-, moved⟩
              · rwa [at'] at absent
              · rw [at', unmoved] at moved
                cases moved
            have view := (serial.sees among before key).own active (fun other _ => alone other) member
            rw [absent, ← same] at view
            subst at'
            rw [apply_self, ← view, makes]
          · exact apply_other (Ne.symm at')

theorem Counted.rows {allowed : State κ ρ → Event → Prop} {key : κ} (counted : Counted initial key s)
    (reaches : (machine plans initial).Reaches allowed s) :
    s.rows key = run (allOf (fun id => (s.tx id).isCommitted) s) initial key := by
  rw [counted _ among_committed]
  exact congrFun (committed_whole reaches).1 key

theorem planned_of_entry {allowed : State κ ρ → Event → Prop} (reaches : (machine plans initial).Reaches allowed s)
    {entry : Entry κ ρ} (member : entry ∈ s.log) (committed : (s.tx entry.tx).isCommitted = true) :
    .ok entry.statement ∈ plans entry.tx := by
  rw [← (committed_whole reaches).2 entry.tx (isCommitted_iff.1 committed)]
  exact List.mem_map_of_mem (List.mem_map_of_mem (List.mem_filter.2 ⟨member, decide_eq_true rfl⟩))

/-! ## Rows of one's own -/

def Untouched (id : TxId) (key : κ) (s : State κ ρ) : Prop :=
  s.tx id ≠ .committed → ∀ writes ∈ s.commits, writes key = none

theorem Untouched.step {id other : TxId} {key : κ} (untouched : Untouched id key s) (planned : Planned plans s)
    (only : Only plans (fun tx => decide (tx = id)) key) (moved : Moved plans s other s') : Untouched id key s' := by
  intro pending
  have before : s.tx id ≠ .committed := by
    intro committed
    by_cases same : id = other
    · subst same
      cases moved with
      | began idle => cases committed.symm.trans idle
      | wrote active | skipped active | committed active | refused active => cases committed.symm.trans active
    · exact pending ((moved.other same).trans committed)
  cases moved with
  | @committed seen writes active =>
      intro written member
      rcases List.mem_append.1 member with old | new
      · exact untouched before written old
      · obtain rfl := List.mem_singleton.1 new
        by_contra here
        obtain ⟨statement, inside, at'⟩ := planned.written other key (by rwa [active])
        obtain rfl : other = id := of_decide_eq_true (only other statement inside at')
        exact pending (Function.update_self ..)
  | _ => exact untouched before

omit [DecidableEq κ] in
theorem moved_false {seen : Nat} {key : κ} (unwritten : ∀ writes ∈ s.commits.drop seen, writes key = none) :
    s.moved seen key = false := by
  rw [State.moved, List.any_eq_false]
  intro writes member
  rw [unwritten writes member]
  exact Bool.false_ne_true

theorem counted_own {allowed : State κ ρ → Event → Prop} {id : TxId} {key : κ} (only : Only plans (fun tx => decide (tx = id)) key)
    (reaches : (machine plans initial).Reaches allowed s) : Counted initial key s ∧ Untouched id key s := by
  induction reaches with
  | initial => exact ⟨fun _ _ => rfl, fun _ => nofun⟩
  | @next s s' e before _ moved ih =>
      obtain ⟨counted, untouched⟩ := ih
      have planned := planned_of_reaches before
      have moved := step_moved moved
      refine ⟨counted.step (serial_of_reaches before).1 moved ?_, untouched.step planned only moved⟩
      intro ran seen writes statement active entry at' _
      have mine : transaction e = id := of_decide_eq_true (only _ statement (List.mem_of_getElem? entry) at')
      rw [mine] at active
      constructor
      · refine moved_false fun written member => untouched ?_ written (List.mem_of_mem_drop member)
        rw [active]
        nofun
      · intro other different
        by_contra written
        obtain ⟨statement, inside, at'⟩ := planned.written other key written
        exact different ((of_decide_eq_true (only other statement inside at')).trans mine.symm)

/-- A committed transaction leaves its plan on the rows that are only its own, whatever runs beside it. -/
theorem own_rows {allowed : State κ ρ → Event → Prop} {id : TxId} {key : κ} (only : Only plans (fun tx => decide (tx = id)) key)
    (reaches : (machine plans initial).Reaches allowed s) (committed : s.tx id = .committed) :
    s.rows key = run (statementsOf s id) initial key := by
  rw [(counted_own only reaches).1.rows reaches]
  refine (run_on key).trans (Eq.trans ?_ (run_on key).symm)
  congr 1
  rw [allOf, statementsOf, entriesOf, List.filter_map, List.filter_map, List.filter_filter, List.filter_filter]
  congr 1
  refine List.filter_congr fun entry member => ?_
  by_cases at' : entry.statement.key = key
  · have same : (s.tx entry.tx).isCommitted = decide (entry.tx = id) := by
      rw [Bool.eq_iff_iff, decide_eq_true_iff]
      constructor
      · intro done
        exact of_decide_eq_true (only entry.tx _ (planned_of_entry reaches member done) at')
      · rintro rfl
        exact isCommitted_iff.2 committed
    simp [same]
  · simp [at']

/-! ## Behind one row -/

section Gated
variable {among : TxId → Bool} {gate : κ}

def Gated (plans : TxId → Plan κ ρ ε) (among : TxId → Bool) (gate : κ) : Prop :=
  ∀ id, among id = true → ∃ statement rest, plans id = .ok statement :: rest ∧ statement.key = gate ∧
    ∀ row, statement.update row ≠ none

/-- The log of these transactions, one block for each that has begun to run. Whoever still runs is last, holds
the row, and nobody has committed to the rows of these transactions since its last statement. -/
structure Blocks (plans : TxId → Plan κ ρ ε) (among : TxId → Bool) (gate : κ) (s : State κ ρ) (order : List TxId) : Prop where
  once : order.Nodup
  members : ∀ id ∈ order, among id = true ∧ entriesOf s id ≠ []
  log : s.log.filter (fun entry => among entry.tx) = order.flatMap (entriesOf s)
  running : ∀ id ran seen writes, among id = true → s.tx id = .active (ran + 1) seen writes →
    (∃ before, order = before ++ [id]) ∧ writes gate ≠ none
  unmoved : ∀ id ran seen writes, among id = true → s.tx id = .active (ran + 1) seen writes →
    ∀ written ∈ s.commits.drop seen, ∀ key, Only plans among key → written key = none

omit [DecidableEq κ] in
theorem Blocks.one {order : List TxId} {id other ran ran' seen seen' : TxId} {writes writes' : Writes κ ρ}
    (blocks : Blocks plans among gate s order) (member : among id = true) (active : s.tx id = .active (ran + 1) seen writes)
    (member' : among other = true) (active' : s.tx other = .active (ran' + 1) seen' writes') : id = other := by
  obtain ⟨⟨before, last⟩, -⟩ := blocks.running id ran seen writes member active
  obtain ⟨⟨before', last'⟩, -⟩ := blocks.running other ran' seen' writes' member' active'
  have same : [id] = [other] := (List.append_inj' (last.symm.trans last') rfl).2
  exact List.singleton_injective same

omit [DecidableEq κ] in
theorem Blocks.quiet {order : List TxId} {id : TxId} (more : List (Writes κ ρ)) (blocks : Blocks plans among gate s order)
    (log : s'.log = s.log) (others : ∀ other, other ≠ id → s'.tx other = s.tx other)
    (now : ∀ ran seen writes, s'.tx id ≠ .active (ran + 1) seen writes) (commits : s'.commits = s.commits ++ more)
    (apart : ∀ other ran seen writes, other ≠ id → among other = true → s.tx other = .active (ran + 1) seen writes →
      ∀ written ∈ more, ∀ key, Only plans among key → written key = none) :
    Blocks plans among gate s' order := by
  have entries : entriesOf s' = entriesOf s := by
    funext other
    rw [entriesOf, log]
    rfl
  have before {other ran seen : TxId} {writes : Writes κ ρ} (active : s'.tx other = .active (ran + 1) seen writes) :
      other ≠ id ∧ s.tx other = .active (ran + 1) seen writes := by
    have different : other ≠ id := by
      rintro rfl
      exact now ran seen writes active
    exact ⟨different, (others other different).symm.trans active⟩
  refine ⟨blocks.once, by rw [entries]; exact blocks.members, by rw [entries, log]; exact blocks.log, ?_, ?_⟩
  · intro other ran seen writes member active
    exact blocks.running other ran seen writes member (before active).2
  · intro other ran seen writes member active written inside key only
    obtain ⟨different, active⟩ := before active
    rw [commits, List.drop_append] at inside
    rcases List.mem_append.1 inside with old | new
    · exact blocks.unmoved other ran seen writes member active written old key only
    · exact apart other ran seen writes different member active written (List.mem_of_mem_drop new) key only

structure Executed (s s' : State κ ρ) (id ran : Nat) (writes now : Writes κ ρ) (statement : Statement κ ρ) (wrote : Bool) :
    Prop where
  tx : s'.tx = Function.update s.tx id (.active (ran + 1) s.commits.length now)
  log : s'.log = s.log ++ [⟨id, statement, wrote⟩]
  commits : s'.commits = s.commits
  grows : ∀ key, writes key ≠ none → now key ≠ none

variable {order : List TxId} {id ran : TxId} {writes now : Writes κ ρ} {statement : Statement κ ρ} {wrote : Bool}

omit [DecidableEq κ] in
theorem Executed.before (executed : Executed s s' id ran writes now statement wrote) {other count seen : TxId} {written : Writes κ ρ}
    (different : other ≠ id) (active : s'.tx other = .active count seen written) : s.tx other = .active count seen written := by
  rwa [executed.tx, Function.update_of_ne different] at active

omit [DecidableEq κ] in
theorem Executed.unmoved (executed : Executed s s' id ran writes now statement wrote) (blocks : Blocks plans among gate s order) :
    ∀ other count seen written, among other = true → s'.tx other = .active (count + 1) seen written →
      ∀ wrote ∈ s'.commits.drop seen, ∀ key, Only plans among key → wrote key = none := by
  intro other count seen written member active wrote inside key only
  rw [executed.commits] at inside
  by_cases same : other = id
  · subst same
    rw [executed.tx, Function.update_self] at active
    cases active
    rw [List.drop_length] at inside
    cases inside
  · exact blocks.unmoved other count seen written member (executed.before same active) wrote inside key only

omit [DecidableEq κ] in
theorem Blocks.outside (blocks : Blocks plans among gate s order) (executed : Executed s s' id ran writes now statement wrote)
    (outside : among id = false) : Blocks plans among gate s' order := by
  have different {other : TxId} (member : among other = true) : other ≠ id := by
    rintro rfl
    rw [outside] at member
    cases member
  refine ⟨blocks.once, fun other inside => ?_, ?_, fun other count seen written member active => ?_, executed.unmoved blocks⟩
  · obtain ⟨member, some⟩ := blocks.members other inside
    exact ⟨member, by rwa [entriesOf_other (.ran _ _ executed.log) (different member)]⟩
  · rw [executed.log, List.filter_append, blocks.log]
    simp only [List.filter_cons, outside, List.filter_nil, Bool.false_eq_true, if_false, List.append_nil]
    exact List.flatMap_congr fun other inside => (entriesOf_other (.ran _ _ executed.log) (different (blocks.members other inside).1)).symm
  · exact blocks.running other count seen written member (executed.before (different member) active)

omit [DecidableEq κ] in
theorem Blocks.opens (blocks : Blocks plans among gate s order) (executed : Executed s s' id 0 writes now statement wrote)
    (member : among id = true) (fresh : entriesOf s id = []) (free : ∀ other, other ≠ id → (s.tx other).writes gate = none)
    (holds : now gate ≠ none) : Blocks plans among gate s' (order ++ [id]) := by
  have new : id ∉ order := fun inside => (blocks.members id inside).2 fresh
  have different {other : TxId} (inside : other ∈ order) : other ≠ id := fun same => new (same ▸ inside)
  refine ⟨List.nodup_append.2 ⟨blocks.once, List.pairwise_singleton .., fun other inside last here same => ?_⟩,
    fun other inside => ?_, ?_, fun other count seen written member' active => ?_, executed.unmoved blocks⟩
  · exact different inside (same.trans (List.mem_singleton.1 here))
  · rcases List.mem_append.1 inside with before | here
    · obtain ⟨member', some⟩ := blocks.members other before
      exact ⟨member', by rwa [entriesOf_other (.ran _ _ executed.log) (different before)]⟩
    · obtain rfl := List.mem_singleton.1 here
      exact ⟨member, by simp [entriesOf_self executed.log]⟩
  · rw [executed.log, List.filter_append, blocks.log, List.flatMap_append, List.flatMap_singleton, entriesOf_self executed.log, fresh]
    simp only [List.filter_cons, member, List.filter_nil, if_true, List.nil_append]
    congr 1
    exact List.flatMap_congr fun other inside => (entriesOf_other (.ran _ _ executed.log) (different inside)).symm
  · by_cases same : other = id
    · subst same
      rw [executed.tx, Function.update_self] at active
      cases active
      exact ⟨⟨order, rfl⟩, holds⟩
    · -- a transaction that runs beside it would hold the row
      have active := executed.before same active
      have held := (blocks.running other count seen written member' active).2
      have released := free other same
      rw [active] at released
      exact absurd released held

omit [DecidableEq κ] in
theorem Blocks.extends {seen : Nat} (blocks : Blocks plans among gate s order) (executed : Executed s s' id (ran + 1) writes now statement wrote)
    (member : among id = true) (active : s.tx id = .active (ran + 1) seen writes) : Blocks plans among gate s' order := by
  obtain ⟨⟨before, rfl⟩, held⟩ := blocks.running id ran seen writes member active
  have new : id ∉ before := fun inside =>
    (List.nodup_append.1 blocks.once).2.2 id inside id (List.mem_singleton_self id) rfl
  have different {other : TxId} (inside : other ∈ before) : other ≠ id := fun same => new (same ▸ inside)
  refine ⟨blocks.once, fun other inside => ?_, ?_, fun other count seen' written member' active' => ?_, executed.unmoved blocks⟩
  · obtain ⟨member', some⟩ := blocks.members other inside
    by_cases same : other = id
    · subst same
      exact ⟨member, by simp [entriesOf_self executed.log]⟩
    · exact ⟨member', by rwa [entriesOf_other (.ran _ _ executed.log) same]⟩
  · rw [executed.log, List.filter_append, blocks.log, List.flatMap_append, List.flatMap_append, List.flatMap_singleton,
      List.flatMap_singleton, entriesOf_self executed.log, List.append_assoc]
    simp only [List.filter_cons, member, List.filter_nil, if_true]
    congr 1
    exact List.flatMap_congr fun other inside => (entriesOf_other (.ran _ _ executed.log) (different inside)).symm
  · by_cases same : other = id
    · subst same
      rw [executed.tx, Function.update_self] at active'
      cases active'
      exact ⟨⟨before, rfl⟩, executed.grows gate held⟩
    · exact blocks.running other count seen' written member' (executed.before same active')

omit [DecidableEq κ] in
theorem fresh_entries (whole : Whole plans s id) {seen : Nat} (active : s.tx id = .active 0 seen writes) : entriesOf s id = [] := by
  rw [Whole, active] at whole
  exact List.map_eq_nil_iff.1 (List.map_eq_nil_iff.1 whole)

theorem write_executed : Executed s (s.write id ran writes statement) id ran writes
    (Function.update writes statement.key (some (statement.update (overlay writes s.rows statement.key)))) statement true where
  tx := rfl
  log := rfl
  commits := rfl
  grows := by
    intro key written
    by_cases here : key = statement.key
    · rw [here, Function.update_self]
      nofun
    · rwa [Function.update_of_ne here]

omit [DecidableEq κ] in
theorem skip_executed : Executed s (s.skip id ran writes statement) id ran writes writes statement false :=
  ⟨rfl, rfl, rfl, fun _ written => written⟩

omit [DecidableEq κ] in
theorem Blocks.commits {seen : Nat} (gated : Gated plans among gate) (blocks : Blocks plans among gate s order)
    (planned : Planned plans s) (active : s.tx id = .active (plans id).length seen writes) :
    Blocks plans among gate (s.commit id writes) order := by
  refine blocks.quiet [writes] rfl (fun other different => Function.update_of_ne different ..)
    (by simp [State.commit, State.setTx]) rfl ?_
  intro other count seen' written different member active' wrote inside key only
  obtain rfl := List.mem_singleton.1 inside
  by_contra here
  obtain ⟨statement, planned, at'⟩ := planned.written id key (by rwa [active])
  have mine : among id = true := only id statement planned at'
  obtain ⟨first, rest, plan, -⟩ := gated id mine
  rw [plan, List.length_cons] at active
  exact different (blocks.one member active' mine active)

theorem Blocks.step (gated : Gated plans among gate) (blocks : Blocks plans among gate s order) (guarded : Guarded s)
    (planned : Planned plans s) (whole : Whole plans s id) (moved : Moved plans s id s') :
    ∃ order, Blocks plans among gate s' order := by
  cases moved with
  | began idle =>
      exact ⟨order, blocks.quiet [] rfl (fun other different => Function.update_of_ne different ..)
        (by simp [State.setTx]) (List.append_nil _).symm fun _ _ _ _ _ _ _ _ member => absurd member List.not_mem_nil⟩
  | refused active =>
      exact ⟨order, blocks.quiet [] rfl (fun other different => Function.update_of_ne different ..)
        (by simp [State.refuse, State.setTx]) (List.append_nil _).symm fun _ _ _ _ _ _ _ _ member => absurd member List.not_mem_nil⟩
  | committed active => exact ⟨order, blocks.commits gated planned active⟩
  | @wrote ran seen writes statement active entry free =>
      cases member : among id with
      | false => exact ⟨order, blocks.outside write_executed member⟩
      | true =>
          cases ran with
          | zero =>
              obtain ⟨first, rest, plan, key, -⟩ := gated id member
              rw [plan, List.getElem?_cons_zero, Option.some.injEq, Except.ok.injEq] at entry
              subst entry
              subst key
              exact ⟨order ++ [id], blocks.opens write_executed member (fresh_entries whole active)
                (fun other different => locked_false guarded free different) (by simp)⟩
          | succ ran => exact ⟨order, blocks.extends write_executed member active⟩
  | @skipped ran seen writes statement active entry makes absent =>
      cases member : among id with
      | false => exact ⟨order, blocks.outside skip_executed member⟩
      | true =>
          cases ran with
          | zero =>
              obtain ⟨first, rest, plan, -, writes⟩ := gated id member
              rw [plan, List.getElem?_cons_zero, Option.some.injEq, Except.ok.injEq] at entry
              subst entry
              exact absurd makes (writes none)
          | succ ran => exact ⟨order, blocks.extends skip_executed member active⟩

omit [DecidableEq κ] in
/-- Whoever of them writes or deletes on a row of theirs is the only one that has written to it. -/
theorem Blocks.clear {key : κ} (gated : Gated plans among gate) (blocks : Blocks plans among gate s order)
    (planned : Planned plans s) (only : Only plans among key) {seen : Nat} {statement : Statement κ ρ}
    (active : s.tx id = .active ran seen writes) (entry : (plans id)[ran]? = some (.ok statement)) (at' : statement.key = key)
    (makes : statement.update none = none) : s.moved seen key = false ∧ ∀ other, other ≠ id → (s.tx other).writes key = none := by
  have member : among id = true := only id statement (List.mem_of_getElem? entry) at'
  cases ran with
  | zero =>
      obtain ⟨first, rest, plan, -, writes⟩ := gated id member
      rw [plan, List.getElem?_cons_zero, Option.some.injEq, Except.ok.injEq] at entry
      subst entry
      exact absurd makes (writes none)
  | succ ran =>
      refine ⟨moved_false fun written inside => blocks.unmoved id ran seen writes member active written inside key only, ?_⟩
      intro other different
      by_contra written
      obtain ⟨statement, inside, at'⟩ := planned.written other key written
      have member' : among other = true := only other statement inside at'
      cases tx : s.tx other with
      | idle | committed | refused =>
          rw [tx] at written
          exact written rfl
      | active count seen' writes' =>
          cases count with
          | zero =>
              rw [tx] at written
              exact written (planned.fresh other seen' writes' tx key)
          | succ count => exact different (blocks.one member' tx member active)

theorem blocks_of_reaches {allowed : State κ ρ → Event → Prop} (gated : Gated plans among gate)
    (reaches : (machine plans initial).Reaches allowed s) :
    (∃ order, Blocks plans among gate s order) ∧ ∀ key, Only plans among key → Counted initial key s := by
  induction reaches with
  | initial =>
      refine ⟨⟨[], List.nodup_nil, nofun, rfl, ?_, ?_⟩, fun _ _ _ _ => rfl⟩
      · intro id ran seen writes _ active
        cases active
      · intro id ran seen writes _ active
        cases active
  | next before _ moved ih =>
      obtain ⟨⟨order, blocks⟩, counted⟩ := ih
      obtain ⟨serial, whole⟩ := serial_of_reaches before
      have planned := planned_of_reaches before
      have moved := step_moved moved
      refine ⟨blocks.step gated serial.guarded planned (whole _) moved, fun key only => (counted key only).step serial moved ?_⟩
      intro ran seen writes statement active entry at' makes
      exact blocks.clear gated planned only active entry at' makes

omit [DecidableEq κ] in
theorem filter_blocks (p : TxId → Bool) :
    (order.flatMap (entriesOf s)).filter (fun entry => p entry.tx) = (order.filter p).flatMap (entriesOf s) := by
  induction order with
  | nil => rfl
  | cons id rest ih =>
      have own : ∀ entry ∈ entriesOf s id, p entry.tx = p id := fun entry member => by
        rw [show entry.tx = id by simpa using (List.mem_filter.1 member).2]
      rw [List.flatMap_cons, List.filter_append, ih, List.filter_congr own]
      cases kept : p id <;> simp [kept]

/-- Rows that only these transactions touch are those of the committed ones, one whole plan after the other. -/
theorem gated_serial {allowed : State κ ρ → Event → Prop} (gated : Gated plans among gate)
    (reaches : (machine plans initial).Reaches allowed s) :
    ∃ order : List TxId, order.Nodup ∧ (∀ id, id ∈ order ↔ among id = true ∧ s.tx id = .committed) ∧
      (∀ id ∈ order, (statementsOf s id).map .ok = plans id) ∧
      ∀ key, Only plans among key → s.rows key = order.foldl (fun rows id => run (statementsOf s id) rows) initial key := by
  obtain ⟨⟨order, blocks⟩, counted⟩ := blocks_of_reaches gated reaches
  obtain ⟨-, whole⟩ := committed_whole reaches
  refine ⟨order.filter fun id => (s.tx id).isCommitted, blocks.once.filter _, fun id => ?_, fun id inside => ?_,
    fun key only => ?_⟩
  · rw [List.mem_filter, isCommitted_iff]
    constructor
    · rintro ⟨inside, committed⟩
      exact ⟨(blocks.members id inside).1, committed⟩
    rintro ⟨member, committed⟩
    refine ⟨?_, committed⟩
    -- its plan is not empty, so it is in the log
    obtain ⟨first, rest, plan, -⟩ := gated id member
    have all := whole id committed
    rw [plan] at all
    obtain ⟨statement, later, same, -⟩ := List.map_eq_cons_iff.1 all
    obtain ⟨entry, others, here, -⟩ := List.map_eq_cons_iff.1 same
    have mine : entry ∈ entriesOf s id := here ▸ List.mem_cons_self
    have inside : entry ∈ s.log ∧ entry.tx = id := by simpa [entriesOf] using mine
    have logged : entry ∈ order.flatMap (entriesOf s) := by
      rw [← blocks.log]
      exact List.mem_filter.2 ⟨inside.1, by rw [inside.2, member]⟩
    obtain ⟨other, inside', its⟩ := List.mem_flatMap.1 logged
    have same : entry.tx = other := by simpa using (List.mem_filter.1 its).2
    rwa [← inside.2, same]
  · exact whole id (isCommitted_iff.1 (List.mem_filter.1 inside).2)
  · rw [(counted key only).rows reaches, ← run_flatMap]
    refine (run_on key).trans (Eq.trans ?_ (run_on key).symm)
    congr 1
    have blocks' : (order.filter fun id => (s.tx id).isCommitted).flatMap (statementsOf s) =
        ((s.log.filter fun entry => among entry.tx).filter fun entry => (s.tx entry.tx).isCommitted).map Entry.statement := by
      rw [blocks.log, filter_blocks fun id => (s.tx id).isCommitted, List.map_flatMap]
      rfl
    rw [blocks', allOf, List.filter_map, List.filter_map, List.filter_filter, List.filter_filter, List.filter_filter]
    congr 1
    refine List.filter_congr fun entry member => ?_
    by_cases here : entry.statement.key = key ∧ (s.tx entry.tx).isCommitted = true
    · have mine := only entry.tx _ (planned_of_entry reaches member here.2) here.1
      simp [here.1, here.2, mine]
    · rcases not_and_or.1 here with other | uncommitted
      · simp [other]
      · simp [uncommitted]

end Gated
end Wamux.Runs.RowLocks
