import Mathlib.Algebra.Order.Ring.Nat
import Wamux.Accounts.Handle

/-!
# The registry

Accounts live in the database and, as handles, in two maps: by uuid and, for those that have one, by
their external reference. The database and the two maps change in separate steps, with no lock around
them. One counter, shared by all handles, is the connection budget.
-/

namespace Wamux.Accounts.Registry
open Runs

abbrev Uuid := Nat
/-- An `Arc<AccountHandle>`, by the order they were made in. -/
abbrev HandleId := Nat
abbrev CallId := Nat

structure AccountRow where
  uuid : Uuid
  externalRef : Option String
  deriving DecidableEq, Repr

/-- The `accounts` table, with its two UNIQUE constraints. -/
structure Table where
  rows : List AccountRow
  uuids : (rows.map AccountRow.uuid).Nodup
  refs : (rows.filterMap AccountRow.externalRef).Nodup

namespace Table

def empty : Table := ⟨[], List.nodup_nil, List.nodup_nil⟩

theorem uuids_append {rows : List AccountRow} {row : AccountRow} (uuids : (rows.map AccountRow.uuid).Nodup)
    (fresh : row.uuid ∉ rows.map AccountRow.uuid) : ((rows ++ [row]).map AccountRow.uuid).Nodup := by
  rw [List.map_append, List.nodup_append]
  refine ⟨uuids, by simp, ?_⟩
  intro a member b single same
  rw [List.map_singleton, List.mem_singleton] at single
  rw [same, single] at member
  exact fresh member

theorem refs_append {rows : List AccountRow} {row : AccountRow} (refs : (rows.filterMap AccountRow.externalRef).Nodup)
    (fresh : ∀ e, row.externalRef = some e → e ∉ rows.filterMap AccountRow.externalRef) :
    ((rows ++ [row]).filterMap AccountRow.externalRef).Nodup := by
  rw [List.filterMap_append]
  cases ref : row.externalRef with
  | none => simpa [ref] using refs
  | some e =>
      rw [List.nodup_append]
      refine ⟨refs, by simp [ref], ?_⟩
      intro a member b single same
      rw [show b = e by simpa [ref] using single] at same
      exact fresh e ref (same ▸ member)

/-- `INSERT_ACCOUNT`: `none` when a constraint is violated. -/
def insert (table : Table) (row : AccountRow) : Option Table :=
  if fresh : row.uuid ∉ table.rows.map AccountRow.uuid ∧
      ∀ e ∈ row.externalRef, e ∉ table.rows.filterMap AccountRow.externalRef then
    some ⟨table.rows ++ [row], uuids_append table.uuids fresh.1, refs_append table.refs fresh.2⟩
  else none

/-- `DELETE_ACCOUNT`. -/
def delete (table : Table) (uuid : Uuid) : Table where
  rows := table.rows.filter (·.uuid ≠ uuid)
  uuids := table.uuids.sublist (List.filter_sublist.map _)
  refs := table.refs.sublist (List.filter_sublist.filterMap _)

end Table

/-- `insert_handle`, by what it does next. -/
inductive Insert where
  | byExternal (row : AccountRow)
  | handles (row : AccountRow)
  | notify (handle : HandleId)
  deriving DecidableEq, Repr

/-- A call of `create_account`, `load_existing` or `delete`, by what it does next. `rest` are the rows
a `load_existing` has still to come to. -/
inductive Call where
  | createRow (externalRef : Option String)
  | listRows
  | inserting (next : Insert) (rest : Option (List AccountRow))
  | stopping (handle : HandleId) (q : StopId)
  | deleteRow (handle : HandleId)
  | removeIndex (handle : HandleId)
  | removeHandle (handle : HandleId)
  | created (handle : HandleId)
  | done
  | failed
  deriving DecidableEq, Repr

structure State where
  table : Table
  handles : Uuid → Option HandleId := fun _ => none
  byExternal : String → Option Uuid := fun _ => none
  objects : List AccountRow := []
  accounts : HandleId → Accounts.State := fun _ => {}
  connected : Nat := 0
  /-- What went through `created_tx`. -/
  notices : List HandleId := []
  calls : List Call := []
  /-- History: every row the table ever held. -/
  drawn : List AccountRow

inductive Event where
  | handle (h : HandleId) (e : Accounts.Event)
  | create (externalRef : Option String)
  | load
  | delete (h : HandleId) (q : StopId)
  /-- The next step of a call; `uuid` is what `Uuid::new_v4` draws for a new row. -/
  | next (i : CallId) (uuid : Uuid)
  /-- The storage engine fails the statement the call is at. A daemon that cannot load its accounts
  does not start, so that there is no state after it. -/
  | fails (i : CallId)

/-- `AtomicUsize::fetch_sub` of one, which wraps. -/
def fetchSub (n : Nat) : Nat := if n = 0 then 2 ^ 64 - 1 else n - 1

def counted (account : Accounts.State) (n : Nat) : Accounts.Event → Nat
  | .advance k _ => match account.connects k with
      | .fetchAdd => n + 1
      | _ => n
  | .supervise k => match account.supervisors k with
      | .fetchSub => fetchSub n
      | _ => n
  | _ => n

def loads (s : State) : Accounts.Event → Bool
  | .advance _ total => total = s.connected
  | _ => true

def stepHandle (max : Nat) (s : State) (h : HandleId) (e : Accounts.Event) : Option State :=
  if h < s.objects.length && loads s e then
    (Accounts.step max (s.accounts h) e).map fun account =>
      { s with accounts := Function.update s.accounts h account,
               connected := counted (s.accounts h) s.connected e }
  else none

def State.setCall (s : State) (i : CallId) (call : Call) : State := { s with calls := s.calls.set i call }

def continueLoad (handle : HandleId) : Option (List AccountRow) → Call
  | none => .created handle
  | some [] => .done
  | some (row :: rest) => .inserting (.byExternal row) (some rest)

/-- `insert_handle`. -/
def insertNext (s : State) (i : CallId) (rest : Option (List AccountRow)) : Insert → State
  | .byExternal row =>
      { s with byExternal := match row.externalRef with
          | some e => Function.update s.byExternal e (some row.uuid)
          | none => s.byExternal }.setCall i (.inserting (.handles row) rest)
  | .handles row =>
      { s with objects := s.objects ++ [row],
               handles := Function.update s.handles row.uuid (some s.objects.length) }.setCall i
        (.inserting (.notify s.objects.length) rest)
  | .notify handle => { s with notices := s.notices ++ [handle] }.setCall i (continueLoad handle rest)

def callNext (s : State) (i : CallId) (uuid : Uuid) : Call → Option State
  | .createRow externalRef =>
      -- assumed of `Uuid::new_v4`: it never draws a uuid that was drawn before
      if uuid ∈ s.drawn.map AccountRow.uuid then none
      else match s.table.insert ⟨uuid, externalRef⟩ with
        | some table =>
            some ({ s with table := table, drawn := s.drawn ++ [(⟨uuid, externalRef⟩ : AccountRow)] }.setCall i
              (.inserting (.byExternal ⟨uuid, externalRef⟩) none))
        | none => some (s.setCall i .failed)
  | .listRows => some (s.setCall i (match s.table.rows with
      | [] => .done
      | row :: rest => .inserting (.byExternal row) (some rest)))
  | .inserting next rest => some (insertNext s i rest next)
  | .stopping h q => match (s.accounts h).stops q with
      | .returned _ => some (s.setCall i (.deleteRow h))
      | _ => none
  | .deleteRow h => match s.objects[h]? with
      | some row => some ({ s with table := s.table.delete row.uuid }.setCall i (.removeIndex h))
      | none => none
  | .removeIndex h => match s.objects[h]? with
      | some row =>
          some ({ s with byExternal := match row.externalRef with
              | some e => Function.update s.byExternal e none
              | none => s.byExternal }.setCall i (.removeHandle h))
      | none => none
  | .removeHandle h => match s.objects[h]? with
      | some row => some ({ s with handles := Function.update s.handles row.uuid none }.setCall i .done)
      | none => none
  | .created _ | .done | .failed => none

def step (max : Nat) (s : State) : Event → Option State
  | .handle h e => stepHandle max s h e
  | .create externalRef => some { s with calls := s.calls ++ [.createRow externalRef] }
  | .load => some { s with calls := s.calls ++ [.listRows] }
  | .delete h q => match stepHandle max s h (.stop q) with
      | some s' => some { s' with calls := s.calls ++ [.stopping h q] }
      | none => none
  | .next i uuid => match s.calls[i]? with
      | some call => callNext s i uuid call
      | none => none
  | .fails i => match s.calls[i]? with
      | some (.createRow _) | some (.deleteRow _) => some (s.setCall i .failed)
      | _ => none

def machine (max : Nat) (stored : Table) : Machine State Event where
  initial := { table := stored, drawn := stored.rows, calls := [.listRows] }
  step := step max

inductive AccountRef where
  | id (uuid : Uuid)
  | external (reference : String)

/-- `none` is `AccountNotFound`. -/
def resolve (s : State) : AccountRef → Option HandleId
  | .id uuid => s.handles uuid
  | .external e => (s.byExternal e).bind s.handles

end Wamux.Accounts.Registry
