import Wamux.Runs.RowLocks
import Wamux.GroupCommit.System
import Wamux.BatchedWrites.Calls

/-!
# The batched writes on the two drivers

On SQLite a transaction is a job of the group commit, and one dropped without `commit` is a job
abandoned. On Postgres it is a transaction of its own. A committed read sees the committed rows.
-/

namespace Wamux.BatchedWrites
open Runs Runs.Keyed

variable {info : Type}

/-! ## SQLite -/

namespace Sqlite
open GroupCommit

abbrev Calls (info : Type) := TaskId → Option (Store info × Call info)

/-- A task that is a batched write runs its rows in order and reaches its `commit` after the last: it
returns at the first row that cannot be prepared or that the engine refuses. -/
def Follows (calls : Calls info) (effect : Write → Statement Key Row) (s : Sys) : Event → Prop
  | .write t value => ∀ store call rows, calls t = some (store, call) → store.body call = .transaction rows →
      rows[(s.written t).length]? = some (.ok (effect ⟨t, value⟩))
  | .finish t => ∀ store call rows, calls t = some (store, call) → store.body call = .transaction rows →
      (s.written t).length = rows.length
  | .call _ _ | .poll _ _ | .autoRollback _ | .fail _ | .drop _ _ => True

/-- What a committed read sees, if `effect` says what the engine makes of a write. -/
def committedRows (effect : Write → Statement Key Row) (initial : Rows Key Row) (s : Sys) : Rows Key Row :=
  run (s.batch.conn.committed.map effect) initial

def statementsOf (effect : Write → Statement Key Row) (s : Sys) (t : TaskId) : List (Statement Key Row) :=
  (s.written t).map fun value => effect ⟨t, value⟩

end Sqlite

/-! ## Postgres -/

namespace Postgres
open RowLocks

abbrev Calls (info : Type) := TxId → Option (Store info × Call info)

/-- The transaction of a batched write is its rows; the others are any. -/
def Follows (calls : Calls info) (plans : TxId → Plan Key Row RowError) : Prop :=
  ∀ id store call rows, calls id = some (store, call) → store.body call = .transaction rows → plans id = rows

end Postgres
end Wamux.BatchedWrites
