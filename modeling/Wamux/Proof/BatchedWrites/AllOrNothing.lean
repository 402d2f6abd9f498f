import Wamux.Runs.Gated
import Wamux.BlobCodec.Proto3
import Wamux.Proof.Encryption.Cipher
import Wamux.Proof.BatchedWrites.Content
import Wamux.Proof.BatchedWrites.Jobs

namespace Wamux.Proof.BatchedWrites
open Wamux.BatchedWrites Wamux.Runs Wamux.Runs.Keyed
open Wamux.Encryption (Bytes DeviceId Nonce)
open Wamux.BlobCodec (HashState)

variable {info : Type} {initial : Rows Key Row}

/-! ## What the rows come to -/

/-- A batch is its one-row writes in list order: the last on a row decides, the rows it does not concern
stay, and a patch is as `patch_leaves` says. -/
structure InOrder (store : Store info) (call : Call info) : Prop where
  stands : Stands (store.oneRowWrites call) (store.body call)
  last : ∀ (rows : Rows Key Row) (before : List (Statement Key Row)) statement after,
    store.oneRowWrites call = (before ++ statement :: after).map .ok → statement.key ∉ after.map Statement.key →
      run (before ++ statement :: after) rows statement.key = statement.update (run before rows statement.key)
  others : ∀ (rows : Rows Key Row) statements key, store.oneRowWrites call = statements.map .ok →
    ¬Concerns store call key → run statements rows key = rows key
  patch : ∀ rows statements nonces name state removedIndexMacs added,
    call = .commitPatch nonces name state removedIndexMacs added → store.oneRowWrites call = statements.map .ok →
      Patched store nonces name state removedIndexMacs added statements rows

theorem in_order (store : Store info) (call : Call info) : InOrder store call where
  stands := body_stands call
  last := fun _ _ _ _ _ => run_last
  others := fun _ _ _ => others_untouched
  patch := by
    rintro rows statements nonces name state removedIndexMacs added rfl all
    exact patch_leaves rows all

/-! ## SQLite -/

namespace Sqlite
open Wamux.BatchedWrites.Sqlite Wamux.GroupCommit Wamux.Runs.Machine
open Wamux.Proof.GroupCommit (ReadsOnly KeepsTransaction)

variable {calls : Calls info} {effect : Write → Statement Key Row} {cap : Nat} {s : Sys}

/-- The committed rows are whole jobs one after the other, with all that were acknowledged among them, and
a batch that failed has no row in them, now or later. -/
structure AllOrNothing (calls : Calls info) (effect : Write → Statement Key Row) (initial : Rows Key Row) (cap : Nat)
    (allowed : Sys → Event → Prop) (s : Sys) : Prop where
  serial : ∃ jobs, Serial calls effect initial s jobs ∧ ∀ t, s.phase t = .ended (.finished (.ok ())) → t ∈ jobs
  absent : ∀ t, ReturnedErr (s.phase t) → ∀ s', (machine cap).Leads allowed s s' →
    ∀ w ∈ s'.batch.conn.committed, w.job ≠ t

theorem all_or_nothing (reaches : (machine cap).Reaches (Allowed calls effect) s) :
    AllOrNothing calls effect initial cap (Allowed calls effect) s where
  serial := ⟨_, serial_of_reaches reaches, fun _ => acknowledged_durable reaches⟩
  absent := fun _ err _ => err_absent reaches err

end Sqlite

/-! ## Postgres -/

namespace Postgres
open Wamux.BatchedWrites.Postgres Wamux.Runs.RowLocks

variable {calls : Calls info} {plans : TxId → Plan Key Row RowError} {s : State Key Row}

def Patches (calls : Calls info) (device : DeviceId) (name : String) (id : TxId) : Prop :=
  ∃ store nonces state removedIndexMacs added rows, calls id = some (store, .commitPatch nonces name state removedIndexMacs added) ∧
    store.device = device ∧ store.body (.commitPatch nonces name state removedIndexMacs added) = .transaction rows

def InCollection (device : DeviceId) (name : String) (key : Key) : Prop :=
  ownerOf key = device ∧ collectionOf key = some name

/-- The committed rows are what the statements by which the committed transactions wrote make of the first
rows, in the order they ran; one that did not write found no row and makes none. Each of those transactions is
there whole: it left its rows on those it found if nobody stepped beside it, and in any case on the rows nobody
else has a statement on. One that failed stays out, and the patches of a collection that nobody else writes
are there one after the other. -/
structure AllOrNothing (calls : Calls info) (plans : TxId → Plan Key Row RowError) (initial : Rows Key Row)
    (s : State Key Row) : Prop where
  rows : s.rows = run (logOf (fun id => (s.tx id).isCommitted) s) initial
  skipped : ∀ entry ∈ s.log, entry.wrote = false → entry.statement.update none = none
  whole : ∀ id store call rows, s.tx id = .committed → calls id = some (store, call) →
    store.body call = .transaction rows → (statementsOf s id).map .ok = rows
  alone : ∀ id s', s.tx id = .idle → (machine plans initial).Leads (Alone id) s s' → s'.tx id = .committed →
    s'.rows = run (statementsOf s' id) s.rows
  own : ∀ id key, s.tx id = .committed → Only plans (fun other => decide (other = id)) key →
    s.rows key = run (statementsOf s id) initial key
  absent : ∀ id, s.tx id = .refused → ∀ s', (machine plans initial).Leads Machine.Free s s' → s'.tx id = .refused
  patches : ∀ device name (among : TxId → Bool), (∀ id, among id = true → Patches calls device name id) →
    (∀ id statement, .ok statement ∈ plans id → InCollection device name statement.key → among id = true) →
    ∃ order : List TxId, order.Nodup ∧ (∀ id, id ∈ order ↔ among id = true ∧ s.tx id = .committed) ∧
      ∀ key, InCollection device name key →
        s.rows key = order.foldl (fun rows id => run (statementsOf s id) rows) initial key

theorem patches_gated {device : DeviceId} {name : String} {among : TxId → Bool} (follows : Follows calls plans)
    (patching : ∀ id, among id = true → Patches calls device name id) :
    Gated plans among (.sealed device (.version name)) := by
  intro id member
  obtain ⟨store, nonces, state, removedIndexMacs, added, rows, here, rfl, opens⟩ := patching id member
  rw [follows id store _ rows here opens]
  simp only [Store.body, commitPatch] at opens
  split at opens
  · cases opens
  · cases opens
    exact ⟨_, _, rfl, rfl, fun found => Option.some_ne_none _⟩

theorem all_or_nothing (follows : Follows calls plans) (reaches : (machine plans initial).Reaches Machine.Free s) :
    AllOrNothing calls plans initial s where
  rows := (committed_whole reaches).1
  skipped := skipped_makes reaches
  whole := by
    intro id store call rows committed here opens
    rw [← follows id store call rows here opens]
    exact (committed_whole reaches).2 id committed
  alone := fun id s' idle leads committed => alone_whole reaches idle leads committed
  own := fun id key committed only => own_rows only reaches committed
  absent := fun id refused s' leads => leads.stable (fun s => s.tx id = .refused) reaches refused
    fun _ _ _ _ refused _ moved => refused_stays refused moved
  patches := by
    intro device name among patching only
    obtain ⟨order, once, members, -, rows⟩ := gated_serial (patches_gated follows patching) reaches
    exact ⟨order, once, members, fun key inside => rows key fun id statement planned same => only id statement planned (same ▸ inside)⟩

end Postgres

/-! ## Both -/

theorem batches_all_or_nothing (initial : Rows Key Row) :
    (∀ (store : Store info) (call : Call info), InOrder store call) ∧
    (∀ (calls : BatchedWrites.Sqlite.Calls info) (effect : GroupCommit.Write → Statement Key Row) (cap : Nat) (s : GroupCommit.Sys),
      (GroupCommit.machine cap).Reaches (Sqlite.Allowed calls effect) s →
        Sqlite.AllOrNothing calls effect initial cap (Sqlite.Allowed calls effect) s) ∧
    ∀ (calls : BatchedWrites.Postgres.Calls info) (plans : RowLocks.TxId → RowLocks.Plan Key Row RowError) (s : RowLocks.State Key Row),
      BatchedWrites.Postgres.Follows calls plans → (RowLocks.machine plans initial).Reaches Machine.Free s →
        Postgres.AllOrNothing calls plans initial s :=
  ⟨in_order, fun _ _ _ _ reaches => Sqlite.all_or_nothing reaches,
    fun _ _ _ follows reaches => Postgres.all_or_nothing follows reaches⟩

section Concrete
open Wamux.GroupCommit Wamux.Runs.Machine Wamux.Proof.GroupCommit
open Wamux.Proof.Encryption (openLetter)

def plainStore : Store Unit := ⟨openLetter, .passthrough, BlobCodec.Proto3.prost, fun _ => .ok "[]", 1⟩

def putNames (names : List String) : Call Unit := .putIdentities (fun _ => none) (names.map fun name => (name, [7]))

def putting (task : TaskId) (names : List String) : BatchedWrites.Sqlite.Calls Unit := fun t =>
  if t = task then some (plainStore, putNames names) else none

def putEffect (w : Write) : Statement Key Row := Statements.putIdentity 1 w.value [7]

def followsPuts (task : TaskId) (names : List String) (s : Sys) : Event → Bool
  | .write t value => t ≠ task || names[(s.written t).length]? == some value
  | .finish t => t ≠ task || (s.written t).length == names.length
  | _ => true

theorem putNames_rows {names : List String} {rows : List Prepared} (opens : plainStore.body (putNames names) = .transaction rows) :
    rows = names.map fun name => .ok (Statements.putIdentity 1 name [7]) := by
  have stands : Stands (plainStore.oneRowWrites (putNames names)) (plainStore.body (putNames names)) := body_stands _
  rw [opens] at stands
  rw [show rows = _ from stands]
  refine List.ext_getElem (by simp [putNames, Store.oneRowWrites]) fun i below below' => ?_
  simp [putNames, Store.oneRowWrites]
  rfl

theorem putting_rows {task t : TaskId} {names : List String} {store : Store Unit} {call : Call Unit} {rows : List Prepared}
    (here : putting task names t = some (store, call)) (opens : store.body call = .transaction rows) :
    t = task ∧ rows = names.map fun name => .ok (Statements.putIdentity 1 name [7]) := by
  unfold putting at here
  split at here
  · cases here
    exact ⟨‹_›, putNames_rows opens⟩
  · cases here

theorem followsPuts_sound {task : TaskId} {names : List String} {s : Sys} {e : Event}
    (checked : followsPuts task names s e = true) : BatchedWrites.Sqlite.Follows (putting task names) putEffect s e := by
  cases e with
  | write t value =>
      intro store call rows here opens
      obtain ⟨rfl, rfl⟩ := putting_rows here opens
      have next : names[(s.written t).length]? = some value := by simpa [followsPuts] using checked
      rw [List.getElem?_map, next]
      rfl
  | finish t =>
      intro store call rows here opens
      obtain ⟨rfl, rfl⟩ := putting_rows here opens
      have last : (s.written t).length = names.length := by simpa [followsPuts] using checked
      rw [last, List.length_map]
  | _ => trivial

def oneBatch : List Event :=
  [.call 0 .beginJob, .poll 0 false, .poll 0 false, .poll 0 false, .poll 0 false, .write 0 "a", .write 0 "b",
    .finish 0, .poll 0 false, .poll 0 false, .poll 0 false, .poll 0 false, .poll 0 false]

theorem batches_all_or_nothing_once : ∃ s, (machine 8).Reaches (Sqlite.Allowed (putting 0 ["a", "b"]) putEffect) s ∧
    s.phase 0 = .ended (.finished (.ok ())) ∧ s.written 0 = ["a", "b"] ∧
    Sqlite.AllOrNothing (putting 0 ["a", "b"]) putEffect (fun _ => none) 8 (Sqlite.Allowed (putting 0 ["a", "b"]) putEffect) s := by
  have sound (s : Sys) (e : Event) (checked : (keepsTransaction s e && followsPuts 0 ["a", "b"] s e) = true) :
      Sqlite.Allowed (putting 0 ["a", "b"]) putEffect s e :=
    ⟨keepsTransaction_sound s e (Bool.and_eq_true_iff.1 checked).1, followsPuts_sound (Bool.and_eq_true_iff.1 checked).2⟩
  obtain ⟨s, reaches, passes⟩ := reaches_of_replay (m := machine 8) sound
    (fun s => returned s 0 (.ok ()) && s.written 0 == ["a", "b"]) oneBatch (by decide)
  simp only [Bool.and_eq_true, beq_iff_eq] at passes
  exact ⟨s, reaches, returned_ended passes.1, passes.2, (batches_all_or_nothing _).2.1 _ _ _ s reaches⟩

/-- The batch of job 1 returns an error, and its row is committed. -/
theorem batch_seen_after_error :
    ¬∀ s, (machine 8).Reaches (fun s e => ReadsOnly s e ∧ BatchedWrites.Sqlite.Follows (putting 1 ["b"]) putEffect s e) s →
      Sqlite.AllOrNothing (putting 1 ["b"]) putEffect (fun _ => none) 8
        (fun s e => ReadsOnly s e ∧ BatchedWrites.Sqlite.Follows (putting 1 ["b"]) putEffect s e) s := by
  intro claim
  have sound (s : Sys) (e : Event) (checked : (readsOnly s e && followsPuts 1 ["b"] s e) = true) :
      ReadsOnly s e ∧ BatchedWrites.Sqlite.Follows (putting 1 ["b"]) putEffect s e :=
    ⟨readsOnly_sound s e (Bool.and_eq_true_iff.1 checked).1, followsPuts_sound (Bool.and_eq_true_iff.1 checked).2⟩
  obtain ⟨s, reaches, passes⟩ := reaches_of_replay (m := machine 8) sound
    (fun s => returned s 1 (.error .nothingToCommit) && s.batch.conn.committed == [⟨1, "b"⟩]) staleBatch (by decide)
  simp only [Bool.and_eq_true, beq_iff_eq] at passes
  have err : Sqlite.ReturnedErr (s.phase 1) := by
    rw [returned_ended passes.1]
    nofun
  exact (claim s reaches).absent 1 err s .here ⟨1, "b"⟩ (by simp [passes.2]) rfl

end Concrete
end Wamux.Proof.BatchedWrites
