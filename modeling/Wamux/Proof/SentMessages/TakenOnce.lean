import Mathlib
import Wamux.Proof.SentMessages.Cache
import Wamux.SentMessages.Jobs
import Wamux.SentMessages.Postgres

/-!
# A sent message is taken at most once

On SQLite and turso over every run. On Postgres over the runs in which no row is replaced or removed
between the two statements of a take; two takes at once answer with the same message.
-/

namespace Wamux.Proof.SentMessages
open Wamux.Encryption (Crypto BlobCipher Bytes)
open Wamux.Encryption.Tables (Family)
open Wamux.SentMessages Runs Runs.Failing Runs.Takes

variable {crypto : Crypto} {cipher : BlobCipher}

/-! ## SQLite and turso -/

namespace Jobs
open Wamux.SentMessages.Jobs

variable {family : Family} {s s' : State} {e : Event} {name : SentName}

theorem takeJob_ok {rows rows' : List SentRow} {payload : Option Bytes}
    (ran : takeJob crypto cipher family rows name = .ok (payload, rows')) :
    getSentMessage crypto cipher rows name = .ok payload ∧
      rows' = if payload.isSome then deleteSent rows name else rows := by
  cases family with
  | sqlx =>
      simp only [takeJob, bind_eq_ok, pure_eq_ok, Prod.mk.injEq] at ran
      obtain ⟨answer, opened, rfl, rfl⟩ := ran
      exact ⟨opened, by rw [openSent_isSome opened]⟩
  | turso =>
      simp only [takeJob, bind_eq_ok, pure_eq_ok, Prod.mk.injEq] at ran
      obtain ⟨answer, opened, rfl, rfl⟩ := ran
      exact ⟨opened, rfl⟩

structure Inv (crypto : Crypto) (cipher : BlobCipher) (s : State) : Prop where
  distinct : Distinct s.rows
  batch : Distinct s.batch
  committed : Kept (holds crypto cipher s.rows) s.log
  ahead : Kept (holds crypto cipher s.batch) (s.log ++ s.waiting)

theorem step_inv (inv : Inv crypto cipher s) (moved : step crypto cipher family s e = some s') : Inv crypto cipher s' := by
  cases e with
  | store name payload nonce now stops =>
      simp only [step] at moved
      cases sealing : sealSent crypto cipher name nonce payload with
      | error e =>
          simp only [sealing] at moved
          exact Option.some.inj moved ▸ inv
      | ok sealed =>
          simp only [sealing] at moved
          cases stops with
          | true => exact Option.some.inj moved ▸ inv
          | false =>
              simp only [Bool.false_eq_true, if_false, Option.some.injEq] at moved
              subst moved
              refine ⟨inv.distinct, inv.batch.store _, inv.committed, ?_⟩
              rw [← List.append_assoc]
              exact kept_store inv.ahead sealing
  | take name stops =>
      simp only [step] at moved
      cases ran : takeJob crypto cipher family s.batch name with
      | error e =>
          simp only [ran] at moved
          exact Option.some.inj moved ▸ inv
      | ok answer =>
          obtain ⟨payload, batch⟩ := answer
          simp only [ran] at moved
          obtain ⟨opened, rfl⟩ := takeJob_ok ran
          cases stops with
          | true => exact Option.some.inj moved ▸ inv
          | false =>
              simp only [Bool.false_eq_true, if_false, Option.some.injEq] at moved
              subst moved
              cases payload with
              | none => exact ⟨inv.distinct, inv.batch, inv.committed, by simpa using inv.ahead⟩
              | some payload =>
                  refine ⟨inv.distinct, inv.batch.filter _, inv.committed, ?_⟩
                  rw [← List.append_assoc]
                  exact kept_take inv.ahead opened
  | sweep device cutoff stops =>
      cases stops with
      | true => exact Option.some.inj moved ▸ inv
      | false =>
          cases moved
          exact ⟨inv.distinct, inv.batch.filter _, inv.committed, kept_filter inv.ahead inv.batch _⟩
  | get name =>
      cases moved
      exact inv
  | commit =>
      cases moved
      exact ⟨inv.batch, inv.batch, inv.ahead, by simpa using inv.ahead⟩
  | discard =>
      cases moved
      exact ⟨inv.distinct, inv.distinct, inv.committed, by simpa using inv.committed⟩

theorem inv_reached {rows : Cache} (reached : (machine crypto cipher family rows).Reaches Machine.Free s) :
    Inv crypto cipher s :=
  reached.invariant (Inv crypto cipher) (by exact ⟨rows.2, rows.2, .initial _, .initial _⟩)
    fun _ _ _ inv _ moved => step_inv inv moved

theorem refused_rows (moved : step crypto cipher family s e = some s') (refused : refuses crypto cipher family s e = true) :
    s'.rows = s.rows ∧ (s'.batch = s.batch ∨ s'.batch = s.rows) := by
  cases e with
  | take name stops =>
      simp only [step] at moved
      cases ran : takeJob crypto cipher family s.batch name with
      | error e =>
          simp only [ran] at moved
          cases moved
          exact ⟨rfl, .inl rfl⟩
      | ok answer =>
          simp only [refuses, ran, Except.toOption, Option.isNone_some, Bool.or_false] at refused
          simp only [ran, refused, if_true] at moved
          cases moved
          exact ⟨rfl, .inl rfl⟩
  | discard =>
      cases moved
      exact ⟨rfl, .inr rfl⟩
  | store | sweep | get | commit => cases refused

end Jobs

/-! ## Postgres -/

namespace Postgres
open Wamux.SentMessages.Postgres

variable {s s' : State} {e : Event} {name : SentName} {task : TaskId}

/-- A row deleted by an open transaction is locked by it alone, and is the row its take read. -/
structure Inv (crypto : Crypto) (cipher : BlobCipher) (s : State) : Prop where
  distinct : Distinct s.rows
  deleted : ∀ task name stored found, s.calls task = .deleted name stored found →
    (name, task) ∈ s.locks ∧ found = true ∧ stored.isSome ∧ selectSent s.rows name = stored
  alone : (s.locks.map Prod.fst).Nodup
  kept : Kept (holds crypto cipher s.rows) s.log

theorem not_locked {entry : SentName × TaskId} (free : ¬s.locked name = true) (member : entry ∈ s.locks) : entry.1 ≠ name := by
  rintro rfl
  exact free (List.any_eq_true.2 ⟨entry, member, by simp⟩)

theorem setCall_calls {call : Call} (other : TaskId) :
    (s.setCall task call).calls other = if other = task then call else s.calls other := by
  by_cases same : other = task <;> simp [State.setCall, same]

theorem setCall_inv (inv : Inv crypto cipher s) {call : Call} (fresh : ∀ name stored found, call ≠ .deleted name stored found) :
    Inv crypto cipher (s.setCall task call) where
  distinct := inv.distinct
  deleted other name stored found here := by
    rw [setCall_calls] at here
    split at here
    · exact absurd here (fresh name stored found)
    · exact inv.deleted other name stored found here
  alone := inv.alone
  kept := inv.kept

theorem endCall_inv (inv : Inv crypto cipher s) (task : TaskId) : Inv crypto cipher (s.endCall task) where
  distinct := inv.distinct
  deleted other name stored found here := by
    have calls : (s.endCall task).calls = (s.setCall task .idle).calls := rfl
    rw [calls, setCall_calls] at here
    split at here
    · cases here
    · rename_i apart
      obtain ⟨member, rest⟩ := inv.deleted other name stored found here
      exact ⟨List.mem_filter.2 ⟨member, by simpa using apart⟩, rest⟩
  alone := List.Nodup.sublist (List.filter_sublist.map _) inv.alone
  kept := inv.kept

theorem others_stay (inv : Inv crypto cipher s) {rows : List SentRow} {log : Log} (distinct : Distinct rows)
    (apart : ∀ other ∈ s.locks, selectSent rows other.1 = selectSent s.rows other.1)
    (kept : Kept (holds crypto cipher rows) log) : Inv crypto cipher { s with rows := rows, log := log } where
  distinct := distinct
  deleted other name stored found here := by
    obtain ⟨member, rest⟩ := inv.deleted other name stored found here
    exact ⟨member, rest.1, rest.2.1, (apart _ member).trans rest.2.2⟩
  alone := inv.alone
  kept := kept

theorem commitTake_inv (inv : Inv crypto cipher s) {stored : Option SentRow} {found : Bool}
    (call : s.calls task = .taking name none ∧ stored = none ∧ found = false ∨ s.calls task = .deleted name stored found) :
    Inv crypto cipher (commitTake crypto cipher s task name stored found) := by
  have ended : Inv crypto cipher (s.endCall task) := endCall_inv inv task
  rw [commitTake]
  cases opened : openSent crypto cipher name stored with
  | error e => exact ended
  | ok payload =>
      rcases call with ⟨-, rfl, rfl⟩ | call
      · cases opened
        exact others_stay ended ended.distinct (fun _ _ => rfl) (by simpa using inv.kept)
      · obtain ⟨member, rfl, present, here⟩ := inv.deleted task name stored found call
        cases payload with
        | none =>
            have := openSent_isSome opened
            simp [present] at this
        | some payload =>
            have answer : getSentMessage crypto cipher s.rows name = .ok (some payload) := by
              rw [getSentMessage, here, opened]
            refine others_stay ended (inv.distinct.filter _) (fun other locked => ?_) (kept_take ended.kept answer)
            -- a row locked by another transaction is not the one this take locked
            obtain ⟨locked, apart⟩ := List.mem_filter.1 locked
            refine selectSent_deleteSent_other fun same => ?_
            have both : other = (name, task) :=
              List.inj_on_of_nodup_map inv.alone locked member same
            simp [both] at apart

theorem step_inv (inv : Inv crypto cipher s) (allowed : ReadStays s e) (moved : step crypto cipher s e = some s') :
    Inv crypto cipher s' := by
  cases e with
  | store name payload nonce now =>
      simp only [step] at moved
      cases sealing : sealSent crypto cipher name nonce payload with
      | error e =>
          simp only [sealing] at moved
          exact Option.some.inj moved ▸ inv
      | ok sealed =>
          simp only [sealing] at moved
          split at moved
          · cases moved
          · rename_i free
            cases moved
            exact others_stay inv (inv.distinct.store _)
              (fun other locked => selectSent_storeSent_other (not_locked free locked)) (kept_store inv.kept sealing)
  | select task name =>
      simp only [step] at moved
      split at moved
      · cases moved
        exact setCall_inv inv (by simp)
      · cases moved
  | delete task =>
      simp only [step] at moved
      split at moved
      · rename_i name row call
        simp only [ReadStays, readStays, call, decide_eq_true_eq] at allowed
        split at moved
        · cases moved
        · rename_i free
          simp only [allowed, Option.isSome_some, if_true] at moved
          cases moved
          refine ⟨inv.distinct, fun other name' stored found here => ?_, ?_, inv.kept⟩
          · rw [setCall_calls] at here
            split at here
            · rename_i same
              cases here
              exact ⟨by simp [same], rfl, rfl, allowed⟩
            · obtain ⟨member, rest⟩ := inv.deleted other name' stored found here
              exact ⟨List.mem_cons_of_mem _ member, rest⟩
          · refine List.nodup_cons.2 ⟨fun member => ?_, inv.alone⟩
            obtain ⟨entry, locked, same⟩ := List.mem_map.1 member
            exact not_locked free locked same
      · cases moved
  | commit task =>
      simp only [step] at moved
      split at moved
      · rename_i name call
        cases moved
        exact commitTake_inv inv (.inl ⟨call, rfl, rfl⟩)
      · rename_i name stored found call
        cases moved
        exact commitTake_inv inv (.inr call)
      · cases moved
  | abort task =>
      simp only [step] at moved
      split at moved
      · cases moved
      · cases moved
        exact endCall_inv inv task
  | sweep task device cutoff =>
      simp only [step] at moved
      split at moved
      · cases moved
        exact setCall_inv inv (by simp)
      · cases moved
  | swept task =>
      simp only [step] at moved
      split at moved
      · rename_i device cutoff seen call
        split at moved
        · cases moved
        · rename_i free
          cases moved
          have idle : Inv crypto cipher (s.setCall task .idle) := setCall_inv inv (by simp)
          refine others_stay idle (inv.distinct.filter _) (fun other locked => ?_) (kept_filter inv.kept inv.distinct _)
          refine selectSent_filter_kept fun row here => ?_
          have unseen : other.1 ∉ seen := fun member => free (List.any_eq_true.2
            ⟨other.1, member, List.any_eq_true.2 ⟨other, locked, by simp⟩⟩)
          simp [here, unseen]
      · cases moved
  | get name =>
      cases moved
      exact inv

theorem inv_reached {rows : Cache} (reached : (machine crypto cipher rows).Reaches ReadStays s) : Inv crypto cipher s :=
  reached.invariant (Inv crypto cipher) (by exact ⟨rows.2, by simp [machine], .nil, .initial _⟩)
    fun _ _ _ inv allowed moved => step_inv inv allowed moved

theorem refused_rows (moved : step crypto cipher s e = some s') (refused : refuses crypto cipher s e = true) :
    s'.rows = s.rows := by
  cases e with
  | commit task =>
      simp only [step] at moved
      simp only [refuses] at refused
      split at moved
      · rename_i name call
        simp [call] at refused
      · rename_i name stored found call
        cases moved
        cases opened : openSent crypto cipher name stored with
        | error e =>
            simp only [commitTake, opened]
            rfl
        | ok payload => simp [call, opened, Except.toOption] at refused
      · cases moved
  | abort task =>
      simp only [step] at moved
      split at moved <;> cases moved
      rfl
  | store | select | delete | sweep | swept | get => cases refused

end Postgres

/-! ## The statement -/

theorem taken_once (crypto : Crypto) (cipher : BlobCipher) (rows : Cache) :
    (∀ s, (Postgres.machine crypto cipher rows).Reaches Postgres.ReadStays s → Once s.log ∧ Latest s.log ∧
      ∀ e s', Postgres.step crypto cipher s e = some s' → Postgres.refuses crypto cipher s e = true → s'.rows = s.rows) ∧
    ∀ family s, (Jobs.machine crypto cipher family rows).Reaches Machine.Free s → Once s.log ∧ Latest s.log ∧
      ∀ e s', Jobs.step crypto cipher family s e = some s' → Jobs.refuses crypto cipher family s e = true →
        s'.rows = s.rows ∧ (s'.batch = s.batch ∨ s'.batch = s.rows) := by
  constructor
  · intro s reached
    have inv : Postgres.Inv crypto cipher s := Postgres.inv_reached reached
    exact ⟨inv.kept.once, inv.kept.last, fun _ _ => Postgres.refused_rows⟩
  · intro family s reached
    have inv : Jobs.Inv crypto cipher s := Jobs.inv_reached reached
    exact ⟨inv.committed.once, inv.committed.last, fun _ _ => Jobs.refused_rows⟩

def letter : SentName := ⟨1, "chat", "M1"⟩

def reply : SentName := ⟨1, "chat", "M2"⟩

def drawn (n : UInt8) : Option Encryption.Nonce := some ⟨List.replicate 24 n, rfl⟩

def takenBeside : List Postgres.Event :=
  [.store letter [7] (drawn 3) 5, .store reply [9] (drawn 4) 5, .select 0 letter, .select 1 reply, .delete 0, .commit 0,
    .store letter [8] (drawn 5) 6, .delete 1, .commit 1, .select 2 letter, .delete 2, .commit 2]

def logBeside : Log :=
  [.stored letter [7], .stored reply [9], .taken letter [7], .stored letter [8], .taken reply [9], .taken letter [8]]

theorem taken_once_beside : ∃ log : Log, log = logBeside ∧ Once log ∧ Latest log := by
  let cipher := BlobCipher.sealing ⟨List.replicate 32 1, rfl⟩
  obtain ⟨s, reached, log_eq⟩ := Machine.reaches_of_replay (fun _ _ => id)
    (fun s : Postgres.State => s.log = logBeside) takenBeside
    (show ((Postgres.machine Encryption.openLetter cipher ⟨[], .nil⟩).replay Postgres.readStays _ takenBeside).map _ =
      some true by decide +kernel)
  obtain ⟨once, latest, -⟩ := (taken_once Encryption.openLetter cipher ⟨[], .nil⟩).1 s reached
  exact ⟨s.log, by simpa using log_eq, once, latest⟩

/-- Two takes read the row before either deletes it. -/
def takenByTwo : List Postgres.Event :=
  [.store letter [7] none 5, .select 0 letter, .select 1 letter, .delete 0, .commit 0, .delete 1, .commit 1]

/-- A row is replaced between the two statements of a take. -/
def takenStale : List Postgres.Event :=
  [.store letter [7] none 5, .select 0 letter, .store letter [8] none 6, .delete 0, .commit 0]

theorem taken_twice :
    (¬∀ s, (Postgres.machine Encryption.openLetter .passthrough ⟨[], .nil⟩).Reaches Machine.Free s → Once s.log) ∧
    ¬∀ s, (Postgres.machine Encryption.openLetter .passthrough ⟨[], .nil⟩).Reaches Machine.Free s → Latest s.log := by
  constructor
  · intro all
    obtain ⟨s, reached, log_eq⟩ := Machine.reaches_of_replay Machine.free_sound
      (fun s : Postgres.State => s.log = [.stored letter [7], .taken letter [7], .taken letter [7]]) takenByTwo
      (show ((Postgres.machine Encryption.openLetter .passthrough ⟨[], .nil⟩).replay Machine.free _ takenByTwo).map _ =
        some true by decide +kernel)
    obtain ⟨stored, member⟩ := all s reached letter [7] [7] [.stored letter [7]] [] [] (by simpa using log_eq)
    cases member
  · intro all
    obtain ⟨s, reached, log_eq⟩ := Machine.reaches_of_replay Machine.free_sound
      (fun s : Postgres.State => s.log = [.stored letter [7], .stored letter [8], .taken letter [7]]) takenStale
      (show ((Postgres.machine Encryption.openLetter .passthrough ⟨[], .nil⟩).replay Machine.free _ takenStale).map _ =
        some true by decide +kernel)
    have stale := all s reached letter [7] [8] [.stored letter [7]] [] [] (by simpa using log_eq) (by simp)
    cases stale

end Wamux.Proof.SentMessages
