import Mathlib.Data.List.Nodup
import Wamux.Migrations.Runner

namespace Wamux.Proof.Migrations
open Wamux.Migrations Runs Runs.Durable
open Wamux.Encryption (Bytes)

variable {schema : Type} {execute : String → schema → Option schema} {initial : schema} {env : Env}
  {done embedded : List Migration} {migration : Migration} {db db' : Database schema}

def AppliedRow.record (row : AppliedRow) : Int64 × String × Bool × Bytes := (row.version, row.description, row.success, row.checksum)

def Migration.record (migration : Migration) : Int64 × String × Bool × Bytes :=
  (migration.version, migration.description, true, migration.checksum)

def schemaAfter (execute : String → schema → Option schema) (initial : schema) (done : List Migration) : Option schema :=
  done.foldlM (fun schema migration => execute migration.sql schema) initial

structure Ran (execute : String → schema → Option schema) (initial : schema) (done : List Migration) (db : Database schema) :
    Prop where
  rows : db.rows.map AppliedRow.record = done.map Migration.record
  schema : schemaAfter execute initial done = some db.schema
  once : (done.map Migration.version).Nodup

theorem Ran.versions (ran : Ran execute initial done db) : db.rows.map AppliedRow.version = done.map Migration.version := by
  have first := congrArg (List.map Prod.fst) ran.rows
  rwa [List.map_map, List.map_map] at first

theorem Ran.checksums (ran : Ran execute initial done db) :
    db.rows.map (fun row => (row.version, row.checksum)) = done.map fun migration => (migration.version, migration.checksum) := by
  have pairs := congrArg (List.map fun record : Int64 × String × Bool × Bytes => (record.1, record.2.2.2)) ran.rows
  rwa [List.map_map, List.map_map] at pairs

theorem Ran.succeeded (ran : Ran execute initial done db) : ∀ row ∈ db.rows, row.success = true := by
  intro row member
  have recorded : AppliedRow.record row ∈ done.map Migration.record := by
    rw [← ran.rows]
    exact List.mem_map_of_mem member
  obtain ⟨migration, _, same⟩ := List.mem_map.1 recorded
  exact (congrArg (fun record : Int64 × String × Bool × Bytes => record.2.2.1) same).symm

theorem Ran.of_same (ran : Ran execute initial done db) (rows : db'.rows.map AppliedRow.record = db.rows.map AppliedRow.record)
    (schema : db'.schema = db.schema) : Ran execute initial done db' :=
  ⟨rows.trans ran.rows, schema ▸ ran.schema, ran.once⟩

/-! ## Statements -/

section Statements
variable {op : Op} {effect : Database schema → Database schema} {inv : Database schema → Prop}

theorem always_statement {post : Unit → Database schema → Prop} (kept : inv (effect db)) (now : post () (effect db)) :
    Always (statement env op effect) db inv post := by
  unfold statement
  refine Always.bind (fun s s' => db = s ∧ db = s') (.store ⟨rfl, rfl⟩) ?_
  rintro _ _ ⟨rfl, rfl⟩
  split
  · exact .commit kept now
  · exact .fail
  · exact Always.bind (fun _ _ => True) (.commit kept trivial) fun _ _ _ => .fail

theorem always_attempt {post : Unit → Database schema → Prop} (now : post () db) :
    Always (attempt env op) db inv post := by
  unfold attempt
  split
  · exact .pure now
  · exact .fail

theorem always_rejectFailedRow {post : Unit → Database schema → Prop} (now : post () db) :
    Always (rejectFailedRow env) db inv post := by
  unfold rejectFailedRow
  refine Always.bind (fun _ s => db = s) (always_attempt rfl) ?_
  rintro _ _ rfl
  refine Always.bind (fun _ s => db = s) (.store rfl) ?_
  rintro _ _ rfl
  split
  · exact .fail
  · exact .pure now

theorem always_appliedChecksums {post : List (Int64 × Bytes) → Database schema → Prop}
    (now : post (db.rows.map fun row => (row.version, row.checksum)) db) : Always (appliedChecksums env) db inv post := by
  unfold appliedChecksums
  refine Always.bind (fun _ s => db = s) (always_attempt rfl) ?_
  rintro _ _ rfl
  refine Always.bind (fun s s' => db = s ∧ db = s') (.store ⟨rfl, rfl⟩) ?_
  rintro _ _ ⟨rfl, rfl⟩
  exact .pure now

end Statements

/-! ## One migration -/

theorem runScriptAndRecord_ok (ran : Ran execute initial done db)
    (made : runScriptAndRecord execute env migration db = .ok db') : Ran execute initial (done ++ [migration]) db' := by
  unfold runScriptAndRecord at made
  split at made
  · rename_i schema executed
    split at made
    · cases made
    · split at made
      · cases made
      · rename_i fresh
        cases made
        have new : migration.version ∉ done.map Migration.version := by
          rw [← ran.versions]
          intro present
          obtain ⟨row, member, same⟩ := List.mem_map.1 present
          exact fresh (.inr (List.any_eq_true.2 ⟨row, member, decide_eq_true same⟩))
        refine ⟨?_, ?_, ?_⟩
        · show (db.rows ++ [_]).map AppliedRow.record = _
          rw [List.map_append, ran.rows, List.map_append]
          rfl
        · have earlier := ran.schema
          rw [schemaAfter] at earlier ⊢
          rw [List.foldlM_append, earlier]
          simpa using executed
        · rw [List.map_append, List.map_singleton]
          exact List.nodup_append_comm.2 (List.nodup_cons.2 ⟨new, ran.once⟩)
  · cases made

theorem Ran.updateExecutionTime (ran : Ran execute initial done db) (version nanos : Int64) :
    Ran execute initial done (updateExecutionTime version nanos db) := by
  refine ran.of_same ?_ rfl
  obtain ⟨table, schema⟩ := db
  cases table with
  | none => rfl
  | some rows =>
      show (rows.map _).map AppliedRow.record = rows.map AppliedRow.record
      rw [List.map_map]
      apply List.map_congr_left
      intro row _
      show AppliedRow.record (if row.version = version then _ else row) = AppliedRow.record row
      split <;> rfl

theorem always_applyOne (ran : Ran execute initial done db) : Always (applyOne execute env migration) db
    (fun s => Ran execute initial (done ++ [migration]) s) fun _ s => Ran execute initial (done ++ [migration]) s := by
  unfold applyOne
  refine Always.bind (fun _ s => db = s) (always_attempt rfl) ?_
  rintro _ _ rfl
  refine Always.bind (fun s s' => db = s ∧ db = s') (.store ⟨rfl, rfl⟩) ?_
  rintro _ _ ⟨rfl, rfl⟩
  refine Always.bind (fun made s => Ran execute initial (done ++ [migration]) made ∧ db = s)
    (.ofExcept fun made ok => ⟨runScriptAndRecord_ok ran ok, rfl⟩) ?_
  rintro made _ ⟨after, rfl⟩
  refine Always.bind (fun _ s => made = s) (always_statement after rfl) ?_
  rintro _ _ rfl
  exact always_statement (after.updateExecutionTime _ _) (after.updateExecutionTime _ _)

/-! ## All of them -/

def lacking (applied : List Int64) (embedded : List Migration) : List Migration :=
  embedded.filter fun migration => !migration.isDownMigration && !applied.contains migration.version

def Unchanged (applied : List (Int64 × Bytes)) (embedded : List Migration) : Prop :=
  ∀ migration ∈ embedded, migration.isDownMigration = false → ∀ checksum,
    applied.lookup migration.version = some checksum → migration.checksum = checksum

theorem lacking_cons {applied : List Int64} : lacking applied (migration :: embedded) =
    lacking applied [migration] ++ lacking applied embedded := by
  rw [lacking, lacking, lacking, ← List.filter_append, List.singleton_append]

theorem mem_versions (applied : List (Int64 × Bytes)) {version : Int64} :
    version ∈ applied.map Prod.fst ↔ (applied.lookup version).isSome := by
  rw [List.lookup_isSome_iff, List.mem_map]
  constructor
  · rintro ⟨entry, member, rfl⟩
    exact ⟨entry, member, beq_self_eq_true _⟩
  · rintro ⟨entry, member, same⟩
    exact ⟨entry, member, (eq_of_beq same).symm⟩

theorem lacking_absent {applied : List (Int64 × Bytes)} (up : migration.isDownMigration = false)
    (absent : applied.lookup migration.version = none) : lacking (applied.map Prod.fst) [migration] = [migration] := by
  have missing : migration.version ∉ applied.map Prod.fst := by
    rw [mem_versions, absent]
    exact Bool.false_ne_true
  simpa [lacking, up] using missing

theorem lookup_done (once : (done.map Migration.version).Nodup) (member : migration ∈ done) :
    (done.map fun migration => (migration.version, migration.checksum)).lookup migration.version = some migration.checksum := by
  induction done with
  | nil => cases member
  | cons first rest ih =>
      rw [List.map_cons, List.nodup_cons] at once
      rw [List.map_cons]
      rcases List.mem_cons.1 member with rfl | later
      · exact List.lookup_cons_self
      · have other : (migration.version == first.version) = false := by
          refine beq_false_of_ne fun same => once.1 ?_
          rw [← same]
          exact List.mem_map_of_mem later
        rw [List.lookup_cons, other]
        exact ih once.2 later

theorem always_applyUnlessApplied {applied : List (Int64 × Bytes)} (ran : Ran execute initial done db) :
    Always (applyUnlessApplied execute env applied migration) db
      (fun s => Ran execute initial (done ++ lacking (applied.map Prod.fst) [migration]) s)
      fun _ s => Ran execute initial (done ++ lacking (applied.map Prod.fst) [migration]) s ∧ Unchanged applied [migration] := by
  unfold applyUnlessApplied
  cases down : migration.isDownMigration with
  | true =>
      refine .pure ⟨?_, by simp [Unchanged, down]⟩
      simpa [lacking, down] using ran
  | false =>
      cases found : applied.lookup migration.version with
      | some checksum =>
          have present : migration.version ∈ applied.map Prod.fst := (mem_versions applied).2 (by rw [found]; rfl)
          refine .ofExcept fun _ ok => ?_
          unfold checkChecksum at ok
          split at ok
          · rename_i same
            refine ⟨by simpa [lacking, down, present] using ran, ?_⟩
            simp [Unchanged, down, found, same]
          · cases ok
      | none =>
          rw [lacking_absent down found]
          refine (always_applyOne ran).weaken (fun _ kept => kept) fun _ s after => ⟨after, ?_⟩
          simp [Unchanged, found]

theorem always_applyEach (env : Env) (embedded : List Migration) (applied : List (Int64 × Bytes)) (ran : Ran execute initial done db) :
    Always (applyEach execute env applied embedded) db
      (fun s => ∃ i, Ran execute initial (done ++ (lacking (applied.map Prod.fst) embedded).take i) s)
      fun _ s => Ran execute initial (done ++ lacking (applied.map Prod.fst) embedded) s ∧ Unchanged applied embedded := by
  induction embedded generalizing done db with
  | nil =>
      refine .pure ⟨?_, by simp [Unchanged]⟩
      simpa [lacking] using ran
  | cons migration rest ih =>
      rw [applyEach, lacking_cons]
      generalize first : lacking (applied.map Prod.fst) [migration] = new
      refine Always.bind (fun _ s => Ran execute initial (done ++ new) s ∧ Unchanged applied [migration]) ?_ ?_
      · subst first
        refine (always_applyUnlessApplied ran).weaken (fun s kept => ?_) fun _ _ after => after
        exact ⟨(lacking (applied.map Prod.fst) [migration]).length, by simpa using kept⟩
      · rintro _ s ⟨middle, unchanged⟩
        refine (ih middle).weaken ?_ ?_
        · rintro s ⟨i, kept⟩
          refine ⟨new.length + i, ?_⟩
          rwa [List.take_append, List.take_of_length_le (Nat.le_add_right _ _), Nat.add_sub_cancel_left, ← List.append_assoc]
        · rintro _ s ⟨after, unchanged'⟩
          rw [← List.append_assoc]
          refine ⟨after, ?_⟩
          rw [Unchanged, List.forall_mem_cons]
          exact ⟨unchanged migration (List.mem_singleton_self _), unchanged'⟩

theorem checkKnown_ok {applied : List (Int64 × Bytes)} (known : checkKnown embedded applied = .ok ()) :
    ∀ version ∈ applied.map Prod.fst, ∃ migration ∈ embedded, migration.version = version := by
  unfold checkKnown at known
  split at known
  · cases known
  · rename_i all
    intro version member
    obtain ⟨entry, present, rfl⟩ := List.mem_map.1 member
    have here := List.find?_eq_none.1 all entry present
    simpa using here

def Lacks (embedded done : List Migration) : List Migration := lacking (done.map Migration.version) embedded

/-- A build that is served finds every migration it embeds applied as it embeds it, and no other. -/
structure Served (embedded done : List Migration) : Prop where
  known : ∀ migration ∈ done, ∃ own ∈ embedded, own.version = migration.version
  unchanged : ∀ own ∈ embedded, own.isDownMigration = false → ∀ migration ∈ done, migration.version = own.version →
    migration.checksum = own.checksum

theorem always_applyPending (ran : Ran execute initial done db) : Always (applyPending execute env embedded) db
    (fun s => ∃ i, Ran execute initial (done ++ (Lacks embedded done).take i) s)
    fun _ s => Ran execute initial (done ++ Lacks embedded done) s ∧ Served embedded done := by
  unfold applyPending
  refine Always.bind (fun _ s => db = s) (always_attempt rfl) ?_
  rintro _ _ rfl
  have created : Ran execute initial done { db with table := some db.rows } := ran.of_same rfl rfl
  refine Always.bind (fun _ s => Ran execute initial done s) (always_statement ⟨0, by simpa using created⟩ created) ?_
  intro _ db ran
  refine Always.bind (fun _ s => db = s) (always_rejectFailedRow rfl) ?_
  rintro _ _ rfl
  refine Always.bind (fun applied s => applied = done.map (fun migration => (migration.version, migration.checksum)) ∧ db = s)
    (always_appliedChecksums ⟨ran.checksums, rfl⟩) ?_
  rintro applied _ ⟨read, rfl⟩
  have versions : applied.map Prod.fst = done.map Migration.version := by
    rw [read, List.map_map]
    rfl
  refine Always.bind (fun _ s => checkKnown embedded applied = .ok () ∧ db = s) (.ofExcept fun _ ok => ⟨ok, rfl⟩) ?_
  rintro _ _ ⟨known, rfl⟩
  have each := always_applyEach env embedded applied ran
  rw [versions] at each
  refine each.weaken (fun _ kept => kept) ?_
  rintro _ s ⟨after, unchanged⟩
  refine ⟨after, ?_, ?_⟩
  · intro migration member
    apply checkKnown_ok known
    rw [versions]
    exact List.mem_map_of_mem member
  · intro own member up migration present same
    refine (unchanged own member up migration.checksum ?_).symm
    rw [read, ← same]
    exact lookup_done ran.once present

/-! ## Every store -/

theorem leaves_ran (opens : Open) (ran : Ran execute initial done db) :
    ∃ i, Ran execute initial (done ++ (Lacks opens.embedded done).take i) (opens.leaves execute db) := by
  have always : Always (applyPending execute opens.env opens.embedded) db _ _ := always_applyPending ran
  have now : ∃ i, Ran execute initial (done ++ (Lacks opens.embedded done).take i) db := ⟨0, by simpa using ran⟩
  unfold Open.leaves
  cases opens.stop with
  | none => exact always.final now
  | some n => exact always.stopped now n

theorem ran_new : Ran execute initial [] ⟨none, initial⟩ := ⟨rfl, rfl, .nil⟩

/-- Whatever builds opened the store, and wherever each of them failed or was stopped: the recorded migrations
are those whose scripts made the schema, once each and in the order recorded. The next build goes through some of
what it lacks, in its own order, and is served when it has gone through all of it. -/
theorem recorded_is_ran (execute : String → schema → Option schema) (initial : schema) {known : List Migration}
    (reaches : (machine execute initial).Reaches (fun _ opens => opens.embedded ⊆ known) db) :
    ∃ done, Ran execute initial done db ∧ (∀ migration ∈ done, migration ∈ known ∧ migration.isDownMigration = false) ∧
      ∀ env embedded,
        (∀ n, ∃ i, Ran execute initial (done ++ (Lacks embedded done).take i)
          ((applyPending execute env embedded).stopped n db)) ∧
        ((applyPending execute env embedded).answer db = .ok () → Served embedded done ∧
          Ran execute initial (done ++ Lacks embedded done) ((applyPending execute env embedded).final db)) := by
  obtain ⟨done, ran, from'⟩ : ∃ done, Ran execute initial done db ∧
      ∀ migration ∈ done, migration ∈ known ∧ migration.isDownMigration = false := by
    refine reaches.invariant (fun db => ∃ done, Ran execute initial done db ∧
      ∀ migration ∈ done, migration ∈ known ∧ migration.isDownMigration = false) ⟨[], ran_new, List.forall_mem_nil _⟩ ?_
    rintro db opens _ ⟨done, ran, from'⟩ within ⟨⟩
    obtain ⟨i, after⟩ := leaves_ran opens ran
    refine ⟨_, after, ?_⟩
    rw [List.forall_mem_append]
    refine ⟨from', fun migration member => ?_⟩
    obtain ⟨embeds, lacks⟩ := List.mem_filter.1 (List.mem_of_mem_take member)
    rw [Bool.and_eq_true_iff] at lacks
    exact ⟨within embeds, by simpa using lacks.1⟩
  refine ⟨done, ran, from', fun env embedded => ⟨fun n => ?_, fun served => ?_⟩⟩
  · exact (always_applyPending ran).stopped ⟨0, by simpa using ran⟩ n
  · have ⟨after, serves⟩ := (always_applyPending ran).answers () served
    exact ⟨serves, after⟩

def scripts (sql : String) (ran : List String) : Option (List String) := some (ran ++ [sql])

def three : List Migration :=
  [⟨1, "initial", false, [1], "a"⟩, ⟨2, "msg secrets", false, [2], "b"⟩, ⟨3, "blob format", false, [3], "c"⟩]

def calm : Env := ⟨fun _ => .done, fun _ => 5⟩

def failsOnce : List Open :=
  [⟨three.take 2, { calm with outcome := fun op => if op = .commit 2 then .failedAfter else .done }, none⟩,
    ⟨three.take 1, calm, none⟩, ⟨three, calm, some 2⟩]

theorem recorded_is_ran_failsOnce : ∃ db : Database (List String),
    (machine scripts []).Reaches (fun _ opens => opens.embedded ⊆ three) db ∧ db.schema = ["a", "b", "c"] ∧
    ∃ done, Ran scripts [] done db ∧ ∀ migration ∈ done, migration ∈ three ∧ migration.isDownMigration = false := by
  obtain ⟨db, reaches, passes⟩ := Machine.reaches_of_replay (m := machine scripts [])
    (show ∀ (_ : Database (List String)) (opens : Open), decide (opens.embedded ⊆ three) = true → opens.embedded ⊆ three from
      fun _ _ => of_decide_eq_true)
    (fun db => decide (db.schema = ["a", "b", "c"])) failsOnce (by decide +kernel)
  obtain ⟨done, ran, within, _⟩ := recorded_is_ran scripts [] reaches
  exact ⟨db, reaches, of_decide_eq_true passes, done, ran, within⟩

end Wamux.Proof.Migrations
