import Wamux.Proof.Migrations.Ran

namespace Wamux.Proof.Migrations
open Wamux.Migrations Runs Runs.Durable
open Wamux.Encryption (Bytes)

variable {schema : Type} {execute : String → schema → Option schema} {initial : schema} {env : Env}
  {all done embedded : List Migration} {migration : Migration} {db db' : Database schema} {k n : Nat}

/-- The build has the first `n` migrations, and down migrations of these only. -/
structure Embeds (all : List Migration) (n : Nat) (embedded : List Migration) : Prop where
  ups : embedded.filter (!·.isDownMigration) = all.take n
  versions : ∀ migration ∈ embedded, ∃ own ∈ all.take n, own.version = migration.version

theorem filter_take {α β : Type} [DecidableEq β] {f : α → β} {items : List α} (distinct : (items.map f).Nodup) (k n : Nat) :
    (items.take n).filter (fun item => !((items.take k).map f).contains (f item)) = (items.take n).drop k := by
  have dropped : (items.take n).take k = items.take (min k n) := List.take_take
  have outside : ∀ item ∈ (items.take n).drop k, ((items.take k).map f).contains (f item) = false := by
    intro item member
    rw [List.drop_take] at member
    have later : item ∈ items.drop k := List.mem_of_mem_take member
    rw [← List.take_append_drop k items, List.map_append] at distinct
    have apart := (List.nodup_append.1 distinct).2.2
    refine eq_false_of_ne_true fun inside => ?_
    exact apart _ (List.contains_iff_mem.1 inside) _ (List.mem_map_of_mem later) rfl
  have inside : ∀ item ∈ (items.take n).take k, ((items.take k).map f).contains (f item) = true := by
    intro item member
    rw [dropped] at member
    refine List.contains_iff_mem.2 (List.mem_map_of_mem ?_)
    exact (List.take_subset_take_left items (Nat.min_le_left k n)) member
  calc (items.take n).filter (fun item => !((items.take k).map f).contains (f item))
      = ((items.take n).take k ++ (items.take n).drop k).filter (fun item => !((items.take k).map f).contains (f item)) := by
        rw [List.take_append_drop]
    _ = (items.take n).drop k := by
        rw [List.filter_append, List.filter_eq_nil_iff.2 fun item member => by simpa using inside item member,
          List.filter_eq_self.2 fun item member => by simpa using outside item member, List.nil_append]

theorem Embeds.lacks (embeds : Embeds all n embedded) (distinct : (all.map Migration.version).Nodup) (k : Nat) :
    Lacks embedded (all.take k) = (all.take n).drop k := by
  rw [← filter_take distinct k n, ← embeds.ups, List.filter_filter, Lacks, lacking]
  congr 1
  funext migration
  exact Bool.and_comm ..

theorem Embeds.served (embeds : Embeds all n embedded) (distinct : (all.map Migration.version).Nodup) (held : k ≤ all.length)
    (serves : Served embedded (all.take k)) : k ≤ n := by
  by_contra older
  have last : n < all.length := by omega
  have recorded : all[n] ∈ all.take k := List.mem_take_iff_getElem.2 ⟨n, by omega, rfl⟩
  obtain ⟨own, member, same⟩ := serves.known _ recorded
  obtain ⟨own', member', same'⟩ := embeds.versions own member
  obtain ⟨i, below, rfl⟩ := List.mem_take_iff_getElem.1 member'
  have here : all[i] = all[n] := List.inj_on_of_nodup_map distinct (List.getElem_mem _) (List.getElem_mem _) (same'.trans same)
  have position := (List.Nodup.getElem_inj_iff (List.Nodup.of_map _ distinct)).1 here
  omega

theorem take_append_take (k n i : Nat) : all.take k ++ ((all.take n).drop k).take i = all.take (max k (min n (k + i))) := by
  rw [List.drop_take, List.take_take, ← List.take_add]
  congr 1
  omega

theorem take_append_drop (k n : Nat) : all.take k ++ (all.take n).drop k = all.take (max k n) := by
  rw [List.drop_take, ← List.take_add]
  congr 1
  omega

/-! ## Without faults -/

theorem answers_statement {op : Op} {effect : Database schema → Database schema} (works : env.outcome op = .done) :
    Answers (statement env op effect) db := by
  unfold statement
  refine Answers.seq ⟨db, rfl⟩ fun _ _ => ?_
  rw [works]
  exact ⟨(), rfl⟩

theorem bind_read {α β : Type} {m : Run schema α} {next : α → Run schema β} {a : α} (reads : m db = ([], .ok a)) :
    (m >>= next) db = next a db := by
  rw [bind_ok (by rw [reads]), final, reads]
  rfl

theorem attempt_bind {op : Op} {α : Type} {next : Unit → Run schema α} (works : env.outcome op = .done) :
    (attempt env op >>= next) db = next () db := by
  rw [attempt, if_pos works, bind_read rfl]

theorem runScriptAndRecord_works {executed : schema} (works : ∀ op, env.outcome op = .done)
    (runs : execute migration.sql db.schema = some executed) (fresh : migration.version ∉ db.rows.map AppliedRow.version) :
    ∃ db', runScriptAndRecord execute env migration db = .ok db' := by
  have absent : db.rows.any (·.version = migration.version) = false := by
    rw [List.any_eq_false]
    intro row member same
    exact fresh (List.mem_map.2 ⟨row, member, of_decide_eq_true same⟩)
  unfold runScriptAndRecord
  simp only [runs, works, absent]
  exact ⟨_, rfl⟩

theorem answers_applyOne {executed : schema} (works : ∀ op, env.outcome op = .done)
    (runs : execute migration.sql db.schema = some executed) (fresh : migration.version ∉ db.rows.map AppliedRow.version) :
    Answers (applyOne execute env migration) db := by
  obtain ⟨db', made⟩ := runScriptAndRecord_works works runs fresh
  unfold applyOne Answers
  rw [attempt_bind (works _), store_bind, made, ofExcept_bind]
  exact Answers.seq (answers_statement (works _)) fun _ _ => answers_statement (works _)

theorem answers_applyUnlessApplied {applied : List (Int64 × Bytes)} (works : ∀ op, env.outcome op = .done)
    (ran : Ran execute initial done db) (unchanged : Unchanged applied [migration])
    (runs : (schemaAfter execute initial (done ++ lacking (applied.map Prod.fst) [migration])).isSome)
    (once : ((done ++ lacking (applied.map Prod.fst) [migration]).map Migration.version).Nodup) :
    Answers (applyUnlessApplied execute env applied migration) db := by
  unfold applyUnlessApplied
  cases down : migration.isDownMigration with
  | true => exact ⟨(), rfl⟩
  | false =>
      cases found : applied.lookup migration.version with
      | some checksum =>
          have same := unchanged migration (List.mem_singleton_self _) down checksum found
          simp only [checkChecksum, if_pos same]
          exact ⟨(), rfl⟩
      | none =>
          rw [lacking_absent down found] at runs once
          obtain ⟨executed, here⟩ := Option.isSome_iff_exists.1 runs
          rw [schemaAfter, List.foldlM_append, ← schemaAfter, ran.schema] at here
          refine answers_applyOne works (show execute migration.sql db.schema = some executed by simpa using here) ?_
          rw [ran.versions]
          rw [List.map_append, List.nodup_append] at once
          intro present
          exact once.2.2 _ present _ (List.mem_singleton_self _) rfl

theorem schemaAfter_of_append {more : List Migration} (runs : (schemaAfter execute initial (done ++ more)).isSome) :
    (schemaAfter execute initial done).isSome := by
  rw [schemaAfter, List.foldlM_append, ← schemaAfter] at runs
  cases here : schemaAfter execute initial done with
  | none => simp [here] at runs
  | some schema => rfl

theorem answers_applyEach {applied : List (Int64 × Bytes)} (works : ∀ op, env.outcome op = .done)
    (ran : Ran execute initial done db) (unchanged : Unchanged applied embedded)
    (runs : (schemaAfter execute initial (done ++ lacking (applied.map Prod.fst) embedded)).isSome)
    (once : ((done ++ lacking (applied.map Prod.fst) embedded).map Migration.version).Nodup) :
    Answers (applyEach execute env applied embedded) db := by
  induction embedded generalizing done db with
  | nil => exact ⟨(), rfl⟩
  | cons migration rest ih =>
      rw [lacking_cons, ← List.append_assoc] at runs once
      rw [Unchanged, List.forall_mem_cons] at unchanged
      rw [applyEach]
      have own : Unchanged applied [migration] := by simpa [Unchanged] using unchanged.1
      have first : ((done ++ lacking (applied.map Prod.fst) [migration]).map Migration.version).Nodup := by
        rw [List.map_append] at once
        exact (List.nodup_append.1 once).1
      refine Answers.bind (always_applyUnlessApplied ran)
        (answers_applyUnlessApplied works ran own (schemaAfter_of_append runs) first) ?_
      rintro _ s ⟨middle, _⟩
      exact ih middle unchanged.2 runs once

theorem answers_applyPending (works : ∀ op, env.outcome op = .done) (ran : Ran execute initial done db)
    (serves : Served embedded done) (runs : (schemaAfter execute initial (done ++ Lacks embedded done)).isSome)
    (once : ((done ++ Lacks embedded done).map Migration.version).Nodup) :
    (applyPending execute env embedded).answer db = .ok () := by
  have created : Ran execute initial done { db with table := some db.rows } := ran.of_same rfl rfl
  have answers : Answers (applyPending execute env embedded) db := by
    unfold applyPending Answers
    rw [attempt_bind (works _)]
    have creates : Always (statement env .createTable fun db : Database schema => { db with table := some db.rows }) db
        (fun _ => True) fun _ s => Ran execute initial done s := always_statement trivial created
    refine Answers.bind creates (answers_statement (works _)) fun _ db ran => ?_
    have rejects : rejectFailedRow env db = ([], .ok ()) := by
      have none' : db.rows.filter (fun row => !row.success) = [] := by
        rw [List.filter_eq_nil_iff]
        intro row member
        simp [ran.succeeded row member]
      rw [rejectFailedRow, attempt_bind (works _), store_bind, none']
      rfl
    have reads : appliedChecksums env db = ([], .ok (done.map fun migration => (migration.version, migration.checksum))) := by
      rw [appliedChecksums, attempt_bind (works _), store_bind, ran.checksums]
      rfl
    have known : checkKnown embedded (done.map fun migration => (migration.version, migration.checksum)) = .ok () := by
      have none' : (done.map fun migration => (migration.version, migration.checksum)).find?
          (fun entry => !embedded.any (·.version = entry.1)) = none := by
        rw [List.find?_eq_none]
        intro entry member
        obtain ⟨migration, present, rfl⟩ := List.mem_map.1 member
        obtain ⟨own, embeds, same⟩ := serves.known migration present
        simpa using ⟨own, embeds, same⟩
      rw [checkKnown, none']
    rw [Answers, bind_read rejects, bind_read reads, known, ofExcept_bind]
    have versions : (done.map fun migration => (migration.version, migration.checksum)).map Prod.fst =
        done.map Migration.version := by
      rw [List.map_map]
      rfl
    refine answers_applyEach works ran ?_ (by rw [versions]; exact runs) (by rw [versions]; exact once)
    intro own member up checksum found
    obtain ⟨before, after, listed, _⟩ := List.lookup_eq_some_iff.1 found
    have entry : (own.version, checksum) ∈ done.map fun migration => (migration.version, migration.checksum) := by
      rw [listed]
      simp
    obtain ⟨migration, present, same⟩ := List.mem_map.1 entry
    obtain ⟨version, recorded⟩ := Prod.mk.inj same
    exact (serves.unchanged own member up migration present version).symm.trans recorded
  obtain ⟨⟨⟩, answered⟩ := answers
  exact answered

/-! ## Runs -/

theorem Embeds.serves (embeds : Embeds all n embedded) (distinct : (all.map Migration.version).Nodup) (newer : k ≤ n) :
    Served embedded (all.take k) := by
  have within {migration : Migration} (member : migration ∈ all.take k) : migration ∈ all.take n :=
    List.take_subset_take_left all newer member
  constructor
  · intro migration member
    have own : migration ∈ embedded.filter (!·.isDownMigration) := by
      rw [embeds.ups]
      exact within member
    exact ⟨migration, List.mem_of_mem_filter own, rfl⟩
  · intro own member up migration present same
    have mine : own ∈ all.take n := by
      rw [← embeds.ups]
      exact List.mem_filter.2 ⟨member, by simp [up]⟩
    have both : migration = own :=
      List.inj_on_of_nodup_map distinct (List.mem_of_mem_take (within present)) (List.mem_of_mem_take mine) same
    rw [both]

/-- Builds that embed beginnings of one list of migrations open the store in any order, each failing or stopped
anywhere. The store holds a beginning too; a build is served just with what it embeds, is refused when it embeds
less than the store holds, and is served when nothing fails. -/
theorem append_only (execute : String → schema → Option schema) (initial : schema) {all : List Migration}
    (distinct : (all.map Migration.version).Nodup)
    (reaches : (machine execute initial).Reaches (fun _ opens => ∃ n, Embeds all n opens.embedded) db) :
    ∃ k ≤ all.length, Ran execute initial (all.take k) db ∧ ∀ env n embedded, Embeds all n embedded →
      (∀ stop, ∃ j, k ≤ j ∧ j ≤ max k n ∧
        Ran execute initial (all.take j) ((applyPending execute env embedded).stopped stop db)) ∧
      ((applyPending execute env embedded).answer db = .ok () →
        k ≤ n ∧ Ran execute initial (all.take n) ((applyPending execute env embedded).final db)) ∧
      (k ≤ n → (∀ op, env.outcome op = .done) → (schemaAfter execute initial (all.take n)).isSome →
        (applyPending execute env embedded).answer db = .ok ()) := by
  have between {k n i : Nat} : k ≤ max k (min n (k + i)) ∧ max k (min n (k + i)) ≤ max k n := by omega
  obtain ⟨k, within, ran⟩ : ∃ k ≤ all.length, Ran execute initial (all.take k) db := by
    refine reaches.invariant (fun db => ∃ k ≤ all.length, Ran execute initial (all.take k) db) ⟨0, Nat.zero_le _, ran_new⟩ ?_
    rintro db opens _ ⟨k, within, ran⟩ ⟨n, embeds⟩ ⟨⟩
    obtain ⟨i, after⟩ := leaves_ran opens ran
    rw [embeds.lacks distinct, take_append_take] at after
    refine ⟨min (max k (min n (k + i))) all.length, Nat.min_le_right _ _, ?_⟩
    rwa [← List.take_eq_take_min]
  refine ⟨k, within, ran, fun env n embedded embeds => ⟨fun stop => ?_, fun served => ?_, fun newer works runs => ?_⟩⟩
  · obtain ⟨i, after⟩ := (always_applyPending ran).stopped ⟨0, by simpa using ran⟩ stop
    rw [embeds.lacks distinct, take_append_take] at after
    exact ⟨_, between.1, between.2, after⟩
  · obtain ⟨after, serves⟩ := (always_applyPending ran).answers () served
    have newer := embeds.served distinct within serves
    rw [embeds.lacks distinct, take_append_drop, Nat.max_eq_right newer] at after
    exact ⟨newer, after⟩
  · have whole : all.take k ++ Lacks embedded (all.take k) = all.take n := by
      rw [embeds.lacks distinct, take_append_drop, Nat.max_eq_right newer]
    refine answers_applyPending works ran (embeds.serves distinct newer) ?_ ?_
    · rwa [whole]
    · rw [whole, List.map_take]
      exact distinct.sublist (List.take_sublist _ _)

theorem embeds_take (ups : ∀ migration ∈ all, migration.isDownMigration = false) (n : Nat) : Embeds all n (all.take n) where
  ups := List.filter_eq_self.2 fun migration member => by simp [ups migration (List.mem_of_mem_take member)]
  versions := fun migration member => ⟨migration, member, rfl⟩

theorem append_only_failsOnce : ∃ db : Database (List String), (applyPending scripts calm three).answer db = .ok () ∧
    (applyPending scripts calm (three.take 1)).answer db ≠ .ok () := by
  have ups : ∀ migration ∈ three, migration.isDownMigration = false := by decide
  have three_le : three.take 3 = three := rfl
  obtain ⟨db, reaches, passes⟩ := Machine.reaches_of_replay (m := machine scripts [])
    (show ∀ (_ : Database (List String)) (opens : Open), decide (opens.embedded ∈ (List.range 4).map (three.take ·)) = true →
        ∃ n, Embeds three n opens.embedded from fun _ opens beginning => by
      obtain ⟨n, _, same⟩ := List.mem_map.1 (of_decide_eq_true beginning)
      exact ⟨n, same ▸ embeds_take ups n⟩)
    (fun db => decide (db.schema = ["a", "b", "c"])) failsOnce (by decide +kernel)
  obtain ⟨k, within, ran, every⟩ := append_only scripts [] (by decide) reaches
  have whole := (every calm 3 three (three_le ▸ embeds_take ups 3)).2.2 within (fun _ => rfl) (by decide)
  refine ⟨db, whole, fun served => ?_⟩
  obtain ⟨older, -⟩ := (every calm 1 (three.take 1) (embeds_take ups 1)).2.1 served
  have here := ran.schema
  rw [of_decide_eq_true passes] at here
  have early : k = 0 ∨ k = 1 := by omega
  rcases early with rfl | rfl <;> cases here

end Wamux.Proof.Migrations
