import Wamux.Proof.BatchedReads.Chunks
import Wamux.Runs.Failing

namespace Wamux.Proof.BatchedReads
open Wamux.BatchedReads Wamux.Runs.Failing Wamux.Runs.Selects
open Wamux.Encryption (StoreError DeviceId)
open Wamux.Encryption.Tables (StoredRow Value paddedChunks readChunk)
open Wamux.Proof.Encryption.Naming (mem_paddedChunks)

variable {κ α : Type} {get : κ → Except StoreError (Option α)} {asked asked' : List κ} {found found' : List (κ × α)}

structure Reads (asked : List κ) (get : κ → Except StoreError (Option α)) (found : List (κ × α)) : Prop where
  once : (found.map Prod.fst).Nodup
  same : ∀ key value, (key, value) ∈ found ↔ key ∈ asked ∧ get key = .ok (some value)

theorem Reads.nil : Reads [] get [] := ⟨.nil, by simp⟩

theorem Reads.append (first : Reads asked get found) (second : Reads asked' get found') (disjoint : asked.Disjoint asked') :
    Reads (asked ++ asked') get (found ++ found') := by
  refine ⟨?_, fun key value => ?_⟩
  · rw [List.map_append]
    refine first.once.append second.once ?_
    intro key member member'
    obtain ⟨⟨_, value⟩, inside, rfl⟩ := List.mem_map.1 member
    obtain ⟨⟨_, value'⟩, inside', rfl⟩ := List.mem_map.1 member'
    exact disjoint ((first.same _ _).1 inside).1 ((second.same _ _).1 inside').1
  · rw [List.mem_append, List.mem_append, first.same, second.same, or_and_right]

theorem Reads.congr (reads : Reads asked get found) (same : ∀ key, key ∈ asked ↔ key ∈ asked') : Reads asked' get found :=
  ⟨reads.once, fun key value => (reads.same key value).trans (and_congr_left' (same key))⟩

theorem foldl_update [DecidableEq κ] {entries : List (κ × α)} (once : (entries.map Prod.fst).Nodup) (map : κ → Option α) {key : κ}
    {value : α} : entries.foldl (fun map (key, value) => Function.update map key (some value)) map key = some value ↔
      (key, value) ∈ entries ∨ key ∉ entries.map Prod.fst ∧ map key = some value := by
  induction entries generalizing map with
  | nil => simp
  | cons entry entries ih =>
      obtain ⟨first, stored⟩ := entry
      rw [List.map_cons, List.nodup_cons] at once
      rw [List.foldl_cons, ih once.2]
      by_cases same : key = first
      · subst same
        have others : (key, value) ∉ entries := fun member => once.1 (List.mem_map.2 ⟨_, member, rfl⟩)
        simp [once.1, others, eq_comm]
      · simp [same]

theorem Reads.hashMap [DecidableEq κ] (reads : Reads asked get found) {key : κ} {value : α} :
    hashMap found key = some value ↔ key ∈ asked ∧ get key = .ok (some value) := by
  rw [Wamux.BatchedReads.hashMap, foldl_update reads.once, ← reads.same]
  simp

theorem Reads.hashMap_eq [DecidableEq κ] (reads : Reads asked get found) {key : κ} {result : Option α} (member : key ∈ asked)
    (got : get key = .ok result) : Wamux.BatchedReads.hashMap found key = result := by
  apply Option.ext
  intro value
  rw [reads.hashMap, got, Except.ok.injEq]
  exact and_iff_right member

theorem rowsInList_then {β : Type} (f : α → β) {query : Query} {leading : List Value} {rows : List StoredRow}
    {read : StoredRow → Except StoreError (Option α)} (chunks : List (List Value)) :
    rowsInList query leading (fun row => (read row).map (Option.map f)) rows chunks =
      (rowsInList query leading read rows chunks).map (List.map f) := by
  induction chunks with
  | nil => rfl
  | cons chunk chunks ih =>
      rw [rowsInList, rowsInList, ih]
      cases query.run (leading ++ chunk) rows with
      | error e => rfl
      | ok fetched =>
          simp only [bind, Except.bind, mapM_then]
          cases fetched.mapM read with
          | error e => rfl
          | ok entries =>
              cases rowsInList query leading read rows chunks with
              | error e => rfl
              | ok later => simp [Except.map, pure, Except.pure, List.reduceOption_map]

/-! ## One chunk -/

structure Alike (rows : List StoredRow) (here : κ → StoredRow → Prop) (query : Query) (leading : List Value) (valueOf : κ → Value)
    (read : StoredRow → Except StoreError (Option (κ × α))) (get : κ → Except StoreError (Option α)) : Prop where
  fetched : ∀ keys : List κ, keys.length = readChunk → ∃ fetched, query.run (leading ++ keys.map valueOf) rows = .ok fetched ∧
    fetched.Sublist rows ∧ ∀ row, row ∈ fetched ↔ row ∈ rows ∧ ∃ key ∈ keys, here key row
  single : rows.Pairwise fun row row' => ∀ key, here key row → ¬ here key row'
  present : ∀ key, ∀ row ∈ rows, here key row → ∀ result, get key = .ok result →
    ∃ value, result = some value ∧ read row = .ok (some (key, value))
  absent : ∀ key value, get key = .ok (some value) → ∃ row ∈ rows, here key row

variable {rows : List StoredRow} {here : κ → StoredRow → Prop} {query : Query} {leading : List Value} {valueOf : κ → Value}
  {read : StoredRow → Except StoreError (Option (κ × α))}

theorem Alike.chunk (alike : Alike rows here query leading valueOf read get) {keys : List κ} (full : keys.length = readChunk)
    (opens : ∀ key ∈ keys, ∃ result, get key = .ok result) :
    ∃ fetched entries, query.run (leading ++ keys.map valueOf) rows = .ok fetched ∧ fetched.mapM read = .ok entries ∧
      Reads keys get entries.reduceOption := by
  obtain ⟨fetched, ran, sublist, member⟩ := alike.fetched keys full
  let entry (row : StoredRow) : Option (κ × α) := (read row).toOption.join
  have named : ∀ row ∈ fetched, ∃ key ∈ keys, ∃ value, here key row ∧ get key = .ok (some value) ∧
      read row = .ok (some (key, value)) := by
    intro row fetched
    obtain ⟨stored, key, listed, at_key⟩ := (member row).1 fetched
    obtain ⟨result, got⟩ := opens key listed
    obtain ⟨value, rfl, opened⟩ := alike.present key row stored at_key result got
    exact ⟨key, listed, value, at_key, got, opened⟩
  have read_entry : ∀ row ∈ fetched, read row = .ok (entry row) := by
    intro row fetched
    obtain ⟨key, -, value, -, -, opened⟩ := named row fetched
    simp only [entry, opened]
    rfl
  refine ⟨fetched, fetched.map entry, ran, mapM_ok read_entry, ?_, fun key value => ?_⟩
  · rw [List.reduceOption, List.filterMap_map, List.Nodup, List.pairwise_map, List.pairwise_filterMap]
    refine (alike.single.sublist sublist).imp_of_mem ?_
    intro row row' fetched fetched' apart first first_eq second second_eq
    obtain ⟨key, -, value, at_key, -, opened⟩ := named row fetched
    obtain ⟨key', -, value', at_key', -, opened'⟩ := named row' fetched'
    simp only [Function.comp_apply, id_eq, entry, opened, opened', Except.toOption, Option.join_some, Option.some.injEq]
      at first_eq second_eq
    subst first_eq second_eq
    rintro rfl
    exact apart key at_key at_key'
  · rw [List.reduceOption, List.filterMap_map, List.mem_filterMap]
    constructor
    · rintro ⟨row, fetched, entry_eq⟩
      obtain ⟨key', listed, value', -, got, opened⟩ := named row fetched
      simp only [Function.comp_apply, id_eq, entry, opened, Except.toOption, Option.join_some, Option.some.injEq,
        Prod.mk.injEq] at entry_eq
      obtain ⟨rfl, rfl⟩ := entry_eq
      exact ⟨listed, got⟩
    · rintro ⟨listed, got⟩
      obtain ⟨row, stored, at_key⟩ := alike.absent key value got
      obtain ⟨value', same, opened⟩ := alike.present key row stored at_key _ got
      cases same
      exact ⟨row, (member row).2 ⟨stored, key, listed, at_key⟩, by simp only [Function.comp_apply, id_eq, entry, opened]; rfl⟩

/-! ## Every chunk -/

theorem Alike.chunks (alike : Alike rows here query leading valueOf read get) (chunks : List (List κ))
    (full : ∀ chunk ∈ chunks, chunk.length = readChunk) (disjoint : chunks.Pairwise List.Disjoint)
    (opens : ∀ chunk ∈ chunks, ∀ key ∈ chunk, ∃ result, get key = .ok result) :
    ∃ found, rowsInList query leading read rows (chunks.map (·.map valueOf)) = .ok found ∧ Reads chunks.flatten get found := by
  induction chunks with
  | nil => exact ⟨[], rfl, .nil⟩
  | cons chunk chunks ih =>
      obtain ⟨fetched, entries, ran, opened, first⟩ := alike.chunk (full chunk (by simp)) (opens chunk (by simp))
      rw [List.pairwise_cons] at disjoint
      obtain ⟨later, ran', rest⟩ := ih (fun other member => full other (by simp [member])) disjoint.2
        fun other member => opens other (by simp [member])
      refine ⟨entries.reduceOption ++ later, ?_, ?_⟩
      · exact bind_eq_ok.2 ⟨fetched, ran, bind_eq_ok.2 ⟨entries, opened, bind_eq_ok.2 ⟨later, ran', rfl⟩⟩⟩
      · refine first.append rest ?_
        intro key member member'
        obtain ⟨other, listed, inside⟩ := List.mem_flatten.1 member'
        exact disjoint.1 other listed member inside

theorem Alike.batch [BEq κ] [LawfulBEq κ] (alike : Alike rows here query leading valueOf read get) (asked : List κ)
    (opens : ∀ key ∈ asked, ∃ result, get key = .ok result) :
    ∃ found, rowsInList query leading read rows ((paddedChunks asked).map (·.map valueOf)) = .ok found ∧
      Reads asked get found := by
  obtain ⟨found, ran, reads⟩ := alike.chunks (paddedChunks asked) (fun chunk => length_paddedChunks)
    (disjoint_paddedChunks asked) fun chunk listed key member => opens key (mem_paddedChunks.1 ⟨chunk, listed, member⟩)
  exact ⟨found, ran, reads.congr fun key => by rw [List.mem_flatten, mem_paddedChunks]⟩

/-! ## Two statements of one table -/

/-- One row is read by `cells`, the rows of a list by `fixed` and the listed column. -/
structure Pair (one many : Query) (fixed : List (String × Value)) (listed : String) (cells : Value → List (String × Value)) :
    Prop where
  table : one.table = many.table
  one_equals : ∀ value, one.select.equals = ((cells value).map Prod.fst).zipIdx 1
  one_within : one.select.within = none
  many_equals : many.select.equals = (fixed.map Prod.fst).zipIdx 1
  many_within : many.select.within = some (listed, inPlaceholders (fixed.length + 1) readChunk)
  cells : ∀ value cell, cell ∈ cells value ↔ cell = (listed, value) ∨ cell ∈ fixed
  device : ∃ device : DeviceId, ("device_id", deviceValue device) ∈ fixed
  key : ∀ name ∈ keyColumns many.table, name ≠ "device_id" ∧ (name = listed ∨ ∃ value, (name, value) ∈ fixed)

def At (many : Query) (fixed : List (String × Value)) (listed : String) (value : Value) (row : StoredRow) : Prop :=
  row.table = many.table ∧ (∀ cell ∈ fixed, column row cell.1 = some cell.2) ∧ column row listed = some value

variable {one many : Query} {fixed : List (String × Value)} {listed : String} {cells : Value → List (String × Value)}
  {value : Value} {row row' : StoredRow}

theorem At.column (here : At many fixed listed value row) (here' : At many fixed listed value row') {name : String}
    (bound : name = listed ∨ ∃ value, (name, value) ∈ fixed) : column row name = column row' name := by
  rcases bound with rfl | ⟨value, member⟩
  · rw [here.2.2, here'.2.2]
  · rw [here.2.1 _ member, here'.2.1 _ member]

theorem Pair.sameKey (pair : Pair one many fixed listed cells) (here : At many fixed listed value row)
    (here' : At many fixed listed value row') : SameKey row row' := by
  refine ⟨here.1.trans here'.1.symm, ?_, fun name member => ?_⟩
  · obtain ⟨device, bound⟩ := pair.device
    have same := here.column here' (.inr ⟨_, bound⟩)
    simp only [Wamux.BatchedReads.column, if_true, Option.some.injEq, Value.int.injEq] at same
    simpa only [Int32.toInt32_toInt64] using congrArg Int64.toInt32 same
  · rw [here.1] at member
    obtain ⟨other, bound⟩ := pair.key name member
    have same := here.column here' bound
    simpa only [Wamux.BatchedReads.column, if_neg other] using same

theorem Pair.single (pair : Pair one many fixed listed cells) (content : Content) (value : Value) :
    content.rows.Pairwise fun row row' => At many fixed listed value row → ¬ At many fixed listed value row' :=
  content.unique.imp fun apart here here' => apart (pair.sameKey here here')

theorem Pair.parameters (pair : Pair one many fixed listed cells) : many.select.parameters = fixed.length + readChunk :=
  parameters_within pair.many_equals pair.many_within

theorem Pair.run_one (pair : Pair one many fixed listed cells) (rows : List StoredRow) (value : Value) :
    ∃ fetched, one.run ((cells value).map Prod.snd) rows = .ok fetched ∧ fetched.Sublist rows ∧
      ∀ row, row ∈ fetched ↔ row ∈ rows ∧ At many fixed listed value row := by
  refine ⟨_, if_pos (by rw [List.length_map, parameters_equals (pair.one_equals value) pair.one_within]), List.filter_sublist, fun row => ?_⟩
  rw [List.mem_filter, Bool.and_eq_true, chooses_equals (pair.one_equals value) pair.one_within, decide_eq_true_iff, pair.table, At]
  simp only [pair.cells, forall_eq_or_imp]
  tauto

theorem Pair.run_many (pair : Pair one many fixed listed cells) (rows : List StoredRow) (values : List Value)
    (full : values.length = readChunk) :
    ∃ fetched, many.run (fixed.map Prod.snd ++ values) rows = .ok fetched ∧ fetched.Sublist rows ∧
      ∀ row, row ∈ fetched ↔ row ∈ rows ∧ ∃ value ∈ values, At many fixed listed value row := by
  refine ⟨_, if_pos ?_, List.filter_sublist, fun row => ?_⟩
  · rw [List.length_append, List.length_map, full, pair.parameters]
  rw [List.mem_filter, Bool.and_eq_true, chooses_within pair.many_equals (full ▸ pair.many_within), decide_eq_true_iff]
  constructor
  · rintro ⟨stored, table, bound, value, member, held⟩
    exact ⟨stored, value, member, table, bound, held⟩
  · rintro ⟨stored, value, member, table, bound, held⟩
    exact ⟨stored, table, bound, value, member, held⟩

theorem Pair.alike (pair : Pair one many fixed listed cells) (content : Content) (valueOf : κ → Value)
    (readOne : κ → StoredRow → Except StoreError α) (read : StoredRow → Except StoreError (Option (κ × α)))
    (agree : ∀ key row value, row.cell listed = some (valueOf key) → readOne key row = .ok value →
      read row = .ok (some (key, value))) (plain : listed ≠ "device_id") :
    Alike content.rows (fun key => At many fixed listed (valueOf key)) many (fixed.map Prod.snd) valueOf read
      (fun key => optionalRow one ((cells (valueOf key)).map Prod.snd) (readOne key) content.rows) where
  fetched keys full := by
    obtain ⟨fetched, ran, sublist, member⟩ := pair.run_many content.rows (keys.map valueOf) (by rw [List.length_map, full])
    exact ⟨fetched, ran, sublist, fun row => by simp only [member, List.mem_map, exists_exists_and_eq_and]⟩
  single := by
    have apart (key : κ) := pair.single content (valueOf key)
    exact List.pairwise_iff_getElem.2 fun i j low low' less key => List.pairwise_iff_getElem.1 (apart key) i j low low' less
  present key row stored here result got := by
    obtain ⟨fetched, ran, sublist, member⟩ := pair.run_one content.rows (valueOf key)
    have single := (pair.single content (valueOf key)).sublist sublist
    have fetched_row := (member row).2 ⟨stored, here⟩
    simp only [optionalRow, bind_eq_ok] at got
    obtain ⟨fetched', ran', got⟩ := got
    obtain rfl : fetched = fetched' := Except.ok.inj (ran.symm.trans ran')
    cases fetched with
    | nil => cases fetched_row
    | cons first others =>
        obtain rfl : row = first := by
          rcases List.mem_cons.1 fetched_row with same | later
          · exact same
          · exact absurd here ((List.pairwise_cons.1 single).1 row later ((member first).1 (by simp)).2)
        simp only [bind_eq_ok, pure_eq_ok] at got
        obtain ⟨value, opened, rfl⟩ := got
        have held : row.cell listed = some (valueOf key) := by
          have bound := here.2.2
          rwa [Wamux.BatchedReads.column, if_neg plain] at bound
        exact ⟨value, rfl, agree key row value held opened⟩
  absent key value got := by
    obtain ⟨fetched, ran, -, member⟩ := pair.run_one content.rows (valueOf key)
    simp only [optionalRow, bind_eq_ok] at got
    obtain ⟨fetched', ran', got⟩ := got
    obtain rfl : fetched = fetched' := Except.ok.inj (ran.symm.trans ran')
    cases fetched with
    | nil => cases got
    | cons first others => exact ⟨first, (member first).1 (by simp)⟩

end Wamux.Proof.BatchedReads
