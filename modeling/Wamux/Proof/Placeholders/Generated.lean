import Wamux.Proof.Placeholders.Rewrite
import Wamux.BatchedReads.Statements

namespace Wamux.Proof.Placeholders
open Wamux.Placeholders Wamux.Runs.Parameters
open Wamux.Encryption (SealedColumn sealedColumns)
open Wamux.Encryption.Tables (readChunk)

variable {V : Type} {numbers numbers' : List Nat}

/-! ## Texts side by side -/

def Fresh (text : List Char) : Prop := ∀ c ∈ text.head?, isNameChar c = false

def Plain (text : List Char) : Prop := ∀ c ∈ text, c ≠ '$' ∧ c ≠ '?'

instance (text : List Char) : Decidable (Fresh text) := Option.decidableForallMem _

instance (text : List Char) : Decidable (Plain text) := List.decidableBAll _ text

theorem takeWhile_append_fresh {left right : List Char} {p : Char → Bool} (stops : ∀ c ∈ right.head?, p c = false) :
    (left ++ right).takeWhile p = left.takeWhile p := by
  induction left with
  | nil =>
      cases right with
      | nil => rfl
      | cons c rest => exact List.takeWhile_cons_of_neg (by rw [stops c rfl]; exact Bool.false_ne_true)
  | cons c rest ih => rw [List.cons_append, List.takeWhile_cons, List.takeWhile_cons, ih]

theorem isDigit_of_fresh {text : List Char} (fresh : Fresh text) : ∀ c ∈ text.head?, c.isDigit = false := by
  intro c first
  cases digit : c.isDigit with
  | false => rfl
  | true => exact (isNameChar_of_isDigit digit).symm.trans (fresh c first)

theorem scan_append {left right : List Char} (fresh : Fresh right) : scan (left ++ right) = scan left ++ scan right := by
  induction left with
  | nil => rfl
  | cons c rest ih =>
      rw [List.cons_append, scan, scan, takeWhile_append_fresh fresh, takeWhile_append_fresh (isDigit_of_fresh fresh), ih]
      split
      · rfl
      · split <;> rfl

theorem scan_plain {left right : List Char} (plain : Plain left) : scan (left ++ right) = scan right := by
  induction left with
  | nil => rfl
  | cons c rest ih =>
      obtain ⟨dollar, question⟩ := plain c List.mem_cons_self
      rw [List.cons_append, scan, if_neg dollar, if_neg question, ih fun c listed => plain c (List.mem_cons_of_mem _ listed)]

theorem plain_digits (n : Nat) : Plain (digits n) := by
  intro c listed
  have digit := isDigit_of_mem_digits listed
  constructor
  · rintro rfl
    cases digit
  · rintro rfl
    cases digit

theorem scan_number (n : Nat) {right : List Char} (fresh : Fresh right) :
    scan ('$' :: digits n ++ right) = .dollar (digits n) :: scan right := by
  have whole : (digits n).takeWhile isNameChar = digits n :=
    List.takeWhile_eq_self_iff.2 fun _ listed => isNameChar_of_isDigit (isDigit_of_mem_digits listed)
  rw [List.cons_append, scan, if_pos rfl, takeWhile_append_fresh fresh, whole, scan_plain (plain_digits n)]

theorem Numbered.append {left right : List Char} (numbered : Numbered left numbers) (numbered' : Numbered right numbers')
    (fresh : Fresh right) : Numbered (left ++ right) (numbers ++ numbers') where
  markers := by rw [scan_append fresh, numbered.markers, numbered'.markers, List.map_append]
  positive n listed := (List.mem_append.1 listed).elim (numbered.positive n) (numbered'.positive n)

theorem numbered_plain {text : List Char} (plain : Plain text) : Numbered text [] where
  markers := by rw [← List.append_nil text, scan_plain plain]; rfl
  positive _ listed := absurd listed List.not_mem_nil

/-! ## Lists -/

theorem scan_intercalate (numbers : List Nat) {right : List Char} (fresh : Fresh right) :
    scan ([',', ' '].intercalate (numbers.map fun n => '$' :: digits n) ++ right) =
      numbers.map (fun n => .dollar (digits n)) ++ scan right := by
  induction numbers with
  | nil => rfl
  | cons n rest ih =>
      cases rest with
      | nil =>
          rw [List.map_singleton, List.intercalate_singleton, scan_number n fresh]
          rfl
      | cons n' rest =>
          have comma : Fresh (',' :: ' ' :: ([',', ' '].intercalate ((n' :: rest).map fun n => '$' :: digits n) ++ right)) := by
            rintro c ⟨⟩
            decide
          have plain : Plain [',', ' '] := by decide
          have spaced : scan ([',', ' '] ++ ([',', ' '].intercalate ((n' :: rest).map fun n => '$' :: digits n) ++ right)) = _ :=
            scan_plain plain
          rw [List.map_cons, List.map_cons, List.intercalate_cons_cons, List.append_assoc, List.append_assoc]
          refine (scan_number n comma).trans ?_
          exact congrArg (List.cons _) (spaced.trans ih)

theorem toList_placeholder (n : Nat) : ("$" ++ toString n).toList = '$' :: digits n := by
  rw [String.toList_append]
  exact congrArg (List.cons '$') Nat.toList_repr

theorem toList_inPlaceholders (first count : Nat) :
    (inPlaceholders first count).toList = [',', ' '].intercalate ((List.range' first count).map fun n => '$' :: digits n) := by
  rw [inPlaceholders, String.toList_intercalate, List.map_map]
  refine congrArg (List.intercalate _) (List.map_congr_left fun n _ => ?_)
  exact toList_placeholder n

theorem numbered_list {tail : List Char} (plain : Plain tail) (fresh : Fresh tail) (first count : Nat) (positive : 0 < first) :
    Numbered ((inPlaceholders first count).toList ++ tail) (List.range' first count) ∧
      Fresh ((inPlaceholders first count).toList ++ tail) := by
  rw [toList_inPlaceholders]
  refine ⟨⟨?_, ?_⟩, ?_⟩
  · rw [scan_intercalate _ fresh, (numbered_plain plain).markers, List.map_nil, List.append_nil]
  · intro n listed
    exact Nat.lt_of_lt_of_le positive (List.mem_range'_1.1 listed).1
  · match count with
    | 0 => exact fresh
    | 1 =>
        rintro c ⟨⟩
        decide
    | count + 2 =>
        rintro c ⟨⟩
        decide

theorem numbered_batch {head tail : String} (numbered : Numbered head.toList numbers) (plain : Plain tail.toList)
    (fresh : Fresh tail.toList) {first : Nat} (positive : 0 < first) (count : Nat) :
    Numbered (head ++ inPlaceholders first count ++ tail).toList (numbers ++ List.range' first count) := by
  obtain ⟨listed, starts⟩ := numbered_list plain fresh first count positive
  rw [String.toList_append, String.toList_append, List.append_assoc]
  exact numbered.append listed starts

theorem numbered_opened {condition : String} (numbered : Numbered condition.toList numbers) :
    Numbered (condition ++ " IN (").toList numbers := by
  have opened : Numbered (condition ++ " IN (").toList (numbers ++ []) := by
    rw [String.toList_append]
    exact numbered.append (numbered_plain (by decide)) (by decide)
  rwa [List.append_nil] at opened

theorem numbered_selectWithin {condition : String} {first : Nat} (numbered : Numbered condition.toList numbers) (positive : 0 < first) :
    Numbered (selectWithin condition first).toList (numbers ++ List.range' first readChunk) :=
  numbered_batch (numbered_opened numbered) (by decide) (by decide) positive _

def batchedReads : List (String × Wamux.BatchedReads.Query) :=
  [(SELECT_SESSIONS, Wamux.BatchedReads.SELECT_SESSIONS), (SELECT_PREKEYS, Wamux.BatchedReads.SELECT_PREKEYS),
    (SELECT_DEVICES, Wamux.BatchedReads.SELECT_DEVICES), (SELECT_TC_TOKENS, Wamux.BatchedReads.SELECT_TC_TOKENS),
    (SELECT_MUTATION_MACS, Wamux.BatchedReads.SELECT_MUTATION_MACS)]

theorem numbered_batchedReads : ∀ read ∈ batchedReads, Numbered read.1.toList read.2.select.numbers := by
  have one {condition : String} (numbered : Numbered condition.toList [1]) := numbered_selectWithin numbered (Nat.succ_pos 1)
  have two {condition : String} (numbered : Numbered condition.toList [1, 2]) := numbered_selectWithin numbered (Nat.succ_pos 2)
  simp only [batchedReads, List.forall_mem_cons]
  refine ⟨one ?_, one ?_, one ?_, one ?_, two ?_, fun _ listed => absurd listed List.not_mem_nil⟩
  · exact numbered_literal rfl (by decide +kernel) (by decide)
  · exact numbered_literal rfl (by decide +kernel) (by decide)
  · exact numbered_literal rfl (by decide +kernel) (by decide)
  · exact numbered_literal rfl (by decide +kernel) (by decide)
  · exact numbered_literal rfl (by decide +kernel) (by decide)

theorem bound_rest (leading list : List V) :
    bound (withList leading list) (List.range' (leading.length + 1) list.length) = list.map some := by
  refine List.ext_getElem? fun i => ?_
  rw [bound, withList, List.getElem?_map, List.getElem?_map]
  by_cases inside : i < list.length
  · have past : leading.length + 1 + i - 1 - leading.length = i := by omega
    rw [List.getElem?_range' inside, Option.map_some, Nat.one_mul, List.getElem?_append_right (by omega), past,
      List.getElem?_eq_getElem inside, Option.map_some]
  · rw [List.getElem?_eq_none (by rw [List.length_range']; omega), List.getElem?_eq_none (by omega), Option.map_none,
      Option.map_none]

theorem bound_leading {leading list : List V} (positive : ∀ n ∈ numbers, 0 < n) (low : ∀ n ∈ numbers, n ≤ leading.length) :
    bound (withList leading list) numbers = bound leading numbers := by
  refine List.map_congr_left fun n listed => ?_
  have above := positive n listed
  have below := low n listed
  rw [withList, List.getElem?_append_left (by omega)]

theorem bound_append (binds : List V) (slots slots' : List Nat) : bound binds (slots ++ slots') = bound binds slots ++ bound binds slots' :=
  List.map_append

/-! ## Rewrites of a sealed column -/

theorem Numbered.after {text right : List Char} (plain : Plain text) (numbered : Numbered right numbers) :
    Numbered (text ++ right) numbers := ⟨(scan_plain plain).trans numbered.markers, numbered.positive⟩

theorem Numbered.cons {right : List Char} {n : Nat} (positive : 0 < n) (numbered : Numbered right numbers) (fresh : Fresh right) :
    Numbered ('$' :: digits n ++ right) (n :: numbers) where
  markers := by rw [scan_number n fresh, numbered.markers, List.map_cons]
  positive n' listed := by
    rcases List.mem_cons.1 listed with rfl | later
    · exact positive
    · exact numbered.positive n' later

theorem plain_append {left right : List Char} (plain : Plain left) (plain' : Plain right) : Plain (left ++ right) :=
  fun c listed => (List.mem_append.1 listed).elim (plain c) (plain' c)

theorem numbered_keyConditions (names : List String) (plain : ∀ name ∈ names, Plain name.toList) {position : Nat}
    (positive : 0 < position) :
    Numbered (keyConditions position names).toList (List.range' position names.length) ∧ Fresh (keyConditions position names).toList := by
  induction names generalizing position with
  | nil =>
      refine ⟨numbered_plain ?_, ?_⟩
      · intro c listed
        cases listed
      · rintro c ⟨⟩
  | cons name rest ih =>
      obtain ⟨later, starts⟩ := ih (fun name listed => plain name (List.mem_cons_of_mem _ listed)) (Nat.succ_pos position)
      have number : (" = $" ++ toString position).toList = " = ".toList ++ '$' :: digits position := by
        rw [String.toList_append]
        exact congrArg (" = $".toList ++ ·) Nat.toList_repr
      have text : (keyConditions position (name :: rest)).toList =
          " AND ".toList ++ name.toList ++ " = ".toList ++ ('$' :: digits position ++ (keyConditions (position + 1) rest).toList) := by
        rw [keyConditions, String.append_assoc, String.append_assoc, String.append_assoc, String.toList_append, String.toList_append,
          ← String.append_assoc, String.toList_append, number]
        simp only [List.append_assoc]
      have before : Plain (" AND ".toList ++ name.toList ++ " = ".toList) :=
        plain_append (plain_append (by decide) (plain name List.mem_cons_self)) (by decide)
      rw [text]
      refine ⟨(later.cons positive starts).after before, ?_⟩
      rintro c ⟨⟩
      decide

def PlainNames (column : SealedColumn) : Prop :=
  Plain column.table.toList ∧ Plain column.column.toList ∧ ∀ name ∈ keyNames column, Plain name.toList

instance (column : SealedColumn) : Decidable (PlainNames column) := inferInstanceAs (Decidable (_ ∧ _ ∧ ∀ name ∈ keyNames column, _))

theorem numbered_updateRow {column : SealedColumn} (plain : PlainNames column) :
    Numbered (updateRow column).toList (List.range' 1 (2 + (keyNames column).length)) := by
  obtain ⟨table, name, names⟩ := plain
  obtain ⟨keys, starts⟩ := numbered_keyConditions (keyNames column) names (Nat.succ_pos 2)
  have first : Numbered " = $1 WHERE device_id = $2".toList [1, 2] := ⟨by decide +kernel, by decide⟩
  have before : Plain ("UPDATE ".toList ++ column.table.toList ++ " SET ".toList ++ column.column.toList) :=
    plain_append (plain_append (plain_append (by decide) table) (by decide)) name
  have text : (updateRow column).toList = "UPDATE ".toList ++ column.table.toList ++ " SET ".toList ++ column.column.toList ++
      (" = $1 WHERE device_id = $2".toList ++ (keyConditions 3 (keyNames column)).toList) := by
    simp only [updateRow, String.toList_append, List.append_assoc]
  rw [text, ← List.range'_append_1]
  exact (first.append keys starts).after before

theorem plainNames_sealed : ∀ column ∈ sealedColumns, PlainNames column := by
  decide +kernel

/-- Every statement with an `IN` list, and every rewrite of a sealed column, binds on turso what it is given, in
the order it is given: the leading values by their numbers, then the list; the blob, the account and the keys. -/
theorem generated_bind :
    (∀ (head tail : String) (numbers : List Nat), Numbered head.toList numbers → Plain tail.toList → Fresh tail.toList →
      ∀ leading list : List V, (∀ n ∈ numbers, n ≤ leading.length) →
        bound (withList leading list)
          (tursoSlots (tursoPlaceholders (head ++ inPlaceholders (leading.length + 1) list.length ++ tail))) =
            bound leading numbers ++ list.map some) ∧
    (∀ read ∈ batchedReads, tursoSlots (tursoPlaceholders read.1) = read.2.select.numbers) ∧
    ∀ column ∈ sealedColumns, ∀ binds : List V, binds.length = 2 + column.key.length →
      bound binds (tursoSlots (tursoPlaceholders (updateRow column))) = binds.map some := by
  refine ⟨?_, fun read listed => (numbered_batchedReads read listed).rewritten, ?_⟩
  · intro head tail numbers numbered plain fresh leading list low
    have all := numbered_batch numbered plain fresh (Nat.succ_pos leading.length) list.length
    rw [all.rewritten, bound_append, bound_leading numbered.positive low, bound_rest]
  · intro column listed binds length
    have names : (keyNames column).length = column.key.length := List.length_map ..
    rw [(numbered_updateRow (plainNames_sealed column listed)).rewritten, names, ← length]
    exact bound_rest [] binds

theorem generated_bind_batchedReads :
    (∀ sql ∈ [SELECT_SESSIONS, SELECT_PREKEYS, SELECT_DEVICES, SELECT_TC_TOKENS],
      bound (withList [0] (List.range readChunk)) (tursoSlots (tursoPlaceholders sql)) =
        some 0 :: (List.range readChunk).map some) ∧
    bound (withList [0, 1] (List.range readChunk)) (tursoSlots (tursoPlaceholders SELECT_MUTATION_MACS)) =
      some 0 :: some 1 :: (List.range readChunk).map some := by
  have binds {condition : String} {numbers leading : List Nat} (numbered : Numbered condition.toList numbers)
      (low : ∀ n ∈ numbers, n ≤ leading.length) :
      bound (withList leading (List.range readChunk)) (tursoSlots (tursoPlaceholders (selectWithin condition (leading.length + 1)))) =
        bound leading numbers ++ (List.range readChunk).map some := by
    have all := generated_bind.1 (condition ++ " IN (") ")" numbers (numbered_opened numbered) (by decide) (by decide)
      leading (List.range readChunk) low
    rwa [List.length_range] at all
  have one {condition : String} (numbered : Numbered condition.toList [1]) :
      bound (withList [0] (List.range readChunk)) (tursoSlots (tursoPlaceholders (selectWithin condition 2))) =
        some 0 :: (List.range readChunk).map some := binds numbered (by decide)
  have two {condition : String} (numbered : Numbered condition.toList [1, 2]) :
      bound (withList [0, 1] (List.range readChunk)) (tursoSlots (tursoPlaceholders (selectWithin condition 3))) =
        some 0 :: some 1 :: (List.range readChunk).map some := binds numbered (by decide)
  refine ⟨?_, two (numbered_literal rfl (by decide +kernel) (by decide))⟩
  intro sql listed
  simp only [List.mem_cons, List.not_mem_nil, or_false] at listed
  rcases listed with rfl | rfl | rfl | rfl
  · exact one (numbered_literal rfl (by decide +kernel) (by decide))
  · exact one (numbered_literal rfl (by decide +kernel) (by decide))
  · exact one (numbered_literal rfl (by decide +kernel) (by decide))
  · exact one (numbered_literal rfl (by decide +kernel) (by decide))

end Wamux.Proof.Placeholders
