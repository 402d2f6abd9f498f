import Wamux.Placeholders.Text
import Mathlib.Data.List.TakeWhile

namespace Wamux.Proof.Placeholders
open Wamux.Placeholders Wamux.Runs.Parameters

variable {V : Type} {numbers : List Nat}

def digits (n : Nat) : List Char := Nat.toDigits 10 n

theorem isDigit_of_mem_digits {n : Nat} {c : Char} (listed : c ∈ digits n) : c.isDigit = true :=
  Nat.isDigit_of_mem_toDigits (by decide) (by decide) listed

theorem ofDigitChars_digits (n : Nat) : Nat.ofDigitChars 10 (digits n) 0 = n :=
  Nat.ofDigitChars_toDigits (by decide) (by decide)

theorem digits_injective : Function.Injective digits := by
  intro n n' same
  rw [← ofDigitChars_digits n, same, ofDigitChars_digits]

theorem digits_ne_nil (n : Nat) : digits n ≠ [] := Nat.toDigits_ne_nil

/-- Every `$` starts a number, and there is no `?`. -/
structure Numbered (sql : List Char) (numbers : List Nat) : Prop where
  markers : scan sql = numbers.map fun n => .dollar (digits n)
  positive : ∀ n ∈ numbers, 0 < n

/-! ## Markers -/

theorem number?_digits (n : Nat) : Marker.number? (.dollar (digits n)) = some n := by
  have all : (digits n).all Char.isDigit = true := List.all_eq_true.2 fun _ listed => isDigit_of_mem_digits listed
  rw [Marker.number?, if_pos ⟨digits_ne_nil n, all⟩, ofDigitChars_digits]

theorem parameter_digits (n : Nat) : Marker.parameter (.question (digits n)) = .numbered n := by
  rw [Marker.parameter, ofDigitChars_digits]
  exact digits_ne_nil n

theorem mapM_number? (numbers : List Nat) : (numbers.map fun n => Marker.dollar (digits n)).mapM Marker.number? = some numbers := by
  induction numbers with
  | nil => rfl
  | cons n rest ih => rw [List.map_cons, List.mapM_cons, number?_digits, ih]; rfl

/-! ## The rewrite -/

theorem isNameChar_of_isDigit {c : Char} (digit : c.isDigit = true) : isNameChar c = true := by
  rw [isNameChar, Char.isAlphanum, digit, Bool.or_true, Bool.true_or]

theorem isDigit_questioned (c : Char) : (questioned c).isDigit = c.isDigit := by
  rw [questioned]
  split
  · rename_i dollar
    subst dollar
    rfl
  · rfl

theorem takeWhile_questioned (sql : List Char) :
    (sql.map questioned).takeWhile Char.isDigit = (sql.takeWhile isNameChar).takeWhile Char.isDigit := by
  induction sql with
  | nil => rfl
  | cons c rest ih =>
      rw [List.map_cons, List.takeWhile_cons, isDigit_questioned]
      cases digit : c.isDigit with
      | true =>
          have kept : questioned c = c := by
            rw [questioned, if_neg]
            rintro rfl
            cases digit
          rw [List.takeWhile_cons_of_pos (isNameChar_of_isDigit digit), List.takeWhile_cons_of_pos digit, ih, if_pos rfl, kept]
      | false =>
          rw [if_neg Bool.false_ne_true, List.takeWhile_cons]
          split
          · rw [List.takeWhile_cons_of_neg (by rw [digit]; exact Bool.false_ne_true)]
          · rfl

def Marker.questioned : Marker → Marker
  | .dollar name => .question (name.takeWhile Char.isDigit)
  | .question digits => .question digits

def Marker.isDollar : Marker → Bool
  | .dollar _ => true
  | .question _ => false

theorem scan_questioned {sql : List Char} (dollars : ∀ marker ∈ scan sql, Marker.isDollar marker = true) :
    scan (sql.map questioned) = (scan sql).map Marker.questioned := by
  induction sql with
  | nil => rfl
  | cons c rest ih =>
      rw [List.map_cons, scan, scan, takeWhile_questioned]
      by_cases dollar : c = '$'
      · subst dollar
        rw [scan, if_pos rfl] at dollars
        rw [if_pos rfl, List.map_cons, ih fun marker listed => dollars marker (List.mem_cons_of_mem _ listed)]
        rfl
      · rw [scan, if_neg dollar] at dollars
        have kept : questioned c = c := if_neg dollar
        rw [kept, if_neg dollar, if_neg dollar]
        by_cases question : c = '?'
        · rw [if_pos question] at dollars
          cases dollars _ List.mem_cons_self
        · rw [if_neg question] at dollars
          rw [if_neg question, if_neg question, ih dollars]

variable {sql : String}

theorem Numbered.sqlxSlots (numbered : Numbered sql.toList numbers) : sqlxSlots sql = some numbers := by
  rw [Wamux.Placeholders.sqlxSlots, numbered.markers, mapM_number?]

theorem Numbered.rewritten (numbered : Numbered sql.toList numbers) : tursoSlots (tursoPlaceholders sql) = numbers := by
  have dollars : ∀ marker ∈ scan sql.toList, Marker.isDollar marker = true := by
    intro marker listed
    rw [numbered.markers] at listed
    obtain ⟨n, -, rfl⟩ := List.mem_map.1 listed
    rfl
  have whole (n : Nat) : (digits n).takeWhile Char.isDigit = digits n :=
    List.takeWhile_eq_self_iff.2 fun _ listed => isDigit_of_mem_digits listed
  have markers : (scan (sql.toList.map questioned)).map Marker.parameter = numbers.map .numbered := by
    rw [scan_questioned dollars, numbered.markers, List.map_map, List.map_map]
    refine List.map_congr_left fun n _ => ?_
    rw [Function.comp_apply, Function.comp_apply, Marker.questioned, whole, parameter_digits]
  rw [tursoSlots, tursoPlaceholders, String.toList_ofList, markers, slots_numbered]

theorem Numbered.raw (numbered : Numbered sql.toList numbers) :
    tursoSlots sql = slots (numbers.map fun n => .named (digits n)) := by
  rw [tursoSlots, numbered.markers, List.map_map]
  rfl

theorem numbered_literal {chars : List Char} (spelled : sql = String.ofList chars)
    (markers : scan chars = numbers.map fun n => .dollar (digits n)) (positive : ∀ n ∈ numbers, 0 < n) :
    Numbered sql.toList numbers := by
  rw [spelled, String.toList_ofList]
  exact ⟨markers, positive⟩

/-- For every text whose every `$` starts a number: sqlx binds by these numbers, and so does turso once the
text is rewritten; as it is, turso binds the values that sqlx does, whatever they are, exactly when the numbers
first appear in order. -/
theorem rewrite_exact [Nontrivial V] (numbered : Numbered sql.toList numbers) :
    sqlxSlots sql = some numbers ∧ tursoSlots (tursoPlaceholders sql) = numbers ∧
      ((∀ binds : List V, (∀ n ∈ numbers, n ≤ binds.length) →
        bound binds (tursoSlots sql) = bound binds numbers) ↔ InOrder numbers) := by
  refine ⟨numbered.sqlxSlots, numbered.rewritten, ?_⟩
  rw [← slots_spelled_iff digits_injective, ← numbered.raw]
  constructor
  · intro same
    have raw := numbered.raw.trans (slots_spelled digits_injective numbers)
    refine bound_inj ?_ ?_ fun binds long => same binds fun n listed => long n (List.mem_append_right _ listed)
    · rw [raw, List.length_map]
    · intro slot listed
      rcases List.mem_append.1 listed with named | number
      · rw [raw] at named
        obtain ⟨n, -, rfl⟩ := List.mem_map.1 named
        exact Nat.succ_pos _
      · exact numbered.positive slot number
  · intro same binds _
    rw [same]

set_option maxRecDepth 8000 in
theorem numbered_touch : Numbered TOUCH_SENDER_TIMESTAMP.toList [1, 5, 2, 2, 3, 4, 2, 2, 2, 2] :=
  numbered_literal rfl (by decide +kernel) (by decide)

theorem rewrite_exact_touch : ¬InOrder [1, 5, 2, 2, 3, 4, 2, 2, 2, 2] ∧
    sqlxSlots TOUCH_SENDER_TIMESTAMP = some [1, 5, 2, 2, 3, 4, 2, 2, 2, 2] ∧
    tursoSlots (tursoPlaceholders TOUCH_SENDER_TIMESTAMP) = [1, 5, 2, 2, 3, 4, 2, 2, 2, 2] ∧
      ((∀ binds : List Nat, (∀ n ∈ [1, 5, 2, 2, 3, 4, 2, 2, 2, 2], n ≤ binds.length) →
        bound binds (tursoSlots TOUCH_SENDER_TIMESTAMP) = bound binds [1, 5, 2, 2, 3, 4, 2, 2, 2, 2]) ↔
          InOrder [1, 5, 2, 2, 3, 4, 2, 2, 2, 2]) :=
  ⟨by decide, rewrite_exact numbered_touch⟩

end Wamux.Proof.Placeholders
