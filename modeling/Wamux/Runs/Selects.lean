import Mathlib.Data.List.Basic

namespace Wamux.Runs.Selects
variable {γ ν : Type} [DecidableEq ν]

/-- `column = $n AND … AND column IN ($n, …)` -/
structure Select (γ : Type) where
  equals : List (γ × Nat)
  within : Option (γ × List Nat)

/-- `NULL` is equal to nothing. -/
def equal : Option ν → Option ν → Bool
  | some cell, some bind => cell = bind
  | _, _ => false

def bound (binds : List ν) : Nat → Option ν
  | 0 => none
  | n + 1 => binds[n]?

namespace Select

def numbers (select : Select γ) : List Nat := select.equals.map Prod.snd ++ (select.within.map Prod.snd).getD []

def parameters (select : Select γ) : Nat := select.numbers.foldr max 0

def chooses (select : Select γ) (cell : γ → Option ν) (binds : List ν) : Bool :=
  select.equals.all (fun (column, n) => equal (cell column) (bound binds n)) &&
    select.within.all fun (column, numbers) => numbers.any fun n => equal (cell column) (bound binds n)

end Select

theorem equal_eq_true {cell bind : Option ν} : equal cell bind = true ↔ ∃ value, cell = some value ∧ bind = some value := by
  cases cell <;> cases bind <;> simp [equal, eq_comm]

omit [DecidableEq ν] in
theorem bound_rest (leading rest : List ν) (i : Nat) : bound (leading ++ rest) (leading.length + 1 + i) = rest[i]? := by
  rw [Nat.add_right_comm, bound, List.getElem?_append_right (Nat.le_add_right ..), Nat.add_sub_cancel_left]

theorem exists_equal_rest (cell : Option ν) (leading rest : List ν) :
    (∃ n ∈ List.range' (leading.length + 1) rest.length, equal cell (bound (leading ++ rest) n) = true) ↔
      ∃ value ∈ rest, cell = some value := by
  simp only [List.mem_range', equal_eq_true]
  constructor
  · rintro ⟨n, ⟨i, low, rfl⟩, value, held, at_n⟩
    rw [Nat.one_mul, bound_rest] at at_n
    exact ⟨value, List.mem_of_getElem? at_n, held⟩
  · rintro ⟨value, member, held⟩
    obtain ⟨i, low, rfl⟩ := List.mem_iff_getElem.1 member
    exact ⟨_, ⟨i, low, rfl⟩, rest[i], held, by rw [Nat.one_mul, bound_rest, List.getElem?_eq_getElem low]⟩

/-! ## Columns that are bound in order -/

theorem equals_in_order (cell : γ → Option ν) (leading : List ν) (fixed : List (γ × ν)) (rest : List ν) :
    (∀ entry ∈ (fixed.map Prod.fst).zipIdx (leading.length + 1),
      equal (cell entry.1) (bound (leading ++ (fixed.map Prod.snd ++ rest)) entry.2) = true) ↔
      ∀ entry ∈ fixed, cell entry.1 = some entry.2 := by
  induction fixed generalizing leading with
  | nil => simp
  | cons first fixed ih =>
      have next := ih (leading ++ [first.2])
      rw [List.length_append, List.length_singleton, List.append_assoc] at next
      have here : bound (leading ++ (first.2 :: (fixed.map Prod.snd ++ rest))) (leading.length + 1) = some first.2 :=
        bound_rest leading _ 0
      have compared : equal (cell first.1) (some first.2) = true ↔ cell first.1 = some first.2 := by simp [equal_eq_true]
      simp only [List.map_cons, List.zipIdx_cons, List.forall_mem_cons, List.cons_append, here]
      exact and_congr compared next

theorem foldr_max_range' (first count : Nat) : (List.range' first (count + 1)).foldr max 0 = first + count := by
  induction count generalizing first with
  | zero => simp
  | succ count ih =>
      rw [List.range'_succ, List.foldr_cons, ih]
      omega

variable {select : Select γ} {cell : γ → Option ν} {fixed : List (γ × ν)}

theorem chooses_equals (equals : select.equals = (fixed.map Prod.fst).zipIdx 1) (within : select.within = none) :
    select.chooses cell (fixed.map Prod.snd) = true ↔ ∀ entry ∈ fixed, cell entry.1 = some entry.2 := by
  have in_order := equals_in_order cell [] fixed []
  rw [List.nil_append, List.append_nil] at in_order
  rw [← in_order, Select.chooses, equals, within]
  simp

theorem chooses_within {column : γ} {values : List ν} (equals : select.equals = (fixed.map Prod.fst).zipIdx 1)
    (within : select.within = some (column, List.range' (fixed.length + 1) values.length)) :
    select.chooses cell (fixed.map Prod.snd ++ values) = true ↔
      (∀ entry ∈ fixed, cell entry.1 = some entry.2) ∧ ∃ value ∈ values, cell column = some value := by
  have in_order := equals_in_order cell [] fixed values
  have listed := exists_equal_rest (cell column) (fixed.map Prod.snd) values
  rw [List.length_map] at listed
  rw [List.nil_append] at in_order
  rw [← in_order, ← listed, Select.chooses, equals, within]
  simp

omit [DecidableEq ν] in
theorem parameters_equals (equals : select.equals = (fixed.map Prod.fst).zipIdx 1) (within : select.within = none) :
    select.parameters = fixed.length := by
  rw [Select.parameters, Select.numbers, equals, within, List.zipIdx_map_snd, List.length_map]
  cases fixed with
  | nil => rfl
  | cons first fixed =>
      rw [Option.map_none, Option.getD_none, List.append_nil, List.length_cons, foldr_max_range', Nat.add_comm]

omit [DecidableEq ν] in
theorem parameters_within {column : γ} {count : Nat} (equals : select.equals = (fixed.map Prod.fst).zipIdx 1)
    (within : select.within = some (column, List.range' (fixed.length + 1) (count + 1))) :
    select.parameters = fixed.length + (count + 1) := by
  have one_range : List.range' 1 fixed.length ++ List.range' (fixed.length + 1) (count + 1) =
      List.range' 1 (fixed.length + count + 1) := by
    rw [Nat.add_comm fixed.length 1, List.range'_append_1, Nat.add_assoc]
  rw [Select.parameters, Select.numbers, equals, within, List.zipIdx_map_snd, List.length_map, Option.map_some,
    Option.getD_some, one_range, foldr_max_range', Nat.add_comm 1, Nat.add_assoc]

end Wamux.Runs.Selects
