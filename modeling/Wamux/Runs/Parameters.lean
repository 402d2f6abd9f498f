import Mathlib.Algebra.BigOperators.Group.List.Basic
import Mathlib.Algebra.Order.Ring.Nat
import Mathlib.Data.List.Nodup
import Mathlib.Data.List.Range

/-!
# Parameters and the values they are bound to

A statement's parameters take slots in a list of values: a number names its slot, a name takes the slot
it was given where it first appeared, the one after the largest so far.
-/

namespace Wamux.Runs.Parameters
variable {ν V : Type} [DecidableEq ν]

inductive Parameter (ν : Type) where
  | numbered (number : Nat)
  | named (name : ν)
  | anonymous

structure Assigned (ν : Type) where
  largest : Nat := 0
  names : List (ν × Nat) := []

def Assigned.slot (assigned : Assigned ν) : Parameter ν → Nat
  | .numbered number => number
  | .named name => (assigned.names.lookup name).getD (assigned.largest + 1)
  | .anonymous => assigned.largest + 1

def Assigned.next (assigned : Assigned ν) (parameter : Parameter ν) : Assigned ν where
  largest := max assigned.largest (assigned.slot parameter)
  names := match parameter with
    | .named name => (name, assigned.slot (.named name)) :: assigned.names
    | _ => assigned.names

def slotsFrom (assigned : Assigned ν) : List (Parameter ν) → List Nat
  | [] => []
  | parameter :: rest => assigned.slot parameter :: slotsFrom (assigned.next parameter) rest

def slots (parameters : List (Parameter ν)) : List Nat := slotsFrom {} parameters

/-- What the parameters in these slots are bound to; slots count from one. -/
def bound (binds : List V) (slots : List Nat) : List (Option V) := slots.map fun slot => binds[slot - 1]?

/-! ## Numbers -/

theorem slotsFrom_numbered (assigned : Assigned ν) (numbers : List Nat) :
    slotsFrom assigned (numbers.map .numbered) = numbers := by
  induction numbers generalizing assigned with
  | nil => rfl
  | cons number rest ih => rw [List.map_cons, slotsFrom, ih, Assigned.slot]

theorem slots_numbered (numbers : List Nat) : slots (numbers.map (Parameter.numbered (ν := ν))) = numbers :=
  slotsFrom_numbered {} numbers

/-! ## Names -/

def noted (seen : List ν) (name : ν) : List ν := if name ∈ seen then seen else seen ++ [name]

def firsts (names : List ν) : List ν := names.foldl noted []

theorem nodup_noted {seen : List ν} (nodup : seen.Nodup) (name : ν) : (noted seen name).Nodup := by
  rw [noted]
  split
  · exact nodup
  · rename_i fresh
    exact nodup.append (List.nodup_singleton name) (List.disjoint_singleton.2 fresh)

theorem mem_noted {seen : List ν} {name other : ν} : other ∈ noted seen name ↔ other ∈ seen ∨ other = name := by
  rw [noted]
  split
  · rename_i present
    exact ⟨.inl, fun either => either.elim id fun same => same ▸ present⟩
  · rw [List.mem_append, List.mem_singleton]

theorem nodup_foldl {seen : List ν} (nodup : seen.Nodup) (names : List ν) : (names.foldl noted seen).Nodup := by
  induction names generalizing seen with
  | nil => exact nodup
  | cons name rest ih => exact ih (nodup_noted nodup name)

theorem mem_foldl {seen names : List ν} {name : ν} : name ∈ names.foldl noted seen ↔ name ∈ seen ∨ name ∈ names := by
  induction names generalizing seen with
  | nil => simp
  | cons first rest ih => rw [List.foldl_cons, ih, mem_noted, List.mem_cons, or_assoc]

theorem idxOf_noted {seen : List ν} {name other : ν} (present : other ∈ seen) :
    (noted seen name).idxOf other = seen.idxOf other := by
  rw [noted]
  split
  · rfl
  · exact List.idxOf_append_of_mem present

theorem idxOf_foldl {seen names : List ν} {name : ν} (present : name ∈ seen) :
    (names.foldl noted seen).idxOf name = seen.idxOf name := by
  induction names generalizing seen with
  | nil => rfl
  | cons first rest ih => rw [List.foldl_cons, ih (mem_noted.2 (.inl present)), idxOf_noted present]

structure Counts (assigned : Assigned ν) (seen : List ν) : Prop where
  largest : assigned.largest = seen.length
  known : ∀ name ∈ seen, assigned.names.lookup name = some (seen.idxOf name + 1)
  fresh : ∀ name, name ∉ seen → assigned.names.lookup name = none

theorem Counts.slot {assigned : Assigned ν} {seen : List ν} (counts : Counts assigned seen) (name : ν) :
    assigned.slot (.named name) = (noted seen name).idxOf name + 1 := by
  by_cases present : name ∈ seen
  · rw [Assigned.slot, counts.known name present, Option.getD_some, idxOf_noted present]
  · rw [Assigned.slot, counts.fresh name present, Option.getD_none, counts.largest, noted, if_neg present,
      List.idxOf_append_of_notMem present, List.idxOf_cons_self, Nat.add_zero]

theorem Counts.next {assigned : Assigned ν} {seen : List ν} (counts : Counts assigned seen) (name : ν) :
    Counts (assigned.next (.named name)) (noted seen name) := by
  constructor
  · rw [Assigned.next, counts.slot, counts.largest]
    by_cases present : name ∈ seen
    · have below := List.idxOf_lt_length_of_mem present
      rw [idxOf_noted present, noted, if_pos present]
      exact Nat.max_eq_left below
    · rw [noted, if_neg present, List.idxOf_append_of_notMem present, List.idxOf_cons_self, List.length_append, List.length_singleton]
      exact Nat.max_eq_right (Nat.le_succ _)
  · intro other listed
    show ((name, assigned.slot (.named name)) :: assigned.names).lookup other = _
    by_cases same : other = name
    · subst same
      rw [List.lookup_cons_self, counts.slot]
    · have present : other ∈ seen := (mem_noted.1 listed).resolve_right same
      rw [List.lookup_cons, beq_false_of_ne same, counts.known other present, idxOf_noted present]
  · intro other missing
    have absent := fun either => missing (mem_noted.2 either)
    show ((name, assigned.slot (.named name)) :: assigned.names).lookup other = _
    rw [List.lookup_cons, beq_false_of_ne fun same => absent (.inr same), counts.fresh other fun present => absent (.inl present)]

theorem slotsFrom_named {assigned : Assigned ν} {seen : List ν} (counts : Counts assigned seen) (names : List ν) :
    slotsFrom assigned (names.map .named) = names.map fun name => (names.foldl noted seen).idxOf name + 1 := by
  induction names generalizing assigned seen with
  | nil => rfl
  | cons name rest ih =>
      have here : name ∈ noted seen name := mem_noted.2 (.inr rfl)
      rw [List.map_cons, slotsFrom, ih (counts.next name), counts.slot, List.map_cons, List.foldl_cons, idxOf_foldl here]

theorem slots_named (names : List ν) : slots (names.map .named) = names.map fun name => (firsts names).idxOf name + 1 := by
  refine slotsFrom_named ⟨rfl, ?_, fun _ _ => rfl⟩ names
  intro name present
  cases present

/-! ## Numbers spelled as names -/

/-- Read by their first appearance, the numbers are one, two, three and so on. -/
def InOrder (numbers : List Nat) : Prop := firsts numbers = List.range' 1 (firsts numbers).length

instance (numbers : List Nat) : Decidable (InOrder numbers) := inferInstanceAs (Decidable (_ = _))

theorem noted_map {spell : Nat → ν} (injective : Function.Injective spell) (seen : List Nat) (number : Nat) :
    noted (seen.map spell) (spell number) = (noted seen number).map spell := by
  by_cases present : number ∈ seen
  · rw [noted, noted, if_pos present, if_pos (List.mem_map_of_mem present)]
  · rw [noted, noted, if_neg present, if_neg fun spelled => present ((List.mem_map_of_injective injective).1 spelled),
      List.map_append, List.map_singleton]

theorem foldl_map {spell : Nat → ν} (injective : Function.Injective spell) (numbers seen : List Nat) :
    (numbers.map spell).foldl noted (seen.map spell) = (numbers.foldl noted seen).map spell := by
  induction numbers generalizing seen with
  | nil => rfl
  | cons number rest ih => rw [List.map_cons, List.foldl_cons, List.foldl_cons, noted_map injective, ih]

theorem idxOf_map {spell : Nat → ν} (injective : Function.Injective spell) (numbers : List Nat) (number : Nat) :
    (numbers.map spell).idxOf (spell number) = numbers.idxOf number := by
  induction numbers with
  | nil => rfl
  | cons first rest ih =>
      by_cases same : first = number
      · rw [same, List.map_cons, List.idxOf_cons_self, List.idxOf_cons_self]
      · rw [List.map_cons, List.idxOf_cons_ne _ fun spelled => same (injective spelled), List.idxOf_cons_ne _ same, ih]

theorem slots_spelled {spell : Nat → ν} (injective : Function.Injective spell) (numbers : List Nat) :
    slots (numbers.map fun number => .named (spell number)) = numbers.map fun number => (firsts numbers).idxOf number + 1 := by
  have named : numbers.map (fun number => Parameter.named (spell number)) = (numbers.map spell).map .named := List.map_map.symm
  rw [named, slots_named, List.map_map]
  refine List.map_congr_left fun number _ => ?_
  rw [Function.comp_apply, firsts, ← List.map_nil, foldl_map injective, idxOf_map injective, firsts]

/-- Names that spell numbers take the slots of these numbers when they first appear in order, and only then. -/
theorem slots_spelled_iff {spell : Nat → ν} (injective : Function.Injective spell) (numbers : List Nat) :
    slots (numbers.map fun number => .named (spell number)) = numbers ↔ InOrder numbers := by
  have nodup : (firsts numbers).Nodup := nodup_foldl List.nodup_nil numbers
  have member (number : Nat) : number ∈ firsts numbers ↔ number ∈ numbers := by
    rw [firsts, mem_foldl]
    exact or_iff_right List.not_mem_nil
  rw [slots_spelled injective]
  constructor
  · intro same
    have all : ∀ number ∈ numbers, (firsts numbers).idxOf number + 1 = number :=
      List.map_inj_left.1 (same.trans (List.map_id numbers).symm)
    refine List.ext_getElem (by rw [List.length_range']) fun i inside _ => ?_
    have here := all _ ((member _).1 (List.getElem_mem inside))
    rw [nodup.idxOf_getElem] at here
    rw [List.getElem_range', Nat.one_mul, ← here, Nat.add_comm]
  · intro ordered
    have all : ∀ number ∈ numbers, (firsts numbers).idxOf number + 1 = number := by
      intro number listed
      have inside := List.idxOf_lt_length_of_mem ((member number).2 listed)
      have here : (firsts numbers)[(firsts numbers).idxOf number]? = some number := by
        rw [List.getElem?_eq_getElem inside, List.getElem_idxOf inside]
      rw [InOrder] at ordered
      generalize (firsts numbers).idxOf number = i at inside here
      rw [ordered, List.getElem?_range' inside, Option.some.injEq] at here
      omega
    exact (List.map_congr_left all).trans (List.map_id numbers)

/-! ## Values -/

theorem le_sum_of_mem {slots : List Nat} {slot : Nat} (listed : slot ∈ slots) : slot ≤ slots.sum := by
  induction slots with
  | nil => cases listed
  | cons first rest ih =>
      rw [List.sum_cons]
      rcases List.mem_cons.1 listed with rfl | later
      · exact Nat.le_add_right _ _
      · exact Nat.le_add_left_of_le (ih later)

theorem bound_inj [Nontrivial V] {slots slots' : List Nat} (length : slots.length = slots'.length)
    (positive : ∀ slot ∈ slots ++ slots', 0 < slot)
    (same : ∀ binds : List V, (∀ slot ∈ slots ++ slots', slot ≤ binds.length) → bound binds slots = bound binds slots') :
    slots = slots' := by
  obtain ⟨v, v', differ⟩ := exists_pair_ne V
  refine List.ext_getElem length fun i inside inside' => ?_
  have listed : slots[i] ∈ slots ++ slots' := List.mem_append_left _ (List.getElem_mem inside)
  have listed' : slots'[i] ∈ slots ++ slots' := List.mem_append_right _ (List.getElem_mem inside')
  -- the slot at `i` alone holds `v'`
  let binds : List V := (List.replicate (slots ++ slots').sum v).set (slots[i] - 1) v'
  have long : binds.length = (slots ++ slots').sum := by rw [List.length_set, List.length_replicate]
  have agree := congrArg (·[i]?) (same binds fun slot listed => long ▸ le_sum_of_mem listed)
  simp only [bound, List.getElem?_map, List.getElem?_eq_getElem inside, List.getElem?_eq_getElem inside', Option.map_some,
    Option.some.injEq] at agree
  have above := positive _ listed
  have above' := positive _ listed'
  have below := le_sum_of_mem listed
  have below' := le_sum_of_mem listed'
  have here : binds[slots[i] - 1]? = some v' := by
    rw [List.getElem?_set_self]
    rw [List.length_replicate]
    omega
  by_contra other
  have there : binds[slots'[i] - 1]? = some v := by
    rw [List.getElem?_set_ne (by omega), List.getElem?_replicate, if_pos (by omega)]
  rw [here, there, Option.some.injEq] at agree
  exact differ agree.symm

end Wamux.Runs.Parameters
