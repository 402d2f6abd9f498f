import Wamux.Requests.Errors
import Mathlib.Data.List.Basic

namespace Wamux.Proof.Requests
open Wamux.Requests

/-! ## Metadata -/

theorem isDigit_visible {c : Char} (digit : c.isDigit = true) : (32 ≤ c.toNat && c.toNat < 127) = true := by
  have bounds := Char.isDigit_iff_toNat.1 digit
  have above : 32 ≤ c.toNat := by
    have : ('0' : Char).toNat ≤ c.toNat := bounds.1
    exact Nat.le_trans (by decide) this
  have below : c.toNat < 127 := by
    have : c.toNat ≤ ('9' : Char).toNat := bounds.2
    exact Nat.lt_of_le_of_lt this (by decide)
  simp [above, below]

theorem metadataValue_code (code : UInt16) : metadataValue (toString code) = some (toString code) := by
  refine if_pos (List.all_eq_true.2 fun c listed => ?_)
  have digits : (toString code).toList = Nat.toDigits 10 code.toNat := Nat.toList_repr
  rw [digits] at listed
  rw [isDigit_visible (Nat.isDigit_of_mem_toDigits (by decide) (by decide) listed), Bool.true_or]

/-! ## Causes -/

variable {display : Cause → String} {chain chain' : List Cause}

def tells (display : Cause → String) (cause : Cause) : Bool :=
  (iqServerRejection display cause).isSome || (invalidRequestMessage display cause).isSome

theorem findSome?_filter {α β : Type} {f : α → Option β} {p : α → Bool} {items : List α}
    (quiet : ∀ item, p item = false → f item = none) : (items.filter p).findSome? f = items.findSome? f := by
  induction items with
  | nil => rfl
  | cons item rest ih =>
      cases chosen : p item with
      | true => rw [List.filter_cons_of_pos chosen, List.findSome?_cons, List.findSome?_cons, ih]
      | false =>
          rw [List.filter_cons_of_neg (by rw [chosen]; exact Bool.false_ne_true), List.findSome?_cons, quiet item chosen, ih]

theorem rejection_of_tells : (chain.filter (tells display)).findSome? (iqServerRejection display) =
    chain.findSome? (iqServerRejection display) := by
  refine findSome?_filter fun cause silent => ?_
  rw [tells, Bool.or_eq_false_iff] at silent
  exact Option.not_isSome_iff_eq_none.1 (by rw [silent.1]; exact Bool.false_ne_true)

theorem invalid_of_tells : (chain.filter (tells display)).findSome? (invalidRequestMessage display) =
    chain.findSome? (invalidRequestMessage display) := by
  refine findSome?_filter fun cause silent => ?_
  rw [tells, Bool.or_eq_false_iff] at silent
  exact Option.not_isSome_iff_eq_none.1 (by rw [silent.2]; exact Bool.false_ne_true)

theorem clientErr_status (chain : List Cause) : (clientErr display chain).status =
    ((chain.findSome? (iqServerRejection display)).map fun told => waServerStatus told.1 told.2 (waServerMessage told.1 told.2)).getD
      (((chain.findSome? (invalidRequestMessage display)).map fun reason => ⟨.invalidArgument, reason, none, none⟩).getD
        ⟨.unavailable, "whatsapp operation failed", none, none⟩) := by
  rw [clientErr]
  cases chain.findSome? (iqServerRejection display) with
  | some told => rfl
  | none =>
      cases chain.findSome? (invalidRequestMessage display) with
      | some reason => rfl
      | none => rfl

/-- Two errors whose telling causes are the same, in one order, look the same to the client, whatever
their other causes and the texts of these; `wa-code` is the code of the first rejection, if there is one; and
with nothing to tell, the status says only that the operation failed. -/
theorem clientErr_shown (display : Cause → String) (chain : List Cause) :
    (∀ chain', chain'.filter (tells display) = chain.filter (tells display) →
      (clientErr display chain').status = (clientErr display chain).status) ∧
    (clientErr display chain).status.waCode =
      (chain.findSome? (iqServerRejection display)).map (fun told => toString told.1) ∧
    ((clientErr display chain).status = ⟨.unavailable, "whatsapp operation failed", none, none⟩ ↔
      ∀ cause ∈ chain, tells display cause = false) := by
  refine ⟨?_, ?_, ?_⟩
  · intro chain' same
    rw [clientErr_status, clientErr_status, ← rejection_of_tells, ← invalid_of_tells, same, rejection_of_tells, invalid_of_tells]
  · rw [clientErr_status]
    cases chain.findSome? (iqServerRejection display) with
    | some told => exact metadataValue_code told.1
    | none => cases chain.findSome? (invalidRequestMessage display) <;> rfl
  · have silent : (∀ cause ∈ chain, tells display cause = false) ↔
        chain.findSome? (iqServerRejection display) = none ∧ chain.findSome? (invalidRequestMessage display) = none := by
      simp only [List.findSome?_eq_none_iff, tells, Bool.or_eq_false_iff, Option.isSome_eq_false_iff, Option.isNone_iff_eq_none]
      exact ⟨fun all => ⟨fun cause listed => (all cause listed).1, fun cause listed => (all cause listed).2⟩,
        fun both cause listed => ⟨both.1 cause listed, both.2 cause listed⟩⟩
    rw [silent, clientErr_status]
    cases rejected : chain.findSome? (iqServerRejection display) with
    | some told =>
        refine iff_of_false ?_ (fun both => by cases both.1)
        intro shown
        have code : metadataValue (toString told.1) = none := congrArg Status.waCode shown
        rw [metadataValue_code] at code
        cases code
    | none =>
        cases chain.findSome? (invalidRequestMessage display) with
        | some reason => exact iff_of_false (fun shown => by cases congrArg Status.code shown) fun both => by cases both.2
        | none => exact iff_of_true rfl ⟨rfl, rfl⟩

end Wamux.Proof.Requests
