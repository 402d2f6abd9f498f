import Wamux.Proof.Requests.Refused
import Mathlib.Data.Finset.Prod

namespace Wamux.Proof.Requests
open Wamux.Requests Wamux.Runs

variable {known : KnownMethods} {allowlist : PeerAllowlist} {transport : Transport} {s : ServerState}

def isDropped (request : Request) : Bool := (line? request).isSome

def droppedLines (known : KnownMethods) (requests : List Request) : List Line :=
  (requests.filter isDropped).map fun request => (observing known request).line

theorem reported_dropped {requests : List Request} (follows : ∀ request ∈ requests, Follows known request) :
    requests.filterMap line? = droppedLines known requests := by
  induction requests with
  | nil => rfl
  | cons request rest ih =>
      have rest := ih fun other listed => follows other (List.mem_cons_of_mem _ listed)
      have here := follows request List.mem_cons_self
      rw [List.filterMap_cons, droppedLines]
      cases said : line? request with
      | none =>
          rw [List.filter_cons_of_neg (by rw [isDropped, said]; exact Bool.false_ne_true)]
          exact rest
      | some line =>
          rw [List.filter_cons_of_pos (by rw [isDropped, said]; rfl), List.map_cons]
          refine congrArg₂ List.cons ?_ rest
          rw [line?] at said
          split at said
          · rename_i line dropped
            cases said
            rw [Follows, dropped] at here
            exact here
          · cases said

def CountsUnder (known : KnownMethods) (method status : String) (request : Request) : Prop :=
  isDropped request = true ∧ known.label request.path = method ∧
    codeName (finalStatus request.headers request.frames) = status

instance (known : KnownMethods) (method status : String) (request : Request) :
    Decidable (CountsUnder known method status request) := inferInstanceAs (Decidable (_ ∧ _))

theorem count_dropped (requests : List Request) (method status : String) :
    ((droppedLines known requests).map fun line => (line.method, line.grpcStatus)).countP (fun key => key = (method, status)) =
      requests.countP fun request => CountsUnder known method status request := by
  rw [List.countP_map, droppedLines, List.countP_map, List.countP_filter]
  refine List.countP_congr fun request _ => ?_
  rw [decide_eq_true_iff, CountsUnder, Bool.and_eq_true, and_comm]
  exact and_congr_right fun _ => decide_eq_true_iff.trans Prod.mk_inj

/-- In every run the log has one line for each response dropped so far, and the counter of a method and
a status is the number of them that end so: a response counts once, when it is dropped, under the label of its
path and the last status it gave, and a request that never got one counts nowhere. -/
theorem counted_once (reaches : (Server.machine known allowlist transport).Reaches Machine.Free s) :
    s.recorder.lines.Perm (droppedLines known s.requests) ∧
      ∀ method status, Tally.value s.recorder.requestsTotal (method, status) =
        s.requests.countP fun request => CountsUnder known method status request := by
  have inv := inv_of_reaches reaches
  have lines := inv.lines
  rw [reported_dropped inv.follows] at lines
  refine ⟨lines, fun method status => ?_⟩
  rw [inv.total, Tally.value_count, (lines.map _).countP_eq, count_dropped]

theorem counted_once_beside : ∃ s, gated.Reaches Machine.Free s ∧
    s.recorder.lines = [⟨"unknown", some "/x", some 0, "permission_denied"⟩,
      ⟨"wamux.v1.AccountService/ListAccounts", none, some 1000, "not_found"⟩] ∧
    s.recorder.lines.Perm (droppedLines listAccounts s.requests) ∧
      ∀ method status, Tally.value s.recorder.requestsTotal (method, status) =
        s.requests.countP fun request => CountsUnder listAccounts method status request := by
  obtain ⟨s, reaches, lines, -⟩ := beside_reaches
  exact ⟨s, reaches, lines, counted_once reaches⟩

/-! ## Bounds -/

theorem label_known (path : String) : known.label path = UNKNOWN_LABEL ∨ known.label path ∈ known.methods := by
  rw [KnownMethods.label]
  split
  · rename_i listed
    exact .inr listed
  · exact .inl rfl

def statusNames : List String :=
  ["ok", "cancelled", "unknown", "invalid_argument", "deadline_exceeded", "not_found", "already_exists", "permission_denied",
    "resource_exhausted", "failed_precondition", "aborted", "out_of_range", "unimplemented", "internal", "unavailable",
    "data_loss", "unauthenticated"]

theorem codeName_mem (code : Option String) : codeName code ∈ statusNames := by
  unfold codeName
  split <;> decide

def labels (known : KnownMethods) : Finset (String × String) :=
  (UNKNOWN_LABEL :: known.methods).toFinset ×ˢ statusNames.toFinset

theorem card_labels_le : (labels known).card ≤ (known.methods.length + 1) * 17 := by
  rw [labels, Finset.card_product]
  exact Nat.mul_le_mul (List.toFinset_card_le _) (List.toFinset_card_le _)

def Short (known : KnownMethods) (line : Line) : Prop :=
  (line.method, line.grpcStatus) ∈ labels known ∧ ∀ path, line.path = some path → line.method ∉ known.methods ∧ path.length ≤ 128

theorem observing_short (request : Request) : Short known (observing known request).line := by
  have label : known.label request.path = UNKNOWN_LABEL ∨ _ := label_known request.path
  constructor
  · refine Finset.mem_product.2 ⟨List.mem_toFinset.2 ?_, List.mem_toFinset.2 (codeName_mem _)⟩
    exact List.mem_cons.2 label
  · intro path logged
    simp only [ObservedBody.line, observing, KnownMethods.labelRequest] at logged
    split at logged
    · rename_i unknown
      cases logged
      constructor
      · intro served
        have slash := known.slash _ served
        simp only [ObservedBody.line, observing, unknown] at slash
        revert slash
        decide
      · rw [String.length_ofList]
        exact List.length_take_le _ _
    · cases logged

/-- Whatever paths and statuses there are, no run has more than seventeen series for each method served and
the unknown ones, and a line shows a path only for an unknown method, and no more than 128 characters of it. -/
theorem series_bounded (reaches : (Server.machine known allowlist transport).Reaches Machine.Free s) :
    s.recorder.requestsTotal.keys.length ≤ (known.methods.length + 1) * 17 ∧ ∀ line ∈ s.recorder.lines, Short known line := by
  have inv := inv_of_reaches reaches
  have short : ∀ line ∈ s.recorder.lines, Short known line := by
    intro line listed
    have dropped := inv.lines.mem_iff.1 listed
    rw [reported_dropped inv.follows] at dropped
    obtain ⟨request, -, rfl⟩ := List.mem_map.1 dropped
    exact observing_short request
  refine ⟨(Tally.keys_length_le (labels known) ?_).trans card_labels_le, short⟩
  intro key counted
  rw [inv.total, Tally.mem_count] at counted
  obtain ⟨line, listed, rfl⟩ := List.mem_map.1 counted
  exact (short line listed).1

theorem series_bounded_beside : ∃ s, gated.Reaches Machine.Free s ∧ s.recorder.lines.length = 2 ∧
    s.recorder.requestsTotal.keys.length ≤ (listAccounts.methods.length + 1) * 17 ∧ ∀ line ∈ s.recorder.lines, Short listAccounts line := by
  obtain ⟨s, reaches, lines, -⟩ := beside_reaches
  exact ⟨s, reaches, by rw [lines]; rfl, series_bounded reaches⟩

end Wamux.Proof.Requests
