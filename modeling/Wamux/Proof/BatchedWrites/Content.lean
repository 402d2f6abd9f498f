import Wamux.Runs.Failing
import Wamux.BatchedWrites.Calls

namespace Wamux.Proof.BatchedWrites
open Wamux.BatchedWrites Wamux.Runs Wamux.Runs.Keyed
open Wamux.Encryption (Bytes DeviceId Nonce)
open Wamux.BlobCodec (HashState encodeHashState)

variable {info : Type} {store : Store info} {statements : List (Statement Key Row)} {rows : Rows Key Row}

def ownerOf : Key → DeviceId
  | .sealed device _ | .lidPnMapping device _ | .deviceRegistry device _ => device

def collectionOf : Key → Option String
  | .sealed _ (.version name) | .sealed _ (.mutationMac name _) => some name
  | _ => none

def collection : Call info → Option String
  | .putMutationMacs _ name _ _ | .deleteMutationMacs name _ | .commitPatch _ name _ _ _ => some name
  | _ => none

def Concerns (store : Store info) (call : Call info) (key : Key) : Prop :=
  ownerOf key = store.device ∧ ∀ name, collection call = some name → collectionOf key = some name

/-! ## Row by row -/

theorem ofRows_rows {α : Type} {items : List α} {row : Nat → α → Prepared} {prepared : List Prepared}
    (opened : Body.ofRows items row = .transaction prepared) : prepared = items.mapIdx row := by
  unfold Body.ofRows at opened
  split at opened <;> cases opened
  rfl

theorem ofRows_nothing {α : Type} {items : List α} {row : Nat → α → Prepared}
    (nothing : Body.ofRows items row = .nothing) : items = [] := by
  unfold Body.ofRows at nothing
  split at nothing
  · rwa [List.isEmpty_iff] at *
  · cases nothing

theorem ofRows_opens {α : Type} {items : List α} {row : Nat → α → Prepared} {error : RowError} :
    Body.ofRows items row ≠ .fails error := by
  unfold Body.ofRows
  split <;> nofun

/-- What a batch does is what its one-row writes say: nothing when there are none, an error at once when
the first cannot be prepared, and otherwise a transaction of them all. -/
def Stands (writes : List Prepared) : Body → Prop
  | .nothing => writes = []
  | .fails error => writes.head? = some (.error error)
  | .transaction prepared => prepared = writes

theorem ofRows_stands {α : Type} {items : List α} {row row' : Nat → α → Prepared} (same : row = row') :
    Stands (items.mapIdx row') (Body.ofRows items row) := by
  subst same
  cases opened : Body.ofRows items row with
  | nothing =>
      have empty := ofRows_nothing opened
      subst empty
      rfl
  | fails error => exact absurd opened ofRows_opens
  | transaction prepared => exact ofRows_rows opened

theorem ofRows_stands_each {α : Type} {items : List α} {row : Nat → α → Prepared} {row' : α → Prepared}
    (same : row = fun _ => row') : Stands (items.map row') (Body.ofRows items row) := by
  have rows : items.mapIdx (fun _ => row') = items.map row' :=
    List.ext_getElem (by simp) fun i below below' => by simp
  rw [← rows]
  exact ofRows_stands same

theorem body_stands (call : Call info) : Stands (store.oneRowWrites call) (store.body call) := by
  cases call with
  | putIdentities nonces identities => exact ofRows_stands rfl
  | putSessions nonces sessions => exact ofRows_stands rfl
  | putSenderKeys nonces senderKeys => exact ofRows_stands rfl
  | storePrekeys nonces keys uploaded => exact ofRows_stands rfl
  | deleteIdentities addresses => exact ofRows_stands_each rfl
  | deleteSessions addresses => exact ofRows_stands_each rfl
  | deleteSenderKeys addresses => exact ofRows_stands_each rfl
  | removePrekeys ids => exact ofRows_stands_each rfl
  | putLidMappings entries => exact ofRows_stands_each rfl
  | updateDeviceLists now records => exact ofRows_stands_each rfl
  | putMutationMacs nonces name version mutations => rfl
  | deleteMutationMacs name indexMacs => rfl
  | commitPatch nonces name state removedIndexMacs added =>
      simp only [Store.body, commitPatch, Store.oneRowWrites, OneRow.setVersion]
      cases sealed store.crypto store.cipher store.device (nonces 0) (.version name) (encodeHashState store.prost state) with
      | error error => rfl
      | ok data => rfl

/-! ## Keys -/

theorem map_ok {α β : Type} {prepared : Except RowError α} {f : α → β} {b : β}
    (ok : (do return f (← prepared)) = .ok b) : ∃ a, prepared = .ok a ∧ b = f a := by
  obtain ⟨a, same, here⟩ := Failing.bind_eq_ok.1 ok
  cases here
  exact ⟨a, same, rfl⟩

theorem row_concerned {call : Call info} {statement : Statement Key Row}
    (member : .ok statement ∈ store.oneRowWrites call) : Concerns store call statement.key := by
  cases call with
  | putIdentities nonces identities =>
      obtain ⟨i, below, row⟩ := List.mem_mapIdx.1 member
      obtain ⟨stored, -, rfl⟩ := map_ok row
      exact ⟨rfl, nofun⟩
  | putSessions nonces sessions =>
      obtain ⟨i, below, row⟩ := List.mem_mapIdx.1 member
      obtain ⟨stored, -, rfl⟩ := map_ok row
      exact ⟨rfl, nofun⟩
  | putSenderKeys nonces senderKeys =>
      obtain ⟨i, below, row⟩ := List.mem_mapIdx.1 member
      obtain ⟨stored, -, rfl⟩ := map_ok row
      exact ⟨rfl, nofun⟩
  | storePrekeys nonces keys uploaded =>
      obtain ⟨i, below, row⟩ := List.mem_mapIdx.1 member
      obtain ⟨stored, -, rfl⟩ := map_ok row
      exact ⟨rfl, nofun⟩
  | deleteIdentities addresses =>
      obtain ⟨address, -, row⟩ := List.mem_map.1 member
      cases row
      exact ⟨rfl, nofun⟩
  | deleteSessions addresses =>
      obtain ⟨address, -, row⟩ := List.mem_map.1 member
      cases row
      exact ⟨rfl, nofun⟩
  | deleteSenderKeys addresses =>
      obtain ⟨address, -, row⟩ := List.mem_map.1 member
      cases row
      exact ⟨rfl, nofun⟩
  | removePrekeys ids =>
      obtain ⟨id, -, row⟩ := List.mem_map.1 member
      cases row
      exact ⟨rfl, nofun⟩
  | putLidMappings entries =>
      obtain ⟨entry, -, row⟩ := List.mem_map.1 member
      cases row
      exact ⟨rfl, nofun⟩
  | updateDeviceLists now records =>
      obtain ⟨record, -, row⟩ := List.mem_map.1 member
      obtain ⟨json, -, rfl⟩ := map_ok row
      exact ⟨rfl, nofun⟩
  | putMutationMacs nonces name version mutations =>
      obtain ⟨i, below, row⟩ := List.mem_mapIdx.1 member
      obtain ⟨stored, -, rfl⟩ := map_ok row
      exact ⟨rfl, fun _ same => same⟩
  | deleteMutationMacs name indexMacs =>
      obtain ⟨indexMac, -, row⟩ := List.mem_map.1 member
      cases row
      exact ⟨rfl, fun _ same => same⟩
  | commitPatch nonces name state removedIndexMacs added =>
      rcases List.mem_cons.1 member with first | rest
      · obtain ⟨stored, -, rfl⟩ := map_ok first.symm
        exact ⟨rfl, fun _ same => same⟩
      · rcases List.mem_append.1 rest with removal | addition
        · obtain ⟨indexMac, -, row⟩ := List.mem_map.1 removal
          cases row
          exact ⟨rfl, fun _ same => same⟩
        · obtain ⟨i, below, row⟩ := List.mem_mapIdx.1 addition
          obtain ⟨stored, -, rfl⟩ := map_ok row
          exact ⟨rfl, fun _ same => same⟩

theorem others_untouched {call : Call info} {key : Key} (all : store.oneRowWrites call = statements.map .ok)
    (other : ¬Concerns store call key) : run statements rows key = rows key := by
  refine run_other fun member => other ?_
  obtain ⟨statement, inside, rfl⟩ := List.mem_map.1 member
  exact row_concerned (all ▸ List.mem_map_of_mem inside)

/-! ## A patch -/

def versionKey (store : Store info) (name : String) : Key := .sealed store.device (.version name)

def macKey (store : Store info) (name : String) (indexMac : Bytes) : Key :=
  .sealed store.device (.mutationMac name indexMac)

theorem macKey_injective {name : String} : Function.Injective (macKey store name) := by
  intro first second same
  cases same
  rfl

theorem prepared_keys {α : Type} {items : List α} {row : Nat → α → Prepared} {key : α → Key}
    (named : ∀ i a statement, row i a = .ok statement → statement.key = key a)
    (all : items.mapIdx row = statements.map .ok) : statements.map Statement.key = items.map key := by
  induction items generalizing row statements with
  | nil =>
      rw [List.mapIdx_nil] at all
      rw [List.map_eq_nil_iff.1 all.symm]
      rfl
  | cons first rest ih =>
      rw [List.mapIdx_cons] at all
      obtain ⟨statement, later, rfl, here, there⟩ := List.map_eq_cons_iff.1 all.symm
      rw [List.map_cons, List.map_cons, named 0 first statement here.symm,
        ih (fun i => named (i + 1)) there.symm]

section Patch
variable {nonces : Nat → Option Nonce} {name : String} {state : HashState} {removedIndexMacs : List Bytes}
  {added : List AppStateMutationMAC}

def addition (store : Store info) (nonces : Nat → Option Nonce) (name : String) (state : HashState) (i : Nat)
    (mutation : AppStateMutationMAC) : Prepared :=
  OneRow.putMutationMac store.crypto store.cipher store.device (nonces (i + 1)) name state.version mutation

theorem addition_ok {i : Nat} {mutation : AppStateMutationMAC} {statement : Statement Key Row}
    (ok : addition store nonces name state i mutation = .ok statement) :
    ∃ value, sealed store.crypto store.cipher store.device (nonces (i + 1)) (.mutationMac name mutation.indexMac)
      mutation.valueMac = .ok value ∧
      statement = upsert (macKey store name mutation.indexMac) (.mutationMac state.version.toInt64 value) := map_ok ok

theorem patch_statements
    (all : store.oneRowWrites (.commitPatch nonces name state removedIndexMacs added) = statements.map .ok) :
    ∃ data additions, sealed store.crypto store.cipher store.device (nonces 0) (.version name)
        (encodeHashState store.prost state) = .ok data ∧
      added.mapIdx (addition store nonces name state) = additions.map .ok ∧
      statements = upsert (versionKey store name) (.blob data) ::
        ((removedIndexMacs.map (macKey store name)).map delete ++ additions) := by
  obtain ⟨version, rest, rfl, first, others⟩ := List.map_eq_cons_iff.1 all.symm
  obtain ⟨data, opened, rfl⟩ := map_ok first.symm
  obtain ⟨removals, additions, rfl, removed, added⟩ := List.map_eq_append_iff.1 others
  refine ⟨data, additions, opened, added.symm, ?_⟩
  have same : removals = (removedIndexMacs.map (macKey store name)).map delete := by
    apply List.map_injective_iff.2 (fun _ _ same => Except.ok.inj same)
    rw [removed, List.map_map, List.map_map]
    rfl
  rw [same]
  rfl

/-- The version and the MACs after a patch: an index in both lists has its last added value. -/
structure Patched (store : Store info) (nonces : Nat → Option Nonce) (name : String) (state : HashState)
    (removedIndexMacs : List Bytes) (added : List AppStateMutationMAC) (statements : List (Statement Key Row))
    (rows : Rows Key Row) : Prop where
  version : ∃ data, sealed store.crypto store.cipher store.device (nonces 0) (.version name)
      (encodeHashState store.prost state) = .ok data ∧
    run statements rows (versionKey store name) = some (.blob data)
  additions : ∀ before mutation after, added = before ++ mutation :: after →
    mutation.indexMac ∉ after.map AppStateMutationMAC.indexMac →
    ∃ value, sealed store.crypto store.cipher store.device (nonces (before.length + 1))
        (.mutationMac name mutation.indexMac) mutation.valueMac = .ok value ∧
      run statements rows (macKey store name mutation.indexMac) = some (.mutationMac state.version.toInt64 value)
  others : ∀ indexMac, indexMac ∉ added.map AppStateMutationMAC.indexMac →
    run statements rows (macKey store name indexMac) =
      if indexMac ∈ removedIndexMacs then none else rows (macKey store name indexMac)

theorem patch_leaves (rows : Rows Key Row)
    (all : store.oneRowWrites (.commitPatch nonces name state removedIndexMacs added) = statements.map .ok) :
    Patched store nonces name state removedIndexMacs added statements rows := by
  obtain ⟨data, additions, opened, added_ok, rfl⟩ := patch_statements all
  have keys (offset : Nat) {items : List AppStateMutationMAC} {statements : List (Statement Key Row)}
      (ok : items.mapIdx (fun i => addition store nonces name state (i + offset)) = statements.map .ok) :
      statements.map Statement.key = items.map fun mutation => macKey store name mutation.indexMac := by
    refine prepared_keys (fun i mutation statement ok => ?_) ok
    obtain ⟨value, -, rfl⟩ := addition_ok ok
    rfl
  refine ⟨⟨data, opened, ?_⟩, fun before mutation after split last => ?_, fun indexMac absent => ?_⟩
  · -- no other statement is on the version row
    have only : versionKey store name ∉
        ((removedIndexMacs.map (macKey store name)).map delete ++ additions : List (Statement Key Row)).map Statement.key := by
      rw [List.map_append, keys 0 added_ok, List.map_map]
      simp [versionKey, macKey, delete]
    exact @run_last _ _ _ _ rows [] _ only
  · subst split
    rw [List.mapIdx_append, List.mapIdx_cons] at added_ok
    obtain ⟨first, rest, rfl, -, others⟩ := List.map_eq_append_iff.1 added_ok.symm
    obtain ⟨statement, later, rfl, here, there⟩ := List.map_eq_cons_iff.1 others
    rw [Nat.zero_add] at here
    obtain ⟨value, stored, rfl⟩ := addition_ok here.symm
    refine ⟨value, stored, ?_⟩
    have again : macKey store name mutation.indexMac ∉ later.map Statement.key := by
      have shifted : after.mapIdx (fun i => addition store nonces name state (i + (1 + before.length))) =
          later.map .ok := by
        rw [there]
        congr 1
        funext i
        rw [Nat.add_assoc]
      rw [keys _ shifted]
      rintro member
      obtain ⟨other, inside, same⟩ := List.mem_map.1 member
      exact last (List.mem_map.2 ⟨other, inside, macKey_injective same⟩)
    rw [← List.append_assoc, ← List.cons_append]
    exact run_last again
  · have none_added : macKey store name indexMac ∉ additions.map Statement.key := by
      rw [keys 0 added_ok]
      intro member
      obtain ⟨mutation, inside, same⟩ := List.mem_map.1 member
      exact absent (List.mem_map.2 ⟨mutation, inside, macKey_injective same⟩)
    rw [run_cons, run_append, run_other none_added, run_deletes, apply_other (by simp [macKey, versionKey, upsert])]
    simp only [List.mem_map_of_injective macKey_injective]

end Patch
end Wamux.Proof.BatchedWrites
