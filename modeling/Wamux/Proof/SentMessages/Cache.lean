import Mathlib.Data.List.Nodup
import Wamux.SentMessages.Table
import Wamux.Proof.Encryption.Agreement

namespace Wamux.Proof.SentMessages
open Wamux.Encryption Wamux.Encryption.Tables Wamux.SentMessages Runs Runs.Failing Runs.Takes

variable {crypto : Crypto} {cipher : BlobCipher} {rows : List SentRow} {row : SentRow} {name other : SentName}

def Distinct (rows : List SentRow) : Prop := (rows.map SentRow.name).Nodup

theorem Distinct.filter (distinct : Distinct rows) (keeps : SentRow → Bool) : Distinct (rows.filter keeps) :=
  List.Nodup.sublist (List.filter_sublist.map _) distinct

theorem Distinct.store (distinct : Distinct rows) (row : SentRow) : Distinct (storeSent rows row) := by
  rw [Distinct, storeSent, List.map_append, List.nodup_append]
  refine ⟨distinct.filter _, List.nodup_singleton _, fun named member => ?_⟩
  obtain ⟨kept, kept_mem, rfl⟩ := List.mem_map.1 member
  have apart : kept.name ≠ row.name := by simpa [deleteSent] using (List.mem_filter.1 kept_mem).2
  simpa using apart

theorem selectSent_eq_some (distinct : Distinct rows) : selectSent rows name = some row ↔ row ∈ rows ∧ row.name = name := by
  induction rows with
  | nil => simp [selectSent]
  | cons first rest ih =>
      obtain ⟨absent, distinct⟩ := List.nodup_cons.1 distinct
      rw [selectSent, List.find?_cons]
      by_cases here : first.name = name
      · simp only [here, decide_true, Option.some.injEq, List.mem_cons]
        constructor
        · rintro rfl
          exact ⟨.inl rfl, here⟩
        · rintro ⟨rfl | member, named⟩
          · rfl
          · exact absurd (List.mem_map.2 ⟨row, member, named.trans here.symm⟩) absent
      · simp only [here, decide_false, List.mem_cons]
        refine (ih distinct).trans (and_congr_left fun named => ⟨.inr, fun member => ?_⟩)
        rcases member with rfl | member
        · exact absurd named here
        · exact member

theorem selectSent_filter (distinct : Distinct rows) {keeps : SentRow → Bool}
    (found : selectSent (rows.filter keeps) name = some row) : selectSent rows name = some row := by
  rw [selectSent_eq_some (distinct.filter keeps)] at found
  exact (selectSent_eq_some distinct).2 ⟨List.mem_of_mem_filter found.1, found.2⟩

theorem selectSent_deleteSent : selectSent (deleteSent rows name) name = none := by
  simp [selectSent, deleteSent]

theorem selectSent_filter_kept {keeps : SentRow → Bool} (kept : ∀ row, row.name = name → keeps row = true) :
    selectSent (rows.filter keeps) name = selectSent rows name := by
  rw [selectSent, List.find?_filter, selectSent]
  congr 1
  funext row
  by_cases here : row.name = name
  · simp [here, kept row here]
  · simp [here]

theorem selectSent_deleteSent_other (apart : other ≠ name) : selectSent (deleteSent rows name) other = selectSent rows other :=
  selectSent_filter_kept fun row here => by simp [here, apart]

theorem selectSent_storeSent (row : SentRow) : selectSent (storeSent rows row) row.name = some row := by
  have gone : selectSent (deleteSent rows row.name) row.name = none := selectSent_deleteSent
  rw [selectSent] at gone
  simp [selectSent, storeSent, List.find?_append, gone]

theorem selectSent_storeSent_other (apart : other ≠ row.name) :
    selectSent (storeSent rows row) other = selectSent rows other := by
  have kept : selectSent (deleteSent rows row.name) other = selectSent rows other := selectSent_deleteSent_other apart
  rw [selectSent] at kept
  simp [selectSent, storeSent, List.find?_append, kept, apart.symm]

/-! ## The message a row holds -/

def holds (crypto : Crypto) (cipher : BlobCipher) (rows : List SentRow) (name : SentName) : Option Bytes :=
  (getSentMessage crypto cipher rows name).toOption.join

theorem holds_eq_some {payload : Bytes} :
    holds crypto cipher rows name = some payload ↔ getSentMessage crypto cipher rows name = .ok (some payload) := by
  rw [holds]
  cases getSentMessage crypto cipher rows name with
  | error e => simp [Except.toOption]
  | ok found => simp [Except.toOption]

theorem holds_congr {rows' : List SentRow} (same : selectSent rows' name = selectSent rows name) :
    holds crypto cipher rows' name = holds crypto cipher rows name := by
  rw [holds, holds, getSentMessage, getSentMessage, same]

theorem holds_filter (distinct : Distinct rows) {keeps : SentRow → Bool} {payload : Bytes}
    (held : holds crypto cipher (rows.filter keeps) name = some payload) : holds crypto cipher rows name = some payload := by
  cases found : selectSent (rows.filter keeps) name with
  | none => simp [holds, getSentMessage, openSent, found, Except.toOption] at held
  | some row =>
      rw [← held]
      exact (holds_congr (by rw [found, selectSent_filter distinct found])).symm

theorem openSent_seal {nonce : Option Nonce} {payload sealed : Bytes} {now : Int64}
    (sealing : sealSent crypto cipher name nonce payload = .ok sealed) :
    openSent crypto cipher name (some ⟨name, sealed, now⟩) = .ok (some payload) := by
  have opened : openAt crypto cipher name.device name.slot sealed = .ok payload :=
    Encryption.Naming.open_of_seal sealing
  simp only [openSent, opened]
  rfl

theorem openSent_isSome {stored : Option SentRow} {payload : Option Bytes}
    (opened : openSent crypto cipher name stored = .ok payload) : payload.isSome = stored.isSome := by
  cases stored with
  | none =>
      cases opened
      rfl
  | some row =>
      simp only [openSent, bind_eq_ok, pure_eq_ok] at opened
      obtain ⟨_, _, rfl⟩ := opened
      rfl

section Moves
variable {log : Log} {nonce : Option Nonce} {payload sealed : Bytes} {now : Int64}

theorem kept_store (kept : Kept (holds crypto cipher rows) log)
    (sealing : sealSent crypto cipher name nonce payload = .ok sealed) :
    Kept (holds crypto cipher (storeSent rows ⟨name, sealed, now⟩)) (log ++ [.stored name payload]) := by
  refine kept.store (fun other held apart here => ?_) (fun held here => ?_)
  · rwa [holds_congr (selectSent_storeSent_other apart)] at here
  · rw [holds_eq_some, getSentMessage, selectSent_storeSent ⟨name, sealed, now⟩, openSent_seal sealing] at here
    exact (Option.some.inj (Except.ok.inj here)).symm

theorem kept_take (kept : Kept (holds crypto cipher rows) log)
    (held : getSentMessage crypto cipher rows name = .ok (some payload)) :
    Kept (holds crypto cipher (deleteSent rows name)) (log ++ [.taken name payload]) := by
  refine kept.take (holds_eq_some.2 held) ?_ fun other held apart here => ?_
  · rw [holds, getSentMessage, selectSent_deleteSent]
    rfl
  · rwa [holds_congr (selectSent_deleteSent_other apart)] at here

theorem kept_filter (kept : Kept (holds crypto cipher rows) log) (distinct : Distinct rows) (keeps : SentRow → Bool) :
    Kept (holds crypto cipher (rows.filter keeps)) log :=
  kept.lose fun _ _ => holds_filter distinct

end Moves

end Wamux.Proof.SentMessages
