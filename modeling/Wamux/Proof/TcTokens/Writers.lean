import Mathlib
import Wamux.Runs.Failing
import Wamux.TcTokens.Table
import Wamux.Proof.Encryption.Agreement

namespace Wamux.Proof.TcTokens
open Wamux.TcTokens Wamux.Runs Wamux.Runs.Keyed
open Wamux.Encryption (Bytes DeviceId Crypto BlobCipher Nonce)
open Wamux.Encryption.Tables (openAt sealAt)

variable {crypto : Crypto} {cipher : BlobCipher} {device : DeviceId} {jid : String} {calls : List Call} {call : Call}
  {row : Row}

def received : List Call → List (Bytes × Int64)
  | [] => []
  | .touch _ :: calls => received calls
  | .receive _ token tokenTimestamp :: calls => (token, tokenTimestamp) :: received calls

def touched : List Call → List Int64
  | [] => []
  | .touch senderTimestamp :: calls => senderTimestamp :: touched calls
  | .receive _ _ _ :: calls => touched calls

def time (timestamp : Int64) : WithBot ℤ := WithBot.some timestamp.toInt

/-- A sender timestamp that is not set is before every time. -/
def senderTime : Option Int64 → WithBot ℤ
  | none => ⊥
  | some timestamp => time timestamp

theorem time_le {first second : Int64} : time first ≤ time second ↔ first ≤ second := by
  rw [time, time, WithBot.coe_le_coe, Int64.le_iff_toInt_le]

theorem time_lt {first second : Int64} : time first < time second ↔ first < second := by
  rw [time, time, WithBot.coe_lt_coe, Int64.lt_iff_toInt_lt]

theorem senderTime_injective : Function.Injective senderTime := by
  intro first second same
  cases first with
  | none => cases second with
    | none => rfl
    | some timestamp => cases same
  | some timestamp => cases second with
    | none => cases same
    | some timestamp' => rw [Int64.toInt_inj.1 (WithBot.coe_inj.1 same)]

theorem received_append (calls calls' : List Call) : received (calls ++ calls') = received calls ++ received calls' := by
  induction calls with
  | nil => rfl
  | cons call rest ih => cases call <;> simp [received, ih]

theorem touched_append (calls calls' : List Call) : touched (calls ++ calls') = touched calls ++ touched calls' := by
  induction calls with
  | nil => rfl
  | cons call rest ih => cases call <;> simp [touched, ih]

theorem received_perm {calls' : List Call} (perm : calls.Perm calls') : (received calls).Perm (received calls') := by
  induction perm with
  | nil => exact .nil
  | cons call _ ih =>
      cases call with
      | touch timestamp => exact ih
      | receive nonce token timestamp => exact ih.cons _
  | swap first second rest =>
      cases first <;> cases second
      case receive.receive => exact .swap ..
      all_goals exact .refl _
  | trans _ _ ih ih' => exact ih.trans ih'

theorem touched_perm {calls' : List Call} (perm : calls.Perm calls') : (touched calls).Perm (touched calls') := by
  induction perm with
  | nil => exact .nil
  | cons call _ ih =>
      cases call with
      | touch timestamp => exact ih.cons _
      | receive nonce token timestamp => exact ih
  | swap first second rest =>
      cases first <;> cases second
      case touch.touch => exact .swap ..
      all_goals exact .refl _
  | trans _ _ ih ih' => exact ih.trans ih'

/-! ## One statement -/

/-- A row after these calls: the newest token received, sealed, or none and then nothing is stored. -/
structure Newest (crypto : Crypto) (cipher : BlobCipher) (device : DeviceId) (jid : String) (calls : List Call) (row : Row) :
    Prop where
  empty : received calls = [] → row.token = []
  token : received calls ≠ [] → row.token ≠ [] ∧ ∃ token, openAt crypto cipher device (.tcToken jid) row.token = .ok token ∧
    (token, row.tokenTimestamp) ∈ received calls ∧ ∀ other ∈ received calls, other.2 ≤ row.tokenTimestamp
  sender : senderTime row.senderTimestamp = join time (touched calls)

def Holds (crypto : Crypto) (cipher : BlobCipher) (device : DeviceId) (jid : String) (calls : List Call) : Option Row → Prop
  | none => calls = []
  | some row => Newest crypto cipher device jid calls row

theorem senderTime_later (stored : Option Int64) (timestamp : Int64) :
    senderTime (some (if stored.getD timestamp > timestamp then stored.getD timestamp else timestamp)) =
      senderTime stored ⊔ time timestamp := by
  cases stored with
  | none => simp [senderTime]
  | some before =>
      simp only [Option.getD_some, senderTime]
      split
      · rename_i later
        rw [sup_of_le_left (time_lt.2 later).le]
      · rename_i later
        rw [sup_of_le_right (time_le.2 (Int64.not_lt.1 later))]

theorem Holds.touch {found : Option Row} (holds : Holds crypto cipher device jid calls found) (timestamp : Int64) :
    Holds crypto cipher device jid (calls ++ [.touch timestamp])
      ((Statements.touchSenderTimestamp ⟨device, jid⟩ timestamp).update found) := by
  have same : received (calls ++ [.touch timestamp]) = received calls := by rw [received_append]; exact List.append_nil _
  have more : touched (calls ++ [.touch timestamp]) = touched calls ++ [timestamp] := by rw [touched_append]; rfl
  cases found with
  | none =>
      obtain rfl : calls = [] := holds
      exact ⟨fun _ => rfl, fun some => absurd rfl some, by simp [senderTime, touched]⟩
  | some row =>
      have newest : Newest crypto cipher device jid calls row := holds
      refine ⟨?_, ?_, ?_⟩
      · rw [same]
        exact newest.empty
      · rw [same]
        exact newest.token
      · rw [more, join_append, ← newest.sender]
        simp only [join_cons, join_nil, bot_le, sup_of_le_left]
        exact senderTime_later row.senderTimestamp timestamp

theorem sealAt_ne_nil {nonce : Option Nonce} {token sealed : Bytes} (some : token ≠ [])
    (ran : sealAt crypto cipher device nonce (.tcToken jid) token = .ok sealed) : sealed ≠ [] := by
  cases cipher with
  | passthrough =>
      cases ran
      exact some
  | sealing key =>
      rcases Encryption.seal_eq ran with ⟨none, -⟩ | ⟨-, drawn, -, rfl⟩
      · exact absurd none some
      · simp [Encryption.blobOf]

theorem Holds.receive {found : Option Row} {nonce : Nonce} {token sealed : Bytes} {timestamp : Int64}
    (holds : Holds crypto cipher device jid calls found) (some : token ≠ [])
    (ran : sealAt crypto cipher device nonce (.tcToken jid) token = .ok sealed) :
    Holds crypto cipher device jid (calls ++ [.receive nonce token timestamp])
      ((Statements.storeReceived ⟨device, jid⟩ sealed timestamp).update found) := by
  have more : received (calls ++ [.receive nonce token timestamp]) = received calls ++ [(token, timestamp)] := by
    rw [received_append]
    rfl
  have same : touched (calls ++ [.receive nonce token timestamp]) = touched calls := by
    rw [touched_append]
    exact List.append_nil _
  have opens : openAt crypto cipher device (.tcToken jid) sealed = .ok token := Encryption.Naming.open_of_seal ran
  have stored : sealed ≠ [] := sealAt_ne_nil some ran
  have last : (token, timestamp) ∈ received calls ++ [(token, timestamp)] := by simp
  cases found with
  | none =>
      obtain rfl : calls = [] := holds
      refine ⟨fun none => by simp [received] at none, fun _ => ⟨stored, token, opens, List.mem_cons_self, ?_⟩, by simp [senderTime, touched]⟩
      intro other member
      rw [List.mem_singleton.1 member]
      exact Int64.le_refl _
  | some row =>
      have newest : Newest crypto cipher device jid calls row := holds
      have sender : ∀ row' : Row, row'.senderTimestamp = row.senderTimestamp →
          senderTime row'.senderTimestamp = join time (touched (calls ++ [.receive nonce token timestamp])) := by
        intro row' kept
        rw [kept, same, newest.sender]
      by_cases wins : row.token.length = 0 ∨ timestamp ≥ row.tokenTimestamp
      · simp only [Statements.storeReceived, if_pos wins]
        refine ⟨fun none => by simp [more] at none, fun _ => ⟨stored, token, opens, more ▸ last, fun other member => ?_⟩,
          sender _ rfl⟩
        rw [more] at member
        rcases List.mem_append.1 member with before | now
        · -- a token received before is stored, so this one won by its timestamp
          obtain ⟨present, -, -, -, all⟩ := newest.token (List.ne_nil_of_mem before)
          have later := wins.resolve_left fun empty => present (List.length_eq_zero_iff.1 empty)
          exact Int64.le_trans (all other before) later
        · rw [List.mem_singleton.1 now]
          exact Int64.le_refl _
      · simp only [Statements.storeReceived, if_neg wins]
        rw [not_or] at wins
        have present : received calls ≠ [] := fun none => wins.1 (by rw [newest.empty none]; rfl)
        obtain ⟨full, found, opened, member, all⟩ := newest.token present
        refine ⟨fun none => by simp [more] at none, fun _ => ⟨full, found, opened, ?_, fun other member' => ?_⟩, sender _ rfl⟩
        · rw [more]
          exact List.mem_append_left _ member
        · rw [more] at member'
          rcases List.mem_append.1 member' with before | now
          · exact all other before
          · rw [List.mem_singleton.1 now]
            exact Int64.le_of_lt (Int64.not_le.1 wins.2)

/-! ## Every order -/

def Tokens (calls : List Call) : Prop := ∀ token ∈ received calls, token.1 ≠ []

theorem sealAt_ok (crypto : Crypto) (cipher : BlobCipher) (device : DeviceId) (jid : String) (nonce : Nonce) (token : Bytes) :
    ∃ sealed, sealAt crypto cipher device (some nonce) (.tcToken jid) token = .ok sealed := by
  cases cipher with
  | passthrough => exact ⟨token, rfl⟩
  | sealing key =>
      simp only [sealAt, Encryption.BlobCipher.seal]
      split
      · exact ⟨[], rfl⟩
      · exact ⟨_, rfl⟩

theorem run_holds (rows : Rows Key Row) (calls : List Call) {before : List Call}
    (holds : Holds crypto cipher device jid before (rows ⟨device, jid⟩)) (tokens : Tokens calls) :
    ∃ rows', runAll crypto cipher device jid calls rows = .ok rows' ∧
      Holds crypto cipher device jid (before ++ calls) (rows' ⟨device, jid⟩) := by
  induction calls generalizing rows before with
  | nil => exact ⟨rows, rfl, by rwa [List.append_nil]⟩
  | cons call rest ih =>
      obtain ⟨middle, ran, after⟩ : ∃ middle, call.run crypto cipher device jid rows = .ok middle ∧
          Holds crypto cipher device jid (before ++ [call]) (middle ⟨device, jid⟩) := by
        cases call with
        | touch timestamp =>
            refine ⟨_, rfl, ?_⟩
            have now : touchSenderTimestamp device jid timestamp rows ⟨device, jid⟩ =
                (Statements.touchSenderTimestamp ⟨device, jid⟩ timestamp).update (rows ⟨device, jid⟩) := apply_self
            rw [now]
            exact holds.touch timestamp
        | receive nonce token timestamp =>
            obtain ⟨sealed, ran⟩ := sealAt_ok crypto cipher device jid nonce token
            refine ⟨_, by simp only [Call.run, storeReceived, ran]; rfl, ?_⟩
            have now : (Statements.storeReceived ⟨device, jid⟩ sealed timestamp).apply rows ⟨device, jid⟩ =
                (Statements.storeReceived ⟨device, jid⟩ sealed timestamp).update (rows ⟨device, jid⟩) := apply_self
            rw [now]
            exact holds.receive (tokens (token, timestamp) List.mem_cons_self) ran
      have others : Tokens rest := by
        intro token member
        cases call with
        | touch timestamp => exact tokens token member
        | receive nonce first timestamp => exact tokens token (List.mem_cons_of_mem _ member)
      obtain ⟨rows', all, holds'⟩ := ih middle after others
      refine ⟨rows', ?_, by rwa [List.append_assoc] at holds'⟩
      rw [runAll, List.foldlM_cons, ran]
      exact all

/-! ## What is read back -/

structure Latest (calls : List Call) (entry : TcTokenEntry) : Prop where
  empty : received calls = [] → entry.token = []
  stored : received calls ≠ [] → (entry.token, entry.tokenTimestamp) ∈ received calls
  newest : ∀ other ∈ received calls, other.2 ≤ entry.tokenTimestamp
  sender : senderTime entry.senderTimestamp = join time (touched calls)

theorem Newest.read (newest : Newest crypto cipher device jid calls row) (tokens : Tokens calls) :
    ∃ entry, entryOf crypto cipher device jid row = .ok entry ∧ Latest calls entry ∧
      (entry.token = [] ↔ row.token = []) ∧ entry.tokenTimestamp = row.tokenTimestamp ∧
      entry.senderTimestamp = row.senderTimestamp := by
  by_cases none : received calls = []
  · have empty := newest.empty none
    have opened : openAt crypto cipher device (.tcToken jid) row.token = .ok [] := by
      rw [empty]
      cases cipher <;> rfl
    refine ⟨⟨[], row.tokenTimestamp, row.senderTimestamp⟩, by rw [entryOf, opened]; rfl, ?_, by simp [empty], rfl, rfl⟩
    exact ⟨fun _ => rfl, fun some => absurd none some, by simp [none], newest.sender⟩
  · obtain ⟨full, token, opened, member, all⟩ := newest.token none
    refine ⟨⟨token, row.tokenTimestamp, row.senderTimestamp⟩, by rw [entryOf, opened]; rfl, ?_, ?_, rfl, rfl⟩
    · exact ⟨fun empty => absurd empty none, fun _ => member, all, newest.sender⟩
    · exact ⟨fun empty => absurd empty (tokens _ member), fun empty => absurd empty full⟩

theorem Latest.unique {calls' : List Call} {entry entry' : TcTokenEntry} (latest : Latest calls entry)
    (latest' : Latest calls' entry') (perm : calls.Perm calls') (distinct : ((received calls).map Prod.snd).Nodup) :
    entry.token = entry'.token ∧ (received calls ≠ [] → entry.tokenTimestamp = entry'.tokenTimestamp) ∧
      entry.senderTimestamp = entry'.senderTimestamp := by
  have sender : entry.senderTimestamp = entry'.senderTimestamp := by
    apply senderTime_injective
    rw [latest.sender, latest'.sender, join_perm (touched_perm perm)]
  have same := received_perm perm
  by_cases none : received calls = []
  · have none' : received calls' = [] := (none ▸ same).nil_eq.symm
    exact ⟨(latest.empty none).trans (latest'.empty none').symm, fun some => absurd none some, sender⟩
  · have none' : received calls' ≠ [] := fun empty => none (empty ▸ same).eq_nil
    have stored := latest.stored none
    have stored' := same.mem_iff.2 (latest'.stored none')
    have at' : entry.tokenTimestamp = entry'.tokenTimestamp :=
      Int64.le_antisymm (latest'.newest _ (same.mem_iff.1 stored)) (latest.newest _ stored')
    have equal := List.inj_on_of_nodup_map distinct stored stored' at'
    exact ⟨congrArg Prod.fst equal, fun _ => at', sender⟩

theorem getTcToken_of_entry {entry : TcTokenEntry} (read : entryOf crypto cipher device jid row = .ok entry) :
    getTcToken crypto cipher device jid (some row) = .ok (some entry) := by
  rw [getTcToken, read]
  rfl

theorem run_latest (calls : List Call) (nonempty : calls ≠ []) (tokens : Tokens calls) :
    ∃ rows row entry, runAll crypto cipher device jid calls (fun _ => none) = .ok rows ∧ rows ⟨device, jid⟩ = some row ∧
      getTcToken crypto cipher device jid (rows ⟨device, jid⟩) = .ok (some entry) ∧ Latest calls entry ∧
      (entry.token = [] ↔ row.token = []) ∧ entry.tokenTimestamp = row.tokenTimestamp ∧
      entry.senderTimestamp = row.senderTimestamp := by
  have nothing : Holds crypto cipher device jid [] none := rfl
  obtain ⟨rows, ran, holds⟩ := run_holds (fun _ => none) calls nothing tokens
  rw [List.nil_append] at holds
  cases found : rows ⟨device, jid⟩ with
  | none =>
      rw [found] at holds
      exact absurd holds nonempty
  | some row =>
      rw [found] at holds
      obtain ⟨entry, read, latest, token, timestamps⟩ := Newest.read holds tokens
      refine ⟨rows, row, entry, ran, found, ?_, latest, token, timestamps⟩
      rw [found]
      exact getTcToken_of_entry read

theorem deleteExpiredTcTokens_eq_none {rows : Rows Key Row} {tokenCutoff senderCutoff : Int64}
    (found : rows ⟨device, jid⟩ = some row) :
    deleteExpiredTcTokens device tokenCutoff senderCutoff rows ⟨device, jid⟩ = none ↔
      (row.token = [] ∨ row.tokenTimestamp < tokenCutoff) ∧
        ∀ timestamp, row.senderTimestamp = some timestamp → timestamp < senderCutoff := by
  simp only [deleteExpiredTcTokens, found, Option.filter_eq_none_iff, Option.some.injEq, Statements.expired]
  cases sender : row.senderTimestamp with
  | none => simp [sender, or_iff_not_imp_left]
  | some timestamp => simp [sender, or_iff_not_imp_left]

theorem writers_commute (calls : List Call) (nonempty : calls ≠ []) (tokens : Tokens calls)
    (distinct : ((received calls).map Prod.snd).Nodup) :
    ∃ rows entry, runAll crypto cipher device jid calls (fun _ => none) = .ok rows ∧
      getTcToken crypto cipher device jid (rows ⟨device, jid⟩) = .ok (some entry) ∧ Latest calls entry ∧
      (∀ calls', calls.Perm calls' → ∃ rows' entry', runAll crypto cipher device jid calls' (fun _ => none) = .ok rows' ∧
        getTcToken crypto cipher device jid (rows' ⟨device, jid⟩) = .ok (some entry') ∧
        entry.token = entry'.token ∧ (received calls ≠ [] → entry.tokenTimestamp = entry'.tokenTimestamp) ∧
        entry.senderTimestamp = entry'.senderTimestamp) ∧
      ∀ tokenCutoff senderCutoff, deleteExpiredTcTokens device tokenCutoff senderCutoff rows ⟨device, jid⟩ = none ↔
        (entry.token = [] ∨ entry.tokenTimestamp < tokenCutoff) ∧
          ∀ timestamp, entry.senderTimestamp = some timestamp → timestamp < senderCutoff := by
  obtain ⟨rows, row, entry, ran, found, read, latest, token, timestamp, sender⟩ :=
    @run_latest crypto cipher device jid calls nonempty tokens
  refine ⟨rows, entry, ran, read, latest, ?_, ?_⟩
  · intro calls' perm
    have tokens' : Tokens calls' := fun token member => tokens token ((received_perm perm).mem_iff.2 member)
    have nonempty' : calls' ≠ [] := fun none => nonempty (none ▸ perm).eq_nil
    obtain ⟨rows', row', entry', ran', -, read', latest', -⟩ := run_latest calls' nonempty' tokens'
    exact ⟨rows', entry', ran', read', latest.unique latest' perm distinct⟩
  · intro tokenCutoff senderCutoff
    rw [deleteExpiredTcTokens_eq_none found, token, timestamp, sender]

def touchedFirst : List Call :=
  [.touch 5, .receive ⟨List.replicate 24 0, rfl⟩ [1] 3, .receive ⟨List.replicate 24 1, rfl⟩ [2] 2]

theorem writers_commute_touched_first :
    ∃ rows entry, runAll Encryption.openLetter .passthrough 7 "jid" touchedFirst (fun _ => none) = .ok rows ∧
      getTcToken Encryption.openLetter .passthrough 7 "jid" (rows ⟨7, "jid"⟩) = .ok (some entry) ∧ entry.token = [1] := by
  obtain ⟨rows, entry, ran, read, latest, -⟩ := @writers_commute Encryption.openLetter .passthrough 7 "jid" touchedFirst (by simp [touchedFirst]) (by simp [Tokens, touchedFirst, received]) (by decide)
  refine ⟨rows, entry, ran, read, ?_⟩
  have stored := latest.stored (by simp [touchedFirst, received])
  have newest := latest.newest ([1], 3) (by simp [touchedFirst, received])
  simp only [touchedFirst, received, List.mem_cons, Prod.mk.injEq, List.not_mem_nil, or_false] at stored
  rcases stored with ⟨token, -⟩ | ⟨-, old⟩
  · exact token
  · rw [old] at newest
    exact absurd newest (by decide)

end Wamux.Proof.TcTokens
