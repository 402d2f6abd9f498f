import Mathlib
import Wamux.Runs.Failing
import Wamux.MsgSecrets.Table
import Wamux.Proof.Encryption.Agreement

namespace Wamux.Proof.MsgSecrets
open Wamux.MsgSecrets Wamux.Runs Wamux.Runs.Keyed Wamux.Runs.Machine
open Wamux.Encryption (Bytes DeviceId Crypto BlobCipher Nonce)
open Wamux.Encryption.Tables (openAt sealAt)

variable {crypto : Crypto} {cipher : BlobCipher} {s s' : State} {e : Event} {key : Key}

/-- When a row expires: 0 is never. -/
def deadline (expiresAt : Int64) : WithTop ℕ := if expiresAt = 0 then ⊤ else WithTop.some expiresAt.toInt.toNat

def deadlineOf (puts : List MsgSecretEntry) : WithTop ℕ := join (fun entry => deadline entry.expiresAt) puts

def latestOf (puts : List MsgSecretEntry) : WithBot ℤ := join (fun entry => WithBot.some entry.messageTs.toInt) puts

theorem deadline_zero : deadline 0 = ⊤ := rfl

theorem deadline_pos {expiresAt : Int64} (some : expiresAt ≠ 0) : deadline expiresAt = WithTop.some expiresAt.toInt.toNat :=
  if_neg some

theorem deadline_eq_top {expiresAt : Int64} : deadline expiresAt = ⊤ ↔ expiresAt = 0 := by
  unfold deadline
  split <;> simp [*]

theorem deadline_injective {first second : Int64} (nonneg : 0 ≤ first) (nonneg' : 0 ≤ second)
    (same : deadline first = deadline second) : first = second := by
  by_cases never : first = 0
  · subst never
    rw [deadline_zero] at same
    exact (deadline_eq_top.1 same.symm).symm
  · have some : second ≠ 0 := fun zero => never (deadline_eq_top.1 (same.trans (deadline_eq_top.2 zero)))
    rw [deadline_pos never, deadline_pos some, WithTop.coe_inj] at same
    rw [Int64.le_iff_toInt_le] at nonneg nonneg'
    rw [← Int64.toInt_inj]
    have zero : (0 : Int64).toInt = 0 := rfl
    omega

/-! ## One merge -/

theorem laterExpiry_nonneg {stored excluded : Int64} (nonneg : 0 ≤ stored) (nonneg' : 0 ≤ excluded) :
    0 ≤ laterExpiry stored excluded := by
  unfold laterExpiry
  split
  · exact Int64.le_refl 0
  · split
    · exact nonneg
    · exact nonneg'

theorem deadline_laterExpiry {stored excluded : Int64} (nonneg : 0 ≤ stored) (nonneg' : 0 ≤ excluded) :
    deadline (laterExpiry stored excluded) = deadline stored ⊔ deadline excluded := by
  unfold laterExpiry
  split
  · rename_i never
    rcases never with rfl | rfl
    · rw [deadline_zero, top_sup_eq]
    · rw [deadline_zero, sup_top_eq]
  · rename_i never
    rw [not_or] at never
    rw [deadline_pos never.1, deadline_pos never.2, ← WithTop.coe_sup]
    rw [Int64.le_iff_toInt_le] at nonneg nonneg'
    split
    · rename_i later
      rw [gt_iff_lt, Int64.lt_iff_toInt_lt] at later
      rw [deadline_pos never.1, sup_of_le_left (by omega)]
    · rename_i later
      rw [gt_iff_lt, Int64.lt_iff_toInt_lt] at later
      rw [deadline_pos never.2, sup_of_le_right (by omega)]

theorem toInt_laterTs (stored excluded : Int64) :
    ((laterTs stored excluded).toInt : WithBot ℤ) = (stored.toInt : WithBot ℤ) ⊔ (excluded.toInt : WithBot ℤ) := by
  rw [← WithBot.coe_sup]
  unfold laterTs
  split
  · rename_i later
    rw [gt_iff_lt, Int64.lt_iff_toInt_lt] at later
    rw [sup_of_le_left (by omega)]
  · rename_i later
    rw [gt_iff_lt, Int64.lt_iff_toInt_lt] at later
    rw [sup_of_le_right (by omega)]

/-! ## A row and its puts -/

structure Merged (crypto : Crypto) (cipher : BlobCipher) (key : Key) (puts : List MsgSecretEntry) (row : Row) : Prop where
  nonneg : 0 ≤ row.expiresAt
  expiry : deadline row.expiresAt = deadlineOf puts
  ts : WithBot.some row.messageTs.toInt = latestOf puts
  secret : ∃ last, puts.getLast? = some last ∧ openAt crypto cipher key.device key.slot row.secret = .ok last.secret

def Holds (crypto : Crypto) (cipher : BlobCipher) (key : Key) (puts : List MsgSecretEntry) : Option Row → Prop
  | none => puts = []
  | some row => Merged crypto cipher key puts row

theorem Merged.puts {puts : List MsgSecretEntry} {row : Row} (merged : Merged crypto cipher key puts row) : puts ≠ [] := by
  obtain ⟨last, here, -⟩ := merged.secret
  rintro rfl
  cases here

theorem Holds.put {puts : List MsgSecretEntry} {found : Option Row} {device : DeviceId} {nonce : Option Nonce}
    {entry : MsgSecretEntry} {secret : Bytes} (holds : Holds crypto cipher (entry.key device) puts found)
    (nonneg : 0 ≤ entry.expiresAt)
    (sealed : sealAt crypto cipher device nonce (entry.key device).slot entry.secret = .ok secret) :
    Holds crypto cipher (entry.key device) (puts ++ [entry])
      ((putMsgSecret (entry.key device) secret entry.expiresAt entry.messageTs).update found) := by
  have opens : openAt crypto cipher device (entry.key device).slot secret = .ok entry.secret :=
    Encryption.Naming.open_of_seal sealed
  have last : (puts ++ [entry]).getLast? = some entry := List.getLast?_concat
  cases found with
  | none =>
      obtain rfl : puts = [] := holds
      exact ⟨nonneg, by simp [deadlineOf], by simp [latestOf], entry, last, opens⟩
  | some row =>
      have merged : Merged crypto cipher (entry.key device) puts row := holds
      refine ⟨laterExpiry_nonneg merged.nonneg nonneg, ?_, ?_, entry, last, opens⟩
      · rw [deadline_laterExpiry merged.nonneg nonneg, merged.expiry]
        simp [deadlineOf]
      · rw [toInt_laterTs, merged.ts]
        simp [latestOf]

theorem Holds.apply {rows : Rows Key Row} {puts : Key → List MsgSecretEntry} {device : DeviceId} {nonce : Option Nonce}
    {entry : MsgSecretEntry} {statement : Statement Key Row} (holds : ∀ key, Holds crypto cipher key (puts key) (rows key))
    (nonneg : 0 ≤ entry.expiresAt) (prepared : preparedPut crypto cipher device nonce entry = .ok statement) (key : Key) :
    Holds crypto cipher key (puts key ++ putsOn device [entry] key) (statement.apply rows key) := by
  obtain ⟨secret, sealed, here⟩ := Failing.bind_eq_ok.1 prepared
  cases here
  by_cases same : entry.key device = key
  · subst same
    have one : putsOn device [entry] (entry.key device) = [entry] := by simp [putsOn]
    have now : (putMsgSecret (entry.key device) secret entry.expiresAt entry.messageTs).apply rows (entry.key device) =
        (putMsgSecret (entry.key device) secret entry.expiresAt entry.messageTs).update (rows (entry.key device)) :=
      apply_self
    rw [one, now]
    exact (holds _).put nonneg sealed
  · have none : putsOn device [entry] key = [] := by simp [putsOn, same]
    rw [none, List.append_nil, apply_other (Ne.symm same)]
    exact holds key

theorem putsOn_append (device : DeviceId) (first rest : List MsgSecretEntry) (key : Key) :
    putsOn device (first ++ rest) key = putsOn device first key ++ putsOn device rest key := List.filter_append ..

theorem Holds.run {device : DeviceId} {entries : List MsgSecretEntry} {nonces : Nat → Option Nonce}
    {statements : List (Statement Key Row)} {rows : Rows Key Row} {puts : Key → List MsgSecretEntry}
    (holds : ∀ key, Holds crypto cipher key (puts key) (rows key)) (nonneg : ∀ entry ∈ entries, 0 ≤ entry.expiresAt)
    (prepared : List.Forall₂ (fun prepared statement => prepared = .ok statement)
      (entries.mapIdx fun i entry => preparedPut crypto cipher device (nonces i) entry) statements) (key : Key) :
    Holds crypto cipher key (puts key ++ putsOn device entries key) (run statements rows key) := by
  induction entries generalizing nonces statements rows puts with
  | nil =>
      rw [List.mapIdx_nil] at prepared
      cases prepared
      simpa [putsOn] using holds key
  | cons first rest ih =>
      rw [List.mapIdx_cons] at prepared
      cases prepared with
      | cons one others =>
          have after := Holds.apply holds (nonneg first List.mem_cons_self) one
          have nonneg' : ∀ entry ∈ rest, 0 ≤ entry.expiresAt := fun entry member => nonneg entry (List.mem_cons_of_mem _ member)
          have all := @ih (fun i => nonces (i + 1)) _ _ _ after nonneg' others
          rw [List.append_assoc, ← putsOn_append] at all
          exact all

theorem putMsgSecrets_ok {device : DeviceId} {nonces : Nat → Option Nonce} {entries : List MsgSecretEntry}
    {rows rows' : Rows Key Row} {count : Nat} (put : putMsgSecrets crypto cipher device nonces entries rows = .ok (count, rows')) :
    ∃ statements, rows' = run statements rows ∧ List.Forall₂ (fun prepared statement => prepared = .ok statement)
      (entries.mapIdx fun i entry => preparedPut crypto cipher device (nonces i) entry) statements := by
  unfold putMsgSecrets at put
  split at put
  · rename_i none
    rw [List.isEmpty_iff] at none
    subst none
    cases put
    exact ⟨[], rfl, .nil⟩
  · obtain ⟨statements, all, here⟩ := Failing.bind_eq_ok.1 put
    cases here
    exact ⟨statements, rfl, Failing.mapM_eq_ok all⟩

theorem Holds.sweep {puts : List MsgSecretEntry} {found : Option Row} (holds : Holds crypto cipher key puts found)
    (stays : Row → Bool) :
    Holds crypto cipher key (if (found.filter stays).isNone then [] else puts) (found.filter stays) := by
  cases found with
  | none => rfl
  | some row =>
      cases kept : stays row with
      | true =>
          simp only [Option.filter, kept]
          exact holds
      | false =>
          simp only [Option.filter, kept]
          rfl

/-! ## Runs -/

def Sane (_ : State) : Event → Prop
  | .put _ _ entries => ∀ entry ∈ entries, 0 ≤ entry.expiresAt
  | .sweep _ _ => True

def Inv (crypto : Crypto) (cipher : BlobCipher) (s : State) : Prop :=
  ∀ key, Holds crypto cipher key (s.puts key) (s.rows key)

theorem Inv.step (inv : Inv crypto cipher s) (sane : Sane s e) (moved : step crypto cipher s e = some s') :
    Inv crypto cipher s' := by
  cases e with
  | put device nonces entries =>
      simp only [MsgSecrets.step] at moved
      split at moved
      · rename_i count rows put
        cases moved
        obtain ⟨statements, rfl, prepared⟩ := putMsgSecrets_ok put
        exact Holds.run inv sane prepared
      · cases moved
        exact inv
  | sweep device cutoff =>
      cases moved
      exact fun key => (inv key).sweep fun row => !expired device cutoff key row

theorem Inv.initial : Inv crypto cipher (machine crypto cipher).initial := fun _ => show ([] : List MsgSecretEntry) = [] from rfl

theorem inv_of_reaches (reaches : (machine crypto cipher).Reaches Sane s) : Inv crypto cipher s :=
  reaches.invariant (Inv crypto cipher) Inv.initial fun _ _ _ inv sane moved => inv.step sane moved

theorem Merged.expired {puts : List MsgSecretEntry} {row : Row} {device : DeviceId} {cutoff : Int64}
    (merged : Merged crypto cipher key puts row) : expired device cutoff key row = true ↔
      device = key.device ∧ ∃ t : ℕ, deadlineOf puts = WithTop.some t ∧ (t : ℤ) ≤ cutoff.toInt := by
  have nonneg := merged.nonneg
  rw [Int64.le_iff_toInt_le] at nonneg
  have zero : (0 : Int64).toInt = 0 := rfl
  rw [← merged.expiry]
  simp only [MsgSecrets.expired, decide_eq_true_eq, Int64.le_iff_toInt_le]
  constructor
  · rintro ⟨some, past, rfl⟩
    exact ⟨rfl, row.expiresAt.toInt.toNat, deadline_pos some, by omega⟩
  · rintro ⟨rfl, t, here, past⟩
    have some : row.expiresAt ≠ 0 := by
      intro never
      rw [never, deadline_zero] at here
      cases here
    rw [deadline_pos some, WithTop.coe_inj] at here
    exact ⟨some, by omega, rfl⟩

theorem deadlineOf_never {puts : List MsgSecretEntry} (never : ∃ entry ∈ puts, entry.expiresAt = 0) : deadlineOf puts = ⊤ := by
  obtain ⟨entry, member, zero⟩ := never
  have below : deadline entry.expiresAt ≤ deadlineOf puts :=
    le_join (f := fun entry : MsgSecretEntry => deadline entry.expiresAt) member
  rw [zero, deadline_zero] at below
  exact top_le_iff.1 below

theorem never_swept (inv : Inv crypto cipher s) (never : ∃ entry ∈ s.puts key, entry.expiresAt = 0)
    (moved : step crypto cipher s e = some s') : s.puts key <+: s'.puts key := by
  cases e with
  | put device nonces entries =>
      simp only [MsgSecrets.step] at moved
      split at moved <;> cases moved
      · exact List.prefix_append ..
      · exact List.prefix_rfl
  | sweep device cutoff =>
      cases moved
      have here := inv key
      cases found : s.rows key with
      | none =>
          rw [found] at here
          rw [show s.puts key = [] from here]
          exact List.nil_prefix
      | some row =>
          rw [found] at here
          have stays : expired device cutoff key row = false := by
            by_contra dropped
            obtain ⟨-, t, finite, -⟩ := Merged.expired here |>.1 (Bool.not_eq_false _ ▸ dropped)
            rw [deadlineOf_never never] at finite
            cases finite
          simp [deleteExpired, found, Option.filter, stays]

structure Retained (crypto : Crypto) (cipher : BlobCipher) (s : State) (key : Key) : Prop where
  absent : s.rows key = none ↔ s.puts key = []
  expiry : ∀ row, s.rows key = some row → deadline row.expiresAt = deadlineOf (s.puts key)
  ts : ∀ row, s.rows key = some row → WithBot.some row.messageTs.toInt = latestOf (s.puts key)
  secret : ∀ row, s.rows key = some row → ∃ last, (s.puts key).getLast? = some last ∧
    getMsgSecret crypto cipher key.device key.chat key.sender key.msgId s.rows = .ok (some last.secret)
  swept : ∀ device cutoff s', step crypto cipher s (.sweep device cutoff) = some s' → s.rows key ≠ none →
    (s'.rows key = none ↔ device = key.device ∧
      ∃ t : ℕ, deadlineOf (s.puts key) = WithTop.some t ∧ (t : ℤ) ≤ cutoff.toInt)
  forever : (∃ entry ∈ s.puts key, entry.expiresAt = 0) → ∀ s', (machine crypto cipher).Leads Sane s s' →
    s'.rows key ≠ none

theorem retained_of_reaches (reaches : (machine crypto cipher).Reaches Sane s) (key : Key) :
    Retained crypto cipher s key := by
  have here := inv_of_reaches reaches key
  have merged : ∀ row, s.rows key = some row → Merged crypto cipher key (s.puts key) row := by
    intro row found
    rwa [found] at here
  constructor
  case absent =>
    cases found : s.rows key with
    | none =>
        rw [found] at here
        exact ⟨fun _ => here, fun _ => rfl⟩
    | some row => exact ⟨nofun, fun none => absurd none (merged row found).puts⟩
  case expiry => exact fun row found => (merged row found).expiry
  case ts => exact fun row found => (merged row found).ts
  case secret =>
    intro row found
    obtain ⟨last, ends, opens⟩ := (merged row found).secret
    refine ⟨last, ends, ?_⟩
    rw [getMsgSecret, found]
    exact congrArg (Except.map some) opens
  case swept =>
    intro device cutoff s' moved present
    cases moved
    cases found : s.rows key with
    | none => exact absurd found present
    | some row =>
        rw [← (merged row found).expired]
        simp [deleteExpired, found]
  case forever =>
    intro never s' leads
    have kept : s.puts key <+: s'.puts key := leads.stable (fun s' => s.puts key <+: s'.puts key) reaches List.prefix_rfl
      fun t e t' reached grown _ moved => by
        obtain ⟨entry, member, zero⟩ := never
        exact grown.trans (never_swept (inv_of_reaches reached) ⟨entry, grown.subset member, zero⟩ moved)
    have holds := inv_of_reaches (leads.reaches reaches) key
    obtain ⟨entry, member, -⟩ := never
    intro gone
    rw [gone] at holds
    have none : s'.puts key = [] := holds
    rw [none] at kept
    rw [List.prefix_nil.1 kept] at member
    cases member

theorem retention_never_shortened (reaches : (machine crypto cipher).Reaches Sane s) (key : Key) :
    Retained crypto cipher s key ∧
    ∀ s', (machine crypto cipher).Reaches Sane s' → (s.puts key).Perm (s'.puts key) →
      (s.rows key).map (fun row => (row.expiresAt, row.messageTs)) =
        (s'.rows key).map fun row => (row.expiresAt, row.messageTs) := by
  refine ⟨retained_of_reaches reaches key, fun s' reaches' perm => ?_⟩
  have here := inv_of_reaches reaches key
  have there := inv_of_reaches reaches' key
  cases found : s.rows key with
  | none =>
      rw [found] at here
      rw [show s.puts key = [] from here] at perm
      cases found' : s'.rows key with
      | none => rfl
      | some row' =>
          rw [found'] at there
          exact absurd perm.nil_eq.symm (Merged.puts there)
  | some row =>
      rw [found] at here
      have merged : Merged crypto cipher key (s.puts key) row := here
      cases found' : s'.rows key with
      | none =>
          rw [found'] at there
          rw [show s'.puts key = [] from there] at perm
          exact absurd perm.eq_nil merged.puts
      | some row' =>
          rw [found'] at there
          have merged' : Merged crypto cipher key (s'.puts key) row' := there
          have expiry : row.expiresAt = row'.expiresAt := by
            refine deadline_injective merged.nonneg merged'.nonneg ?_
            rw [merged.expiry, merged'.expiry, deadlineOf, deadlineOf, join_perm perm]
          have ts : row.messageTs = row'.messageTs := by
            rw [← Int64.toInt_inj, ← WithBot.coe_inj, merged.ts, merged'.ts, latestOf, latestOf, join_perm perm]
          rw [Option.map_some, Option.map_some, expiry, ts]

theorem getStoredMsgSecret_newest (reaches : (machine crypto cipher).Reaches Sane s) (key : Key) (there : s.puts key ≠ []) :
    ∃ last ts, (s.puts key).getLast? = some last ∧ WithBot.some ts.toInt = latestOf (s.puts key) ∧
      getStoredMsgSecret crypto cipher key.device key.chat key.sender key.msgId s.rows = .ok (some (last.secret, ts)) := by
  have here := inv_of_reaches reaches key
  cases found : s.rows key with
  | none =>
      rw [found] at here
      exact absurd here there
  | some row =>
      rw [found] at here
      obtain ⟨-, -, ts, last, ends, opens⟩ : Merged crypto cipher key (s.puts key) row := here
      refine ⟨last, row.messageTs, ends, ts, ?_⟩
      rw [getStoredMsgSecret, found]
      exact congrArg (Except.map fun secret => some (secret, row.messageTs)) opens

def redelivered : List Event :=
  [.put 1 (fun _ => none) [⟨"chat", "sender", "id", [7], 5, 3⟩], .put 1 (fun _ => none) [⟨"chat", "sender", "id", [8], 0, 1⟩],
    .sweep 1 10]

def sane (_ : State) : Event → Bool
  | .put _ _ entries => entries.all fun entry => 0 ≤ entry.expiresAt
  | .sweep _ _ => true

theorem sane_sound (s : State) (e : Event) (checked : sane s e = true) : Sane s e := by
  cases e with
  | put device nonces entries =>
      intro entry member
      simpa using List.all_eq_true.1 checked entry member
  | sweep device cutoff => trivial

theorem retention_never_shortened_redelivered : ∃ s, (machine Encryption.openLetter .passthrough).Reaches Sane s ∧
    (s.rows ⟨1, "chat", "sender", "id"⟩).map (fun row => (row.secret, row.expiresAt, row.messageTs)) = some ([8], 0, 3) ∧
    Retained Encryption.openLetter .passthrough s ⟨1, "chat", "sender", "id"⟩ := by
  obtain ⟨s, reaches, row⟩ := reaches_of_replay (m := machine Encryption.openLetter .passthrough) sane_sound
    (fun s => (s.rows ⟨1, "chat", "sender", "id"⟩).map (fun row => (row.secret, row.expiresAt, row.messageTs)) =
      some ([8], 0, 3)) redelivered (by decide +kernel)
  exact ⟨s, reaches, of_decide_eq_true row, (retention_never_shortened reaches _).1⟩

end Wamux.Proof.MsgSecrets
