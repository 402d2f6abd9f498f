import Mathlib.Data.List.Nodup
import Wamux.Events.AllAccounts
import Wamux.Proof.Events.Recovery

namespace Wamux.Proof.Events.Membership
open Wamux.Events.AllAccounts Wamux.Runs Wamux.Runs.Machine

variable {α : Type} {tuning : Tuning α} {replay : Nat} {s s' : State α}

/-! ## The follower -/

def covered (s : State α) : List AccountId := s.gaps.flatMap Prod.snd

def owed : Follower → List AccountId
  | .sending missed _ => missed
  | .idle | .subscribed | .listing _ | .attaching _ _ | .following _ | .ended => []

structure Covers (s : State α) (snapshot : List AccountId) : Prop where
  before : s.before ⊆ snapshot
  told : ∀ a, s.inserts a = .done → a ∈ snapshot ∨ a ∈ s.sent

structure Members (s : State α) (snapshot followed : List AccountId) : Prop where
  forwards : s.forwards = snapshot ++ followed
  single : snapshot.Nodup
  sublist : followed.Sublist s.consumed
  apart : ∀ a ∈ followed, a ∉ snapshot
  covers : Covers s snapshot
  consumed : ∀ a ∈ s.consumed, a ∈ snapshot ∨ a ∈ followed ∨ a ∈ covered s ++ owed s.follower

def Knows (s : State α) : Prop :=
  match s.follower with
  | .idle | .subscribed => s.forwards = [] ∧ s.consumed = []
  | .listing before => s.forwards = [] ∧ s.consumed = [] ∧ s.before = before ∧
      ∀ a, s.inserts a = .done → a ∈ before ∨ a ∈ s.sent
  | .attaching rest snapshot => s.consumed = [] ∧ s.forwards ++ rest = snapshot ∧ snapshot.Nodup ∧ Covers s snapshot
  | .following snapshot | .sending _ snapshot => ∃ followed, Members s snapshot followed
  | .ended => s.forwards.Nodup

structure Inv (s : State α) : Prop where
  handles : ∀ a, s.inserts a = .notify ∨ s.inserts a = .done → a ∈ s.handles
  notices : s.follower ≠ .ended → s.consumed ++ s.notices.missed ++ s.notices.queue = s.sent
  single : s.sent.Nodup
  done : ∀ a ∈ s.sent, s.inserts a = .done
  attached : ∀ a, s.attached a = none ↔ a ∉ s.forwards
  markers : ∀ gap ∈ s.gaps, gap.1 = createdGapMarker gap.2.length
  knows : Knows s

theorem Inv.forwards (inv : Inv s) : s.forwards.Nodup := by
  have knows := inv.knows
  have notices := inv.notices
  unfold Knows at knows
  cases phase : s.follower with
  | idle =>
      rw [phase] at knows
      rw [knows.1]
      exact List.nodup_nil
  | subscribed =>
      rw [phase] at knows
      rw [knows.1]
      exact List.nodup_nil
  | listing before =>
      rw [phase] at knows
      rw [knows.1]
      exact List.nodup_nil
  | attaching rest snapshot =>
      rw [phase] at knows
      obtain ⟨-, split, single, -⟩ := knows
      rw [← split] at single
      exact (List.nodup_append.1 single).1
  | ended =>
      rw [phase] at knows
      exact knows
  | _ =>
      rw [phase] at knows
      obtain ⟨followed, members⟩ := knows
      have consumed : s.consumed.Nodup := by
        have single := inv.single
        rw [← notices (by simp [phase]), List.append_assoc] at single
        exact (List.nodup_append.1 single).1
      rw [members.forwards, List.nodup_append]
      refine ⟨members.single, consumed.sublist members.sublist, ?_⟩
      rintro a mine b its rfl
      exact members.apart a its mine

theorem Knows.told {notices : Notices} {sent : List AccountId} {inserts : AccountId → Insert}
    {handles : List AccountId} (knows : Knows s)
    (told : s.listens = true → ∀ a, inserts a = .done → s.inserts a = .done ∨ a ∈ sent)
    (more : s.sent ⊆ sent) :
    Knows { s with notices := notices, sent := sent, inserts := inserts, handles := handles } := by
  have still {snapshot : List AccountId} (listens : s.listens = true) (covers : Covers s snapshot) (a : AccountId)
      (done : inserts a = .done) : a ∈ snapshot ∨ a ∈ sent := by
    rcases told listens a done with before | new
    · exact (covers.told a before).imp_right fun sent => more sent
    · exact .inr new
  unfold Knows at knows ⊢
  cases phase : s.follower with
  | idle => rwa [phase] at knows
  | subscribed => rwa [phase] at knows
  | ended => rwa [phase] at knows
  | listing before =>
      rw [phase] at knows
      refine ⟨knows.1, knows.2.1, knows.2.2.1, fun a done => ?_⟩
      rcases told (by simp [State.listens, phase]) a done with before | new
      · exact (knows.2.2.2 a before).imp_right fun sent => more sent
      · exact .inr new
  | attaching rest snapshot =>
      rw [phase] at knows
      obtain ⟨consumed, split, single, covers⟩ := knows
      exact ⟨consumed, split, single, covers.before, still (by simp [State.listens, phase]) covers⟩
  | following snapshot =>
      rw [phase] at knows
      obtain ⟨followed, members⟩ := knows
      have covers := members.covers
      have consumed := members.consumed
      rw [phase] at consumed
      exact ⟨followed, members.forwards, members.single, members.sublist, members.apart,
        ⟨covers.before, still (by simp [State.listens, phase]) covers⟩, consumed⟩
  | sending missed snapshot =>
      rw [phase] at knows
      obtain ⟨followed, members⟩ := knows
      have covers := members.covers
      have consumed := members.consumed
      rw [phase] at consumed
      exact ⟨followed, members.forwards, members.single, members.sublist, members.apart,
        ⟨covers.before, still (by simp [State.listens, phase]) covers⟩, consumed⟩

theorem Inv.setInsert {a : AccountId} {next : Insert} {handles : List AccountId} (inv : Inv s)
    (unfinished : s.inserts a ≠ .done) (more : s.handles ⊆ handles)
    (registered : next = .notify ∨ next = .done → a ∈ handles) (quiet : next = .done → s.listens = false) :
    Inv ({ s with handles := handles }.setInsert a next) := by
  refine ⟨fun b phase => ?_, inv.notices, inv.single, fun b sent => ?_, inv.attached, inv.markers, ?_⟩
  · by_cases same : b = a
    · simp only [State.setInsert, same, Function.update_self] at phase
      exact same ▸ registered phase
    · simp only [State.setInsert, Function.update_of_ne same] at phase
      exact more (inv.handles b phase)
  · have before := inv.done b sent
    have other : b ≠ a := by
      rintro rfl
      exact unfinished before
    simp [State.setInsert, Function.update_of_ne other, before]
  · apply inv.knows.told
    · intro listens b done
      by_cases same : b = a
      · rw [same, Function.update_self] at done
        rw [quiet done] at listens
        cases listens
      · rw [Function.update_of_ne same] at done
        exact .inl done
    · exact fun _ member => member

theorem Inv.notify {a : AccountId} (inv : Inv s) (phase : s.inserts a = .notify) :
    Inv ({ s with notices := { s.notices with queue := s.notices.queue ++ [a] },
                  sent := s.sent ++ [a] }.setInsert a .done) := by
  have fresh : a ∉ s.sent := by
    intro sent
    rw [inv.done a sent] at phase
    cases phase
  refine ⟨fun b done => ?_, fun listening => ?_, ?_, fun b sent => ?_, inv.attached, inv.markers, ?_⟩
  · by_cases same : b = a
    · exact same ▸ inv.handles a (.inl phase)
    · simp only [State.setInsert, Function.update_of_ne same] at done
      exact inv.handles b done
  · dsimp only [State.setInsert]
    rw [← List.append_assoc, inv.notices listening]
  · dsimp only [State.setInsert]
    rw [List.nodup_append]
    refine ⟨inv.single, List.nodup_singleton a, ?_⟩
    rintro b sent c only rfl
    rw [List.mem_singleton.1 only] at sent
    exact fresh sent
  · dsimp only [State.setInsert]
    rw [Function.update_apply]
    split
    · rfl
    · rename_i other
      rcases List.mem_append.1 sent with before | only
      · exact inv.done b before
      · exact absurd (List.mem_singleton.1 only) other
  · apply inv.knows.told
    · intro _ b done
      by_cases same : b = a
      · exact .inr (List.mem_append_right _ (List.mem_singleton.2 same))
      · rw [Function.update_of_ne same] at done
        exact .inl done
    · exact List.subset_append_left _ _

theorem Inv.insertNext {a : AccountId} (inv : Inv s) (moved : insertNext s a = some s') : Inv s' := by
  unfold Wamux.Events.AllAccounts.insertNext at moved
  split at moved
  · rename_i phase
    cases moved
    exact inv.setInsert (by simp [phase]) (fun _ member => member) (by simp) (by simp)
  · rename_i phase
    cases moved
    exact inv.setInsert (by simp [phase]) (List.subset_append_left _ _) (by simp) (by simp)
  · rename_i phase
    split at moved
    · cases moved
      exact inv.notify phase
    · rename_i quiet
      cases moved
      refine inv.setInsert (by simp [phase]) (fun _ member => member) (fun _ => inv.handles a (.inl phase)) ?_
      exact fun _ => Bool.eq_false_iff.2 quiet
  all_goals cases moved

theorem Inv.list (inv : Inv s) (phase : s.follower = .subscribed) :
    Inv { s with follower := .listing s.handles, before := s.handles } := by
  have knows := inv.knows
  unfold Knows at knows
  rw [phase] at knows
  refine ⟨inv.handles, fun _ => inv.notices (by simp [phase]), inv.single, inv.done, inv.attached, inv.markers, ?_⟩
  exact ⟨knows.1, knows.2, rfl, fun a done => .inl (inv.handles a (.inr done))⟩

theorem Inv.listed {before seen : List AccountId} (inv : Inv s) (phase : s.follower = .listing before)
    (kept : before ⊆ seen) (single : seen.Nodup) : Inv { s with follower := .attaching seen seen } := by
  have knows := inv.knows
  unfold Knows at knows
  rw [phase] at knows
  obtain ⟨forwards, consumed, same, told⟩ := knows
  refine ⟨inv.handles, fun _ => inv.notices (by simp [phase]), inv.single, inv.done, inv.attached, inv.markers, ?_⟩
  refine ⟨consumed, by simp [forwards], single, ?_, fun a done => ?_⟩
  · rw [same]
    exact kept
  · exact (told a done).imp_left fun member => kept member

theorem attached_forward {a : AccountId} {origin : Origin} (attached : ∀ a, s.attached a = none ↔ a ∉ s.forwards)
    (b : AccountId) : (s.forward a origin).attached b = none ↔ b ∉ (s.forward a origin).forwards := by
  by_cases same : b = a
  · simp [State.forward, same]
  · simp [State.forward, same, attached b]

theorem Inv.attach {a : AccountId} {rest snapshot : List AccountId} (inv : Inv s)
    (phase : s.follower = .attaching (a :: rest) snapshot) :
    Inv ({ s with follower := .attaching rest snapshot }.forward a .snapshot) := by
  have knows := inv.knows
  unfold Knows at knows
  rw [phase] at knows
  obtain ⟨consumed, split, single, covers⟩ := knows
  refine ⟨inv.handles, fun _ => inv.notices (by simp [phase]), inv.single, inv.done, attached_forward inv.attached,
    inv.markers, ?_⟩
  refine ⟨consumed, ?_, single, covers.before, covers.told⟩
  rw [← split]
  simp [State.forward]

theorem Inv.attachedAll {snapshot : List AccountId} (inv : Inv s) (phase : s.follower = .attaching [] snapshot) :
    Inv { s with follower := .following snapshot } := by
  have knows := inv.knows
  unfold Knows at knows
  rw [phase] at knows
  obtain ⟨consumed, split, single, covers⟩ := knows
  refine ⟨inv.handles, fun _ => inv.notices (by simp [phase]), inv.single, inv.done, inv.attached, inv.markers, ?_⟩
  refine ⟨[], by simpa using split, single, List.nil_sublist _, nofun, ⟨covers.before, covers.told⟩, ?_⟩
  simp [consumed]

theorem Inv.skips {a : AccountId} {rest snapshot : List AccountId} (inv : Inv s)
    (phase : s.follower = .following snapshot) (missed : s.notices.missed = []) (queue : s.notices.queue = a :: rest)
    (listed : a ∈ snapshot) :
    Inv { s with notices := { s.notices with queue := rest }, consumed := s.consumed ++ [a] } := by
  have knows := inv.knows
  unfold Knows at knows
  rw [phase] at knows
  obtain ⟨followed, members⟩ := knows
  have covers := members.covers
  refine ⟨inv.handles, fun listens => ?_, inv.single, inv.done, inv.attached, inv.markers, ?_⟩
  · have notices := inv.notices listens
    simpa [missed, queue] using notices
  · unfold Knows
    rw [phase]
    refine ⟨followed, members.forwards, members.single, members.sublist.trans (List.sublist_append_left _ _),
      members.apart, ⟨covers.before, covers.told⟩, fun b member => ?_⟩
    have consumed := members.consumed
    rw [phase] at consumed
    rcases List.mem_append.1 member with before | only
    · exact consumed b before
    · exact .inl (List.mem_singleton.1 only ▸ listed)

theorem Inv.follows {a : AccountId} {rest snapshot : List AccountId} (inv : Inv s)
    (phase : s.follower = .following snapshot) (missed : s.notices.missed = []) (queue : s.notices.queue = a :: rest)
    (new : a ∉ snapshot) :
    Inv ({ s with notices := { s.notices with queue := rest }, consumed := s.consumed ++ [a] }.forward a .created) := by
  have knows := inv.knows
  unfold Knows at knows
  rw [phase] at knows
  obtain ⟨followed, members⟩ := knows
  have covers := members.covers
  refine ⟨inv.handles, fun listens => ?_, inv.single, inv.done, attached_forward inv.attached, inv.markers, ?_⟩
  · have notices := inv.notices listens
    simpa [State.forward, missed, queue] using notices
  · unfold Knows
    simp only [State.forward, phase]
    refine ⟨followed ++ [a], ?_, members.single, members.sublist.append (List.Sublist.refl _), ?_,
      ⟨covers.before, covers.told⟩, fun b member => ?_⟩
    · rw [members.forwards, List.append_assoc]
    · intro b member
      rcases List.mem_append.1 member with before | only
      · exact members.apart b before
      · exact List.mem_singleton.1 only ▸ new
    · rcases List.mem_append.1 member with before | only
      · rcases members.consumed b before with listed | followed | owed
        · exact .inl listed
        · exact .inr (.inl (List.mem_append_left _ followed))
        · rw [phase] at owed
          exact .inr (.inr owed)
      · exact .inr (.inl (List.mem_append_right _ only))

theorem Inv.lags {snapshot : List AccountId} (inv : Inv s) (phase : s.follower = .following snapshot) :
    Inv { s with notices := { s.notices with missed := [] }, consumed := s.consumed ++ s.notices.missed,
                 follower := .sending s.notices.missed snapshot } := by
  have knows := inv.knows
  unfold Knows at knows
  rw [phase] at knows
  obtain ⟨followed, members⟩ := knows
  have covers := members.covers
  refine ⟨inv.handles, fun _ => ?_, inv.single, inv.done, inv.attached, inv.markers, ?_⟩
  · have notices := inv.notices (by simp [phase])
    simpa using notices
  · refine ⟨followed, members.forwards, members.single, members.sublist.trans (List.sublist_append_left _ _),
      members.apart, ⟨covers.before, covers.told⟩, fun b member => ?_⟩
    rcases List.mem_append.1 member with before | missed
    · rcases members.consumed b before with listed | followed | owed
      · exact .inl listed
      · exact .inr (.inl followed)
      · rw [phase] at owed
        simp only [Membership.owed, List.append_nil] at owed
        exact .inr (.inr (List.mem_append_left _ owed))
    · exact .inr (.inr (List.mem_append_right _ missed))

theorem Inv.marks {missed snapshot : List AccountId} (inv : Inv s) (phase : s.follower = .sending missed snapshot) :
    Inv { s with follower := .following snapshot, gaps := s.gaps ++ [(createdGapMarker missed.length, missed)] } := by
  have knows := inv.knows
  unfold Knows at knows
  rw [phase] at knows
  obtain ⟨followed, members⟩ := knows
  have covers := members.covers
  refine ⟨inv.handles, fun _ => inv.notices (by simp [phase]), inv.single, inv.done, inv.attached, fun gap member => ?_, ?_⟩
  · rcases List.mem_append.1 member with before | only
    · exact inv.markers gap before
    · rw [List.mem_singleton.1 only]
  · refine ⟨followed, members.forwards, members.single, members.sublist, members.apart, ⟨covers.before, covers.told⟩,
      fun b member => ?_⟩
    have before := members.consumed b member
    rw [phase] at before
    simpa [covered, owed] using before

theorem Inv.overrun {oldest : AccountId} {rest : List AccountId} (inv : Inv s) (queue : s.notices.queue = oldest :: rest) :
    Inv { s with notices := ⟨s.notices.missed ++ [oldest], rest⟩ } := by
  refine ⟨inv.handles, fun listens => ?_, inv.single, inv.done, inv.attached, inv.markers, ?_⟩
  · have notices := inv.notices listens
    simpa [queue] using notices
  · exact inv.knows.told (fun _ _ done => .inl done) fun _ member => member

theorem Inv.hangUp (inv : Inv s) : Inv { s with follower := .ended, notices := {} } :=
  ⟨inv.handles, fun listens => absurd rfl listens, inv.single, inv.done, inv.attached, inv.markers, inv.forwards⟩

theorem Inv.follow {snapshot : List AccountId} (inv : Inv s) (phase : s.follower = .following snapshot)
    (moved : follow s snapshot = some s') : Inv s' := by
  unfold Wamux.Events.AllAccounts.follow Notices.recv at moved
  cases missed : s.notices.missed with
  | nil =>
      cases queue : s.notices.queue with
      | nil => simp [missed, queue] at moved
      | cons a rest =>
          simp only [missed, queue] at moved
          split at moved
          · rename_i listed
            cases moved
            have skipped := inv.skips phase missed queue (List.contains_iff_mem.1 listed)
            simp only [missed] at skipped
            exact skipped
          · rename_i new
            cases moved
            have followed := inv.follows phase missed queue fun listed => new (List.contains_iff_mem.2 listed)
            simp only [missed] at followed
            exact followed
  | cons oldest rest =>
      simp only [missed, Option.some.injEq] at moved
      have lagged := inv.lags phase
      rw [missed] at lagged
      rwa [← moved]

/-! ## The accounts -/

structure Accounts (tuning : Tuning α) (s : State α) : Prop where
  unattached : ∀ a, s.attached a = none → (s.accounts a).forwarder = .idle
  first : ∀ a, (s.accounts a).forwarder = .idle ∨ (s.accounts a).forwarder = .subscribed → s.published a = none
  recovering : ∀ a, s.attached a ≠ some .snapshot →
    Recovering (tuning.config a usizeMax) (s.accounts a) (s.published a)

theorem step_config {a : AccountId} {r r' : Nat} {e : Events.Event α} (other : e ≠ .snapshot)
    (account : Events.State α) : Events.step (tuning.config a r) account e = Events.step (tuning.config a r') account e := by
  cases e with
  | snapshot => exact absurd rfl other
  | _ => rfl

theorem forwarder_early {config : Events.Config α} {account account' : Events.State α} {e : Events.Event α}
    (moved : Events.step config account e = some account')
    (early : account'.forwarder = .idle ∨ account'.forwarder = .subscribed) :
    (account.forwarder = .idle ∨ account.forwarder = .subscribed) ∧ e ≠ .snapshot := by
  cases e with
  | stamp inner now =>
      simp only [Events.step] at moved
      split at moved <;> cases moved
      exact ⟨early, by simp⟩
  | push =>
      simp only [Events.step] at moved
      split at moved <;> cases moved
      exact ⟨early, by simp⟩
  | broadcast =>
      simp only [Events.step] at moved
      split at moved
      · split at moved <;> cases moved <;> exact ⟨early, by simp⟩
      · cases moved
  | subscribe =>
      simp only [Events.step] at moved
      split at moved <;> cases moved
      exact ⟨.inl ‹_›, by simp⟩
  | snapshot =>
      simp only [Events.step] at moved
      split at moved
      · cases moved
        dsimp only at early
        split at early <;> simp at early
      · cases moved
  | next state =>
      simp only [Events.step, Events.forwardNext] at moved
      split at moved
      · cases moved
        simp at early
      · cases moved
        simp at early
      · obtain ⟨⟨received, rx⟩, -, rfl⟩ := Option.map_eq_some_iff.1 moved
        cases received with
        | event envelope =>
            simp only [Events.State.receive] at early
            split at early <;> simp_all
        | lagged missed => simp [Events.State.receive] at early
      · cases moved
        simp at early
      all_goals cases moved
  | overrun =>
      simp only [Events.step] at moved
      split at moved <;> cases moved
      exact ⟨early, by simp⟩
  | hangUp =>
      simp only [Events.step] at moved
      split at moved <;> cases moved
      simp at early

theorem forwarder_idle {config : Events.Config α} {account account' : Events.State α} {e : Events.Event α}
    (moved : Events.step config account e = some account') (idle : account.forwarder = .idle) (other : e ≠ .subscribe) :
    account'.forwarder = .idle := by
  cases e with
  | subscribe => exact absurd rfl other
  | stamp inner now =>
      simp only [Events.step] at moved
      split at moved <;> cases moved
      exact idle
  | push =>
      simp only [Events.step] at moved
      split at moved <;> cases moved
      exact idle
  | broadcast =>
      simp only [Events.step] at moved
      split at moved
      · split at moved <;> cases moved <;> exact idle
      · cases moved
  | snapshot => simp [Events.step, idle] at moved
  | next state => simp [Events.step, Events.forwardNext, idle] at moved
  | overrun =>
      simp only [Events.step] at moved
      split at moved <;> cases moved
      exact idle
  | hangUp => simp [Events.step, idle] at moved

theorem countPublished_ne {config : Events.Config α} {a b : AccountId} {e : Events.Event α} (other : b ≠ a) :
    countPublished config s a e b = s.published b := by
  cases e with
  | snapshot => exact Function.update_of_ne other ..
  | _ => rfl

theorem countPublished_eq {config : Events.Config α} {a : AccountId} {e : Events.Event α} (other : e ≠ .snapshot) :
    countPublished config s a e = s.published := by
  cases e with
  | snapshot => exact absurd rfl other
  | _ => rfl

theorem Accounts.account {a : AccountId} {e : Events.Event α} (accounts : Accounts tuning s)
    (moved : stepAccount tuning replay s a e = some s') : Accounts tuning s' := by
  unfold stepAccount at moved
  dsimp only at moved
  split at moved
  · rename_i may
    obtain ⟨account, stepped, rfl⟩ := Option.map_eq_some_iff.1 moved
    refine ⟨fun b none => ?_, fun b early => ?_, fun b origin => ?_⟩
    · by_cases mine : b = a
      · subst mine
        dsimp only at none ⊢
        rw [Function.update_self]
        apply forwarder_idle stepped (accounts.unattached b none)
        rintro rfl
        simp [mayStep, none] at may
      · dsimp only
        rw [Function.update_of_ne mine]
        exact accounts.unattached b none
    · by_cases mine : b = a
      · subst mine
        dsimp only at early ⊢
        rw [Function.update_self] at early
        obtain ⟨before, other⟩ := forwarder_early stepped early
        rw [countPublished_eq other]
        exact accounts.first b before
      · dsimp only at early ⊢
        rw [Function.update_of_ne mine] at early
        rw [countPublished_ne mine]
        exact accounts.first b early
    · by_cases mine : b = a
      · subst mine
        have recovering := accounts.recovering b origin
        dsimp only at origin ⊢
        rw [Function.update_self]
        by_cases snapshot : e = .snapshot
        · subst snapshot
          have subscribed : (s.accounts b).forwarder = .subscribed := by
            simp only [Events.step] at stepped
            split at stepped
            · assumption
            · cases stepped
          have created : s.attached b = some .created := by
            cases attached : s.attached b with
            | none => simp [accounts.unattached b attached] at subscribed
            | some from_ =>
                cases from_ with
                | snapshot => exact absurd attached origin
                | created => rfl
          simp only [created, replayOf] at stepped ⊢
          rw [accounts.first b (.inr subscribed)] at recovering
          rw [countPublished, Function.update_self]
          exact recovering.snapshot tuning.fits stepped
        · rw [countPublished_eq snapshot]
          rw [step_config snapshot] at stepped
          exact recovering.step snapshot stepped
      · dsimp only
        rw [Function.update_of_ne mine, countPublished_ne mine]
        exact accounts.recovering b origin
  · cases moved

theorem Accounts.forward {a : AccountId} {origin : Origin} (accounts : Accounts tuning s) (unattached : s.attached a = none) :
    Accounts tuning (s.forward a origin) := by
  refine ⟨fun b none => ?_, accounts.first, fun b other => ?_⟩
  · by_cases same : b = a
    · simp [State.forward, same] at none
    · simp only [State.forward, Function.update_of_ne same] at none
      exact accounts.unattached b none
  · by_cases same : b = a
    · subst same
      exact accounts.recovering b (by simp [unattached])
    · simp only [State.forward, Function.update_of_ne same] at other
      exact accounts.recovering b other

theorem Accounts.beside {inserts : AccountId → Insert} {handles sent consumed before : List AccountId} {notices : Notices}
    {follower : Follower} {gaps : List (Events.Envelope α × List AccountId)} (accounts : Accounts tuning s) :
    Accounts tuning { s with inserts := inserts, handles := handles, sent := sent, consumed := consumed,
                             before := before, notices := notices, follower := follower, gaps := gaps } :=
  ⟨accounts.unattached, accounts.first, accounts.recovering⟩

/-! ## Every step -/

structure Sound (tuning : Tuning α) (s : State α) : Prop where
  inv : Inv s
  accounts : Accounts tuning s

theorem Sound.follow {snapshot : List AccountId} (sound : Sound tuning s) (phase : s.follower = .following snapshot)
    (moved : follow s snapshot = some s') : Sound tuning s' := by
  refine ⟨sound.inv.follow phase moved, ?_⟩
  have after := (sound.inv.follow phase moved).forwards
  unfold Wamux.Events.AllAccounts.follow at moved
  split at moved
  · cases moved
  · dsimp only at moved
    split at moved
    · cases moved
      exact sound.accounts.beside
    · cases moved
      apply Accounts.forward sound.accounts.beside
      -- it is attached now, once, so it was not before
      have once := after
      simp only [State.forward, List.nodup_append, List.mem_singleton] at once
      exact (sound.inv.attached _).2 fun member => once.2.2 _ member _ rfl rfl
  · cases moved
    exact sound.accounts.beside

theorem Sound.step {e : Event α} (sound : Sound tuning s) (moved : step tuning replay s e = some s') :
    Sound tuning s' := by
  obtain ⟨inv, accounts⟩ := sound
  cases e with
  | insert a =>
      simp only [Wamux.Events.AllAccounts.step] at moved
      split at moved
      · rename_i absent
        cases moved
        exact ⟨inv.setInsert (by simp [absent]) (fun _ member => member) (by simp) (by simp), accounts.beside⟩
      · cases moved
  | insertNext a =>
      refine ⟨inv.insertNext moved, ?_⟩
      simp only [Wamux.Events.AllAccounts.step, insertNext] at moved
      split at moved
      · cases moved
        exact accounts.beside
      · cases moved
        exact accounts.beside
      · split at moved <;> cases moved <;> exact accounts.beside
      all_goals cases moved
  | subscribe =>
      simp only [Wamux.Events.AllAccounts.step] at moved
      split at moved
      · rename_i phase
        cases moved
        have knows := inv.knows
        unfold Knows at knows
        rw [phase] at knows
        exact ⟨⟨inv.handles, fun _ => inv.notices (by simp [phase]), inv.single, inv.done, inv.attached, inv.markers,
          knows⟩, accounts.beside⟩
      · cases moved
  | list =>
      simp only [Wamux.Events.AllAccounts.step] at moved
      split at moved
      · cases moved
        exact ⟨inv.list ‹_›, accounts.beside⟩
      · cases moved
  | listed seen =>
      simp only [Wamux.Events.AllAccounts.step] at moved
      split at moved
      · split at moved
        · rename_i saw
          cases moved
          exact ⟨inv.listed ‹_› saw.1 saw.2.2, accounts.beside⟩
        · cases moved
      · cases moved
  | attach =>
      simp only [Wamux.Events.AllAccounts.step] at moved
      split at moved
      · cases moved
        exact ⟨inv.attachedAll ‹_›, accounts.beside⟩
      · rename_i a rest snapshot phase
        cases moved
        refine ⟨inv.attach phase, Accounts.forward accounts.beside ?_⟩
        have knows := inv.knows
        unfold Knows at knows
        rw [phase] at knows
        have single := knows.2.2.1
        rw [← knows.2.1, List.nodup_append] at single
        exact (inv.attached a).2 fun member => single.2.2 a member a List.mem_cons_self rfl
      · cases moved
  | follow =>
      simp only [Wamux.Events.AllAccounts.step] at moved
      split at moved
      · exact Sound.follow ⟨inv, accounts⟩ ‹_› moved
      · cases moved
  | sendMarker =>
      simp only [Wamux.Events.AllAccounts.step] at moved
      split at moved
      · cases moved
        exact ⟨inv.marks ‹_›, accounts.beside⟩
      · cases moved
  | overrun =>
      simp only [Wamux.Events.AllAccounts.step] at moved
      split at moved
      · cases moved
        exact ⟨inv.overrun ‹_›, accounts.beside⟩
      · cases moved
  | hangUp =>
      simp only [Wamux.Events.AllAccounts.step] at moved
      split at moved
      · cases moved
        exact ⟨inv.hangUp, accounts.beside⟩
      · cases moved
        exact ⟨inv.hangUp, accounts.beside⟩
      · cases moved
  | account a e =>
      refine ⟨?_, accounts.account moved⟩
      simp only [Wamux.Events.AllAccounts.step, stepAccount] at moved
      split at moved
      · obtain ⟨account, -, rfl⟩ := Option.map_eq_some_iff.1 moved
        have knows := inv.knows
        refine ⟨inv.handles, inv.notices, inv.single, inv.done, inv.attached, inv.markers, ?_⟩
        unfold Knows at knows ⊢
        cases phase : s.follower with
        | following snapshot =>
            rw [phase] at knows
            obtain ⟨followed, members⟩ := knows
            have consumed := members.consumed
            rw [phase] at consumed
            exact ⟨followed, members.1, members.2, members.3, members.4, ⟨members.5.1, members.5.2⟩, consumed⟩
        | sending missed snapshot =>
            rw [phase] at knows
            obtain ⟨followed, members⟩ := knows
            have consumed := members.consumed
            rw [phase] at consumed
            exact ⟨followed, members.1, members.2, members.3, members.4, ⟨members.5.1, members.5.2⟩, consumed⟩
        | attaching rest snapshot =>
            rw [phase] at knows
            obtain ⟨consumed, split, single, covers⟩ := knows
            exact ⟨consumed, split, single, covers.1, covers.2⟩
        | _ => rwa [phase] at knows
      · cases moved

theorem Sound.initial : Sound tuning (machine tuning replay).initial := by
  refine ⟨⟨nofun, fun _ => rfl, List.nodup_nil, nofun, fun a => by simp [machine], nofun, rfl, rfl⟩,
    fun _ _ => rfl, fun _ _ => rfl, fun a _ => ⟨fun _ => ⟨Events.Inv.initial, id⟩, nofun⟩⟩

/-! ## The subscription -/

structure Settled (s : State α) : Prop where
  following : ∃ snapshot, s.follower = .following snapshot
  received : s.notices.missed = [] ∧ s.notices.queue = []

/-- One forwarder per account, and nothing replayable lost on those attached late. -/
structure Complete (tuning : Tuning α) (s : State α) : Prop where
  once : s.forwards.Nodup
  members : Settled s → ∀ a, s.inserts a = .done ∨ a ∈ s.before → a ∈ s.forwards ∨ ∃ gap ∈ s.gaps, a ∈ gap.2
  markers : ∀ gap ∈ s.gaps, gap.1 = createdGapMarker gap.2.length
  recovered : ∀ a n, s.attached a = some .created → s.published a = some n → n ≤ tuning.ringCapacity →
    CaughtUp (s.accounts a) → ∀ e ∈ (s.accounts a).passed, Events.replayable (tuning.config a usizeMax) e = true →
      (s.accounts a).publisher ≠ .pushed e →
      (∃ before after, delivered (s.accounts a) = before ++ e :: after ∧ e ∉ before ∧ e ∉ after) ∨
        e ∈ (s.accounts a).covered

theorem all_accounts_complete (reaches : (machine tuning replay).Reaches Free s) : Complete tuning s := by
  obtain ⟨inv, accounts⟩ : Sound tuning s := by
    apply reaches.invariant (Sound tuning)
    · exact .initial
    · exact fun s e s' sound _ moved => sound.step moved
  refine ⟨inv.forwards, ?_, inv.markers, ?_⟩
  · rintro ⟨⟨snapshot, phase⟩, missed, queue⟩ a inserted
    have knows := inv.knows
    unfold Knows at knows
    rw [phase] at knows
    obtain ⟨followed, members⟩ := knows
    have consumed : s.consumed = s.sent := by
      have notices := inv.notices (by simp [phase])
      simpa [missed, queue] using notices
    have listed (member : a ∈ snapshot) : a ∈ s.forwards := by
      rw [members.forwards]
      exact List.mem_append_left _ member
    have told (sent : a ∈ s.sent) : a ∈ s.forwards ∨ ∃ gap ∈ s.gaps, a ∈ gap.2 := by
      rcases members.consumed a (consumed ▸ sent) with member | member | member
      · exact .inl (listed member)
      · rw [members.forwards]
        exact .inl (List.mem_append_right _ member)
      · rw [phase] at member
        simpa [covered, owed] using Or.inr member
    rcases inserted with done | before
    · rcases members.covers.told a done with member | sent
      · exact .inl (listed member)
      · exact told sent
    · exact .inl (listed (members.covers.before before))
  · intro a n created published short up e member replays settled
    have recovering := accounts.recovering a (by simp [created])
    rw [published] at recovering
    exact recovering.once short up member replays settled

/-! ## A run -/

def smallRings : Tuning Bool where
  uuid _ := "a"
  ringCapacity := 4
  fits := by decide
  replayMaxEventBytes := 0
  isHistorySync := id
  encodedLen _ := 1

/-- An account is created after the list, and publishes before its forwarder subscribes. -/
def createdLate : List (Event Bool) :=
  [.subscribe, .list, .listed [], .attach, .insert 0] ++ List.replicate 3 (.insertNext 0) ++
    (publish false).map (.account 0) ++ [.follow, .account 0 .subscribe, .account 0 .snapshot, .account 0 (.next ""),
    .account 0 (.next "")]

theorem all_accounts_complete_late : ∃ s, (machine smallRings 0).Reaches Free s ∧ s.attached 0 = some .created ∧
    s.published 0 = some 1 ∧ CaughtUp (s.accounts 0) ∧ Complete smallRings s := by
  obtain ⟨s, reaches, passes⟩ := reaches_of_replay (m := machine smallRings 0) free_sound
    (fun s => s.attached 0 = some .created && s.published 0 = some 1 && caughtUp (s.accounts 0)) createdLate
    (by decide +kernel)
  simp only [Bool.and_eq_true, decide_eq_true_eq] at passes
  exact ⟨s, reaches, passes.1.1, passes.1.2, caughtUp_sound passes.2, all_accounts_complete reaches⟩

end Wamux.Proof.Events.Membership
