import Wamux.Proof.Events.ExactlyOnce

namespace Wamux.Proof.Events
open Wamux.Events Wamux.Runs

variable {α : Type} {config : Config α} {s s' : State α} {e : Event α}

def Replayable (config : Config α) (e : Envelope α) : Prop := replayable config e = true

def Whole (config : Config α) (s : State α) : Prop :=
  (s.passed.filter (replayable config)).length ≤ config.ringCapacity ∧ config.ringCapacity ≤ config.replay

theorem Stamps.whole (stamps : Stamps config s) (whole : Whole config s) :
    s.ring.snapshot config.replay = s.passed.filter (replayable config) := by
  rw [stamps.snapshot, Nat.min_eq_right whole.2]
  unfold List.rtake
  rw [Nat.sub_eq_zero_of_le whole.1, List.drop_zero]

theorem Stamps.keeps_whole (stamps : Stamps config s) (whole : e = .snapshot → Whole config s) :
    SnapshotKeeps config (Replayable config) s e := by
  cases e with
  | snapshot =>
      intro w member replays below
      have snapshot := stamps.whole (whole rfl)
      rw [snapshot] at below ⊢
      refine List.mem_filter.2 ⟨?_, replays⟩
      rcases List.mem_append.1 member with queued | next
      · exact stamps.queue queued
      · cases publisher : s.publisher with
        | idle => simp [publisher, Events.upcoming] at next
        | pushed envelope =>
            apply stamps.suffix.subset
            rw [publisher] at next ⊢
            exact List.mem_append_right _ next
        | stamped envelope =>
            -- stamped after everything the ring saw, so the mark is below it
            have same : w = envelope := by simpa [publisher, Events.upcoming] using next
            subst same
            obtain ⟨low, -, last⟩ := stamps.stamped w publisher
            rcases raise_reached (s.passed.filter (replayable config)) (-1) with none | ⟨d, found, mark⟩
            · omega
            · have earlier : d.monotonicSeq < w.monotonicSeq := last d (List.mem_filter.1 found).1
              omega
  | _ => trivial

def Early (config : Config α) (s : State α) : Prop :=
  ∀ e ∈ s.passed, Replayable config e → e ∈ delivering s ∨ e ∈ s.sent ∨ e ∈ pastRing s.publisher

theorem delivering_next {wanted : Envelope α → Prop} {state : String} (delivering : Delivering wanted s)
    (moved : forwardNext config s state = some s') : Events.delivering s ⊆ Events.delivering s' := by
  have bounded := delivering.bounded
  have formed := delivering.formed
  unfold forwardNext at moved
  split at moved
  · rename_i phase
    cases moved
    simp [Events.delivering, delivered, phase, inHand]
  · rename_i envelope rest last phase
    cases moved
    have counted : 0 ≤ envelope.monotonicSeq :=
      (bounded envelope (List.mem_append_right _ (by rw [phase]; exact List.mem_cons_self))).1
    have now : delivered { s with forwarder := .replaying rest (max last envelope.monotonicSeq),
                                  stream := s.stream ++ [envelope] } = delivered s ++ [envelope] :=
      delivered_append counted
    simp only [Events.delivering, phase, inHand, now, List.append_assoc]
    exact fun _ member => member
  · rename_i last phase
    obtain ⟨⟨received, rx⟩, -, rfl⟩ := Option.map_eq_some_iff.1 moved
    have before : Events.delivering s = delivered s := by simp [Events.delivering, phase, inHand]
    rw [before]
    cases received with
    | event envelope =>
        simp only [State.receive]
        split
        · exact List.subset_append_left _ _
        · exact List.subset_append_left _ _
    | lagged missed => exact List.subset_append_left _ _
  · rename_i received envelope last phase
    cases moved
    rw [phase] at formed
    cases received with
    | event own =>
        have same : envelope = own := formed
        subst same
        have counted := (bounded envelope (List.mem_append_right _ (by rw [phase]; simp [inHand]))).1
        have now : delivered { s with forwarder := .live last, stream := s.stream ++ [envelope],
                                      covered := s.covered ++ (Received.event envelope).standsFor } =
            delivered s ++ [envelope] := delivered_append counted
        simp only [Events.delivering, phase, inHand, now, List.append_nil]
        exact fun _ member => member
    | lagged missed =>
        simp only [Events.delivering, phase, inHand, delivered, List.filter_append]
        simp
  all_goals cases moved

theorem Early.step (early : Early config s) (inv : Inv config (Replayable config) s) (active : Active s.forwarder)
    (moved : step config s e = some s') (still : Active s'.forwarder) : Early config s' := by
  have delivering := inv.active active
  cases e with
  | stamp inner now =>
      simp only [step] at moved
      split at moved
      · rename_i idle
        cases moved
        intro e member replays
        rcases early e member replays with seen | sent | past
        · exact .inl seen
        · exact .inr (.inl sent)
        · simp [idle, pastRing] at past
      · cases moved
  | push =>
      simp only [step] at moved
      split at moved
      · rename_i envelope stamped
        cases moved
        intro e member replays
        rcases List.mem_append.1 member with before | now
        · have known := early e before replays
          simp only [stamped, pastRing, List.not_mem_nil, or_false] at known
          exact known.imp_right .inl
        · exact .inr (.inr now)
      · cases moved
  | broadcast =>
      simp only [step] at moved
      split at moved
      · rename_i envelope pushed
        have listens : s.subscribes = true := by
          cases phase : s.forwarder <;> simp_all [State.subscribes, Active]
        rw [if_pos listens] at moved
        cases moved
        intro e member replays
        rcases early e member replays with seen | sent | past
        · exact .inl seen
        · exact .inr (.inl (List.mem_append_left _ sent))
        · rw [pushed] at past
          exact .inr (.inl (List.mem_append_right _ past))
      · cases moved
  | subscribe =>
      simp only [step] at moved
      split at moved
      · rename_i idle
        rw [idle] at active
        exact active.elim
      · cases moved
  | snapshot =>
      simp only [step] at moved
      split at moved
      · rename_i subscribed
        rw [subscribed] at active
        exact active.elim
      · cases moved
  | next state =>
      have more := delivering_next delivering moved
      have same : s'.passed = s.passed ∧ s'.sent = s.sent ∧ s'.publisher = s.publisher := by
        simp only [step, forwardNext] at moved
        split at moved
        · cases moved
          exact ⟨rfl, rfl, rfl⟩
        · cases moved
          exact ⟨rfl, rfl, rfl⟩
        · obtain ⟨⟨received, rx⟩, -, rfl⟩ := Option.map_eq_some_iff.1 moved
          cases received with
          | event envelope =>
              simp only [State.receive]
              split <;> exact ⟨rfl, rfl, rfl⟩
          | lagged missed => exact ⟨rfl, rfl, rfl⟩
        · cases moved
          exact ⟨rfl, rfl, rfl⟩
        all_goals cases moved
      unfold Early
      rw [same.1, same.2.1, same.2.2]
      exact fun e member replays => (early e member replays).imp_left fun seen => more seen
  | overrun =>
      simp only [step] at moved
      split at moved
      · cases moved
        exact early
      · cases moved
  | hangUp =>
      simp only [step] at moved
      split at moved <;> cases moved
      exact still.elim

/-- What holds of one account: before its forwarder's snapshot nothing more than the shared
invariant; after one that had the whole ring, that nothing replayable is lost. -/
structure Recovering (config : Config α) (s : State α) (published : Option Nat) : Prop where
  early : published = none → Inv config (Replayable config) s ∧ ¬Active s.forwarder
  whole : ∀ n, published = some n → n ≤ config.ringCapacity →
    Inv config (Replayable config) s ∧ (Active s.forwarder → Early config s)

theorem active_of_step (moved : step config s e = some s') (other : e ≠ .snapshot) (active : Active s'.forwarder) :
    Active s.forwarder := by
  cases e with
  | snapshot => exact absurd rfl other
  | stamp inner now =>
      simp only [step] at moved
      split at moved <;> cases moved
      exact active
  | push =>
      simp only [step] at moved
      split at moved <;> cases moved
      exact active
  | broadcast =>
      simp only [step] at moved
      split at moved
      · split at moved <;> cases moved <;> exact active
      · cases moved
  | subscribe =>
      simp only [step] at moved
      split at moved <;> cases moved
      exact active.elim
  | next state =>
      simp only [step, forwardNext] at moved
      split at moved <;> rename_i phase
      · rw [phase]
        trivial
      · rw [phase]
        trivial
      · rw [phase]
        trivial
      · rw [phase]
        trivial
      all_goals cases moved
  | overrun =>
      simp only [step] at moved
      split at moved <;> cases moved
      exact active
  | hangUp =>
      simp only [step] at moved
      split at moved <;> cases moved
      exact active.elim

theorem Recovering.step {published : Option Nat} (recovering : Recovering config s published) (other : e ≠ .snapshot)
    (moved : step config s e = some s') : Recovering config s' published := by
  have keeps : SnapshotKeeps config (Replayable config) s e := by
    cases e with
    | snapshot => exact absurd rfl other
    | _ => trivial
  constructor
  · intro none
    obtain ⟨inv, quiet⟩ := recovering.early none
    exact ⟨inv.step keeps moved, fun active => quiet (active_of_step moved other active)⟩
  · intro n some short
    obtain ⟨inv, early⟩ := recovering.whole n some short
    refine ⟨inv.step keeps moved, fun active => ?_⟩
    have before := active_of_step moved other active
    exact (early before).step inv before moved active

theorem Recovering.snapshot (recovering : Recovering config s none) (replay : config.ringCapacity ≤ config.replay)
    (moved : Wamux.Events.step config s .snapshot = some s') :
    Recovering config s' (some (s.passed.filter (replayable config)).length) := by
  obtain ⟨inv, -⟩ := recovering.early rfl
  refine ⟨nofun, ?_⟩
  rintro n ⟨⟩ short
  have whole : Whole config s := ⟨short, replay⟩
  refine ⟨inv.step (inv.stamps.keeps_whole fun _ => whole) moved, fun active e member replays => .inl ?_⟩
  simp only [Wamux.Events.step] at moved
  split at moved
  · cases moved
    have some : e ∈ s.passed.filter (replayable config) := List.mem_filter.2 ⟨member, replays⟩
    have positive : 0 < config.replay := by
      have length : 0 < (s.passed.filter (replayable config)).length := List.length_pos_of_mem some
      omega
    rw [if_pos positive] at active ⊢
    refine List.mem_append_right _ ?_
    change e ∈ s.ring.snapshot config.replay
    rw [inv.stamps.whole whole]
    exact some
  · cases moved

/-- A forwarder that has caught up put every replayable event that was published on the stream once,
or a gap marker there stands for it. -/
theorem Recovering.once {n : Nat} (recovering : Recovering config s (some n)) (short : n ≤ config.ringCapacity)
    (up : CaughtUp s) {e : Envelope α} (member : e ∈ s.passed) (replays : replayable config e = true)
    (published : s.publisher ≠ .pushed e) :
    (∃ before after, delivered s = before ++ e :: after ∧ e ∉ before ∧ e ∉ after) ∨ e ∈ s.covered := by
  obtain ⟨inv, early⟩ := recovering.whole n rfl short
  obtain ⟨⟨last, live⟩, missed, queue⟩ := up
  have active : Active s.forwarder := by
    rw [live]
    trivial
  have delivering := inv.active active
  have whole : Events.delivering s = delivered s := by simp [Events.delivering, live, inHand]
  rcases early active e member replays with seen | sent | past
  · exact .inl (inv.once (whole ▸ seen))
  · rcases delivering.done e sent replays with seen | covered | lost | waiting
    · exact .inl (inv.once (whole ▸ seen))
    · rw [live, List.mem_append] at covered
      exact .inr (covered.resolve_right (by simp [owed]))
    · simp [missed] at lost
    · simp [queue] at waiting
  · cases publisher : s.publisher with
    | idle => simp [publisher, pastRing] at past
    | stamped other => simp [publisher, pastRing] at past
    | pushed other =>
        have same : e = other := by simpa [publisher, pastRing] using past
        exact absurd (same ▸ publisher) published

end Wamux.Proof.Events
