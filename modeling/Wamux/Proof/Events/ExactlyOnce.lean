import Wamux.Proof.Events.Delivery

/-!
# Replay and live delivery

The order of the stream never breaks. Each envelope sent after the subscription is delivered once
when the window between the subscription and the snapshot fits in the snapshot; otherwise the mark
`last_replayed` covers envelopes the snapshot does not have.
-/

namespace Wamux.Proof.Events
open Wamux.Events Wamux.Runs Wamux.Runs.Machine

variable {α : Type} {config : Config α} {wanted : Envelope α → Prop} {s s' : State α} {e : Event α}

theorem Inv.subscribe (inv : Inv config wanted s) (idle : s.forwarder = .idle) :
    Inv config wanted { s with forwarder := .subscribed } := by
  have stamps := inv.stamps
  have knows := inv.knows
  unfold Knows at knows
  rw [idle] at knows
  refine ⟨⟨stamps.1, stamps.2, stamps.3, stamps.4, stamps.5, stamps.6, stamps.7⟩, inv.ordered, knows.2.2, ?_⟩
  simp [knows.2.1]

theorem Inv.overrun (inv : Inv config wanted s) {oldest : Envelope α} {rest : List (Envelope α)}
    (queue : s.rx.queue = oldest :: rest) : Inv config wanted { s with rx := ⟨s.rx.missed ++ [oldest], rest⟩ } := by
  have stamps := inv.stamps
  have suffix : (rest ++ pastRing s.publisher) <:+ s.passed := by
    have suffix := stamps.suffix
    rw [queue] at suffix
    exact (List.suffix_cons oldest _).trans suffix
  have stamps' : Stamps config { s with rx := ⟨s.rx.missed ++ [oldest], rest⟩ } :=
    ⟨stamps.1, stamps.2, stamps.3, stamps.4, stamps.5, suffix, stamps.7⟩
  have waits (e : Envelope α) (waiting : e ∈ s.rx.queue) : e ∈ s.rx.missed ++ [oldest] ∨ e ∈ rest := by
    rw [queue, List.mem_cons] at waiting
    rcases waiting with rfl | later
    · exact .inl (List.mem_append_right _ (List.mem_singleton.2 rfl))
    · exact .inr later
  have later (delivering : Delivering wanted s) : Delivering wanted { s with rx := ⟨s.rx.missed ++ [oldest], rest⟩ } := by
    refine delivering.shift rfl rfl rfl (fun w member => ?_) (fun e member due => ?_) delivering.formed
    · rcases List.mem_append.1 member with queued | next
      · exact List.mem_append_left _ (by rw [queue]; exact List.mem_cons_of_mem _ queued)
      · exact List.mem_append_right _ next
    · rcases delivering.done e member due with seen | covered | missed | waiting
      · exact .inl seen
      · exact .inr (.inl covered)
      · exact .inr (.inr (.inl (List.mem_append_left _ missed)))
      · exact .inr (.inr (waits e waiting))
  by_cases active : Active s.forwarder
  · exact (later (inv.active active)).inv stamps' active
  · refine ⟨stamps', inv.ordered, ?_⟩
    have knows := inv.knows
    unfold Knows at knows ⊢
    cases phase : s.forwarder with
    | idle =>
        rw [phase] at knows
        simp [knows.1] at queue
    | ended =>
        rw [phase] at knows
        simp [show s.rx = {} from knows] at queue
    | subscribed =>
        rw [phase] at knows
        refine ⟨knows.1, fun e member => ?_⟩
        rcases knows.2 e member with missed | waiting
        · exact .inl (List.mem_append_left _ missed)
        · exact waits e waiting
    | _ => simp [phase, Active] at active

def SnapshotFits (config : Config α) (s : State α) : Event α → Prop
  | .snapshot => WindowFits config s
  | .stamp _ _ | .push | .broadcast | .subscribe | .next _ | .overrun | .hangUp => True

def SnapshotKeeps (config : Config α) (wanted : Envelope α → Prop) (s : State α) : Event α → Prop
  | .snapshot => ∀ w ∈ coming s, wanted w → w.monotonicSeq ≤ (s.ring.snapshot config.replay).foldl raise (-1) →
      w ∈ s.ring.snapshot config.replay
  | .stamp _ _ | .push | .broadcast | .subscribe | .next _ | .overrun | .hangUp => True

theorem Stamps.keeps (stamps : Stamps config s) (fits : SnapshotFits config s e) : SnapshotKeeps config wanted s e := by
  cases e with
  | snapshot => exact fun w member _ below => stamps.fits fits w member below
  | _ => trivial

theorem Inv.step (inv : Inv config wanted s) (fits : SnapshotKeeps config wanted s e)
    (moved : step config s e = some s') : Inv config wanted s' := by
  have stamps := inv.stamps
  cases e with
  | stamp inner now =>
      simp only [Wamux.Events.step] at moved
      split at moved
      · cases moved
        exact inv.stamp ‹_› inner now
      · cases moved
  | push =>
      simp only [Wamux.Events.step] at moved
      split at moved
      · cases moved
        exact inv.push ‹_›
      · cases moved
  | broadcast =>
      cases publisher : s.publisher with
      | idle => simp [Wamux.Events.step, publisher] at moved
      | stamped envelope => simp [Wamux.Events.step, publisher] at moved
      | pushed envelope => exact inv.broadcast publisher moved
  | subscribe =>
      simp only [Wamux.Events.step] at moved
      split at moved
      · cases moved
        exact inv.subscribe ‹_›
      · cases moved
  | snapshot =>
      simp only [Wamux.Events.step] at moved
      split at moved
      · cases moved
        exact inv.snapshot ‹_› fits
      · cases moved
  | next state => exact inv.next moved
  | overrun =>
      simp only [Wamux.Events.step] at moved
      split at moved
      · cases moved
        exact inv.overrun ‹_›
      · cases moved
  | hangUp =>
      have ended : Inv config wanted { s with forwarder := .ended, rx := {} } := by
        refine ⟨⟨stamps.1, stamps.2, stamps.3, stamps.4, stamps.5, ?_, stamps.7⟩, inv.ordered, rfl⟩
        exact (List.suffix_append s.rx.queue (pastRing s.publisher)).trans stamps.suffix
      simp only [Wamux.Events.step] at moved
      split at moved
      · cases moved
      · cases moved
      · cases moved
        exact ended

theorem Inv.initial : Inv config wanted (machine config).initial := by
  refine ⟨⟨List.Pairwise.nil, by simp [machine], by simp [machine], ?_, rfl, ?_, Int.le_refl 0⟩, ?_,
    rfl, rfl, rfl⟩
  · simp [machine]
  · simp [machine, pastRing]
  · simp [machine, delivered]

structure CaughtUp (s : State α) : Prop where
  live : ∃ last, s.forwarder = .live last
  received : s.rx.missed = [] ∧ s.rx.queue = []

/-- Each envelope broadcast after the subscription was put on the stream once, or a gap marker on
the stream stands for it; and the stream is in order. -/
structure DeliveredOnce (s : State α) : Prop where
  once : CaughtUp s → ∀ e ∈ s.sent, (∃ before after, delivered s = before ++ e :: after ∧
    e ∉ before ∧ e ∉ after) ∨ e ∈ s.covered
  increasing : ((delivered s).map Envelope.monotonicSeq).Pairwise (· < ·)

/-- The numbers fit the `i64` they are, as long as no more than `2 ^ 63` were given out. -/
theorem seq_exact {allowed : State α → Event α → Prop} (reaches : (machine config).Reaches allowed s)
    (few : s.seq ≤ Int64.maxValue.toInt + 1) :
    ∀ e ∈ s.passed ++ coming s, (Int64.ofInt e.monotonicSeq).toInt = e.monotonicSeq := by
  have inv : Inv config (fun _ => False) s := reaches.invariant (Inv config fun _ => False) Inv.initial
    fun t e t' inv _ moved => inv.step (by cases e <;> first | trivial | exact fun _ _ => False.elim) moved
  intro e member
  have bounded : 0 ≤ e.monotonicSeq ∧ e.monotonicSeq < s.seq :=
    (List.mem_append.1 member).elim (inv.stamps.bounded e) (inv.stamps.coming e)
  rw [Int64.toInt_maxValue] at few
  exact Int64.toInt_ofInt_of_le (by omega) (by omega)

theorem Inv.once (inv : Inv config wanted s) {e : Envelope α} (seen : e ∈ delivered s) :
    ∃ before after, delivered s = before ++ e :: after ∧ e ∉ before ∧ e ∉ after := by
  obtain ⟨before, after, split⟩ := List.append_of_mem seen
  have ordered := inv.ordered
  rw [split] at ordered
  obtain ⟨-, tail, across⟩ := List.pairwise_append.1 ordered
  refine ⟨before, after, split, fun twice => ?_, fun twice => ?_⟩
  · exact Int.lt_irrefl _ (across e twice e List.mem_cons_self)
  · exact Int.lt_irrefl _ ((List.pairwise_cons.1 tail).1 e twice)

theorem delivered_once (reaches : (machine config).Reaches (SnapshotFits config) s) : DeliveredOnce s := by
  have inv : Inv config (fun _ => True) s := reaches.invariant (Inv config fun _ => True) Inv.initial
    fun s e s' inv fits moved => inv.step (inv.stamps.keeps fits) moved
  refine ⟨fun ⟨⟨last, live⟩, missed, queue⟩ e member => ?_, List.pairwise_map.2 inv.ordered⟩
  have delivering := inv.active (by rw [live]; trivial)
  have whole : Events.delivering s = delivered s := by simp [Events.delivering, live, inHand]
  rcases delivering.done e member trivial with seen | covered | lost | waiting
  · exact .inl (inv.once (whole ▸ seen))
  · rw [live, List.mem_append] at covered
    exact .inr (covered.resolve_right (by simp [owed]))
  · simp [missed] at lost
  · simp [queue] at waiting

/-! ## Two runs -/

instance [DecidableEq α] : Decidable (WindowFits config s) := inferInstanceAs (Decidable (_ ∨ _ ∧ _))

def snapshotFits [DecidableEq α] (config : Config α) (s : State α) : Event α → Bool
  | .snapshot => WindowFits config s
  | .stamp _ _ | .push | .broadcast | .subscribe | .next _ | .overrun | .hangUp => true

theorem snapshotFits_sound [DecidableEq α] (config : Config α) (s : State α) (e : Event α)
    (checked : snapshotFits config s e = true) : SnapshotFits config s e := by
  cases e with
  | snapshot =>
      have fits : WindowFits config s := of_decide_eq_true checked
      exact fits
  | _ => trivial

def smallRing : Config Bool where
  uuid := "a"
  ringCapacity := 4
  replayMaxEventBytes := 0
  replay := 10
  isHistorySync := id
  encodedLen := fun _ => 1

def publish (historySync : Bool) : List (Event Bool) := [.stamp (.mapped historySync) 0, .push, .broadcast]

def liveInWindow : List (Event Bool) :=
  [.subscribe] ++ publish false ++ [.snapshot, .next "", .next "", .next ""]

def caughtUp (s : State Bool) : Bool :=
  (match s.forwarder with | .live _ => true | _ => false) && s.rx.missed == [] && s.rx.queue == []

theorem caughtUp_sound {s : State Bool} (passes : caughtUp s = true) : CaughtUp s := by
  simp only [caughtUp, Bool.and_eq_true, beq_iff_eq] at passes
  refine ⟨?_, passes.1.2, passes.2⟩
  have live := passes.1.1
  split at live
  · exact ⟨_, ‹_›⟩
  · cases live

theorem delivered_once_in_window : ∃ s, (machine smallRing).Reaches (SnapshotFits smallRing) s ∧ CaughtUp s ∧
    ∃ e ∈ s.sent, (∃ before after, delivered s = before ++ e :: after ∧ e ∉ before ∧ e ∉ after) ∨
      e ∈ s.covered := by
  obtain ⟨s, reaches, passes⟩ := reaches_of_replay (m := machine smallRing) (snapshotFits_sound smallRing)
    (fun s => caughtUp s && s.sent == [⟨"a", 0, 0, .mapped false⟩]) liveInWindow (by decide)
  simp only [Bool.and_eq_true, beq_iff_eq] at passes
  have up := caughtUp_sound passes.1
  have sent : ⟨"a", 0, 0, .mapped false⟩ ∈ s.sent := by simp [passes.2]
  exact ⟨s, reaches, up, _, sent, (delivered_once reaches).once up _ sent⟩

/-- A history-sync blob, which the ring does not take, and then a replayable envelope. -/
def blobInWindow : List (Event Bool) :=
  [.subscribe] ++ publish true ++ publish false ++ [.snapshot, .next "", .next "", .next "", .next ""]

theorem blob_lost : ¬∀ s, (machine smallRing).Reaches Free s → DeliveredOnce s := by
  intro claim
  obtain ⟨s, reaches, passes⟩ := reaches_of_replay (m := machine smallRing) free_sound
    (fun s => caughtUp s && (s.sent.head? == some ⟨"a", 0, 0, .mapped true⟩ && (s.covered == [] &&
      delivered s == [⟨"a", 1, 0, .mapped false⟩]))) blobInWindow (by decide)
  simp only [Bool.and_eq_true, beq_iff_eq] at passes
  obtain ⟨up, sent, covered, delivered⟩ := passes
  rcases (claim s reaches).once (caughtUp_sound up) _ (List.mem_of_mem_head? sent) with
    ⟨before, after, found, -⟩ | lost
  · have member : ⟨"a", 0, 0, .mapped true⟩ ∈ Wamux.Proof.Events.delivered s := by simp [found]
    simp [delivered] at member
  · simp [covered] at lost

end Wamux.Proof.Events
