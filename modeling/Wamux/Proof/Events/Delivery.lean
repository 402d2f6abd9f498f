import Wamux.Events.Forward
import Wamux.Proof.Events.Ring

namespace Wamux.Proof.Events
open Wamux.Events Wamux.Runs

variable {α : Type} {config : Config α} {wanted : Envelope α → Prop} {s s' : State α}

/-! ## The publisher -/

def Before (a b : Envelope α) : Prop := a.monotonicSeq < b.monotonicSeq

def upcoming : Publisher α → List (Envelope α)
  | .idle => []
  | .stamped envelope | .pushed envelope => [envelope]

def pastRing : Publisher α → List (Envelope α)
  | .idle | .stamped _ => []
  | .pushed envelope => [envelope]

def coming (s : State α) : List (Envelope α) := s.rx.queue ++ upcoming s.publisher

structure Stamps (config : Config α) (s : State α) : Prop where
  ordered : s.passed.Pairwise Before
  bounded : ∀ e ∈ s.passed, 0 ≤ e.monotonicSeq ∧ e.monotonicSeq < s.seq
  stamped : ∀ e, s.publisher = .stamped e → 0 ≤ e.monotonicSeq ∧ e.monotonicSeq < s.seq ∧
    ∀ p ∈ s.passed, Before p e
  ring : s.ring.inner = (s.passed.filter (replayable config)).rtake s.ring.capacity
  capacity : s.ring.capacity = config.ringCapacity
  suffix : (s.rx.queue ++ pastRing s.publisher) <:+ s.passed
  counts : 0 ≤ s.seq

theorem Stamps.queue (stamps : Stamps config s) : s.rx.queue ⊆ s.passed := fun _ member =>
  stamps.suffix.subset (List.mem_append_left _ member)

theorem Stamps.upcoming (stamps : Stamps config s) (e : Envelope α) (member : e ∈ upcoming s.publisher) :
    0 ≤ e.monotonicSeq ∧ e.monotonicSeq < s.seq := by
  cases publisher : s.publisher with
  | idle => simp [publisher, Events.upcoming] at member
  | stamped envelope =>
      have same : e = envelope := by simpa [publisher, Events.upcoming] using member
      subst same
      exact ⟨(stamps.stamped e publisher).1, (stamps.stamped e publisher).2.1⟩
  | pushed envelope =>
      have same : e = envelope := by simpa [publisher, Events.upcoming] using member
      subst same
      exact stamps.bounded e (stamps.suffix.subset (by simp [publisher, pastRing]))

theorem Stamps.coming (stamps : Stamps config s) (e : Envelope α) (member : e ∈ coming s) :
    0 ≤ e.monotonicSeq ∧ e.monotonicSeq < s.seq := by
  rcases List.mem_append.1 member with queued | next
  · exact stamps.bounded e (stamps.queue queued)
  · exact stamps.upcoming e next

theorem Stamps.comingOrdered (stamps : Stamps config s) : (Events.coming s).Pairwise Before := by
  unfold Events.coming
  have past := stamps.ordered.sublist stamps.suffix.sublist
  cases publisher : s.publisher with
  | idle => simpa [publisher, Events.upcoming, pastRing] using past
  | pushed envelope => simpa [publisher, Events.upcoming, pastRing] using past
  | stamped envelope =>
      have past : s.rx.queue.Pairwise Before := by simpa [publisher, pastRing] using past
      refine List.pairwise_append.2 ⟨past, List.pairwise_singleton _ _, fun e queued b last => ?_⟩
      have same : b = envelope := by simpa [Events.upcoming] using last
      subst same
      exact (stamps.stamped b publisher).2.2 e (stamps.queue queued)

/-! ## The forwarder -/

/-- The envelopes on the stream, gap markers left out. -/
def delivered (s : State α) : List (Envelope α) := s.stream.filter fun e => e.monotonicSeq ≠ -1

def inHand : Forwarder α → List (Envelope α)
  | .replaying rest _ => rest
  | .sending (.event envelope) _ _ => [envelope]
  | .sending (.lagged _) _ _ | .idle | .subscribed | .live _ | .ended => []

def owed : Forwarder α → List (Envelope α)
  | .sending received _ _ => received.standsFor
  | .idle | .subscribed | .replaying _ _ | .live _ | .ended => []

def raise (last : Int) (e : Envelope α) : Int := max last e.monotonicSeq

/-- `last_replayed`, once the replay is over. -/
def mark : Forwarder α → Int
  | .replaying rest last => rest.foldl raise last
  | .live last | .sending _ _ last => last
  | .idle | .subscribed | .ended => -1

def delivering (s : State α) : List (Envelope α) := delivered s ++ inHand s.forwarder

def Formed : Forwarder α → Prop
  | .sending (.event received) envelope _ => envelope = received
  | .sending (.lagged _) envelope _ => envelope.monotonicSeq = -1
  | .idle | .subscribed | .replaying _ _ | .live _ | .ended => True

structure Delivering (wanted : Envelope α → Prop) (s : State α) : Prop where
  ordered : (delivering s).Pairwise Before
  bounded : ∀ d ∈ delivering s, 0 ≤ d.monotonicSeq ∧ d.monotonicSeq < s.seq
  ahead : ∀ w ∈ coming s, mark s.forwarder < w.monotonicSeq → ∀ d ∈ delivering s, Before d w
  kept : ∀ w ∈ coming s, wanted w → w.monotonicSeq ≤ mark s.forwarder → w ∈ delivering s
  done : ∀ e ∈ s.sent, wanted e → e ∈ delivering s ∨ e ∈ s.covered ++ owed s.forwarder ∨ e ∈ s.rx.missed ∨
    e ∈ s.rx.queue
  marked : mark s.forwarder < s.seq
  formed : Formed s.forwarder

def Knows (wanted : Envelope α → Prop) (s : State α) : Prop :=
  match s.forwarder with
  | .idle => s.rx = {} ∧ s.sent = [] ∧ s.stream = []
  | .subscribed => s.stream = [] ∧ ∀ e ∈ s.sent, e ∈ s.rx.missed ∨ e ∈ s.rx.queue
  | .ended => s.rx = {}
  | .replaying _ _ | .live _ | .sending _ _ _ => Delivering wanted s

structure Inv (config : Config α) (wanted : Envelope α → Prop) (s : State α) : Prop where
  stamps : Stamps config s
  ordered : (delivered s).Pairwise Before
  knows : Knows wanted s

def Active : Forwarder α → Prop
  | .replaying _ _ | .live _ | .sending _ _ _ => True
  | .idle | .subscribed | .ended => False

theorem Inv.active (inv : Inv config wanted s) (active : Active s.forwarder) : Delivering wanted s := by
  have knows := inv.knows
  unfold Knows at knows
  cases phase : s.forwarder with
  | replaying rest last => rwa [phase] at knows
  | live last => rwa [phase] at knows
  | sending received envelope last => rwa [phase] at knows
  | idle => rw [phase] at active; exact active.elim
  | subscribed => rw [phase] at active; exact active.elim
  | ended => rw [phase] at active; exact active.elim

/-! ## Steps of the publisher -/

structure Publishes (s s' : State α) : Prop where
  forwarder : s'.forwarder = s.forwarder
  stream : s'.stream = s.stream
  covered : s'.covered = s.covered
  missed : s'.rx.missed = s.rx.missed
  queue : s.rx.queue ⊆ s'.rx.queue
  seq : s.seq ≤ s'.seq
  coming : ∀ w ∈ coming s', w ∈ coming s ∨ s.seq ≤ w.monotonicSeq
  sent : ∀ e ∈ s'.sent, e ∈ s.sent ∨ e ∈ s'.rx.queue

theorem Delivering.publishes (delivering : Delivering wanted s) (publishes : Publishes s s') : Delivering wanted s' := by
  have same : Events.delivering s' = Events.delivering s := by
    simp only [Events.delivering, delivered, publishes.stream, publishes.forwarder]
  refine ⟨?_, ?_, ?_, ?_, ?_, ?_, ?_⟩
  · rw [same]
    exact delivering.ordered
  · intro d member
    rw [same] at member
    obtain ⟨low, high⟩ := delivering.bounded d member
    exact ⟨low, Int.lt_of_lt_of_le high publishes.seq⟩
  · intro w member above d member'
    rw [same] at member'
    rw [publishes.forwarder] at above
    rcases publishes.coming w member with before | fresh
    · exact delivering.ahead w before above d member'
    · exact Int.lt_of_lt_of_le (delivering.bounded d member').2 fresh
  · intro w member due below
    rw [publishes.forwarder] at below
    rw [same]
    rcases publishes.coming w member with before | fresh
    · exact delivering.kept w before due below
    · have := delivering.marked
      omega
  · intro e member due
    rw [same, publishes.covered, publishes.forwarder, publishes.missed]
    rcases publishes.sent e member with before | queued
    · rcases delivering.done e before due with seen | covered | missed | waiting
      · exact .inl seen
      · exact .inr (.inl covered)
      · exact .inr (.inr (.inl missed))
      · exact .inr (.inr (.inr (publishes.queue waiting)))
    · exact .inr (.inr (.inr queued))
  · rw [publishes.forwarder]
    exact Int.lt_of_lt_of_le delivering.marked publishes.seq
  · rw [publishes.forwarder]
    exact delivering.formed

theorem Inv.publishes (inv : Inv config wanted s) (stamps : Stamps config s') (publishes : Publishes s s')
    (silent : s.forwarder = .idle ∨ s.forwarder = .ended → s'.rx = s.rx ∧ s'.sent = s.sent) :
    Inv config wanted s' := by
  have order : (delivered s').Pairwise Before := by
    simpa only [delivered, publishes.stream] using inv.ordered
  refine ⟨stamps, order, ?_⟩
  have knows := inv.knows
  unfold Knows at knows ⊢
  rw [publishes.forwarder]
  cases phase : s.forwarder with
  | idle =>
      rw [phase] at knows
      obtain ⟨rx, sent⟩ := silent (.inl phase)
      rw [rx, sent, publishes.stream]
      exact knows
  | ended =>
      rw [phase] at knows
      rw [(silent (.inr phase)).1]
      exact knows
  | subscribed =>
      rw [phase] at knows
      refine ⟨publishes.stream.trans knows.1, fun e member => ?_⟩
      rcases publishes.sent e member with before | queued
      · rw [publishes.missed]
        exact (knows.2 e before).imp_right fun waiting => publishes.queue waiting
      · exact .inr queued
  | replaying rest last =>
      rw [phase] at knows
      exact knows.publishes publishes
  | live last =>
      rw [phase] at knows
      exact knows.publishes publishes
  | sending received envelope last =>
      rw [phase] at knows
      exact knows.publishes publishes

theorem Inv.stamp (inv : Inv config wanted s) (idle : s.publisher = .idle) (inner : WireEvent α) (now : Int) :
    Inv config wanted { s with publisher := .stamped ⟨config.uuid, s.seq, now, inner⟩, seq := s.seq + 1 } := by
  have stamps := inv.stamps
  refine inv.publishes ⟨stamps.ordered, fun e member => ?_, fun e same => ?_, stamps.ring, stamps.capacity, ?_, ?_⟩
    ⟨rfl, rfl, rfl, rfl, fun _ h => h, Int.le_add_one (Int.le_refl _), fun w member => ?_, fun e member => .inl member⟩
    fun _ => ⟨rfl, rfl⟩
  · obtain ⟨low, high⟩ := stamps.bounded e member
    exact ⟨low, Int.lt_add_one_of_le (Int.le_of_lt high)⟩
  · have same : e = ⟨config.uuid, s.seq, now, inner⟩ := by simpa using same.symm
    subst same
    exact ⟨stamps.counts, Int.lt_add_one_of_le (Int.le_refl _), fun p member => (stamps.bounded p member).2⟩
  · simpa [idle, pastRing] using stamps.suffix
  · have := stamps.counts
    simp only
    omega
  · rcases List.mem_append.1 member with queued | next
    · exact .inl (List.mem_append_left _ queued)
    · have same : w = ⟨config.uuid, s.seq, now, inner⟩ := by simpa [Events.upcoming] using next
      exact .inr (by simp [same])

theorem Inv.push (inv : Inv config wanted s) {envelope : Envelope α} (stamped : s.publisher = .stamped envelope) :
    Inv config wanted { s with publisher := .pushed envelope,
                               ring := if replayable config envelope then s.ring.push envelope else s.ring,
                               passed := s.passed ++ [envelope] } := by
  have stamps := inv.stamps
  obtain ⟨low, high, last⟩ := stamps.stamped envelope stamped
  have ring : (if replayable config envelope then s.ring.push envelope else s.ring).inner =
      ((s.passed ++ [envelope]).filter (replayable config)).rtake
        (if replayable config envelope then s.ring.push envelope else s.ring).capacity ∧
      (if replayable config envelope then s.ring.push envelope else s.ring).capacity = s.ring.capacity := by
    split_ifs with kept
    · obtain ⟨inner, capacity⟩ := push_rtake envelope stamps.ring
      rw [capacity, inner, List.filter_append]
      simp [kept]
    · rw [List.filter_append]
      simpa [kept] using stamps.ring
  refine inv.publishes ⟨?_, fun e member => ?_, by simp, ring.1, ring.2.trans stamps.capacity, ?_, stamps.counts⟩
    ⟨rfl, rfl, rfl, rfl, fun _ h => h, Int.le_refl _, fun w member => .inl ?_, fun e member => .inl member⟩
    fun _ => ⟨rfl, rfl⟩
  · refine List.pairwise_append.2 ⟨stamps.ordered, List.pairwise_singleton _ _, fun p member b only => ?_⟩
    rw [List.mem_singleton.1 only]
    exact last p member
  · rcases List.mem_append.1 member with before | only
    · exact stamps.bounded e before
    · rw [List.mem_singleton.1 only]
      exact ⟨low, high⟩
  · have queue : s.rx.queue <:+ s.passed := by simpa [stamped, pastRing] using stamps.suffix
    obtain ⟨front, same⟩ := queue
    exact ⟨front, by simp [pastRing, ← same]⟩
  · simpa [Events.coming, Events.upcoming, stamped] using member

theorem Inv.broadcast (inv : Inv config wanted s) {envelope : Envelope α} (pushed : s.publisher = .pushed envelope)
    (moved : step config s .broadcast = some s') : Inv config wanted s' := by
  have stamps := inv.stamps
  have suffix : (s.rx.queue ++ [envelope]) <:+ s.passed := by simpa [pushed, pastRing] using stamps.suffix
  simp only [step, pushed] at moved
  cases listens : s.subscribes with
  | true =>
      simp only [listens, if_true, Option.some.injEq] at moved
      subst moved
      refine inv.publishes ⟨stamps.ordered, stamps.bounded, by simp, stamps.ring, stamps.capacity, ?_,
        stamps.counts⟩ ⟨rfl, rfl, rfl, rfl, List.subset_append_left _ _, Int.le_refl _, fun w member => .inl ?_,
        fun e member => ?_⟩ fun silent => ?_
      · simpa [pastRing] using suffix
      · simpa [Events.coming, Events.upcoming, pushed] using member
      · rcases List.mem_append.1 member with before | only
        · exact .inl before
        · exact .inr (List.mem_append_right _ only)
      · rcases silent with idle | ended
        · simp [State.subscribes, idle] at listens
        · simp [State.subscribes, ended] at listens
  | false =>
      simp only [listens, Bool.false_eq_true, if_false, Option.some.injEq] at moved
      subst moved
      have rx : s.rx = {} := by
        have knows := inv.knows
        unfold Knows at knows
        cases phase : s.forwarder with
        | idle => rw [phase] at knows; exact knows.1
        | ended => rw [phase] at knows; exact knows
        | _ => simp [State.subscribes, phase] at listens
      refine inv.publishes ⟨stamps.ordered, stamps.bounded, by simp, stamps.ring, stamps.capacity, ?_,
        stamps.counts⟩ ⟨rfl, rfl, rfl, rfl, fun _ h => h, Int.le_refl _, fun w member => ?_,
        fun e member => .inl member⟩ fun _ => ⟨rfl, rfl⟩
      · simp [rx, pastRing]
      · simp [Events.coming, Events.upcoming, rx] at member

/-! ## The snapshot -/

/-- What the forwarder will receive and the ring already saw. -/
def window (s : State α) : List (Envelope α) := s.rx.queue ++ pastRing s.publisher

/-- Of the envelopes in the window, those in the ring come first and fit in the snapshot. -/
def WindowFits (config : Config α) (s : State α) : Prop :=
  config.ringCapacity = 0 ∨
    (window s = (window s).filter (replayable config) ++ (window s).filter (fun e => !replayable config e) ∧
      ((window s).filter (replayable config)).length ≤ min config.replay config.ringCapacity)

theorem raise_bounds (rest : List (Envelope α)) (last : Int) :
    last ≤ rest.foldl raise last ∧ ∀ e ∈ rest, e.monotonicSeq ≤ rest.foldl raise last := by
  induction rest generalizing last with
  | nil => exact ⟨Int.le_refl _, by simp⟩
  | cons first rest ih =>
      obtain ⟨low, all⟩ := ih (raise last first)
      have left : last ≤ raise last first := Int.le_max_left _ _
      have right : first.monotonicSeq ≤ raise last first := Int.le_max_right _ _
      refine ⟨Int.le_trans left low, fun e member => ?_⟩
      rcases List.mem_cons.1 member with rfl | later
      · exact Int.le_trans right low
      · exact all e later

theorem raise_reached (rest : List (Envelope α)) (last : Int) :
    rest.foldl raise last = last ∨ ∃ e ∈ rest, rest.foldl raise last = e.monotonicSeq := by
  induction rest generalizing last with
  | nil => exact .inl rfl
  | cons first rest ih =>
      rcases ih (raise last first) with same | ⟨e, member, same⟩
      · rw [List.foldl_cons, same]
        rcases Int.le_total first.monotonicSeq last with lower | higher
        · exact .inl (Int.max_eq_left lower)
        · exact .inr ⟨first, List.mem_cons_self, Int.max_eq_right higher⟩
      · exact .inr ⟨e, List.mem_cons_of_mem _ member, same⟩

theorem Stamps.snapshot (stamps : Stamps config s) : s.ring.snapshot config.replay =
    (s.passed.filter (replayable config)).rtake (min config.replay config.ringCapacity) := by
  rw [snapshot_rtake, stamps.ring, rtake_rtake, stamps.capacity]

theorem Stamps.fits (stamps : Stamps config s) (fits : WindowFits config s) (w : Envelope α)
    (member : w ∈ Events.coming s)
    (below : w.monotonicSeq ≤ (s.ring.snapshot config.replay).foldl raise (-1)) :
    w ∈ s.ring.snapshot config.replay := by
  obtain ⟨low, -⟩ := stamps.coming w member
  rcases raise_reached (s.ring.snapshot config.replay) (-1) with none | ⟨d, found, same⟩
  · omega
  rw [same] at below
  have snapshot := stamps.snapshot
  have past : d ∈ s.passed ∧ replayable config d = true := by
    rw [snapshot] at found
    exact List.mem_filter.1 (rtake_subset _ _ found)
  rcases fits with zero | ⟨sorted, short⟩
  · simp [snapshot, zero] at found
  obtain ⟨front, whole⟩ := stamps.suffix
  have inWindow : w ∈ window s := by
    rcases List.mem_append.1 member with queued | next
    · exact List.mem_append_left _ queued
    · cases publisher : s.publisher with
      | idle => simp [publisher, Events.upcoming] at next
      | pushed envelope =>
          rw [publisher] at next
          exact List.mem_append_right _ (by rw [publisher]; exact next)
      | stamped envelope =>
          -- Stamped after everything the ring holds, so the mark is below it.
          have eq : w = envelope := by simpa [publisher, Events.upcoming] using next
          have later := (stamps.stamped envelope publisher).2.2 d past.1
          rw [eq] at below
          exact absurd later (Int.not_lt.2 below)
  have replayed : w ∈ (window s).filter (replayable config) := by
    by_contra left
    have late : w ∈ (window s).filter fun e => !replayable config e := by
      rw [List.mem_filter] at left ⊢
      exact ⟨inWindow, by simpa [inWindow] using left⟩
    have ordered := stamps.ordered
    rw [← whole] at ordered past
    obtain ⟨-, windowOrdered, across⟩ := List.pairwise_append.1 ordered
    have earlier : Before d w := by
      rcases List.mem_append.1 past.1 with before | inside
      · exact across d before w inWindow
      · change (window s).Pairwise Before at windowOrdered
        rw [sorted] at windowOrdered
        exact (List.pairwise_append.1 windowOrdered).2.2 d (List.mem_filter.2 ⟨inside, past.2⟩) w late
    exact absurd earlier (Int.not_lt.2 below)
  rw [snapshot, ← whole, List.filter_append]
  exact subset_rtake short replayed

theorem Inv.snapshot (inv : Inv config wanted s) (subscribed : s.forwarder = .subscribed)
    (fits : ∀ w ∈ coming s, wanted w → w.monotonicSeq ≤ (s.ring.snapshot config.replay).foldl raise (-1) →
      w ∈ s.ring.snapshot config.replay) :
    Inv config wanted { s with forwarder := if config.replay > 0 then
                          .replaying (s.ring.snapshot config.replay) (-1) else .live (-1) } := by
  have stamps := inv.stamps
  have counts := stamps.counts
  have knows := inv.knows
  unfold Knows at knows
  rw [subscribed] at knows
  have none : delivered s = [] := by simp [delivered, knows.1]
  refine ⟨⟨stamps.1, stamps.2, stamps.3, stamps.4, stamps.5, stamps.6, stamps.7⟩, inv.ordered, ?_⟩
  have done (e : Envelope α) (member : e ∈ s.sent) := knows.2 e member
  split_ifs with replays
  · have whole : delivering { s with forwarder := .replaying (s.ring.snapshot config.replay) (-1) } =
        s.ring.snapshot config.replay := by
      change delivered s ++ _ = _
      rw [none]
      rfl
    have old (d : Envelope α) (member : d ∈ s.ring.snapshot config.replay) : d ∈ s.passed := by
      rw [stamps.snapshot] at member
      exact (List.mem_filter.1 (rtake_subset _ _ member)).1
    refine ⟨?_, ?_, ?_, ?_, ?_, ?_, trivial⟩
    · rw [whole, stamps.snapshot]
      exact rtake_pairwise _ _ (stamps.ordered.filter _)
    · intro d member
      rw [whole] at member
      exact stamps.bounded d (old d member)
    · intro w member above d member'
      rw [whole] at member'
      exact Int.lt_of_le_of_lt ((raise_bounds _ _).2 d member') above
    · intro w member due below
      rw [whole]
      exact fits w member due below
    · exact fun e member _ => .inr (.inr (done e member))
    · change (s.ring.snapshot config.replay).foldl raise (-1) < s.seq
      rcases raise_reached (s.ring.snapshot config.replay) (-1) with low | ⟨e, member, same⟩
      · omega
      · rw [same]
        exact (stamps.bounded e (old e member)).2
  · have whole : delivering { s with forwarder := Forwarder.live (-1) } = [] := by
      change delivered s ++ _ = _
      rw [none]
      rfl
    refine ⟨by rw [whole]; exact List.Pairwise.nil, by simp [whole], by simp [whole], ?_, ?_, ?_, trivial⟩
    · intro w member _ below
      have low := (stamps.coming w member).1
      change w.monotonicSeq ≤ -1 at below
      omega
    · exact fun e member _ => .inr (.inr (done e member))
    · change (-1 : Int) < s.seq
      omega

/-! ## Steps of the forwarder -/

theorem Delivering.shift (delivering : Delivering wanted s) (seq : s'.seq = s.seq)
    (whole : Events.delivering s' = Events.delivering s) (same : mark s'.forwarder = mark s.forwarder)
    (coming : ∀ w ∈ coming s', w ∈ Events.coming s)
    (done : ∀ e ∈ s'.sent, wanted e → e ∈ Events.delivering s ∨ e ∈ s'.covered ++ owed s'.forwarder ∨
      e ∈ s'.rx.missed ∨ e ∈ s'.rx.queue)
    (formed : Formed s'.forwarder) : Delivering wanted s' := by
  refine ⟨?_, ?_, ?_, ?_, ?_, ?_, formed⟩
  · rw [whole]
    exact delivering.ordered
  · rw [whole, seq]
    exact delivering.bounded
  · rw [whole, same]
    exact fun w member => delivering.ahead w (coming w member)
  · rw [whole, same]
    exact fun w member => delivering.kept w (coming w member)
  · rw [whole]
    exact done
  · rw [same, seq]
    exact delivering.marked

theorem Delivering.inv (stamps : Stamps config s) (delivering : Delivering wanted s) (active : Active s.forwarder) :
    Inv config wanted s := by
  refine ⟨stamps, (List.pairwise_append.1 delivering.ordered).1, ?_⟩
  unfold Knows
  cases phase : s.forwarder with
  | replaying rest last => exact delivering
  | live last => exact delivering
  | sending received envelope last => exact delivering
  | idle => rw [phase] at active; exact active.elim
  | subscribed => rw [phase] at active; exact active.elim
  | ended => rw [phase] at active; exact active.elim

theorem delivered_append {e : Envelope α} (counted : 0 ≤ e.monotonicSeq) :
    (s.stream ++ [e]).filter (fun e => e.monotonicSeq ≠ -1) = delivered s ++ [e] := by
  have kept : e.monotonicSeq ≠ -1 := by omega
  simp [delivered, kept]

theorem Inv.replayed (inv : Inv config wanted s) {last : Int} (phase : s.forwarder = .replaying [] last) :
    Inv config wanted { s with forwarder := .live last } := by
  have stamps := inv.stamps
  have delivering := inv.active (by rw [phase]; trivial)
  have now : Delivering wanted { s with forwarder := .live last } := by
    refine Delivering.shift delivering rfl ?_ (by rw [phase]; rfl) (fun w member => member) ?_ trivial
    · simp only [Events.delivering, phase, inHand]
      rfl
    · intro e member due
      have before := delivering.done e member due
      rwa [phase] at before
  exact now.inv ⟨stamps.1, stamps.2, stamps.3, stamps.4, stamps.5, stamps.6, stamps.7⟩ trivial

theorem Inv.replays (inv : Inv config wanted s) {e : Envelope α} {rest : List (Envelope α)} {last : Int}
    (phase : s.forwarder = .replaying (e :: rest) last) :
    Inv config wanted { s with forwarder := .replaying rest (max last e.monotonicSeq), stream := s.stream ++ [e] } := by
  have stamps := inv.stamps
  have delivering := inv.active (by rw [phase]; trivial)
  have counted : 0 ≤ e.monotonicSeq :=
    (delivering.bounded e (List.mem_append_right _ (by rw [phase]; exact List.mem_cons_self))).1
  have now : Delivering wanted { s with forwarder := .replaying rest (max last e.monotonicSeq),
                                        stream := s.stream ++ [e] } := by
    refine Delivering.shift delivering rfl ?_ (by rw [phase]; rfl) (fun w member => member) ?_ trivial
    · simp only [Events.delivering, phase, inHand]
      rw [delivered, delivered_append counted, List.append_assoc]
      rfl
    · intro e member due
      have before := delivering.done e member due
      rwa [phase] at before
  exact now.inv ⟨stamps.1, stamps.2, stamps.3, stamps.4, stamps.5, stamps.6, stamps.7⟩ trivial

theorem Inv.sends (inv : Inv config wanted s) {received : Received α} {envelope : Envelope α} {last : Int}
    (phase : s.forwarder = .sending received envelope last) :
    Inv config wanted { s with forwarder := .live last, stream := s.stream ++ [envelope],
                               covered := s.covered ++ received.standsFor } := by
  have stamps := inv.stamps
  have delivering := inv.active (by rw [phase]; trivial)
  have formed := delivering.formed
  rw [phase] at formed
  have now : Delivering wanted { s with forwarder := .live last, stream := s.stream ++ [envelope],
                                        covered := s.covered ++ received.standsFor } := by
    refine Delivering.shift delivering rfl ?_ (by rw [phase]; rfl) (fun w member => member) ?_ trivial
    · simp only [Events.delivering, phase]
      cases received with
      | event e =>
          have same : envelope = e := formed
          subst same
          have counted := (delivering.bounded envelope (List.mem_append_right _ (by rw [phase]; simp [inHand]))).1
          rw [delivered, delivered_append counted]
          simp [inHand]
      | lagged missed =>
          have marker : envelope.monotonicSeq = -1 := formed
          simp [delivered, inHand, marker]
    · intro e member due
      have before := delivering.done e member due
      rw [phase] at before
      rcases before with seen | covered | missed | waiting
      · exact .inl seen
      · exact .inr (.inl (List.mem_append_left _ covered))
      · exact .inr (.inr (.inl missed))
      · exact .inr (.inr (.inr waiting))
  exact now.inv ⟨stamps.1, stamps.2, stamps.3, stamps.4, stamps.5, stamps.6, stamps.7⟩ trivial

theorem Inv.receives (inv : Inv config wanted s) {e : Envelope α} {rest : List (Envelope α)} {last : Int}
    (phase : s.forwarder = .live last) (queue : s.rx.queue = e :: rest) (state : String) :
    Inv config wanted ({ s with rx := { s.rx with queue := rest } }.receive config state last (.event e)) := by
  have stamps := inv.stamps
  have delivering := inv.active (by rw [phase]; trivial)
  have all : Events.coming s = e :: (rest ++ Events.upcoming s.publisher) := by
    simp [Events.coming, queue]
  have first : e ∈ Events.coming s := by simp [all]
  have order := stamps.comingOrdered
  rw [all, List.pairwise_cons] at order
  have stamps' : Stamps config { s with rx := { s.rx with queue := rest } } := by
    refine ⟨stamps.1, stamps.2, stamps.3, stamps.4, stamps.5, ?_, stamps.7⟩
    have suffix := stamps.suffix
    rw [queue] at suffix
    exact (List.suffix_cons e _).trans suffix
  have coming' (w : Envelope α) (member : w ∈ rest ++ Events.upcoming s.publisher) : w ∈ Events.coming s := by
    rw [all]
    exact List.mem_cons_of_mem _ member
  simp only [State.receive]
  split_ifs with skipped
  · have now : Delivering wanted { s with rx := { s.rx with queue := rest } } := by
      refine delivering.shift rfl rfl rfl coming' (fun d member due => ?_) delivering.formed
      rcases delivering.done d member due with seen | covered | missed | waiting
      · exact .inl seen
      · exact .inr (.inl covered)
      · exact .inr (.inr (.inl missed))
      · rw [queue, List.mem_cons] at waiting
        rcases waiting with rfl | later
        · exact .inl (delivering.kept d first due (by rw [phase]; exact skipped))
        · exact .inr (.inr (.inr later))
    exact now.inv stamps' (by simp only [phase]; trivial)
  · have above : mark s.forwarder < e.monotonicSeq := by rw [phase]; exact Int.not_le.1 skipped
    have earlier := delivering.ahead e first above
    have held : Events.delivering s = delivered s := by simp [Events.delivering, phase, inHand]
    rw [held] at earlier
    have counted := stamps.coming e first
    have now : Delivering wanted { s with rx := { s.rx with queue := rest },
                                          forwarder := .sending (.event e) e last } := by
      refine ⟨?_, ?_, ?_, ?_, ?_, ?_, rfl⟩
      · have ordered := delivering.ordered
        rw [held] at ordered
        refine List.pairwise_append.2 ⟨ordered, List.pairwise_singleton _ _, fun d member b only => ?_⟩
        rw [List.mem_singleton.1 only]
        exact earlier d member
      · intro d member
        rcases List.mem_append.1 member with before | only
        · exact delivering.bounded d (by rwa [held])
        · rw [List.mem_singleton.1 only]
          exact counted
      · intro w member higher d member'
        rcases List.mem_append.1 member' with before | only
        · exact delivering.ahead w (coming' w member) (by rw [phase]; exact higher) d (by rwa [held])
        · rw [List.mem_singleton.1 only]
          exact order.1 w member
      · intro w member due lower
        have seen := delivering.kept w (coming' w member) due (by rw [phase]; exact lower)
        rw [held] at seen
        exact List.mem_append_left _ seen
      · intro d member due
        rcases delivering.done d member due with seen | covered | missed | waiting
        · rw [held] at seen
          exact .inl (List.mem_append_left _ seen)
        · rw [phase] at covered
          exact .inr (.inl covered)
        · exact .inr (.inr (.inl missed))
        · rw [queue, List.mem_cons] at waiting
          rcases waiting with rfl | later
          · exact .inl (List.mem_append_right _ (List.mem_singleton.2 rfl))
          · exact .inr (.inr (.inr later))
      · have marked := delivering.marked
        rwa [phase] at marked
    exact now.inv ⟨stamps'.1, stamps'.2, stamps'.3, stamps'.4, stamps'.5, stamps'.6, stamps'.7⟩ trivial

theorem Inv.lags (inv : Inv config wanted s) {last : Int} (phase : s.forwarder = .live last) (state : String) :
    Inv config wanted ({ s with rx := { s.rx with missed := [] } }.receive config state last
      (.lagged s.rx.missed)) := by
  have stamps := inv.stamps
  have delivering := inv.active (by rw [phase]; trivial)
  have now : Delivering wanted ({ s with rx := { s.rx with missed := [] } }.receive config state last
      (.lagged s.rx.missed)) := by
    refine Delivering.shift delivering rfl ?_ (by rw [phase]; rfl) (fun w member => member) ?_ rfl
    · simp only [Events.delivering, phase]
      rfl
    · intro d member due
      rcases delivering.done d member due with seen | covered | missed | waiting
      · exact .inl seen
      · rw [phase, List.mem_append] at covered
        exact .inr (.inl (List.mem_append_left _ (covered.resolve_right (by simp [owed]))))
      · exact .inr (.inl (List.mem_append_right _ missed))
      · exact .inr (.inr (.inr waiting))
  exact now.inv ⟨stamps.1, stamps.2, stamps.3, stamps.4, stamps.5, stamps.6, stamps.7⟩ trivial

theorem Inv.next (inv : Inv config wanted s) {state : String} (moved : forwardNext config s state = some s') :
    Inv config wanted s' := by
  unfold forwardNext at moved
  split at moved
  · cases moved
    exact inv.replayed ‹_›
  · cases moved
    exact inv.replays ‹_›
  · rename_i last phase
    unfold Receiver.recv at moved
    cases missed : s.rx.missed with
    | nil =>
        cases queue : s.rx.queue with
        | nil => simp [missed, queue] at moved
        | cons e rest =>
            simp only [missed, queue, Option.map_some, Option.some.injEq] at moved
            rw [← moved, ← missed]
            exact inv.receives phase queue state
    | cons oldest rest =>
        have lagged := inv.lags phase state
        rw [missed] at lagged
        simp only [missed, Option.map_some, Option.some.injEq] at moved
        rwa [← moved]
  · cases moved
    exact inv.sends ‹_›
  · cases moved
  · cases moved
  · cases moved

end Wamux.Proof.Events
