import Mathlib.Data.List.Basic
import Wamux.Events.Pairing

namespace Wamux.Proof.Events.Pairing
open Wamux.Events Wamux.Events.Pairing Wamux.Runs

variable {ι β : Type} {capacity : Nat} {s s' : State ι β}

def Terminal (envelope : PairingEnvelope ι β) : Prop := ∃ update ∈ pairingOf envelope, pairingStreamEnds update = true

instance (envelope : PairingEnvelope ι β) : Decidable (Terminal envelope) :=
  inferInstanceAs (Decidable (∃ update ∈ pairingOf envelope, pairingStreamEnds update = true))

def Done : Relay ι → Prop
  | .ended => True
  | .sending update => pairingStreamEnds update = true
  | .connecting | .receiving => False

instance : (relay : Relay ι) → Decidable (Done relay)
  | .ended => .isTrue trivial
  | .sending update => inferInstanceAs (Decidable (pairingStreamEnds update = true))
  | .connecting | .receiving => .isFalse id

/-- Nothing to receive, and nobody has hung up. -/
def Waits (s : State ι β) : Prop := s.relay = .receiving ∧ s.rx.recv = none

/-- A terminal update is overwritten only when the relay has one, or the channel keeps another. -/
def Spares (capacity : Nat) (s : State ι β) : Event ι β → Prop
  | .publish envelope => match s.rx.queue with
      | [] => True
      | oldest :: rest => ¬ rest.length + 1 < capacity → Terminal oldest →
          Done s.relay ∨ ∃ other ∈ rest ++ [envelope], Terminal other
  | _ => True

/-! ## Order -/

def inHand : Relay ι → List (PairingUpdate ι)
  | .sending update => [update]
  | .connecting | .receiving | .ended => []

structure Ordered (s : State ι β) : Prop where
  history : s.published = s.past ++ s.rx.missed ++ s.rx.queue
  order : (s.stream ++ inHand s.relay).Sublist (s.past.filterMap pairingOf)
  /-- Only the last of the stream may be terminal, and it ends the relay. -/
  quiet : ∀ update ∈ s.stream.dropLast, pairingStreamEnds update = false
  ends : ∀ update ∈ s.stream, pairingStreamEnds update = true → s.relay = .ended
  begun : s.relay = .connecting → s.past = []

theorem send_history (rx : Receiver (Payload ι β)) (envelope : PairingEnvelope ι β) :
    (send capacity rx envelope).missed ++ (send capacity rx envelope).queue = rx.missed ++ rx.queue ++ [envelope] := by
  unfold send
  split
  · rename_i empty
    simp [empty]
  · rename_i oldest rest queue
    split <;> simp [queue]

inductive Recv (rx rx' : Receiver (Payload ι β)) : Received (Payload ι β) → Prop where
  | event (envelope : PairingEnvelope ι β) (missed : rx.missed = []) (queue : rx.queue = envelope :: rx'.queue)
      (missed' : rx'.missed = []) : Recv rx rx' (.event envelope)
  | lagged (some : rx.missed ≠ []) (missed' : rx'.missed = []) (queue : rx'.queue = rx.queue) :
      Recv rx rx' (.lagged rx.missed)

theorem recv_some {rx rx' : Receiver (Payload ι β)} {received : Received (Payload ι β)}
    (ran : rx.recv = some (received, rx')) : Recv rx rx' received := by
  cases missed : rx.missed with
  | nil => cases queue : rx.queue with
      | nil => simp [Receiver.recv, missed, queue] at ran
      | cons envelope rest =>
          simp only [Receiver.recv, missed, queue, Option.some.injEq, Prod.mk.injEq] at ran
          obtain ⟨rfl, rfl⟩ := ran
          exact .event envelope missed queue rfl
  | cons first others =>
      simp only [Receiver.recv, missed, Option.some.injEq, Prod.mk.injEq] at ran
      obtain ⟨rfl, rfl⟩ := ran
      exact missed ▸ .lagged (by simp [missed]) rfl rfl

theorem recv_none {rx : Receiver (Payload ι β)} : rx.recv = none ↔ rx.missed = [] ∧ rx.queue = [] := by
  cases missed : rx.missed <;> cases queue : rx.queue <;> simp [Receiver.recv, missed, queue]

inductive Next (s s' : State ι β) : Prop where
  | skipped (envelope : PairingEnvelope ι β) (other : pairingOf envelope = none) (receiving : s.relay = .receiving)
      (recv : Recv s.rx s'.rx (.event envelope)) (same : s' = { s with rx := s'.rx, past := s.past ++ [envelope] })
  | took (envelope : PairingEnvelope ι β) (update : PairingUpdate ι) (pairing : pairingOf envelope = some update)
      (receiving : s.relay = .receiving) (recv : Recv s.rx s'.rx (.event envelope))
      (same : s' = { s with rx := s'.rx, past := s.past ++ [envelope], relay := .sending update })
  | lagged (missed : List (PairingEnvelope ι β)) (receiving : s.relay = .receiving) (recv : Recv s.rx s'.rx (.lagged missed))
      (same : s' = { s with rx := s'.rx, past := s.past ++ missed })
  | finishes (receiving : s.relay = .receiving) (empty : s.rx.recv = none) (same : s' = { s with relay := .ended })
  | sent (update : PairingUpdate ι) (sending : s.relay = .sending update) (room : s.stream.length - s.read < slots)
      (same : s' = { s with
        stream := s.stream ++ [update]
        relay := if pairingStreamEnds update then .ended else .receiving })

theorem relayNext_next (moved : relayNext s = some s') : Next s s' := by
  unfold relayNext at moved
  split at moved
  · rename_i receiving
    split at moved
    · rename_i envelope rx recv
      cases pairing : pairingOf envelope with
      | none =>
          simp only [pairing, Option.some.injEq] at moved
          subst moved
          exact .skipped envelope pairing receiving (recv_some recv) rfl
      | some update =>
          simp only [pairing, Option.some.injEq] at moved
          subst moved
          exact .took envelope update pairing receiving (recv_some recv) rfl
    · rename_i missed rx recv
      cases moved
      exact .lagged missed receiving (recv_some recv) rfl
    · rename_i empty
      split at moved <;> cases moved
      exact .finishes receiving empty rfl
  · rename_i update sending
    split at moved
    · rename_i room
      cases moved
      exact .sent update sending room rfl
    · cases moved
  · cases moved
  · cases moved

theorem Ordered.next (inv : Ordered s) (next : Next s s') : Ordered s' := by
  obtain ⟨history, order, quiet, ends, -⟩ := inv
  cases next with
  | skipped envelope other receiving recv same =>
      cases recv with
      | event _ missed queue missed' =>
          rw [same]
          refine ⟨?_, ?_, quiet, ends, fun connecting => nomatch receiving.symm.trans connecting⟩
          · simp only [history, missed, queue, missed', List.append_nil, List.append_assoc, List.singleton_append]
          · simpa [receiving, inHand, other] using order
  | took envelope update pairing receiving recv same =>
      cases recv with
      | event _ missed queue missed' =>
          rw [same]
          refine ⟨?_, ?_, quiet, fun update member terminal => ?_, nofun⟩
          · simp only [history, missed, queue, missed', List.append_nil, List.append_assoc, List.singleton_append]
          · have before : s.stream.Sublist (s.past.filterMap pairingOf) := by simpa [receiving, inHand] using order
            simpa [inHand, pairing] using before.append (List.Sublist.refl [update])
          · exact nomatch receiving.symm.trans (ends update member terminal)
  | lagged missed receiving recv same =>
      cases recv with
      | lagged some missed' queue =>
          rw [same]
          refine ⟨?_, ?_, quiet, ends, fun connecting => nomatch receiving.symm.trans connecting⟩
          · simp only [history, missed', queue, List.append_nil]
          · have before : s.stream.Sublist (s.past.filterMap pairingOf) := by simpa [receiving, inHand] using order
            simpa [receiving, inHand] using before.trans (List.sublist_append_left _ _)
  | finishes receiving empty same =>
      rw [same]
      exact ⟨history, by simpa [receiving, inHand] using order, quiet, fun _ _ _ => rfl, nofun⟩
  | sent update sending room same =>
      rw [same]
      have live : ∀ other ∈ s.stream, pairingStreamEnds other = false := fun other member =>
        Bool.eq_false_iff.2 fun terminal => nomatch sending.symm.trans (ends other member terminal)
      refine ⟨history, ?_, ?_, fun other member terminal => ?_, fun connecting => ?_⟩
      · have before : (s.stream ++ [update]).Sublist (s.past.filterMap pairingOf) := by simpa [sending, inHand] using order
        cases pairingStreamEnds update <;> simpa [inHand] using before
      · simpa using live
      · rcases List.mem_append.1 member with earlier | last
        · simp [live other earlier] at terminal
        · rw [List.mem_singleton.1 last] at terminal
          exact if_pos terminal
      · revert connecting
        cases pairingStreamEnds update <;> exact nofun

theorem Ordered.ended (inv : Ordered s) : Ordered { s with relay := .ended } :=
  ⟨inv.history, by
    simpa [inHand] using (List.sublist_append_left s.stream (inHand s.relay)).trans inv.order, inv.quiet, fun _ _ _ => rfl, nofun⟩

theorem Ordered.step {e : Event ι β} (inv : Ordered s) (moved : step capacity s e = some s') : Ordered s' := by
  cases e with
  | publish envelope =>
      simp only [Pairing.step] at moved
      split at moved
      · cases moved
        exact inv
      · cases moved
        refine ⟨?_, inv.order, inv.quiet, inv.ends, inv.begun⟩
        simp only [List.append_assoc, send_history, inv.history]
  | close =>
      cases moved
      exact ⟨inv.history, inv.order, inv.quiet, inv.ends, inv.begun⟩
  | connected ok =>
      simp only [Pairing.step] at moved
      split at moved
      · rename_i connecting
        cases moved
        cases ok with
        | false => exact inv.ended
        | true =>
            refine ⟨inv.history, by simpa [connecting, inHand] using inv.order, inv.quiet,
              fun update member terminal => ?_, nofun⟩
            exact nomatch connecting.symm.trans (inv.ends update member terminal)
      · cases moved
  | next => exact inv.next (relayNext_next moved)
  | clientReads =>
      simp only [Pairing.step] at moved
      split at moved <;> cases moved
      exact ⟨inv.history, inv.order, inv.quiet, inv.ends, inv.begun⟩
  | hangUp =>
      cases moved
      exact inv.ended
  | shutdown =>
      simp only [Pairing.step] at moved
      split at moved <;> cases moved
      exact inv.ended

theorem ordered_of_reaches {allowed : State ι β → Event ι β → Prop}
    (reaches : (machine ι β capacity).Reaches allowed s) : Ordered s :=
  reaches.invariant Ordered ⟨rfl, List.Sublist.refl _,
    fun _ member => (List.not_mem_nil member).elim, fun _ member => (List.not_mem_nil member).elim,
    fun _ => rfl⟩ fun _ _ _ inv _ moved => inv.step moved

/-! ## The end -/

/-- What the receiver is past or will skip holds no terminal update, unless one is at hand or ahead. -/
def Ahead (s : State ι β) : Prop :=
  (∃ envelope ∈ s.past ++ s.rx.missed, Terminal envelope) → Done s.relay ∨ ∃ envelope ∈ s.rx.queue, Terminal envelope

theorem Ahead.drop {envelope : PairingEnvelope ι β} {rest : List (PairingEnvelope ι β)} (ahead : Ahead s)
    (queue : s.rx.queue = envelope :: rest) (harmless : ¬Terminal envelope)
    (passed : ∃ e ∈ s.past ++ s.rx.missed ++ [envelope], Terminal e) :
    Done s.relay ∨ ∃ e ∈ rest, Terminal e := by
  obtain ⟨e, member, terminal⟩ := passed
  have before : e ∈ s.past ++ s.rx.missed := by
    rcases List.mem_append.1 member with earlier | last
    · exact earlier
    · exact absurd (List.mem_singleton.1 last ▸ terminal) harmless
  rcases ahead ⟨e, before, terminal⟩ with done | ⟨other, queued, terminal'⟩
  · exact .inl done
  · rw [queue] at queued
    rcases List.mem_cons.1 queued with rfl | later
    · exact absurd terminal' harmless
    · exact .inr ⟨other, later, terminal'⟩

theorem Ahead.next (ahead : Ahead s) (next : Next s s') : Ahead s' := by
  cases next with
  | skipped envelope other receiving recv same =>
      cases recv with
      | event _ missed queue missed' =>
          have harmless : ¬Terminal envelope := by
            rintro ⟨update, pairing, -⟩
            simp [other] at pairing
          rw [same]
          intro passed
          exact ahead.drop queue harmless (by simpa [missed, missed'] using passed)
  | took envelope update pairing receiving recv same =>
      cases recv with
      | event _ missed queue missed' =>
          rw [same]
          intro passed
          by_cases ends : pairingStreamEnds update = true
          · exact .inl ends
          · have harmless : ¬Terminal envelope := by
              rintro ⟨other, member, terminal⟩
              rw [pairing] at member
              exact ends (Option.mem_some_iff.1 member ▸ terminal)
            rcases ahead.drop queue harmless (by simpa [missed, missed'] using passed) with done | later
            · rw [receiving] at done
              exact done.elim
            · exact .inr later
  | lagged missed receiving recv same =>
      cases recv with
      | lagged some missed' queue =>
          rw [same]
          rintro ⟨e, member, terminal⟩
          rw [missed', List.append_nil] at member
          rw [queue]
          exact ahead ⟨e, member, terminal⟩
  | finishes receiving empty same =>
      rw [same]
      exact fun _ => .inl trivial
  | sent update sending room same =>
      rw [same]
      intro passed
      cases ends : pairingStreamEnds update with
      | true => exact .inl (by simp [Done])
      | false =>
          rcases ahead passed with done | queued
          · rw [sending] at done
            exact nomatch ends.symm.trans done
          · exact .inr queued

theorem Ahead.step {e : Event ι β} (ahead : Ahead s) (spares : Spares capacity s e)
    (moved : step capacity s e = some s') : Ahead s' := by
  cases e with
  | publish envelope =>
      have moved : s' = s ∨ s' = { s with rx := send capacity s.rx envelope, published := s.published ++ [envelope] } := by
        simp only [Pairing.step] at moved
        split at moved <;> cases moved
        · exact .inl rfl
        · exact .inr rfl
      rcases moved with rfl | rfl
      · exact ahead
      · unfold Ahead send
        simp only [Spares] at spares
        split
        · rename_i empty
          intro passed
          rcases ahead passed with done | ⟨e, queued, -⟩
          · exact .inl done
          · simp [empty] at queued
        · rename_i oldest rest queue
          simp only [queue] at spares
          split
          · intro passed
            rcases ahead passed with done | ⟨e, queued, terminal⟩
            · exact .inl done
            · exact .inr ⟨e, List.mem_append_left _ (queue ▸ queued), terminal⟩
          · rename_i full
            by_cases lost : Terminal oldest
            · exact fun _ => spares full lost
            · intro passed
              rcases ahead.drop queue lost (by simpa using passed) with done | ⟨e, later, terminal⟩
              · exact .inl done
              · exact .inr ⟨e, List.mem_append_left _ later, terminal⟩
  | close =>
      cases moved
      exact ahead
  | connected ok =>
      simp only [Pairing.step] at moved
      split at moved
      · rename_i connecting
        cases moved
        intro passed
        rcases ahead passed with done | queued
        · rw [connecting] at done
          exact done.elim
        · exact .inr queued
      · cases moved
  | next => exact ahead.next (relayNext_next moved)
  | clientReads =>
      simp only [Pairing.step] at moved
      split at moved <;> cases moved
      exact ahead
  | hangUp =>
      cases moved
      exact fun _ => .inl trivial
  | shutdown =>
      simp only [Pairing.step] at moved
      split at moved <;> cases moved
      exact fun _ => .inl trivial

theorem ahead_of_reaches (reaches : (machine ι β capacity).Reaches (Spares capacity) s) : Ahead s :=
  reaches.invariant Ahead (fun ⟨_, member, _⟩ => (List.not_mem_nil member).elim)
    fun _ _ _ ahead spares moved => ahead.step spares moved

/-! ## The relay on its own -/

def Own (_ : State ι β) : Event ι β → Prop
  | .next | .clientReads => True
  | _ => False

def work (s : State ι β) : Nat := 3 * s.rx.queue.length + min 1 s.rx.missed.length + (inHand s.relay).length

theorem Next.works (next : Next s s') : s'.relay = .ended ∨ work s' < work s ∧ s.past ⊆ s'.past := by
  cases next with
  | skipped envelope other receiving recv same =>
      cases recv with
      | event _ missed queue missed' =>
          rw [same]
          refine .inr ⟨?_, List.subset_append_left _ _⟩
          simp [work, queue, missed, missed']
  | took envelope update pairing receiving recv same =>
      cases recv with
      | event _ missed queue missed' =>
          rw [same]
          refine .inr ⟨?_, List.subset_append_left _ _⟩
          simp [work, queue, missed, missed', receiving, inHand]
          omega
  | lagged missed receiving recv same =>
      cases recv with
      | lagged some missed' queue =>
          rw [same]
          refine .inr ⟨?_, List.subset_append_left _ _⟩
          have lost := List.length_pos_of_ne_nil some
          simp [work, queue, missed', receiving, inHand]
          omega
  | finishes receiving empty same =>
      rw [same]
      exact .inl rfl
  | sent update sending room same =>
      rw [same]
      cases pairingStreamEnds update with
      | true => exact .inl rfl
      | false =>
          refine .inr ⟨?_, List.Subset.refl _⟩
          simp [work, sending, inHand]

theorem reads_room (capacity : Nat) (s : State ι β) : ∃ read, s.stream.length - read < slots ∧
    (machine ι β capacity).Leads Own s { s with read } := by
  induction left : s.stream.length - s.read generalizing s with
  | zero => exact ⟨s.read, by simp [left, slots], .here⟩
  | succ n ih =>
      have reads : (machine ι β capacity).step s .clientReads = some { s with read := s.read + 1 } :=
        if_pos (show s.read < s.stream.length by omega)
      obtain ⟨read, room, leads⟩ := ih { s with read := s.read + 1 } (by simp only; omega)
      exact ⟨read, room, leads.after (show Own s .clientReads from trivial) reads⟩

theorem Ahead.not_waits (ahead : Ahead s) (passed : ∃ envelope ∈ s.past, Terminal envelope) : ¬Waits s := by
  rintro ⟨receiving, empty⟩
  obtain ⟨e, member, terminal⟩ := passed
  rcases ahead ⟨e, List.mem_append_left _ member, terminal⟩ with done | ⟨other, queued, -⟩
  · rw [receiving] at done
    exact done
  · rw [(recv_none.1 empty).2] at queued
    exact List.not_mem_nil queued

theorem next_moves (running : s.relay ≠ .ended) (connected : s.relay ≠ .connecting) (busy : ¬Waits s)
    (room : s.stream.length - s.read < slots) : ∃ s', relayNext s = some s' := by
  unfold relayNext
  split
  · rename_i receiving
    split
    · split <;> exact ⟨_, rfl⟩
    · exact ⟨_, rfl⟩
    · rename_i empty
      exact absurd ⟨receiving, empty⟩ busy
  · exact ⟨_, if_pos room⟩
  · rename_i connecting
    exact absurd connecting connected
  · rename_i ended
    exact absurd ended running

theorem ends_of_ahead (capacity : Nat) (ordered : Ordered s) (ahead : Ahead s)
    (passed : ∃ envelope ∈ s.past, Terminal envelope) :
    ∃ s', (machine ι β capacity).Leads Own s s' ∧ s'.relay = .ended := by
  induction bound : work s using Nat.strongRecOn generalizing s with
  | ind n ih =>
      by_cases running : s.relay = .ended
      · exact ⟨s, .here, running⟩
      have connected : s.relay ≠ .connecting := by
        intro connecting
        obtain ⟨e, member, -⟩ := passed
        rw [ordered.begun connecting] at member
        exact List.not_mem_nil member
      obtain ⟨read, room, reads⟩ := reads_room capacity s
      have ordered' : Ordered { s with read } :=
        ⟨ordered.history, ordered.order, ordered.quiet, ordered.ends, ordered.begun⟩
      have ahead' : Ahead { s with read } := ahead
      have busy : ¬Waits { s with read } := ahead'.not_waits passed
      obtain ⟨s', moved⟩ : ∃ s', relayNext { s with read } = some s' := next_moves running connected busy room
      have next := relayNext_next moved
      have leads : (machine ι β capacity).Leads Own s s' := .next reads (show Own _ .next from trivial) moved
      rcases next.works with ended | ⟨less, grows⟩
      · exact ⟨s', leads, ended⟩
      · obtain ⟨e, member, terminal⟩ := passed
        have less : work s' < n := bound ▸ less
        obtain ⟨s'', rest, ended⟩ := ih _ less (ordered'.next next) (ahead'.next next)
          ⟨e, grows member, terminal⟩ rfl
        exact ⟨s'', leads.trans rest, ended⟩

/-! ## The statement -/

/-- In every run the order and the end of what is delivered; where no terminal update is overwritten
unread, the end of the stream too. -/
theorem pairing_stream_ends (ι β : Type) (capacity : Nat) :
    (∀ s : State ι β, (machine ι β capacity).Reaches Machine.Free s →
      s.stream.Sublist (s.published.filterMap pairingOf) ∧
      ∀ before update after, s.stream = before ++ update :: after → pairingStreamEnds update = true → after = []) ∧
    ∀ s : State ι β, (machine ι β capacity).Reaches (Spares capacity) s → (∃ envelope ∈ s.past, Terminal envelope) →
      ¬Waits s ∧ ∃ s', (machine ι β capacity).Leads Own s s' ∧ s'.relay = .ended := by
  constructor
  · intro s reaches
    have ordered := ordered_of_reaches reaches
    constructor
    · have past : (s.past.filterMap pairingOf).Sublist (s.published.filterMap pairingOf) := by
        rw [ordered.history, List.append_assoc]
        exact (List.sublist_append_left _ _).filterMap _
      exact ((List.sublist_append_left _ _).trans ordered.order).trans past
    · intro before update after stream terminal
      by_contra more
      have early : update ∈ s.stream.dropLast := by
        rw [stream, List.dropLast_append_of_ne_nil (List.cons_ne_nil _ _), List.dropLast_cons_of_ne_nil more]
        simp
      rw [ordered.quiet update early] at terminal
      cases terminal
  · intro s reaches passed
    have ahead := ahead_of_reaches reaches
    exact ⟨ahead.not_waits passed, ends_of_ahead capacity (ordered_of_reaches reaches) ahead passed⟩

/-! ## Two channels of one slot and of two -/

instance decidableSpares (capacity : Nat) (s : State ι β) : (e : Event ι β) → Decidable (Spares capacity s e)
  | .publish envelope => match queue : s.rx.queue with
      | [] => .isTrue (by simp [Spares, queue])
      | oldest :: rest => decidable_of_iff (¬ rest.length + 1 < capacity → Terminal oldest →
          Done s.relay ∨ ∃ other ∈ rest ++ [envelope], Terminal other) (by simp [Spares, queue])
  | .close | .connected _ | .next | .clientReads | .hangUp | .shutdown => .isTrue trivial

def published (seq : Int) (payload : Payload Unit Unit) : Event Unit Unit := .publish ⟨"account", seq, 0, .mapped payload⟩

def code : PairingUpdate Unit := ⟨some (.qrCode "code")⟩

def paired : PairingUpdate Unit := ⟨some (.paired ())⟩

def spared : List (Event Unit Unit) :=
  [published 1 (.pairing code), published 2 (.pairing code), published 3 (.pairing paired), .connected true,
    .next, .next, .next, .clientReads, .next]

theorem pairing_stream_ends_spared : ∃ s : State Unit Unit, s.stream = [code] ∧ s.relay = .sending paired ∧
    ¬Waits s ∧ ∃ s', (machine Unit Unit 2).Leads Own s s' ∧ s'.relay = .ended := by
  obtain ⟨s, reaches, ends⟩ := Machine.reaches_of_replay (fun s e => of_decide_eq_true (p := Spares 2 s e))
    (fun s : State Unit Unit => s.stream = [code] ∧ s.relay = .sending paired ∧ ∃ envelope ∈ s.past, Terminal envelope)
    spared
    (show ((machine Unit Unit 2).replay (fun s e => decide (Spares 2 s e)) _ spared).map _ = some true by decide +kernel)
  obtain ⟨stream, sending, passed⟩ := of_decide_eq_true ends
  exact ⟨s, stream, sending, (pairing_stream_ends Unit Unit 2).2 s reaches passed⟩

/-- The account is paired, and an event behind it overwrites the update. -/
def overwritten : List (Event Unit Unit) :=
  [published 1 (.pairing paired), published 2 (.other ()), .connected true, .next, .next]

theorem paired_stream_waits : ¬∀ (capacity : Nat) (s : State Unit Unit),
    (machine Unit Unit capacity).Reaches Machine.Free s → (∃ envelope ∈ s.past, Terminal envelope) → ¬Waits s := by
  intro all
  obtain ⟨s, reaches, ends⟩ := Machine.reaches_of_replay Machine.free_sound
    (fun s : State Unit Unit => (∃ envelope ∈ s.past, Terminal envelope) ∧ s.relay = .receiving ∧ s.rx.missed = [] ∧
      s.rx.queue = []) overwritten
    (show ((machine Unit Unit 1).replay Machine.free _ overwritten).map _ = some true by decide +kernel)
  obtain ⟨passed, receiving, missed, queue⟩ := of_decide_eq_true ends
  exact all 1 s reaches passed ⟨receiving, recv_none.2 ⟨missed, queue⟩⟩

end Wamux.Proof.Events.Pairing
