import Mathlib.Data.List.Nodup
import Wamux.Events.Publisher
import Wamux.Proof.Events.ExactlyOnce

namespace Wamux.Proof.Events
open Wamux.Events Wamux.Runs Wamux.Runs.Machine

variable {α ε : Type} {library : EventPublisher.Library α ε} {config : Config α}

/-! ## The account -/

section Account
variable {a a' : State α} {broadcasts : List (Envelope α)} {envelope : Envelope α}

def unpushed : Publisher α → List (Envelope α)
  | .stamped envelope => [envelope]
  | .idle | .pushed _ => []

def numbered (a : State α) : List (Envelope α) := a.passed ++ unpushed a.publisher

def pushes (config : Config α) (a : State α) : List (Envelope α) := a.passed.filter (replayable config)

def counting (n : Nat) : List Int := (List.range n).map Int.ofNat

structure Publishing (config : Config α) (a : State α) (broadcasts : List (Envelope α)) : Prop where
  seqs : (numbered a).map Envelope.monotonicSeq = counting (numbered a).length
  seq : a.seq = (numbered a).length
  ring : a.ring.inner = (pushes config a).rtake config.ringCapacity
  capacity : a.ring.capacity = config.ringCapacity
  sent : broadcasts ++ pastRing a.publisher = a.passed
  received : a.rx.queue ⊆ broadcasts

theorem Publishing.stamp {inner : WireEvent α} {now : Int} (publishing : Publishing config a broadcasts)
    (idle : a.publisher = .idle) : Publishing config
      { a with publisher := .stamped ⟨config.uuid, a.seq, now, inner⟩, seq := a.seq + 1 } broadcasts := by
  have before : numbered a = a.passed := by simp [numbered, idle, unpushed]
  have seqs := publishing.seqs
  have seq := publishing.seq
  rw [before] at seqs seq
  refine ⟨?_, ?_, publishing.ring, publishing.capacity, ?_, publishing.received⟩
  · simp only [numbered, unpushed, List.map_append, List.length_append, seqs, counting, List.length_singleton,
      List.range_succ]
    simp [seq]
  · simp [numbered, unpushed, seq]
  · simpa [idle, pastRing] using publishing.sent

theorem Publishing.push (publishing : Publishing config a broadcasts) (stamped : a.publisher = .stamped envelope) :
    Publishing config { a with publisher := .pushed envelope,
                               ring := if replayable config envelope then a.ring.push envelope else a.ring,
                               passed := a.passed ++ [envelope] } broadcasts := by
  have same : a.passed ++ [envelope] = numbered a := by simp [numbered, stamped, unpushed]
  have kept : a.ring.inner = (pushes config a).rtake a.ring.capacity := by
    rw [publishing.capacity]
    exact publishing.ring
  obtain ⟨inner, capacity⟩ := push_rtake envelope kept
  refine ⟨?_, ?_, ?_, ?_, ?_, publishing.received⟩
  · simpa [numbered, unpushed, same] using publishing.seqs
  · simpa [numbered, unpushed, same] using publishing.seq
  · simp only [pushes, List.filter_append]
    split_ifs with replays
    · rw [inner, publishing.capacity]
      simp [replays, pushes]
    · simpa [replays, pushes] using publishing.ring
  · split_ifs
    · exact capacity.trans publishing.capacity
    · exact publishing.capacity
  · have before := publishing.sent
    simp only [stamped, pastRing, List.append_nil] at before
    simp [pastRing, before]

theorem Publishing.broadcast (publishing : Publishing config a broadcasts) (pushed : a.publisher = .pushed envelope)
    (moved : step config a .broadcast = some a') : Publishing config a' (broadcasts ++ [envelope]) ∧
      a'.publisher = .idle ∧ a'.passed = a.passed := by
  have before := publishing.sent
  simp only [pushed, pastRing] at before
  have seqs := publishing.seqs
  have seq := publishing.seq
  simp only [numbered, pushed, unpushed, List.append_nil] at seqs seq
  simp only [Wamux.Events.step, pushed] at moved
  split at moved
  · cases moved
    refine ⟨⟨?_, ?_, publishing.ring, publishing.capacity, ?_, ?_⟩, rfl, rfl⟩
    · simpa [numbered, unpushed] using seqs
    · simpa [numbered, unpushed] using seq
    · simpa [pastRing] using before
    · exact List.append_subset.2 ⟨List.subset_append_of_subset_left _ publishing.received, List.subset_append_right _ _⟩
  · cases moved
    refine ⟨⟨?_, ?_, publishing.ring, publishing.capacity, ?_, ?_⟩, rfl, rfl⟩
    · simpa [numbered, unpushed] using seqs
    · simpa [numbered, unpushed] using seq
    · simpa [pastRing] using before
    · exact List.subset_append_of_subset_left _ publishing.received

theorem subscriber_step {e : Event α} (its : EventPublisher.ofSubscriber e = true) (moved : step config a e = some a') :
    a'.seq = a.seq ∧ a'.publisher = a.publisher ∧ a'.ring = a.ring ∧ a'.passed = a.passed ∧
      a'.rx.queue ⊆ a.rx.queue := by
  cases e with
  | stamp => cases its
  | push => cases its
  | broadcast => cases its
  | subscribe =>
      simp only [Wamux.Events.step] at moved
      split at moved <;> cases moved
      exact ⟨rfl, rfl, rfl, rfl, fun _ member => member⟩
  | snapshot =>
      simp only [Wamux.Events.step] at moved
      split at moved <;> cases moved
      exact ⟨rfl, rfl, rfl, rfl, fun _ member => member⟩
  | overrun =>
      simp only [Wamux.Events.step] at moved
      split at moved
      · rename_i oldest rest queue
        cases moved
        rw [queue]
        exact ⟨rfl, rfl, rfl, rfl, List.subset_cons_self _ _⟩
      · cases moved
  | hangUp =>
      simp only [Wamux.Events.step] at moved
      split at moved <;> cases moved
      exact ⟨rfl, rfl, rfl, rfl, List.nil_subset _⟩
  | next state =>
      simp only [Wamux.Events.step, forwardNext] at moved
      split at moved
      · cases moved
        exact ⟨rfl, rfl, rfl, rfl, fun _ member => member⟩
      · cases moved
        exact ⟨rfl, rfl, rfl, rfl, fun _ member => member⟩
      · obtain ⟨⟨received, rx⟩, got, rfl⟩ := Option.map_eq_some_iff.1 moved
        have fewer : rx.queue ⊆ a.rx.queue := by
          unfold Receiver.recv at got
          split at got
          · cases got
          · rename_i queue
            cases got
            rw [queue]
            exact List.subset_cons_self _ _
          · cases got
            exact fun _ member => member
        cases received with
        | event envelope =>
            simp only [State.receive]
            split
            · exact ⟨rfl, rfl, rfl, rfl, fewer⟩
            · exact ⟨rfl, rfl, rfl, rfl, fewer⟩
        | lagged missed => exact ⟨rfl, rfl, rfl, rfl, fewer⟩
      · cases moved
        exact ⟨rfl, rfl, rfl, rfl, fun _ member => member⟩
      all_goals cases moved

theorem Publishing.subscriber {e : Event α} (publishing : Publishing config a broadcasts)
    (its : EventPublisher.ofSubscriber e = true) (moved : step config a e = some a') :
    Publishing config a' broadcasts := by
  obtain ⟨seq, publisher, ring, passed, queue⟩ := subscriber_step its moved
  refine ⟨?_, ?_, ?_, ?_, ?_, List.Subset.trans queue publishing.received⟩
  · simpa only [numbered, passed, publisher] using publishing.seqs
  · simpa only [numbered, passed, publisher, seq] using publishing.seq
  · simpa only [pushes, passed, ring] using publishing.ring
  · rw [ring]
    exact publishing.capacity
  · rw [publisher, passed]
    exact publishing.sent

end Account

/-! ## The queue -/

section Queue
open EventPublisher (Job)

variable {s s' : EventPublisher.State α ε}

def runningJob (s : EventPublisher.State α ε) : List (Job α ε) :=
  match s.running with
  | some (job, _) => [job]
  | none => []

def remaining (s : EventPublisher.State α ε) : List (WireEvent α) :=
  match s.running with
  | some (_, rest) => rest
  | none => []

def fanOut (library : EventPublisher.Library α ε) (jobs : List (Job α ε)) : List (WireEvent α) :=
  jobs.flatMap (Job.publishes library)

theorem fanOut_append (jobs more : List (Job α ε)) : fanOut library (jobs ++ more) = fanOut library jobs ++ fanOut library more :=
  List.flatMap_append

structure Queueing (library : EventPublisher.Library α ε) (config : Config α) (s : EventPublisher.State α ε) : Prop where
  publishing : Publishing config s.account s.broadcasts
  jobs : s.finished ++ runningJob s ++ s.queue = s.enqueued
  progress : (numbered s.account).map Envelope.event ++ remaining s = fanOut library (s.finished ++ runningJob s)
  idle : s.running = none → s.account.publisher = .idle
  done : fanOut library s.finished <+: s.broadcasts.map Envelope.event
  callers : ∀ c event, .wire event c ∈ s.enqueued → s.callers c = .awaiting event ∨ s.callers c = .returned event
  single : (s.enqueued.filterMap Job.caller).Nodup
  confirmed : ∀ c, s.confirmed c = true → ∃ event, .wire event c ∈ s.finished
  returned : ∀ c event, s.callers c = .returned event → s.confirmed c = true

theorem Queueing.account {a : State α} {broadcasts : List (Envelope α)} (queueing : Queueing library config s)
    (job : Job α ε) (rest : List (WireEvent α)) (running : s.running.map Prod.fst = some job)
    (publishing : Publishing config a broadcasts)
    (progress : (numbered a).map Envelope.event ++ rest = (numbered s.account).map Envelope.event ++ remaining s)
    (more : s.broadcasts <+: broadcasts) :
    Queueing library config { s with account := a, broadcasts := broadcasts, running := some (job, rest) } := by
  have same : runningJob s = [job] := by
    cases now : s.running with
    | none => simp [now] at running
    | some pair =>
        rw [now, Option.map_some, Option.some.injEq] at running
        simp [runningJob, now, running]
  refine ⟨publishing, ?_, ?_, nofun, ?_, queueing.callers, queueing.single, queueing.confirmed, queueing.returned⟩
  · rw [← queueing.jobs, same]
    rfl
  · change (numbered a).map Envelope.event ++ rest = fanOut library (s.finished ++ [job])
    rw [progress, queueing.progress, same]
  · exact queueing.done.trans (more.map _)

theorem Queueing.setCaller {c : EventPublisher.CallerId} {caller : EventPublisher.Caller α ε}
    (queueing : Queueing library config s)
    (keeps : ∀ event, s.callers c = .awaiting event ∨ s.callers c = .returned event →
      caller = .awaiting event ∨ caller = .returned event)
    (returns : ∀ event, caller = .returned event → s.confirmed c = true) :
    Queueing library config (s.setCaller c caller) := by
  refine ⟨queueing.publishing, queueing.jobs, queueing.progress, queueing.idle, queueing.done, ?_, queueing.single,
    queueing.confirmed, ?_⟩
  · intro c' event member
    have before := queueing.callers c' event member
    dsimp only [EventPublisher.State.setCaller]
    by_cases same : c' = c
    · subst same
      rw [Function.update_self]
      exact keeps event before
    · rw [Function.update_of_ne same]
      exact before
  · intro c' event found
    dsimp only [EventPublisher.State.setCaller] at found
    by_cases same : c' = c
    · subst same
      rw [Function.update_self] at found
      exact returns event found
    · rw [Function.update_of_ne same] at found
      exact queueing.returned c' event found

theorem Queueing.enqueue {job : Job α ε} (queueing : Queueing library config s)
    (callers : ∀ c event, job = .wire event c → s.callers c = .awaiting event)
    (fresh : ∀ c, job.caller = some c → ∀ event, .wire event c ∉ s.enqueued) :
    Queueing library config (s.enqueue job) := by
  refine ⟨queueing.publishing, ?_, queueing.progress, queueing.idle, queueing.done, ?_, ?_, queueing.confirmed,
    queueing.returned⟩
  · change s.finished ++ runningJob s ++ (s.queue ++ [job]) = s.enqueued ++ [job]
    rw [← List.append_assoc, queueing.jobs]
  · intro c event member
    rcases List.mem_append.1 member with before | now
    · exact queueing.callers c event before
    · exact .inl (callers c event (List.mem_singleton.1 now).symm)
  · change ((s.enqueued ++ [job]).filterMap Job.caller).Nodup
    rw [List.filterMap_append, List.nodup_append]
    refine ⟨queueing.single, List.nodup_iff_pairwise_ne.2 ?_, ?_⟩
    · cases caller : job.caller <;> simp [List.filterMap, caller]
    · intro c member d single same
      subst same
      have mine : job.caller = some c := by
        cases caller : job.caller with
        | none => simp [List.filterMap, caller] at single
        | some d => simpa [List.filterMap, caller, eq_comm] using single
      obtain ⟨other, member, caller⟩ := List.mem_filterMap.1 member
      cases other with
      | lib event => cases caller
      | wire event done =>
          cases caller
          exact fresh c mine event member

theorem Queueing.recv {job : Job α ε} {rest : List (Job α ε)} (queueing : Queueing library config s)
    (waiting : s.running = none) (queue : s.queue = job :: rest) :
    Queueing library config { s with running := some (job, job.publishes library), queue := rest } := by
  have jobs := queueing.jobs
  have progress := queueing.progress
  simp only [runningJob, remaining, waiting, List.append_nil] at jobs progress
  refine ⟨queueing.publishing, ?_, ?_, nofun, queueing.done, queueing.callers, queueing.single, queueing.confirmed,
    queueing.returned⟩
  · change s.finished ++ [job] ++ rest = s.enqueued
    rw [← jobs, queue, List.append_assoc]
    rfl
  · change (numbered s.account).map Envelope.event ++ job.publishes library = fanOut library (s.finished ++ [job])
    rw [progress, fanOut_append]
    simp [fanOut]

theorem confirm_eq (job : Job α ε) : s.confirm job = { s with confirmed := (s.confirm job).confirmed } := by
  cases job <;> rfl

theorem confirm_confirmed {c : EventPublisher.CallerId} (job : Job α ε) :
    (s.confirm job).confirmed c = true ↔ s.confirmed c = true ∨ ∃ event, job = .wire event c := by
  cases job with
  | lib event => simp [EventPublisher.State.confirm]
  | wire event done =>
      by_cases same : c = done
      · subst same
        simp [EventPublisher.State.confirm]
      · simp [EventPublisher.State.confirm, same, Ne.symm same]

theorem Queueing.finish {job : Job α ε} (queueing : Queueing library config s) (running : s.running = some (job, []))
    (idle : s.account.publisher = .idle) :
    Queueing library config { s.confirm job with running := none, finished := s.finished ++ [job] } := by
  have progress := queueing.progress
  have jobs := queueing.jobs
  have sent := queueing.publishing.sent
  simp only [runningJob, remaining, running, List.append_nil] at progress jobs
  simp only [idle, pastRing, List.append_nil] at sent
  have whole : s.broadcasts.map Envelope.event = fanOut library (s.finished ++ [job]) := by
    rw [← progress, sent]
    simp [numbered, idle, unpushed]
  rw [confirm_eq]
  refine ⟨queueing.publishing, ?_, ?_, fun _ => idle, ?_, queueing.callers, queueing.single, ?_, ?_⟩
  · change s.finished ++ [job] ++ [] ++ s.queue = s.enqueued
    rw [List.append_nil, jobs]
  · change (numbered s.account).map Envelope.event ++ [] = fanOut library (s.finished ++ [job] ++ [])
    rw [List.append_nil, List.append_nil, progress]
  · exact whole ▸ List.prefix_rfl
  · intro c confirmed
    rcases (confirm_confirmed job).1 confirmed with before | ⟨event, rfl⟩
    · obtain ⟨event, member⟩ := queueing.confirmed c before
      exact ⟨event, List.mem_append_left _ member⟩
    · exact ⟨event, List.mem_append_right _ (List.mem_singleton.2 rfl)⟩
  · intro c event found
    exact (confirm_confirmed job).2 (.inl (queueing.returned c event found))

theorem Queueing.stamp {inner : WireEvent α} {rest : List (WireEvent α)} {job : Job α ε} {now : Int} {a : State α}
    (queueing : Queueing library config s) (running : s.running = some (job, inner :: rest))
    (moved : Wamux.Events.step config s.account (.stamp inner now) = some a) :
    Queueing library config { s with account := a, running := some (job, rest) } := by
  simp only [Wamux.Events.step] at moved
  split at moved
  · rename_i idle
    cases moved
    refine queueing.account job rest ?_ (queueing.publishing.stamp idle) ?_ List.prefix_rfl
    · simp [running]
    · simp [numbered, idle, unpushed, remaining, running]
  · cases moved

theorem Queueing.still (queueing : Queueing library config s) (busy : s.account.publisher ≠ .idle) :
    ∃ job rest, s.running = some (job, rest) := by
  cases running : s.running with
  | none => exact absurd (queueing.idle running) busy
  | some pair => exact ⟨pair.1, pair.2, rfl⟩

theorem Queueing.push {a : State α} (queueing : Queueing library config s)
    (moved : Wamux.Events.step config s.account .push = some a) : Queueing library config { s with account := a } := by
  simp only [Wamux.Events.step] at moved
  split at moved
  · rename_i envelope stamped
    cases moved
    obtain ⟨job, rest, running⟩ := queueing.still (by simp [stamped])
    have after := queueing.account job rest (by simp [running]) (queueing.publishing.push stamped)
      (by simp [numbered, stamped, unpushed, remaining, running]) List.prefix_rfl
    simpa only [running] using after
  · cases moved

theorem Queueing.broadcast {a : State α} {envelope : Envelope α} (queueing : Queueing library config s)
    (pushed : s.account.publisher = .pushed envelope)
    (moved : Wamux.Events.step config s.account .broadcast = some a) :
    Queueing library config { s with account := a, broadcasts := s.broadcasts ++ [envelope] } := by
  obtain ⟨publishing, idle, passed⟩ := queueing.publishing.broadcast pushed moved
  obtain ⟨job, rest, running⟩ := queueing.still (by simp [pushed])
  have after := queueing.account job rest (by simp [running]) publishing
    (by simp [numbered, pushed, idle, passed, unpushed, remaining, running]) (List.prefix_append _ _)
  simpa only [running] using after

theorem Queueing.subscriber {a : State α} {e : Event α} (queueing : Queueing library config s)
    (its : EventPublisher.ofSubscriber e = true) (moved : Wamux.Events.step config s.account e = some a) :
    Queueing library config { s with account := a } := by
  obtain ⟨-, publisher, -, passed, -⟩ := subscriber_step its moved
  refine ⟨queueing.publishing.subscriber its moved, queueing.jobs, ?_, ?_, queueing.done, queueing.callers,
    queueing.single, queueing.confirmed, queueing.returned⟩
  · have progress := queueing.progress
    simp only [numbered, ← publisher, ← passed] at progress
    exact progress
  · intro waiting
    exact publisher.trans (queueing.idle waiting)

theorem Queueing.step {e : EventPublisher.Event α ε} (queueing : Queueing library config s)
    (moved : EventPublisher.step library config s e = some s') : Queueing library config s' := by
  cases e with
  | publishLib c event =>
      simp only [EventPublisher.step] at moved
      split at moved
      · rename_i idle
        cases moved
        have applied : Queueing library config (s.setCaller c (.applied event)) :=
          queueing.setCaller (by simp [idle]) nofun
        exact ⟨applied.1, applied.2, applied.3, applied.4, applied.5, applied.6, applied.7, applied.8, applied.9⟩
      · cases moved
  | enqueueLib c =>
      simp only [EventPublisher.step] at moved
      split at moved
      · rename_i event applied
        cases moved
        have queued : Queueing library config (s.enqueue (.lib event)) := queueing.enqueue nofun nofun
        exact queued.setCaller (by simp [EventPublisher.State.enqueue, applied]) nofun
      · cases moved
  | publishWire c event =>
      simp only [EventPublisher.step] at moved
      split at moved
      · rename_i idle
        cases moved
        have fresh (event : WireEvent α) : Job.wire event c ∉ s.enqueued := by
          intro member
          rcases queueing.callers c event member with awaiting | returned
          · simp [idle] at awaiting
          · simp [idle] at returned
        have awaiting : Queueing library config (s.setCaller c (.awaiting event)) :=
          queueing.setCaller (by simp [idle]) nofun
        apply awaiting.enqueue
        · rintro c' event' ⟨⟩
          exact Function.update_self ..
        · rintro c' ⟨⟩
          exact fresh
      · cases moved
  | returns c =>
      simp only [EventPublisher.step] at moved
      split at moved
      · rename_i event awaiting
        split at moved
        · rename_i confirmed
          cases moved
          apply queueing.setCaller
          · intro event' before
            rw [awaiting] at before
            rcases before with ⟨⟨⟩⟩ | ⟨⟨⟩⟩
            exact .inr rfl
          · exact fun _ _ => confirmed
        · cases moved
      · cases moved
  | recv =>
      simp only [EventPublisher.step] at moved
      split at moved
      · rename_i waiting queue
        cases moved
        exact queueing.recv waiting queue
      · cases moved
  | stamp now =>
      simp only [EventPublisher.step] at moved
      split at moved
      · rename_i job inner rest running
        obtain ⟨a, stepped, rfl⟩ := Option.map_eq_some_iff.1 moved
        exact queueing.stamp running stepped
      · cases moved
  | push =>
      obtain ⟨a, stepped, rfl⟩ := Option.map_eq_some_iff.1 moved
      exact queueing.push stepped
  | broadcast =>
      simp only [EventPublisher.step] at moved
      split at moved
      · rename_i envelope pushed
        obtain ⟨a, stepped, rfl⟩ := Option.map_eq_some_iff.1 moved
        exact queueing.broadcast pushed stepped
      · cases moved
  | finish =>
      simp only [EventPublisher.step] at moved
      split at moved
      · rename_i job running idle
        cases moved
        exact queueing.finish running idle
      · cases moved
  | subscriber e =>
      simp only [EventPublisher.step] at moved
      split at moved
      · rename_i its
        obtain ⟨a, stepped, rfl⟩ := Option.map_eq_some_iff.1 moved
        exact queueing.subscriber its stepped
      · cases moved

theorem Queueing.initial : Queueing library config (EventPublisher.machine library config).initial := by
  refine ⟨⟨rfl, rfl, ?_, rfl, rfl, List.nil_subset _⟩, rfl, rfl, fun _ => rfl, List.nil_prefix, nofun, List.nodup_nil,
    nofun, nofun⟩
  simp [EventPublisher.machine, machine, pushes]

theorem queueing_of_reaches {allowed : EventPublisher.State α ε → EventPublisher.Event α ε → Prop}
    (reaches : (EventPublisher.machine library config).Reaches allowed s) : Queueing library config s := by
  apply reaches.invariant (Queueing library config)
  · exact .initial
  · exact fun s e s' queueing _ moved => queueing.step moved

/-! ## The order -/

theorem counting_prefix {front back : List (Envelope α)}
    (seqs : (front ++ back).map Envelope.monotonicSeq = counting (front ++ back).length) :
    front.map Envelope.monotonicSeq = counting front.length := by
  have cut := congrArg (List.take front.length) seqs
  rw [List.map_append, List.take_left' (List.length_map _)] at cut
  rw [cut, counting, counting, ← List.map_take, List.take_range, List.length_append]
  congr 2
  omega

theorem before_of_counting {envelopes : List (Envelope α)}
    (seqs : envelopes.map Envelope.monotonicSeq = counting envelopes.length) : envelopes.Pairwise Before := by
  have ordered : (counting envelopes.length).Pairwise (· < ·) := by
    unfold counting
    rw [List.pairwise_map]
    exact List.pairwise_lt_range.imp fun less => Int.ofNat_lt.2 less
  rw [← seqs, List.pairwise_map] at ordered
  exact ordered

structure TotalOrder (library : EventPublisher.Library α ε) (config : Config α) (s : EventPublisher.State α ε) :
    Prop where
  seqs : s.broadcasts.map Envelope.monotonicSeq = (List.range s.broadcasts.length).map Int.ofNat
  order : s.broadcasts.map Envelope.event <+: fanOut library s.enqueued
  ring : s.account.ring.inner = (pushes config s.account).rtake config.ringCapacity
  length : s.account.ring.inner.length = min config.ringCapacity (pushes config s.account).length
  increasing : (s.account.ring.inner.map Envelope.monotonicSeq).Pairwise (· < ·)
  ringFirst : 0 < config.ringCapacity → ∀ e, s.account.publisher = .pushed e → replayable config e = true →
    e ∈ s.account.ring.inner
  received : ∀ e ∈ s.account.rx.queue, e ∈ s.broadcasts ∧ (replayable config e = true → e ∈ pushes config s.account)
  /-- A `publish_wire` that returned has its own envelope broadcast, after those of every job ahead. -/
  returned : ∀ c event, s.callers c = .returned event → ∃ ahead behind envelope,
    s.enqueued = ahead ++ .wire event c :: behind ∧
    (∀ job ∈ ahead ++ behind, job.caller ≠ some c) ∧
    fanOut library ahead <+: s.broadcasts.map Envelope.event ∧
    s.broadcasts[(fanOut library ahead).length]? = some envelope ∧ envelope.event = event ∧
    (replayable config envelope = true → envelope ∈ pushes config s.account)

theorem Queueing.pushed (queueing : Queueing library config s) {e : Envelope α}
    (member : e ∈ s.broadcasts ∨ s.account.publisher = .pushed e) (replays : replayable config e = true) :
    e ∈ pushes config s.account := by
  refine List.mem_filter.2 ⟨?_, replays⟩
  rw [← queueing.publishing.sent]
  rcases member with sent | pushed
  · exact List.mem_append_left _ sent
  · exact List.mem_append_right _ (by simp [pushed, pastRing])

theorem Queueing.returns (queueing : Queueing library config s) {c : EventPublisher.CallerId} {event : WireEvent α}
    (returned : s.callers c = .returned event) : ∃ ahead behind envelope,
      s.enqueued = ahead ++ .wire event c :: behind ∧ (∀ job ∈ ahead ++ behind, job.caller ≠ some c) ∧
      fanOut library ahead <+: s.broadcasts.map Envelope.event ∧
      s.broadcasts[(fanOut library ahead).length]? = some envelope ∧ envelope.event = event ∧
      (replayable config envelope = true → envelope ∈ pushes config s.account) := by
  obtain ⟨event', member⟩ := queueing.confirmed c (queueing.returned c event returned)
  have enqueued : s.finished ++ (runningJob s ++ s.queue) = s.enqueued := by
    rw [← List.append_assoc]
    exact queueing.jobs
  have same : event' = event := by
    have known := queueing.callers c event' (enqueued ▸ List.mem_append_left _ member)
    simp only [returned, reduceCtorEq, EventPublisher.Caller.returned.injEq, false_or] at known
    exact known.symm
  subst same
  obtain ⟨ahead, later, finished⟩ := List.append_of_mem member
  have whole : s.enqueued = ahead ++ .wire event' c :: (later ++ (runningJob s ++ s.queue)) := by
    rw [← enqueued, finished]
    simp
  have published := queueing.done
  rw [finished, fanOut_append] at published
  have ours : fanOut library ahead <+: s.broadcasts.map Envelope.event := (List.prefix_append _ _).trans published
  have at_ : (s.broadcasts.map Envelope.event)[(fanOut library ahead).length]? = some event' := by
    obtain ⟨rest, split⟩ := published
    rw [← split]
    simp [fanOut, Job.publishes]
  rw [List.getElem?_map, Option.map_eq_some_iff] at at_
  obtain ⟨envelope, found, its⟩ := at_
  refine ⟨ahead, _, envelope, whole, ?_, ours, found, its, ?_⟩
  · have single := queueing.single
    have mine : Job.caller (.wire event' c : Job α ε) = some c := rfl
    rw [whole, List.filterMap_append, List.filterMap_cons_some mine, List.nodup_middle, List.nodup_cons,
      ← List.filterMap_append] at single
    intro job member caller
    exact single.1 (List.mem_filterMap.2 ⟨job, member, caller⟩)
  · exact queueing.pushed (.inl (List.mem_of_getElem? found))

/-- The numbers fit the `i64` they are, as long as no more than `2 ^ 63` were given out. -/
theorem broadcasts_exact (reaches : (EventPublisher.machine library config).Reaches Free s)
    (few : s.account.seq ≤ Int64.maxValue.toInt + 1) :
    ∀ e ∈ s.broadcasts, (Int64.ofInt e.monotonicSeq).toInt = e.monotonicSeq := by
  have publishing := (queueing_of_reaches reaches).publishing
  intro e member
  have numbered : e.monotonicSeq ∈ counting (numbered s.account).length := by
    rw [← publishing.seqs]
    refine List.mem_map_of_mem ?_
    rw [Events.numbered, ← publishing.sent]
    exact List.mem_append_left _ (List.mem_append_left _ member)
  obtain ⟨n, below, same⟩ := List.mem_map.1 numbered
  have counted := publishing.seq
  have low := List.mem_range.1 below
  rw [← same, Int.ofNat_eq_natCast]
  rw [Int64.toInt_maxValue] at few
  exact Int64.toInt_ofInt_of_le (by omega) (by omega)

theorem total_order (reaches : (EventPublisher.machine library config).Reaches Free s) : TotalOrder library config s := by
  have queueing := queueing_of_reaches reaches
  have publishing := queueing.publishing
  have seqs := counting_prefix publishing.seqs
  have numbers : s.broadcasts.map Envelope.monotonicSeq = counting s.broadcasts.length := by
    rw [← publishing.sent] at seqs
    exact counting_prefix seqs
  refine ⟨numbers, ?_, publishing.ring, ?_, ?_, ?_, ?_, fun c event returned => queueing.returns returned⟩
  · have jobs := queueing.jobs
    rw [← jobs, fanOut_append, ← queueing.progress, numbered, ← publishing.sent]
    simp only [List.map_append, List.append_assoc]
    exact List.prefix_append _ _
  · rw [publishing.ring]
    simp only [List.rtake, List.length_drop]
    omega
  · rw [publishing.ring, List.pairwise_map]
    exact rtake_pairwise _ _ ((before_of_counting seqs).filter _)
  · intro positive e pushed replays
    have sent := publishing.sent
    simp only [pushed, pastRing] at sent
    rw [publishing.ring, pushes, ← sent, List.filter_append]
    apply subset_rtake
    · simp [replays]
      omega
    · simp [replays]
  · intro e member
    have sent := publishing.received member
    exact ⟨sent, queueing.pushed (.inl sent)⟩

end Queue

/-! ## A run -/

def inPairs : EventPublisher.Library Bool Unit := ⟨fun _ => [.mapped false, .mapped true], fun _ => .other⟩

/-- `publish_lib` applies its state first and enqueues second, behind a `publish_wire`. -/
def overtaken : List (EventPublisher.Event Bool Unit) :=
  [.publishLib 0 (), .publishWire 1 (.mapped false), .enqueueLib 0, .recv, .stamp 5, .push, .broadcast, .finish,
    .returns 1, .recv, .stamp 6, .push, .broadcast, .stamp 6, .push]

theorem total_order_overtaken : ∃ s, (EventPublisher.machine inPairs smallRing).Reaches Free s ∧
    s.callers 1 = .returned (.mapped false) ∧ s.broadcasts.length = 2 ∧ TotalOrder inPairs smallRing s := by
  obtain ⟨s, reaches, passes⟩ := reaches_of_replay (m := EventPublisher.machine inPairs smallRing) free_sound
    (fun s => s.callers 1 = .returned (.mapped false) && s.broadcasts.length = 2) overtaken (by decide)
  simp only [Bool.and_eq_true, decide_eq_true_eq] at passes
  exact ⟨s, reaches, passes.1, passes.2, total_order reaches⟩

end Wamux.Proof.Events
