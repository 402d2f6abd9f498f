import Wamux.Accounts.Handle

namespace Wamux.Proof.Accounts
open Wamux.Accounts Wamux.Runs

inductive ConnectReads (max : Nat) (s : State) (k : ConnId) : Event → Connect → Prop where
  | called (phase : s.connects k = .idle) : ConnectReads max s k (.connect k) .isRunning
  | alreadyRunning {total} (phase : s.connects k = .isRunning) (running : s.running.isSome) :
      ConnectReads max s k (.advance k total) (.returned (.ok ()))
  | notRunning {total} (phase : s.connects k = .isRunning) (idle : s.running = none) :
      ConnectReads max s k (.advance k total) .budget
  | within {total} (phase : s.connects k = .budget) : ConnectReads max s k (.advance k total) .before
  | exhausted {total} (phase : s.connects k = .budget) :
      ConnectReads max s k (.advance k total) (.returned (.error (.resourceExhausted (budgetMessage max))))
  | built {before} (phase : s.connects k = .build before) : ConnectReads max s k (.built k) .setClient

inductive SupervisorReads (s : State) (k : ConnId) : Event → Supervisor → Prop where
  | polled (phase : s.supervisors k = .parked) : SupervisorReads s k (.poll k) .polled
  | pending (phase : s.supervisors k = .polled) (alive : s.loops k = .alive)
      (unaborted : s.aborted k = false) : SupervisorReads s k (.pend k) .parked
  | woken (phase : s.supervisors k = .polled) (exited : s.loops k = .exited) :
      SupervisorReads s k (.supervise k) .take
  | terminal (phase : s.supervisors k = .isTerminal) (terminal : isTerminal s.state = true) :
      SupervisorReads s k (.supervise k) .fetchSub
  | notTerminal (phase : s.supervisors k = .isTerminal) (unsettled : isTerminal s.state ≠ true) :
      SupervisorReads s k (.supervise k) .send

inductive StopReads (s : State) (q : StopId) : Event → Stop → Prop where
  | called (phase : s.stops q = .idle) : StopReads s q (.stop q) .client
  | logout (phase : s.stops q = .idle) : StopReads s q (.logout q) .logoutClient
  | noClient {connected} (phase : s.stops q = .logoutClient) :
      StopReads s q (.stopNext q connected) (.returned (.error .notConnected))
  | hasClient {connected client} (phase : s.stops q = .logoutClient) :
      StopReads s q (.stopNext q connected) (.logoutSocket client)
  | socketUp {connected client} (phase : s.stops q = .logoutSocket client) :
      StopReads s q (.stopNext q connected) (.logoutDeregister client)
  | socketDown {connected client} (phase : s.stops q = .logoutSocket client) :
      StopReads s q (.stopNext q connected) (.returned (.error .notConnected))
  | deregistered {connected client} (phase : s.stops q = .logoutDeregister client) :
      StopReads s q (.stopNext q connected) .client
  | client {connected} (phase : s.stops q = .client) :
      StopReads s q (.stopNext q connected) (.take s.client)
  | tookNone {connected client} (phase : s.stops q = .shutdown client none) :
      StopReads s q (.stopNext q connected) (.clearClient none)
  | tookSome {connected client took} (phase : s.stops q = .shutdown client (some took)) :
      StopReads s q (.stopNext q connected) (.timeout took)
  | joined {connected took} (phase : s.stops q = .timeout took) :
      StopReads s q (.stopNext q connected) (.clearClient (some took))
  | timedOut {took} (phase : s.stops q = .timeout took) :
      StopReads s q (.timeout q) (.clearClient (some took))
  | terminal {connected took} (phase : s.stops q = .isTerminal took) (terminal : isTerminal s.state = true) :
      StopReads s q (.stopNext q connected) (.returned (.ok ()))
  | notTerminal {connected took} (phase : s.stops q = .isTerminal took) (unsettled : isTerminal s.state ≠ true) :
      StopReads s q (.stopNext q connected) (.send took)

inductive Move (max : Nat) (s : State) : Event → State → Prop where
  | connect {e k phase} (how : ConnectReads max s k e phase) : Move max s e (s.setConnect k phase)
  | found {k total} (phase : s.connects k = .before) : Move max s (.advance k total)
      ({ s with found := Function.update s.found k s.state }.setConnect k (.announce s.state))
  | announced {k total before} (phase : s.connects k = .announce before) :
      Move max s (.advance k total) ((s.send .connecting).setConnect k (.build before))
  | buildFailed {k before} (phase : s.connects k = .build before) : Move max s (.buildFailed k)
      ((s.send before).setConnect k (.returned (.error .client)))
  | clientSet {k total} (phase : s.connects k = .setClient) :
      Move max s (.advance k total) ((s.establish k).setConnect k .spawn)
  | spawned {k total} (phase : s.connects k = .spawn) :
      Move max s (.advance k total) ((s.setLoop k .alive).setConnect k .fetchAdd)
  | counted {k total} (phase : s.connects k = .fetchAdd) : Move max s (.advance k total)
      ({ s with connected := s.connected + 1 }.setConnect k .supervise)
  | supervised {k total} (phase : s.connects k = .supervise) :
      Move max s (.advance k total) ((s.setSupervisor k .parked).setConnect k .setRunning)
  | established {k} (phase : s.connects k = .setRunning) (empty : s.running = none) :
      Move max s (.setRunning k) ({ s with running := some k }.setConnect k (.returned (.ok ())))
  | replaced {k previous} (phase : s.connects k = .setRunning) (running : s.running = some previous) :
      Move max s (.setRunning k) (({ s with running := some k }.setConnect k (.returned (.ok ()))).abort previous)
  | recorded {k event} (may : mayRecord s k event = true) :
      Move max s (.record k event) (s.record k event)
  | exited {k} (alive : s.loops k = .alive) : Move max s (.exit k) (s.setLoop k .exited)
  | supervisor {e k phase} (how : SupervisorReads s k e phase) : Move max s e (s.setSupervisor k phase)
  | took {k} (phase : s.supervisors k = .take) :
      Move max s (.supervise k) ({ s with running := none }.setSupervisor k .clearClient)
  | cleared {k} (phase : s.supervisors k = .clearClient) :
      Move max s (.supervise k) ({ s with client := none }.setSupervisor k .isTerminal)
  | sent {k} (phase : s.supervisors k = .send) :
      Move max s (.supervise k) ((s.send .disconnected).setSupervisor k .fetchSub)
  | released {k} (phase : s.supervisors k = .fetchSub) : Move max s (.supervise k)
      ({ s with connected := s.connected - 1 }.setSupervisor k .done)
  | cancelled {k} (aborted : s.aborted k = true)
      (phase : s.supervisors k = .polled ∨ s.supervisors k = .take ∨ s.supervisors k = .clearClient) :
      Move max s (.cancel k) (s.setSupervisor k .cancelled)
  | stop {e q phase} (how : StopReads s q e phase) : Move max s e (s.setStop q phase)
  | stopTook {q connected client} (phase : s.stops q = .take client) : Move max s (.stopNext q connected)
      ({ s with running := none,
                stopped := fun k => s.stopped k || s.running == some k }.setStop q (.shutdown client s.running))
  | stopCleared {q connected took} (phase : s.stops q = .clearClient took) :
      Move max s (.stopNext q connected) ({ s with client := none }.setStop q (.isTerminal took))
  | stopSent {q connected took} (phase : s.stops q = .send took) :
      Move max s (.stopNext q connected) ((s.send .disconnected).setStop q (.returned (.ok ())))

variable {max : Nat} {s s' : State}

theorem advance_move {k : ConnId} {total : Nat} (moved : advance max s k total = some s') :
    Move max s (.advance k total) s' := by
  unfold advance at moved
  split at moved
  · cases moved
    split
    · exact .connect (.alreadyRunning ‹_› ‹_›)
    · exact .connect (.notRunning ‹_› (Option.not_isSome_iff_eq_none.1 ‹_›))
  · cases moved
    split
    · exact .connect (.within ‹_›)
    · exact .connect (.exhausted ‹_›)
  · cases moved
    exact .found ‹_›
  · cases moved
    exact .announced ‹_›
  · cases moved
    exact .clientSet ‹_›
  · cases moved
    exact .spawned ‹_›
  · cases moved
    exact .counted ‹_›
  · cases moved
    exact .supervised ‹_›
  all_goals cases moved

theorem setRunning_move {k : ConnId} (moved : setRunning s k = some s') :
    Move max s (.setRunning k) s' := by
  unfold setRunning at moved
  split at moved
  · dsimp only at moved
    split at moved
    · cases moved
      exact .established ‹_› ‹_›
    · cases moved
      exact .replaced ‹_› ‹_›
  · cases moved

theorem supervise_move {k : ConnId} (moved : supervise s k = some s') : Move max s (.supervise k) s' := by
  unfold supervise at moved
  split at moved
  · split at moved
    · cases moved
      exact .supervisor (.woken ‹_› ‹_›)
    · cases moved
  · cases moved
    exact .took ‹_›
  · cases moved
    exact .cleared ‹_›
  · cases moved
    split
    · exact .supervisor (.terminal ‹_› ‹_›)
    · exact .supervisor (.notTerminal ‹_› ‹_›)
  · cases moved
    exact .sent ‹_›
  · cases moved
    exact .released ‹_›
  all_goals cases moved

theorem cancel_move {k : ConnId} (moved : cancel s k = some s') : Move max s (.cancel k) s' := by
  unfold cancel at moved
  split at moved
  · cases moved
    exact .cancelled ‹_› (.inl ‹_›)
  · cases moved
    exact .cancelled ‹_› (.inr (.inl ‹_›))
  · cases moved
    exact .cancelled ‹_› (.inr (.inr ‹_›))
  · cases moved

theorem stopNext_move {q : StopId} {connected : Bool} (moved : stopNext s q connected = some s') :
    Move max s (.stopNext q connected) s' := by
  unfold stopNext at moved
  split at moved
  · cases moved
    split
    · exact .stop (.noClient ‹_›)
    · exact .stop (.hasClient ‹_›)
  · cases moved
    split
    · exact .stop (.socketUp ‹_›)
    · exact .stop (.socketDown ‹_›)
  · cases moved
    exact .stop (.deregistered ‹_›)
  · cases moved
    exact .stop (.client ‹_›)
  · cases moved
    exact .stopTook ‹_›
  · cases moved
    split
    · exact .stop (.tookNone ‹_›)
    · exact .stop (.tookSome ‹_›)
  · split at moved
    · cases moved
      exact .stop (.joined ‹_›)
    · cases moved
      exact .stop (.joined ‹_›)
    · cases moved
  · cases moved
    exact .stopCleared ‹_›
  · cases moved
    split
    · exact .stop (.terminal ‹_› ‹_›)
    · exact .stop (.notTerminal ‹_› ‹_›)
  · cases moved
    exact .stopSent ‹_›
  all_goals cases moved

theorem step_move {e : Event} (moved : step max s e = some s') : Move max s e s' := by
  cases e with
  | connect k =>
      simp only [step] at moved
      split at moved
      · cases moved
        exact .connect (.called ‹_›)
      · cases moved
  | advance k total => exact advance_move moved
  | built k =>
      simp only [step] at moved
      split at moved
      · cases moved
        exact .connect (.built ‹_›)
      · cases moved
  | buildFailed k =>
      simp only [step] at moved
      split at moved
      · cases moved
        exact .buildFailed ‹_›
      · cases moved
  | setRunning k => exact setRunning_move moved
  | record k event =>
      simp only [step] at moved
      split at moved
      · cases moved
        exact .recorded ‹_›
      · cases moved
  | exit k =>
      simp only [step, exit] at moved
      split at moved
      · cases moved
        exact .exited ‹_›
      · cases moved
  | poll k =>
      simp only [step] at moved
      split at moved
      · cases moved
        exact .supervisor (.polled ‹_›)
      · cases moved
  | pend k =>
      simp only [step] at moved
      split at moved
      · rename_i waits
        simp only [Bool.and_eq_true, decide_eq_true_eq, Bool.not_eq_true'] at waits
        cases moved
        exact .supervisor (.pending waits.1.1 waits.1.2 waits.2)
      · cases moved
  | supervise k => exact supervise_move moved
  | cancel k => exact cancel_move moved
  | stop q =>
      simp only [step] at moved
      split at moved
      · cases moved
        exact .stop (.called ‹_›)
      · cases moved
  | logout q =>
      simp only [step] at moved
      split at moved
      · cases moved
        exact .stop (.logout ‹_›)
      · cases moved
  | stopNext q connected => exact stopNext_move moved
  | timeout q =>
      simp only [step] at moved
      split at moved
      · cases moved
        exact .stop (.timedOut ‹_›)
      · cases moved

end Wamux.Proof.Accounts
