import Wamux.Proof.UdsListener.Calls

namespace Wamux.Proof.UdsListener
open Wamux.UdsListener
open Runs Runs.Promises

variable {daemon : DaemonId → Daemon} {groups : String → Option Gid} {w w' : World} {d : DaemonId} {path : String}
variable {own : Option Socket → Prop} {dir : Option (Option DaemonId) → Prop}

abbrev Keeps {α : Type} (daemon : DaemonId → Daemon) (groups : String → Option Gid) (d : DaemonId) (post : α → World → Prop)
    (code : Code α) (w : World) : Prop :=
  (promises daemon groups).Keeps (perform daemon groups) d post code w

theorem stable_true : (promises daemon groups).Stable d fun _ => True := fun _ _ _ _ => trivial

theorem keeps_end {α : Type} {post : α → World → Prop} {value : α} (enough : ∀ w, post value w) :
    Keeps daemon groups d post (pure value) w :=
  keeps_return trivial stable_true fun w' _ _ => enough w'

abbrev Ready (daemon : DaemonId → Daemon) (d : DaemonId) (own : Option Socket → Prop) (dir : Option (Option DaemonId) → Prop)
    (w : World) : Prop :=
  At daemon d own dir w ∧ Looked d w

theorem stable_ready : (promises daemon groups).Stable d (Ready daemon d own dir) :=
  (stable_at own dir).and stable_looked

theorem keeps_probe (here : At daemon d own dir w) :
    Keeps daemon groups d (fun result w => At daemon d own dir w ∧ ∀ probed, result = .ok probed → Looked d w) (probe path) w := by
  refine keeps_ask here (stable_at own dir) ?_
  intro w inv here outcome answer w' performed
  obtain ⟨kept, here, absent, socket⟩ := call_symlinkMetadata inv here performed
  refine ⟨kept, fun inv => ?_⟩
  split
  · exact keeps_return ⟨here, absent rfl⟩ stable_ready fun _ _ ready => ⟨ready.1, fun _ _ => ready.2⟩
  · exact keeps_return here (stable_at own dir) fun _ _ here => ⟨here, by rintro _ ⟨⟩⟩
  · exact keeps_return here (stable_at own dir) fun _ _ here => ⟨here, by rintro _ ⟨⟩⟩
  · refine keeps_ask ⟨here, socket rfl⟩ ((stable_at own dir).and stable_sighted) ?_
    intro w inv ⟨here, sighted⟩ outcome answer w' performed
    obtain ⟨kept, here, refused⟩ := call_connect inv here sighted performed
    refine ⟨kept, fun _ => ?_⟩
    split
    · exact keeps_return here (stable_at own dir) fun _ _ here => ⟨here, by rintro _ ⟨⟩⟩
    · exact keeps_return ⟨here, refused rfl⟩ stable_ready fun _ _ ready => ⟨ready.1, fun _ _ => ready.2⟩
    · exact keeps_return here (stable_at own dir) fun _ _ here => ⟨here, by rintro _ ⟨⟩⟩

theorem keeps_refuseIfServed (inv : Inv daemon groups w) (here : At daemon d own dir w) :
    Keeps daemon groups d (fun result w => result = .ok () → Ready daemon d own dir w) (refuseIfServed path) w := by
  refine Keeps.bind inv ((keeps_probe here).weaken ?_)
  rintro result w - ⟨here, looked⟩
  cases result with
  | error e => exact keeps_end fun _ => by rintro ⟨⟩
  | ok probed => exact keeps_return ⟨here, looked probed rfl⟩ stable_ready fun _ _ ready _ => ready

theorem keeps_resolveGroup {name : String} (ready : Ready daemon d own dir w) :
    Keeps daemon groups d (fun result w => Ready daemon d own dir w ∧ ∀ gid, result = .ok gid → resolves groups name = some gid)
      (resolveGroup name) w := by
  rw [resolveGroup]
  split
  · rename_i number parsed
    refine keeps_return ready stable_ready fun _ _ ready => ⟨ready, ?_⟩
    rintro gid ⟨⟩
    rw [resolves, parsed]
    rfl
  · rename_i unparsed
    refine keeps_ask ready stable_ready ?_
    intro w inv ready outcome answer w' performed
    obtain ⟨rfl, answers⟩ := call_lookUpGroup performed
    refine ⟨kept_same _ inv ready.1.1, fun _ => ?_⟩
    split
    · rename_i found
      refine keeps_return ready stable_ready fun _ _ ready => ⟨ready, ?_⟩
      rintro gid ⟨⟩
      rw [resolves, unparsed, ← answers _ rfl]
      rfl
    · exact keeps_return ready stable_ready fun _ _ ready => ⟨ready, by rintro _ ⟨⟩⟩
    · exact keeps_return ready stable_ready fun _ _ ready => ⟨ready, by rintro _ ⟨⟩⟩

/-- The group to give the socket to is the one the daemon was started with. -/
def Chosen (groups : String → Option Gid) (socketGroup : Option String) : Option (String × Gid) → Prop
  | none => socketGroup = none
  | some (name, gid) => socketGroup = some name ∧ resolves groups name = some gid

theorem keeps_resolved {socketGroup : Option String} (inv : Inv daemon groups w) (ready : Ready daemon d own dir w) :
    Keeps daemon groups d
      (fun result w => Ready daemon d own dir w ∧ ∀ group, result = .ok group → Chosen groups socketGroup group)
      (resolved socketGroup) w := by
  cases socketGroup with
  | none =>
      refine keeps_return ready stable_ready fun _ _ ready => ⟨ready, ?_⟩
      rintro group ⟨⟩
      rfl
  | some name =>
      refine Keeps.bind inv ((keeps_resolveGroup ready).weaken ?_)
      rintro result w - ⟨ready, found⟩
      refine keeps_return ready stable_ready fun _ _ ready => ⟨ready, ?_⟩
      intro group resolved
      cases result with
      | error e => cases resolved
      | ok gid =>
          cases resolved
          exact ⟨rfl, found gid rfl⟩

theorem keeps_removeStale {probed : Probed} (ready : Ready daemon d own dir w) (quiet : Quiet own) :
    Keeps daemon groups d (fun _ => Ready daemon d own dir) (removeStale path probed) w := by
  cases probed with
  | absent => exact keeps_return ready stable_ready fun _ _ ready => ready
  | stale =>
      refine keeps_ask ready stable_ready ?_
      intro w inv ready outcome answer w' performed
      obtain ⟨kept, ready⟩ := call_removeFile inv ready.1 quiet ready.2 performed
      exact ⟨kept, fun _ => keeps_return ready stable_ready fun _ _ ready => ready⟩

abbrev Staged (daemon : DaemonId → Daemon) (d : DaemonId) : World → Prop := At daemon d (fun _ => True) (IsStaged d)

theorem keeps_giveToGroup {gid : Gid} {name : String}
    (ready : Ready daemon d (fun own => ∃ socket, own = some socket ∧ socket.group = none) (IsStaged d) w) :
    Keeps daemon groups d (fun result w => Staged daemon d w ∧ (result = .ok () →
        Ready daemon d (fun own => ∃ socket, own = some socket ∧ socket.group = chowned gid none) (IsStaged d) w))
      (giveToGroup path gid name) w := by
  refine keeps_ask ready stable_ready ?_
  intro w inv ready outcome answer w' performed
  obtain ⟨kept, staged, given⟩ := call_chown inv ready.1 ready.2 performed
  refine ⟨kept, fun _ => ?_⟩
  split
  · exact keeps_return ⟨staged, given rfl⟩ ((stable_at _ _).and stable_ready) fun _ _ both => ⟨both.1, fun _ => both.2⟩
  · exact keeps_return staged (stable_at _ _) fun _ _ staged => ⟨staged, by rintro ⟨⟩⟩
  · exact keeps_return staged (stable_at _ _) fun _ _ staged => ⟨staged, by rintro ⟨⟩⟩

theorem keeps_given {group : Option (String × Gid)} (chosen : Chosen groups (daemon d).socketGroup group)
    (ready : Ready daemon d (fun own => ∃ socket, own = some socket ∧ socket.group = none) (IsStaged d) w) :
    Keeps daemon groups d (fun result w => Staged daemon d w ∧ (result = .ok () →
        ∃ gid, HasGroup groups gid (daemon d).socketGroup ∧
          Ready daemon d (fun own => ∃ socket, own = some socket ∧ socket.group = gid) (IsStaged d) w))
      (match group with
        | some (name, gid) => giveToGroup path gid name
        | none => return .ok ()) w := by
  match group with
  | some (name, gid) =>
      refine (keeps_giveToGroup ready).weaken ?_
      intro result w _ ⟨staged, given⟩
      refine ⟨staged, fun ok => ⟨chowned gid none, ?_, given ok⟩⟩
      rw [chosen.1]
      exact ⟨gid, chosen.2, rfl⟩
  | none =>
      refine keeps_return ready stable_ready fun _ _ ready => ⟨ready.1.weaken (fun _ _ => trivial) fun _ => id, fun _ => ?_⟩
      refine ⟨none, ?_, ready⟩
      have unset : (daemon d).socketGroup = none := chosen
      rw [unset]
      rfl

theorem keeps_finish {group : Option (String × Gid)} (inv : Inv daemon groups w)
    (chosen : Chosen groups (daemon d).socketGroup group)
    (ready : Ready daemon d (fun own => ∃ socket, own = some socket ∧ socket.group = none) (IsStaged d) w) :
    Keeps daemon groups d (fun result w => match result with
        | .ok _ => Ready daemon d (fun _ => True) (fun _ => True) w
        | .error _ => Staged daemon d w)
      (finish path (daemon d).socketMode group) w := by
  refine Keeps.bind inv ((keeps_given chosen ready).weaken ?_)
  intro result w inv ⟨staged, given⟩
  cases result with
  | error e => exact keeps_return staged (stable_at _ _) fun _ _ staged => staged
  | ok _ =>
      obtain ⟨gid, hasGroup, ready⟩ := given rfl
      refine keeps_ask ready stable_ready ?_
      intro w inv ready outcome answer w' performed
      obtain ⟨kept, staged, final⟩ := call_chmod inv ready.1 ready.2 performed
      refine ⟨kept, fun _ => ?_⟩
      cases answer with
      | error e => exact keeps_return staged (stable_at _ _) fun _ _ staged => staged
      | ok _ =>
          refine keeps_ask (final rfl) stable_ready ?_
          intro w inv ready outcome answer w' performed
          have final : At daemon d (fun own => ∃ socket, own = some socket ∧ Final daemon groups d socket) (IsStaged d) w := by
            refine ready.1.weaken ?_ fun _ => id
            rintro _ ⟨socket, rfl, mode, rfl⟩
            exact ⟨socket, rfl, mode, hasGroup⟩
          obtain ⟨kept, shown, refused⟩ := call_rename inv final ready.2 performed
          refine ⟨kept, fun _ => ?_⟩
          cases answer with
          | error e => exact keeps_return (refused e rfl) (stable_at _ _) fun _ _ staged => staged
          | ok _ => exact keeps_return (shown rfl) stable_ready fun _ _ ready => ready

abbrev Present (daemon : DaemonId → Daemon) (d : DaemonId) : World → Prop := At daemon d (fun _ => True) (fun _ => True)

theorem present (live : d ∈ w.live) : Present daemon d w := ⟨live, trivial, trivial⟩

theorem keeps_failed {α : Type} {e : BindError} {known : World → Prop} (here : Present daemon d w) :
    Keeps daemon groups d (fun (result : Except BindError α) w => Present daemon d w ∧ ((∃ value, result = .ok value) → known w))
      (pure (.error e)) w :=
  keeps_return here (stable_at _ _) fun _ _ here => ⟨here, by rintro ⟨_, ⟨⟩⟩⟩

theorem keeps_bindInStaging {group : Option (String × Gid)} (chosen : Chosen groups (daemon d).socketGroup group)
    (ready : Ready daemon d (· = none) (fun _ => True) w) :
    Keeps daemon groups d (fun result w => Present daemon d w ∧ ((∃ value, result = .ok value) → Looked d w))
      (bindInStaging path (daemon d).socketMode group) w := by
  refine keeps_ask ready stable_ready ?_
  intro w inv ready outcome answer w' performed
  obtain ⟨kept, cleared, looks⟩ := call_removeStaging inv ready.1 performed
  refine ⟨kept, fun _ => keeps_ask ⟨cleared, looks ready.2⟩ stable_ready ?_⟩
  intro w inv ready outcome answer w' performed
  obtain ⟨kept, created⟩ := call_createStaging inv ready.1 ready.2 performed
  refine ⟨kept, fun _ => ?_⟩
  cases answer with
  | error e => exact keeps_failed (present (kept.2.alive _ rfl).2)
  | ok _ =>
      refine keeps_ask (created rfl) stable_ready ?_
      intro w inv ready outcome answer w' performed
      obtain ⟨kept, bound⟩ := call_bindStaged inv ready.1 ready.2 performed
      refine ⟨kept, fun inv => ?_⟩
      cases answer with
      | error e => exact keeps_failed (present (kept.2.alive _ rfl).2)
      | ok _ =>
          refine Keeps.bind inv ((keeps_finish inv chosen (bound rfl)).weaken ?_)
          intro result w inv finished
          cases result with
          | ok _ => exact keeps_return finished stable_ready fun _ _ ready => ⟨ready.1, fun _ => ready.2⟩
          | error e =>
              refine keeps_ask finished (stable_at _ _) ?_
              intro w inv staged outcome answer w' performed
              cases outcome with
              | done =>
                  cases performed
                  obtain ⟨kept, -, -⟩ := kept_close .closeListener inv staged.1 (.inr fun serving => staged.fresh inv serving.1)
                  exact ⟨kept, fun _ => keeps_failed (present (kept.2.alive _ rfl).2)⟩
              | failed e => cases performed
              | partly e => cases performed

theorem keeps_bind (inv : Inv daemon groups w) (ready : Ready daemon d (· = none) (fun _ => True) w) :
    Keeps daemon groups d (fun result w => result = .ok () → Ready daemon d (fun _ => True) (fun _ => True) w)
      (bind path (daemon d).socketMode (daemon d).socketGroup) w := by
  have quiet : Quiet (· = none) := by
    rintro _ rfl
    rfl
  refine Keeps.bind inv ((keeps_resolved inv ready).weaken ?_)
  intro result w inv ⟨ready, chosen⟩
  cases result with
  | error e => exact keeps_end fun _ => by rintro ⟨⟩
  | ok group =>
      refine Keeps.bind inv ((keeps_probe ready.1).weaken ?_)
      intro result w inv ⟨here, looked⟩
      cases result with
      | error e => exact keeps_end fun _ => by rintro ⟨⟩
      | ok probed =>
          refine Keeps.bind inv ((keeps_removeStale ⟨here, looked probed rfl⟩ quiet).weaken ?_)
          intro result w inv ready
          cases result with
          | error e => exact keeps_end fun _ => by rintro ⟨⟩
          | ok _ =>
              refine keeps_ask ready stable_ready ?_
              intro w inv ready outcome answer w' performed
              obtain rfl := call_createParent performed
              refine ⟨kept_same _ inv ready.1.1, fun inv => ?_⟩
              cases answer with
              | error e => exact keeps_end fun _ => by rintro ⟨⟩
              | ok _ =>
                  refine Keeps.bind inv ((keeps_bindInStaging (chosen group rfl) ready).weaken ?_)
                  intro result w inv ⟨here, looked⟩
                  have stable : (promises daemon groups).Stable d fun w =>
                      Present daemon d w ∧ ((∃ value, result = .ok value) → Looked d w) := by
                    intro w w' other both
                    exact ⟨stable_at _ _ w w' other both.1, fun ok => stable_looked w w' other (both.2 ok)⟩
                  refine keeps_ask ⟨here, looked⟩ stable ?_
                  intro w inv ⟨here, looked⟩ outcome answer w' performed
                  obtain ⟨kept, here, looks⟩ := call_removeStaging inv here performed
                  refine ⟨kept, fun _ => ?_⟩
                  refine keeps_return ⟨here, fun ok => looks (looked ok)⟩ stable fun _ _ both ok => ?_
                  exact ⟨both.1, both.2 ⟨(), ok⟩⟩

theorem keeps_unlink (ready : Ready daemon d (fun own => own.any (·.listening) = false) (fun _ => True) w) :
    Keeps daemon groups d (fun _ _ => True) unlink w := by
  refine keeps_ask ready stable_ready ?_
  intro w inv ready outcome answer w' performed
  obtain ⟨kept, -⟩ := call_removeFile inv ready.1 (fun _ silent => silent) ready.2 performed
  exact ⟨kept, fun _ => keeps_end fun _ => trivial⟩

theorem keeps_serve (inv : Inv daemon groups w) (here : At daemon d (· = none) (fun _ => True) w) :
    Keeps daemon groups d (fun _ _ => True) (serve path (daemon d)) w := by
  have quiet : Quiet (· = none) := by
    rintro _ rfl
    rfl
  refine Keeps.bind inv ((keeps_refuseIfServed inv here).weaken ?_)
  intro result w inv ready
  cases result with
  | error e => exact keeps_end fun _ => trivial
  | ok _ =>
      refine keeps_ask (ready rfl) stable_ready ?_
      intro w inv ready outcome answer w' performed
      obtain ⟨kept, opened⟩ := call_openStore inv ready.1 quiet ready.2 performed
      refine ⟨kept, fun inv => ?_⟩
      cases answer with
      | error e => exact keeps_end fun _ => trivial
      | ok _ =>
          refine Keeps.bind inv ((keeps_bind inv opened).weaken ?_)
          intro result w inv bound
          cases result with
          | error e => exact keeps_end fun _ => trivial
          | ok _ =>
              refine keeps_ask (bound rfl) stable_ready ?_
              intro w inv ready outcome answer w' performed
              obtain ⟨kept, closed, looks⟩ := kept_close .serve inv ready.1.1 (.inl rfl)
              obtain rfl := call_serve performed
              refine ⟨kept, fun _ => ?_⟩
              cases answer with
              | error e => exact keeps_end fun _ => trivial
              | ok _ =>
                  refine keeps_ask ⟨closed, looks ready.2⟩ stable_ready ?_
                  intro w inv ready outcome answer w' performed
                  obtain rfl := call_stopAll performed
                  refine ⟨kept_same _ inv ready.1.1, fun inv => ?_⟩
                  refine Keeps.bind inv ((keeps_unlink ready).weaken ?_)
                  exact fun _ _ _ _ => keeps_end fun _ => trivial

/-! ## Starts and ends -/

theorem keeps_start (inv : Inv daemon groups w) (apart : Apart daemon d w) (begun : start d w = some w') :
    Inv daemon groups w' ∧ Changes daemon d .start w w' ∧ At daemon d (· = none) (fun _ => True) w' := by
  obtain ⟨unstarted, others, mine, live, arrivals, path, staging, -⟩ := start_spec begun
  obtain ⟨unborn, absent⟩ := inv.started d unstarted
  rw [unborn] at mine
  have silent : w'.listening d = false := by
    rw [World.listening, mine]
    rfl
  refine ⟨?_, ?_, live ▸ List.mem_cons_self, by rw [mine], trivial⟩
  · constructor
    · rw [path, arrivals]
      exact inv.path
    · intro e arrived
      rw [arrivals] at arrived
      obtain ⟨socket, held, final⟩ := inv.final e arrived
      have ne : e ≠ d := by
        rintro rfl
        rw [unborn] at held
        cases held
      exact ⟨socket, others e ne ▸ held, final⟩
    · rw [arrivals]
      exact inv.once
    · rw [staging, arrivals]
      exact inv.staged
    · rw [live]
      exact List.nodup_cons.2 ⟨apart, inv.distinct⟩
    · intro e idle
      have ne : e ≠ d := by
        rintro rfl
        rw [mine] at idle
        cases idle
      rw [others e ne] at idle ⊢
      obtain ⟨unborn, absent⟩ := inv.started e idle
      exact ⟨unborn, live ▸ fun member => (List.mem_cons.1 member).elim ne absent⟩
    · intro e noisy
      rw [live]
      by_cases same : e = d
      · exact same ▸ List.mem_cons_self
      · exact .tail _ (inv.listening e (listening_of_daemons (others e same) ▸ noisy))
    · intro e opened
      rw [live]
      by_cases same : e = d
      · exact same ▸ List.mem_cons_self
      · exact .tail _ (inv.storeOpen e (others e same ▸ opened))
    · intro e
      rw [arrivals]
      by_cases same : e = d
      · exact Nat.le_of_eq (by rw [same, mine])
      · exact others e same ▸ inv.since e
  · constructor
    · exact others
    · intro e ne
      rw [live, List.mem_cons, or_iff_right ne]
    · exact fun _ _ _ => by rw [staging]
    · rintro op ⟨⟩
    · refine .same path arrivals ?_
      rintro ⟨_, noisy⟩
      rw [silent] at noisy
      cases noisy
    · intro _ noisy
      rw [silent] at noisy
      cases noisy
    · rw [mine]
      exact inv.since d
    · rw [mine]
      rintro ⟨⟩
    · intro serving
      exact absurd (inv.listening d serving.2) absent
    · intro _ _
      rw [mine]
      exact ⟨rfl, rfl⟩

theorem kept_leave (d : DaemonId) (inv : Inv daemon groups w) :
    Inv daemon groups (leave d w) ∧ Changes daemon d .leave w (leave d w) := by
  have others : ∀ e, e ≠ d → (leave d w).daemons e = w.daemons e := fun e ne => leave_ne ne
  have mine := leave_self (w := w) (d := d)
  have silent := leave_listening (w := w) (d := d)
  have nodup : w.live.Nodup := inv.distinct.of_map _
  have live : ∀ e, e ∈ (leave d w).live ↔ e ≠ d ∧ e ∈ w.live := fun e => nodup.mem_erase_iff
  have arrivals : (leave d w).arrivals = w.arrivals := rfl
  refine ⟨?_, ?_⟩
  · constructor
    · exact inv.path
    · intro e arrived
      obtain ⟨socket, held, final⟩ := inv.final e arrived
      by_cases same : e = d
      · subst same
        rw [mine, held]
        exact ⟨_, rfl, final⟩
      · exact ⟨socket, others e same ▸ held, final⟩
    · exact inv.once
    · exact inv.staged
    · exact inv.distinct.sublist (List.erase_sublist.map _)
    · intro e idle
      rw [live]
      by_cases same : e = d
      · subst same
        rw [mine] at idle ⊢
        obtain ⟨unborn, absent⟩ := inv.started e idle
        rw [unborn]
        exact ⟨rfl, fun member => absent member.2⟩
      · rw [others e same] at idle ⊢
        obtain ⟨unborn, absent⟩ := inv.started e idle
        exact ⟨unborn, fun member => absent member.2⟩
    · intro e noisy
      have ne : e ≠ d := by
        rintro rfl
        rw [silent] at noisy
        cases noisy
      exact (live e).2 ⟨ne, inv.listening e (listening_of_daemons (others e ne) ▸ noisy)⟩
    · intro e opened
      have ne : e ≠ d := by
        rintro rfl
        rw [mine] at opened
        cases opened
      exact (live e).2 ⟨ne, inv.storeOpen e (others e ne ▸ opened)⟩
    · intro e
      by_cases same : e = d
      · subst same
        rw [mine]
        exact inv.since e
      · exact others e same ▸ inv.since e
  · constructor
    · exact others
    · exact fun e ne => (live e).trans (and_iff_right ne)
    · exact fun _ _ _ => rfl
    · rintro op ⟨⟩
    · refine .same rfl rfl ?_
      rintro ⟨_, noisy⟩
      rw [silent] at noisy
      cases noisy
    · intro _ noisy
      rw [silent] at noisy
      cases noisy
    · exact Nat.le_of_eq (by rw [mine])
    · rw [mine]
      rintro ⟨⟩
    · intro _ member
      exact absurd rfl ((live d).1 member).1
    · intro _ member
      exact absurd rfl ((live d).1 member).1

theorem kept_arrive {file : File} (strange : ∀ e, file ≠ .socket e) (inv : Inv daemon groups w) :
    Inv daemon groups (w.arrive file) := by
  have before : ∀ (e : DaemonId) (k : Nat), (w.arrivals ++ [file])[k]? = some (.socket e) →
      w.arrivals[k]? = some (.socket e) := by
    intro e k there
    rw [List.getElem?_append] at there
    split at there
    · exact there
    · exact absurd (List.mem_singleton.1 (List.mem_of_getElem? there)).symm (strange e)
  have member : ∀ e, .socket e ∈ w.arrivals ++ [file] → .socket e ∈ w.arrivals := by
    intro e arrived
    rcases List.mem_append.1 arrived with already | new
    · exact already
    · exact absurd (List.mem_singleton.1 new).symm (strange e)
  constructor
  · rintro k ⟨⟩
    simp [World.arrive]
  · exact fun e arrived => inv.final e (member e arrived)
  · exact fun e j k first second => inv.once e j k (before e j first) (before e k second)
  · intro pid e staged
    obtain ⟨same, absent⟩ := inv.staged pid e staged
    exact ⟨same, fun arrived => absent (member e arrived)⟩
  · exact inv.distinct
  · exact inv.started
  · exact inv.listening
  · exact inv.storeOpen
  · exact fun e => Nat.le_trans (inv.since e) (by simp [World.arrive])

theorem kept_outside (event : Outside) (inv : Inv daemon groups w) : Inv daemon groups (w.outside event) := by
  cases event with
  | remove => exact { inv with path := by rintro k ⟨⟩ }
  | place => exact kept_arrive (fun _ => by rintro ⟨⟩) inv
  | placeSocket listening =>
      have arrived : Inv daemon groups (w.arrive .foreign) := kept_arrive (fun _ => by rintro ⟨⟩) inv
      exact { arrived with }
  | listen k listening => exact { inv with }

theorem inv_new : Inv daemon groups {} := by
  constructor
  · rintro k ⟨⟩
  · rintro d ⟨⟩
  · rintro d j k ⟨⟩
  · rintro pid d ⟨⟩
  · exact List.nodup_nil
  · exact fun d _ => ⟨rfl, List.not_mem_nil⟩
  · rintro d ⟨⟩
  · rintro d ⟨⟩
  · exact fun d => Nat.le_refl _

theorem daemons_sound (path : String) (daemon : DaemonId → Daemon) (groups : String → Option Gid) :
    (daemons path daemon groups).Sound (promises daemon groups) (Apart daemon) fun _ _ _ => True where
  initial := inv_new
  start d w w' inv apart started := by
    obtain ⟨inv', changes, here⟩ := keeps_start inv apart started
    exact ⟨inv', changes, keeps_serve inv' here⟩
  leave d w inv := kept_leave d inv
  outside event w inv := ⟨kept_outside event inv, rfl⟩

end Wamux.Proof.UdsListener
