import Wamux.Proof.UdsListener.Promise

namespace Wamux.Proof.UdsListener
open Wamux.UdsListener
open Runs

variable {daemon : DaemonId → Daemon} {groups : String → Option Gid} {w w' : World} {d : DaemonId}

/-- A change to the daemon's own part and its private directory only. -/
structure Private (daemon : DaemonId → Daemon) (w : World) (d : DaemonId) (op : Op) (own : Local)
    (dir : Option (Option DaemonId)) : Prop where
  started : own.started = (w.daemons d).started
  since : (w.daemons d).since ≤ own.since
  since_le : own.since ≤ w.arrivals.length
  dir : ∀ e, dir = some (some e) → w.staging (daemon d).pid = some (some e) ∨ e = d ∧ .socket d ∉ w.arrivals
  socket : .socket d ∈ w.arrivals → ∀ socket, (w.daemons d).socket = some socket →
    ∃ socket', own.socket = some socket' ∧ socket'.mode = socket.mode ∧ socket'.group = socket.group
  closed : (w.daemons d).socket.isSome → own.socket.any (·.listening) = true → w.listening d = true
  opens : own.storeOpen = true → (w.daemons d).storeOpen = true ∨ Looked d w ∧ ¬Serving w d
  stops : Serving w d → op ≠ .serve → own.socket.any (·.listening) = true

theorem Private.kept {op : Op} {own : Local} {dir : Option (Option DaemonId)} (change : Private daemon w d op own dir)
    (inv : Inv daemon groups w) (live : d ∈ w.live) :
    Inv daemon groups ((w.setStaging (daemon d).pid dir).setLocal d own) ∧
      Changes daemon d (.call op) w ((w.setStaging (daemon d).pid dir).setLocal d own) := by
  have others : ∀ e, e ≠ d → ((w.setStaging (daemon d).pid dir).setLocal d own).daemons e = w.daemons e :=
    fun e ne => World.setLocal_ne ne
  have mine : ((w.setStaging (daemon d).pid dir).setLocal d own).daemons d = own := World.setLocal_self
  generalize after : (w.setStaging (daemon d).pid dir).setLocal d own = w' at others mine
  have arrivals : w'.arrivals = w.arrivals := after ▸ rfl
  have path : w'.path = w.path := after ▸ rfl
  have lives : w'.live = w.live := after ▸ rfl
  have staging : w'.staging = Function.update w.staging (daemon d).pid dir := after ▸ rfl
  have loud : w'.listening d = own.socket.any (·.listening) := by rw [World.listening, mine]
  have quieter : ∀ e, w'.listening e = true → .socket e ∈ w.arrivals ∨ e ≠ d → w.listening e = true := by
    intro e noisy known
    by_cases same : e = d
    · subst same
      obtain ⟨socket, held, -⟩ := inv.final e (known.resolve_right (· rfl))
      exact change.closed (by rw [held]; rfl) (loud ▸ noisy)
    · rwa [listening_of_daemons (others e same)] at noisy
  constructor
  · constructor
    · rw [path, arrivals]
      exact inv.path
    · intro e arrived
      rw [arrivals] at arrived
      obtain ⟨socket, held, final⟩ := inv.final e arrived
      by_cases same : e = d
      · subst same
        obtain ⟨socket', held', mode, group⟩ := change.socket arrived socket held
        refine ⟨socket', mine ▸ held', ?_⟩
        rw [Final, mode, group]
        exact final
      · exact ⟨socket, others e same ▸ held, final⟩
    · rw [arrivals]
      exact inv.once
    · intro pid e staged
      rw [staging] at staged
      rw [arrivals]
      by_cases same : pid = (daemon d).pid
      · subst same
        rw [Function.update_self] at staged
        rcases change.dir e staged with before | ⟨rfl, fresh⟩
        · exact inv.staged _ e before
        · exact ⟨rfl, fresh⟩
      · rw [Function.update_of_ne same] at staged
        exact inv.staged pid e staged
    · rw [lives]
      exact inv.distinct
    · intro e idle
      rw [lives]
      by_cases same : e = d
      · subst same
        rw [mine, change.started] at idle
        exact absurd live (inv.started e idle).2
      · rw [others e same] at idle ⊢
        exact inv.started e idle
    · intro e noisy
      rw [lives]
      by_cases same : e = d
      · exact same ▸ live
      · exact inv.listening e (quieter e noisy (.inr same))
    · intro e opened
      rw [lives]
      by_cases same : e = d
      · exact same ▸ live
      · exact inv.storeOpen e (others e same ▸ opened)
    · intro e
      rw [arrivals]
      by_cases same : e = d
      · subst same
        rw [mine]
        exact change.since_le
      · rw [others e same]
        exact inv.since e
  · constructor
    · exact others
    · exact fun e _ => by rw [lives]
    · intro e member ne
      rw [staging, Function.update_of_ne (pid_ne inv live member ne)]
    · exact fun _ _ => ⟨live, lives ▸ live⟩
    · refine .same path arrivals ?_
      rintro ⟨arrived, noisy⟩
      rw [arrivals] at arrived
      exact ⟨arrived, quieter d noisy (.inl arrived)⟩
    · exact fun bound noisy => change.closed bound (loud ▸ noisy)
    · rw [mine]
      exact change.since
    · intro opened
      rw [mine] at opened
      exact (change.opens opened).imp_right fun may => ⟨may.1, may.2, live⟩
    · intro serving _ other
      exact ⟨arrivals ▸ serving.1, loud.trans (change.stops serving fun same => other (same ▸ rfl))⟩
    · exact fun absent => absurd live absent

theorem Private.same (op : Op) (inv : Inv daemon groups w) : Private daemon w d op (w.daemons d) (w.staging (daemon d).pid) where
  started := rfl
  since := Nat.le_refl _
  since_le := inv.since d
  dir _ := .inl
  socket _ socket held := ⟨socket, held, rfl, rfl⟩
  closed _ noisy := noisy
  opens := .inl
  stops serving _ := serving.2

theorem kept_same (op : Op) (inv : Inv daemon groups w) (live : d ∈ w.live) :
    Inv daemon groups w ∧ Changes daemon d (.call op) w w := by
  have kept := (Private.same op inv).kept inv live
  rwa [World.setStaging_same, World.setLocal_same] at kept

theorem kept_staging (op : Op) (inv : Inv daemon groups w) (live : d ∈ w.live) (dir : Option (Option DaemonId))
    (empty : ∀ e, dir ≠ some (some e)) :
    Inv daemon groups (w.setStaging (daemon d).pid dir) ∧
      Changes daemon d (.call op) w (w.setStaging (daemon d).pid dir) := by
  have change : Private daemon w d op (w.daemons d) dir :=
    { Private.same op inv with dir := fun e staged => absurd staged (empty e) }
  have kept := change.kept inv live
  rwa [show (w.setStaging (daemon d).pid dir).setLocal d (w.daemons d) = w.setStaging (daemon d).pid dir from
    World.setLocal_same] at kept

theorem kept_local {op : Op} {own : Local} (inv : Inv daemon groups w) (live : d ∈ w.live)
    (change : Private daemon w d op own (w.staging (daemon d).pid)) :
    Inv daemon groups (w.setLocal d own) ∧ Changes daemon d (.call op) w (w.setLocal d own) := by
  have kept := change.kept inv live
  rwa [World.setStaging_same] at kept

/-! ## The calls -/

variable {own : Option Socket → Prop} {dir : Option (Option DaemonId) → Prop} {outcome : Outcome}

theorem At.weaken {own' : Option Socket → Prop} {dir' : Option (Option DaemonId) → Prop} (here : At daemon d own dir w)
    (socket : ∀ socket, own socket → own' socket) (staging : ∀ staging, dir staging → dir' staging) : At daemon d own' dir' w :=
  ⟨here.1, socket _ here.2.1, staging _ here.2.2⟩

def Quiet (own : Option Socket → Prop) : Prop := ∀ socket, own socket → socket.any (·.listening) = false

theorem At.quiet (quiet : Quiet own) (here : At daemon d own dir w) : ¬Serving w d := by
  rintro ⟨_, noisy⟩
  have silent := quiet _ here.2.1
  rw [World.listening] at noisy
  rw [noisy] at silent
  cases silent

theorem looked_of_path {seen : World → Nat → Prop} (path : w'.path = none) : Since d seen w' := by
  intro k shown
  rw [path] at shown
  cases shown

theorem Since.keep {seen : World → Nat → Prop} (looked : Since d seen w) (path : w'.path = w.path)
    (since : (w'.daemons d).since = (w.daemons d).since) (kept : ∀ k, seen w k → seen w' k) : Since d seen w' := by
  intro k shown
  rw [path] at shown
  rw [since]
  exact (looked k shown).imp_right (kept k)

theorem At.setLocal (here : At daemon d own dir w) {mine : Local} (socket : mine.socket = (w.daemons d).socket) :
    At daemon d own dir (w.setLocal d mine) := by
  refine ⟨here.1, ?_, here.2.2⟩
  rw [World.setLocal_self, socket]
  exact here.2.1

theorem listening_setLocal (mine : Local) (socket : mine.socket = (w.daemons d).socket) (e : DaemonId) :
    (w.setLocal d mine).listening e = w.listening e := by
  by_cases same : e = d
  · subst same
    rw [World.listening, World.listening, World.setLocal_self, socket]
  · exact listening_of_daemons (World.setLocal_ne same)

theorem call_symlinkMetadata {answer : Reply .symlinkMetadata} (inv : Inv daemon groups w) (here : At daemon d own dir w)
    (performed : perform daemon groups d .symlinkMetadata outcome w = some (answer, w')) :
    (Inv daemon groups w' ∧ Changes daemon d (.call .symlinkMetadata) w w') ∧ At daemon d own dir w' ∧
      (answer = .error .notFound → Looked d w') ∧ (answer = .ok true → Since d IsSocket w') := by
  let mine : Local := { w.daemons d with since := w.arrivals.length, refused := none }
  have change : Private daemon w d .symlinkMetadata mine (w.staging (daemon d).pid) :=
    { Private.same .symlinkMetadata inv with since := inv.since d, since_le := Nat.le_refl _ }
  have kept := kept_local inv here.1 change
  have stays : At daemon d own dir (w.setLocal d mine) := here.setLocal rfl
  generalize after : w.setLocal d mine = looks at kept stays
  have path : looks.path = w.path := after ▸ rfl
  have arrivals : looks.arrivals = w.arrivals := after ▸ rfl
  unfold perform at performed
  simp only [mine] at after
  simp only [after] at performed
  split at performed
  · rename_i absent
    cases performed
    refine ⟨kept, stays, fun _ => ?_, by rintro ⟨⟩⟩
    intro k shown
    have within := inv.path k (path ▸ shown)
    rw [World.shown, shown, Option.bind_some, arrivals, List.getElem?_eq_getElem within] at absent
    cases absent
  · cases performed
    exact ⟨kept, stays, by rintro ⟨⟩, by rintro ⟨⟩⟩
  · rename_i file socket there
    cases performed
    refine ⟨kept, stays, by rintro ⟨⟩, fun _ k shown => .inr ⟨file, ?_, socket⟩⟩
    rwa [World.shown, shown, Option.bind_some] at there
  · split at performed
    · cases performed
    · rename_i other
      cases performed
      refine ⟨kept, stays, ?_, by rintro ⟨⟩⟩
      rintro ⟨⟩
      exact absurd rfl other
  · cases performed

theorem dead_of_refused {k : Nat} (socket : IsSocket w k) (refused : ¬w.answers k) :
    Dead d (w.setLocal d { w.daemons d with refused := some k }) k := by
  obtain ⟨file, there, ne⟩ := socket
  cases file with
  | socket owner =>
      refine .inl ⟨owner, there, ?_⟩
      rw [listening_setLocal { w.daemons d with refused := some k } rfl]
      simpa only [World.answers, there, Bool.not_eq_true] using refused
  | foreign => exact .inr ⟨there, congrArg Local.refused World.setLocal_self⟩
  | other => exact absurd rfl ne

theorem call_connect {answer : Reply .connect} (inv : Inv daemon groups w) (here : At daemon d own dir w)
    (sighted : Since d IsSocket w) (performed : perform daemon groups d .connect outcome w = some (answer, w')) :
    (Inv daemon groups w' ∧ Changes daemon d (.call .connect) w w') ∧ At daemon d own dir w' ∧
      (answer = .error .connectionRefused → Looked d w') := by
  have kept := kept_same .connect inv here.1
  cases outcome with
  | done =>
      unfold perform at performed
      dsimp only at performed
      split at performed
      · cases performed
        exact ⟨kept, here, by rintro ⟨⟩⟩
      · rename_i k at'
        split at performed
        · cases performed
          exact ⟨kept, here, by rintro ⟨⟩⟩
        · rename_i refused
          cases performed
          have change : Private daemon w d .connect { w.daemons d with refused := some k } (w.staging (daemon d).pid) :=
            { Private.same .connect inv with }
          refine ⟨kept_local inv here.1 change, here.setLocal rfl, fun _ k' shown => ?_⟩
          obtain rfl : k = k' := Option.some.inj (at'.symm.trans shown)
          rw [World.setLocal_self]
          exact (sighted k at').imp_right fun socket => dead_of_refused socket refused
  | failed e =>
      unfold perform at performed
      dsimp only at performed
      split at performed
      · cases performed
      · rename_i other
        cases performed
        refine ⟨kept, here, ?_⟩
        rintro ⟨⟩
        exact absurd rfl other
  | partly e => cases performed

theorem call_removeFile {answer : Reply .removeFile} (inv : Inv daemon groups w) (here : At daemon d own dir w)
    (quiet : Quiet own) (looked : Looked d w)
    (performed : perform daemon groups d .removeFile outcome w = some (answer, w')) :
    (Inv daemon groups w' ∧ Changes daemon d (.call .removeFile) w w') ∧ At daemon d own dir w' ∧ Looked d w' := by
  have kept := kept_same .removeFile inv here.1
  cases outcome with
  | done =>
      unfold perform at performed
      dsimp only at performed
      split at performed
      · cases performed
        exact ⟨kept, here, looked⟩
      · cases performed
        refine ⟨⟨{ kept.1 with path := by rintro k ⟨⟩ }, ?_⟩, here, looked_of_path rfl⟩
        exact { kept.2 with path := .removed looked (here.quiet quiet) here.1 rfl rfl (here.quiet quiet) }
  | failed e =>
      cases performed
      exact ⟨kept, here, looked⟩
  | partly e => cases performed

theorem call_removeStaging {answer : Reply .removeStaging} (inv : Inv daemon groups w)
    (here : At daemon d own (fun _ => True) w)
    (performed : perform daemon groups d .removeStaging outcome w = some (answer, w')) :
    (Inv daemon groups w' ∧ Changes daemon d (.call .removeStaging) w w') ∧ At daemon d own (fun _ => True) w' ∧
      (Looked d w → Looked d w') := by
  cases outcome with
  | done =>
      unfold perform at performed
      dsimp only at performed
      split at performed
      · cases performed
        exact ⟨kept_same _ inv here.1, here, id⟩
      · cases performed
        exact ⟨kept_staging _ inv here.1 none (by rintro e ⟨⟩), ⟨here.1, here.2.1, trivial⟩, id⟩
  | failed e =>
      cases performed
      exact ⟨kept_same _ inv here.1, here, id⟩
  | partly e =>
      unfold perform at performed
      dsimp only at performed
      split at performed
      · cases performed
        exact ⟨kept_staging _ inv here.1 (some none) (by rintro e ⟨⟩), ⟨here.1, here.2.1, trivial⟩, id⟩
      · cases performed

theorem call_createStaging {answer : Reply .createStaging} (inv : Inv daemon groups w)
    (here : At daemon d own (fun _ => True) w) (looked : Looked d w)
    (performed : perform daemon groups d .createStaging outcome w = some (answer, w')) :
    (Inv daemon groups w' ∧ Changes daemon d (.call .createStaging) w w') ∧
      (answer = .ok () → At daemon d own (· = some none) w' ∧ Looked d w') := by
  cases outcome with
  | done =>
      unfold perform at performed
      dsimp only at performed
      split at performed
      · cases performed
        refine ⟨kept_staging _ inv here.1 (some none) (by rintro e ⟨⟩), fun _ => ⟨⟨here.1, here.2.1, ?_⟩, looked⟩⟩
        exact World.setStaging_self
      · cases performed
        exact ⟨kept_same _ inv here.1, by rintro ⟨⟩⟩
  | failed e =>
      cases performed
      exact ⟨kept_same _ inv here.1, by rintro ⟨⟩⟩
  | partly e => cases performed

theorem Dead.others {k : Nat} (dead : Dead d w k) (fresh : .socket d ∉ w.arrivals) (arrivals : w'.arrivals = w.arrivals)
    (refused : (w'.daemons d).refused = (w.daemons d).refused)
    (others : ∀ e, e ≠ d → w'.daemons e = w.daemons e) : Dead d w' k := by
  refine dead.keep arrivals refused fun e arrived noisy => ?_
  have ne : e ≠ d := by
    rintro rfl
    exact fresh arrived
  rwa [listening_of_daemons (others e ne)] at noisy

def IsStaged (d : DaemonId) (dir : Option (Option DaemonId)) : Prop := dir = some (some d)

theorem At.fresh (inv : Inv daemon groups w) (here : At daemon d own (IsStaged d) w) : .socket d ∉ w.arrivals :=
  (inv.staged _ d here.2.2).2

theorem call_bindStaged {answer : Reply .bindStaged} (inv : Inv daemon groups w)
    (here : At daemon d (· = none) (· = some none) w) (looked : Looked d w)
    (performed : perform daemon groups d .bindStaged outcome w = some (answer, w')) :
    (Inv daemon groups w' ∧ Changes daemon d (.call .bindStaged) w w') ∧
      (answer = .ok () → At daemon d (fun own => ∃ socket, own = some socket ∧ socket.group = none) (IsStaged d) w' ∧
        Looked d w') := by
  have fresh : .socket d ∉ w.arrivals := by
    intro arrived
    obtain ⟨socket, held, -⟩ := inv.final d arrived
    rw [here.2.1] at held
    cases held
  have change (socket : Socket) : Private daemon w d .bindStaged { w.daemons d with socket := some socket } (some (some d)) :=
    { Private.same .bindStaged inv with
      dir := by
        rintro e ⟨⟩
        exact .inr ⟨rfl, fresh⟩
      socket := fun arrived => absurd arrived fresh
      closed := fun bound => by
        rw [here.2.1] at bound
        cases bound
      stops := fun serving => absurd serving.1 fresh }
  have looked' (own : Local) (since : own.since = (w.daemons d).since) (refused : own.refused = (w.daemons d).refused) :
      Looked d ((w.setStaging (daemon d).pid (some (some d))).setLocal d own) := by
    have path : ((w.setStaging (daemon d).pid (some (some d))).setLocal d own).path = w.path := rfl
    refine looked.keep path ?_ fun k dead => dead.others fresh rfl ?_ fun e ne => World.setLocal_ne ne
    · exact (congrArg Local.since World.setLocal_self).trans since
    · exact (congrArg Local.refused World.setLocal_self).trans refused
  unfold perform at performed
  dsimp only at performed
  split at performed
  · cases performed
    refine ⟨(change _).kept inv here.1, fun _ => ⟨⟨here.1, ?_, ?_⟩, looked' _ rfl rfl⟩⟩
    · exact ⟨⟨_, none, true⟩, congrArg Local.socket World.setLocal_self, rfl⟩
    · exact World.setStaging_self
  · cases performed
    exact ⟨(change _).kept inv here.1, by rintro ⟨⟩⟩
  · cases performed
    exact ⟨kept_same _ inv here.1, by rintro ⟨⟩⟩
  · cases performed

theorem kept_setSocket (op : Op) (f : Socket → Socket) (own' : Option Socket → Prop)
    (same : ∀ socket, (f socket).listening = socket.listening) (inv : Inv daemon groups w)
    (here : At daemon d own (IsStaged d) w) (looked : Looked d w) (implies : ∀ socket, own socket → own' (socket.map f)) :
    (Inv daemon groups (w.setSocket d f) ∧ Changes daemon d (.call op) w (w.setSocket d f)) ∧
      At daemon d own' (IsStaged d) (w.setSocket d f) ∧ Looked d (w.setSocket d f) := by
  have fresh := here.fresh inv
  have loud : ((w.daemons d).socket.map f).any (·.listening) = w.listening d := by
    rw [World.listening]
    cases (w.daemons d).socket with
    | none => rfl
    | some socket => exact same socket
  have change : Private daemon w d op { w.daemons d with socket := (w.daemons d).socket.map f } (w.staging (daemon d).pid) :=
    { Private.same op inv with
      socket := fun arrived => absurd arrived fresh
      closed := fun _ noisy => loud ▸ noisy
      stops := fun serving => absurd serving.1 fresh }
  have path : (w.setSocket d f).path = w.path := rfl
  refine ⟨kept_local inv here.1 change, ⟨here.1, ?_, here.2.2⟩, looked.keep path (by rw [World.setSocket_self]) ?_⟩
  · rw [World.setSocket_self]
    exact implies _ here.2.1
  · exact fun k dead => dead.others fresh rfl (by rw [World.setSocket_self]) fun e ne => World.setSocket_ne ne

theorem call_chown {gid : Gid} {answer : Reply (.chown gid)} (inv : Inv daemon groups w)
    (here : At daemon d (fun own => ∃ socket, own = some socket ∧ socket.group = none) (IsStaged d) w) (looked : Looked d w)
    (performed : perform daemon groups d (.chown gid) outcome w = some (answer, w')) :
    (Inv daemon groups w' ∧ Changes daemon d (.call (.chown gid)) w w') ∧ At daemon d (fun _ => True) (IsStaged d) w' ∧
      (answer = .ok () →
        At daemon d (fun own => ∃ socket, own = some socket ∧ socket.group = chowned gid none) (IsStaged d) w' ∧
        Looked d w') := by
  cases outcome with
  | done =>
      have staged : w.staging (daemon d).pid = some (some d) := here.2.2
      unfold perform at performed
      simp only [staged] at performed
      cases performed
      have kept := kept_setSocket (.chown gid) (fun socket => { socket with group := chowned gid socket.group })
        (fun own => ∃ socket, own = some socket ∧ socket.group = chowned gid none) (fun _ => rfl) inv here looked ?_
      · exact ⟨kept.1, kept.2.1.weaken (fun _ _ => trivial) fun _ => id, fun _ => kept.2⟩
      · rintro own ⟨socket, rfl, unset⟩
        exact ⟨_, rfl, congrArg (chowned gid) unset⟩
  | failed e =>
      cases performed
      exact ⟨kept_same _ inv here.1, here.weaken (fun _ _ => trivial) fun _ => id, by rintro ⟨⟩⟩
  | partly e => cases performed

theorem call_chmod {mode : UInt32} {answer : Reply (.chmod mode)} (inv : Inv daemon groups w) {group : Option Gid}
    (here : At daemon d (fun own => ∃ socket, own = some socket ∧ socket.group = group) (IsStaged d) w) (looked : Looked d w)
    (performed : perform daemon groups d (.chmod mode) outcome w = some (answer, w')) :
    (Inv daemon groups w' ∧ Changes daemon d (.call (.chmod mode)) w w') ∧ At daemon d (fun _ => True) (IsStaged d) w' ∧
      (answer = .ok () → At daemon d (fun own => ∃ socket, own = some socket ∧
          socket.mode = (daemon d).chmodded mode socket.group ∧ socket.group = group) (IsStaged d) w' ∧ Looked d w') := by
  cases outcome with
  | done =>
      have staged : w.staging (daemon d).pid = some (some d) := here.2.2
      unfold perform at performed
      simp only [staged] at performed
      cases performed
      have kept := kept_setSocket (.chmod mode)
        (fun socket => { socket with mode := (daemon d).chmodded mode socket.group })
        (fun own => ∃ socket, own = some socket ∧ socket.mode = (daemon d).chmodded mode socket.group ∧ socket.group = group)
        (fun _ => rfl) inv here looked ?_
      · exact ⟨kept.1, kept.2.1.weaken (fun _ _ => trivial) fun _ => id, fun _ => kept.2⟩
      · rintro own ⟨socket, rfl, same⟩
        exact ⟨_, rfl, rfl, same⟩
  | failed e =>
      cases performed
      exact ⟨kept_same _ inv here.1, here.weaken (fun _ _ => trivial) fun _ => id, by rintro ⟨⟩⟩
  | partly e => cases performed

theorem call_rename {answer : Reply .rename} (inv : Inv daemon groups w)
    (here : At daemon d (fun own => ∃ socket, own = some socket ∧ Final daemon groups d socket) (IsStaged d) w)
    (looked : Looked d w) (performed : perform daemon groups d .rename outcome w = some (answer, w')) :
    (Inv daemon groups w' ∧ Changes daemon d (.call .rename) w w') ∧
      (answer = .ok () → At daemon d (fun _ => True) (fun _ => True) w' ∧ Looked d w') ∧
      ∀ e, answer = .error e → At daemon d (fun _ => True) (IsStaged d) w' := by
  cases outcome with
  | done =>
      have fresh := here.fresh inv
      have staged : w.staging (daemon d).pid = some (some d) := here.2.2
      unfold perform at performed
      simp only [staged] at performed
      cases performed
      obtain ⟨inv', changes⟩ := kept_staging .rename inv here.1 (some none) (by rintro e ⟨⟩)
      have quiet : ¬Serving w d := fun serving => fresh serving.1
      refine ⟨⟨?_, ?_⟩, fun _ => ⟨⟨here.1, trivial, trivial⟩, ?_⟩, by rintro e ⟨⟩⟩
      · constructor
        · rintro k ⟨⟩
          simp [World.arrive, World.setStaging]
        · intro e arrived
          rcases List.mem_append.1 arrived with before | new
          · exact inv'.final e before
          · cases List.mem_singleton.1 new
            exact here.2.1
        · intro e j k first second
          simp only [World.arrive, World.setStaging, List.getElem?_append] at first second
          split at first <;> split at second
          · exact inv.once e j k first second
          · have same := List.mem_of_getElem? second
            cases List.mem_singleton.1 same
            exact absurd (List.mem_of_getElem? first) fresh
          · have same := List.mem_of_getElem? first
            cases List.mem_singleton.1 same
            exact absurd (List.mem_of_getElem? second) fresh
          · have bound := (List.getElem?_eq_some_iff.1 first).1
            have bound' := (List.getElem?_eq_some_iff.1 second).1
            simp only [List.length_singleton] at bound bound'
            omega
        · intro pid e held
          obtain ⟨rfl, absent⟩ := inv'.staged pid e held
          refine ⟨rfl, ?_⟩
          intro arrived
          rcases List.mem_append.1 arrived with before | new
          · exact absent before
          · cases List.mem_singleton.1 new
            simp [World.arrive, World.setStaging] at held
        · exact inv'.distinct
        · exact inv'.started
        · exact inv'.listening
        · exact inv'.storeOpen
        · intro e
          exact Nat.le_trans (inv'.since e) (by simp [World.arrive])
      · exact { changes with
          path := .renamed looked quiet here.1 rfl rfl
          stops := fun serving => absurd serving quiet }
      · rintro k ⟨⟩
        exact .inl (inv.since d)
  | failed e =>
      cases performed
      exact ⟨kept_same _ inv here.1, by rintro ⟨⟩, fun _ _ => here.weaken (fun _ _ => trivial) fun _ => id⟩
  | partly e => cases performed

theorem kept_close (op : Op) (inv : Inv daemon groups w) (live : d ∈ w.live)
    (ending : op = .serve ∨ ¬Serving w d) :
    (Inv daemon groups (w.close d) ∧ Changes daemon d (.call op) w (w.close d)) ∧
      At daemon d (fun own => own.any (·.listening) = false) (fun _ => True) (w.close d) ∧
      (Looked d w → Looked d (w.close d)) := by
  have silent : ((w.daemons d).socket.map fun socket => { socket with listening := false }).any (·.listening) = false := by
    cases (w.daemons d).socket <;> rfl
  have change : Private daemon w d op
      { w.daemons d with socket := (w.daemons d).socket.map fun socket => { socket with listening := false } }
      (w.staging (daemon d).pid) :=
    { Private.same op inv with
      socket := by
        intro _ socket held
        refine ⟨{ socket with listening := false }, ?_, rfl, rfl⟩
        rw [held]
        rfl
      closed := fun _ noisy => by
        rw [silent] at noisy
        cases noisy
      stops := fun serving other => absurd serving (ending.resolve_left other) }
  have path : (w.close d).path = w.path := rfl
  refine ⟨kept_local inv live change, ⟨live, ?_, trivial⟩, fun looked => looked.keep path ?_ ?_⟩
  · rw [World.close, World.setSocket_self]
    exact silent
  · rw [World.close, World.setSocket_self]
  · intro k dead
    refine dead.keep rfl (by rw [World.close, World.setSocket_self]) ?_
    intro e _ noisy
    by_cases same : e = d
    · subst same
      rw [World.close_listening] at noisy
      cases noisy
    · rwa [listening_of_daemons (World.close_ne same)] at noisy

theorem call_openStore {answer : Reply .openStore} (inv : Inv daemon groups w) (here : At daemon d own dir w) (quiet : Quiet own)
    (looked : Looked d w) (performed : perform daemon groups d .openStore outcome w = some (answer, w')) :
    (Inv daemon groups w' ∧ Changes daemon d (.call .openStore) w w') ∧ At daemon d own dir w' ∧ Looked d w' := by
  have change : Private daemon w d .openStore { w.daemons d with storeOpen := true } (w.staging (daemon d).pid) :=
    { Private.same .openStore inv with opens := fun _ => .inr ⟨looked, here.quiet quiet⟩ }
  have opened := kept_local inv here.1 change
  have stays : At daemon d own dir (w.setLocal d { w.daemons d with storeOpen := true }) := here.setLocal rfl
  have looks : Looked d (w.setLocal d { w.daemons d with storeOpen := true }) := by
    have path : (w.setLocal d { w.daemons d with storeOpen := true }).path = w.path := rfl
    refine looked.keep path (by rw [World.setLocal_self]) fun k dead =>
      dead.keep rfl (by rw [World.setLocal_self]) fun e _ noisy => ?_
    rwa [listening_setLocal { w.daemons d with storeOpen := true } rfl] at noisy
  cases outcome with
  | done =>
      cases performed
      exact ⟨opened, stays, looks⟩
  | failed e =>
      cases performed
      exact ⟨kept_same _ inv here.1, here, looked⟩
  | partly e =>
      cases performed
      exact ⟨opened, stays, looks⟩

theorem call_lookUpGroup {name : String} {answer : Reply (.lookUpGroup name)}
    (performed : perform daemon groups d (.lookUpGroup name) outcome w = some (answer, w')) :
    w' = w ∧ ∀ found, answer = .ok found → found = groups name := by
  cases outcome with
  | done =>
      cases performed
      exact ⟨rfl, by rintro _ ⟨⟩; rfl⟩
  | failed e =>
      cases performed
      exact ⟨rfl, by rintro _ ⟨⟩⟩
  | partly e => cases performed

theorem call_createParent {answer : Reply .createParent}
    (performed : perform daemon groups d .createParent outcome w = some (answer, w')) : w' = w := by
  cases outcome <;> cases performed <;> rfl

theorem call_stopAll {answer : Reply .stopAll} (performed : perform daemon groups d .stopAll outcome w = some (answer, w')) :
    w' = w := by
  cases outcome <;> cases performed
  rfl

theorem call_serve {answer : Reply .serve} (performed : perform daemon groups d .serve outcome w = some (answer, w')) :
    w' = w.close d := by
  cases outcome <;> cases performed <;> rfl

end Wamux.Proof.UdsListener
