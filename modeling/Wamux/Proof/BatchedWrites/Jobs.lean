import Wamux.BatchedWrites.Engines
import Wamux.Proof.GroupCommit.Durability

namespace Wamux.Proof.BatchedWrites.Sqlite
open Wamux.BatchedWrites Wamux.BatchedWrites.Sqlite Wamux.GroupCommit Wamux.Runs Wamux.Runs.Keyed Wamux.Runs.Async
open Wamux.Runs.Machine hiding step
open Wamux.Proof.GroupCommit

variable {info : Type} {calls : Calls info} {effect : Write → Statement Key Row} {initial : Rows Key Row}
  {cap : Nat} {F : Faults} {s s' : Sys} {e : Event} {t : TaskId}

/-! ## Which tasks finish, and which never write -/

inductive Stage where
  | bystander | finishing | other
  deriving DecidableEq

def stage : Phase → Stage
  | .running .lock _ | .running .lockAutocommit _ | .leaving _ (.ended (.refused _)) | .ended (.refused _) => .bystander
  | .running .finish _ => .finishing
  | _ => .other

theorem Post.stage {method : Method} {outcome : Outcome} {b : BatchState} {taken : List TaskId}
    {written : TaskId → List String} {seen : Option Nat} (post : Post F cap taken written method t outcome b seen) :
    stage (after method outcome) = .other ∨ stage (after method outcome) = .bystander ∧ method = .lockAutocommit := by
  cases outcome with
  | started result =>
      obtain ⟨-, rfl, -⟩ := post
      exact .inl rfl
  | finished result => exact .inl rfl
  | waits => exact .inl rfl
  | failed => exact .inl rfl
  | guard result =>
      cases result with
      | ok => exact .inl rfl
      | error error => exact .inr ⟨rfl, post.1⟩
  | rechecked result => cases result <;> exact .inl rfl

theorem Resumption.stage {method : Method} {code : Locked Outcome} {batch : BatchState} {taken : List TaskId}
    (code' : Locked Outcome) (how : Resumption cap s e t method code batch taken) (fact : Fact F s.taken s.written t s.batch (s.phase t)) :
    stage (.running method code') = .other ∨ stage (.running method code') = stage (s.phase t) ∨
      stage (.running method code') = .bystander ∧ s.written t = [] ∨
      stage (.running method code') = .finishing ∧ e = .finish t := by
  cases how with
  | granted phase holds =>
      rw [phase] at fact
      cases method with
      | finish => exact fact.elim
      | fail => exact fact.elim
      | beginJob => exact .inl rfl
      | commitIfDrained => exact .inl rfl
      | lock => exact .inr (.inr (.inl ⟨rfl, fact.unwritten⟩))
      | lockAutocommit => exact .inr (.inr (.inl ⟨rfl, fact.unwritten⟩))
  | served phase => exact .inr (.inl (by rw [phase]; cases method <;> rfl))
  | loaded phase => exact .inr (.inl (by rw [phase]; cases method <;> rfl))
  | finishing phase => exact .inr (.inr (.inr ⟨rfl, rfl⟩))
  | failing phase => exact .inl rfl

theorem stage_move (inv : Inv F (max cap 1) s) (move : Move cap s e s') (t : TaskId) :
    stage (s'.phase t) = .other ∨ stage (s'.phase t) = stage (s.phase t) ∨
      stage (s'.phase t) = .bystander ∧ s.written t = [] ∨ stage (s'.phase t) = .finishing ∧ e = .finish t := by
  by_cases own : t = task e
  · cases move with
    | @resumed _ u method code batch taken how =>
        obtain rfl : u = t := how.task.trans own.symm
        obtain ⟨seen, runs⟩ := inv.runs how
        obtain ⟨-, rest⟩ := advanced runs.safe
        rw [Sys.resume, setPhase_self]
        rcases code.advance_paused batch with ⟨outcome, stopped⟩ | paused
        · rw [stopped] at rest ⊢
          rcases Post.stage rest with other | ⟨bystander, rfl⟩
          · exact .inl other
          · have before := Resumption.stage code how (inv.fact u)
            rwa [show stage (.running .lockAutocommit code) = stage (after .lockAutocommit outcome) from
              bystander.symm] at before
        · rw [codePhase_paused paused]
          exact Resumption.stage _ how (inv.fact u)
    | left phase =>
        obtain rfl : t = _ := own
        rename_i first rest next
        rw [setPhase_self, phase]
        cases rest with
        | nil =>
            cases next with
            | ended ending => cases ending <;> exact .inr (.inl rfl)
            | wait => exact .inl rfl
            | park => exact .inl rfl
        | cons second rest => exact .inr (.inl (by cases next with
            | ended ending => cases ending <;> rfl
            | _ => rfl))
    | @wroteJob u value phase => exact .inr (.inl rfl)
    | @wroteGuard u value method phase => exact .inr (.inl rfl)
    | @requested u choice method phase =>
        obtain rfl : t = u := own
        refine .inl ?_
        unfold Sys.request
        split <;> simp [stage]
    | @droppedQueued u ran method phase queued =>
        obtain rfl : t = u := own
        refine .inl ?_
        rw [setPhase_self]
        cases method <;> rfl
    | _ =>
        obtain rfl : t = _ := own
        exact .inl (by rw [setPhase_self]; rfl)
  · exact .inr (.inl (by rw [move.other own]))

theorem kept_by_finish (inv : Inv F (max cap 1) s) (permits : Permits F s e) (move : Move cap s e s')
    (kept : t ∈ s'.batch.ledger.held ∨ t ∈ s'.batch.ledger.durable) :
    t ∈ s.batch.ledger.held ∨ t ∈ s.batch.ledger.durable ∨ stage (s.phase t) = .finishing ∨ e = .finish t := by
  have owns {t : TaskId} {p : Phase} (phase : s.phase t = p) (owner : role p = .owner) :
      s.holder = some t := inv.locking.mutex.owner t (by rwa [phase])
  have held {t : TaskId} {p : Phase} (phase : s.phase t = p) (owner : role p = .owner) :
      Holding F (max cap 1) s.taken s.written t s.batch p := phase ▸ inv.held t (owns phase owner)
  have still {b : BatchState} (guarantee : Guarantee none s.batch b)
      (kept : t ∈ b.ledger.held ∨ t ∈ b.ledger.durable) : t ∈ s.batch.ledger.held ∨ t ∈ s.batch.ledger.durable := by
    rcases guarantee.moved t kept with held | durable | own
    · exact .inl held
    · exact .inr durable
    · cases own
  cases move with
  | @resumed _ u method code batch taken how =>
      obtain ⟨seen, runs⟩ := inv.runs how
      have guarantee := runs.guarantee.trans (resumed runs.safe runs.fact).1
      rcases guarantee.moved t kept with held | durable | own
      · exact .inl held
      · exact .inr (.inl durable)
      · obtain rfl := mover_own own
        have finishing : method = .finish := by cases method <;> simp_all [mover]
        subst finishing
        have fact := inv.fact t
        cases how with
        | granted phase holds =>
            rw [phase] at fact
            exact fact.elim
        | served phase => exact .inr (.inr (.inl (by rw [phase]; rfl)))
        | loaded phase => exact .inr (.inr (.inl (by rw [phase]; rfl)))
        | finishing phase => exact .inr (.inr (.inr rfl))
  | @droppedAwaiting u ran method statement next phase =>
      obtain ⟨-, seen, safe⟩ := held phase rfl
      obtain ⟨-, guarantee⟩ := Safe.droppedAt safe (permits method statement next phase) ran
      rcases guarantee.moved t kept with held | durable | own
      · exact .inl held
      · exact .inr (.inl durable)
      · obtain rfl := mover_own own
        have finishing : method = .finish := by cases method <;> simp_all [mover]
        subst finishing
        exact .inr (.inr (.inl (by rw [phase]; rfl)))
  | aborted phase =>
      obtain ⟨-, guarantee⟩ := Job.abort (held phase rfl) permits
      exact (still guarantee kept).imp_right .inl
  | requested phase =>
      refine (still (.refl _) ?_).imp_right .inl
      unfold Sys.request at kept
      split at kept <;> exact kept
  | left phase =>
      rename_i first rest next
      refine (still (.refl _) ?_).imp_right .inl
      cases first with
      | slot => exact kept
      | guard =>
          simp only [Sys.dropOwned, Sys.unlock] at kept
          split at kept <;> exact kept
  | wroteJob phase => exact (still (.refl _) kept).imp_right .inl
  | wroteGuard phase => exact (still (.refl _) kept).imp_right .inl
  | _ => exact (still (.refl _) kept).imp_right .inl

/-! ## Whole jobs -/

def Whole (calls : Calls info) (effect : Write → Statement Key Row) (s : Sys) (t : TaskId) : Prop :=
  ∀ store call rows, calls t = some (store, call) → store.body call = .transaction rows →
    (statementsOf effect s t).map .ok = rows

structure Staged (calls : Calls info) (effect : Write → Statement Key Row) (s : Sys) : Prop where
  written : ∀ t store call rows, calls t = some (store, call) → store.body call = .transaction rows →
    (statementsOf effect s t).map .ok = rows.take (s.written t).length
  finishing : ∀ t, stage (s.phase t) = .finishing → Whole calls effect s t
  kept : ∀ t, t ∈ s.batch.ledger.held ∨ t ∈ s.batch.ledger.durable → Whole calls effect s t
  unwritten : ∀ t, stage (s.phase t) = .bystander → s.written t = []

def Allowed (calls : Calls info) (effect : Write → Statement Key Row) (s : Sys) (e : Event) : Prop :=
  KeepsTransaction s e ∧ Follows calls effect s e

theorem written_move (move : Move cap s e s') : s'.written = s.written ∨
    ∃ t value, e = .write t value ∧ s.phase t = .jobHeld false ∧
      s'.written = Function.update s.written t (s.written t ++ [value]) := by
  cases move with
  | @wroteJob t value phase => exact .inr ⟨t, value, rfl, phase, rfl⟩
  | requested phase =>
      unfold Sys.request
      split <;> exact .inl rfl
  | left phase =>
      rename_i first rest next
      cases first with
      | slot => exact .inl rfl
      | guard =>
          simp only [Sys.dropOwned, Sys.unlock]
          split <;> exact .inl rfl
  | _ => exact .inl rfl

theorem Whole.length (whole : Whole calls effect s t) {store : Store info} {call : Call info} {rows : List Prepared}
    (here : calls t = some (store, call)) (opens : store.body call = .transaction rows) :
    (s.written t).length = rows.length := by
  rw [← whole store call rows here opens]
  simp [statementsOf]

theorem Whole.move (whole : Whole calls effect s t) (follows : Follows calls effect s e) (move : Move cap s e s') :
    Whole calls effect s' t := by
  intro store call rows here opens
  rcases written_move move with same | ⟨u, value, rfl, -, now⟩
  · rw [statementsOf, same]
    exact whole store call rows here opens
  · by_cases own : t = u
    · subst own
      have next := follows store call rows here opens
      rw [whole.length here opens, List.getElem?_eq_none (Nat.le_refl _)] at next
      cases next
    · rw [statementsOf, now, Function.update_of_ne own]
      exact whole store call rows here opens

theorem Staged.finished (staged : Staged calls effect s) (follows : Follows calls effect s (.finish t)) :
    Whole calls effect s t := by
  intro store call rows here opens
  rw [staged.written t store call rows here opens, follows store call rows here opens, List.take_length]

theorem Staged.move (inv : Inv ⟨True, False, False⟩ (max cap 1) s) (staged : Staged calls effect s)
    (allowed : Allowed calls effect s e) (move : Move cap s e s') : Staged calls effect s' := by
  obtain ⟨keeps, follows⟩ := allowed
  constructor
  case written =>
    intro t store call rows here opens
    have before := staged.written t store call rows here opens
    rcases written_move move with same | ⟨u, value, rfl, -, now⟩
    · rw [statementsOf, same]
      exact before
    · by_cases own : t = u
      · subst own
        have next := follows store call rows here opens
        rw [statementsOf, now, Function.update_self, List.map_append, List.map_append, List.length_append,
          List.length_singleton, List.take_add_one, next, ← before]
        rfl
      · rw [statementsOf, now, Function.update_of_ne own]
        exact before
  case finishing =>
    intro t finishing
    rcases stage_move inv move t with other | same | ⟨bystander, -⟩ | ⟨-, rfl⟩
    · rw [other] at finishing
      cases finishing
    · exact (staged.finishing t (same ▸ finishing)).move follows move
    · rw [bystander] at finishing
      cases finishing
    · exact (staged.finished follows).move follows move
  case kept =>
    intro t kept
    rcases kept_by_finish inv (keeps_permits keeps) move kept with held | durable | finishing | rfl
    · exact (staged.kept t (.inl held)).move follows move
    · exact (staged.kept t (.inr durable)).move follows move
    · exact (staged.finishing t finishing).move follows move
    · exact (staged.finished follows).move follows move
  case unwritten =>
    intro t bystander
    have before : s.written t = [] := by
      rcases stage_move inv move t with other | same | ⟨-, unwritten⟩ | ⟨finishing, -⟩
      · rw [other] at bystander
        cases bystander
      · exact staged.unwritten t (same ▸ bystander)
      · exact unwritten
      · rw [finishing] at bystander
        cases bystander
    rcases written_move move with same | ⟨u, value, rfl, held, now⟩
    · rw [same, before]
    · by_cases own : t = u
      · -- a job that holds the lock is no bystander, and a write moves no one
        subst own
        have still : s'.phase t = .jobHeld false := by
          cases move with
          | wroteJob phase => exact phase
          | wroteGuard phase => exact nomatch held.symm.trans phase
          | resumed how => cases how
        rw [still] at bystander
        cases bystander
      · rw [now, Function.update_of_ne own, before]

theorem staged_of_reaches (reaches : (machine cap).Reaches (Allowed calls effect) s) :
    Inv ⟨True, False, False⟩ (max cap 1) s ∧ Staged calls effect s := by
  refine reaches.invariant (fun s => Inv ⟨True, False, False⟩ (max cap 1) s ∧ Staged calls effect s) ⟨.initial, ?_⟩
    fun s e s' inv allowed moved => ?_
  · exact ⟨fun _ _ _ _ _ _ => rfl, nofun, fun _ kept => kept.elim nofun nofun, nofun⟩
  · exact ⟨inv.1.move (keeps_permits allowed.1) (step_move moved), inv.2.move inv.1 allowed (step_move moved)⟩

/-! ## What a committed read sees -/

/-- The committed rows are those of whole jobs, in the order they took the lock. -/
structure Serial (calls : Calls info) (effect : Write → Statement Key Row) (initial : Rows Key Row) (s : Sys)
    (jobs : List TaskId) : Prop where
  order : jobs.Sublist s.taken
  once : jobs.Nodup
  rows : committedRows effect initial s = jobs.foldl (fun rows t => run (statementsOf effect s t) rows) initial
  whole : ∀ t ∈ jobs, Whole calls effect s t

theorem serial_of_reaches (reaches : (machine cap).Reaches (Allowed calls effect) s) :
    Serial calls effect initial s s.batch.ledger.durable := by
  obtain ⟨inv, staged⟩ := staged_of_reaches reaches
  have order : s.batch.ledger.durable.Sublist s.taken := by
    have order := inv.holds.order
    rw [List.append_assoc] at order
    exact (List.sublist_append_left _ _).trans order
  refine ⟨order, order.nodup inv.holds.once, ?_, fun t durable => staged.kept t (.inr durable)⟩
  rw [committedRows, (inv.holds.wholeJobs (by simp)).committed, List.map_flatMap, ← run_flatMap]
  congr 1
  refine List.flatMap_congr fun t _ => ?_
  rw [writesOf, List.map_map]
  rfl

theorem acknowledged_durable (reaches : (machine cap).Reaches (Allowed calls effect) s)
    (ended : s.phase t = .ended (.finished (.ok ()))) : t ∈ s.batch.ledger.durable := by
  have fact := (staged_of_reaches reaches).1.fact t
  rw [ended] at fact
  exact fact

def ReturnedErr : Phase → Prop
  | .ended (.refused _) | .ended .abandoned => True
  | .ended (.finished (.error error)) => error ≠ .unknownOutcome
  | _ => False

theorem ended_stays {ending : Ending} (ended : s.phase t = .ended ending) (moved : step cap s e = some s') :
    s'.phase t = .ended ending := by
  by_cases own : t = task e
  · -- nothing moves a task that has ended
    exfalso
    cases e with
    | call u method =>
        obtain rfl : t = u := own
        simp [step, call, ended] at moved
    | poll u choice =>
        obtain rfl : t = u := own
        simp [step, poll, ended] at moved
    | write u value =>
        obtain rfl : t = u := own
        simp [step, write, ended] at moved
    | autoRollback u =>
        obtain rfl : t = u := own
        simp [step, autoRollback, ended] at moved
    | finish u =>
        obtain rfl : t = u := own
        simp [step, endWith, ended] at moved
    | fail u =>
        obtain rfl : t = u := own
        simp [step, endWith, ended] at moved
    | drop u ran =>
        obtain rfl : t = u := own
        simp [step, drop, ended] at moved
  · rw [(step_move moved).other own, ended]

theorem err_absent (reaches : (machine cap).Reaches (Allowed calls effect) s) (err : ReturnedErr (s.phase t))
    (leads : (machine cap).Leads (Allowed calls effect) s s') : ∀ w ∈ s'.batch.conn.committed, w.job ≠ t := by
  have given (gives : GivesUp (s.phase t)) := gives.absent (fun s e allowed => keeps_permits allowed.1) reaches leads
  cases phase : s.phase t with
  | ended ending =>
      rw [phase] at err given
      cases ending with
      | abandoned => exact given trivial
      | finished result =>
          cases result with
          | ok => exact err.elim
          | error error => exact given err
      | refused error =>
          have still : s'.phase t = .ended (.refused error) := leads.stable (fun s => s.phase t = .ended (.refused error))
            reaches phase fun s e s' _ ended _ moved => ended_stays ended moved
          obtain ⟨inv, staged⟩ := staged_of_reaches (leads.reaches reaches)
          have unwritten := staged.unwritten t (by rw [still]; rfl)
          intro w member
          rw [(inv.holds.wholeJobs (by simp)).committed, List.mem_flatMap] at member
          obtain ⟨u, -, written⟩ := member
          obtain ⟨value, wrote, rfl⟩ := List.mem_map.1 written
          rintro rfl
          rw [unwritten] at wrote
          cases wrote
      | _ => exact err.elim
  | _ =>
      rw [phase] at err
      exact err.elim

end Wamux.Proof.BatchedWrites.Sqlite
