import Mathlib.Data.List.Nodup

/-!
# A FIFO mutex

Each task is the owner of the mutex, one that asked for it (queued, or granted and not yet aware of
it), or away from it. `Exclusive` ties the roles to the holder and the queue, and each operation of
the mutex keeps it.
-/

namespace Wamux.Runs

inductive Role where
  | owner | waiter | away
  deriving DecidableEq

structure Exclusive {ι : Type} (holder : Option ι) (queue : List ι) (role : ι → Role) : Prop where
  owner : ∀ t, role t = .owner → holder = some t
  waiter : ∀ t, role t = .waiter → holder = some t ∨ t ∈ queue
  granted : ∀ t, holder = some t → role t ≠ .away
  queued : ∀ t ∈ queue, role t = .waiter ∧ holder ≠ some t
  once : queue.Nodup
  free : holder = none → queue = []

namespace Exclusive
variable {ι : Type} {holder : Option ι} {queue : List ι} {role role' : ι → Role} {t : ι}

theorem stay (mutex : Exclusive holder queue role) (same : role' t = role t)
    (others : ∀ u, u ≠ t → role' u = role u) : Exclusive holder queue role' := by
  have roles : role' = role := by
    funext u
    by_cases eq : u = t
    · rw [eq, same]
    · exact others u eq
  rwa [roles]

theorem grant (mutex : Exclusive holder queue role) (holds : holder = some t) (now : role' t = .owner)
    (others : ∀ u, u ≠ t → role' u = role u) : Exclusive holder queue role' := by
  refine ⟨fun u owner => ?_, fun u waiter => ?_, fun u held => ?_, fun u queued => ?_, mutex.once, mutex.free⟩
  · by_cases eq : u = t
    · rw [eq, holds]
    · exact mutex.owner u (by rwa [← others u eq])
  · have eq : u ≠ t := by rintro rfl; simp [now] at waiter
    exact mutex.waiter u (by rwa [← others u eq])
  · by_cases eq : u = t
    · simp [eq, now]
    · rw [others u eq]
      exact mutex.granted u held
  · have eq : u ≠ t := by rintro rfl; exact (mutex.queued u queued).2 holds
    rw [others u eq]
    exact mutex.queued u queued

theorem acquire (mutex : Exclusive none queue role) (now : role' t = .waiter)
    (others : ∀ u, u ≠ t → role' u = role u) : Exclusive (some t) queue role' := by
  have empty := mutex.free rfl
  refine ⟨fun u owner => ?_, fun u waiter => ?_, fun u held => ?_, by simp [empty], mutex.once, by simp⟩
  · have eq : u ≠ t := by rintro rfl; simp [now] at owner
    have none := mutex.owner u (by rwa [← others u eq])
    cases none
  · by_cases eq : u = t
    · exact .inl (by rw [eq])
    · rcases mutex.waiter u (by rwa [← others u eq]) with none | queued
      · cases none
      · exact .inr queued
  · rw [Option.some.injEq] at held
    simp [← held, now]

theorem enqueue (mutex : Exclusive holder queue role) (held : holder ≠ none) (before : role t = .away)
    (now : role' t = .waiter) (others : ∀ u, u ≠ t → role' u = role u) :
    Exclusive holder (queue ++ [t]) role' := by
  have notHolder : holder ≠ some t := fun holds => mutex.granted t holds before
  have notQueued : t ∉ queue := fun queued => by
    simpa [before] using (mutex.queued t queued).1
  refine ⟨fun u owner => ?_, fun u waiter => ?_, fun u holds => ?_, fun u queued => ?_, ?_, fun none => ?_⟩
  · have eq : u ≠ t := by rintro rfl; simp [now] at owner
    exact mutex.owner u (by rwa [← others u eq])
  · by_cases eq : u = t
    · exact .inr (by simp [eq])
    · exact (mutex.waiter u (by rwa [← others u eq])).imp_right (List.mem_append_left _)
  · have eq : u ≠ t := by rintro rfl; exact notHolder holds
    rw [others u eq]
    exact mutex.granted u holds
  · rcases List.mem_append.1 queued with earlier | last
    · have eq : u ≠ t := by rintro rfl; exact notQueued earlier
      rw [others u eq]
      exact mutex.queued u earlier
    · rw [List.mem_singleton.1 last]
      exact ⟨now, notHolder⟩
  · refine List.nodup_append.2 ⟨mutex.once, by simp, fun u earlier v last => ?_⟩
    rw [List.mem_singleton.1 last]
    rintro rfl
    exact notQueued earlier
  · exact absurd none held

theorem release (mutex : Exclusive holder queue role) (before : role t = .owner) (now : role' t = .away)
    (others : ∀ u, u ≠ t → role' u = role u) : Exclusive queue.head? queue.tail role' := by
  have holds := mutex.owner t before
  have apart (u : ι) (waits : role' u ≠ .away) : u ≠ t := by rintro rfl; exact waits now
  cases queue with
  | nil =>
      refine ⟨fun u owner => ?_, fun u waiter => ?_, by simp, by simp, List.nodup_nil, by simp⟩
      · have eq := apart u (by simp [owner])
        have same := mutex.owner u (by rwa [← others u eq])
        rw [holds, Option.some.injEq] at same
        exact absurd same.symm eq
      · have eq := apart u (by simp [waiter])
        have same := mutex.waiter u (by rwa [← others u eq])
        rw [holds, Option.some.injEq] at same
        exact absurd (same.resolve_right (by simp)).symm eq
  | cons first rest =>
      obtain ⟨fresh, once⟩ := List.nodup_cons.1 mutex.once
      refine ⟨fun u owner => ?_, fun u waiter => ?_, fun u granted => ?_, fun u queued => ?_, once, by simp⟩
      · have eq := apart u (by simp [owner])
        have same := mutex.owner u (by rwa [← others u eq])
        rw [holds, Option.some.injEq] at same
        exact absurd same.symm eq
      · have eq := apart u (by simp [waiter])
        rcases mutex.waiter u (by rwa [← others u eq]) with same | queued
        · rw [holds, Option.some.injEq] at same
          exact absurd same.symm eq
        · rcases List.mem_cons.1 queued with rfl | later
          · exact .inl rfl
          · exact .inr later
      · have same : first = u := by simpa using granted
        have waits := (mutex.queued first (by simp)).1
        have eq : first ≠ t := by rintro rfl; simp [before] at waits
        rw [← same, others first eq, waits]
        simp
      · have waits := (mutex.queued u (List.mem_cons_of_mem _ queued)).1
        have eq : u ≠ t := by rintro rfl; simp [before] at waits
        refine ⟨by rw [others u eq, waits], fun same => ?_⟩
        have same : first = u := by simpa using same
        exact fresh (same ▸ queued)

theorem cancel [DecidableEq ι] (mutex : Exclusive holder queue role) (queued : holder ≠ some t)
    (now : role' t = .away) (others : ∀ u, u ≠ t → role' u = role u) :
    Exclusive holder (queue.erase t) role' := by
  have apart (u : ι) (waits : role' u ≠ .away) : u ≠ t := by rintro rfl; exact waits now
  refine ⟨fun u owner => ?_, fun u waiter => ?_, fun u holds => ?_, fun u member => ?_, mutex.once.erase t,
    fun none => by simp [mutex.free none]⟩
  · have eq := apart u (by simp [owner])
    exact mutex.owner u (by rwa [← others u eq])
  · have eq := apart u (by simp [waiter])
    exact (mutex.waiter u (by rwa [← others u eq])).imp_right (List.mem_erase_of_ne eq).2
  · have eq : u ≠ t := by rintro rfl; exact queued holds
    rw [others u eq]
    exact mutex.granted u holds
  · obtain ⟨eq, earlier⟩ := mutex.once.mem_erase_iff.1 member
    rw [others u eq]
    exact mutex.queued u earlier

end Exclusive
end Wamux.Runs
