import Mathlib.Data.List.Nodup
import Mathlib.Data.List.Pairwise
import Wamux.Accounts.Registry

namespace Wamux.Proof.Accounts.Index
open Wamux.Accounts.Registry Wamux.Runs Wamux.Runs.Machine

variable {max : Nat} {s s' : State} {row : AccountRow}

/-! ## The calls under way -/

def toIndex : Call → List AccountRow
  | .inserting (.byExternal row) rest => row :: rest.getD []
  | .inserting (.handles _) rest | .inserting (.notify _) rest => rest.getD []
  | _ => []

def toRegister : Call → List AccountRow
  | .inserting (.byExternal row) rest | .inserting (.handles row) rest => row :: rest.getD []
  | .inserting (.notify _) rest => rest.getD []
  | _ => []

/-- Before a `load_existing` has read the table it has every account to enter. -/
def Indexing (s : State) (row : AccountRow) : Prop := ∃ call ∈ s.calls, call = .listRows ∨ row ∈ toIndex call

def Registering (s : State) (row : AccountRow) : Prop := ∃ call ∈ s.calls, call = .listRows ∨ row ∈ toRegister call

def Unindexing (s : State) (row : AccountRow) : Prop := ∃ h, Call.removeIndex h ∈ s.calls ∧ s.objects[h]? = some row

def Unregistering (s : State) (row : AccountRow) : Prop :=
  ∃ h, (Call.removeIndex h ∈ s.calls ∨ Call.removeHandle h ∈ s.calls) ∧ s.objects[h]? = some row

def finished : Call → Bool
  | .created _ | .done | .failed => true
  | _ => false

def AtRest (s : State) : Prop := ∀ call ∈ s.calls, finished call = true

structure Agrees (s : State) : Prop where
  index : ∀ e u, s.byExternal e = some u ↔
    ∃ h row, s.handles u = some h ∧ s.objects[h]? = some row ∧ row.externalRef = some e
  handles : ∀ u, (s.handles u).isSome = true ↔ ∃ row ∈ s.table.rows, row.uuid = u
  resolves : ∀ row ∈ s.table.rows, ∀ e, row.externalRef = some e →
    ∃ h, resolve s (.external e) = some h ∧ s.objects[h]? = some row

def AllIndexing (s : State) (e : String) : Prop := ∀ row ∈ s.table.rows, row.externalRef = some e → Indexing s row

/-- An entry is written for an account the table no longer holds only while a `delete` has still to
remove it; and the index entry of a reference is written or removed for such an account only while
the accounts the table holds under it have still to be entered. -/
def Orderly (s : State) : Event → Prop
  | .next i _ => match s.calls[i]? with
      | some (.inserting (.byExternal row) _) => row ∈ s.table.rows ∨
          ∀ e, row.externalRef = some e → Unindexing s row ∧ AllIndexing s e
      | some (.inserting (.handles row) _) => row ∈ s.table.rows ∨ Unregistering s row
      | some (.removeIndex h) => ∀ row e, s.objects[h]? = some row → row.externalRef = some e → AllIndexing s e
      | _ => True
  | _ => True

structure Inv (s : State) : Prop where
  drawn : (s.drawn.map AccountRow.uuid).Nodup
  stored : ∀ row ∈ s.table.rows, row ∈ s.drawn
  made : ∀ row ∈ s.objects, row ∈ s.drawn
  coming : ∀ call ∈ s.calls, ∀ row ∈ toRegister call, row ∈ s.drawn
  gone : ∀ h, Call.removeIndex h ∈ s.calls ∨ Call.removeHandle h ∈ s.calls →
    ∃ row, s.objects[h]? = some row ∧ row ∉ s.table.rows
  index : ∀ row ∈ s.table.rows, ∀ e, row.externalRef = some e → Indexing s row ∨ s.byExternal e = some row.uuid
  indexed : ∀ e u, s.byExternal e = some u →
    ∃ row, row.uuid = u ∧ row.externalRef = some e ∧ (row ∈ s.table.rows ∨ Unindexing s row)
  handles : ∀ row ∈ s.table.rows, Registering s row ∨ (s.handles row.uuid).isSome = true
  registered : ∀ u h, s.handles u = some h →
    ∃ row, s.objects[h]? = some row ∧ row.uuid = u ∧ (row ∈ s.table.rows ∨ Unregistering s row)

theorem Inv.agrees (inv : Inv s) (rest : AtRest s) : Agrees s := by
  have unindexing (row : AccountRow) : ¬Unindexing s row := by
    rintro ⟨h, member, -⟩
    cases rest _ member
  have unregistering (row : AccountRow) : ¬Unregistering s row := by
    rintro ⟨h, member | member, -⟩
    · cases rest _ member
    · cases rest _ member
  have quiet (row : AccountRow) : ¬Registering s row ∧ ¬Indexing s row := by
    constructor
    · rintro ⟨call, member, pending⟩
      have past := rest call member
      cases call <;> simp_all [toRegister, finished]
    · rintro ⟨call, member, pending⟩
      have past := rest call member
      cases call <;> simp_all [toIndex, finished]
  have same {row other : AccountRow} (mine : row ∈ s.drawn) (its : other ∈ s.drawn) (uuid : row.uuid = other.uuid) :
      row = other := List.inj_on_of_nodup_map inv.drawn mine its uuid
  have handle (row : AccountRow) (member : row ∈ s.table.rows) :
      ∃ h, s.handles row.uuid = some h ∧ s.objects[h]? = some row := by
    have some := (inv.handles row member).resolve_left (quiet row).1
    obtain ⟨h, found⟩ := Option.isSome_iff_exists.1 some
    obtain ⟨other, object, uuid, -⟩ := inv.registered _ h found
    have its := inv.made other (List.mem_of_getElem? object)
    exact ⟨h, found, same its (inv.stored row member) uuid ▸ object⟩
  have entry (row : AccountRow) (member : row ∈ s.table.rows) (e : String) (ref : row.externalRef = some e) :
      s.byExternal e = some row.uuid := (inv.index row member e ref).resolve_left (quiet row).2
  refine ⟨?_, ?_, ?_⟩
  · intro e u
    constructor
    · intro found
      obtain ⟨row, rfl, ref, member | pending⟩ := inv.indexed e u found
      · obtain ⟨h, here, object⟩ := handle row member
        exact ⟨h, row, here, object, ref⟩
      · exact absurd pending (unindexing row)
    · rintro ⟨h, row, here, object, ref⟩
      obtain ⟨other, its, rfl, member | pending⟩ := inv.registered u h here
      · rw [object] at its
        cases its
        exact entry row member e ref
      · exact absurd pending (unregistering other)
  · intro u
    constructor
    · intro some
      obtain ⟨h, found⟩ := Option.isSome_iff_exists.1 some
      obtain ⟨row, -, uuid, member | pending⟩ := inv.registered u h found
      · exact ⟨row, member, uuid⟩
      · exact absurd pending (unregistering row)
    · rintro ⟨row, member, rfl⟩
      obtain ⟨h, found, -⟩ := handle row member
      rw [found]
      rfl
  · intro row member e ref
    obtain ⟨h, found, object⟩ := handle row member
    refine ⟨h, ?_, object⟩
    simp only [resolve, entry row member e ref, Option.bind_some, found]

/-! ## One call moves -/

section Moves
variable {i : CallId} {before after : Call}

theorem kept_set {call : Call} (here : s.calls[i]? = some before) (member : call ∈ s.calls) (other : call ≠ before) :
    call ∈ s.calls.set i after := by
  obtain ⟨j, found⟩ := List.mem_iff_getElem?.1 member
  have differ : i ≠ j := by
    rintro rfl
    rw [here] at found
    cases found
    exact other rfl
  exact List.mem_of_getElem? (i := j) (by rw [List.getElem?_set_ne differ, found])

theorem after_mem (here : s.calls[i]? = some before) : after ∈ s.calls.set i after :=
  List.mem_set (List.getElem?_eq_some_iff.1 here).1 after

theorem exists_set {P : Call → Prop} (here : s.calls[i]? = some before) (some : ∃ call ∈ s.calls, P call)
    (moves : P before → P after) : ∃ call ∈ s.calls.set i after, P call := by
  obtain ⟨call, member, holds⟩ := some
  by_cases same : call = before
  · subst same
    exact ⟨after, after_mem here, moves holds⟩
  · exact ⟨call, kept_set here member same, holds⟩

end Moves

def removes : Call → Bool
  | .removeIndex _ | .removeHandle _ => true
  | _ => false

theorem removals_set {i : CallId} {before after call : Call} (here : s.calls[i]? = some before)
    (quiet : removes before = false ∧ removes after = false) (removing : removes call = true) :
    call ∈ s.calls.set i after ↔ call ∈ s.calls := by
  constructor
  · intro member
    rcases List.mem_or_eq_of_mem_set member with before | rfl
    · exact before
    · rw [quiet.2] at removing
      cases removing
  · intro member
    apply kept_set here member
    rintro rfl
    rw [quiet.1] at removing
    cases removing

theorem Inv.calls (inv : Inv s) (calls : List Call)
    (index : ∀ row ∈ s.table.rows, ∀ e, row.externalRef = some e → Indexing s row →
      Indexing { s with calls := calls } row ∨ s.byExternal e = some row.uuid)
    (register : ∀ row ∈ s.table.rows, Registering s row →
      Registering { s with calls := calls } row ∨ (s.handles row.uuid).isSome = true)
    (coming : ∀ call ∈ calls, ∀ row ∈ toRegister call, row ∈ s.drawn)
    (removing : ∀ call, removes call = true → (call ∈ calls ↔ call ∈ s.calls)) : Inv { s with calls := calls } := by
  have unindexing (row : AccountRow) : Unindexing { s with calls := calls } row ↔ Unindexing s row :=
    exists_congr fun h => and_congr_left fun _ => removing (.removeIndex h) rfl
  have unregistering (row : AccountRow) : Unregistering { s with calls := calls } row ↔ Unregistering s row :=
    exists_congr fun h => and_congr_left fun _ =>
      or_congr (removing (.removeIndex h) rfl) (removing (.removeHandle h) rfl)
  refine ⟨inv.drawn, inv.stored, inv.made, coming, ?_, ?_, ?_, ?_, ?_⟩
  · intro h member
    exact inv.gone h (member.imp (removing (.removeIndex h) rfl).1 (removing (.removeHandle h) rfl).1)
  · intro row member e ref
    rcases inv.index row member e ref with pending | entry
    · exact index row member e ref pending
    · exact .inr entry
  · intro e u found
    obtain ⟨row, uuid, ref, stored⟩ := inv.indexed e u found
    exact ⟨row, uuid, ref, stored.imp_right (unindexing row).2⟩
  · intro row member
    rcases inv.handles row member with pending | entry
    · exact register row member pending
    · exact .inr entry
  · intro u h found
    obtain ⟨row, object, uuid, stored⟩ := inv.registered u h found
    exact ⟨row, object, uuid, stored.imp_right (unregistering row).2⟩

theorem Inv.moves {i : CallId} {before after : Call} (inv : Inv s) (here : s.calls[i]? = some before)
    (index : ∀ row ∈ toIndex before, row ∈ toIndex after ∨ row ∉ s.table.rows ∨
      ∀ e, row.externalRef = some e → s.byExternal e = some row.uuid)
    (register : ∀ row ∈ toRegister before, row ∈ toRegister after ∨ (s.handles row.uuid).isSome = true)
    (coming : ∀ row ∈ toRegister after, row ∈ toRegister before ∨ row ∈ s.table.rows)
    (listed : before = .listRows → ∀ row ∈ s.table.rows, row ∈ toIndex after ∧ row ∈ toRegister after)
    (quiet : removes before = false ∧ removes after = false) : Inv (s.setCall i after) := by
  apply inv.calls
  · intro row member e ref pending
    by_cases mine : row ∈ toIndex before → row ∈ toIndex after
    · exact .inl (exists_set here pending fun its => .inr (its.elim (fun load => (listed load row member).1) mine))
    · rw [Classical.not_imp] at mine
      rcases index row mine.1 with still | gone | entered
      · exact absurd still mine.2
      · exact absurd member gone
      · exact .inr (entered e ref)
  · intro row member pending
    by_cases mine : row ∈ toRegister before → row ∈ toRegister after
    · exact .inl (exists_set here pending fun its => .inr (its.elim (fun load => (listed load row member).2) mine))
    · rw [Classical.not_imp] at mine
      exact .inr ((register row mine.1).resolve_left mine.2)
  · intro call member row pending
    rcases List.mem_or_eq_of_mem_set member with its | rfl
    · exact inv.coming call its row pending
    · rcases coming row pending with mine | stored
      · exact inv.coming before (List.mem_of_getElem? here) row mine
      · exact inv.stored row stored
  · exact fun call removing => removals_set here quiet removing

/-! ## Each step -/

theorem Inv.unique (inv : Inv s) {row other : AccountRow} (mine : row ∈ s.drawn) (its : other ∈ s.drawn)
    (uuid : row.uuid = other.uuid) : row = other := List.inj_on_of_nodup_map inv.drawn mine its uuid

theorem refs_unique {table : Table} {row other : AccountRow} {e : String} (mine : row ∈ table.rows)
    (its : other ∈ table.rows) (ref : row.externalRef = some e) (ref' : other.externalRef = some e) : row = other := by
  have apart := List.pairwise_filterMap.1 table.refs
  by_contra differ
  have symmetric : Std.Symm fun a a' : AccountRow =>
      ∀ b, a.externalRef = some b → ∀ b', a'.externalRef = some b' → b ≠ b' :=
    ⟨fun a a' apart b mine b' its => (apart b' its b mine).symm⟩
  exact apart.forall mine its differ e ref e ref' rfl

theorem Inv.indexes {i : CallId} {rest : Option (List AccountRow)} (inv : Inv s)
    (here : s.calls[i]? = some (.inserting (.byExternal row) rest))
    (orderly : row ∈ s.table.rows ∨ ∀ e, row.externalRef = some e → Unindexing s row ∧ AllIndexing s e) :
    Inv (insertNext s i rest (.byExternal row)) := by
  cases ref : row.externalRef with
  | none =>
      simp only [insertNext, ref]
      apply inv.moves here
      · intro other member
        rcases List.mem_cons.1 member with rfl | later
        · exact .inr (.inr (by simp [ref]))
        · exact .inl later
      · exact fun other member => .inl member
      · exact fun other member => .inl member
      · exact nofun
      · exact ⟨rfl, rfl⟩
  | some e =>
      have entered : Inv { s with byExternal := Function.update s.byExternal e (some row.uuid) } := by
        refine ⟨inv.drawn, inv.stored, inv.made, inv.coming, inv.gone, ?_, ?_, inv.handles, inv.registered⟩
        · intro other member e' ref'
          by_cases same : e' = e
          · subst same
            rcases orderly with stored | late
            · rw [refs_unique member stored ref' ref]
              exact .inr (Function.update_self ..)
            · exact .inl ((late e' ref).2 other member ref')
          · dsimp only
            rw [Function.update_of_ne same]
            exact inv.index other member e' ref'
        · intro e' u found
          dsimp only at found
          by_cases same : e' = e
          · subst same
            rw [Function.update_self, Option.some.injEq] at found
            exact ⟨row, found, ref, orderly.imp_right fun late => (late e' ref).1⟩
          · rw [Function.update_of_ne same] at found
            exact inv.indexed e' u found
      simp only [insertNext, ref]
      apply entered.moves here
      · intro other member
        rcases List.mem_cons.1 member with rfl | later
        · refine .inr (.inr ?_)
          intro e' ref'
          rw [ref] at ref'
          cases ref'
          exact Function.update_self ..
        · exact .inl later
      · exact fun other member => .inl member
      · exact fun other member => .inl member
      · exact nofun
      · exact ⟨rfl, rfl⟩

theorem object_append {objects : List AccountRow} {h : HandleId} {other : AccountRow}
    (object : objects[h]? = some other) : (objects ++ [row])[h]? = some other := by
  rw [List.getElem?_append_left (List.getElem?_eq_some_iff.1 object).1, object]

theorem Inv.registers {i : CallId} {rest : Option (List AccountRow)} (inv : Inv s)
    (here : s.calls[i]? = some (.inserting (.handles row) rest))
    (orderly : row ∈ s.table.rows ∨ Unregistering s row) : Inv (insertNext s i rest (.handles row)) := by
  have drawn : row ∈ s.drawn := inv.coming _ (List.mem_of_getElem? here) row List.mem_cons_self
  have unindexing (other : AccountRow) (pending : Unindexing s other) :
      Unindexing { s with objects := s.objects ++ [row] } other := by
    obtain ⟨h, member, object⟩ := pending
    exact ⟨h, member, object_append object⟩
  have unregistering (other : AccountRow) (pending : Unregistering s other) :
      Unregistering { s with objects := s.objects ++ [row] } other := by
    obtain ⟨h, member, object⟩ := pending
    exact ⟨h, member, object_append object⟩
  have entered : Inv { s with objects := s.objects ++ [row],
                              handles := Function.update s.handles row.uuid (some s.objects.length) } := by
    refine ⟨inv.drawn, inv.stored, ?_, inv.coming, ?_, inv.index, ?_, ?_, ?_⟩
    · intro other member
      rcases List.mem_append.1 member with before | now
      · exact inv.made other before
      · rw [List.mem_singleton.1 now]
        exact drawn
    · intro h member
      obtain ⟨other, object, gone⟩ := inv.gone h member
      exact ⟨other, object_append object, gone⟩
    · intro e u found
      obtain ⟨other, uuid, ref, stored⟩ := inv.indexed e u found
      exact ⟨other, uuid, ref, stored.imp_right (unindexing other)⟩
    · intro other member
      dsimp only
      by_cases same : other.uuid = row.uuid
      · rw [same, Function.update_self]
        exact .inr rfl
      · rw [Function.update_of_ne same]
        exact inv.handles other member
    · intro u h found
      dsimp only at found
      by_cases same : u = row.uuid
      · subst same
        rw [Function.update_self, Option.some.injEq] at found
        subst found
        exact ⟨row, by simp, rfl, orderly.imp_right (unregistering row)⟩
      · rw [Function.update_of_ne same] at found
        obtain ⟨other, object, uuid, stored⟩ := inv.registered u h found
        exact ⟨other, object_append object, uuid, stored.imp_right (unregistering other)⟩
  apply entered.moves here
  · exact fun other member => .inl member
  · intro other member
    rcases List.mem_cons.1 member with rfl | later
    · exact .inr (by simp)
    · exact .inl later
  · exact fun other member => .inl (List.mem_cons_of_mem _ member)
  · exact nofun
  · exact ⟨rfl, rfl⟩

theorem Inv.deletes {i : CallId} {h : HandleId} (inv : Inv s) (here : s.calls[i]? = some (.deleteRow h))
    (object : s.objects[h]? = some row) :
    Inv ({ s with table := s.table.delete row.uuid }.setCall i (.removeIndex h)) := by
  have mine := inv.made row (List.mem_of_getElem? object)
  have stays {other : AccountRow} : other ∈ (s.table.delete row.uuid).rows ↔
      other ∈ s.table.rows ∧ other.uuid ≠ row.uuid := by
    simp [Table.delete]
  have removing : Call.removeIndex h ∈ s.calls.set i (.removeIndex h) := after_mem here
  have kept {call : Call} (member : call ∈ s.calls) (other : call ≠ .deleteRow h) :
      call ∈ s.calls.set i (.removeIndex h) := kept_set here member other
  have still (other : AccountRow) (member : other ∈ s.table.rows) :
      other ∈ (s.table.delete row.uuid).rows ∨ other = row := by
    by_cases same : other.uuid = row.uuid
    · exact .inr (inv.unique (inv.stored other member) mine same)
    · exact .inl (stays.2 ⟨member, same⟩)
  refine ⟨inv.drawn, ?_, inv.made, ?_, ?_, ?_, ?_, ?_, ?_⟩
  · exact fun other member => inv.stored other (stays.1 member).1
  · intro call member other pending
    rcases List.mem_or_eq_of_mem_set member with before | rfl
    · exact inv.coming call before other pending
    · cases pending
  · intro h' member
    have before : h' = h ∨ Call.removeIndex h' ∈ s.calls ∨ Call.removeHandle h' ∈ s.calls := by
      rcases member with member | member
      · rcases List.mem_or_eq_of_mem_set member with before | now
        · exact .inr (.inl before)
        · cases now
          exact .inl rfl
      · rcases List.mem_or_eq_of_mem_set member with before | now
        · exact .inr (.inr before)
        · cases now
    rcases before with rfl | before
    · exact ⟨row, object, fun member => (stays.1 member).2 rfl⟩
    · obtain ⟨other, its, gone⟩ := inv.gone h' before
      exact ⟨other, its, fun member => gone (stays.1 member).1⟩
  · intro other member e ref
    exact (inv.index other (stays.1 member).1 e ref).imp_left fun pending => exists_set here pending (by simp [toIndex])
  · intro e u found
    obtain ⟨other, uuid, ref, stored⟩ := inv.indexed e u found
    refine ⟨other, uuid, ref, ?_⟩
    rcases stored with member | ⟨h', pending, its⟩
    · rcases still other member with stored | rfl
      · exact .inl stored
      · exact .inr ⟨h, removing, object⟩
    · exact .inr ⟨h', kept pending (by simp), its⟩
  · intro other member
    exact (inv.handles other (stays.1 member).1).imp_left fun pending => exists_set here pending (by simp [toRegister])
  · intro u h' found
    obtain ⟨other, its, uuid, stored⟩ := inv.registered u h' found
    refine ⟨other, its, uuid, ?_⟩
    rcases stored with member | ⟨h', pending, its⟩
    · rcases still other member with stored | rfl
      · exact .inl stored
      · exact .inr ⟨h, .inl removing, object⟩
    · exact .inr ⟨h', pending.imp (kept · (by simp)) (kept · (by simp)), its⟩

theorem Inv.unindexes {i : CallId} {h : HandleId} (inv : Inv s) (here : s.calls[i]? = some (.removeIndex h))
    (object : s.objects[h]? = some row) (orderly : ∀ e, row.externalRef = some e → AllIndexing s e) :
    Inv ({ s with byExternal := match row.externalRef with
        | some e => Function.update s.byExternal e none
        | none => s.byExternal }.setCall i (.removeHandle h)) := by
  have kept {call : Call} (member : call ∈ s.calls) (other : call ≠ .removeIndex h) :
      call ∈ s.calls.set i (.removeHandle h) := kept_set here member other
  have removing : Call.removeHandle h ∈ s.calls.set i (.removeHandle h) := after_mem here
  have entry (e : String) : row.externalRef = some e ∨ row.externalRef ≠ some e ∧
      (match row.externalRef with
        | some e => Function.update s.byExternal e none
        | none => s.byExternal) e = s.byExternal e := by
    cases ref : row.externalRef with
    | none => exact .inr ⟨nofun, rfl⟩
    | some own =>
        by_cases same : own = e
        · exact .inl (congrArg some same)
        · refine .inr ⟨fun equal => same (Option.some.inj equal), ?_⟩
          exact Function.update_of_ne (Ne.symm same) ..
  refine ⟨inv.drawn, inv.stored, inv.made, ?_, ?_, ?_, ?_, ?_, ?_⟩
  · intro call member other pending
    rcases List.mem_or_eq_of_mem_set member with before | rfl
    · exact inv.coming call before other pending
    · cases pending
  · intro h' member
    rcases member with member | member
    · rcases List.mem_or_eq_of_mem_set member with before | now
      · exact inv.gone h' (.inl before)
      · cases now
    · rcases List.mem_or_eq_of_mem_set member with before | now
      · exact inv.gone h' (.inr before)
      · cases now
        exact inv.gone h (.inl (List.mem_of_getElem? here))
  · intro other member e ref
    have moves (pending : Indexing s other) :
        ∃ call ∈ s.calls.set i (.removeHandle h), call = .listRows ∨ other ∈ toIndex call :=
      exists_set here pending (by simp [toIndex])
    rcases entry e with own | ⟨-, same⟩
    · exact .inl (moves (orderly e own other member ref))
    · exact (inv.index other member e ref).imp moves same.trans
  · intro e u found
    rcases entry e with own | ⟨differ, same⟩
    · simp only [State.setCall, own, Function.update_self, reduceCtorEq] at found
    · obtain ⟨other, uuid, ref, stored⟩ := inv.indexed e u (same.symm.trans found)
      refine ⟨other, uuid, ref, stored.imp_right ?_⟩
      rintro ⟨h', pending, its⟩
      refine ⟨h', kept pending ?_, its⟩
      rintro ⟨⟩
      rw [object] at its
      cases its
      exact differ ref
  · intro other member
    exact (inv.handles other member).imp_left fun pending => exists_set here pending (by simp [toRegister])
  · intro u h' found
    obtain ⟨other, its, uuid, stored⟩ := inv.registered u h' found
    refine ⟨other, its, uuid, stored.imp_right ?_⟩
    rintro ⟨h', pending, its⟩
    by_cases same : h' = h
    · exact ⟨h', .inr (same ▸ removing), its⟩
    · exact ⟨h', pending.imp (kept · (by simp [same])) (kept · (by simp)), its⟩

theorem Inv.unregisters {i : CallId} {h : HandleId} (inv : Inv s) (here : s.calls[i]? = some (.removeHandle h))
    (object : s.objects[h]? = some row) :
    Inv ({ s with handles := Function.update s.handles row.uuid none }.setCall i .done) := by
  have kept {call : Call} (member : call ∈ s.calls) (other : call ≠ .removeHandle h) :
      call ∈ s.calls.set i .done := kept_set here member other
  have away : row ∉ s.table.rows := by
    obtain ⟨other, its, gone⟩ := inv.gone h (.inr (List.mem_of_getElem? here))
    rw [object] at its
    cases its
    exact gone
  refine ⟨inv.drawn, inv.stored, inv.made, ?_, ?_, ?_, ?_, ?_, ?_⟩
  · intro call member other pending
    rcases List.mem_or_eq_of_mem_set member with before | rfl
    · exact inv.coming call before other pending
    · cases pending
  · intro h' member
    apply inv.gone h'
    rcases member with member | member
    · rcases List.mem_or_eq_of_mem_set member with before | now
      · exact .inl before
      · cases now
    · rcases List.mem_or_eq_of_mem_set member with before | now
      · exact .inr before
      · cases now
  · intro other member e ref
    exact (inv.index other member e ref).imp_left fun pending => exists_set here pending (by simp [toIndex])
  · intro e u found
    obtain ⟨other, uuid, ref, stored⟩ := inv.indexed e u found
    refine ⟨other, uuid, ref, stored.imp_right ?_⟩
    rintro ⟨h', pending, its⟩
    exact ⟨h', kept pending (by simp), its⟩
  · intro other member
    have differ : other.uuid ≠ row.uuid := by
      intro same
      exact away (inv.unique (inv.stored other member) (inv.made row (List.mem_of_getElem? object)) same ▸ member)
    dsimp only [State.setCall]
    rw [Function.update_of_ne differ]
    exact (inv.handles other member).imp_left fun pending => exists_set here pending (by simp [toRegister])
  · intro u h' found
    dsimp only [State.setCall] at found
    by_cases same : u = row.uuid
    · rw [same, Function.update_self] at found
      cases found
    · rw [Function.update_of_ne same] at found
      obtain ⟨other, its, uuid, stored⟩ := inv.registered u h' found
      refine ⟨other, its, uuid, stored.imp_right ?_⟩
      rintro ⟨h'', pending, its'⟩
      refine ⟨h'', pending.imp (kept · (by simp)) (kept · ?_), its'⟩
      rintro ⟨⟩
      rw [object] at its'
      cases its'
      exact same uuid.symm

theorem Inv.creates {i : CallId} {externalRef : Option String} {table : Table} (inv : Inv s)
    (here : s.calls[i]? = some (.createRow externalRef)) (fresh : row.uuid ∉ s.drawn.map AccountRow.uuid)
    (inserted : s.table.insert row = some table) :
    Inv ({ s with table := table, drawn := s.drawn ++ [row] }.setCall i (.inserting (.byExternal row) none)) := by
  have rows : table.rows = s.table.rows ++ [row] := by
    unfold Table.insert at inserted
    split at inserted
    · cases inserted
      rfl
    · cases inserted
  have new (other : AccountRow) (drawn : other ∈ s.drawn) : other ≠ row := by
    rintro rfl
    exact fresh (List.mem_map_of_mem drawn)
  have stored {other : AccountRow} : other ∈ table.rows ↔ other ∈ s.table.rows ∨ other = row := by simp [rows]
  have entering : Call.inserting (.byExternal row) none ∈ s.calls.set i (.inserting (.byExternal row) none) :=
    after_mem here
  have kept {call : Call} (member : call ∈ s.calls) (other : call ≠ .createRow externalRef) :
      call ∈ s.calls.set i (.inserting (.byExternal row) none) := kept_set here member other
  refine ⟨Table.uuids_append inv.drawn fresh, ?_, ?_, ?_, ?_, ?_, ?_, ?_, ?_⟩
  · intro other member
    rcases stored.1 member with before | rfl
    · exact List.mem_append_left _ (inv.stored other before)
    · exact List.mem_append_right _ (List.mem_singleton.2 rfl)
  · exact fun other member => List.mem_append_left _ (inv.made other member)
  · intro call member other pending
    rcases List.mem_or_eq_of_mem_set member with before | rfl
    · exact List.mem_append_left _ (inv.coming call before other pending)
    · exact List.mem_append_right _ pending
  · intro h member
    have before : Call.removeIndex h ∈ s.calls ∨ Call.removeHandle h ∈ s.calls :=
      member.imp (removals_set here ⟨rfl, rfl⟩ rfl).1 (removals_set here ⟨rfl, rfl⟩ rfl).1
    obtain ⟨other, object, gone⟩ := inv.gone h before
    refine ⟨other, object, fun member => ?_⟩
    rcases stored.1 member with still | same
    · exact gone still
    · exact new other (inv.made other (List.mem_of_getElem? object)) same
  · intro other member e ref
    rcases stored.1 member with before | rfl
    · exact (inv.index other before e ref).imp_left fun pending => exists_set here pending (by simp [toIndex])
    · exact .inl ⟨_, entering, .inr List.mem_cons_self⟩
  · intro e u found
    obtain ⟨other, uuid, ref, before⟩ := inv.indexed e u found
    refine ⟨other, uuid, ref, before.imp (fun member => stored.2 (.inl member)) ?_⟩
    rintro ⟨h, pending, its⟩
    exact ⟨h, kept pending (by simp), its⟩
  · intro other member
    rcases stored.1 member with before | rfl
    · exact (inv.handles other before).imp_left fun pending => exists_set here pending (by simp [toRegister])
    · exact .inl ⟨_, entering, .inr List.mem_cons_self⟩
  · intro u h found
    obtain ⟨other, object, uuid, before⟩ := inv.registered u h found
    refine ⟨other, object, uuid, before.imp (fun member => stored.2 (.inl member)) ?_⟩
    rintro ⟨h', pending, its⟩
    exact ⟨h', pending.imp (kept · (by simp)) (kept · (by simp)), its⟩

theorem Inv.turns {i : CallId} {before after : Call} (inv : Inv s) (here : s.calls[i]? = some before)
    (enters : toIndex before = [] ∧ toRegister before = []) (entering : toRegister after = [])
    (listed : before ≠ .listRows) (quiet : removes before = false ∧ removes after = false) : Inv (s.setCall i after) := by
  apply inv.moves here
  · intro other member
    rw [enters.1] at member
    cases member
  · intro other member
    rw [enters.2] at member
    cases member
  · intro other member
    rw [entering] at member
    cases member
  · exact fun load => absurd load listed
  · exact quiet

theorem Inv.called {call : Call} (inv : Inv s) (enters : toRegister call = []) (quiet : removes call = false) :
    Inv { s with calls := s.calls ++ [call] } := by
  apply inv.calls
  · exact fun other _ _ _ ⟨call, member, pending⟩ => .inl ⟨call, List.mem_append_left _ member, pending⟩
  · exact fun other _ ⟨call, member, pending⟩ => .inl ⟨call, List.mem_append_left _ member, pending⟩
  · intro call' member other pending
    rcases List.mem_append.1 member with before | now
    · exact inv.coming call' before other pending
    · rw [List.mem_singleton.1 now, enters] at pending
      cases pending
  · intro other removing
    rw [List.mem_append, List.mem_singleton, or_iff_left]
    rintro rfl
    rw [quiet] at removing
    cases removing

theorem Inv.beside (inv : Inv s) (accounts : HandleId → Accounts.State) (connected : Nat)
    (notices : List HandleId) : Inv { s with accounts := accounts, connected := connected, notices := notices } :=
  ⟨inv.drawn, inv.stored, inv.made, inv.coming, inv.gone, inv.index, inv.indexed, inv.handles, inv.registered⟩

theorem Inv.stepHandle {h : HandleId} {e : Accounts.Event} (inv : Inv s)
    (stepped : stepHandle max s h e = some s') : Inv s' ∧ s'.calls = s.calls := by
  unfold Accounts.Registry.stepHandle at stepped
  split at stepped
  · obtain ⟨account, -, rfl⟩ := Option.map_eq_some_iff.1 stepped
    exact ⟨inv.beside _ _ s.notices, rfl⟩
  · cases stepped

theorem Inv.continues {i : CallId} {h : HandleId} {rest : Option (List AccountRow)} (inv : Inv s)
    (here : s.calls[i]? = some (.inserting (.notify h) rest)) : Inv (insertNext s i rest (.notify h)) := by
  have same : toRegister (continueLoad h rest) = rest.getD [] ∧ toIndex (continueLoad h rest) = rest.getD [] ∧
      removes (continueLoad h rest) = false := by
    cases rest with
    | none => exact ⟨rfl, rfl, rfl⟩
    | some rows => cases rows <;> exact ⟨rfl, rfl, rfl⟩
  refine (inv.beside s.accounts s.connected (s.notices ++ [h])).moves here ?_ ?_ ?_ nofun ⟨rfl, same.2.2⟩
  · intro other member
    exact .inl (same.2.1.symm ▸ member)
  · intro other member
    exact .inl (same.1.symm ▸ member)
  · intro other member
    rw [same.1] at member
    exact .inl member

theorem Inv.lists {i : CallId} (inv : Inv s) (here : s.calls[i]? = some .listRows) :
    Inv (s.setCall i (match s.table.rows with
      | [] => .done
      | row :: rest => .inserting (.byExternal row) (some rest))) := by
  cases rows : s.table.rows with
  | nil =>
      apply inv.moves here
      · exact fun other member => absurd member List.not_mem_nil
      · exact fun other member => absurd member List.not_mem_nil
      · exact fun other member => absurd member List.not_mem_nil
      · intro _ other member
        rw [rows] at member
        cases member
      · exact ⟨rfl, rfl⟩
  | cons row rest =>
      apply inv.moves here
      · exact fun other member => absurd member List.not_mem_nil
      · exact fun other member => absurd member List.not_mem_nil
      · exact fun other member => .inr (rows ▸ member)
      · intro _ other member
        rw [rows] at member
        exact ⟨member, member⟩
      · exact ⟨rfl, rfl⟩

theorem Inv.callNext {i : CallId} {uuid : Uuid} {call : Call} (inv : Inv s) (here : s.calls[i]? = some call)
    (orderly : Orderly s (.next i uuid)) (stepped : callNext s i uuid call = some s') : Inv s' := by
  simp only [Orderly, here] at orderly
  cases call with
  | createRow externalRef =>
      simp only [Accounts.Registry.callNext] at stepped
      split at stepped
      · cases stepped
      · rename_i fresh
        split at stepped
        · rename_i table inserted
          cases stepped
          exact inv.creates here fresh inserted
        · cases stepped
          exact inv.turns here ⟨rfl, rfl⟩ rfl nofun ⟨rfl, rfl⟩
  | listRows =>
      cases stepped
      exact inv.lists here
  | inserting next rest =>
      cases stepped
      cases next with
      | byExternal row => exact inv.indexes here orderly
      | handles row => exact inv.registers here orderly
      | notify h => exact inv.continues here
  | stopping h q =>
      simp only [Accounts.Registry.callNext] at stepped
      split at stepped
      · cases stepped
        exact inv.turns here ⟨rfl, rfl⟩ rfl nofun ⟨rfl, rfl⟩
      · cases stepped
  | deleteRow h =>
      simp only [Accounts.Registry.callNext] at stepped
      split at stepped
      · rename_i row object
        cases stepped
        exact inv.deletes here object
      · cases stepped
  | removeIndex h =>
      simp only [Accounts.Registry.callNext] at stepped
      split at stepped
      · rename_i row object
        cases stepped
        exact inv.unindexes here object fun e ref => orderly row e object ref
      · cases stepped
  | removeHandle h =>
      simp only [Accounts.Registry.callNext] at stepped
      split at stepped
      · rename_i row object
        cases stepped
        exact inv.unregisters here object
      · cases stepped
  | created h => cases stepped
  | done => cases stepped
  | failed => cases stepped

theorem Inv.step {e : Event} (inv : Inv s) (orderly : Orderly s e) (stepped : step max s e = some s') : Inv s' := by
  cases e with
  | handle h e => exact (inv.stepHandle stepped).1
  | create externalRef =>
      cases stepped
      exact inv.called rfl rfl
  | load =>
      cases stepped
      exact inv.called rfl rfl
  | delete h q =>
      simp only [Accounts.Registry.step] at stepped
      split at stepped
      · rename_i middle stopped
        cases stepped
        obtain ⟨kept, same⟩ := inv.stepHandle stopped
        rw [← same]
        exact kept.called rfl rfl
      · cases stepped
  | next i uuid =>
      simp only [Accounts.Registry.step] at stepped
      split at stepped
      · rename_i call here
        exact inv.callNext here orderly stepped
      · cases stepped
  | fails i =>
      simp only [Accounts.Registry.step] at stepped
      split at stepped
      · rename_i externalRef here
        cases stepped
        exact inv.turns here ⟨rfl, rfl⟩ rfl nofun ⟨rfl, rfl⟩
      · rename_i h here
        cases stepped
        exact inv.turns here ⟨rfl, rfl⟩ rfl nofun ⟨rfl, rfl⟩
      · cases stepped

theorem Inv.initial (stored : Table) : Inv (machine max stored).initial where
  drawn := stored.uuids
  stored _ member := member
  made _ member := absurd member List.not_mem_nil
  coming call member row pending := by
    rw [List.mem_singleton.1 member] at pending
    cases pending
  gone h removing := by
    rcases removing with member | member
    · cases List.mem_singleton.1 member
    · cases List.mem_singleton.1 member
  index _ _ _ _ := .inl ⟨.listRows, List.mem_singleton.2 rfl, .inl rfl⟩
  indexed _ _ found := by cases found
  handles _ _ := .inl ⟨.listRows, List.mem_singleton.2 rfl, .inl rfl⟩
  registered _ _ found := by cases found

/-- Between two calls, in a run that writes no entry for an account another one has replaced; no v4
uuid is drawn twice. -/
theorem index_agrees (stored : Table) (reaches : (machine max stored).Reaches Orderly s) (rest : AtRest s) : Agrees s := by
  have inv : Inv s := by
    apply reaches.invariant Inv
    · exact .initial stored
    · exact fun s e s' inv orderly moved => inv.step orderly moved
  exact inv.agrees rest

/-! ## Two runs -/

def creates (i : CallId) (e : String) (uuid : Uuid) : List Event :=
  .create (some e) :: List.replicate 4 (.next i uuid)

def deletes (i : CallId) (h : HandleId) (q : Accounts.StopId) : List Event :=
  .delete h q :: List.replicate 6 (.handle h (.stopNext q false)) ++ List.replicate 4 (.next i 0)

def paired : List Event := [.next 0 0] ++ creates 1 "x" 0 ++ deletes 2 0 0 ++ creates 3 "x" 1

def tidy (s : State) : Event → Bool
  | .next i _ => match s.calls[i]? with
      | some (.inserting (.byExternal row) _) | some (.inserting (.handles row) _) => s.table.rows.contains row
      | some (.removeIndex h) => match s.objects[h]? with
          | some row => s.table.rows.all (·.externalRef ≠ row.externalRef)
          | none => false
      | _ => true
  | _ => true

theorem orderly_of_tidy (s : State) (e : Event) (passes : tidy s e = true) : Orderly s e := by
  cases e with
  | next i uuid =>
      simp only [tidy] at passes
      simp only [Orderly]
      split at passes
      · rename_i row rest here
        exact .inl (List.contains_iff_mem.1 passes)
      · rename_i row rest here
        exact .inl (List.contains_iff_mem.1 passes)
      · rename_i h here
        intro row e object ref other member its
        simp only [object, List.all_eq_true, decide_eq_true_eq] at passes
        exact absurd (its.trans ref.symm) (passes other member)
      · trivial
  | _ => trivial

theorem index_agrees_paired : ∃ s, (machine 0 .empty).Reaches Orderly s ∧ AtRest s ∧
    s.table.rows = [⟨1, some "x"⟩] ∧ Agrees s := by
  obtain ⟨s, reaches, passes⟩ := reaches_of_replay (m := machine 0 .empty) orderly_of_tidy
    (fun s => s.calls.all finished && s.table.rows = [⟨1, some "x"⟩]) paired (by decide +kernel)
  simp only [Bool.and_eq_true, List.all_eq_true, decide_eq_true_eq] at passes
  exact ⟨s, reaches, passes.1, passes.2, index_agrees .empty reaches passes.1⟩

/-- The account deleted first is deleted again, through the handle an edge still holds. -/
theorem index_lost : ¬∀ s, (machine 0 .empty).Reaches Free s → AtRest s → Agrees s := by
  intro claim
  obtain ⟨s, reaches, passes⟩ := reaches_of_replay (m := machine 0 .empty) free_sound
    (fun s => s.calls.all finished && s.table.rows = [⟨1, some "x"⟩] && s.byExternal "x" = none)
    (paired ++ deletes 4 0 1) (by decide +kernel)
  simp only [Bool.and_eq_true, List.all_eq_true, decide_eq_true_eq] at passes
  have agrees := claim s reaches passes.1.1
  obtain ⟨h, resolved, -⟩ := agrees.resolves ⟨1, some "x"⟩ (by simp [passes.1.2]) "x" rfl
  simp [resolve, passes.2] at resolved

end Wamux.Proof.Accounts.Index
