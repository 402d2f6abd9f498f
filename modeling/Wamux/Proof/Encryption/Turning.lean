import Wamux.Encryption.Store

namespace Wamux.Proof.Encryption
open Wamux.Encryption

variable {crypto : Crypto} {turn : Turn} {env : Env} {db db' : Db} {device : DeviceId} {column : SealedColumn}

structure Turned (crypto : Crypto) (turn : Turn) (env : Env) (row row' : Row) : Prop where
  same : row' = { row with blob := row'.blob }
  blob : turnBlob crypto turn (env.nonces row.device row.column row.parts) row.device row.column row.parts
    row.blob = .ok row'.blob

/-- The rows of these names were turned, and nothing else was touched. -/
structure Turns (crypto : Crypto) (turn : Turn) (env : Env) (chosen : Name → Prop) (db db' : Db) : Prop where
  frame : db' = { db with rows := db'.rows, owed := db'.owed }
  owed : db'.owed = true ↔ db.owed = true ∨ turn.leavesSecrets = true ∧ ∃ row ∈ db.rows, chosen row.name
  rows : ∃ f : Row → Row, db'.rows = db.rows.map f ∧ ∀ row ∈ db.rows,
    (chosen row.name → Turned crypto turn env row (f row)) ∧ (¬chosen row.name → f row = row)

def Turnable (crypto : Crypto) (turn : Turn) (env : Env) (chosen : Name → Prop) (db : Db) : Prop :=
  ∀ row ∈ db.rows, chosen row.name → ∃ blob, turnBlob crypto turn (env.nonces row.device row.column row.parts)
    row.device row.column row.parts row.blob = .ok blob

theorem Turned.name_eq {row row' : Row} (turned : Turned crypto turn env row row') : row'.name = row.name := by
  rw [turned.same]
  rfl

namespace Turns
variable {chosen chosen' : Name → Prop}

theorem none : Turns crypto turn env (fun _ => False) db db where
  frame := rfl
  owed := by simp
  rows := by
    refine ⟨id, (List.map_id _).symm, ?_⟩
    intro row _
    exact ⟨False.elim, fun _ => rfl⟩

theorem name_eq (turns : Turns crypto turn env chosen db db') : db'.rows.map Row.name = db.rows.map Row.name := by
  obtain ⟨f, rows, each⟩ := turns.rows
  rw [rows, List.map_map]
  apply List.map_congr_left
  intro row member
  by_cases pick : chosen row.name
  · exact ((each row member).1 pick).name_eq
  · rw [Function.comp, (each row member).2 pick]

theorem exists_name (turns : Turns crypto turn env chosen db db') (p : Name → Prop) :
    (∃ row ∈ db'.rows, p row.name) ↔ ∃ row ∈ db.rows, p row.name := by
  have names (rows : List Row) : (∃ row ∈ rows, p row.name) ↔ ∃ n ∈ rows.map Row.name, p n := by simp
  rw [names, names, turns.name_eq]

theorem unchosen (turns : Turns crypto turn env chosen db db') {row : Row} (other : ¬chosen row.name) :
    row ∈ db'.rows ↔ row ∈ db.rows := by
  obtain ⟨f, rows, each⟩ := turns.rows
  rw [rows, List.mem_map]
  constructor
  · rintro ⟨before, member, rfl⟩
    by_cases pick : chosen before.name
    · rw [((each before member).1 pick).name_eq] at other
      exact absurd pick other
    · rwa [(each before member).2 pick]
  · intro member
    exact ⟨row, member, (each row member).2 other⟩

theorem row_cases (turns : Turns crypto turn env chosen db db') {row : Row} (member : row ∈ db'.rows) :
    (∃ before ∈ db.rows, chosen before.name ∧ Turned crypto turn env before row) ∨
      row ∈ db.rows ∧ ¬chosen row.name := by
  by_cases pick : chosen row.name
  · obtain ⟨f, rows, each⟩ := turns.rows
    rw [rows, List.mem_map] at member
    obtain ⟨before, present, rfl⟩ := member
    by_cases pick' : chosen before.name
    · exact .inl ⟨before, present, pick', (each before present).1 pick'⟩
    · rw [(each before present).2 pick'] at pick
      exact absurd pick pick'
  · exact .inr ⟨(turns.unchosen pick).1 member, pick⟩

theorem trans {db'' : Db} (first : Turns crypto turn env chosen db db') (second : Turns crypto turn env chosen' db' db'')
    (disjoint : ∀ n, chosen n → ¬chosen' n) : Turns crypto turn env (fun n => chosen n ∨ chosen' n) db db'' := by
  obtain ⟨f, rows, each⟩ := first.rows
  obtain ⟨g, rows', each'⟩ := second.rows
  have names := first.exists_name chosen'
  refine ⟨?_, ?_, g ∘ f, by rw [rows', rows, List.map_map], ?_⟩
  · rw [second.frame, first.frame]
  · rw [second.owed, first.owed, names]
    grind
  · intro row member
    have member' : f row ∈ db'.rows := rows ▸ List.mem_map_of_mem member
    have mine := each row member
    have mine' := each' (f row) member'
    constructor
    · rintro (pick | pick)
      · have turned := mine.1 pick
        have done := mine'.2 (turned.name_eq ▸ disjoint _ pick)
        rw [Function.comp, done]
        exact turned
      · have same := mine.2 fun before => disjoint _ before pick
        rw [same] at mine'
        rw [Function.comp, same]
        exact mine'.1 pick
    · intro neither
      have same := mine.2 fun pick => neither (.inl pick)
      rw [same] at mine'
      rw [Function.comp, same]
      exact mine'.2 fun pick => neither (.inr pick)

theorem congr (turns : Turns crypto turn env chosen db db')
    (same : ∀ row ∈ db.rows, chosen row.name ↔ chosen' row.name) : Turns crypto turn env chosen' db db' := by
  obtain ⟨f, rows, each⟩ := turns.rows
  refine ⟨turns.frame, ?_, f, rows, ?_⟩
  · have names : (∃ row ∈ db.rows, chosen row.name) ↔ ∃ row ∈ db.rows, chosen' row.name :=
      exists_congr fun row => and_congr_right (same row)
    rw [← names]
    exact turns.owed
  · intro row member
    rw [← same row member]
    exact each row member

theorem turnable (turns : Turns crypto turn env chosen db db') (able : Turnable crypto turn env chosen' db)
    (disjoint : ∀ n, chosen n → ¬chosen' n) : Turnable crypto turn env chosen' db' := by
  intro row member pick
  have before := (turns.unchosen fun other => disjoint _ other pick).1 member
  exact able row before pick

end Turns

theorem foldlM_turns {ι : Type} {work : Db → ι → Except StoreError Db} (chosen : ι → Name → Prop)
    (ready : ι → Db → Prop)
    (turns : ∀ i db db', ready i db → work db i = .ok db' → Turns crypto turn env (chosen i) db db')
    (stays : ∀ i j db db', ready i db → Turns crypto turn env (chosen j) db db' →
      (∀ n, chosen j n → ¬chosen i n) → ready i db')
    (items : List ι) (apart : items.Pairwise fun i j => ∀ n, chosen i n → ¬chosen j n)
    (start : ∀ i ∈ items, ready i db) (ran : items.foldlM work db = .ok db') :
    Turns crypto turn env (fun n => ∃ i ∈ items, chosen i n) db db' := by
  induction items generalizing db with
  | nil =>
      cases ran
      exact Turns.none.congr (by simp)
  | cons first rest ih =>
      obtain ⟨ahead, apart⟩ := List.pairwise_cons.1 apart
      rw [List.foldlM_cons] at ran
      cases worked : work db first with
      | error e => simp [worked, bind, Except.bind] at ran
      | ok middle =>
          simp only [worked, bind, Except.bind] at ran
          have now := turns first db middle (start first List.mem_cons_self) worked
          have later := ih apart (fun i member => stays i first db middle
            (start i (List.mem_cons_of_mem _ member)) now (ahead i member)) ran
          apply (now.trans later _).congr
          · intro row _
            simp
          · rintro n pick ⟨i, member, again⟩
            exact ahead i member n pick again

theorem foldlM_ok {ι : Type} {work : Db → ι → Except StoreError Db} (chosen : ι → Name → Prop)
    (ready : ι → Db → Prop)
    (turns : ∀ i db db', ready i db → work db i = .ok db' → Turns crypto turn env (chosen i) db db')
    (stays : ∀ i j db db', ready i db → Turns crypto turn env (chosen j) db db' →
      (∀ n, chosen j n → ¬chosen i n) → ready i db')
    (works : ∀ i db, ready i db → Turnable crypto turn env (chosen i) db → ∃ db', work db i = .ok db')
    (items : List ι) (apart : items.Pairwise fun i j => ∀ n, chosen i n → ¬chosen j n)
    (start : ∀ i ∈ items, ready i db) (able : ∀ i ∈ items, Turnable crypto turn env (chosen i) db) :
    ∃ db', items.foldlM work db = .ok db' := by
  induction items generalizing db with
  | nil => exact ⟨db, rfl⟩
  | cons first rest ih =>
      obtain ⟨ahead, apart⟩ := List.pairwise_cons.1 apart
      obtain ⟨middle, worked⟩ := works first db (start first List.mem_cons_self) (able first List.mem_cons_self)
      have now := turns first db middle (start first List.mem_cons_self) worked
      obtain ⟨db', ran⟩ := ih apart
        (fun i member => stays i first db middle (start i (List.mem_cons_of_mem _ member)) now (ahead i member))
        (fun i member => now.turnable (able i (List.mem_cons_of_mem _ member)) (ahead i member))
      exact ⟨db', by rw [List.foldlM_cons, worked]; exact ran⟩

/-! ## A row, a column, an account -/

def Distinct (db : Db) : Prop := (db.rows.map Row.name).Nodup

theorem Turns.distinct {chosen : Name → Prop} (turns : Turns crypto turn env chosen db db') (distinct : Distinct db) :
    Distinct db' := by
  rw [Distinct, turns.name_eq]
  exact distinct

theorem turnRow_turns {row : List RowPart × Bytes}
    (current : ∀ r ∈ db.rows, r.name = (device, column, row.1) → r.blob = row.2)
    (present : ∃ r ∈ db.rows, r.name = (device, column, row.1) ∧ r.blob = row.2)
    (ran : turnRow crypto turn env device column db row = .ok db') :
    Turns crypto turn env (· = (device, column, row.1)) db db' := by
  obtain ⟨parts, blob⟩ := row
  simp only [turnRow] at ran
  cases turned : turnBlob crypto turn (env.nonces device column parts) device column parts blob with
  | error e => simp [turned, bind, Except.bind] at ran
  | ok new =>
      simp only [turned, bind, Except.bind, pure, Except.pure, Except.ok.injEq] at ran
      subst ran
      refine ⟨rfl, ?_, _, rfl, ?_⟩
      · obtain ⟨r, member, same, -⟩ := present
        have some : ∃ row ∈ db.rows, row.name = (device, column, parts) := ⟨r, member, same⟩
        simp [some]
      · intro r member
        constructor
        · intro same
          have blob := current r member same
          rw [if_pos same]
          simp only [Row.name, Prod.mk.injEq] at same
          obtain ⟨rfl, rfl, rfl⟩ := same
          exact ⟨rfl, blob ▸ turned⟩
        · intro other
          rw [if_neg other]

theorem turnRow_ok {row : List RowPart × Bytes} (present : ∃ r ∈ db.rows, r.name = (device, column, row.1) ∧ r.blob = row.2)
    (able : Turnable crypto turn env (· = (device, column, row.1)) db) :
    ∃ db', turnRow crypto turn env device column db row = .ok db' := by
  obtain ⟨r, member, same, blob⟩ := present
  obtain ⟨new, turned⟩ := able r member same
  simp only [Row.name, Prod.mk.injEq] at same
  obtain ⟨rfl, rfl, parts⟩ := same
  rw [parts, blob] at turned
  exact ⟨_, by simp only [turnRow, turned, bind, Except.bind]; rfl⟩

theorem mem_selectRows {row : List RowPart × Bytes} :
    row ∈ db.selectRows device column ↔ ∃ r ∈ db.rows, r.name = (device, column, row.1) ∧ r.blob = row.2 := by
  simp only [Db.selectRows, List.mem_map, List.mem_filter, Row.name, Prod.mk.injEq, decide_eq_true_eq, Bool.decide_and,
    Bool.and_eq_true]
  constructor
  · rintro ⟨r, ⟨member, rfl, rfl⟩, rfl⟩
    exact ⟨r, member, ⟨rfl, rfl, rfl⟩, rfl⟩
  · rintro ⟨r, member, ⟨rfl, rfl, parts⟩, blob⟩
    exact ⟨r, ⟨member, rfl, rfl⟩, Prod.ext parts blob⟩

theorem selectRows_apart (distinct : Distinct db) : (db.selectRows device column).Pairwise fun i j =>
    ∀ n, n = (device, column, i.1) → ¬n = (device, column, j.1) := by
  rw [Db.selectRows, List.pairwise_map]
  have apart : (db.rows.filter fun row => row.device = device ∧ row.column = column).Pairwise
      fun a b => a.name ≠ b.name := (List.pairwise_map.1 distinct).filter _
  apply apart.imp_of_mem
  rintro a b memberA memberB differ n rfl same
  simp only [List.mem_filter, Bool.decide_and, Bool.and_eq_true, decide_eq_true_eq] at memberA memberB
  simp only [Prod.mk.injEq, true_and] at same
  apply differ
  simp [Row.name, memberA.2.1, memberA.2.2, memberB.2.1, memberB.2.2, same]

section Column

def current (device : DeviceId) (column : SealedColumn) (row : List RowPart × Bytes) (db : Db) : Prop :=
  (∀ r ∈ db.rows, r.name = (device, column, row.1) → r.blob = row.2) ∧
    ∃ r ∈ db.rows, r.name = (device, column, row.1) ∧ r.blob = row.2

theorem current_stays (i j : List RowPart × Bytes) (db db' : Db) (now : current device column i db)
    (turns : Turns crypto turn env (· = (device, column, j.1)) db db')
    (apart : ∀ n, n = (device, column, j.1) → ¬n = (device, column, i.1)) : current device column i db' := by
  obtain ⟨same, r, member, named, blob⟩ := now
  constructor
  · intro r member named
    exact same r ((turns.unchosen fun other => apart _ other named).1 member) named
  · exact ⟨r, (turns.unchosen fun other => apart _ other named).2 member, named, blob⟩

theorem current_of_mem (distinct : Distinct db) (row : List RowPart × Bytes)
    (member : row ∈ db.selectRows device column) : current device column row db := by
  obtain ⟨r, mine, named, blob⟩ := mem_selectRows.1 member
  refine ⟨?_, r, mine, named, blob⟩
  intro other present same
  rw [List.inj_on_of_nodup_map distinct present mine (same.trans named.symm)]
  exact blob

theorem convertColumn_turns (distinct : Distinct db) (ran : convertColumn crypto turn env device db column = .ok db') :
    Turns crypto turn env (fun n => n.1 = device ∧ n.2.1 = column) db db' := by
  have turns := foldlM_turns (fun row n => n = (device, column, row.1)) (current device column)
    (fun i db db' now ran => turnRow_turns now.1 now.2 ran) current_stays _ (selectRows_apart distinct)
    (fun row member => current_of_mem distinct row member) ran
  apply turns.congr
  intro row member
  constructor
  · rintro ⟨i, -, same⟩
    simp [same]
  · rintro ⟨mine, also⟩
    have named : row.name = (device, column, row.parts) := by simp [Row.name, ← mine, ← also]
    exact ⟨(row.parts, row.blob), mem_selectRows.2 ⟨row, member, named, rfl⟩, named⟩

theorem convertColumn_ok (distinct : Distinct db)
    (able : Turnable crypto turn env (fun n => n.1 = device ∧ n.2.1 = column) db) :
    ∃ db', convertColumn crypto turn env device db column = .ok db' := by
  apply foldlM_ok (fun row n => n = (device, column, row.1)) (current device column)
    (fun i db db' now ran => turnRow_turns now.1 now.2 ran) current_stays (fun i db now able => turnRow_ok now.2 able)
    _ (selectRows_apart distinct) (fun row member => current_of_mem distinct row member)
  intro i _ row member same
  exact able row member (by simp [same])

end Column

theorem sealedColumns_nodup : sealedColumns.Nodup := by decide

theorem columns_apart (device : DeviceId) : sealedColumns.Pairwise fun i j =>
    ∀ n : Name, n.1 = device ∧ n.2.1 = i → ¬(n.1 = device ∧ n.2.1 = j) := by
  apply sealedColumns_nodup.imp
  rintro i j differ n ⟨-, rfl⟩ ⟨-, same⟩
  exact differ same

theorem convertColumns_turns (distinct : Distinct db) (ran : convertColumns crypto turn env db device = .ok db') :
    Turns crypto turn env (fun n => n.1 = device ∧ n.2.1 ∈ sealedColumns) db db' := by
  have turns := foldlM_turns (fun c n => n.1 = device ∧ n.2.1 = c) (fun _ => Distinct)
    (fun i db db' distinct ran => convertColumn_turns distinct ran)
    (fun i j db db' distinct turns _ => turns.distinct distinct) _ (columns_apart device) (fun _ _ => distinct) ran
  apply turns.congr
  intro row _
  constructor
  · rintro ⟨i, member, mine, rfl⟩
    exact ⟨mine, member⟩
  · rintro ⟨mine, member⟩
    exact ⟨_, member, mine, rfl⟩

theorem convertColumns_ok (distinct : Distinct db)
    (able : Turnable crypto turn env (fun n => n.1 = device ∧ n.2.1 ∈ sealedColumns) db) :
    ∃ db', convertColumns crypto turn env db device = .ok db' := by
  apply foldlM_ok (fun c n => n.1 = device ∧ n.2.1 = c) (fun _ => Distinct)
    (fun i db db' distinct ran => convertColumn_turns distinct ran)
    (fun i j db db' distinct turns _ => turns.distinct distinct) (fun i db distinct able => convertColumn_ok distinct able)
    _ (columns_apart device) (fun _ _ => distinct)
  rintro i member row present ⟨mine, rfl⟩
  exact able row present ⟨mine, member⟩

theorem accounts_apart {devices : List DeviceId} (nodup : devices.Nodup) : devices.Pairwise fun i j =>
    ∀ n : Name, n.1 = i ∧ n.2.1 ∈ sealedColumns → ¬(n.1 = j ∧ n.2.1 ∈ sealedColumns) := by
  apply nodup.imp
  rintro i j differ n ⟨rfl, -⟩ ⟨same, -⟩
  exact differ same

theorem convertDevices_turns {devices : List DeviceId} (nodup : devices.Nodup) (distinct : Distinct db)
    (ran : devices.foldlM (convertColumns crypto turn env) db = .ok db') :
    Turns crypto turn env (fun n => n.1 ∈ devices ∧ n.2.1 ∈ sealedColumns) db db' := by
  have turns := foldlM_turns (fun d n => n.1 = d ∧ n.2.1 ∈ sealedColumns) (fun _ => Distinct)
    (fun i db db' distinct ran => convertColumns_turns distinct ran)
    (fun i j db db' distinct turns _ => turns.distinct distinct) _ (accounts_apart nodup) (fun _ _ => distinct) ran
  apply turns.congr
  intro row _
  constructor
  · rintro ⟨i, member, rfl, column⟩
    exact ⟨member, column⟩
  · rintro ⟨member, column⟩
    exact ⟨_, member, rfl, column⟩

theorem convertDevices_ok {devices : List DeviceId} (nodup : devices.Nodup) (distinct : Distinct db)
    (able : Turnable crypto turn env (fun n => n.1 ∈ devices ∧ n.2.1 ∈ sealedColumns) db) :
    ∃ db', devices.foldlM (convertColumns crypto turn env) db = .ok db' := by
  apply foldlM_ok (fun d n => n.1 = d ∧ n.2.1 ∈ sealedColumns) (fun _ => Distinct)
    (fun i db db' distinct ran => convertColumns_turns distinct ran)
    (fun i j db db' distinct turns _ => turns.distinct distinct) (fun i db distinct able => convertColumns_ok distinct able)
    _ (accounts_apart nodup) (fun _ _ => distinct)
  rintro i member row present ⟨rfl, column⟩
  exact able row present ⟨member, column⟩

end Wamux.Proof.Encryption
