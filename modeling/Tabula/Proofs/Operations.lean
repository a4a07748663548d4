import Mathlib.Data.List.Forall2
import Mathlib.Data.List.Induction
import Tabula.Relation
import Tabula.Proofs.Definitions

/-!
# What the operations on a relation reach

Each operation is a chain of checks and the relation that they lead to (`Relation.insert_eq` and its
siblings).  That it succeeded says which checks were passed, and what the new relation is
(`Relation.insert_eq_ok` and its siblings).  Nothing else unfolds an operation.
-/

namespace Tabula

/-! ## Places of columns -/

/-- A column that has to be there is found at the first place of its name. -/
theorem Table.require_eq_ok {t : Table} {name : String} {position : Nat} :
    t.require name = .ok position ↔ t.position? name = some position := by
  unfold Table.require
  cases t.position? name with
  | none => simp
  | some i => simp

/-- A column that is not there is refused under the name of the table. -/
theorem Table.require_eq_error {t : Table} {name : String} {f : Fault} :
    t.require name = .error f ↔ t.position? name = none ∧ f = .noColumn t.name name := by
  unfold Table.require
  cases t.position? name with
  | none => simp [eq_comm]
  | some i => simp

theorem Table.position?_eq_some {t : Table} {name : String} {position : Nat}
    (h : t.position? name = some position) :
    ∃ column, t.columns[position]? = some column ∧ column.name = name := by
  unfold Table.position? at h
  rw [List.findIdx?_eq_some_iff_getElem] at h
  obtain ⟨hlt, hname, -⟩ := h
  exact ⟨t.columns[position], List.getElem?_eq_getElem hlt, by simpa using hname⟩

theorem Table.columnNames_getElem? {t : Table} {position : Nat} {column : Column}
    (h : t.columns[position]? = some column) : t.columnNames[position]? = some column.name := by
  rw [columnNames, List.getElem?_map, h]
  rfl

/-- A name stands at one place only. -/
theorem Table.position?_eq_of_nodup {t : Table} (hnames : t.columnNames.Nodup) {position : Nat}
    {column : Column} (h : t.columns[position]? = some column) :
    t.position? column.name = some position := by
  obtain ⟨hlt, rfl⟩ := List.getElem?_eq_some_iff.1 h
  unfold position?
  rw [List.findIdx?_eq_some_iff_getElem]
  refine ⟨hlt, beq_self_eq_true _, fun j hj => ?_⟩
  intro heq
  have hj' : t.columnNames[j]? = t.columnNames[position]? := by
    rw [columnNames_getElem? h, columnNames_getElem? (List.getElem?_eq_getElem (by omega))]
    simpa using heq
  have := (List.getElem?_inj (by simp [columnNames]; omega) hnames).1 hj'
  omega

namespace Relation

/-- Names that all have to be there are names of columns. -/
theorem requireAll_eq_ok {t : Table} (names : List String) (h : requireAll t names = .ok ()) :
    ∀ name ∈ names, name ∈ t.columnNames := by
  induction names with
  | nil => intro name hname; cases hname
  | cons first rest ih =>
    simp only [requireAll, bind_eq_ok] at h
    obtain ⟨position, hposition, h⟩ := h
    obtain ⟨column, hcolumn, rfl⟩ := Table.position?_eq_some (Table.require_eq_ok.1 hposition)
    intro name hname
    rcases List.mem_cons.1 hname with rfl | hname
    · exact List.mem_map_of_mem (List.mem_of_getElem? hcolumn)
    · exact ih h name hname

/-- A value passes the check if it is not null or null is not forbidden. -/
theorem checkNull_eq_ok {column : Column} {v : Value} (h : checkNull column v = .ok ())
    (hnotNull : column.notNull = true) : v ≠ .null := by
  rintro rfl
  simp [checkNull, hnotNull, Value.isNull] at h

/-! ## Inserting -/

theorem insert_eq (now : String) (r : Relation) (columns : List String) (values : List Literal)
    (returning : Option String) :
    r.insert now columns values returning = do
      requireAll r.table columns
      let row ← r.newRow now columns values 0 r.table.columns
      let returned ← returnedValue r.table row returning
      let autoId := if r.table.columns.any (·.autoIncrement) then some r.nextId else none
      return ({ r with rows := r.rows ++ [row] }, ⟨autoId, returned⟩) := by
  simp only [insert, insertRow, Action.reach_bind, Action.reach_get, Action.reach_check,
    Action.reach_set, Action.reach_pure, ok_bind, bind_assoc]
  rfl

/-- A relation with one more row, whose values were all checked. -/
theorem insert_eq_ok {now : String} {r next : Relation} {columns : List String}
    {values : List Literal} {returning : Option String} {inserted : Inserted}
    (h : r.insert now columns values returning = .ok (next, inserted)) :
    ∃ row, r.newRow now columns values 0 r.table.columns = .ok row ∧
      next = { r with rows := r.rows ++ [row] } := by
  simp only [insert_eq, bind_eq_ok, pure_eq_ok, Prod.mk.injEq] at h
  obtain ⟨-, -, row, hrow, -, -, rfl, -⟩ := h
  exact ⟨row, hrow, rfl⟩

/-- Every value of a new row is the value made for its column, and passed both checks. -/
theorem newRow_eq_ok {now : String} {r : Relation} {columns : List String} {values : List Literal}
    (cs : List Column) :
    ∀ {position : Nat} {row : Row}, r.newRow now columns values position cs = .ok row →
      row.length = cs.length ∧
      ∀ (k : Nat) (column : Column) (v : Value), cs[k]? = some column → row[k]? = some v →
        r.newValue now column (supplied? columns values column.name) = .ok v ∧
        checkNull column v = .ok () ∧ r.checkKey (position + k) column v = .ok () := by
  induction cs with
  | nil =>
    intro position row h
    obtain rfl := Except.ok.inj h
    exact ⟨rfl, fun k column v hk => by simp at hk⟩
  | cons c rest ih =>
    intro position row h
    simp only [newRow, bind_eq_ok, pure_eq_ok] at h
    obtain ⟨v, hv, ⟨⟩, hnull, ⟨⟩, hkey, vs, hvs, rfl⟩ := h
    obtain ⟨hlen, hrest⟩ := ih hvs
    refine ⟨by simp [hlen], fun k column w hk hw => ?_⟩
    cases k with
    | zero =>
      obtain rfl := Option.some.inj hk
      obtain rfl := Option.some.inj hw
      exact ⟨hv, hnull, hkey⟩
    | succ k =>
      have := hrest k column w hk hw
      rwa [Nat.add_right_comm] at this

/-! ## Testing rows -/

theorem testRows_length {test : RowTest} (rows : List Row) :
    ∀ {i : Nat} {hits : List Bool}, testRows test i rows = .ok hits →
      hits.length = rows.length := by
  induction rows with
  | nil => intro i hits h; rw [← Except.ok.inj h]; rfl
  | cons row rest ih =>
    intro i hits h
    simp only [testRows, bind_eq_ok, pure_eq_ok] at h
    obtain ⟨hit, -, others, hothers, rfl⟩ := h
    simp [ih hothers]

/-! ## Deleting -/

/-- The rows that were not hit, in order. -/
def kept (rows : List Row) (hits : List Bool) : List Row :=
  (rows.zip hits).filterMap fun (row, hit) => if hit then none else some row

theorem kept_sublist (rows : List Row) : ∀ hits, (kept rows hits).Sublist rows := by
  induction rows with
  | nil => intro hits; exact .slnil
  | cons row rest ih =>
    intro hits
    cases hits with
    | nil => exact List.nil_sublist _
    | cons hit others =>
      cases hit with
      | true => exact (ih others).cons row
      | false => exact (ih others).cons_cons row

theorem deleteWhere_eq (r : Relation) (test : RowTest) :
    r.deleteWhere test = do
      let hits ← testRows test 0 r.rows
      return ({ r with rows := kept r.rows hits }, hits.count true) := by
  simp only [deleteWhere, deleteRows, Action.reach_bind, Action.reach_get, Action.reach_check,
    Action.reach_set, Action.reach_pure, ok_bind, bind_assoc]
  rfl

/-- The relation without the rows that were hit. -/
theorem deleteWhere_eq_ok {r next : Relation} {test : RowTest} {n : Nat}
    (h : r.deleteWhere test = .ok (next, n)) :
    ∃ hits, testRows test 0 r.rows = .ok hits ∧ next = { r with rows := kept r.rows hits } ∧
      n = hits.count true := by
  simp only [deleteWhere_eq, bind_eq_ok, pure_eq_ok, Prod.mk.injEq] at h
  obtain ⟨hits, hhits, rfl, rfl⟩ := h
  exact ⟨hits, hhits, rfl, rfl⟩

/-! ## Updating -/

end Relation

/-- What an assignment resolves to: the place of the column of that name, and the literal as the
column reads it. -/
def Table.Resolves (now : String) (t : Table) (a : String × Literal) (stored : Nat × Value) : Prop :=
  ∃ column, t.columns[stored.1]? = some column ∧ column.name = a.1 ∧
    column.coerce now a.2 = .ok stored.2 ∧ Relation.checkNull column stored.2 = .ok ()

namespace Relation

/-- Assignments are resolved one by one. -/
theorem resolveAssignments_forall₂ {now : String} {t : Table}
    (assignments : List (String × Literal)) :
    ∀ {resolved : List (Nat × Value)}, resolveAssignments now t assignments = .ok resolved →
      List.Forall₂ (t.Resolves now) assignments resolved := by
  induction assignments with
  | nil =>
    intro resolved h
    obtain rfl := Except.ok.inj h
    exact .nil
  | cons a rest ih =>
    obtain ⟨name, l⟩ := a
    intro resolved h
    simp only [resolveAssignments, bind_eq_ok] at h
    obtain ⟨position, hposition, h⟩ := h
    obtain ⟨column, hcolumn, rfl⟩ := Table.position?_eq_some (Table.require_eq_ok.1 hposition)
    rw [hcolumn] at h
    simp only [bind_eq_ok, pure_eq_ok] at h
    obtain ⟨v, hv, ⟨⟩, hnull, others, hothers, rfl⟩ := h
    exact .cons ⟨column, hcolumn, rfl, hv, hnull⟩ (ih hothers)

/-- What an assignment stores is its literal as the column reads it, and passed the check. -/
theorem resolveAssignments_eq_ok {now : String} {t : Table} (assignments : List (String × Literal))
    {resolved : List (Nat × Value)} (h : resolveAssignments now t assignments = .ok resolved) :
    ∀ p v, (p, v) ∈ resolved → ∃ column l, t.columns[p]? = some column ∧
      (column.name, l) ∈ assignments ∧ column.coerce now l = .ok v ∧
      checkNull column v = .ok () := by
  intro p v hmem
  obtain ⟨k, hk, hstored⟩ := List.mem_iff_getElem.1 hmem
  have hresolves := resolveAssignments_forall₂ _ h
  have hk' : k < assignments.length := by
    rw [hresolves.length_eq]
    exact hk
  obtain ⟨column, hcolumn, hname, hv⟩ := hresolves.get hk' hk
  simp only [List.get_eq_getElem, hstored] at hcolumn hname hv
  refine ⟨column, assignments[k].2, hcolumn, ?_, hv⟩
  rw [hname]
  exact List.getElem_mem hk'

/-- The rows after assignments to those that were hit. -/
def assigned (assignments : List (Nat × Value)) (rows : List Row) (hits : List Bool) : List Row :=
  (rows.zip hits).map fun (row, hit) => if hit then assign assignments row else row

theorem updateWhere_eq (now : String) (r : Relation) (assignments : List (String × Literal))
    (test : RowTest) :
    r.updateWhere now assignments test = do
      let resolved ← resolveAssignments now r.table assignments
      let hits ← testRows test 0 r.rows
      r.checkAssignments hits (assigned resolved r.rows hits) resolved
      return ({ r with rows := assigned resolved r.rows hits }, hits.count true) := by
  simp only [updateWhere, updateRows, Action.reach_bind, Action.reach_get, Action.reach_check,
    Action.reach_set, Action.reach_pure, ok_bind, bind_assoc]
  rfl

/-- The relation after assignments to the rows that were hit, if no unique column holds a key twice
then. -/
theorem updateWhere_eq_ok {now : String} {r next : Relation}
    {assignments : List (String × Literal)} {test : RowTest} {n : Nat}
    (h : r.updateWhere now assignments test = .ok (next, n)) :
    ∃ resolved hits, resolveAssignments now r.table assignments = .ok resolved ∧
      testRows test 0 r.rows = .ok hits ∧
      r.checkAssignments hits (assigned resolved r.rows hits) resolved = .ok () ∧
      next = { r with rows := assigned resolved r.rows hits } ∧ n = hits.count true := by
  simp only [updateWhere_eq, bind_eq_ok, pure_eq_ok, Prod.mk.injEq] at h
  obtain ⟨resolved, hresolved, hits, hhits, ⟨⟩, hcheck, rfl, rfl⟩ := h
  exact ⟨resolved, hits, hresolved, hhits, hcheck, rfl, rfl⟩

theorem assigned_getElem? (assignments : List (Nat × Value)) {rows : List Row} {hits : List Bool}
    (hlen : hits.length = rows.length) (i : Nat) (row : Row) (h : rows[i]? = some row) :
    (hits[i]? = some true ∧ (assigned assignments rows hits)[i]? = some (assign assignments row)) ∨
      (hits[i]? = some false ∧ (assigned assignments rows hits)[i]? = some row) := by
  have hi : i < hits.length := by
    rw [hlen]; exact (List.getElem?_eq_some_iff.1 h).1
  have hhit : hits[i]? = some hits[i] := List.getElem?_eq_getElem hi
  have hzip : (rows.zip hits)[i]? = some (row, hits[i]) := List.getElem?_zip_eq_some.2 ⟨h, hhit⟩
  unfold assigned
  rw [List.getElem?_map, hzip, hhit]
  cases hits[i] with
  | true => exact Or.inl ⟨rfl, rfl⟩
  | false => exact Or.inr ⟨rfl, rfl⟩

theorem assigned_length {assignments : List (Nat × Value)} {rows : List Row} {hits : List Bool}
    (hlen : hits.length = rows.length) : (assigned assignments rows hits).length = rows.length := by
  simp [assigned, hlen]

/-- The value that assignments leave in a column, if there are any to it: the last. -/
def lastAssigned? (assignments : List (Nat × Value)) (position : Nat) : Option Value :=
  assignments.foldl (fun last (p, v) => if p = position then some v else last) none

theorem lastAssigned?_concat (assignments : List (Nat × Value)) (p position : Nat) (v : Value) :
    lastAssigned? (assignments ++ [(p, v)]) position =
      if p = position then some v else lastAssigned? assignments position := by
  simp [lastAssigned?]

theorem lastAssigned?_mem {assignments : List (Nat × Value)} {position : Nat} {v : Value}
    (h : lastAssigned? assignments position = some v) : (position, v) ∈ assignments := by
  induction assignments using List.reverseRecOn with
  | nil => cases h
  | append_singleton front a ih =>
    obtain ⟨p, w⟩ := a
    rw [lastAssigned?_concat] at h
    split at h
    · next hp => subst hp; obtain rfl := Option.some.inj h; simp
    · exact List.mem_append_left _ (ih h)

/-- After assignments a column holds the last value assigned to it, or what it held before. -/
theorem assign_getElem? (assignments : List (Nat × Value)) (row : Row) (position : Nat) :
    (assign assignments row)[position]? =
      row[position]?.map fun old => (lastAssigned? assignments position).getD old := by
  induction assignments using List.reverseRecOn with
  | nil => simp [assign, lastAssigned?]
  | append_singleton front a ih =>
    obtain ⟨p, w⟩ := a
    have hstep : assign (front ++ [(p, w)]) row = (assign front row).set p w := by simp [assign]
    rw [hstep, List.getElem?_set, lastAssigned?_concat]
    by_cases hp : p = position
    · subst hp
      rw [if_pos rfl, if_pos rfl]
      cases hr : row[p]? with
      | none =>
        rw [hr, Option.map_none, List.getElem?_eq_none_iff] at ih
        simp [Nat.not_lt.2 ih]
      | some old =>
        rw [hr, Option.map_some, List.getElem?_eq_some_iff] at ih
        simp [ih.1]
    · rw [if_neg hp, if_neg hp, ih]

/-! ## Indexes -/

theorem setUnique_columnNames (t : Table) (position : Nat) :
    (setUnique t position).columnNames = t.columnNames :=
  t.modify_columnNames position fun _ => rfl

theorem makeUnique_reach (indexed : IndexColumn) (r : Relation) :
    (makeUnique indexed).reach r = do
      let position ← r.table.require indexed.name
      r.checkDistinct indexed.nocase position
      return ({ r with table := setUnique r.table position }, ()) := by
  simp only [makeUnique, Action.reach_bind, Action.reach_get, Action.reach_check, Action.reach_set,
    ok_bind, bind_assoc]
  rfl

theorem createIndex_eq (r : Relation) (index : Index) :
    r.createIndex index = do
      r.checkIndexName index.name
      requireAll r.table (index.columns.map (·.name))
      let (next, ()) ← (index.soleUnique?.forM makeUnique : Action Relation Unit).reach r
      return { next with indexes := next.indexes ++ [index] } := by
  simp only [createIndex, addIndex, Action.reach_bind, Action.reach_get, Action.reach_check,
    Action.reach_modify, ok_bind, bind_assoc]
  cases r.checkIndexName index.name with
  | error fault => rfl
  | ok u =>
    simp only [ok_bind]
    cases requireAll r.table (index.columns.map (·.name)) with
    | error fault => rfl
    | ok u =>
      simp only [ok_bind]
      cases (index.soleUnique?.forM makeUnique : Action Relation Unit).reach r <;> rfl

theorem checkIndexName_eq_ok {r : Relation} {name : String} :
    r.checkIndexName name = .ok () ↔ ∀ i ∈ r.indexes, i.name ≠ name := by
  unfold checkIndexName
  split
  · next hany => simpa using hany
  · next hnew => simpa using hnew

/-- No two rows hold the same key in a column that passed the check. -/
theorem checkDistinct_eq_ok {r : Relation} {nocase : Bool} {position : Nat} {column : Column}
    (hcolumn : r.table.columns[position]? = some column)
    (h : r.checkDistinct nocase position = .ok ()) :
    firstDuplicate? nocase position [] r.rows = none := by
  unfold checkDistinct at h
  rw [hcolumn] at h
  cases hd : firstDuplicate? nocase position [] r.rows with
  | none => rfl
  | some v =>
    rw [hd] at h
    cases h

/-- The relation with one more index, and with its column made unique if it is a unique index of
that column alone. -/
theorem createIndex_eq_ok {r next : Relation} {index : Index} (h : r.createIndex index = .ok next) :
    (∀ i ∈ r.indexes, i.name ≠ index.name) ∧
      requireAll r.table (index.columns.map (·.name)) = .ok () ∧
      ((index.soleUnique? = none ∧ next = { r with indexes := r.indexes ++ [index] }) ∨
        ∃ indexed position, index.soleUnique? = some indexed ∧
          r.table.position? indexed.name = some position ∧
          firstDuplicate? indexed.nocase position [] r.rows = none ∧
          next = { r with table := setUnique r.table position,
                          indexes := r.indexes ++ [index] }) := by
  simp only [createIndex_eq, bind_eq_ok, pure_eq_ok] at h
  obtain ⟨⟨⟩, hnew, ⟨⟩, hall, ⟨unique, ⟨⟩⟩, hunique, rfl⟩ := h
  refine ⟨checkIndexName_eq_ok.1 hnew, hall, ?_⟩
  cases hsole : index.soleUnique? with
  | none =>
    rw [hsole] at hunique
    obtain ⟨rfl, -⟩ := Prod.mk.inj (Except.ok.inj hunique)
    exact Or.inl ⟨rfl, rfl⟩
  | some indexed =>
    rw [hsole] at hunique
    have hunique : (makeUnique indexed).reach r = .ok (unique, ()) := hunique
    simp only [makeUnique_reach, bind_eq_ok, pure_eq_ok, Prod.mk.injEq] at hunique
    obtain ⟨position, hposition, ⟨⟩, hdistinct, rfl, -⟩ := hunique
    rw [Table.require_eq_ok] at hposition
    obtain ⟨column, hcolumn, -⟩ := Table.position?_eq_some hposition
    exact Or.inr ⟨indexed, position, rfl, hposition, checkDistinct_eq_ok hcolumn hdistinct, rfl⟩

end Relation

end Tabula
