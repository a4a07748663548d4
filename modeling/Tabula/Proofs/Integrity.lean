import Tabula.Proofs.Declaration
import Tabula.Proofs.Shape

/-!
# Relations are well formed

`Relation.Intact` is what holds of every relation at all times: its columns have different names and
its rows one value for each of them, its indexes have different names and are on its own columns,
and no row holds null where the table forbids it.

* `Relation.Intact.change`: the step.
* `Catalog.after_intact`: the run, with nulls forbidden where the CREATE TABLE forbade them.
-/

namespace Tabula

/-- A relation has its shape, its indexes have different names and are on its columns, and its rows
hold no null that its table forbids. -/
structure Relation.Intact (r : Relation) : Prop where
  even : r.Even
  indexNames : (r.indexes.map (·.name)).Nodup
  indexColumns : ∀ index ∈ r.indexes, ∀ column ∈ index.columns, column.name ∈ r.table.columnNames
  nulls : ∀ (position : Nat) (column : Column), r.table.columns[position]? = some column →
    column.notNull = true → ∀ row ∈ r.rows, row[position]? ≠ some .null

namespace Relation

/-! ## The step -/

theorem Intact.new {s : CreateTable} {t : Table} (h : s.define = .ok t) : Intact { table := t } where
  even := .new h
  indexNames := .nil
  indexColumns := fun index hindex => by cases hindex
  nulls := fun position column _ _ row hrow => by cases hrow

theorem Intact.insert {now : String} {r next : Relation} {columns : List String}
    {values : List Literal} {returning : Option String} {inserted : Inserted} (hr : r.Intact)
    (h : r.insert now columns values returning = .ok (next, inserted)) : next.Intact := by
  have heven : next.Even := hr.even.change (.insert h)
  obtain ⟨row, hrow, rfl⟩ := insert_eq_ok h
  refine ⟨heven, hr.indexNames, hr.indexColumns, ?_⟩
  intro position column hcolumn hnotNull row' hrow' hnull
  rcases List.mem_append.1 hrow' with hold | hnew
  · exact hr.nulls position column hcolumn hnotNull row' hold hnull
  · obtain rfl := List.mem_singleton.1 hnew
    obtain ⟨-, hchecked⟩ := newRow_eq_ok _ hrow
    obtain ⟨-, hcheck, -⟩ := hchecked position column .null hcolumn hnull
    exact checkNull_eq_ok hcheck hnotNull rfl

theorem Intact.sublist {r : Relation} {rows : List Row} (hr : r.Intact) (h : rows.Sublist r.rows) :
    Intact { r with rows := rows } where
  even := ⟨hr.even.names, fun row hrow => hr.even.widths row (h.subset hrow)⟩
  indexNames := hr.indexNames
  indexColumns := hr.indexColumns
  nulls := fun position column hcolumn hnotNull row hrow =>
    hr.nulls position column hcolumn hnotNull row (h.subset hrow)

theorem Intact.updateWhere {now : String} {r next : Relation}
    {assignments : List (String × Literal)} {test : RowTest} {n : Nat} (hr : r.Intact)
    (h : r.updateWhere now assignments test = .ok (next, n)) : next.Intact := by
  have heven : next.Even := hr.even.change (.update h)
  obtain ⟨resolved, hits, hresolved, -, -, rfl, -⟩ := updateWhere_eq_ok h
  refine ⟨heven, hr.indexNames, hr.indexColumns, ?_⟩
  intro position column hcolumn hnotNull row hrow hnull
  obtain ⟨⟨old, hit⟩, hmem, rfl⟩ := List.mem_map.1 hrow
  have hold := hr.nulls position column hcolumn hnotNull old (List.of_mem_zip hmem).1
  cases hit with
  | false => exact hold hnull
  | true =>
    -- a value that was assigned to the column passed the check of the column
    have hnull : (assign resolved old)[position]? = some .null := hnull
    rw [assign_getElem?] at hnull
    obtain ⟨v, hv, hlast⟩ := Option.map_eq_some_iff.1 hnull
    cases hassigned : lastAssigned? resolved position with
    | none =>
      rw [hassigned, Option.getD_none] at hlast
      exact hold (hlast ▸ hv)
    | some w =>
      rw [hassigned, Option.getD_some] at hlast
      obtain ⟨other, l, hother, -, -, hcheck⟩ :=
        resolveAssignments_eq_ok _ hresolved position w (lastAssigned?_mem hassigned)
      obtain rfl := Option.some.inj (hcolumn.symm.trans hother)
      exact checkNull_eq_ok hcheck hnotNull hlast

theorem Intact.createIndex {r next : Relation} {index : Index} (hr : r.Intact)
    (h : r.createIndex index = .ok next) : next.Intact := by
  have heven : next.Even := hr.even.change (.index h)
  have hplain : next.table.plain = r.table.plain := Change.plain (.index h)
  obtain ⟨hnew, hall, hnext⟩ := createIndex_eq_ok h
  -- whether the column becomes unique or not, the rows are the same and there is one more index
  have hindexes : next.rows = r.rows ∧ next.indexes = r.indexes ++ [index] := by
    rcases hnext with ⟨-, rfl⟩ | ⟨-, position, -, -, -, rfl⟩ <;> exact ⟨rfl, rfl⟩
  obtain ⟨hrows, hindexes⟩ := hindexes
  have hnames : next.table.columnNames = r.table.columnNames := Table.columnNames_of_plain hplain
  refine ⟨heven, ?_, ?_, ?_⟩
  · rw [hindexes, List.map_append, List.nodup_append]
    refine ⟨hr.indexNames, List.nodup_singleton _, ?_⟩
    intro name hname other hother
    obtain ⟨i, hi, rfl⟩ := List.mem_map.1 hname
    rw [List.mem_singleton.1 hother]
    exact hnew i hi
  · rw [hindexes, hnames]
    intro i hi column hcolumn
    rcases List.mem_append.1 hi with hold | hlast
    · exact hr.indexColumns i hold column hcolumn
    · obtain rfl := List.mem_singleton.1 hlast
      exact requireAll_eq_ok _ hall _ (List.mem_map_of_mem hcolumn)
  · rw [hrows]
    intro position column hcolumn hnotNull
    obtain ⟨old, hold, -, hsame⟩ := Table.notNull_of_plain hplain hcolumn
    exact hr.nulls position old hold (hsame ▸ hnotNull)

theorem Intact.change {r next : Relation} (hr : r.Intact) (h : r.Change next) : next.Intact := by
  cases h with
  | insert h => exact hr.insert h
  | delete h =>
    obtain ⟨hits, -, rfl, -⟩ := deleteWhere_eq_ok h
    exact hr.sublist (kept_sublist r.rows hits)
  | truncate => exact hr.sublist (List.nil_sublist _)
  | update h => exact hr.updateWhere h
  | index h => exact hr.createIndex h

end Relation

/-! ## The run -/

namespace Catalog

theorem Reachable.intact {c : Catalog} (h : c.Reachable) {name : String} {r : Relation}
    (hr : c.get? name = some r) : r.Intact :=
  h.relation Relation.Intact.new Relation.Intact.change name r hr

/-- Every relation that is there after a script stands under the name of its own table, is well
formed, has the columns that its CREATE TABLE declares, and holds no null in a column that this
CREATE TABLE declares to be NOT NULL or to be in the primary key. -/
theorem after_intact (script : List (Times × Statement)) {name : String} {r : Relation}
    (hr : (after script).get? name = some r) :
    r.table.name = name ∧ r.Intact ∧
      ∃ d, Declares script name d ∧ r.table.columnNames = d.columns.map (·.name) ∧
        ∀ (position : Nat) (column : Column), r.table.columns[position]? = some column →
          (column.notNull = true ↔ d.ForbidsNull column.name) ∧
          (d.ForbidsNull column.name → ∀ row ∈ r.rows, row[position]? ≠ some .null) := by
  obtain ⟨d, t, hdeclares, ht, hplain⟩ := after_declared script hr
  have hintact : r.Intact := (Reachable.after script).intact hr
  have hforbids : ∀ (position : Nat) (column : Column), r.table.columns[position]? = some column →
      (column.notNull = true ↔ d.ForbidsNull column.name) := by
    intro position column hcolumn
    obtain ⟨declared, hdeclared, hname, hsame⟩ := Table.notNull_of_plain hplain hcolumn
    rw [← hname, ← hsame]
    exact CreateTable.define_notNull ht hdeclared
  refine ⟨(Reachable.after script).table_name hr, hintact, d, hdeclares, ?_, ?_⟩
  · exact (Table.columnNames_of_plain hplain).trans (CreateTable.define_columnNames ht)
  · intro position column hcolumn
    have hiff := hforbids position column hcolumn
    exact ⟨hiff, fun hnull => hintact.nulls position column hcolumn (hiff.2 hnull)⟩

/-- A table with a key of two columns, dropped and declared anew, an index, rows that are refused
and a row that is updated. -/
theorem after_intact_of_composite_key :
    let script : List (Times × Statement) :=
      [(fun _ => "", .createTable ⟨"t", false, [⟨"z", "int", false, []⟩], []⟩),
        (fun _ => "", .dropTable "t" false),
        (fun _ => "", .createTable ⟨"t", false, [⟨"a", "int", false, []⟩,
          ⟨"b", "text", false, []⟩, ⟨"c", "text", false, [.default ⟨.string, "x"⟩]⟩], ["a", "b"]⟩),
        (fun _ => "", .createIndex ⟨"i", "t", true, false, [⟨"c", false⟩]⟩),
        (fun _ => "", .insert ⟨"t", ["b", "a"], [[⟨.string, "k"⟩, ⟨.number, "1"⟩],
          [⟨.null, "null"⟩, ⟨.number, "2"⟩]], none⟩),
        (fun _ => "", .update ⟨"t", [("c", ⟨.null, "null"⟩), ("b", ⟨.string, "m"⟩)], []⟩),
        (fun _ => "", .update ⟨"t", [("a", ⟨.null, "null"⟩)], []⟩)]
    let r : Relation := ⟨⟨"t", [⟨"a", "int", false, false, true, none⟩,
        ⟨"b", "text", false, false, true, none⟩,
        ⟨"c", "text", false, true, false, some (.literal ⟨.string, "x"⟩)⟩]⟩,
      [[.integer 1, .text "m", .null]], [⟨"i", [⟨"c", false⟩], true⟩]⟩
    (after script).get? "t" = some r ∧ r.Intact ∧
      ∃ d, Declares script "t" d ∧ d.ForbidsNull "a" ∧ d.ForbidsNull "b" ∧ ¬ d.ForbidsNull "c" := by
  intro script r
  have hget : (after script).get? "t" = some r := by decide +kernel
  obtain ⟨-, hintact, d, hdeclares, -, hforbids⟩ := after_intact script hget
  refine ⟨hget, hintact, d, hdeclares, ?_, ?_, ?_⟩
  · exact (hforbids 0 _ rfl).1.1 rfl
  · exact (hforbids 1 _ rfl).1.1 rfl
  · intro hc
    exact Bool.false_ne_true ((hforbids 2 _ rfl).1.2 hc)

end Catalog

end Tabula
