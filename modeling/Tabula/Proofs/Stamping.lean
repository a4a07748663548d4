import Tabula.Proofs.Atomicity
import Tabula.Proofs.Declaration
import Tabula.Proofs.Shape
import Tabula.Proofs.Typing

/-!
# Where times in columns come from

A time is the one thing that a column stores whatever its type.  Every time that stands in a column
was stored there by a statement that reads the time for this column, and that was executed since the
table was created.

* `Statement.execute_alters`: what a statement makes of a relation, by the kind of the statement.
* `Statement.Alters.stamped`: the step; a statement adds no times but those that it stores.
* `Catalog.after_stamped`: the run; columns hold values of their declared types, and such times.
-/

namespace Tabula

/-! ## Algorithm -/

namespace Statement

/-- What a statement makes of the relation that it targets, if it does anything to it. -/
inductive Alters (times : Times) (r : Relation) : Statement → Relation → Prop where
  | createIndex {s : CreateIndex} {next : Relation} :
      r.createIndex s.define = .ok next → Alters times r (.createIndex s) next
  | insert {s : Insert} : Alters times r (.insert s) ((s.insertRows times 0 s.rows).after r)
  | update {s : Update} {test : RowTest} {next : Relation} {n : Nat} :
      r.updateWhere (times 0) s.assignments test = .ok (next, n) → Alters times r (.update s) next
  | delete {s : Delete} {test : RowTest} {next : Relation} {n : Nat} :
      r.deleteWhere test = .ok (next, n) → Alters times r (.delete s) next
  | deleteAll {s : Delete} : Alters times r (.delete s) r.truncate.1
  | truncate {table : String} : Alters times r (.truncate table) r.truncate.1

/-- A statement stores a time in a column of its table: an INSERT with a row that stores the time of
this row, or an UPDATE that assigns the time. -/
inductive Stamps (times : Times) (column : Column) : Statement → String → Prop where
  | insert {s : Insert} {i : Nat} {values : List Literal} : s.rows[i]? = some values →
      column.storesTime (Relation.supplied? s.columns values column.name) = true →
      Stamps times column (.insert s) (times i)
  | update {s : Update} {l : Literal} : (column.name, l) ∈ s.assignments →
      l.isGenerator = true → Stamps times column (.update s) (times 0)

end Statement

/-- One of the statements, which targets the table of a name, stores a time in a column. -/
def Statement.StampedBy (name : String) (statements : List (Times × Statement)) (column : Column)
    (text : String) : Prop :=
  ∃ step ∈ statements, step.2.target? = some name ∧ step.2.Stamps step.1 column text

/-- A column with nothing said of nulls and repetitions, which a key or an index may forbid. -/
def Column.bare (a : Column) : Column :=
  { a with unique := false, notNull := false }

/-! ## Lemmas -/

/-! ### Declared columns -/

theorem Column.of_bare {a b : Column} (h : a.bare = b.bare) :
    a.name = b.name ∧ a.typeName = b.typeName ∧ a.autoIncrement = b.autoIncrement ∧
      a.default = b.default := by
  obtain ⟨hname, htype, hauto, -, -, hdefault⟩ := Column.mk.inj h
  exact ⟨hname, htype, hauto, hdefault⟩

/-- The columns of a table are those that are declared, but for what its key says of them. -/
theorem CreateTable.define_bare {s : CreateTable} {t : Table} (h : s.define = .ok t) :
    t.columns.map Column.bare = s.columns.map (·.column.bare) := by
  simp only [define, bind_eq_ok] at h
  obtain ⟨made, hmake, hkeys⟩ := h
  obtain ⟨rfl, -⟩ := Table.make_eq_ok hmake
  rw [(Table.setKeys_map (g := Column.bare) (fun _ => rfl) _ hkeys).2, List.map_map]
  rfl

theorem Table.bare_of_plain {t u : Table} (h : t.plain = u.plain) :
    t.columns.map Column.bare = u.columns.map Column.bare := by
  have hbare : ∀ t : Table, t.plain.columns.map Column.bare = t.columns.map Column.bare := by
    intro t
    unfold plain
    rw [List.map_map]
    rfl
  rw [← hbare t, h, hbare u]

/-- A declaration stands for the column at its place. -/
theorem CreateTable.column_of_plain {d : CreateTable} {t u : Table} (ht : d.define = .ok t)
    (h : u.plain = t.plain) {i : Nat} {declared : ColumnDef} (hi : d.columns[i]? = some declared) :
    ∃ column, u.columns[i]? = some column ∧ column.bare = declared.column.bare := by
  have hat : (u.columns.map Column.bare)[i]? = (d.columns.map (·.column.bare))[i]? := by
    rw [Table.bare_of_plain h, define_bare ht]
  rw [List.getElem?_map, List.getElem?_map, hi, Option.map_some] at hat
  exact Option.map_eq_some_iff.1 hat

/-! ### One statement -/

/-- An atomic action leaves a relation as it was, or puts another one into its place. -/
theorem Outcome.ofAction_get? {c : Catalog} {a : Action Catalog (List Frame)} (ha : a.Atomic)
    {name : String} {old r : Relation} (hold : c.get? name = some old)
    (h : (Outcome.ofAction a c).catalog.get? name = some r) :
    r = old ∨ ∃ next frames, a.reach c = .ok (next, frames) ∧ next.get? name = some r := by
  rcases Outcome.ofAction_cases ha c with hc | ⟨next, frames, hx, hc⟩
  · rw [hc, hold] at h
    exact Or.inl (Option.some.inj h).symm
  · exact Or.inr ⟨next, frames, hx, hc ▸ h⟩

/-- What is put in the place of the relation of a name is found under this name. -/
theorem Catalog.placed {c : Catalog} {table name : String} {old found next r : Relation}
    (hold : c.get? name = some old) (htable : some table = some name)
    (hfound : c.get? table = some found) (hr : (c.set table next).get? name = some r) :
    found = old ∧ next = r := by
  obtain rfl := Option.some.inj htable
  rw [get?_set, if_pos rfl] at hr
  exact ⟨Option.some.inj (hfound.symm.trans hold), Option.some.inj hr⟩

namespace Statement

variable {times : Times} {s : Statement} {name : String} {old r : Relation}

/-- A statement leaves a relation as it was, or makes of it what its kind makes of its target. -/
theorem execute_alters {c : Catalog} (hold : c.get? name = some old)
    (h : (s.execute times c).catalog.get? name = some r) :
    r = old ∨ s.target? = some name ∧ s.Alters times old r := by
  by_cases htarget : s.target? = some name
  · refine (em (r = old)).imp_right fun hne => ⟨htarget, ?_⟩
    rw [execute_catalog] at h
    cases s with
    | createTable d =>
      rcases CreateTable.execute_origin h with ⟨-, -, hnone, -⟩ | hr
      · rw [hold] at hnone
        cases hnone
      · exact absurd (Option.some.inj (hr.symm.trans hold)) hne
    | createIndex d =>
      obtain ⟨next, frames, hx, hr⟩ :=
        (Outcome.ofAction_get? d.atomic_execute hold h).resolve_left hne
      obtain ⟨found, indexed, hfound, hindex, rfl⟩ := CreateIndex.execute_eq_ok hx
      obtain ⟨rfl, rfl⟩ := Catalog.placed hold htarget hfound hr
      exact .createIndex hindex
    | insert d =>
      obtain rfl := Option.some.inj htarget
      have h : (Outcome.ofAction (d.execute times) c).catalog.get? d.table = some r := h
      rw [Outcome.ofAction_catalog, Insert.execute_after hold] at h
      obtain ⟨-, rfl⟩ := Catalog.placed hold htarget hold h
      exact .insert
    | select d => cases htarget
    | update d =>
      obtain ⟨next, frames, hx, hr⟩ :=
        (Outcome.ofAction_get? (d.atomic_execute (times 0)) hold h).resolve_left hne
      obtain ⟨found, test, updated, n, hfound, hupdate, rfl⟩ := Update.execute_eq_ok hx
      obtain ⟨rfl, rfl⟩ := Catalog.placed hold htarget hfound hr
      exact .update hupdate
    | delete d =>
      obtain ⟨next, frames, hx, hr⟩ :=
        (Outcome.ofAction_get? (d.atomic_execute (times 0)) hold h).resolve_left hne
      obtain ⟨found, hfound, rfl | ⟨test, left, n, hdelete, rfl⟩⟩ := Delete.execute_eq_ok hx
      · obtain ⟨rfl, rfl⟩ := Catalog.placed hold htarget hfound hr
        exact .deleteAll
      · obtain ⟨rfl, rfl⟩ := Catalog.placed hold htarget hfound hr
        exact .delete hdelete
    | truncate table =>
      obtain ⟨next, frames, hx, hr⟩ :=
        (Outcome.ofAction_get? (Catalog.atomic_truncate table) hold h).resolve_left hne
      obtain ⟨found, hfound, rfl⟩ := Catalog.truncate_eq_ok hx
      obtain ⟨rfl, rfl⟩ := Catalog.placed hold htarget hfound hr
      exact .truncate
    | dropTable table ifExists =>
      obtain ⟨next, frames, hx, hr⟩ :=
        (Outcome.ofAction_get? (Catalog.atomic_dropTable table) hold h).resolve_left hne
      obtain ⟨-, -, rfl⟩ := Catalog.dropTable_eq_ok hx
      rw [Catalog.get?_erase, if_pos (Option.some.inj htarget).symm] at hr
      cases hr
    | grant => cases htarget
  · rw [execute_get?_of_ne times c htarget, hold] at h
    exact Or.inl (Option.some.inj h).symm

/-- Keys and indexes make no difference to the times that are stored. -/
theorem Stamps.of_bare {column other : Column} {text : String} (h : s.Stamps times column text)
    (hbare : column.bare = other.bare) : s.Stamps times other text := by
  obtain ⟨hname, -, -, hdefault⟩ := Column.of_bare hbare
  cases h with
  | insert hvalues htime =>
    refine .insert hvalues ?_
    unfold Column.storesTime at htime ⊢
    rw [← hname, ← hdefault]
    exact htime
  | update hassigned hgenerator => exact .update (hname ▸ hassigned) hgenerator

end Statement

/-! ### Columns after a statement -/

section Stamped

variable {times : Times} {S : Column → String → Prop} {r next : Relation}

/-- The rows of an INSERT hold the times of their places, where they store the time. -/
theorem Relation.Stamped.insertRows {s : Insert} (rows : List (List Literal)) :
    ∀ {i : Nat} {r : Relation}, r.Stamped S →
      (∀ (k : Nat) values, rows[k]? = some values → ∀ column : Column,
        column.storesTime (Relation.supplied? s.columns values column.name) = true →
          S column (times (i + k))) →
      ((s.insertRows times i rows).after r).Stamped S := by
  induction rows with
  | nil => intro i r hr _; exact hr
  | cons values rest ih =>
    intro i r hr hS
    rw [Insert.insertRows_after]
    cases hi : r.insert (times i) s.columns values s.returning with
    | error fault => exact hr
    | ok p =>
      have hfirst : p.1.Stamped S := hr.insert hi fun column _ => hS 0 values rfl column
      refine ih hfirst fun k values' hvalues' column htime => ?_
      rw [Nat.add_assoc, Nat.add_comm 1 k]
      exact hS (k + 1) values' hvalues' column htime

/-- A statement adds no times but those that it stores. -/
theorem Statement.Alters.stamped {s : Statement} (h : s.Alters times r next) (hr : r.Stamped S)
    (hunique : ∀ column text, S column text → S { column with unique := true } text)
    (hS : ∀ column text, s.Stamps times column text → S column text) : next.Stamped S := by
  cases h with
  | createIndex h => exact hr.createIndex h hunique
  | insert =>
    refine hr.insertRows _ fun k values hvalues column htime => ?_
    rw [Nat.zero_add]
    exact hS column (times k) (.insert hvalues htime)
  | update h =>
    exact hr.updateWhere h fun column l hassigned hgenerator =>
      hS column (times 0) (.update hassigned hgenerator)
  | delete h =>
    obtain ⟨hits, -, rfl, -⟩ := Relation.deleteWhere_eq_ok h
    exact hr.sublist (Relation.kept_sublist r.rows hits)
  | deleteAll => exact hr.sublist (List.nil_sublist _)
  | truncate => exact hr.sublist (List.nil_sublist _)

/-- After one more statement, columns hold no times but those that one of the statements stores. -/
theorem Statement.execute_stamped {s : Statement} {c : Catalog} {name : String}
    {statements : List (Times × Statement)} (hold : c.get? name = some r)
    (h : (s.execute times c).catalog.get? name = some next)
    (hr : r.Stamped (Statement.StampedBy name statements)) :
    next.Stamped (Statement.StampedBy name (statements ++ [(times, s)])) := by
  have hearlier : r.Stamped (Statement.StampedBy name (statements ++ [(times, s)])) :=
    hr.mono fun column text ⟨step, hstep, hstored⟩ =>
      ⟨step, List.mem_append_left _ hstep, hstored⟩
  rcases execute_alters hold h with rfl | ⟨htarget, halters⟩
  · exact hearlier
  · refine halters.stamped hearlier ?_ fun column text hstamps => ?_
    · rintro column text ⟨step, hstep, hstarget, hstamps⟩
      exact ⟨step, hstep, hstarget, hstamps.of_bare rfl⟩
    · exact ⟨(times, s), List.mem_append_right _ List.mem_cons_self, htarget, hstamps⟩

end Stamped

/-! ## Top theorem -/

namespace Catalog

/-- A table that is there after a script was made by a CREATE TABLE of the script, and has the
columns that are declared there.  A column that is not declared to number its rows holds in every
row a null, a value of its declared type, or a time that a later statement on this table stored
there. -/
theorem after_stamped (script : List (Times × Statement)) {name : String} {r : Relation}
    (hr : (after script).get? name = some r) :
    ∃ before times d rest, script = before ++ (times, .createTable d) :: rest ∧
      Made name before times d rest ∧ r.table.columnNames = d.columns.map (·.name) ∧
      ∀ row ∈ r.rows, ∀ (i : Nat) (declared : ColumnDef), d.columns[i]? = some declared →
        .autoIncrement ∉ declared.constraints →
        ∃ v, row[i]? = some v ∧
          ((ColumnType.ofName (Text.lowercase declared.typeName)).Holds v ∨
            ∃ text, v = .text text ∧
              Statement.StampedBy name rest declared.column text) := by
  obtain ⟨before, times, d, rest, hscript, hmade, ⟨t, ht, hplain⟩, hstamped⟩ :=
    after_since
      (P := fun d rest r => (∃ t, d.define = .ok t ∧ r.table.plain = t.plain) ∧
        r.Stamped (Statement.StampedBy name rest))
      (fun ht => ⟨⟨_, ht, rfl⟩, Relation.Stamped.new⟩)
      (fun ⟨⟨t, ht, hplain⟩, hstamped⟩ hold hr =>
        ⟨⟨t, ht, (Statement.execute_changes hold hr).plain.trans hplain⟩,
          Statement.execute_stamped hold hr hstamped⟩) script hr
  refine ⟨before, times, d, rest, hscript, hmade, ?_, ?_⟩
  · exact (Table.columnNames_of_plain hplain).trans (CreateTable.define_columnNames ht)
  · intro row hrow i declared hdeclared hcounts
    obtain ⟨column, hcolumn, hbare⟩ := CreateTable.column_of_plain ht hplain hdeclared
    obtain ⟨-, htype, hauto, -⟩ := Column.of_bare hbare
    have hwidth : i < row.length := by
      rw [((Reachable.after script).even name r hr).widths row hrow]
      exact (List.getElem?_eq_some_iff.1 hcolumn).1
    have hnot : column.autoIncrement = false := by
      rw [hauto, Bool.eq_false_iff]
      exact fun hset => hcounts (declared.column_autoIncrement.1 hset)
    refine ⟨row[i], List.getElem?_eq_getElem hwidth, ?_⟩
    rw [← declared.column_typeName, ← htype]
    rcases hstamped row hrow i column row[i] hcolumn hnot (List.getElem?_eq_getElem hwidth) with
      hholds | ⟨text, htext, step, hstep, htarget, hstamps⟩
    · exact .inl hholds
    · exact .inr ⟨text, htext, step, hstep, htarget, hstamps.of_bare hbare⟩

/-- Two rows of an INSERT, whose times stand in a column of whole numbers where NOW() is supplied,
and in a column of truth values by default. -/
theorem after_stamped_of_rows :
    let create : CreateTable := ⟨"t", false, [⟨"a", "INT", false, []⟩,
      ⟨"b", "Boolean", false, [.default ⟨.localTimestamp, "LOCALTIMESTAMP"⟩]⟩], []⟩
    let insert : Times × Statement := (fun i => if i = 0 then "first" else "second",
      .insert ⟨"t", ["a"], [[⟨.string, "7"⟩], [⟨.now, "NOW()"⟩]], none⟩)
    let r : Relation := ⟨⟨"t", [⟨"a", "int", false, false, false, none⟩,
      ⟨"b", "boolean", false, false, false, some .currentTime⟩]⟩,
      [[.integer 7, .text "first"], [.text "second", .text "second"]], []⟩
    (after [(fun _ => "", .createTable create), insert]).get? "t" = some r ∧
      Statement.StampedBy "t" [insert] (ColumnDef.column ⟨"a", "INT", false, []⟩) "second" := by
  intro create insert r
  have hget : (after [(fun _ => "", .createTable create), insert]).get? "t" = some r := by
    decide +kernel
  refine ⟨hget, ?_⟩
  obtain ⟨before, times, d, rest, hscript, -, -, hcolumns⟩ := after_stamped _ hget
  -- only the first statement is a CREATE TABLE
  obtain ⟨rfl, rfl⟩ : create = d ∧ [insert] = rest := by
    cases before with
    | nil =>
      obtain ⟨hfirst, hrest⟩ := List.cons.inj hscript
      exact ⟨Statement.createTable.inj (Prod.mk.inj hfirst).2, hrest⟩
    | cons first before =>
      have hrest := (List.cons.inj hscript).2
      cases before with
      | nil =>
        have hsecond : insert.2 = .createTable d := congrArg Prod.snd (List.cons.inj hrest).1
        cases hsecond
      | cons second before => cases before <;> cases (List.cons.inj hrest).2
  obtain ⟨v, hv, hholds | ⟨text, htext, hstamped⟩⟩ := hcolumns
    [.text "second", .text "second"] (List.mem_cons_of_mem _ List.mem_cons_self) 0
    ⟨"a", "INT", false, []⟩ rfl List.not_mem_nil
  · obtain rfl := Option.some.inj hv
    have htype : ColumnType.ofName (Text.lowercase "INT") = .integer := by decide +kernel
    rw [htype] at hholds
    exact hholds.elim
  · obtain rfl := Option.some.inj hv
    obtain rfl := Value.text.inj htext
    exact hstamped

/-- Not every column that does not number its rows holds nulls and values of its type alone: NOW()
is stored in a column of whole numbers. -/
theorem not_forall_holds :
    ¬ ∀ (script : List (Times × Statement)) (name : String) (r : Relation),
      (after script).get? name = some r → ∀ row ∈ r.rows,
        ∀ (i : Nat) (column : Column) (v : Value), r.table.columns[i]? = some column →
          column.autoIncrement = false → row[i]? = some v → column.columnType.Holds v := by
  intro hall
  let column : Column := { name := "a", typeName := "int" }
  have hget : (after [(fun _ => "", .createTable ⟨"t", false, [⟨"a", "INT", false, []⟩], []⟩),
      (fun _ => "now", .insert ⟨"t", ["a"], [[⟨.now, "NOW()"⟩]], none⟩)]).get? "t" =
        some { table := ⟨"t", [column]⟩, rows := [[.text "now"]] } := by
    decide +kernel
  have hholds := hall _ _ _ hget [.text "now"] List.mem_cons_self 0 column (.text "now") rfl rfl rfl
  have htype : column.columnType = .integer := by decide +kernel
  rw [htype] at hholds
  exact hholds

end Catalog

end Tabula
