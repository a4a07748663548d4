import Tabula.Proofs.Integrity
import Tabula.Proofs.Selection

/-!
# All statements mean the same rows by the same conditions

A SELECT tests records that a scan put together, an UPDATE and a DELETE test the rows of their table
one by one.  Both look up the table and the columns of the conditions first (`Catalog.lookUp`), and
then ask the same of every row (`Table.meets`).

* `Select.execute_ofTable`, `Delete.execute_eq`, `Update.execute_eq`: what each of them does, said of
  `Table.meets`.
* `Catalog.Reachable.conditions_agree`: they fail together, or are about the same rows.
-/

namespace Tabula

/-! ## Algorithm -/

/-- No literal of a condition stands for the time. -/
def Condition.Timeless : Condition → Prop
  | .always => True
  | .compare _ _ l => l.isGenerator = false
  | .oneOf _ ls _ => ∀ l ∈ ls, l.isGenerator = false
  | .nullTest _ _ => True

/-- A table as the only source of a query.  It has no rows, as what is asked of one row does not
depend on the others. -/
def Table.source (t : Table) : Source :=
  ⟨t.name, t.columnNames, []⟩

/-- Whether a row of a table meets conditions at a given time. -/
def Table.meets (t : Table) (now : String) (conditions : List Condition) (row : Row) : Bool :=
  conditions.all (·.meets now [t.source] [row])

/-- All columns of a table, as an answer shows them. -/
def Table.layout (t : Table) : Layout :=
  ⟨t.columnNames, (Scope.mk [(t.name, t.columnNames)]).allColumns.map (·.1), []⟩

/-- A SELECT from one table that has conditions and nothing else. -/
def Select.ofTable (table : String) (projections : List Projection) (conditions : List Condition) :
    Select :=
  ⟨none, projections, [table], [], conditions, [], none, none, false⟩

/-- Looks up a table, then the columns of conditions on it. -/
def Catalog.lookUp (now : String) (c : Catalog) (table : String) (conditions : List Condition) :
    Except Fault (Relation × List Predicate) := do
  let r ← c.get table
  let ps ← Predicate.bindAll now ⟨[(table, r.table.columnNames)]⟩ conditions
  return (r, ps)

/-! ## Lemmas -/

/-! ### Time -/

theorem Operand.ofLiteral_eq {l : Literal} (h : l.isGenerator = false) (now now' : String) :
    ofLiteral now l = ofLiteral now' l := by
  simp [ofLiteral, Literal.lexemeAt, h]

theorem Operand.ofLiterals_eq {ls : List Literal} (h : ∀ l ∈ ls, l.isGenerator = false)
    (now now' : String) : ofLiterals now ls = ofLiterals now' ls := by
  unfold ofLiterals
  congr 1
  apply List.map_congr_left
  intro l hl
  simp [Literal.lexemeAt, h l hl]

namespace Condition.Timeless

theorem bind_eq {condition : Condition} (h : condition.Timeless) (now now' : String) (s : Scope) :
    Predicate.bind now s condition = Predicate.bind now' s condition := by
  cases condition with
  | always => rfl
  | compare c op l => rw [Predicate.bind, Predicate.bind, Operand.ofLiteral_eq h now now']
  | oneOf c ls negated => rw [Predicate.bind, Predicate.bind, Operand.ofLiterals_eq h now now']
  | nullTest c negated => rfl

theorem meets_eq {condition : Condition} (h : condition.Timeless) (now now' : String)
    (sources : List Source) (combination : Combination) :
    condition.meets now sources combination = condition.meets now' sources combination := by
  cases condition with
  | always => rfl
  | compare c op l => rw [Condition.meets, Condition.meets, Operand.ofLiteral_eq h now now']
  | oneOf c ls negated => rw [Condition.meets, Condition.meets, Operand.ofLiterals_eq h now now']
  | nullTest c negated => rfl

variable {conditions : List Condition}

theorem bindAll_eq (h : ∀ condition ∈ conditions, condition.Timeless) (now now' : String)
    (s : Scope) : Predicate.bindAll now s conditions = Predicate.bindAll now' s conditions := by
  induction conditions with
  | nil => rfl
  | cons condition rest ih =>
    rw [Predicate.bindAll, Predicate.bindAll, (h condition List.mem_cons_self).bind_eq now now',
      ih fun other hother => h other (List.mem_cons_of_mem _ hother)]

theorem lookUp_eq (h : ∀ condition ∈ conditions, condition.Timeless) (now now' : String)
    (c : Catalog) (table : String) :
    c.lookUp now table conditions = c.lookUp now' table conditions := by
  unfold Catalog.lookUp
  simp only [bindAll_eq h now now']

theorem table_meets_eq (h : ∀ condition ∈ conditions, condition.Timeless) (now now' : String)
    (t : Table) : t.meets now conditions = t.meets now' conditions := by
  funext row
  unfold Table.meets
  induction conditions with
  | nil => rfl
  | cons condition rest ih =>
    rw [List.all_cons, List.all_cons, (h condition List.mem_cons_self).meets_eq now now',
      ih fun other hother => h other (List.mem_cons_of_mem _ hother)]

end Condition.Timeless

/-! ### Rows of one table -/

theorem Table.whole_row {t : Table} {row : Row} (h : row.length = t.columns.length) :
    Combination.Whole [t.source] [row] where
  length := rfl
  fitting := by
    refine (Fitting.nil [t.source]).concat (s := t.source) rfl ?_
    rw [h, source, columnNames, List.length_map]

/-- The record of a row agrees with the row, whatever the name of the table. -/
theorem Table.agrees_ofRow {t : Table} (hnames : t.columnNames.Nodup) (row : Row) :
    Agrees [t.source] [row] (.ofRow t row) := by
  intro i j s row' column v hs hrow hcolumn hv
  obtain rfl : i = 0 := by
    have := (List.getElem?_eq_some_iff.1 hs).1
    rw [List.length_singleton] at this
    omega
  obtain rfl := Option.some.inj hs
  obtain rfl := Option.some.inj hrow
  exact Record.get?_merge t.columnNames row {} j hnames hcolumn hv

/-- A record that stands for a row of a table. -/
def Table.Stands (t : Table) (combination : Combination) (record : Record) : Prop :=
  combination.Whole [t.source] ∧ Agrees [t.source] combination record

theorem Relation.Even.stands {r : Relation} (h : r.Even) {row : Row} (hrow : row ∈ r.rows) :
    r.table.Stands [row] (.ofRow r.table row) :=
  ⟨Table.whole_row (h.widths row hrow), Table.agrees_ofRow h.names row⟩

/-- Predicates ask of a record what conditions ask of the row that it stands for. -/
def Table.Asks (t : Table) (now : String) (conditions : List Condition) (ps : List Predicate) :
    Prop :=
  ∀ combination record, t.Stands combination record →
    Predicate.all record ps = .ok (conditions.all (·.meets now [t.source] combination))

/-! ### Looking up -/

/-- The references of conditions that could be bound can be resolved. -/
theorem Predicate.bindAll_resolves {now : String} {s : Scope} (conditions : List Condition) :
    ∀ {ps : List Predicate}, bindAll now s conditions = .ok ps →
      ∀ ref ∈ conditions.flatMap (·.references), ∃ key, s.resolve ref = .ok key := by
  have hone : ∀ {condition : Condition} {p : Predicate}, bind now s condition = .ok p →
      ∀ ref ∈ condition.references, ∃ key, s.resolve ref = .ok key := by
    intro condition p h ref href
    cases condition with
    | always => cases href
    | compare c op l =>
      obtain rfl := List.mem_singleton.1 href
      obtain ⟨key, hkey, -⟩ := bind_eq_ok.1 h
      exact ⟨key, hkey⟩
    | oneOf c ls negated =>
      obtain rfl := List.mem_singleton.1 href
      obtain ⟨key, hkey, -⟩ := bind_eq_ok.1 h
      exact ⟨key, hkey⟩
    | nullTest c negated =>
      obtain rfl := List.mem_singleton.1 href
      obtain ⟨key, hkey, -⟩ := bind_eq_ok.1 h
      exact ⟨key, hkey⟩
  induction conditions with
  | nil => intro ps _ ref href; cases href
  | cons condition rest ih =>
    intro ps h ref href
    simp only [bindAll, bind_eq_ok] at h
    obtain ⟨p, hp, others, hothers, -⟩ := h
    rw [List.flatMap_cons] at href
    rcases List.mem_append.1 href with hfirst | hrest
    · exact hone hp ref hfirst
    · exact ih hothers ref hrest

/-- Conditions on one table that could be bound are asked of its rows. -/
theorem Table.asks_of_bindAll {t : Table} {now : String} {conditions : List Condition}
    {ps : List Predicate}
    (h : Predicate.bindAll now ⟨[(t.name, t.columnNames)]⟩ conditions = .ok ps) :
    t.Asks now conditions ps := by
  have hnames : ([t.source].map (·.name)).Nodup := List.nodup_singleton _
  obtain ⟨ps', hps', hall⟩ := Predicate.bindAll_covers hnames now conditions fun ref href =>
    (Scope.resolves_iff hnames).1 (Predicate.bindAll_resolves conditions h ref href)
  obtain rfl := Except.ok.inj (h.symm.trans hps')
  exact fun combination record hstands => hall combination record hstands.1 hstands.2

/-- A table that was found has its shape, and the conditions that were bound are asked of its
rows. -/
structure Catalog.Finds (now : String) (c : Catalog) (table : String) (conditions : List Condition)
    (r : Relation) (ps : List Predicate) : Prop where
  get? : c.get? table = some r
  name : r.table.name = table
  even : r.Even
  lookUp : c.lookUp now table conditions = .ok (r, ps)
  asks : r.table.Asks now conditions ps

theorem Catalog.Reachable.finds {c : Catalog} (h : c.Reachable) {now table : String}
    {conditions : List Condition} {r : Relation} {ps : List Predicate}
    (hlookUp : c.lookUp now table conditions = .ok (r, ps)) : c.Finds now table conditions r ps := by
  have hparts := hlookUp
  simp only [Catalog.lookUp, bind_eq_ok, pure_eq_ok, Prod.mk.injEq] at hparts
  obtain ⟨r', hr, ps', hps, rfl, rfl⟩ := hparts
  have hget := Catalog.get_eq_ok.1 hr
  have hname := h.table_name hget
  exact ⟨hget, hname, h.even table r' hget, hlookUp, Table.asks_of_bindAll (hname.symm ▸ hps)⟩

/-! ## SELECT -/

/-- A SELECT from one table looks it up and the columns of its conditions, then those of the
answer. -/
theorem Select.bind_ofTable (now : String) (c : Catalog) (table : String)
    (projections : List Projection) (conditions : List Condition) :
    (ofTable table projections conditions).bind now c = do
      let (r, ps) ← c.lookUp now table conditions
      let answer ← Answer.bind projections [] ⟨[(table, r.table.columnNames)]⟩
      return ⟨⟨table, r, none⟩, [], ps, answer, []⟩ := by
  have hsole : [table].eraseDups = [table] := eraseDups_of_nodup (List.nodup_singleton table)
  have hnames : (ofTable table projections conditions).tableNames = [table] := hsole
  have hcrossed : (ofTable table projections conditions).crossedNames = [] := by
    rw [crossedNames, ofTable, hsole]
    rfl
  unfold Select.bind Catalog.lookUp
  rw [hnames, hcrossed]
  cases hr : c.get table with
  | error f => simp [tableColumns, hr]
  | ok r =>
    have hscope : Scope.ofList [(table, r.table.columnNames)] = ⟨[(table, r.table.columnNames)]⟩ :=
      rfl
    cases hps : Predicate.bindAll now ⟨[(table, r.table.columnNames)]⟩ conditions with
    | error f => simp [tableColumns, hr, hscope, ofTable, hps]
    | ok ps => simp [tableColumns, hr, hscope, ofTable, hps, crossedLevels, joinedLevels, stages]

/-- Without other tables a scan gives the records of the rows. -/
theorem Scan.run_base (base : Level) (rows : List Row) :
    Scan.run base [] rows = (rows.map (base.merge {}), none) := by
  induction rows with
  | nil => rfl
  | cons row rest ih =>
    simp only [Scan.run, Scan.descend, ih]
    rfl

/-- The records that a query on one table selects stand for the rows that meet the conditions. -/
theorem Query.records_ofTable {now : String} {c : Catalog} {table : String}
    {conditions : List Condition} {r : Relation} {ps : List Predicate}
    (h : c.Finds now table conditions r ps) (answer : Answer) (stages : List Stage) :
    ∃ kept, Query.records ⟨⟨table, r, none⟩, [], ps, answer, stages⟩ = (kept, none) ∧
      List.Forall₂ r.table.Stands ((r.rows.filter (r.table.meets now conditions)).map ([·]))
        kept := by
  have hrecords : r.rows.map (Level.merge ⟨table, r, none⟩ {}) =
      r.rows.map (Record.ofRow r.table) := by
    apply List.map_congr_left
    intro row _
    rw [Level.merge, Record.ofRow, h.name]
  have hstands : List.Forall₂ r.table.Stands (r.rows.map ([·]))
      (r.rows.map (Record.ofRow r.table)) := by
    rw [List.forall₂_map_left_iff, List.forall₂_map_right_iff, List.forall₂_same]
    exact fun row hrow => h.even.stands hrow
  obtain ⟨kept, hkept, hfound⟩ := Query.keep_covers h.asks hstands
  rw [List.filter_map] at hfound
  refine ⟨kept, ?_, hfound⟩
  simp only [Query.records, Scan.run_base, hrecords, hkept]

/-- The outcome of a SELECT from one table is that of what its names are bound to. -/
theorem Select.execute_ofTable {times : Times} {c : Catalog} {table : String}
    {projections : List Projection} {conditions : List Condition} {r : Relation}
    {ps : List Predicate} (h : c.lookUp (times 0) table conditions = .ok (r, ps)) {answer : Answer}
    (hanswer : Answer.bind projections [] ⟨[(table, r.table.columnNames)]⟩ = .ok answer) :
    (Statement.select (ofTable table projections conditions)).execute times c =
      let frames := Query.frames ⟨⟨table, r, none⟩, [], ps, answer, []⟩
      ⟨c, frames.1, frames.2⟩ := by
  show Select.execute (times 0) _ c = _
  unfold Select.execute
  rw [bind_ofTable, h, ok_bind]
  simp only [hanswer]
  rfl

/-- SELECT * shows the rows that meet the conditions. -/
theorem Select.execute_star {times : Times} {c : Catalog} {table : String}
    {conditions : List Condition} {r : Relation} {ps : List Predicate}
    (h : c.Finds (times 0) table conditions r ps) :
    (Statement.select (ofTable table [.star] conditions)).execute times c =
      .ofRows c r.table.columnNames
        ((r.rows.filter (r.table.meets (times 0) conditions)).map (·.map (·.canonical))) := by
  obtain rfl : r.table.name = table := h.name
  have hheader : (Scope.mk [(r.table.name, r.table.columnNames)]).allColumns.map (·.2) =
      r.table.columnNames := by
    simp [Scope.allColumns, Function.comp_def]
  have hanswer : Answer.bind [.star] [] ⟨[(r.table.name, r.table.columnNames)]⟩ =
      .ok (.cells r.table.layout) := by
    simp [Answer.bind, Answer.isCount, Layout.bind, Layout.allColumns, Layout.columns,
      Layout.sortColumns, Table.layout, hheader]
  rw [execute_ofTable h.lookUp hanswer]
  obtain ⟨kept, hkept, hstands⟩ := Query.records_ofTable h (.cells r.table.layout) []
  have hproject : ∀ combination record, r.table.Stands combination record →
      r.table.layout.project record = .ok ([], combination.flatten.map (·.canonical)) := by
    intro combination record hrecord
    have hreads : Layout.Reads record r.table.layout.keys combination.flatten :=
      Layout.reads_star hrecord.1 hrecord.2
    rw [Layout.project, Layout.values_of_reads hreads]
    rfl
  have hsort : r.table.layout.sort.isEmpty = true := rfl
  simp only [Query.frames, hkept, Answer.frames, Stage.passAll_nil,
    mapRecords_covers hproject hstands, hsort]
  simp [Outcome.ofRows, Table.layout, Function.comp_def]

/-- SELECT COUNT(*) says how many rows meet the conditions. -/
theorem Select.execute_count {times : Times} {c : Catalog} {table : String}
    {conditions : List Condition} {r : Relation} {ps : List Predicate}
    (h : c.Finds (times 0) table conditions r ps) :
    (Statement.select (ofTable table [.count .star] conditions)).execute times c =
      .ofRows c ["COUNT(*)"]
        [[toString (r.rows.filter (r.table.meets (times 0) conditions)).length]] := by
  have hanswer : Answer.bind [.count .star] [] ⟨[(table, r.table.columnNames)]⟩ =
      .ok (.count ⟨"COUNT(*)", none⟩) := rfl
  rw [execute_ofTable h.lookUp hanswer]
  obtain ⟨kept, hkept, hstands⟩ := Query.records_ofTable h (.count ⟨"COUNT(*)", none⟩) []
  have hcounts : ∀ combination record, r.table.Stands combination record →
      Tally.counts ⟨"COUNT(*)", none⟩ record = .ok true := fun _ _ _ => rfl
  simp only [Query.frames, hkept, Answer.frames, Stage.passAll_nil,
    mapRecords_covers hcounts hstands]
  simp [Outcome.ofRows, Function.comp_def]

/-! ## UPDATE and DELETE -/

theorem Relation.testRows_eq {test : RowTest} {p : Row → Bool} (rows : List Row)
    (h : ∀ row ∈ rows, ∀ i, test i row = .ok (p row)) :
    ∀ i, testRows test i rows = .ok (rows.map p) := by
  induction rows with
  | nil => intro i; rfl
  | cons row rest ih =>
    intro i
    rw [testRows, h row List.mem_cons_self, ok_bind,
      ih (fun row' hrow' => h row' (List.mem_cons_of_mem _ hrow'))]
    rfl

theorem Relation.kept_map (rows : List Row) (p : Row → Bool) :
    kept rows (rows.map p) = rows.filter (!p ·) := by
  induction rows with
  | nil => rfl
  | cons row rest ih =>
    unfold kept at ih ⊢
    rw [List.map_cons, List.zip_cons_cons, List.filterMap_cons, ih, List.filter_cons]
    cases p row <;> rfl

theorem Relation.count_map (rows : List Row) (p : Row → Bool) :
    (rows.map p).count true = (rows.filter p).length := by
  rw [List.count_eq_countP, List.countP_map, List.countP_eq_length_filter]
  congr 1
  apply List.filter_congr
  intro row _
  simp

/-- What is done with a table and a test of its rows begins by looking up the table and the columns
of the conditions. -/
theorem Catalog.Reachable.rowTest_eq {α : Type} {c : Catalog} (h : c.Reachable) (now table : String)
    (conditions : List Condition) (go : Relation → RowTest → Except Fault α) :
    (do
      let r ← c.get table
      let test ← r.table.rowTest now conditions
      go r test) =
      (do
        let (r, ps) ← c.lookUp now table conditions
        go r fun _ row => Predicate.all (.ofRow r.table row) ps) := by
  unfold Catalog.lookUp Table.rowTest
  cases hr : c.get table with
  | error f => rfl
  | ok r =>
    have hscope : Scope.ofList [(r.table.name, r.table.columnNames)] =
        ⟨[(table, r.table.columnNames)]⟩ := by
      rw [h.table_name (Catalog.get_eq_ok.1 hr)]
      rfl
    simp only [ok_bind, hscope]
    cases Predicate.bindAll now ⟨[(table, r.table.columnNames)]⟩ conditions <;> rfl

/-- The condition that always holds is met by all rows. -/
theorem Delete.execute_always (now : String) (c : Catalog) (table : String) :
    (Delete.execute now ⟨table, [.always]⟩).reach c = (Catalog.truncate table).reach c := by
  rw [Delete.execute_reach, Catalog.truncate_reach]
  dsimp only
  cases hr : c.get table with
  | error f => rfl
  | ok r =>
    have htest : r.table.rowTest now [.always] = .ok fun _ _ => .ok true := rfl
    have hhits : Relation.testRows (fun _ _ => .ok true) 0 r.rows =
        .ok (r.rows.map fun _ => true) :=
      Relation.testRows_eq r.rows (fun _ _ _ => rfl) 0
    have hkept : Relation.kept r.rows (r.rows.map fun _ => true) = [] := by
      rw [Relation.kept_map]
      exact List.filter_eq_nil_iff.2 fun _ _ => Bool.false_ne_true
    have hcount : (r.rows.map fun _ => true).count true = r.rows.length := by
      rw [Relation.count_map, List.filter_eq_self.2 fun _ _ => rfl]
    have hdelete : r.deleteWhere (fun _ _ => .ok true) = .ok r.truncate := by
      rw [Relation.deleteWhere_eq, hhits, ok_bind, hcount]
      exact congrArg (fun rows => Except.ok ({ r with rows := rows }, r.rows.length)) hkept
    show (r.table.rowTest now [.always] >>= r.deleteWhere >>= fun p =>
      pure (c.set table p.1, [Frame.result 0 p.2])) = _
    rw [htest, ok_bind, hdelete]
    rfl

theorem Delete.execute_of_ne_nil {c : Catalog} (h : c.Reachable) (now table : String)
    {conditions : List Condition} (hne : conditions ≠ []) :
    (Delete.execute now ⟨table, conditions⟩).reach c = do
      let (r, ps) ← c.lookUp now table conditions
      let (next, n) ← r.deleteWhere fun _ row => Predicate.all (.ofRow r.table row) ps
      return (c.set table next, [.result 0 n]) := by
  have hempty : conditions.isEmpty = false := by simpa using hne
  rw [Delete.execute_reach, if_neg (by rw [hempty]; exact Bool.false_ne_true)]
  exact h.rowTest_eq now table conditions _

/-- A DELETE takes out the rows that meet the conditions. -/
theorem Delete.execute_eq {now : String} {c : Catalog} (hc : c.Reachable) {table : String}
    {conditions : List Condition} {r : Relation} {ps : List Predicate}
    (h : c.Finds now table conditions r ps) :
    (Delete.execute now ⟨table, conditions⟩).reach c =
      .ok (c.set table { r with rows := r.rows.filter (!r.table.meets now conditions ·) },
        [.result 0 (r.rows.filter (r.table.meets now conditions)).length]) := by
  by_cases hne : conditions = []
  · subst hne
    have hget : c.get table = .ok r := Catalog.get_eq_ok.2 h.get?
    have hmeets : r.table.meets now [] = fun _ => true := rfl
    simp [Delete.execute_reach, Catalog.truncate_reach, hget, Relation.truncate, hmeets]
  · have hhits := Relation.testRows_eq (p := r.table.meets now conditions) r.rows
      (fun row hrow _ => h.asks [row] _ (h.even.stands hrow)) 0
    rw [Delete.execute_of_ne_nil hc now table hne, h.lookUp, ok_bind]
    dsimp only
    rw [Relation.deleteWhere_eq, hhits, ok_bind, Relation.count_map]
    rw [← Relation.kept_map]
    rfl

theorem Update.execute_eq {c : Catalog} (h : c.Reachable) (now table : String)
    (assignments : List (String × Literal)) (conditions : List Condition) :
    (Update.execute now ⟨table, assignments, conditions⟩).reach c = do
      let (r, ps) ← c.lookUp now table conditions
      let (next, n) ← r.updateWhere now assignments
        fun _ row => Predicate.all (.ofRow r.table row) ps
      return (c.set table next, [.result 0 n]) := by
  rw [Update.execute_reach]
  exact h.rowTest_eq now table conditions _

/-- An UPDATE that succeeds says how many rows meet the conditions. -/
theorem Update.execute_frames {now : String} {c : Catalog} (hc : c.Reachable) {table : String}
    {assignments : List (String × Literal)} {conditions : List Condition} {r : Relation}
    {ps : List Predicate} (h : c.Finds now table conditions r ps) {next : Catalog}
    {frames : List Frame}
    (hok : (Update.execute now ⟨table, assignments, conditions⟩).reach c = .ok (next, frames)) :
    frames = [.result 0 (r.rows.filter (r.table.meets now conditions)).length] := by
  rw [Update.execute_eq hc, h.lookUp, ok_bind] at hok
  simp only [bind_eq_ok, pure_eq_ok, Prod.mk.injEq] at hok
  obtain ⟨⟨changed, n⟩, hupdate, -, rfl⟩ := hok
  obtain ⟨resolved, hits, -, hhits, -, -, rfl⟩ := Relation.updateWhere_eq_ok hupdate
  rw [Relation.testRows_eq (p := r.table.meets now conditions) r.rows
    (fun row hrow _ => h.asks [row] _ (h.even.stands hrow))] at hhits
  obtain rfl := Except.ok.inj hhits
  rw [Relation.count_map]

/-! ## Top theorem -/

/-- What is found by the conditions does not depend on the rows. -/
theorem Catalog.lookUp_set {now : String} {c : Catalog} {table : String}
    {conditions : List Condition} {r : Relation} {ps : List Predicate}
    (h : c.lookUp now table conditions = .ok (r, ps)) (rows : List Row) :
    (c.set table { r with rows := rows }).lookUp now table conditions =
      .ok ({ r with rows := rows }, ps) := by
  simp only [Catalog.lookUp, bind_eq_ok, pure_eq_ok, Prod.mk.injEq] at h
  obtain ⟨r', -, ps', hps, rfl, rfl⟩ := h
  have hget : (c.set table { r' with rows := rows }).get table = .ok { r' with rows := rows } := by
    rw [Catalog.get_eq_ok, Catalog.get?_set, if_pos rfl]
  simp only [Catalog.lookUp, hget, ok_bind, hps]
  rfl

/-- Statements on one table with the same conditions are about the rows for which a test holds. -/
structure Catalog.Agrees (c : Catalog) (table : String) (conditions : List Condition) (r : Relation)
    (meets : Row → Bool) : Prop where
  /-- SELECT * shows these rows. -/
  star : ∀ times, (Statement.select (.ofTable table [.star] conditions)).execute times c =
    .ofRows c r.table.columnNames ((r.rows.filter meets).map (·.map (·.canonical)))
  /-- SELECT COUNT(*) says how many they are. -/
  count : ∀ times, (Statement.select (.ofTable table [.count .star] conditions)).execute times c =
    .ofRows c ["COUNT(*)"] [[toString (r.rows.filter meets).length]]
  /-- A DELETE takes out these rows, keeps the others in order, and says how many it took out. -/
  delete : ∀ times, (Statement.delete ⟨table, conditions⟩).execute times c =
    ⟨c.set table { r with rows := r.rows.filter (!meets ·) },
      [.result 0 (r.rows.filter meets).length], none⟩
  /-- An UPDATE that succeeds says how many they are. -/
  update : ∀ times assignments,
    ((Statement.update ⟨table, assignments, conditions⟩).execute times c).fault = none →
    ((Statement.update ⟨table, assignments, conditions⟩).execute times c).frames =
      [.result 0 (r.rows.filter meets).length]
  /-- After the DELETE a SELECT * without conditions shows the other rows. -/
  others : ∀ times times',
    let next := ((Statement.delete ⟨table, conditions⟩).execute times c).catalog
    (Statement.select (.ofTable table [.star] [.always])).execute times' next =
      .ofRows next r.table.columnNames ((r.rows.filter (!meets ·)).map (·.map (·.canonical)))
  /-- After the DELETE a SELECT * with the same conditions shows no row. -/
  gone : ∀ times times',
    let next := ((Statement.delete ⟨table, conditions⟩).execute times c).catalog
    (Statement.select (.ofTable table [.star] conditions)).execute times' next =
      .ofRows next r.table.columnNames []

namespace Catalog.Reachable

/-- If the table or a column cannot be found, all statements fail, and for the same reason. -/
theorem fail_together {c : Catalog} (h : c.Reachable) {table : String} {conditions : List Condition}
    {times : Times} {f : Fault} (hlookUp : c.lookUp (times 0) table conditions = .error f) :
    (∀ projections, (Statement.select (.ofTable table projections conditions)).execute times c =
        ⟨c, [], some f⟩) ∧
      (Statement.delete ⟨table, conditions⟩).execute times c = ⟨c, [], some f⟩ ∧
      ∀ assignments, (Statement.update ⟨table, assignments, conditions⟩).execute times c =
        ⟨c, [], some f⟩ := by
  refine ⟨fun projections => ?_, ?_, fun assignments => ?_⟩
  · show Select.execute (times 0) _ c = _
    unfold Select.execute
    rw [Select.bind_ofTable, hlookUp]
    rfl
  · rw [Statement.execute_delete]
    by_cases hne : conditions = []
    · subst hne
      unfold Catalog.lookUp at hlookUp
      cases hr : c.get table with
      | ok r => simp [hr, Predicate.bindAll, pure, Except.pure] at hlookUp
      | error f' =>
        rw [hr] at hlookUp
        obtain rfl := Except.error.inj hlookUp
        simp [Delete.execute_reach, Catalog.truncate_reach, hr, Outcome.ofExcept]
    · rw [Delete.execute_of_ne_nil h _ table hne, hlookUp]
      rfl
  · rw [Statement.execute_update, Update.execute_eq h, hlookUp]
    rfl

theorem agrees {c : Catalog} (h : c.Reachable) {table : String} {conditions : List Condition}
    (htimeless : ∀ condition ∈ conditions, condition.Timeless) {r : Relation} {ps : List Predicate}
    {now : String} (hlookUp : c.lookUp now table conditions = .ok (r, ps)) :
    c.Agrees table conditions r (r.table.meets now conditions) := by
  have htime := Condition.Timeless.lookUp_eq htimeless
  have hmeets := Condition.Timeless.table_meets_eq htimeless
  have hfinds : ∀ now', c.Finds now' table conditions r ps := fun now' =>
    h.finds ((htime now' now c table).trans hlookUp)
  have hdelete : ∀ times : Times, (Statement.delete ⟨table, conditions⟩).execute times c =
      ⟨c.set table { r with rows := r.rows.filter (!r.table.meets now conditions ·) },
        [.result 0 (r.rows.filter (r.table.meets now conditions)).length], none⟩ := by
    intro times
    rw [Statement.execute_delete, Delete.execute_eq h (hfinds (times 0)), hmeets (times 0) now]
    rfl
  -- what the DELETE leaves is reachable too, and the conditions find the same there
  have hnext : (c.set table
      { r with rows := r.rows.filter (!r.table.meets now conditions ·) }).Reachable := by
    have hstep := Catalog.Reachable.step (fun _ => now) (.delete ⟨table, conditions⟩) h
    rwa [hdelete] at hstep
  constructor
  · intro times
    rw [Select.execute_star (hfinds (times 0)), hmeets (times 0) now]
  · intro times
    rw [Select.execute_count (hfinds (times 0)), hmeets (times 0) now]
  · exact hdelete
  · intro times assignments hfault
    rw [Statement.execute_update] at hfault ⊢
    cases hok : (Update.execute (times 0) ⟨table, assignments, conditions⟩).reach c with
    | error f =>
      rw [hok] at hfault
      cases hfault
    | ok p =>
      rw [← hmeets (times 0) now, ← Update.execute_frames h (hfinds (times 0)) hok]
      rfl
  · intro times times'
    have hall : c.lookUp (times' 0) table [.always] = .ok (r, [.always]) := by
      rw [Catalog.lookUp, Catalog.get_eq_ok.2 (hfinds now).get?]
      rfl
    dsimp only
    rw [hdelete, Select.execute_star (hnext.finds (Catalog.lookUp_set hall _))]
    simp [Table.meets, Condition.meets]
  · intro times times'
    have hsame := Catalog.lookUp_set (hfinds (times' 0)).lookUp
      (r.rows.filter (!r.table.meets now conditions ·))
    dsimp only
    rw [hdelete, Select.execute_star (hnext.finds hsame), hmeets (times' 0) now]
    simp [List.filter_filter]

/-- Statements on one table whose conditions do not depend on the time fail together, because the
table or a column cannot be found, or are about the same rows, which are those that meet the
conditions.  And a DELETE without conditions, one whose condition always holds and a TRUNCATE do the
same. -/
theorem conditions_agree {c : Catalog} (h : c.Reachable) (table : String)
    {conditions : List Condition} (htimeless : ∀ condition ∈ conditions, condition.Timeless) :
    ((∃ f, ∀ times,
          (Statement.select (.ofTable table [.star] conditions)).execute times c =
            ⟨c, [], some f⟩ ∧
          (Statement.select (.ofTable table [.count .star] conditions)).execute times c =
            ⟨c, [], some f⟩ ∧
          (Statement.delete ⟨table, conditions⟩).execute times c = ⟨c, [], some f⟩ ∧
          ∀ assignments, (Statement.update ⟨table, assignments, conditions⟩).execute times c =
            ⟨c, [], some f⟩) ∨
        ∃ r meets, c.get? table = some r ∧
          (∀ now row, meets row = conditions.all (·.meets now [r.table.source] [row])) ∧
          c.Agrees table conditions r meets) ∧
      ∀ times,
        (Statement.delete ⟨table, []⟩).execute times c =
          (Statement.truncate table).execute times c ∧
        (Statement.delete ⟨table, [.always]⟩).execute times c =
          (Statement.truncate table).execute times c := by
  refine ⟨?_, fun times => ⟨rfl, ?_⟩⟩
  · cases hlookUp : c.lookUp "" table conditions with
    | error f =>
      refine Or.inl ⟨f, fun times => ?_⟩
      obtain ⟨hselect, hdelete, hupdate⟩ := h.fail_together
        ((Condition.Timeless.lookUp_eq htimeless (times 0) "" c table).trans hlookUp)
      exact ⟨hselect _, hselect _, hdelete, hupdate⟩
    | ok found =>
      obtain ⟨r, ps⟩ := found
      refine Or.inr ⟨r, r.table.meets "" conditions, (h.finds hlookUp).get?, fun now row => ?_, ?_⟩
      · exact congrFun (Condition.Timeless.table_meets_eq htimeless "" now r.table) row
      · exact h.agrees htimeless hlookUp
  · rw [Statement.execute_delete, Statement.execute_truncate, Delete.execute_always]

end Catalog.Reachable

/-- One of three rows meets two conditions, one of them on a column that is named with its table. -/
theorem conditions_agree_of_null_test :
    let c := Catalog.after
      [(fun _ => "", .createTable ⟨"t", false, [⟨"a", "int", false, []⟩, ⟨"b", "text", false, []⟩],
          []⟩),
        (fun _ => "", .insert ⟨"t", ["a", "b"], [[⟨.number, "1"⟩, ⟨.string, "x"⟩],
          [⟨.null, "null"⟩, ⟨.string, "x"⟩], [⟨.number, "2"⟩, ⟨.string, "y"⟩]], none⟩)]
    let conditions : List Condition :=
      [.compare ⟨some "t", "b"⟩ .eq ⟨.string, "x"⟩, .nullTest ⟨none, "a"⟩ true]
    ∃ r meets, c.get? "t" = some r ∧ (r.rows.filter meets).length = 1 ∧
      c.Agrees "t" conditions r meets := by
  intro c conditions
  have htimeless : ∀ condition ∈ conditions, condition.Timeless := by
    intro condition hcondition
    rcases List.mem_cons.1 hcondition with rfl | hcondition
    · rfl
    · obtain rfl := List.mem_singleton.1 hcondition
      trivial
  have hdelete : ((Statement.delete ⟨"t", conditions⟩).execute (fun _ => "") c).frames =
      [.result 0 1] := by decide +kernel
  obtain ⟨hfail | ⟨r, meets, hr, -, hagrees⟩, -⟩ :=
    (Catalog.Reachable.after _ : c.Reachable).conditions_agree "t" htimeless
  · obtain ⟨f, hf⟩ := hfail
    obtain ⟨-, -, hf, -⟩ := hf fun _ => ""
    rw [hf] at hdelete
    cases hdelete
  · rw [hagrees.delete] at hdelete
    have hcount : ((r.rows.filter meets).length : Int) = 1 := by simpa using hdelete
    refine ⟨r, meets, hr, ?_, hagrees⟩
    omega

end Tabula
