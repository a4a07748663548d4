import Tabula.Proofs.Acceptance
import Tabula.Proofs.Filtering
import Tabula.Proofs.Readable

/-!
# The references of a SELECT

Conditions, ON equalities, projections and sort keys are looked up one after the other before the
first row is read.  What is counted is looked up as well, but then the sort keys are not.

* `Select.mentioned`, `Select.lookedUp`: the references of a SELECT, and those that it looks up.
* `Select.Means`: the column that a reference stands for, said without scopes and keys.
* `Select.FindsTables.resolves_iff`: a scope resolves the references that stand for one column.
* `Catalog.Reachable.references_resolve`: a SELECT that succeeds looks up no reference that stands
  for no column or for several.
-/

namespace Tabula

/-! ## Algorithm -/

/-- The reference of what is counted. -/
def CountArg.references : CountArg → List ColumnRef
  | .star => []
  | .column c => [c]

/-- The references of a projection and of what it counts. -/
def Projection.mentioned : Projection → List ColumnRef
  | .count arg => arg.references
  | p => p.references

/-- The columns whose values tell rows apart. -/
def Distinct.references : Distinct → List ColumnRef
  | .all => []
  | .on columns => columns

/-- Both sides of an ON equality. -/
def Join.references (j : Join) : List ColumnRef :=
  [j.left, j.right]

namespace Select

/-- Whether something is counted. -/
def counts (s : Select) : Bool :=
  s.projections.any Answer.isCount

/-- The references of everything but the sort keys. -/
def unsorted (s : Select) : List ColumnRef :=
  s.projections.flatMap (·.mentioned) ++ s.distinct.toList.flatMap (·.references) ++
    s.joins.flatMap (·.references) ++ s.conditions.flatMap (·.references)

/-- Every reference of a SELECT. -/
def mentioned (s : Select) : List ColumnRef :=
  s.unsorted ++ s.orderBy.map (·.column)

/-- The references that a SELECT looks up: those of sort keys only where nothing is counted. -/
def lookedUp (s : Select) : List ColumnRef :=
  s.unsorted ++ if s.counts then [] else s.orderBy.map (·.column)

/-- A reference may stand for the column at a place of a table that is named after FROM or JOIN. -/
def Means (c : Catalog) (s : Select) (ref : ColumnRef) (column : String × Nat) : Prop :=
  column.1 ∈ s.tables ++ s.joins.map (·.table) ∧ (∀ table ∈ ref.table, table = column.1) ∧
    ∃ r, c.get? column.1 = some r ∧ r.table.columnNames[column.2]? = some ref.name

end Select

/-! ## Lemmas -/

/-! ### What is bound is looked up -/

theorem OnEquality.orient_resolves {j : Join} {t : Table} {s : Scope} {e : OnEquality}
    (h : orient j t s = .ok e) : ∀ ref ∈ j.references, ∃ key, s.resolve ref = .ok key := by
  unfold orient at h
  simp only [bind_eq_ok] at h
  obtain ⟨left, hleft, right, hright, -⟩ := h
  exact List.forall_mem_cons.2 ⟨⟨left, hleft⟩, List.forall_mem_singleton.2 ⟨right, hright⟩⟩

theorem Select.joinedLevels_resolves {c : Catalog} {s : Scope} (joins : List Join) :
    ∀ {levels : List Level}, joinedLevels c s joins = .ok levels →
      ∀ ref ∈ joins.flatMap (·.references), ∃ key, s.resolve ref = .ok key := by
  induction joins with
  | nil => intro levels _ ref href; cases href
  | cons j rest ih =>
    intro levels h
    simp only [joinedLevels, bind_eq_ok, pure_eq_ok] at h
    obtain ⟨r, -, e, he, others, hothers, -⟩ := h
    rw [List.flatMap_cons]
    exact List.forall_mem_append.2 ⟨OnEquality.orient_resolves he, ih hothers⟩

theorem Layout.allColumns_resolves {s : Scope} (projections : List Projection) :
    ∀ {found : List (String × String)}, allColumns s projections = .ok found →
      ∀ ref ∈ projections.flatMap (·.mentioned), ∃ key, s.resolve ref = .ok key := by
  induction projections with
  | nil => intro found _ ref href; cases href
  | cons p rest ih =>
    intro found h
    simp only [allColumns, bind_eq_ok, pure_eq_ok] at h
    obtain ⟨first, hfirst, others, hothers, -⟩ := h
    rw [List.flatMap_cons]
    refine List.forall_mem_append.2 ⟨fun ref href => ?_, ih hothers⟩
    cases p with
    | star => cases href
    | column c =>
      simp only [columns, bind_eq_ok, pure_eq_ok] at hfirst
      obtain ⟨key, hkey, -⟩ := hfirst
      exact ⟨key, List.mem_singleton.1 href ▸ hkey⟩
    | count arg => cases hfirst

theorem Layout.sortColumns_resolves {s : Scope} (orderBy : List SortKey) :
    ∀ {sort : List SortColumn}, sortColumns s orderBy = .ok sort →
      ∀ ref ∈ orderBy.map (·.column), ∃ key, s.resolve ref = .ok key := by
  induction orderBy with
  | nil => intro sort _ ref href; cases href
  | cons k rest ih =>
    intro sort h
    simp only [sortColumns, bind_eq_ok, pure_eq_ok] at h
    obtain ⟨key, hkey, others, hothers, -⟩ := h
    exact List.forall_mem_cons.2 ⟨⟨key, hkey⟩, ih hothers⟩

theorem Tally.bind_resolves {arg : CountArg} {s : Scope} {t : Tally} (h : bind arg s = .ok t) :
    ∀ ref ∈ arg.references, ∃ key, s.resolve ref = .ok key := by
  intro ref href
  cases arg with
  | star => cases href
  | column c =>
    simp only [bind, bind_eq_ok, pure_eq_ok] at h
    obtain ⟨key, hkey, -⟩ := h
    exact ⟨key, List.mem_singleton.1 href ▸ hkey⟩

/-- An answer looks up its columns, and the sort keys unless it is a count. -/
theorem Answer.bind_resolves {projections : List Projection} {orderBy : List SortKey} {s : Scope}
    {a : Answer} (h : bind projections orderBy s = .ok a) :
    (∀ ref ∈ projections.flatMap (·.mentioned), ∃ key, s.resolve ref = .ok key) ∧
      (projections.any isCount = false →
        ∀ ref ∈ orderBy.map (·.column), ∃ key, s.resolve ref = .ok key) := by
  rcases bind_cases h with ⟨arg, t, rfl, ht, -⟩ | ⟨found, sort, hfound, hsort, -⟩
  · refine ⟨fun ref href => Tally.bind_resolves ht ref ?_, fun hcount => by cases hcount⟩
    simpa [Projection.mentioned] using href
  · exact ⟨Layout.allColumns_resolves _ hfound, fun _ => Layout.sortColumns_resolves _ hsort⟩

/-! ### What is looked up stands for one column -/

/-- The table of a column that a reference stands for offers it. -/
theorem Select.Means.offers {c : Catalog} {s : Select} {ref : ColumnRef} {column : String × Nat}
    (h : s.Means c ref column) :
    column.1 ∈ s.tableNames ∧ (c.source column.1).offers ref = true := by
  obtain ⟨hnamed, htable, r, hr, hcolumn⟩ := h
  refine ⟨List.mem_eraseDups.2 hnamed, ?_⟩
  rw [Catalog.source_eq hr]
  refine Bool.and_eq_true_iff.2 ⟨?_, List.contains_iff_mem.2 (List.mem_of_getElem? hcolumn)⟩
  rw [Option.all_eq_true]
  exact fun table hmem => beq_iff_eq.2 (htable table hmem)

namespace Catalog.FindsTables

variable {c : Catalog} {s : Select} {scope : Scope} {base : Level} {levels : List Level}

/-- The scope of what was found lists the tables that are named, each once, with their columns. -/
theorem scope_eq (h : c.FindsTables s.tables s.joins scope base levels) :
    scope = ⟨Source.listed (s.tableNames.map c.source)⟩ ∧
      ∀ name ∈ s.tableNames, ∃ r, c.get? name = some r := by
  cases h with
  | @intro first others columns r crossed joined hnames hcolumns hbase hcrossed hjoined =>
    have hnames : s.tableNames = first :: others := hnames
    rw [← hnames] at hcolumns
    obtain ⟨hlisted, hentries⟩ := Select.tableColumns_eq_ok _ hcolumns
    have hpresent : ∀ name ∈ s.tableNames, ∃ r, c.get? name = some r := by
      intro name hname
      rw [← hlisted] at hname
      obtain ⟨entry, hentry, rfl⟩ := List.mem_map.1 hname
      obtain ⟨r, hr, -⟩ := hentries entry hentry
      exact ⟨r, hr⟩
    refine ⟨?_, hpresent⟩
    rw [Scope.ofList_of_nodup (hlisted ▸ nodup_eraseDups _),
      Except.ok.inj (hcolumns.symm.trans (Select.tableColumns_eq _ hpresent))]

/-- A reference that is resolved stands for exactly one column. -/
theorem means_of_resolve (hc : c.Even) (h : c.FindsTables s.tables s.joins scope base levels)
    {ref : ColumnRef} (hkey : ∃ key, scope.resolve ref = .ok key) :
    ∃! column, s.Means c ref column := by
  obtain ⟨rfl, hpresent⟩ := h.scope_eq
  have hnames : (s.tableNames.map c.source).map (·.name) = s.tableNames := by
    rw [List.map_map]
    exact (List.map_congr_left fun name _ => c.source_name name).trans (List.map_id _)
  obtain ⟨⟨i, place⟩, hplace⟩ :=
    (Scope.resolves_iff (by rw [hnames]; exact nodup_eraseDups _)).1 hkey
  obtain ⟨source, hsource, hfound, hsole⟩ := place?_eq_some hplace
  rw [List.getElem?_map, Option.map_eq_some_iff] at hsource
  obtain ⟨name, hname, rfl⟩ := hsource
  have hname := List.mem_of_getElem? hname
  obtain ⟨r, hr⟩ := hpresent name hname
  have hoffers : (c.source name).offers ref = true := by
    have hmem := List.mem_singleton_self (c.source name)
    rw [← hsole] at hmem
    exact (List.mem_filter.1 hmem).2
  rw [Catalog.source_eq hr] at hfound hoffers
  obtain ⟨hlt, hname_eq, -⟩ := List.findIdx?_eq_some_iff_getElem.1 hfound
  have hcolumn : r.table.columnNames[place]? = some ref.name := by
    rw [List.getElem?_eq_getElem hlt, beq_iff_eq.1 hname_eq]
  refine ⟨(name, place), ⟨List.mem_eraseDups.1 hname, ?_, r, hr, hcolumn⟩, ?_⟩
  · rw [Source.offers, Bool.and_eq_true, Option.all_eq_true] at hoffers
    exact fun table htable => beq_iff_eq.1 (hoffers.1 table htable)
  · rintro ⟨other, place'⟩ hother
    -- the table is the only one that offers the reference
    obtain ⟨hnamed, hoffered⟩ := hother.offers
    have hmem : c.source other ∈ (s.tableNames.map c.source).filter (·.offers ref) :=
      List.mem_filter.2 ⟨List.mem_map_of_mem hnamed, hoffered⟩
    rw [hsole, List.mem_singleton] at hmem
    have hsame : other = name := by
      rw [← c.source_name other, ← c.source_name name]
      exact congrArg Source.name hmem
    subst hsame
    obtain ⟨-, -, r', hr', hcolumn'⟩ := hother
    obtain rfl := Option.some.inj (hr.symm.trans hr')
    have hplace : place = place' :=
      (List.getElem?_inj hlt (hc other r hr).names).1 (hcolumn.trans hcolumn'.symm)
    rw [hplace]

end Catalog.FindsTables

/-! ### What a SELECT looks up -/

namespace Select

variable {c : Catalog} {s : Select}

/-- The columns that DISTINCT ON compares are projected. -/
theorem Readable.distinct_mentioned (hs : s.Readable) :
    ∀ ref ∈ s.distinct.toList.flatMap (·.references),
      ref ∈ s.projections.flatMap (·.mentioned) := by
  intro ref href
  obtain ⟨d, hd, href⟩ := List.mem_flatMap.1 href
  cases d with
  | all => cases href
  | on columns =>
    obtain ⟨-, hprojections⟩ := hs.distinct columns (Option.mem_toList.1 hd)
    rw [hprojections, List.flatMap_append]
    refine List.mem_append_left _ (List.mem_flatMap.2 ⟨.column ref, ?_, List.mem_singleton_self _⟩)
    exact List.mem_map_of_mem href

/-- Every reference that a bound SELECT looks up stands for exactly one column. -/
theorem means_of_bind (hc : c.Even) (hs : s.Readable) {now : String} {q : Query}
    (h : s.bind now c = .ok q) : ∀ ref ∈ s.lookedUp, ∃! column, s.Means c ref column := by
  obtain ⟨scope, base, levels, ps, a, hfinds, hps, ha, -⟩ := bind_iff.1 h
  obtain ⟨hprojections, horder⟩ := Answer.bind_resolves ha
  have hjoins : ∀ ref ∈ s.joins.flatMap (·.references), ∃ key, scope.resolve ref = .ok key := by
    cases hfinds with
    | intro _ _ _ _ hjoined => exact joinedLevels_resolves _ hjoined
  have hsort : ∀ ref ∈ if s.counts then [] else s.orderBy.map (·.column),
      ∃ key, scope.resolve ref = .ok key := by
    split
    · intro ref href
      cases href
    · next hcounts => exact horder (Bool.not_eq_true _ ▸ hcounts)
  have hresolved : ∀ ref ∈ s.lookedUp, ∃ key, scope.resolve ref = .ok key := by
    simp only [lookedUp, unsorted, List.forall_mem_append]
    exact ⟨⟨⟨⟨hprojections, fun ref href => hprojections ref (hs.distinct_mentioned ref href)⟩,
      hjoins⟩, Predicate.bindAll_resolves _ hps⟩, hsort⟩
  exact fun ref href => hfinds.means_of_resolve hc (hresolved ref href)

/-- Where something is counted the sort keys make no difference. -/
theorem bind_of_counts (hcounts : s.counts = true) (now : String) (c : Catalog)
    (keys : List SortKey) : ({ s with orderBy := keys } : Select).bind now c = s.bind now c := by
  have hcounts : s.projections.any Answer.isCount = true := hcounts
  have hanswer (scope : Scope) : Answer.bind s.projections keys scope =
      Answer.bind s.projections s.orderBy scope := by
    unfold Answer.bind
    split
    · rfl
    · rw [if_pos hcounts, if_pos hcounts]
  unfold Select.bind
  simp only [hanswer]
  rfl

end Select

/-! ## Top theorem -/

/-- In a catalog that statements have led to, whatever a SELECT that can be read asks for: if it
succeeds, every reference that it looks up stands for exactly one column of the tables after FROM
and JOIN; if one stands for none or for several, the SELECT is refused before anything is written.
All references are looked up but the sort keys of a count, which make no difference at all. -/
theorem Catalog.Reachable.references_resolve {c : Catalog} (hc : c.Reachable) {s : Select}
    (hs : s.Readable) (times : Times) :
    (((Statement.select s).execute times c).fault = none →
        ∀ ref ∈ s.lookedUp, ∃! column, s.Means c ref column) ∧
      (∀ ref ∈ s.lookedUp, (¬∃! column, s.Means c ref column) →
        ∃ f, (Statement.select s).execute times c = ⟨c, [], some f⟩) ∧
      (s.counts = false → s.lookedUp = s.mentioned) ∧
      (s.counts = true → s.lookedUp = s.unsorted ∧ ∀ keys : List SortKey,
        (Statement.select { s with orderBy := keys }).execute times c =
          (Statement.select s).execute times c) := by
  refine ⟨fun hfault => ?_, fun ref href hnot => ?_, fun hcounts => ?_, fun hcounts => ?_⟩
  · cases hbind : s.bind (times 0) c with
    | error f =>
      rw [Select.execute_of_error hbind] at hfault
      cases hfault
    | ok q => exact Select.means_of_bind hc.even hs hbind
  · cases hbind : s.bind (times 0) c with
    | error f => exact ⟨f, Select.execute_of_error hbind⟩
    | ok q => exact absurd (Select.means_of_bind hc.even hs hbind ref href) hnot
  · rw [Select.lookedUp, hcounts, Select.mentioned]
    rfl
  · refine ⟨by rw [Select.lookedUp, hcounts, if_pos rfl, List.append_nil], fun keys => ?_⟩
    show Select.execute (times 0) { s with orderBy := keys } c = s.execute (times 0) c
    unfold Select.execute
    rw [Select.bind_of_counts hcounts]

/-- Of two tables that both have a column x, the one name that only b has stands for its column; the
name x alone stands for two, and a SELECT that sorts by it is refused. -/
theorem references_resolve_of_join :
    let c := Catalog.after
      [(fun _ => "", .createTable ⟨"a", false, [⟨"x", "text", false, []⟩], []⟩),
        (fun _ => "", .createTable ⟨"b", false,
          [⟨"x", "text", false, []⟩, ⟨"y", "text", false, []⟩], []⟩)]
    let sorted : ColumnRef → Select := fun ref =>
      ⟨none, [.column ⟨none, "y"⟩], ["a"], [⟨"b", ⟨some "a", "x"⟩, ⟨some "b", "x"⟩⟩], [.always],
        [⟨ref, false⟩], none, none, false⟩
    (∃! column, (sorted ⟨some "a", "x"⟩).Means c ⟨none, "y"⟩ column) ∧
      (∃! column, (sorted ⟨some "a", "x"⟩).Means c ⟨some "a", "x"⟩ column) ∧
      ∃ f, (Statement.select (sorted ⟨none, "x"⟩)).execute (fun _ => "") c = ⟨c, [], some f⟩ := by
  intro c sorted
  have hc : c.Reachable := Catalog.Reachable.after _
  have hreadable (ref : ColumnRef) : (sorted ref).Readable := by
    constructor <;> simp [sorted, Select.ownProjections, Condition.Readable]
  obtain ⟨hresolve, -⟩ := hc.references_resolve (hreadable ⟨some "a", "x"⟩) fun _ => ""
  have hsucceeds : ((Statement.select (sorted ⟨some "a", "x"⟩)).execute (fun _ => "") c).fault =
      none := by decide +kernel
  refine ⟨hresolve hsucceeds _ (by decide), hresolve hsucceeds _ (by decide), ?_⟩
  refine (hc.references_resolve (hreadable ⟨none, "x"⟩) fun _ => "").2.1 ⟨none, "x"⟩ (by decide) ?_
  rintro ⟨column, -, hsole⟩
  obtain ⟨a, ha, hx⟩ := Option.map_eq_some_iff.1
    (show (c.get? "a").map (·.table.columnNames) = some ["x"] by decide +kernel)
  obtain ⟨b, hb, hxy⟩ := Option.map_eq_some_iff.1
    (show (c.get? "b").map (·.table.columnNames) = some ["x", "y"] by decide +kernel)
  have hfirst : ("a", 0) = column := hsole _ ⟨by decide, by simp, a, ha, by rw [hx]; rfl⟩
  have hsecond : ("b", 0) = column := hsole _ ⟨by decide, by simp, b, hb, by rw [hxy]; rfl⟩
  exact absurd (hfirst.trans hsecond.symm) (by decide)

/-- A SELECT that counts succeeds with a sort key that no table has. -/
theorem references_not_resolved :
    ¬∀ (c : Catalog) (s : Select) (times : Times), c.Reachable → s.Readable →
      ((Statement.select s).execute times c).fault = none →
      ∀ ref ∈ s.mentioned, ∃! column, s.Means c ref column := by
  intro hresolves
  let c := Catalog.after
    [(fun _ => "", .createTable ⟨"t", false, [⟨"a", "int", false, []⟩], []⟩)]
  let s : Select :=
    ⟨none, [.count .star], ["t"], [], [.always], [⟨⟨none, "b"⟩, false⟩], none, none, false⟩
  have hparse : Statement.parse "SELECT COUNT(*) FROM t ORDER BY b" = .ok [.select s] := by
    decide +kernel
  have hreadable : s.Readable := Statement.parse_readable hparse _ (List.mem_singleton_self _)
  obtain ⟨⟨table, place⟩, ⟨htable, -, r, hr, hcolumn⟩, -⟩ := hresolves c s (fun _ => "")
    (Catalog.Reachable.after _) hreadable (by decide +kernel) ⟨none, "b"⟩ (by decide)
  obtain rfl : table = "t" := List.mem_singleton.1 htable
  have hnames : (c.get? "t").map (·.table.columnNames) = some ["a"] := by decide +kernel
  rw [hr] at hnames
  have hnames : r.table.columnNames = ["a"] := Option.some.inj hnames
  rw [hnames] at hcolumn
  have hmem : "b" ∈ ["a"] := List.mem_of_getElem? hcolumn
  simp at hmem

end Tabula
