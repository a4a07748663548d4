import Tabula.Proofs.Declaration
import Tabula.Proofs.Grounding
import Tabula.Proofs.Selection

/-!
# Whether a SELECT is accepted

Tables and columns are looked up before the first row is read, and what is found does not depend on
the rows.

* `Select.bind_alike`: catalogs with the same tables and columns refuse the same names for the same
  reason, and find the same levels but for their rows.
* `Select.bind_sound`: what was found asks complete records for keys that they have.
* `Catalog.Reachable.accepted_alike`: a SELECT is refused by its names, or it is accepted whatever
  the rows are, or it has a stray level, and is refused if a row gets to it.
-/

namespace Tabula

/-! ## Algorithm -/

/-- Two catalogs have the same tables, with the same columns. -/
def Catalog.SameColumns (c c' : Catalog) : Prop :=
  ∀ name, (c.get? name).map (·.table.columnNames) = (c'.get? name).map (·.table.columnNames)

/-- Two attempts fail for the same reason, or succeed with what belongs together. -/
inductive Alike {α β : Type} (R : α → β → Prop) : Except Fault α → Except Fault β → Prop where
  | ok {x : α} {y : β} : R x y → Alike R (.ok x) (.ok y)
  | error (f : Fault) : Alike R (.error f) (.error f)

/-- Two relations are of the same table and have the same columns. -/
structure Relation.SameColumns (r r' : Relation) : Prop where
  name : r.table.name = r'.table.name
  columns : r.table.columnNames = r'.table.columnNames

/-- Two levels differ in their rows at most. -/
structure Level.Alike (l l' : Level) : Prop where
  table : l.table = l'.table
  columns : l.relation.table.columnNames = l'.relation.table.columnNames
  on : l.on = l'.on

/-- Two stray levels differ in rows at most. -/
structure Stray.Alike (x x' : Stray) : Prop where
  before : List.Forall₂ Level.Alike x.before x'.before
  level : x.level.Alike x'.level
  key : x.key = x'.key

/-- Two queries have the same levels but for their rows. -/
structure Query.Alike (q q' : Query) : Prop where
  base : q.base.Alike q'.base
  levels : List.Forall₂ Level.Alike q.levels q'.levels

/-- A level shows the relation that a catalog has under its name. -/
def Level.Of (c : Catalog) (l : Level) : Prop :=
  c.get? l.table = some l.relation

/-- The keys of the columns that can be seen. -/
def Scope.keys (s : Scope) : List String :=
  s.allColumns.map (·.1)

/-! ## Lemmas -/

/-! ### Attempts -/

theorem Alike.bind {α β γ δ : Type} {R : α → β → Prop} {S : γ → δ → Prop} {x : Except Fault α}
    {y : Except Fault β} {f : α → Except Fault γ} {g : β → Except Fault δ} (h : Alike R x y)
    (hnext : ∀ a b, R a b → Alike S (f a) (g b)) : Alike S (x >>= f) (y >>= g) := by
  cases h with
  | ok hr => exact hnext _ _ hr
  | error f => exact .error f

theorem Alike.of_eq {α : Type} {x y : Except Fault α} (h : x = y) : Alike Eq x y := by
  subst h
  cases x with
  | ok x => exact .ok rfl
  | error f => exact .error f

/-! ### What is looked up -/

namespace Catalog.SameColumns

variable {c c' : Catalog}

theorem get_alike (hc : c.Reachable) (hc' : c'.Reachable) (h : c.SameColumns c') (name : String) :
    Tabula.Alike Relation.SameColumns (c.get name) (c'.get name) := by
  have hname := h name
  unfold Catalog.get
  cases hr : c.get? name with
  | none =>
    cases hr' : c'.get? name with
    | none => exact .error _
    | some r' => rw [hr, hr'] at hname; cases hname
  | some r =>
    cases hr' : c'.get? name with
    | none => rw [hr, hr'] at hname; cases hname
    | some r' =>
      rw [hr, hr'] at hname
      exact .ok ⟨(hc.table_name hr).trans (hc'.table_name hr').symm, Option.some.inj hname⟩

end Catalog.SameColumns

theorem Table.require_congr {t t' : Table} (hname : t.name = t'.name)
    (hcolumns : t.columnNames = t'.columnNames) (column : String) :
    t.require column = t'.require column := by
  have hposition : t.position? column = t'.position? column := by
    have hfind (t : Table) : t.position? column = t.columnNames.findIdx? (· == column) := by
      rw [Table.position?, Table.columnNames, List.findIdx?_map]
      rfl
    rw [hfind, hfind, hcolumns]
  rw [Table.require, Table.require, hposition, hname]

theorem OnEquality.orient_congr {t t' : Table} (hname : t.name = t'.name)
    (hcolumns : t.columnNames = t'.columnNames) (j : Join) (s : Scope) :
    orient j t s = orient j t' s := by
  unfold orient
  simp only [Table.require_congr hname hcolumns]

/-- The reasons to refuse conditions do not depend on the time. -/
theorem Predicate.bindAll_alike (now now' : String) (s : Scope) (conditions : List Condition) :
    Alike (fun _ _ => True) (bindAll now s conditions) (bindAll now' s conditions) := by
  induction conditions with
  | nil => exact .ok trivial
  | cons condition rest ih =>
    have hone : Alike (fun _ _ => True) (bind now s condition) (bind now' s condition) := by
      cases condition with
      | always => exact .ok trivial
      | compare c op l => exact (Alike.of_eq rfl).bind fun _ _ _ => .ok trivial
      | oneOf c ls negated => exact (Alike.of_eq rfl).bind fun _ _ _ => .ok trivial
      | nullTest c negated => exact (Alike.of_eq rfl).bind fun _ _ _ => .ok trivial
    exact hone.bind fun _ _ _ => ih.bind fun _ _ _ => .ok trivial

namespace Select

variable {c c' : Catalog} (hc : c.Reachable) (hc' : c'.Reachable) (hsame : c.SameColumns c')
include hc hc' hsame

theorem tableColumns_alike (names : List String) :
    Alike Eq (tableColumns c names) (tableColumns c' names) := by
  induction names with
  | nil => exact .ok rfl
  | cons name rest ih =>
    refine (hsame.get_alike hc hc' name).bind fun r r' hr => ih.bind fun others others' heq => ?_
    rw [hr.columns, heq]
    exact .ok rfl

theorem crossedLevels_alike (names : List String) :
    Alike (List.Forall₂ Level.Alike) (crossedLevels c names) (crossedLevels c' names) := by
  induction names with
  | nil => exact .ok .nil
  | cons name rest ih =>
    exact (hsame.get_alike hc hc' name).bind fun r r' hr => ih.bind fun _ _ hlevels =>
      .ok (.cons ⟨rfl, hr.columns, rfl⟩ hlevels)

theorem joinedLevels_alike (s : Scope) (joins : List Join) :
    Alike (List.Forall₂ Level.Alike) (joinedLevels c s joins) (joinedLevels c' s joins) := by
  induction joins with
  | nil => exact .ok .nil
  | cons j rest ih =>
    refine (hsame.get_alike hc hc' j.table).bind fun r r' hr => ?_
    have horient := OnEquality.orient_congr hr.name hr.columns j s
    refine (Alike.of_eq horient).bind fun e e' heq => ih.bind fun _ _ hlevels => ?_
    exact .ok (.cons ⟨rfl, hr.columns, congrArg some heq⟩ hlevels)

/-- The same names are refused for the same reason, or the same levels are found but for their
rows. -/
theorem bind_alike (now now' : String) (s : Select) :
    Alike Query.Alike (s.bind now c) (s.bind now' c') := by
  unfold bind
  split
  · exact .error _
  · next first others hnames =>
    refine (tableColumns_alike hc hc' hsame s.tableNames).bind fun columns columns' heq => ?_
    subst heq
    refine (Predicate.bindAll_alike now now' _ s.conditions).bind fun ps ps' _ => ?_
    refine (hsame.get_alike hc hc' first).bind fun r r' hr => ?_
    refine (crossedLevels_alike hc hc' hsame s.crossedNames).bind fun ls ls' hcrossed => ?_
    refine (joinedLevels_alike hc hc' hsame _ s.joins).bind fun js js' hjoined => ?_
    refine (Alike.of_eq rfl).bind fun a a' _ => .ok ⟨⟨rfl, hr.columns, rfl⟩, ?_⟩
    exact List.rel_append hcrossed hjoined

end Select

/-! ### Stray levels do not depend on rows -/

theorem Level.Alike.keys {l l' : Level} (h : l.Alike l') : l.keys = l'.keys := by
  rw [Level.keys, Level.keys, h.table, h.columns]

theorem Level.Alike.missing? {l l' : Level} (h : l.Alike l') (present : List String) :
    l.missing? present = l'.missing? present := by
  rw [Level.missing?, Level.missing?, h.on]

theorem stray?_alike {levels levels' : List Level} (h : List.Forall₂ Level.Alike levels levels') :
    ∀ present : List String,
      Option.Rel Stray.Alike (stray? present levels) (stray? present levels') := by
  induction h with
  | nil => intro present; exact .none
  | @cons l l' rest rest' hl _ ih =>
    intro present
    unfold stray?
    rw [hl.missing? present, hl.keys]
    split
    · exact .some ⟨.nil, hl, rfl⟩
    · have hothers := ih (present ++ l'.keys)
      generalize stray? (present ++ l'.keys) rest = x at hothers ⊢
      generalize stray? (present ++ l'.keys) rest' = x' at hothers ⊢
      cases hothers with
      | none => exact .none
      | some hx => exact .some ⟨.cons hl hx.before, hx.level, hx.key⟩

theorem Query.Alike.stray? {q q' : Query} (h : q.Alike q') :
    Option.Rel Stray.Alike q.stray? q'.stray? := by
  rw [Query.stray?, Query.stray?, h.base.keys]
  exact stray?_alike h.levels _

/-! ### Names that are found stand in complete records -/

namespace Scope

theorem mem_keys {s : Scope} {table column : String} {columns : List String}
    (htable : (table, columns) ∈ s.tables) (hcolumn : column ∈ columns) :
    columnKey table column ∈ s.keys := by
  refine List.mem_map.2 ⟨(columnKey table column, column), ?_, rfl⟩
  exact List.mem_flatMap.2 ⟨(table, columns), htable, List.mem_map_of_mem hcolumn⟩

/-- A reference is resolved to the key of a column that can be seen. -/
theorem resolve_mem {s : Scope} {c : ColumnRef} {key : String} (h : s.resolve c = .ok key) :
    key ∈ s.keys := by
  unfold resolve at h
  split at h
  · next table _ =>
    split at h
    · cases h
    · next columns hcolumns =>
      split at h
      · next hcontains =>
        obtain rfl := Except.ok.inj h
        exact mem_keys (mem_of_lookup hcolumns) (by simpa using hcontains)
      · cases h
  · split at h
    · next table howners =>
      obtain rfl := Except.ok.inj h
      have hmem : table ∈ s.owners c.name := by rw [howners]; exact List.mem_singleton_self table
      obtain ⟨⟨table, columns⟩, hentry, rfl⟩ := List.mem_map.1 hmem
      obtain ⟨hentry, hcontains⟩ := List.mem_filter.1 hentry
      exact mem_keys hentry (by simpa using hcontains)
    · cases h
    · cases h

end Scope

/-- A predicate asks for the key that its reference was resolved to. -/
theorem Predicate.bind_mem {now : String} {s : Scope} {c : Condition} {p : Predicate}
    (h : bind now s c = .ok p) {key : String} (hkey : p.key? = some key) : key ∈ s.keys := by
  have htest {ref : ColumnRef} {o : Operator} {right : Operand}
      (h : (do return Predicate.test (← s.resolve ref) o right) = Except.ok p) : key ∈ s.keys := by
    simp only [bind_eq_ok, pure_eq_ok] at h
    obtain ⟨found, hfound, rfl⟩ := h
    obtain rfl := Option.some.inj hkey
    exact Scope.resolve_mem hfound
  cases c with
  | always =>
    obtain rfl := Except.ok.inj h
    cases hkey
  | compare => exact htest h
  | oneOf => exact htest h
  | nullTest => exact htest h

theorem Predicate.bindAll_mem {now : String} {s : Scope} (conditions : List Condition) :
    ∀ {ps : List Predicate}, bindAll now s conditions = .ok ps →
      ∀ key ∈ ps.filterMap key?, key ∈ s.keys := by
  induction conditions with
  | nil =>
    intro ps h key hkey
    obtain rfl := Except.ok.inj h
    cases hkey
  | cons c rest ih =>
    intro ps h key hkey
    simp only [bindAll, bind_eq_ok, pure_eq_ok] at h
    obtain ⟨p, hp, others, hothers, rfl⟩ := h
    obtain ⟨q, hq, hasked⟩ := List.mem_filterMap.1 hkey
    rcases List.mem_cons.1 hq with rfl | hq
    · exact bind_mem hp hasked
    · exact ih hothers key (List.mem_filterMap.2 ⟨q, hq, hasked⟩)

namespace Layout

theorem columns_mem {s : Scope} {p : Projection} {found : List (String × String)}
    (h : columns s p = .ok found) : ∀ key ∈ found.map (·.1), key ∈ s.keys := by
  intro key hkey
  cases p with
  | star =>
    obtain rfl := Except.ok.inj h
    exact hkey
  | column c =>
    simp only [columns, bind_eq_ok, pure_eq_ok] at h
    obtain ⟨resolved, hresolved, rfl⟩ := h
    obtain rfl := List.mem_singleton.1 hkey
    exact Scope.resolve_mem hresolved
  | count arg => cases h

theorem allColumns_mem {s : Scope} (projections : List Projection) :
    ∀ {found : List (String × String)}, allColumns s projections = .ok found →
      ∀ key ∈ found.map (·.1), key ∈ s.keys := by
  induction projections with
  | nil =>
    intro found h key hkey
    obtain rfl := Except.ok.inj h
    cases hkey
  | cons p rest ih =>
    intro found h key hkey
    simp only [allColumns, bind_eq_ok, pure_eq_ok] at h
    obtain ⟨first, hfirst, others, hothers, rfl⟩ := h
    rw [List.map_append, List.mem_append] at hkey
    rcases hkey with hkey | hkey
    · exact columns_mem hfirst key hkey
    · exact ih hothers key hkey

theorem sortColumns_mem {s : Scope} (orderBy : List SortKey) :
    ∀ {sort : List SortColumn}, sortColumns s orderBy = .ok sort →
      ∀ key ∈ sort.map (·.key), key ∈ s.keys := by
  induction orderBy with
  | nil =>
    intro sort h key hkey
    obtain rfl := Except.ok.inj h
    cases hkey
  | cons k rest ih =>
    intro sort h key hkey
    simp only [sortColumns, bind_eq_ok, pure_eq_ok] at h
    obtain ⟨first, hfirst, others, hothers, rfl⟩ := h
    rcases List.mem_cons.1 hkey with rfl | hkey
    · exact Scope.resolve_mem hfirst
    · exact ih hothers key hkey

end Layout

/-- An answer asks for keys of columns that can be seen. -/
theorem Answer.bind_mem {projections : List Projection} {orderBy : List SortKey} {s : Scope}
    {a : Answer} (h : bind projections orderBy s = .ok a) : ∀ key ∈ a.keys, key ∈ s.keys := by
  intro key hkey
  rcases Answer.bind_cases h with ⟨arg, t, -, ht, rfl⟩ | ⟨found, sort, hfound, hsort, rfl⟩
  · cases arg with
    | star =>
      obtain rfl := Except.ok.inj ht
      cases hkey
    | column c =>
      simp only [Tally.bind, bind_eq_ok, pure_eq_ok] at ht
      obtain ⟨resolved, hresolved, rfl⟩ := ht
      obtain rfl := List.mem_singleton.1 hkey
      exact Scope.resolve_mem hresolved
  · rcases List.mem_append.1 hkey with hkey | hkey
    · exact Layout.allColumns_mem _ hfound key hkey
    · exact Layout.sortColumns_mem _ hsort key hkey

/-- A level writes the keys of all columns that its table has in the catalog. -/
theorem Level.Of.mem_keys {c : Catalog} {l : Level} (h : l.Of c) {r : Relation}
    (hr : c.get? l.table = some r) {column : String} (hcolumn : column ∈ r.table.columnNames) :
    columnKey l.table column ∈ l.keys := by
  obtain rfl := Option.some.inj (hr.symm.trans h)
  exact List.mem_map_of_mem hcolumn

namespace Select

theorem crossedLevels_eq_ok {c : Catalog} (names : List String) :
    ∀ {levels : List Level}, crossedLevels c names = .ok levels →
      levels.map (·.table) = names ∧ ∀ l ∈ levels, l.Of c := by
  induction names with
  | nil =>
    intro levels h
    obtain rfl := Except.ok.inj h
    exact ⟨rfl, fun _ hl => by cases hl⟩
  | cons name rest ih =>
    intro levels h
    simp only [crossedLevels, bind_eq_ok, pure_eq_ok] at h
    obtain ⟨r, hr, others, hothers, rfl⟩ := h
    obtain ⟨hnames, hothers⟩ := ih hothers
    exact ⟨by rw [List.map_cons, hnames], List.forall_mem_cons.2 ⟨Catalog.get_eq_ok.1 hr, hothers⟩⟩

theorem joinedLevels_eq_ok {c : Catalog} {s : Scope} (joins : List Join) :
    ∀ {levels : List Level}, joinedLevels c s joins = .ok levels →
      levels.map (·.table) = joins.map (·.table) ∧ ∀ l ∈ levels, l.Of c := by
  induction joins with
  | nil =>
    intro levels h
    obtain rfl := Except.ok.inj h
    exact ⟨rfl, fun _ hl => by cases hl⟩
  | cons j rest ih =>
    intro levels h
    simp only [joinedLevels, bind_eq_ok, pure_eq_ok] at h
    obtain ⟨r, hr, e, -, others, hothers, rfl⟩ := h
    obtain ⟨hnames, hothers⟩ := ih hothers
    refine ⟨by rw [List.map_cons, List.map_cons, hnames], ?_⟩
    exact List.forall_mem_cons.2 ⟨Catalog.get_eq_ok.1 hr, hothers⟩

/-- Every table that is named has a level, the first one that of the base. -/
theorem mem_tableNames {s : Select} {first : String} {others : List String}
    (h : s.tableNames = first :: others) {name : String} (hname : name ∈ s.tableNames) :
    name ∈ first :: (s.crossedNames ++ s.joins.map (·.table)) := by
  rw [tableNames, List.mem_eraseDups, List.mem_append] at hname
  unfold crossedNames
  cases htables : s.tables with
  | nil =>
    rw [htables] at hname
    have hjoined := hname.resolve_left List.not_mem_nil
    exact List.mem_cons_of_mem _ (List.mem_append_right _ hjoined)
  | cons t rest =>
    obtain rfl : t = first := by
      rw [tableNames, htables, List.cons_append, List.eraseDups_cons] at h
      exact List.head_eq_of_cons_eq h
    rcases hname with hname | hname
    · rw [← List.mem_eraseDups, htables, List.eraseDups_cons] at hname
      rw [List.eraseDups_cons, List.drop_one, List.tail_cons]
      rcases List.mem_cons.1 hname with rfl | hname
      · exact List.mem_cons_self
      · exact List.mem_cons_of_mem _ (List.mem_append_left _ hname)
    · exact List.mem_cons_of_mem _ (List.mem_append_right _ hname)

/-- Every level that was found shows a relation of the catalog. -/
theorem bind_levels {now : String} {c : Catalog} {s : Select} {q : Query}
    (h : s.bind now c = .ok q) : ∀ l ∈ q.base :: q.levels, l.Of c := by
  obtain ⟨_, _, _, _, _, hfinds, -, -, rfl⟩ := bind_iff.1 h
  obtain ⟨-, -, hbase, hcrossed, hjoined⟩ := hfinds
  exact List.forall_mem_cons.2 ⟨Catalog.get_eq_ok.1 hbase, List.forall_mem_append.2
    ⟨(crossedLevels_eq_ok _ hcrossed).2, (joinedLevels_eq_ok _ hjoined).2⟩⟩

/-- What was found asks complete records for keys that they have. -/
theorem bind_sound {now : String} {c : Catalog} (hc : c.Reachable) {s : Select} {q : Query}
    (h : s.bind now c = .ok q) : q.Sound := by
  obtain ⟨_, _, _, ps, a, hfinds, hps, ha, rfl⟩ := bind_iff.1 h
  cases hfinds with
  | @intro first others columns base crossed joined hnames hcolumns hbase hcrossed hjoined =>
    obtain ⟨hlisted, hentries⟩ := tableColumns_eq_ok _ hcolumns
    obtain ⟨hcrossing, hcrossed⟩ := crossedLevels_eq_ok _ hcrossed
    obtain ⟨hjoining, hjoined⟩ := joinedLevels_eq_ok _ hjoined
    have hbase := Catalog.get_eq_ok.1 hbase
    have hnames : s.tableNames = first :: others := hnames
    rw [← hnames] at hlisted
    have hlevels : ∀ l ∈ ⟨first, base, none⟩ :: (crossed ++ joined), l.Of c :=
      List.forall_mem_cons.2 ⟨hbase, List.forall_mem_append.2 ⟨hcrossed, hjoined⟩⟩
    -- each table of the scope has a level, which writes the keys of its columns
    have hkeys : ∀ key ∈ (Scope.ofList columns).keys,
        key ∈ (⟨first, base, none⟩ :: (crossed ++ joined)).flatMap Level.keys := by
      have hnodup : (columns.map (·.1)).Nodup := hlisted ▸ nodup_eraseDups _
      rw [Scope.ofList_of_nodup hnodup]
      intro key hkey
      obtain ⟨pair, hpair, rfl⟩ := List.mem_map.1 hkey
      obtain ⟨entry, hentry, hpair⟩ := List.mem_flatMap.1 hpair
      obtain ⟨column, hcolumn, rfl⟩ := List.mem_map.1 hpair
      obtain ⟨r, hr, hsame⟩ := hentries entry hentry
      have htable : entry.1 ∈ (⟨first, base, none⟩ :: (crossed ++ joined)).map Level.table := by
        rw [List.map_cons, List.map_append, hcrossing, hjoining]
        exact mem_tableNames hnames (hlisted ▸ List.mem_map_of_mem hentry)
      obtain ⟨l, hl, hname⟩ := List.mem_map.1 htable
      refine List.mem_flatMap.2 ⟨l, hl, ?_⟩
      rw [← hname] at hr ⊢
      exact (hlevels l hl).mem_keys hr (hsame ▸ hcolumn)
    have heven (l : Level) (hl : l ∈ ⟨first, base, none⟩ :: (crossed ++ joined)) :
        l.relation.Even := hc.even l.table l.relation (hlevels l hl)
    exact {
      predicates := fun key hkey => hkeys key (Predicate.bindAll_mem _ hps key hkey)
      answer := fun key hkey => hkeys key (Answer.bind_mem ha key hkey)
      base := heven _ List.mem_cons_self
      levels := fun l hl => heven l (List.mem_cons_of_mem _ hl) }

/-- A SELECT that is refused by its names writes nothing. -/
theorem execute_of_error {times : Times} {c : Catalog} {s : Select} {f : Fault}
    (h : s.bind (times 0) c = .error f) :
    (Statement.select s).execute times c = ⟨c, [], some f⟩ := by
  show s.execute (times 0) c = _
  rw [execute, h]

/-- A SELECT whose names are found fails at a stray level only. -/
theorem execute_fault {times : Times} {c : Catalog} (hc : c.Reachable) {s : Select} {q : Query}
    (h : s.bind (times 0) c = .ok q) :
    ((Statement.select s).execute times c).fault = q.scanFault := by
  show (s.execute (times 0) c).fault = _
  rw [execute, h]
  exact Query.frames_fault (bind_sound hc h)

end Select

/-! ### Acceptance -/

/-- In catalogs with the same tables and columns a SELECT is refused for the same name, before
anything is written; or it is accepted in both; or it has the same stray level in both, and fails
where a row gets to it. -/
theorem Catalog.Reachable.accepted_alike {c c' : Catalog} (hc : c.Reachable) (hc' : c'.Reachable)
    (hsame : c.SameColumns c') (times times' : Times) (s : Select) :
    (∃ f, (Statement.select s).execute times c = ⟨c, [], some f⟩ ∧
        (Statement.select s).execute times' c' = ⟨c', [], some f⟩) ∨
      ∃ q q', s.bind (times 0) c = .ok q ∧ s.bind (times' 0) c' = .ok q' ∧
        (q.stray? = none ∧ q'.stray? = none ∧
            ((Statement.select s).execute times c).fault = none ∧
            ((Statement.select s).execute times' c').fault = none ∨
          ∃ x x', q.stray? = some x ∧ q'.stray? = some x' ∧ x.Alike x' ∧
            ((Statement.select s).execute times c).fault =
              (if q.reaches x then some (.notInRow x.key) else none) ∧
            ((Statement.select s).execute times' c').fault =
              (if q'.reaches x' then some (.notInRow x'.key) else none)) := by
  have halike := Select.bind_alike hc hc' hsame (times 0) (times' 0) s
  generalize hbind : s.bind (times 0) c = found at halike
  generalize hbind' : s.bind (times' 0) c' = found' at halike
  cases halike with
  | error f => exact .inl ⟨f, Select.execute_of_error hbind, Select.execute_of_error hbind'⟩
  | @ok q q' hq =>
    refine .inr ⟨q, q', rfl, rfl, ?_⟩
    rw [Select.execute_fault hc hbind, Select.execute_fault hc' hbind', Query.scanFault,
      Query.scanFault]
    have hstray := hq.stray?
    generalize q.stray? = x at hstray ⊢
    generalize q'.stray? = x' at hstray ⊢
    cases hstray with
    | none => exact .inl ⟨rfl, rfl, rfl, rfl⟩
    | @some x x' hx => exact .inr ⟨x, x', rfl, rfl, hx, rfl, rfl⟩

/-- What catalogs list for a name is what they find under it. -/
theorem Catalog.map_get? {α : Type} (c : Catalog) (f : Relation → α) (name : String) :
    (c.get? name).map f = (c.entries.map fun e => (e.1, f e.2)).lookup name := by
  unfold get?
  induction c.entries with
  | nil => rfl
  | cons e rest ih =>
    obtain ⟨other, r⟩ := e
    rw [List.map_cons, lookup_cons_ite, lookup_cons_ite]
    split
    · rfl
    · exact ih

/-- An ON equality of two columns of the joined table asks for one of them before a row has written
it: the SELECT fails where both tables have a row, and is accepted where they have none. -/
theorem Catalog.accepted_alike_of_own_columns :
    let tables : List (Times × Statement) := ["a", "b"].map fun table =>
      (fun _ => "", .createTable ⟨table, false, [⟨"x", "text", false, []⟩], []⟩)
    let rows : List (Times × Statement) := ["a", "b"].map fun table =>
      (fun _ => "", .insert ⟨table, ["x"], [[⟨.string, "1"⟩]], none⟩)
    let c := Catalog.after tables
    let c' := Catalog.after (tables ++ rows)
    let s : Select := ⟨none, [.column ⟨some "a", "x"⟩], ["a"],
      [⟨"b", ⟨some "b", "x"⟩, ⟨some "b", "x"⟩⟩], [], [], none, none, false⟩
    ∃ q q' x x', s.bind "" c = .ok q ∧ s.bind "" c' = .ok q' ∧ q.stray? = some x ∧
      q'.stray? = some x' ∧ x.Alike x' ∧ x.key = "b.x" ∧ q.reaches x = false ∧
      q'.reaches x' = true := by
  intro tables rows c c' s
  have hc : c.Reachable := .after tables
  have hc' : c'.Reachable := .after (tables ++ rows)
  have hcolumns : c.entries.map (fun e => (e.1, e.2.table.columnNames)) =
      c'.entries.map (fun e => (e.1, e.2.table.columnNames)) := by decide +kernel
  have hsame : c.SameColumns c' := fun name => by rw [map_get?, map_get?, hcolumns]
  have hfault : ((Statement.select s).execute (fun _ => "") c).fault = none := by decide +kernel
  have hfault' : ((Statement.select s).execute (fun _ => "") c').fault =
      some (.notInRow "b.x") := by decide +kernel
  clear_value c c'
  rcases hc.accepted_alike hc' hsame (fun _ => "") (fun _ => "") s with
    ⟨f, hf, -⟩ | ⟨q, q', hq, hq', ⟨-, -, -, hnone⟩ | ⟨x, x', hx, hx', halike, hends, hends'⟩⟩
  · rw [hf] at hfault
    cases hfault
  · rw [hfault'] at hnone
    cases hnone
  · rw [hfault] at hends
    rw [hfault'] at hends'
    split at hends
    · cases hends
    · next hidle =>
      split at hends'
      · next hreached =>
        have hkey : x'.key = "b.x" := (Fault.notInRow.inj (Option.some.inj hends')).symm
        exact ⟨q, q', x, x', hq, hq', hx, hx', halike, halike.key.trans hkey,
          eq_false_of_ne_true hidle, hreached⟩
      · cases hends'

/-- Whether a SELECT is accepted may depend on the rows, even if the tables are the same in every
respect: here the second table is joined on a column of the third, and the third has no rows. -/
theorem Catalog.accepted_unlike :
    ¬ ∀ (c c' : Catalog) (times : Times) (s : Select), c.Reachable → c'.Reachable →
      (∀ name, (c.get? name).map (·.table) = (c'.get? name).map (·.table)) →
      ((Statement.select s).execute times c).fault =
        ((Statement.select s).execute times c').fault := by
  intro hsame
  let tables : List (Times × Statement) := ["a", "b", "c"].map fun table =>
    (fun _ => "", .createTable ⟨table, false, [⟨"x", "text", false, []⟩], []⟩)
  let rows : List (Times × Statement) := ["a", "b"].map fun table =>
    (fun _ => "", .insert ⟨table, ["x"], [[⟨.string, "1"⟩]], none⟩)
  let c := Catalog.after tables
  let c' := Catalog.after (tables ++ rows)
  let s : Select := ⟨none, [.column ⟨some "a", "x"⟩], ["a"],
    [⟨"b", ⟨some "b", "x"⟩, ⟨some "c", "x"⟩⟩, ⟨"c", ⟨some "c", "x"⟩, ⟨some "a", "x"⟩⟩], [], [],
    none, none, false⟩
  have htables : c.entries.map (fun e => (e.1, e.2.table)) =
      c'.entries.map (fun e => (e.1, e.2.table)) := by decide +kernel
  have hfault : ((Statement.select s).execute (fun _ => "") c).fault = none := by decide +kernel
  have hfault' : ((Statement.select s).execute (fun _ => "") c').fault =
      some (.notInRow "c.x") := by decide +kernel
  have hboth := hsame c c' (fun _ => "") s (.after _) (.after _) fun name => by
    rw [map_get?, map_get?, htables]
  rw [hfault, hfault'] at hboth
  cases hboth

end Tabula
