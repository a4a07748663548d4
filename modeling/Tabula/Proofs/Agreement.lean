import Tabula.Proofs.Attempt
import Tabula.Proofs.Combination

/-!
# Records that agree with combinations

A record holds values under keys, a combination at places.  While tables are joined the record is
carried along and its keys are written over, so that it may hold more than the rows that have been
chosen; `Agrees` says that it holds at least these.

* `columnKey_eq_iff`, `columnKey_inj`: which columns have one key; where no name of a table has a
  point in it, keys tell columns apart.
* `Scope.resolve_of_place?`: a reference is resolved to the key of the column that it means.
* `Agrees.merge`: merging a row of the next source extends the agreement.
-/

namespace Tabula

/-! ## Keys -/

/-- A name that can be told from the point after it. -/
def Dotless (name : String) : Prop :=
  '.' ∉ name.toList

instance (name : String) : Decidable (Dotless name) :=
  inferInstanceAs (Decidable ('.' ∉ name.toList))

theorem columnKey_toList (table column : String) :
    (columnKey table column).toList = table.toList ++ '.' :: column.toList := by
  simp [columnKey, String.toList_append]

/-- The name of one table goes on from that of another with a point and some text, and the name of
the other's column begins with that text and a point. -/
def NameExtends (t c t' c' : String) : Prop :=
  ∃ u, t' = t ++ "." ++ u ∧ c = u ++ "." ++ c'

/-- The names of columns of two tables are mixed up by their points, one way or the other. -/
def NamesMixed (t c t' c' : String) : Prop :=
  NameExtends t c t' c' ∨ NameExtends t' c' t c

theorem columnKey_assoc (t u c : String) :
    columnKey (columnKey t u) c = columnKey t (columnKey u c) := by
  simp [columnKey, String.append_assoc]

theorem nameExtends_of_append {t c t' c' : String} {cs : List Char}
    (ht : t'.toList = t.toList ++ cs) (hc : '.' :: c.toList = cs ++ '.' :: c'.toList) :
    t = t' ∧ c = c' ∨ NameExtends t c t' c' := by
  cases cs with
  | nil =>
    rw [List.append_nil] at ht
    exact .inl ⟨(String.toList_inj.1 ht).symm, String.toList_inj.1 (List.tail_eq_of_cons_eq hc)⟩
  | cons x u =>
    obtain ⟨rfl, htail⟩ := List.cons.inj hc
    refine .inr ⟨String.ofList u, String.toList_inj.1 ?_, String.toList_inj.1 ?_⟩
    · simp [ht, String.toList_append]
    · simpa [String.toList_append] using htail

/-- Two columns have one key if they are the same, or if their names are mixed up. -/
theorem columnKey_eq_iff {t c t' c' : String} :
    columnKey t c = columnKey t' c' ↔ t = t' ∧ c = c' ∨ NamesMixed t c t' c' := by
  constructor
  · intro h
    have hlist := congrArg String.toList h
    rw [columnKey_toList, columnKey_toList] at hlist
    rcases List.append_eq_append_iff.1 hlist with ⟨cs, ht, hc⟩ | ⟨cs, ht, hc⟩
    · exact (nameExtends_of_append ht hc).imp_right .inl
    · rcases nameExtends_of_append ht hc with ⟨rfl, rfl⟩ | hextends
      · exact .inl ⟨rfl, rfl⟩
      · exact .inr (.inr hextends)
  · rintro (⟨rfl, rfl⟩ | ⟨u, rfl, rfl⟩ | ⟨u, rfl, rfl⟩)
    · rfl
    · exact (columnKey_assoc t u c').symm
    · exact columnKey_assoc t' u c

theorem not_nameExtends_of_dotless {t c t' c' : String} (h : Dotless t') :
    ¬NameExtends t c t' c' := by
  rintro ⟨u, rfl, -⟩
  exact h (by simp [String.toList_append])

theorem columnKey_inj {t t' c c' : String} (ht : Dotless t) (ht' : Dotless t')
    (h : columnKey t c = columnKey t' c') : t = t' ∧ c = c' := by
  rcases columnKey_eq_iff.1 h with hsame | hextends | hextends
  · exact hsame
  · exact absurd hextends (not_nameExtends_of_dotless ht')
  · exact absurd hextends (not_nameExtends_of_dotless ht)

/-- Keys of one table tell its columns apart, whatever its name. -/
theorem columnKey_column_inj {t c c' : String} (h : columnKey t c = columnKey t c') : c = c' := by
  have hlist := congrArg String.toList h
  rw [columnKey_toList, columnKey_toList] at hlist
  exact String.toList_inj.1 (List.tail_eq_of_cons_eq (List.append_cancel_left hlist))

/-- What begins with the name of a table and a point is the key of what comes then. -/
theorem rest?_columnKey {t key column : String} :
    Text.rest? (columnKey t "") key = some column ↔ key = columnKey t column := by
  have hkey : columnKey t "" ++ column = columnKey t column := by
    simp [columnKey, String.append_assoc]
  rw [Text.rest?_eq_some, hkey]

/-! ## Merging rows -/

namespace Record

theorem get_of_get? {r : Record} {key : String} {v : Value} (h : r.get? key = some v) :
    r.get key = .ok v := by
  rw [Record.get, h]

theorem get?_merge_of_ne {table key : String} (columns : List String) :
    ∀ (row : Row) (r : Record), (∀ c ∈ columns, key ≠ columnKey table c) →
      (r.merge table columns row).get? key = r.get? key := by
  induction columns with
  | nil => intro row r _; rfl
  | cons c rest ih =>
    intro row r h
    cases row with
    | nil => rfl
    | cons v vs =>
      have hrest := ih vs (r.set (columnKey table c) v) fun c' hc' =>
        h c' (List.mem_cons_of_mem _ hc')
      rw [Record.get?_set, if_neg (h c List.mem_cons_self)] at hrest
      exact hrest

theorem get?_merge {table column : String} {v : Value} (columns : List String) :
    ∀ (row : Row) (r : Record) (j : Nat), columns.Nodup → columns[j]? = some column →
      row[j]? = some v → (r.merge table columns row).get? (columnKey table column) = some v := by
  induction columns with
  | nil => intro row r j _ hj; simp at hj
  | cons c rest ih =>
    intro row r j hnodup hj hv
    obtain ⟨hnew, hrest⟩ := List.nodup_cons.1 hnodup
    cases row with
    | nil => simp at hv
    | cons w ws =>
      cases j with
      | zero =>
        obtain rfl := Option.some.inj hj
        obtain rfl := Option.some.inj hv
        have hne : ∀ c' ∈ rest, columnKey table c ≠ columnKey table c' :=
          fun c' hc' heq => hnew (columnKey_column_inj heq ▸ hc')
        have hkeep := get?_merge_of_ne rest ws (r.set (columnKey table c) w) hne
        rw [Record.get?_set, if_pos rfl] at hkeep
        exact hkeep
      | succ j => exact ih ws (r.set (columnKey table c) w) j hrest hj hv

end Record

/-! ## Resolving references -/

/-- The tables that a scope lists for sources. -/
def Source.listed (sources : List Source) : List (String × List String) :=
  sources.map fun s => (s.name, s.columns)

theorem Scope.push_of_new {s : Scope} {table : String} {columns : List String}
    (h : ∀ entry ∈ s.tables, entry.1 ≠ table) :
    s.push table columns = ⟨s.tables ++ [(table, columns)]⟩ := by
  have hnone : s.columns? table = none := by
    unfold Scope.columns?
    rw [List.lookup_eq_none_iff]
    intro entry hentry
    simpa using Ne.symm (h entry hentry)
  rw [Scope.push, hnone]
  rfl

/-- Tables of different names are all listed, in order. -/
theorem Scope.ofList_of_nodup {tables : List (String × List String)}
    (h : (tables.map (·.1)).Nodup) : Scope.ofList tables = ⟨tables⟩ := by
  have hfold : ∀ (tables before : List (String × List String)),
      ((before ++ tables).map (·.1)).Nodup →
      tables.foldl (fun s entry => Scope.push s entry.1 entry.2) ⟨before⟩ =
        ⟨before ++ tables⟩ := by
    intro tables
    induction tables with
    | nil => intro before _; simp
    | cons entry rest ih =>
      intro before hnodup
      have hnew : ∀ e ∈ before, e.1 ≠ entry.1 := by
        rw [List.map_append, List.nodup_append] at hnodup
        exact fun e he => hnodup.2.2 e.1 (List.mem_map_of_mem he) entry.1 (by simp)
      obtain ⟨table, columns⟩ := entry
      have hstep : Scope.push ⟨before⟩ table columns = ⟨before ++ [(table, columns)]⟩ :=
        Scope.push_of_new hnew
      have hrest := ih (before ++ [(table, columns)]) (by rwa [List.append_cons] at hnodup)
      rw [List.append_assoc] at hrest
      simp only [List.foldl_cons, hstep]
      exact hrest
  exact hfold tables [] h

/-- An entry of a list whose keys differ is the one that is found. -/
theorem lookup_of_mem {α : Type} {key : String} {v : α} {entries : List (String × α)}
    (hnodup : (entries.map (·.1)).Nodup) (h : (key, v) ∈ entries) :
    entries.lookup key = some v := by
  induction entries with
  | nil => cases h
  | cons e rest ih =>
    obtain ⟨k, w⟩ := e
    obtain ⟨hnew, hrest⟩ := List.nodup_cons.1 hnodup
    rw [lookup_cons_ite]
    rcases List.mem_cons.1 h with heq | hmem
    · obtain ⟨rfl, rfl⟩ := Prod.mk.inj heq
      rw [if_pos rfl]
    · have hne : key ≠ k := fun heq => hnew (heq ▸ List.mem_map_of_mem (f := (·.1)) hmem)
      rw [if_neg hne, ih hrest hmem]

/-- A reference is resolved to the key of the column that it means. -/
theorem Scope.resolve_of_place? {sources : List Source} (hnames : (sources.map (·.name)).Nodup)
    {c : ColumnRef} {i j : Nat} (h : place? sources c = some (i, j)) :
    ∃ s, sources[i]? = some s ∧ s.columns.findIdx? (· == c.name) = some j ∧
      (Scope.mk (Source.listed sources)).resolve c = .ok (columnKey s.name c.name) := by
  obtain ⟨s, hs, hcolumn, hsole⟩ := place?_eq_some h
  refine ⟨s, hs, hcolumn, ?_⟩
  have hoffers : s.offers c = true := by
    have : s ∈ sources.filter (·.offers c) := by rw [hsole]; exact List.mem_singleton_self s
    exact (List.mem_filter.1 this).2
  unfold Scope.resolve
  cases htable : c.table with
  | some table =>
    simp only [Source.offers, htable, Option.all_some, Bool.and_eq_true, beq_iff_eq] at hoffers
    have hlookup : (Source.listed sources).lookup table = some s.columns := by
      refine lookup_of_mem ?_ ?_
      · simpa [Source.listed, Function.comp_def] using hnames
      · exact List.mem_map.2 ⟨s, List.mem_of_getElem? hs, by rw [hoffers.1]⟩
    simp only [Scope.columns?, hlookup]
    rw [if_pos hoffers.2, hoffers.1]
  | none =>
    have howners : (Scope.mk (Source.listed sources)).owners c.name = [s.name] := by
      have hsame : (fun s : Source => s.columns.contains c.name) = (·.offers c) := by
        funext s
        simp [Source.offers, htable]
      simp only [Scope.owners, Source.listed, List.filter_map, List.map_map]
      rw [show ((fun x : String × List String => x.2.contains c.name) ∘
        fun s : Source => (s.name, s.columns)) = (·.offers c) from hsame, hsole]
      rfl
    simp only [howners]

/-- A reference without a table that can be resolved is offered by one source only. -/
theorem Scope.sole_of_bare {sources : List Source} {c : ColumnRef} {key : String}
    (htable : c.table = none)
    (hkey : (Scope.mk (Source.listed sources)).resolve c = .ok key) :
    ∃ s, sources.filter (·.offers c) = [s] := by
  have hsame : (fun s : Source => s.columns.contains c.name) = (·.offers c) := by
    funext s
    simp [Source.offers, htable]
  have howners : (Scope.mk (Source.listed sources)).owners c.name =
      (sources.filter (·.offers c)).map (·.name) := by
    simp only [Scope.owners, Source.listed, List.filter_map, List.map_map, ← hsame]
    rfl
  unfold Scope.resolve at hkey
  simp only [htable, howners] at hkey
  cases hsole : sources.filter (·.offers c) with
  | nil => simp [hsole] at hkey
  | cons s rest =>
    cases rest with
    | nil => exact ⟨s, rfl⟩
    | cons s' rest' => simp [hsole] at hkey

/-- A reference with a table is offered by the source of that name only. -/
theorem Source.sole_of_named {sources : List Source} (hnames : (sources.map (·.name)).Nodup)
    {s : Source} (hs : s ∈ sources) {c : ColumnRef} (htable : c.table = some s.name)
    (hoffers : s.offers c = true) : sources.filter (·.offers c) = [s] := by
  have hother : ∀ s' : Source, s'.name ≠ s.name → ¬s'.offers c = true := by
    intro s' hne
    simp [Source.offers, htable, Ne.symm hne]
  obtain ⟨before, after, rfl⟩ := List.append_of_mem hs
  rw [List.map_append, List.map_cons, List.nodup_append, List.nodup_cons] at hnames
  refine List.filter_eq_cons_iff.2 ⟨before, after, rfl, ?_, hoffers, List.filter_eq_nil_iff.2 ?_⟩
  · intro s' hs'
    exact hother s' (hnames.2.2 _ (List.mem_map_of_mem hs') _ List.mem_cons_self)
  · intro s' hs'
    exact hother s' fun heq => hnames.2.1.1 (heq ▸ List.mem_map_of_mem hs')

/-- A reference with a table that can be resolved is offered by the source of that name. -/
theorem Scope.sole_of_named {sources : List Source} (hnames : (sources.map (·.name)).Nodup)
    {c : ColumnRef} {table key : String} (htable : c.table = some table)
    (hkey : (Scope.mk (Source.listed sources)).resolve c = .ok key) :
    ∃ s, sources.filter (·.offers c) = [s] := by
  unfold Scope.resolve at hkey
  simp only [htable, Scope.columns?] at hkey
  cases hcolumns : (Source.listed sources).lookup table with
  | none => simp [hcolumns] at hkey
  | some columns =>
    simp only [hcolumns] at hkey
    split at hkey
    · next hcontains =>
      obtain ⟨s, hs, heq⟩ := List.mem_map.1 (mem_of_lookup hcolumns)
      obtain ⟨rfl, rfl⟩ := Prod.mk.inj heq
      have hoffers : s.offers c = true := by
        simp only [Source.offers, htable, Option.all_some, beq_self_eq_true, Bool.true_and]
        exact hcontains
      exact ⟨s, Source.sole_of_named hnames hs htable hoffers⟩
    · cases hkey

/-- The references that are resolved are those that mean a column. -/
theorem Scope.resolves_iff {sources : List Source} (hnames : (sources.map (·.name)).Nodup)
    {c : ColumnRef} :
    (∃ key, (Scope.mk (Source.listed sources)).resolve c = .ok key) ↔
      ∃ p, place? sources c = some p := by
  constructor
  · rintro ⟨key, hkey⟩
    cases htable : c.table with
    | none =>
      obtain ⟨s, hsole⟩ := Scope.sole_of_bare htable hkey
      exact place?_of_sole hsole
    | some table =>
      obtain ⟨s, hsole⟩ := Scope.sole_of_named hnames htable hkey
      exact place?_of_sole hsole
  · rintro ⟨⟨i, j⟩, hplace⟩
    obtain ⟨s, -, -, hkey⟩ := Scope.resolve_of_place? hnames hplace
    exact ⟨_, hkey⟩

/-! ## Agreement -/

/-- A record holds the values of a combination, which may end before the last source, under the keys
of their columns. -/
def Agrees (sources : List Source) (combination : Combination) (r : Record) : Prop :=
  ∀ (i j : Nat) (s : Source) (row : Row) (column : String) (v : Value),
    sources[i]? = some s → combination[i]? = some row → s.columns[j]? = some column →
    row[j]? = some v → r.get? (columnKey s.name column) = some v

theorem Agrees.nil (sources : List Source) (r : Record) : Agrees sources [] r := by
  intro i j s row column v _ hrow
  simp at hrow

theorem Agrees.of_append {sources : List Source} {beginning rest : Combination} {r : Record}
    (h : Agrees sources (beginning ++ rest) r) : Agrees sources beginning r := by
  intro i j s row column v hs hrow
  refine h i j s row column v hs ?_
  rw [List.getElem?_append_left (List.getElem?_eq_some_iff.1 hrow).1, hrow]

/-- What tells the columns of sources apart: different names without points, and different columns
in each. -/
structure Source.Distinct (sources : List Source) : Prop where
  names : (sources.map (·.name)).Nodup
  dotless : ∀ s ∈ sources, Dotless s.name
  columns : ∀ s ∈ sources, s.columns.Nodup

/-- Merging a row of the next source writes over no value of the others. -/
theorem Agrees.merge {sources : List Source} (hsources : Source.Distinct sources)
    {beginning : Combination} {r : Record} (h : Agrees sources beginning r) {s : Source}
    (hs : sources[beginning.length]? = some s) (row : Row) :
    Agrees sources (beginning ++ [row]) (r.merge s.name s.columns row) := by
  intro i j s' row' column v hs' hrow' hcolumn hv
  by_cases hi : i < beginning.length
  · rw [List.getElem?_append_left hi] at hrow'
    rw [Record.get?_merge_of_ne]
    · exact h i j s' row' column v hs' hrow' hcolumn hv
    · intro c _ heq
      have hname := (columnKey_inj (hsources.dotless s' (List.mem_of_getElem? hs'))
        (hsources.dotless s (List.mem_of_getElem? hs)) heq).1
      have hi' : (sources.map (·.name))[i]? = some s.name := by simp [hs', hname]
      have hn : (sources.map (·.name))[beginning.length]? = some s.name := by simp [hs]
      have hplace := (List.getElem?_inj (List.getElem?_eq_some_iff.1 hi').1 hsources.names).1
        (hi'.trans hn.symm)
      omega
  · have hlen := (List.getElem?_eq_some_iff.1 hrow').1
    rw [List.length_append, List.length_singleton] at hlen
    obtain rfl : i = beginning.length := by omega
    obtain rfl := Option.some.inj (hs.symm.trans hs')
    rw [List.getElem?_append_right (Nat.le_refl _), Nat.sub_self] at hrow'
    obtain rfl := Option.some.inj hrow'
    exact Record.get?_merge s.columns row r j (hsources.columns s (List.mem_of_getElem? hs)) hcolumn
      hv

/-- Every row of a combination is as wide as its source. -/
def Fitting (sources : List Source) (combination : Combination) : Prop :=
  ∀ (i : Nat) (s : Source) (row : Row), sources[i]? = some s → combination[i]? = some row →
    row.length = s.columns.length

/-- A record that agrees with a combination has the value that a reference means under the key to
which the reference is resolved, if the combination goes as far as its source. -/
theorem Agrees.get_of_place? {sources : List Source} {combination : Combination} {r : Record}
    (h : Agrees sources combination r) (hfit : Fitting sources combination) {c : ColumnRef}
    {i j : Nat} {s : Source} (hplace : place? sources c = some (i, j)) (hs : sources[i]? = some s)
    (hi : i < combination.length) :
    ∃ v, combination.value? sources c = some v ∧ r.get (columnKey s.name c.name) = .ok v := by
  obtain ⟨s', hs', hj, -⟩ := place?_eq_some hplace
  obtain rfl := Option.some.inj (hs.symm.trans hs')
  obtain ⟨hlt, hname, -⟩ := List.findIdx?_eq_some_iff_getElem.1 hj
  have hrow : combination[i]? = some combination[i] := List.getElem?_eq_getElem hi
  have hwidth := hfit i s _ hs hrow
  obtain ⟨v, hv⟩ : ∃ v, combination[i][j]? = some v :=
    ⟨_, List.getElem?_eq_getElem (hwidth ▸ hlt)⟩
  have hcolumn : s.columns[j]? = some c.name := by
    rw [List.getElem?_eq_getElem hlt]
    simpa using hname
  refine ⟨v, ?_, ?_⟩
  · rw [Combination.value?, hplace, Option.bind_some]
    dsimp only
    rw [hrow, Option.bind_some, hv]
  · exact Record.get_of_get? (h i j s _ c.name _ hs hrow hcolumn hv)

end Tabula
