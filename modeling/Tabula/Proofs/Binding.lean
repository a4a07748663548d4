import Tabula.Answer
import Tabula.Proofs.Joining
import Tabula.Proofs.Operations

/-!
# What bound names stand for

Conditions, ON equalities and projections are bound before the first row is read.  Each theorem here
says of one of them that it can be bound if its references can be resolved, and that what it was
bound to asks of a record what the original asks of the combination that the record agrees with.
-/

namespace Tabula

/-! ## Whole combinations -/

/-- A combination of one row of each source, each as wide as its source. -/
structure Combination.Whole (sources : List Source) (combination : Combination) : Prop where
  length : combination.length = sources.length
  fitting : Fitting sources combination

/-- The combinations of even sources are whole. -/
theorem whole_of_mem_combinations {sources : List Source} (heven : Source.Even sources)
    {combination : Combination} (h : combination ∈ combinations sources) :
    combination.Whole sources := by
  obtain ⟨hlen, hrows⟩ := mem_combinations h
  refine ⟨hlen, fun i s row hs hrow => ?_⟩
  obtain ⟨row', hmem, hrow'⟩ := hrows i s hs
  obtain rfl := Option.some.inj (hrow.symm.trans hrow')
  exact heven s (List.mem_of_getElem? hs) row hmem

theorem Fitting.of_append {sources : List Source} {beginning rest : Combination}
    (h : Fitting sources (beginning ++ rest)) : Fitting sources beginning := by
  intro i s row hs hrow
  refine h i s row hs ?_
  rw [List.getElem?_append_left (List.getElem?_eq_some_iff.1 hrow).1, hrow]

/-! ## References -/

/-- A reference that can be resolved has the same value in a whole combination and in a record that
agrees with it. -/
theorem Scope.resolve_covers {sources : List Source} (hnames : (sources.map (·.name)).Nodup)
    {c : ColumnRef} (h : ∃ p, place? sources c = some p) :
    ∃ key, (Scope.mk (Source.listed sources)).resolve c = .ok key ∧
      ∀ (combination : Combination) (r : Record), combination.Whole sources →
        Agrees sources combination r →
        ∃ v, combination.value? sources c = some v ∧ r.get key = .ok v := by
  obtain ⟨⟨i, j⟩, hplace⟩ := h
  obtain ⟨s, hs, -, hkey⟩ := Scope.resolve_of_place? hnames hplace
  refine ⟨_, hkey, fun combination r hwhole hagrees => ?_⟩
  have hi := (List.getElem?_eq_some_iff.1 hs).1
  exact hagrees.get_of_place? hwhole.fitting hplace hs (hwhole.length ▸ hi)

/-! ## Conditions -/

/-- The references of a condition. -/
def Condition.references : Condition → List ColumnRef
  | .always => []
  | .compare c _ _ => [c]
  | .oneOf c _ _ => [c]
  | .nullTest c _ => [c]

namespace Predicate

/-- A test of one column is bound to a test of the value that its reference means. -/
theorem test_covers {sources : List Source} (hnames : (sources.map (·.name)).Nodup)
    {c : ColumnRef} (h : ∃ p, place? sources c = some p) (o : Operator) (right : Operand) :
    ∃ key, (Scope.mk (Source.listed sources)).resolve c = .ok key ∧
      ∀ (combination : Combination) (r : Record), combination.Whole sources →
        Agrees sources combination r →
        (Predicate.test key o right).holds r =
          .ok ((combination.value? sources c).any fun v => o.holds (.value v) right) := by
  obtain ⟨key, hkey, hvalue⟩ := Scope.resolve_covers hnames h
  refine ⟨key, hkey, fun combination r hwhole hagrees => ?_⟩
  obtain ⟨v, hv, hget⟩ := hvalue combination r hwhole hagrees
  rw [Predicate.holds, hget, hv]
  rfl

theorem bind_covers {sources : List Source} (hnames : (sources.map (·.name)).Nodup) (now : String)
    {c : Condition} (h : ∀ ref ∈ c.references, ∃ p, place? sources ref = some p) :
    ∃ p, bind now ⟨Source.listed sources⟩ c = .ok p ∧
      ∀ (combination : Combination) (r : Record), combination.Whole sources →
        Agrees sources combination r → p.holds r = .ok (c.meets now sources combination) := by
  cases c with
  | always => exact ⟨.always, rfl, fun _ _ _ _ => rfl⟩
  | compare c op l =>
    obtain ⟨key, hkey, htest⟩ := test_covers hnames (h c List.mem_cons_self) (.compare op)
      (.ofLiteral now l)
    exact ⟨_, by rw [bind, hkey]; rfl, htest⟩
  | oneOf c ls negated =>
    obtain ⟨key, hkey, htest⟩ := test_covers hnames (h c List.mem_cons_self) (.oneOf negated)
      (.ofLiterals now ls)
    exact ⟨_, by rw [bind, hkey]; rfl, htest⟩
  | nullTest c negated =>
    obtain ⟨key, hkey, htest⟩ := test_covers hnames (h c List.mem_cons_self) (.nullTest negated)
      .absent
    exact ⟨_, by rw [bind, hkey]; rfl, htest⟩

theorem bindAll_covers {sources : List Source} (hnames : (sources.map (·.name)).Nodup)
    (now : String) (conditions : List Condition)
    (h : ∀ ref ∈ conditions.flatMap (·.references), ∃ p, place? sources ref = some p) :
    ∃ ps, bindAll now ⟨Source.listed sources⟩ conditions = .ok ps ∧
      ∀ (combination : Combination) (r : Record), combination.Whole sources →
        Agrees sources combination r →
        Predicate.all r ps = .ok (conditions.all (·.meets now sources combination)) := by
  induction conditions with
  | nil => exact ⟨[], rfl, fun _ _ _ _ => rfl⟩
  | cons c rest ih =>
    rw [List.flatMap_cons] at h
    obtain ⟨p, hp, hholds⟩ := bind_covers hnames now fun ref href =>
      h ref (List.mem_append_left _ href)
    obtain ⟨ps, hps, hall⟩ := ih fun ref href => h ref (List.mem_append_right _ href)
    refine ⟨p :: ps, by rw [bindAll, hp, hps]; rfl, fun combination r hwhole hagrees => ?_⟩
    rw [Predicate.all, hholds combination r hwhole hagrees, ok_bind, List.all_cons,
      hall combination r hwhole hagrees]
    cases c.meets now sources combination <;> rfl

end Predicate

/-! ## ON equalities -/

/-- An ON equality pairs a column of the source at a place with a column of an earlier source, in
either order. -/
def Join.Pairs (sources : List Source) (place : Nat) (j : Join) : Prop :=
  ∃ own other q i q', (j.left = own ∧ j.right = other ∨ j.left = other ∧ j.right = own) ∧
    place? sources own = some (place, q) ∧ place? sources other = some (i, q') ∧ i < place

theorem Join.Pairs.within {sources : List Source} {place : Nat} {j : Join}
    (h : j.Pairs sources place) : j.Within sources (place + 1) := by
  obtain ⟨own, other, q, i, q', hsides, hown, hother, hlt⟩ := h
  have hown' : ∃ p, place? sources own = some p ∧ p.1 < place + 1 :=
    ⟨_, hown, Nat.lt_succ_self place⟩
  have hother' : ∃ p, place? sources other = some p ∧ p.1 < place + 1 :=
    ⟨_, hother, Nat.lt_succ_of_lt hlt⟩
  rcases hsides with ⟨hl, hr⟩ | ⟨hl, hr⟩
  · exact ⟨hl ▸ hown', hr ▸ hother'⟩
  · exact ⟨hl ▸ hother', hr ▸ hown'⟩

/-- Two values are compared the same way in either order. -/
theorem Join.meets_eq {sources : List Source} {combination : Combination} {j : Join}
    {own other : ColumnRef} {v w : Value}
    (hsides : j.left = own ∧ j.right = other ∨ j.left = other ∧ j.right = own)
    (hv : combination.value? sources own = some v)
    (hw : combination.value? sources other = some w) :
    j.meets sources combination = (!v.isNull && !w.isNull && v.canonical == w.canonical) := by
  unfold Join.meets
  rcases hsides with ⟨hl, hr⟩ | ⟨hl, hr⟩
  · rw [hl, hr, hv, hw]
  · rw [hl, hr, hv, hw]
    dsimp only
    rw [Bool.and_comm (!w.isNull), Bool.beq_comm (a := w.canonical)]

namespace OnEquality

variable {j : Join} {t : Table} {s : Scope} {key column : String}

/-- A left side whose key is one of the joined table comes from the rows that are tried. -/
theorem orient_left (hleft : s.resolve j.left = .ok (columnKey j.table column))
    (hright : s.resolve j.right = .ok key) :
    orient j t s = (⟨·, key⟩) <$> t.require column := by
  unfold orient
  rw [hleft, hright]
  simp only [ok_bind, rest?_columnKey.2 rfl]
  rfl

/-- So does a right side, if the key of the left one is none of the joined table. -/
theorem orient_right (hleft : s.resolve j.left = .ok key)
    (hkey : ∀ w, key ≠ columnKey j.table w)
    (hright : s.resolve j.right = .ok (columnKey j.table column)) :
    orient j t s = (⟨·, key⟩) <$> t.require column := by
  have hnone : Text.rest? (columnKey j.table "") key = none :=
    Option.eq_none_iff_forall_ne_some.2 fun w h => hkey w (rest?_columnKey.1 h)
  unfold orient
  rw [hleft, hright]
  simp only [ok_bind, rest?_columnKey.2 rfl, hnone]
  rfl

/-- The columns of a table are found at their places among the names. -/
theorem require_of_columnNames {q : Nat} (h : t.columnNames.findIdx? (· == column) = some q) :
    t.require column = .ok q := by
  rw [Table.require_eq_ok, Table.position?, ← h, Table.columnNames, List.findIdx?_map]
  rfl

/-- An ON equality is turned so that the column of the joined table comes from the rows that are
tried, whichever side it is on. -/
theorem orient_eq {sources : List Source} (hsources : Source.Distinct sources)
    {own other : ColumnRef} {rows : List Row} {place q i q' : Nat}
    {s : Source} (hsides : j.left = own ∧ j.right = other ∨ j.left = other ∧ j.right = own)
    (hplace : sources[place]? = some ⟨j.table, t.columnNames, rows⟩)
    (hown : place? sources own = some (place, q)) (hs : sources[i]? = some s)
    (hother : place? sources other = some (i, q')) (hlt : i < place) :
    orient j t ⟨Source.listed sources⟩ = .ok ⟨q, columnKey s.name other.name⟩ := by
  obtain ⟨s₁, hs₁, hcolumn, hresolve⟩ := Scope.resolve_of_place? hsources.names hown
  obtain rfl := Option.some.inj (hplace.symm.trans hs₁)
  obtain ⟨s₂, hs₂, -, hresolve'⟩ := Scope.resolve_of_place? hsources.names hother
  obtain rfl := Option.some.inj (hs.symm.trans hs₂)
  have hdotless : Dotless j.table := hsources.dotless _ (List.mem_of_getElem? hplace)
  have hdotless' : Dotless s.name := hsources.dotless _ (List.mem_of_getElem? hs)
  have hne : s.name ≠ j.table := by
    intro heq
    have hi : (sources.map (·.name))[i]? = some s.name := by simp [hs]
    have hn : (sources.map (·.name))[place]? = some s.name := by simp [hplace, heq]
    have := (List.getElem?_inj (List.getElem?_eq_some_iff.1 hi).1 hsources.names).1
      (hi.trans hn.symm)
    omega
  have hkey (w : String) : columnKey s.name other.name ≠ columnKey j.table w := fun heq =>
    hne (columnKey_inj hdotless' hdotless heq).1
  rcases hsides with ⟨rfl, rfl⟩ | ⟨rfl, rfl⟩
  · rw [orient_left hresolve hresolve', require_of_columnNames hcolumn]
    rfl
  · rw [orient_right hresolve' hkey hresolve, require_of_columnNames hcolumn]
    rfl

end OnEquality

/-- The level of a table without an ON equality admits every row. -/
theorem Level.serves_none {sources : List Source} {place : Nat} {name : String} {r : Relation}
    (h : sources[place]? = some ⟨name, r.table.columnNames, r.rows⟩) :
    Level.Serves sources place none ⟨name, r, none⟩ :=
  ⟨h, fun _ _ _ _ _ _ => rfl⟩

/-- The level of a joined table admits the rows that meet its ON equality. -/
theorem Level.serves_some {sources : List Source} (hsources : Source.Distinct sources)
    {place : Nat} {j : Join} {r : Relation}
    (h : sources[place]? = some ⟨j.table, r.table.columnNames, r.rows⟩)
    (hpairs : j.Pairs sources place) :
    ∃ e, OnEquality.orient j r.table ⟨Source.listed sources⟩ = .ok e ∧
      Level.Serves sources place (some j) ⟨j.table, r, some e⟩ := by
  obtain ⟨own, other, q, i, q', hsides, hown, hother, hlt⟩ := hpairs
  obtain ⟨s, hs, -⟩ := place?_eq_some hother
  refine ⟨_, OnEquality.orient_eq hsources hsides h hown hs hother hlt, h, ?_⟩
  intro beginning row record hlen hfit hagrees
  subst hlen
  -- the value of the joined table is in the row that is tried, the other in the record
  obtain ⟨s', hs', hcolumn, -⟩ := place?_eq_some hown
  obtain ⟨hwidth, -⟩ := List.findIdx?_eq_some_iff_getElem.1 hcolumn
  have hrow : (beginning ++ [row])[beginning.length]? = some row := by simp
  rw [← hfit _ s' row hs' hrow] at hwidth
  have hv : row[q]? = some row[q] := List.getElem?_eq_getElem hwidth
  have hvalue : Combination.value? sources (beginning ++ [row]) own = some row[q] := by
    rw [Combination.value?, hown, Option.bind_some]
    dsimp only
    rw [hrow, Option.bind_some, hv]
  obtain ⟨w, hw, hget⟩ := hagrees.get_of_place? hfit.of_append hother hs hlt
  have hw' : Combination.value? sources (beginning ++ [row]) other = some w := by
    rw [Combination.value?_append hother hlt, hw]
  show OnEquality.holds _ record row = _
  rw [OnEquality.holds, hget, ok_bind, hv, admitted, Option.all_some,
    Join.meets_eq hsides hvalue hw']
  rfl

/-! ## Projections -/

/-- The references of a projection. -/
def Projection.references : Projection → List ColumnRef
  | .star => []
  | .column c => [c]
  | .count _ => []

namespace Layout

/-- Values stand in a record under keys. -/
def Reads (r : Record) (keys : List String) (vs : List Value) : Prop :=
  List.Forall₂ (fun key v => r.get key = .ok v) keys vs

theorem values_of_reads {r : Record} {keys : List String} {vs : List Value} (h : Reads r keys vs) :
    values r keys = .ok vs := by
  induction h with
  | nil => rfl
  | cons hget _ ih => rw [values, hget, ih]; rfl

/-- All columns of a scope read a whole combination, row by row. -/
theorem reads_star {sources : List Source} {combination : Combination} {r : Record}
    (hwhole : combination.Whole sources) (hagrees : Agrees sources combination r) :
    Reads r ((Scope.mk (Source.listed sources)).allColumns.map (·.1)) combination.flatten := by
  have hkeys : (Scope.mk (Source.listed sources)).allColumns.map (·.1) =
      sources.flatMap fun s => s.columns.map (columnKey s.name) := by
    simp [Scope.allColumns, Source.listed, List.map_flatMap, List.flatMap_map, Function.comp_def]
  have hrows : List.Forall₂ (fun (s : Source) (row : Row) =>
      Reads r (s.columns.map (columnKey s.name)) row) sources combination := by
    refine List.forall₂_iff_get.2 ⟨hwhole.length.symm, fun i hi hi' => ?_⟩
    have hs : sources[i]? = some sources[i] := List.getElem?_eq_getElem hi
    have hrow : combination[i]? = some combination[i] := List.getElem?_eq_getElem hi'
    refine List.forall₂_iff_get.2 ⟨?_, fun j hj hj' => ?_⟩
    · rw [List.length_map]
      exact (hwhole.fitting i _ _ hs hrow).symm
    · rw [List.length_map] at hj
      have hget := hagrees i j _ _ _ _ hs hrow (List.getElem?_eq_getElem hj)
        (List.getElem?_eq_getElem hj')
      simp only [List.get_eq_getElem, List.getElem_map]
      exact Record.get_of_get? hget
  rw [hkeys, ← List.flatMap_id]
  exact List.rel_flatMap hrows fun _ _ h => h

theorem columns_covers {sources : List Source} (hnames : (sources.map (·.name)).Nodup)
    {p : Projection} (hcount : Answer.isCount p = false)
    (h : ∀ ref ∈ p.references, ∃ q, place? sources ref = some q) :
    ∃ found, columns ⟨Source.listed sources⟩ p = .ok found ∧
      found.map (·.2) = p.header sources ∧
      ∀ (combination : Combination) (r : Record), combination.Whole sources →
        Agrees sources combination r →
        Reads r (found.map (·.1)) (p.values sources combination) := by
  cases p with
  | star =>
    refine ⟨_, rfl, ?_, fun _ _ => reads_star⟩
    simp [Scope.allColumns, Source.listed, Projection.header, List.map_flatMap, List.flatMap_map,
      Function.comp_def]
  | column c =>
    obtain ⟨key, hkey, hvalue⟩ := Scope.resolve_covers hnames (h c List.mem_cons_self)
    refine ⟨[(key, c.name)], by rw [columns, hkey]; rfl, rfl,
      fun combination r hwhole hagrees => ?_⟩
    obtain ⟨v, hv, hget⟩ := hvalue combination r hwhole hagrees
    rw [Projection.values, hv]
    exact .cons hget .nil
  | count arg => cases hcount

theorem allColumns_covers {sources : List Source} (hnames : (sources.map (·.name)).Nodup)
    (ps : List Projection) (hcount : ∀ p ∈ ps, Answer.isCount p = false)
    (h : ∀ ref ∈ ps.flatMap (·.references), ∃ q, place? sources ref = some q) :
    ∃ found, allColumns ⟨Source.listed sources⟩ ps = .ok found ∧
      found.map (·.2) = ps.flatMap (·.header sources) ∧
      ∀ (combination : Combination) (r : Record), combination.Whole sources →
        Agrees sources combination r →
        Reads r (found.map (·.1)) (ps.flatMap (·.values sources combination)) := by
  induction ps with
  | nil => exact ⟨[], rfl, rfl, fun _ _ _ _ => .nil⟩
  | cons p rest ih =>
    rw [List.flatMap_cons] at h
    obtain ⟨found, hfound, hheader, hreads⟩ := columns_covers hnames (hcount p List.mem_cons_self)
      fun ref href => h ref (List.mem_append_left _ href)
    obtain ⟨others, hothers, hheaders, hreads'⟩ := ih
      (fun q hq => hcount q (List.mem_cons_of_mem _ hq))
      fun ref href => h ref (List.mem_append_right _ href)
    refine ⟨found ++ others, by rw [allColumns, hfound, hothers]; rfl, ?_,
      fun combination r hwhole hagrees => ?_⟩
    · rw [List.map_append, hheader, hheaders, List.flatMap_cons]
    · rw [List.map_append, List.flatMap_cons]
      exact List.rel_append (hreads combination r hwhole hagrees)
        (hreads' combination r hwhole hagrees)

end Layout

end Tabula
