import Mathlib.Data.List.Forall2
import Mathlib.Data.Option.Basic
import Tabula.Proofs.Commuting
import Tabula.Proofs.Numbering

/-!
# What an UPDATE makes of the rows

An UPDATE reads its literals once, decides on the rows as they were, assigns to a copy of them, and
looks for keys that a unique column of the copy would hold twice.  `Relation.Updated` says what the
copy is, in terms of the literals and not of how they are assigned: a column that is assigned to
more than once takes its last literal.

* `Relation.assigned_updated`: the copy is as `Relation.Updated` says.
* `Relation.updateWhere_again`: the same update of the copy gives the copy again.  It may be about
  fewer rows, as the conditions may ask for the columns that were assigned to, but never about
  others.
* `Catalog.Reachable.update_settles`: both for the statement.
* `Relation.checkAssignments_eq_error`: the search is made for every assignment, one that a later
  assignment overrides included.
* `Catalog.Reachable.refused_update`: what a refusal for a key means.  If no later assignment is to
  the column, the rows would hold the key twice; otherwise they need not.
-/

namespace Tabula

/-! ## Algorithm -/

/-- The literal of the last assignment to a column. -/
def lastLiteral? (assignments : List (String × Literal)) (name : String) : Option Literal :=
  assignments.reverse.lookup name

/-- A row after assignments: a column that is assigned to holds the literal of the last assignment
to it, as it stores the literal at a given time, and every other column holds what it held. -/
structure Table.Overwritten (now : String) (t : Table) (assignments : List (String × Literal))
    (row new : Row) : Prop where
  length : new.length = row.length
  assigned : ∀ (position : Nat) (column : Column) (l : Literal),
    t.columns[position]? = some column → lastLiteral? assignments column.name = some l →
    ∃ v, column.coerce now l = .ok v ∧ new[position]? = some v
  others : ∀ (position : Nat) (column : Column), t.columns[position]? = some column →
    lastLiteral? assignments column.name = none → new[position]? = row[position]?

/-- The rows of a relation after assignments to those that a test holds for. -/
structure Relation.Updated (now : String) (r : Relation) (assignments : List (String × Literal))
    (meets : Nat → Row → Bool) (rows : List Row) : Prop where
  length : rows.length = r.rows.length
  met : ∀ (i : Nat) (row : Row), r.rows[i]? = some row → meets i row = true →
    ∃ new, rows[i]? = some new ∧ r.table.Overwritten now assignments row new
  unmet : ∀ (i : Nat) (row : Row), r.rows[i]? = some row → meets i row = false →
    rows[i]? = some row

/-- Two values are one key of a column: neither is null, and they have the same canonical string, in
lower case if a unique index of that column alone asks for it. -/
def Relation.SameKey (r : Relation) (column : Column) (v w : Value) : Prop :=
  v ≠ .null ∧ w ≠ .null ∧
    (v.canonical = w.canonical ∨
      (∃ index ∈ r.indexes, index.unique = true ∧ index.columns = [⟨column.name, true⟩]) ∧
        Text.lowercase v.canonical = Text.lowercase w.canonical)

/-- Some rows hold a key of a column twice. -/
def Relation.HoldsTwice (r : Relation) (position : Nat) (column : Column) (rows : List Row) :
    Prop :=
  ∃ (i j : Nat) (a b : Row) (v w : Value), i ≠ j ∧ rows[i]? = some a ∧ rows[j]? = some b ∧
    a[position]? = some v ∧ b[position]? = some w ∧ r.SameKey column v w

namespace Relation

/-! ## Lemmas -/

/-! ### Literals and what is stored for them -/

/-- What is found for a column by name is found for it by place, and was read by the column. -/
theorem lookup_resolves {now : String} {t : Table} (hnames : t.columnNames.Nodup) {position : Nat}
    {column : Column} (hcolumn : t.columns[position]? = some column)
    {assignments : List (String × Literal)} {resolved : List (Nat × Value)}
    (h : List.Forall₂ (t.Resolves now) assignments resolved) :
    Option.Rel (fun l v => column.coerce now l = .ok v) (assignments.lookup column.name)
      (resolved.lookup position) := by
  induction h with
  | nil => exact .none
  | @cons a stored rest others hfirst _ ih =>
    obtain ⟨name, l⟩ := a
    obtain ⟨p, v⟩ := stored
    obtain ⟨found, hfound, rfl, hv, -⟩ := hfirst
    by_cases hp : position = p
    · subst hp
      obtain rfl := Option.some.inj (hcolumn.symm.trans hfound)
      rw [lookup_cons_ite, if_pos rfl, List.lookup_cons_self]
      exact .some hv
    · -- columns of one name are at one place
      have hname : column.name ≠ found.name := by
        intro heq
        have hsame := Table.position?_eq_of_nodup hnames hfound
        rw [← heq, Table.position?_eq_of_nodup hnames hcolumn] at hsame
        exact hp (Option.some.inj hsame)
      rw [lookup_cons_ite, if_neg hname, List.lookup_cons, beq_false_of_ne hp]
      exact ih

theorem lastAssigned?_eq_lookup (resolved : List (Nat × Value)) (position : Nat) :
    lastAssigned? resolved position = resolved.reverse.lookup position := by
  induction resolved using List.reverseRecOn with
  | nil => rfl
  | append_singleton front a ih =>
    obtain ⟨p, v⟩ := a
    rw [lastAssigned?_concat, ih, List.reverse_concat, List.lookup_cons]
    by_cases hp : p = position
    · simp [hp]
    · simp [hp, beq_false_of_ne (Ne.symm hp)]

/-- The value that stays in a column is that of the last literal that is assigned to it. -/
theorem lastAssigned?_resolves {now : String} {t : Table} (hnames : t.columnNames.Nodup)
    {position : Nat} {column : Column} (hcolumn : t.columns[position]? = some column)
    {assignments : List (String × Literal)} {resolved : List (Nat × Value)}
    (h : resolveAssignments now t assignments = .ok resolved) :
    Option.Rel (fun l v => column.coerce now l = .ok v) (lastLiteral? assignments column.name)
      (lastAssigned? resolved position) := by
  rw [lastAssigned?_eq_lookup]
  exact lookup_resolves hnames hcolumn
    (List.forall₂_reverse_iff.2 (resolveAssignments_forall₂ _ h))

/-- Only names of columns are resolved. -/
theorem resolveAssignments_names {now : String} {t : Table} {assignments : List (String × Literal)}
    {resolved : List (Nat × Value)} (h : resolveAssignments now t assignments = .ok resolved) :
    ∀ a ∈ assignments, a.1 ∈ t.columnNames := by
  have hresolves := resolveAssignments_forall₂ _ h
  clear h
  induction hresolves with
  | nil => intro a ha; cases ha
  | @cons first stored rest others hfirst _ ih =>
    obtain ⟨column, hcolumn, hname, -⟩ := hfirst
    intro a ha
    rcases List.mem_cons.1 ha with rfl | ha
    · rw [← hname]
      exact List.mem_map_of_mem (List.mem_of_getElem? hcolumn)
    · exact ih a ha

/-- Literals that no column can take are refused, but not for a key. -/
theorem resolveAssignments_ne_notUnique {now table name value : String} {t : Table}
    (assignments : List (String × Literal)) :
    resolveAssignments now t assignments ≠ .error (.notUnique table name value) := by
  induction assignments with
  | nil => intro h; cases h
  | cons a rest ih =>
    intro h
    simp only [resolveAssignments, bind_eq_error] at h
    rcases h with hposition | ⟨position, -, h⟩
    · unfold Table.require at hposition
      split at hposition <;> cases hposition
    · split at h
      · cases h
      · simp only [bind_eq_error] at h
        rcases h with hv | ⟨v, -, hnull | ⟨⟨⟩, -, hrest | ⟨vs, -, h⟩⟩⟩
        · cases Column.coerce_error hv
        · unfold checkNull at hnull
          split at hnull <;> cases hnull
        · exact ih hrest
        · cases h

/-! ### The rows after assignments -/

/-- A row that was assigned to holds the last literals. -/
theorem assign_overwritten {now : String} {t : Table} (hnames : t.columnNames.Nodup)
    {assignments : List (String × Literal)} {resolved : List (Nat × Value)}
    (h : resolveAssignments now t assignments = .ok resolved) {row : Row}
    (hwidth : row.length = t.columns.length) :
    t.Overwritten now assignments row (assign resolved row) where
  length := assign_length resolved row
  assigned := by
    intro position column l hcolumn hlast
    have hstored := lastAssigned?_resolves hnames hcolumn h
    rw [hlast] at hstored
    cases hassigned : lastAssigned? resolved position with
    | none =>
      rw [hassigned] at hstored
      cases hstored
    | some v =>
      rw [hassigned] at hstored
      cases hstored with
      | some hv =>
        have hlt : position < row.length := by
          rw [hwidth]
          exact (List.getElem?_eq_some_iff.1 hcolumn).1
        refine ⟨v, hv, ?_⟩
        rw [assign_getElem?, hassigned, List.getElem?_eq_getElem hlt]
        rfl
  others := by
    intro position column hcolumn hlast
    have hstored := lastAssigned?_resolves hnames hcolumn h
    rw [hlast] at hstored
    cases hassigned : lastAssigned? resolved position with
    | none =>
      rw [assign_getElem?, hassigned]
      exact Option.map_id'
    | some v =>
      rw [hassigned] at hstored
      cases hstored

/-- The rows that assignments leave are those that the literals describe. -/
theorem assigned_updated {now : String} {r : Relation} (hr : r.Even)
    {assignments : List (String × Literal)} {resolved : List (Nat × Value)}
    (h : resolveAssignments now r.table assignments = .ok resolved) {hits : List Bool}
    (hlen : hits.length = r.rows.length) {meets : Nat → Row → Bool}
    (hhits : ∀ (i : Nat) (row : Row), r.rows[i]? = some row → hits[i]? = some (meets i row)) :
    r.Updated now assignments meets (assigned resolved r.rows hits) where
  length := assigned_length hlen
  met := by
    intro i row hrow hmeets
    have hhit := hhits i row hrow
    rw [hmeets] at hhit
    rcases assigned_getElem? resolved hlen i row hrow with ⟨-, hnew⟩ | ⟨hmiss, -⟩
    · exact ⟨_, hnew, assign_overwritten hr.names h (hr.widths row (List.mem_of_getElem? hrow))⟩
    · rw [hhit] at hmiss
      cases hmiss
  unmet := by
    intro i row hrow hmeets
    have hhit := hhits i row hrow
    rw [hmeets] at hhit
    rcases assigned_getElem? resolved hlen i row hrow with ⟨hhit', -⟩ | ⟨-, hsame⟩
    · rw [hhit] at hhit'
      cases hhit'
    · exact hsame

/-! ### The same update again -/

theorem assign_again (resolved : List (Nat × Value)) (row : Row) :
    assign resolved (assign resolved row) = assign resolved row := by
  apply List.ext_getElem?
  intro position
  rw [assign_getElem?, assign_getElem?, Option.map_map]
  congr 1
  funext old
  cases lastAssigned? resolved position <;> rfl

/-- A row after an update that is about the rows that meet a condition. -/
def reassign (resolved : List (Nat × Value)) (meets : Row → Bool) (row : Row) : Row :=
  if meets row then assign resolved row else row

theorem assigned_map (resolved : List (Nat × Value)) (rows : List Row) (meets : Row → Bool) :
    assigned resolved rows (rows.map meets) = rows.map (reassign resolved meets) := by
  rw [assigned, List.map_zip_eq_zipWith, List.zipWith_map_right, List.zipWith_self]
  rfl

variable {resolved : List (Nat × Value)} {meets : Row → Bool}

theorem reassign_again (row : Row) :
    reassign resolved meets (reassign resolved meets row) = reassign resolved meets row := by
  unfold reassign
  cases hrow : meets row with
  | false => simp [hrow]
  | true => simp [assign_again]

/-- A row that the update is about afterwards is one that it was about before. -/
theorem meets_of_reassign {row : Row} (h : meets (reassign resolved meets row) = true) :
    meets row = true := by
  unfold reassign at h
  cases hrow : meets row with
  | false => simp [hrow] at h
  | true => rfl

/-! ### The search for keys -/

theorem clashes_eq_true {nocase : Bool} {position : Nat} {v : Value} {hits : List Bool}
    {rows : List Row} :
    clashes nocase position v hits rows = true ↔
      ∃ (i j : Nat) (row : Row), j ≠ i ∧ hits[i]? = some true ∧ rows[j]? = some row ∧
        holdsKey nocase position v row = true := by
  unfold clashes
  constructor
  · intro h
    obtain ⟨⟨hit, i⟩, hi, h⟩ := List.any_eq_true.1 h
    obtain ⟨rfl, h⟩ := Bool.and_eq_true_iff.1 h
    obtain ⟨⟨row, j⟩, hj, h⟩ := List.any_eq_true.1 h
    obtain ⟨hne, hkey⟩ := Bool.and_eq_true_iff.1 h
    exact ⟨i, j, row, bne_iff_ne.1 hne, List.mk_mem_zipIdx_iff_getElem?.1 hi,
      List.mk_mem_zipIdx_iff_getElem?.1 hj, hkey⟩
  · rintro ⟨i, j, row, hne, hi, hj, hkey⟩
    refine List.any_eq_true.2 ⟨(true, i), List.mk_mem_zipIdx_iff_getElem?.2 hi, ?_⟩
    refine List.any_eq_true.2 ⟨(row, j), List.mk_mem_zipIdx_iff_getElem?.2 hj, ?_⟩
    exact Bool.and_eq_true_iff.2 ⟨bne_iff_ne.2 hne, hkey⟩

/-- A key is refused for one of the assignments, whichever it is. -/
theorem checkAssignments_eq_error {r : Relation} {hits : List Bool} {rows : List Row} {f : Fault}
    (assignments : List (Nat × Value)) (h : r.checkAssignments hits rows assignments = .error f) :
    ∃ (position : Nat) (v : Value) (column : Column), (position, v) ∈ assignments ∧
      r.table.columns[position]? = some column ∧ column.unique = true ∧ v.isNull = false ∧
      clashes (r.isNocase column.name) position v hits rows = true ∧ f = r.notUnique column v := by
  induction assignments with
  | nil => cases h
  | cons a rest ih =>
    obtain ⟨p, w⟩ := a
    have hrest : r.checkAssignments hits rows rest = .error f →
        ∃ (position : Nat) (v : Value) (column : Column), (position, v) ∈ (p, w) :: rest ∧
          r.table.columns[position]? = some column ∧ column.unique = true ∧ v.isNull = false ∧
          clashes (r.isNocase column.name) position v hits rows = true ∧
          f = r.notUnique column v := by
      intro h
      obtain ⟨position, v, column, hmem, hfound⟩ := ih h
      exact ⟨position, v, column, List.mem_cons_of_mem _ hmem, hfound⟩
    unfold checkAssignments at h
    split at h
    · next column hcolumn =>
      split at h
      · next hrefused =>
        simp only [Bool.and_eq_true, Bool.not_eq_true'] at hrefused
        obtain ⟨⟨hunique, hnull⟩, hclash⟩ := hrefused
        exact ⟨p, w, column, List.mem_cons_self, hcolumn, hunique, hnull, hclash,
          (Except.error.inj h).symm⟩
      · exact hrest h
    · exact hrest h

/-- The search finds nothing for fewer rows if it finds nothing for more. -/
theorem checkAssignments_of_subset {r : Relation} {hits hits' : List Bool} {rows : List Row}
    {assignments : List (Nat × Value)} (h : r.checkAssignments hits rows assignments = .ok ())
    (hsub : ∀ i : Nat, hits'[i]? = some true → hits[i]? = some true) :
    r.checkAssignments hits' rows assignments = .ok () := by
  cases hcheck : r.checkAssignments hits' rows assignments with
  | ok u => rfl
  | error f =>
    obtain ⟨position, v, column, hmem, hcolumn, hunique, hnull, hclash, -⟩ :=
      checkAssignments_eq_error assignments hcheck
    obtain ⟨i, j, row, hne, hi, hj, hkey⟩ := clashes_eq_true.1 hclash
    have hfree := checkAssignments_eq_ok h hmem hcolumn hunique hnull
    rw [clashes_eq_false hfree (hsub i hi) hj hne] at hkey
    cases hkey

/-- The search is made in given rows, not in those of the relation. -/
theorem checkAssignments_rows (r : Relation) (stored : List Row) (hits : List Bool)
    (rows : List Row) (assignments : List (Nat × Value)) :
    checkAssignments { r with rows := stored } hits rows assignments =
      r.checkAssignments hits rows assignments := by
  induction assignments with
  | nil => rfl
  | cons a rest ih =>
    rw [checkAssignments, checkAssignments, ih]
    rfl

/-- An update whose literals were read, whose rows were tested and whose search found nothing. -/
theorem updateWhere_of_checked {now : String} {r : Relation} {assignments : List (String × Literal)}
    {test : RowTest} {hits : List Bool}
    (hresolved : resolveAssignments now r.table assignments = .ok resolved)
    (hhits : testRows test 0 r.rows = .ok hits)
    (hcheck : r.checkAssignments hits (assigned resolved r.rows hits) resolved = .ok ()) :
    r.updateWhere now assignments test =
      .ok ({ r with rows := assigned resolved r.rows hits }, hits.count true) := by
  rw [updateWhere_eq, hresolved, ok_bind, hhits, ok_bind, hcheck]
  rfl

/-- An update asks its test of the rows of the relation only. -/
theorem updateWhere_test {now : String} {r : Relation} {assignments : List (String × Literal)}
    {test : RowTest} (h : ∀ row ∈ r.rows, ∀ i, test i row = .ok (meets row)) :
    r.updateWhere now assignments test =
      r.updateWhere now assignments fun _ row => .ok (meets row) := by
  rw [updateWhere_eq, updateWhere_eq, testRows_eq r.rows h, testRows_eq r.rows fun _ _ _ => rfl]

/-- An update that succeeded succeeds again, at any time at which its literals are read alike, and
gives the same rows. -/
theorem updateWhere_again {now now' : String} {r next : Relation}
    {assignments : List (String × Literal)} {n : Nat}
    (hassignments : resolveAssignments now r.table assignments =
      resolveAssignments now' r.table assignments)
    (h : r.updateWhere now assignments (fun _ row => .ok (meets row)) = .ok (next, n)) :
    next.updateWhere now' assignments (fun _ row => .ok (meets row)) =
      .ok (next, (next.rows.filter meets).length) := by
  obtain ⟨resolved, hits, hresolved, hhits, hcheck, rfl, -⟩ := updateWhere_eq_ok h
  rw [testRows_eq r.rows fun _ _ _ => rfl] at hhits
  obtain rfl := Except.ok.inj hhits
  rw [assigned_map] at hcheck ⊢
  have hsub : ∀ i : Nat, ((r.rows.map (reassign resolved meets)).map meets)[i]? = some true →
      (r.rows.map meets)[i]? = some true := by
    intro i hi
    rw [List.getElem?_map, List.getElem?_map] at hi
    rw [List.getElem?_map]
    cases hrow : r.rows[i]? with
    | none =>
      rw [hrow] at hi
      cases hi
    | some row =>
      rw [hrow] at hi
      exact congrArg some (meets_of_reassign (Option.some.inj hi))
  have hsame : (r.rows.map (reassign resolved meets)).map (reassign resolved meets) =
      r.rows.map (reassign resolved meets) := by
    rw [List.map_map]
    exact List.map_congr_left fun row _ => reassign_again row
  rw [updateWhere_of_checked (hassignments ▸ hresolved) (testRows_eq _ (fun _ _ _ => rfl) 0)
    (by rw [assigned_map, hsame, checkAssignments_rows]
        exact checkAssignments_of_subset hcheck hsub)]
  rw [assigned_map, hsame, count_map]

/-! ### What a refusal means -/

/-- A key that is looked for is a key in the sense of the column. -/
theorem sameKey_of_holdsKey {r : Relation} {column : Column} {position : Nat} {v : Value}
    {row : Row} (hnull : v.isNull = false)
    (h : holdsKey (r.isNocase column.name) position v row = true) :
    ∃ w, row[position]? = some w ∧ r.SameKey column v w := by
  obtain ⟨w, hw, hkey⟩ := (Option.any_eq_true _ _).1 h
  simp only [Value.sameKey, Bool.and_eq_true, Bool.not_eq_true'] at hkey
  obtain ⟨hw', hkey⟩ := hkey
  refine ⟨w, hw, Value.isNull_eq_false.1 hnull, Value.isNull_eq_false.1 hw', ?_⟩
  cases hlow : r.isNocase column.name with
  | false =>
    rw [hlow] at hkey
    exact Or.inl (beq_iff_eq.1 hkey).symm
  | true =>
    rw [hlow] at hkey
    exact Or.inr ⟨isNocase_iff.1 hlow, (beq_iff_eq.1 hkey).symm⟩

/-- A test that never fails is asked of every row. -/
theorem testRows_mapIdx (meets : Nat → Row → Bool) (rows : List Row) (first : Nat) :
    testRows (fun i row => .ok (meets i row)) first rows =
      .ok (rows.mapIdx fun i row => meets (first + i) row) := by
  induction rows generalizing first with
  | nil => rfl
  | cons row rest ih =>
    have hnext : (fun i row => meets (first + 1 + i) row) =
        fun i row => meets (first + (i + 1)) row := by
      funext i row
      rw [Nat.add_assoc, Nat.add_comm 1 i]
    rw [testRows, ok_bind, ih, ok_bind, List.mapIdx_cons, hnext]
    rfl

/-- An update whose test never fails is refused for a key only by the search. -/
theorem updateWhere_notUnique {now table name value : String} {r : Relation}
    {assignments : List (String × Literal)} {meets : Nat → Row → Bool}
    (h : r.updateWhere now assignments (fun i row => .ok (meets i row)) =
      .error (.notUnique table name value)) :
    ∃ resolved, resolveAssignments now r.table assignments = .ok resolved ∧
      let hits := r.rows.mapIdx meets
      r.checkAssignments hits (assigned resolved r.rows hits) resolved =
        .error (.notUnique table name value) := by
  have hhits := testRows_mapIdx meets r.rows 0
  simp only [Nat.zero_add] at hhits
  simp only [updateWhere_eq, hhits, ok_bind, bind_eq_error] at h
  rcases h with hresolved | ⟨resolved, hresolved, hcheck | ⟨u, -, h⟩⟩
  · exact absurd hresolved (resolveAssignments_ne_notUnique _)
  · exact ⟨resolved, hresolved, hcheck⟩
  · cases h

end Relation

namespace Update

variable {c : Catalog} {table : String} {assignments : List (String × Literal)}
  {conditions : List Condition} {times : Times} {r : Relation} {ps : List Predicate}

/-- An UPDATE of a table that was found is the update of the rows that meet the conditions. -/
theorem execute_of_finds (hc : c.Reachable) (h : c.Finds (times 0) table conditions r ps) :
    (Statement.update ⟨table, assignments, conditions⟩).execute times c = .ofExcept c (do
      let (next, n) ← r.updateWhere (times 0) assignments
        fun _ row => .ok (r.table.meets (times 0) conditions row)
      return (c.set table next, [.result 0 n])) := by
  have htest : r.updateWhere (times 0) assignments
        (fun _ row => Predicate.all (.ofRow r.table row) ps) =
      r.updateWhere (times 0) assignments
        fun _ row => .ok (r.table.meets (times 0) conditions row) :=
    Relation.updateWhere_test fun row hrow _ => h.asks [row] _ (h.even.stands hrow)
  rw [Statement.execute_update, Update.execute_eq hc, h.lookUp, ok_bind]
  dsimp only
  rw [htest]

/-- An UPDATE that succeeds found its table and updated it. -/
theorem of_fault_none (hc : c.Reachable)
    (hok : ((Statement.update ⟨table, assignments, conditions⟩).execute times c).fault = none) :
    ∃ r ps next n, c.Finds (times 0) table conditions r ps ∧
      r.updateWhere (times 0) assignments
        (fun _ row => .ok (r.table.meets (times 0) conditions row)) = .ok (next, n) ∧
      (Statement.update ⟨table, assignments, conditions⟩).execute times c =
        ⟨c.set table next, [.result 0 n], none⟩ := by
  cases hlookUp : c.lookUp (times 0) table conditions with
  | error f =>
    obtain ⟨-, -, hfail⟩ := hc.fail_together hlookUp
    rw [hfail] at hok
    cases hok
  | ok found =>
    obtain ⟨r, ps⟩ := found
    have hexecute : (Statement.update ⟨table, assignments, conditions⟩).execute times c = _ :=
      execute_of_finds hc (hc.finds hlookUp)
    cases hupdate : r.updateWhere (times 0) assignments
        fun _ row => .ok (r.table.meets (times 0) conditions row) with
    | error f =>
      rw [hexecute, hupdate] at hok
      cases hok
    | ok p =>
      rw [hupdate] at hexecute
      exact ⟨r, ps, p.1, p.2, hc.finds hlookUp, hupdate, hexecute⟩

end Update

/-! ## Top theorems -/

/-- An UPDATE that does not read the time and succeeds leaves as many rows as there were, in the
same order: those that met its conditions before, which it counts, with the last literal in every
column that is assigned to, and the others as they were.  The same UPDATE again, at whatever time,
succeeds and changes nothing. -/
theorem Catalog.Reachable.update_settles {c : Catalog} (h : c.Reachable) {s : Update}
    (htimeless : (Statement.update s).LiteralsTimeless) {times : Times}
    (hok : ((Statement.update s).execute times c).fault = none) :
    ∃ r rows meets, c.get? s.table = some r ∧
      (∀ now row, meets row = s.conditions.all (·.meets now [r.table.source] [row])) ∧
      (∀ a ∈ s.assignments, a.1 ∈ r.table.columnNames) ∧
      (∀ now, r.Updated now s.assignments (fun _ => meets) rows) ∧
      let next := c.set s.table { r with rows := rows }
      (Statement.update s).execute times c =
        ⟨next, [.result 0 (r.rows.filter meets).length], none⟩ ∧
      ∀ times', (Statement.update s).execute times' next =
        ⟨next, [.result 0 (rows.filter meets).length], none⟩ := by
  obtain ⟨table, assignments, conditions⟩ := s
  obtain ⟨hliterals, hconditions⟩ := htimeless
  obtain ⟨r, ps, changed, n, hfinds, hupdate, hone⟩ := Update.of_fault_none h hok
  have hmeets : ∀ now, r.table.meets now conditions = r.table.meets (times 0) conditions :=
    fun now => Condition.Timeless.table_meets_eq hconditions now (times 0) r.table
  obtain ⟨resolved, hits, hresolved, hhits, -, hchanged, hn⟩ := Relation.updateWhere_eq_ok hupdate
  rw [Relation.testRows_eq r.rows fun _ _ _ => rfl] at hhits
  obtain rfl := Except.ok.inj hhits
  rw [Relation.count_map] at hn
  have hrelation : { r with rows := changed.rows } = changed := by rw [hchanged]
  refine ⟨r, changed.rows, r.table.meets (times 0) conditions, hfinds.get?,
    fun now row => congrFun (hmeets now).symm row, Relation.resolveAssignments_names hresolved,
    fun now => ?_, ?_⟩
  · rw [Relation.resolveAssignments_timeless (times 0) now r.table hliterals] at hresolved
    rw [hchanged]
    refine Relation.assigned_updated hfinds.even hresolved (List.length_map _) fun i row hrow => ?_
    rw [List.getElem?_map, hrow]
    rfl
  · rw [hrelation]
    refine ⟨by rw [hone, hn], fun times' => ?_⟩
    -- what the first leaves is reachable too, and the conditions find the same there
    have hnext : (c.set table changed).Reachable := by
      have hstep := Catalog.Reachable.step times (.update ⟨table, assignments, conditions⟩) h
      rwa [hone] at hstep
    have hlookUp := Catalog.lookUp_set ((Condition.Timeless.lookUp_eq hconditions (times' 0)
      (times 0) c table).trans hfinds.lookUp) changed.rows
    rw [hrelation] at hlookUp
    have htable : changed.table = r.table := by rw [hchanged]
    rw [Update.execute_of_finds hnext (hnext.finds hlookUp), htable, hmeets,
      Relation.updateWhere_again
        (Relation.resolveAssignments_timeless (times 0) (times' 0) r.table hliterals) hupdate]
    have hset : (c.set table changed).set table changed = c.set table changed :=
      Catalog.set_get (by rw [Catalog.get?_set, if_pos rfl])
    show (⟨(c.set table changed).set table changed, _, none⟩ : Outcome) = _
    rw [hset]

/-- The second assignment to a column counts, the row that it is made to no longer meets the
condition, and the key that it leaves is no obstacle the second time. -/
theorem update_settles_of_repeated :
    let c := Catalog.after
      [(fun _ => "", .createTable ⟨"t", false, [⟨"a", "int", false, [.unique]⟩,
          ⟨"b", "text", false, []⟩], []⟩),
        (fun _ => "", .insert ⟨"t", ["a", "b"], [[⟨.number, "1"⟩, ⟨.string, "x"⟩],
          [⟨.number, "2"⟩, ⟨.string, "y"⟩]], none⟩)]
    let s : Update := ⟨"t", [("a", ⟨.number, "5"⟩), ("b", ⟨.null, "null"⟩), ("a", ⟨.number, "7"⟩)],
      [.compare ⟨none, "a"⟩ .eq ⟨.number, "2"⟩]⟩
    let next := ((Statement.update s).execute (fun _ => "1") c).catalog
    (Statement.update s).LiteralsTimeless ∧
      ((Statement.update s).execute (fun _ => "1") c).frames = [.result 0 1] ∧
      ((Statement.update s).execute (fun _ => "1") c).fault = none ∧
      (next.get? "t").map (·.rows) = some [[.integer 1, .text "x"], [.integer 7, .null]] ∧
      (Statement.update s).execute (fun _ => "2") next = ⟨next, [.result 0 0], none⟩ := by
  intro c s next
  have htimeless : (Statement.update s).LiteralsTimeless := by
    refine ⟨by decide, fun condition hcondition => ?_⟩
    obtain rfl := List.mem_singleton.1 hcondition
    rfl
  have hok : ((Statement.update s).execute (fun _ => "1") c).fault = none := by decide +kernel
  have hrows : (next.get? "t").map (·.rows) =
      some [[.integer 1, .text "x"], [.integer 7, .null]] := by decide +kernel
  have hframes : ((Statement.update s).execute (fun _ => "2") next).frames = [.result 0 0] := by
    decide +kernel
  obtain ⟨r, rows, meets, -, -, -, -, hone, hagain⟩ :=
    (Catalog.Reachable.after _ : c.Reachable).update_settles htimeless hok
  have hnext : next = c.set "t" { r with rows := rows } := congrArg Outcome.catalog hone
  refine ⟨htimeless, by decide +kernel, hok, hrows, ?_⟩
  rw [hnext] at hframes ⊢
  rw [hagain] at hframes ⊢
  dsimp only at hframes
  rw [hframes]

/-- An update that is refused for a key is refused for a literal that it assigns to a unique column
of a row, while another row would hold the key too.  If that literal, or another of the same value,
is the last to its column, the rows would indeed hold the key twice; the search does not ask whether
it is. -/
theorem Catalog.Reachable.refused_update {c : Catalog} (h : c.Reachable) {name : String}
    {r : Relation} (hr : c.get? name = some r) {now : String}
    {assignments : List (String × Literal)} {meets : Nat → Row → Bool}
    {tableName columnName text : String}
    (hrefused : r.updateWhere now assignments (fun i row => .ok (meets i row)) =
      .error (.notUnique tableName columnName text)) :
    ∃ (rows : List Row) (position : Nat) (column : Column) (l : Literal) (v : Value),
      r.Updated now assignments meets rows ∧
      r.table.columns[position]? = some column ∧ column.unique = true ∧
      (column.name, l) ∈ assignments ∧ column.coerce now l = .ok v ∧
      (tableName = r.table.name ∧ columnName = column.name ∧ text = v.canonical) ∧
      (∃ (i j : Nat) (row other : Row) (w : Value), i ≠ j ∧ r.rows[i]? = some row ∧
        meets i row = true ∧ rows[j]? = some other ∧ other[position]? = some w ∧
        r.SameKey column v w) ∧
      ∀ last, lastLiteral? assignments column.name = some last → column.coerce now last = .ok v →
        r.HoldsTwice position column rows := by
  have heven := h.even name r hr
  obtain ⟨resolved, hresolved, hcheck⟩ := Relation.updateWhere_notUnique hrefused
  dsimp only at hcheck
  obtain ⟨position, v, column, hmem, hcolumn, hunique, hnull, hclash, hfault⟩ :=
    Relation.checkAssignments_eq_error resolved hcheck
  obtain ⟨column', l, hcolumn', hl, hv, -⟩ :=
    Relation.resolveAssignments_eq_ok _ hresolved position v hmem
  obtain rfl := Option.some.inj (hcolumn.symm.trans hcolumn')
  obtain ⟨i, j, other, hne, hhit, hother, hkey⟩ := Relation.clashes_eq_true.1 hclash
  obtain ⟨w, hw, hsame⟩ := Relation.sameKey_of_holdsKey hnull hkey
  obtain ⟨row, hrow, hmeets⟩ : ∃ row, r.rows[i]? = some row ∧ meets i row = true := by
    rw [List.getElem?_mapIdx] at hhit
    exact Option.map_eq_some_iff.1 hhit
  have hupdated : r.Updated now assignments meets
      (Relation.assigned resolved r.rows (r.rows.mapIdx meets)) := by
    refine Relation.assigned_updated heven hresolved List.length_mapIdx fun k old hold => ?_
    rw [List.getElem?_mapIdx, hold]
    rfl
  refine ⟨_, position, column, l, v, hupdated, hcolumn, hunique, hl, hv,
    Fault.notUnique.inj hfault, ⟨i, j, row, other, w, hne.symm, hrow, hmeets, hother, hw, hsame⟩,
    fun last hlast hv' => ?_⟩
  -- the row that was hit ends with the value of the last literal
  obtain ⟨new, hnew, hoverwritten⟩ := hupdated.met i row hrow hmeets
  obtain ⟨v', hv'', hstored⟩ := hoverwritten.assigned position column last hcolumn hlast
  obtain rfl := Except.ok.inj (hv'.symm.trans hv'')
  exact ⟨i, j, new, other, v, w, hne.symm, hnew, hother, hstored, hw, hsame⟩

/-- The second of two rows is to take the key of the first. -/
theorem refused_update_of_sole :
    let r : Relation := ⟨⟨"t", [⟨"a", "int", false, true, false, none⟩]⟩,
      [[.integer 1], [.integer 2]], []⟩
    let meets : Nat → Row → Bool := fun _ row => row == [.integer 2]
    r.updateWhere "" [("a", ⟨.number, "1"⟩)] (fun i row => .ok (meets i row)) =
        .error (.notUnique "t" "a" "1") ∧
      ∃ rows position column, r.Updated "" [("a", ⟨.number, "1"⟩)] meets rows ∧
        r.HoldsTwice position column rows := by
  intro r meets
  have hr : (Catalog.after
      [(fun _ => "", .createTable ⟨"t", false, [⟨"a", "int", false, [.unique]⟩], []⟩),
        (fun _ => "", .insert ⟨"t", ["a"], [[⟨.number, "1"⟩], [⟨.number, "2"⟩]], none⟩)]).get? "t" =
      some r := by decide +kernel
  have hrefused : r.updateWhere "" [("a", ⟨.number, "1"⟩)] (fun i row => .ok (meets i row)) =
      .error (.notUnique "t" "a" "1") := by decide +kernel
  obtain ⟨rows, position, column, l, v, hupdated, -, -, hl, hv, -, -, htwice⟩ :=
    (Catalog.Reachable.after _).refused_update hr hrefused
  obtain ⟨hname, rfl⟩ := Prod.mk.inj (List.mem_singleton.1 hl)
  have hlast : lastLiteral? [("a", ⟨.number, "1"⟩)] column.name = some ⟨.number, "1"⟩ := by
    rw [hname]
    rfl
  exact ⟨hrefused, rows, position, column, hupdated, htwice _ hlast hv⟩

/-- A refusal for a key need not be for a key that would be held twice: the key is looked for also
where a later assignment to its column overrides it. -/
theorem refused_update_of_overridden :
    ¬ ∀ (c : Catalog) (name : String) (r : Relation) (now : String)
      (assignments : List (String × Literal)) (meets : Nat → Row → Bool)
      (tableName columnName text : String), c.Reachable → c.get? name = some r →
      r.updateWhere now assignments (fun i row => .ok (meets i row)) =
        .error (.notUnique tableName columnName text) →
      ∃ (rows : List Row) (position : Nat) (column : Column),
        r.Updated now assignments meets rows ∧ r.table.columns[position]? = some column ∧
          column.unique = true ∧ r.HoldsTwice position column rows := by
  intro hreal
  let r : Relation := ⟨⟨"t", [⟨"a", "int", false, true, false, none⟩]⟩,
    [[.integer 1], [.integer 2]], []⟩
  have hr : (Catalog.after
      [(fun _ => "", .createTable ⟨"t", false, [⟨"a", "int", false, [.unique]⟩], []⟩),
        (fun _ => "", .insert ⟨"t", ["a"], [[⟨.number, "1"⟩], [⟨.number, "2"⟩]], none⟩)]).get? "t" =
      some r := by decide +kernel
  obtain ⟨rows, position, column, hupdated, hcolumn, -, htwice⟩ := hreal _ "t" r ""
    [("a", ⟨.number, "1"⟩), ("a", ⟨.number, "3"⟩)] (fun _ row => row == [.integer 2]) "t" "a" "1"
    (.after _) hr (by decide +kernel)
  obtain rfl : position = 0 := by
    have hlt := (List.getElem?_eq_some_iff.1 hcolumn).1
    exact Nat.lt_one_iff.1 hlt
  obtain rfl := Option.some.inj hcolumn
  -- the rows would hold 1 and 3
  have hfirst : rows[0]? = some [.integer 1] := hupdated.unmet 0 _ rfl (by decide)
  obtain ⟨new, hsecond, hnew⟩ := hupdated.met 1 _ rfl (by decide)
  obtain ⟨three, hthree, hstored⟩ := hnew.assigned 0 _ ⟨.number, "3"⟩ rfl rfl
  obtain rfl : Value.integer 3 = three := Except.ok.inj hthree
  have hvalue : ∀ (k : Nat) (row : Row) (v : Value), rows[k]? = some row → row[0]? = some v →
      (k = 0 ∧ v = .integer 1) ∨ (k = 1 ∧ v = .integer 3) := by
    intro k row v hrow hv
    match k with
    | 0 =>
      obtain rfl := Option.some.inj (hfirst.symm.trans hrow)
      exact Or.inl ⟨rfl, (Option.some.inj hv).symm⟩
    | 1 =>
      obtain rfl := Option.some.inj (hsecond.symm.trans hrow)
      exact Or.inr ⟨rfl, Option.some.inj (hv.symm.trans hstored)⟩
    | k + 2 =>
      have hlt := (List.getElem?_eq_some_iff.1 hrow).1
      rw [hupdated.length] at hlt
      exact absurd hlt (Nat.not_lt.2 (Nat.le_add_left 2 k))
  obtain ⟨i, j, a, b, v, w, hne, ha, hb, hv, hw, -, -, hsame | ⟨⟨index, hindex, -⟩, -⟩⟩ := htwice
  · rcases hvalue i a v ha hv with ⟨rfl, rfl⟩ | ⟨rfl, rfl⟩
    · rcases hvalue j b w hb hw with ⟨rfl, -⟩ | ⟨rfl, rfl⟩
      · exact hne rfl
      · exact absurd hsame (by decide)
    · rcases hvalue j b w hb hw with ⟨rfl, rfl⟩ | ⟨rfl, -⟩
      · exact absurd hsame (by decide)
      · exact hne rfl
  · cases hindex

end Tabula
