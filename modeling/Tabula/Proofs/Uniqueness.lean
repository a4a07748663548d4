import Tabula.Proofs.Operations
import Tabula.Proofs.Reach

/-!
# Unique columns hold no key twice

`Apart` says that two rows do not hold the same key in a column.  `Relation.Keyed` is the invariant:
the rows of a relation are apart in every unique column, under the comparison that its indexes ask
for.  Every operation keeps it.

* `Relation.Keyed.change`: the step.
* `Catalog.Reachable.keys_differ`: the run, in terms of canonical strings.
-/

namespace Tabula

/-- Two rows do not hold the same key in a column: a value of the first that is not null has not the
key of the second. -/
def Apart (nocase : Bool) (position : Nat) (a b : Row) : Prop :=
  ∀ v, a[position]? = some v → v.isNull = false → Relation.holdsKey nocase position v b = false

/-- Columns have different names, only unique columns have keys that are compared in lower case, and
the rows are apart in every unique column. -/
structure Relation.Keyed (r : Relation) : Prop where
  names : r.table.columnNames.Nodup
  nocase_unique : ∀ column ∈ r.table.columns, r.isNocase column.name = true → column.unique = true
  apart : ∀ (position : Nat) (column : Column), r.table.columns[position]? = some column →
    column.unique = true → r.rows.Pairwise (Apart (r.isNocase column.name) position)

/-! ## Rows that are apart -/

theorem holdsKey_eq_false {nocase : Bool} {position : Nat} {v : Value} {row : Row} :
    Relation.holdsKey nocase position v row = false ↔
      ∀ w, row[position]? = some w → w.sameKey nocase v = false := by
  unfold Relation.holdsKey
  cases row[position]? with
  | none => simp
  | some w => simp

theorem Value.isNull_eq_false {v : Value} : v.isNull = false ↔ v ≠ .null := by
  cases v <;> simp [Value.isNull]

theorem Value.sameKey_comm {nocase : Bool} {v w : Value} (hv : v.isNull = false)
    (hw : w.isNull = false) : v.sameKey nocase w = w.sameKey nocase v := by
  unfold Value.sameKey
  cases nocase with
  | true => simp [hv, hw, Bool.beq_comm]
  | false => simp [hv, hw, Bool.beq_comm]

theorem Apart.symm {nocase : Bool} {position : Nat} {a b : Row} (h : Apart nocase position a b) :
    Apart nocase position b a := by
  intro w hw hnull
  rw [holdsKey_eq_false]
  intro v hv
  cases hv' : v.isNull with
  | true => simp [Value.sameKey, hv']
  | false =>
    rw [Value.sameKey_comm hv' hnull]
    exact holdsKey_eq_false.1 (h v hv hv') w hw

/-- Rows are apart in a column by what they hold there alone. -/
theorem Apart.congr {nocase : Bool} {position : Nat} {a b a' b' : Row}
    (ha : a'[position]? = a[position]?) (hb : b'[position]? = b[position]?)
    (h : Apart nocase position a b) : Apart nocase position a' b' := by
  intro v hv hnull
  rw [holdsKey_eq_false]
  intro w hw
  rw [ha] at hv
  rw [hb] at hw
  exact holdsKey_eq_false.1 (h v hv hnull) w hw

/-- Rows that are apart in order are apart whichever comes first. -/
theorem Apart.of_pairwise {nocase : Bool} {position : Nat} {rows : List Row}
    (h : rows.Pairwise (Apart nocase position)) {i j : Nat} {a b : Row} (hne : i ≠ j)
    (ha : rows[i]? = some a) (hb : rows[j]? = some b) : Apart nocase position a b := by
  obtain ⟨hi, rfl⟩ := List.getElem?_eq_some_iff.1 ha
  obtain ⟨hj, rfl⟩ := List.getElem?_eq_some_iff.1 hb
  rcases Nat.lt_or_gt_of_ne hne with hlt | hgt
  · exact List.pairwise_iff_getElem.1 h i j hi hj hlt
  · exact (List.pairwise_iff_getElem.1 h j i hj hi hgt).symm

namespace Relation

/-! ## Inserting -/

theorem checkKey_eq_ok {r : Relation} {position : Nat} {column : Column} {v : Value}
    (h : r.checkKey position column v = .ok ()) (hunique : column.unique = true)
    (hnull : v.isNull = false) (row : Row) (hrow : row ∈ r.rows) :
    holdsKey (r.isNocase column.name) position v row = false := by
  unfold checkKey at h
  split at h
  · cases h
  · next hnot =>
    simp only [hunique, hnull, Bool.not_false, Bool.true_and, List.any_eq_true, not_exists,
      not_and, Bool.not_eq_true] at hnot
    exact hnot row hrow

theorem Keyed.insert {now : String} {r next : Relation} {columns : List String}
    {values : List Literal} {returning : Option String} {inserted : Inserted} (hr : r.Keyed)
    (h : r.insert now columns values returning = .ok (next, inserted)) : next.Keyed := by
  obtain ⟨row, hrow, rfl⟩ := insert_eq_ok h
  obtain ⟨hlen, hchecked⟩ := newRow_eq_ok _ hrow
  refine ⟨hr.names, hr.nocase_unique, fun position column hcolumn hunique => ?_⟩
  refine List.pairwise_append.2 ⟨hr.apart position column hcolumn hunique,
    List.pairwise_singleton _ _, fun old hold new hnew => ?_⟩
  rw [List.mem_singleton.1 hnew]
  -- the check compares the new value with the stored ones
  refine Apart.symm fun v hv hnull => ?_
  obtain ⟨-, -, hkey⟩ := hchecked position column v hcolumn hv
  rw [Nat.zero_add] at hkey
  exact checkKey_eq_ok hkey hunique hnull old hold

/-! ## Deleting -/

theorem Keyed.sublist {r : Relation} {rows : List Row} (hr : r.Keyed) (h : rows.Sublist r.rows) :
    Keyed { r with rows := rows } :=
  ⟨hr.names, hr.nocase_unique, fun position column hcolumn hunique =>
    (hr.apart position column hcolumn hunique).sublist h⟩

/-! ## Updating -/

theorem clashes_eq_false {nocase : Bool} {position : Nat} {v : Value} {hits : List Bool}
    {rows : List Row} (h : clashes nocase position v hits rows = false) {i j : Nat} {row : Row}
    (hi : hits[i]? = some true) (hj : rows[j]? = some row) (hne : j ≠ i) :
    holdsKey nocase position v row = false := by
  unfold clashes at h
  rw [List.any_eq_false] at h
  have hhit := h (true, i) (List.mk_mem_zipIdx_iff_getElem?.2 hi)
  simp only [Bool.true_and, Bool.not_eq_true, List.any_eq_false] at hhit
  have hrow := hhit (row, j) (List.mk_mem_zipIdx_iff_getElem?.2 hj)
  simpa [hne] using hrow

theorem checkAssignments_eq_ok {r : Relation} {hits : List Bool} {rows : List Row}
    {assignments : List (Nat × Value)} (h : r.checkAssignments hits rows assignments = .ok ())
    {position : Nat} {v : Value} (hmem : (position, v) ∈ assignments) {column : Column}
    (hcolumn : r.table.columns[position]? = some column) (hunique : column.unique = true)
    (hnull : v.isNull = false) :
    clashes (r.isNocase column.name) position v hits rows = false := by
  induction assignments with
  | nil => cases hmem
  | cons a rest ih =>
    obtain ⟨p, w⟩ := a
    rcases List.mem_cons.1 hmem with heq | hrest
    · obtain ⟨rfl, rfl⟩ := Prod.mk.inj heq
      rw [checkAssignments, hcolumn] at h
      dsimp only at h
      split at h
      · cases h
      · next hnot => simpa [hunique, hnull] using hnot
    · apply ih _ hrest
      unfold checkAssignments at h
      split at h
      · split at h
        · cases h
        · exact h
      · exact h

/-- After an update a row that was hit is apart from every other row in a unique column that was
assigned to. -/
theorem assigned_apart {r : Relation} {resolved : List (Nat × Value)} {hits : List Bool}
    (hcheck : r.checkAssignments hits (assigned resolved r.rows hits) resolved = .ok ())
    {position : Nat} {column : Column} (hcolumn : r.table.columns[position]? = some column)
    (hunique : column.unique = true) {last : Value}
    (hlast : lastAssigned? resolved position = some last) {i j : Nat} (hne : j ≠ i) {a b : Row}
    (hi : hits[i]? = some true) (hb : (assigned resolved r.rows hits)[j]? = some b) :
    Apart (r.isNocase column.name) position (assign resolved a) b := by
  intro v hv hnull
  rw [assign_getElem?, hlast] at hv
  obtain ⟨old, -, rfl⟩ := Option.map_eq_some_iff.1 hv
  have hclash := checkAssignments_eq_ok hcheck (lastAssigned?_mem hlast) hcolumn hunique hnull
  exact clashes_eq_false hclash hi hb hne

theorem Keyed.updateWhere {now : String} {r next : Relation}
    {assignments : List (String × Literal)} {test : RowTest} {n : Nat} (hr : r.Keyed)
    (h : r.updateWhere now assignments test = .ok (next, n)) : next.Keyed := by
  obtain ⟨resolved, hits, -, hhits, hcheck, rfl, -⟩ := updateWhere_eq_ok h
  have hlen := testRows_length _ hhits
  refine ⟨hr.names, hr.nocase_unique, fun position column hcolumn hunique => ?_⟩
  have hold := List.pairwise_iff_getElem.1 (hr.apart position column hcolumn hunique)
  refine List.pairwise_iff_getElem.2 fun i j hi hj hij => ?_
  dsimp only at hi hj
  rw [assigned_length hlen] at hi hj
  have hold := hold i j hi hj hij
  have hstep (k : Nat) (hk : k < r.rows.length) :=
    assigned_getElem? resolved hlen k _ (List.getElem?_eq_getElem hk)
  cases hlast : lastAssigned? resolved position with
  | none =>
    -- nothing was assigned to the column: every row holds there what it held
    have hsame (k : Nat) (hk : k < r.rows.length)
        (hk' : k < (assigned resolved r.rows hits).length) :
        (assigned resolved r.rows hits)[k][position]? = r.rows[k][position]? := by
      rcases hstep k hk with ⟨-, hnext⟩ | ⟨-, hnext⟩
      · rw [(List.getElem?_eq_some_iff.1 hnext).2, assign_getElem?, hlast]
        simp
      · rw [(List.getElem?_eq_some_iff.1 hnext).2]
    exact hold.congr (hsame i hi _) (hsame j hj _)
  | some last =>
    rcases hstep i hi with ⟨hhit, hnext⟩ | ⟨hmiss, hnext⟩
    · rw [(List.getElem?_eq_some_iff.1 hnext).2]
      exact assigned_apart hcheck hcolumn hunique hlast (Nat.ne_of_gt hij) hhit
        (List.getElem?_eq_getElem _)
    · rcases hstep j hj with ⟨hhit', hnext'⟩ | ⟨hmiss', hnext'⟩
      · rw [(List.getElem?_eq_some_iff.1 hnext').2]
        exact (assigned_apart hcheck hcolumn hunique hlast (Nat.ne_of_lt hij) hhit'
          (List.getElem?_eq_getElem _)).symm
      · rw [(List.getElem?_eq_some_iff.1 hnext).2, (List.getElem?_eq_some_iff.1 hnext').2]
        exact hold

/-! ## Indexes -/

theorem firstDuplicate?_eq_none {nocase : Bool} {position : Nat} (rows : List Row) :
    ∀ {earlier : List Row}, firstDuplicate? nocase position earlier rows = none →
      rows.Pairwise (Apart nocase position) ∧
        ∀ row ∈ rows, ∀ before ∈ earlier, Apart nocase position before row := by
  induction rows with
  | nil => intro earlier _; exact ⟨.nil, fun row hrow => by cases hrow⟩
  | cons row rest ih =>
    intro earlier h
    -- the row has no key of an earlier one, and is itself an earlier one for the rest
    have hsplit : firstDuplicate? nocase position (row :: earlier) rest = none ∧
        ∀ before ∈ earlier, Apart nocase position row before := by
      unfold firstDuplicate? at h
      split at h
      · next v hv =>
        split at h
        · cases h
        · next hnot =>
          refine ⟨h, fun before hbefore w hw hnull => ?_⟩
          obtain rfl := Option.some.inj (hv.symm.trans hw)
          simp only [hnull, Bool.not_false, Bool.true_and, List.any_eq_true, not_exists, not_and,
            Bool.not_eq_true] at hnot
          exact hnot before hbefore
      · next hnone =>
        exact ⟨h, fun before _ w hw => by rw [hnone] at hw; cases hw⟩
    obtain ⟨hrest, hapart⟩ := hsplit
    obtain ⟨hpairs, hearlier⟩ := ih hrest
    refine ⟨.cons (fun later hlater => ?_) hpairs, fun x hx before hbefore => ?_⟩
    · exact hearlier later hlater row List.mem_cons_self
    · rcases List.mem_cons.1 hx with rfl | hx
      · exact (hapart before hbefore).symm
      · exact hearlier x hx before (List.mem_cons_of_mem _ hbefore)

theorem soleUnique?_eq_some {index : Index} {c : IndexColumn} :
    index.soleUnique? = some c ↔ index.unique = true ∧ index.columns = [c] := by
  unfold Index.soleUnique?
  split
  · next only hunique hcolumns => simp [hunique, hcolumns]
  · next hother =>
    refine ⟨fun h => (by cases h), fun ⟨hunique, hcolumns⟩ => ?_⟩
    exact (hother c hunique hcolumns).elim

/-- Keys are compared in lower case if a unique index of the column alone asks for it. -/
theorem isNocase_iff {r : Relation} {name : String} :
    r.isNocase name = true ↔
      ∃ index ∈ r.indexes, index.unique = true ∧ index.columns = [⟨name, true⟩] := by
  unfold isNocase
  rw [List.any_eq_true]
  refine exists_congr fun index => and_congr_right fun _ => ?_
  rw [← soleUnique?_eq_some]
  cases index.soleUnique? with
  | none => simp
  | some c =>
    obtain ⟨other, nocase⟩ := c
    simp

theorem isNocase_append_of_none {r : Relation} {index : Index} (h : index.soleUnique? = none)
    (name : String) :
    isNocase { r with indexes := r.indexes ++ [index] } name = r.isNocase name := by
  simp [isNocase, h]

theorem isNocase_append_of_some {r : Relation} {t : Table} {index : Index} {c : IndexColumn}
    (h : index.soleUnique? = some c) (name : String) :
    isNocase { r with table := t, indexes := r.indexes ++ [index] } name =
      (r.isNocase name || (c.name == name && c.nocase)) := by
  simp [isNocase, h]

/-- Columns of one name are one column. -/
theorem Keyed.position_unique {r : Relation} (hr : r.Keyed) {i j : Nat} {a b : Column}
    (ha : r.table.columns[i]? = some a) (hb : r.table.columns[j]? = some b)
    (hname : a.name = b.name) : i = j := by
  have hi : r.table.columnNames[i]? = some a.name := by
    simp [Table.columnNames, ha]
  have hj : r.table.columnNames[j]? = some a.name := by
    simp [Table.columnNames, hb, hname]
  exact (List.getElem?_inj (List.getElem?_eq_some_iff.1 hi).1 hr.names).1 (hi.trans hj.symm)

/-- Marking a column alters that column, and the others have other names. -/
theorem Keyed.setUnique_columns {r : Relation} (hr : r.Keyed) {position : Nat} {c : Column}
    (hc : r.table.columns[position]? = some c) {i : Nat} {column : Column}
    (h : (setUnique r.table position).columns[i]? = some column) :
    (i = position ∧ column = { c with unique := true }) ∨
      (r.table.columns[i]? = some column ∧ column.name ≠ c.name) := by
  simp only [setUnique, List.getElem?_modify] at h
  by_cases hi : position = i
  · subst hi
    rw [hc] at h
    simp only [if_true, Option.map_eq_map, Option.map_some, Option.some.injEq] at h
    exact Or.inl ⟨rfl, h.symm⟩
  · simp only [hi, if_false, id_map'] at h
    refine Or.inr ⟨h, fun heq => hi ?_⟩
    exact hr.position_unique hc h heq.symm

theorem Keyed.createIndex {r next : Relation} {index : Index} (hr : r.Keyed)
    (h : r.createIndex index = .ok next) : next.Keyed := by
  obtain ⟨-, -, ⟨hsole, rfl⟩ | ⟨indexed, position, hsole, hposition, hdup, rfl⟩⟩ :=
    createIndex_eq_ok h
  · have hnocase := isNocase_append_of_none (r := r) hsole
    refine ⟨hr.names, fun column hcolumn hlow => ?_, fun i column hcolumn hunique => ?_⟩
    · exact hr.nocase_unique column hcolumn (hnocase column.name ▸ hlow)
    · rw [hnocase]
      exact hr.apart i column hcolumn hunique
  · obtain ⟨c, hc, hname⟩ := Table.position?_eq_some hposition
    obtain ⟨hpairs, -⟩ := firstDuplicate?_eq_none _ hdup
    refine ⟨?_, fun column hcolumn hlow => ?_, fun i column hcolumn hunique => ?_⟩
    · exact (setUnique_columnNames r.table position).symm ▸ hr.names
    · obtain ⟨i, hi⟩ := List.mem_iff_getElem?.1 hcolumn
      rcases hr.setUnique_columns hc hi with ⟨-, rfl⟩ | ⟨hold, hne⟩
      · rfl
      · rw [hname] at hne
        rw [isNocase_append_of_some hsole] at hlow
        simp only [beq_eq_false_iff_ne.2 (Ne.symm hne), Bool.false_and, Bool.or_false] at hlow
        exact hr.nocase_unique column (List.mem_of_getElem? hold) hlow
    · rcases hr.setUnique_columns hc hcolumn with ⟨rfl, rfl⟩ | ⟨hold, hne⟩
      · rw [isNocase_append_of_some hsole]
        simp only [hname, beq_self_eq_true, Bool.true_and]
        cases hold : r.isNocase indexed.name with
        | true =>
          -- the column was compared in lower case before, so its rows were apart in that way
          have hapart := hr.apart i c hc
            (hr.nocase_unique c (List.mem_of_getElem? hc) (hname ▸ hold))
          rwa [hname, hold] at hapart
        | false => rwa [Bool.false_or]
      · rw [hname] at hne
        rw [isNocase_append_of_some hsole]
        simp only [beq_eq_false_iff_ne.2 (Ne.symm hne), Bool.false_and, Bool.or_false]
        exact hr.apart i column hold hunique

/-! ## Top theorems -/

theorem Keyed.change {r next : Relation} (hr : r.Keyed) (h : r.Change next) : next.Keyed := by
  cases h with
  | insert h => exact hr.insert h
  | delete h =>
    obtain ⟨hits, -, rfl, -⟩ := deleteWhere_eq_ok h
    exact hr.sublist (kept_sublist r.rows hits)
  | truncate => exact hr.sublist (List.nil_sublist _)
  | update h => exact hr.updateWhere h
  | index h => exact hr.createIndex h

theorem Keyed.new {s : CreateTable} {t : Table} (h : s.define = .ok t) : Keyed { table := t } :=
  ⟨CreateTable.define_columnNames_nodup h, fun _ _ hlow => by simp [isNocase] at hlow,
    fun _ _ _ _ => .nil⟩

end Relation

/-- In every relation that statements lead to, the values of two rows in a unique column that are
not null have different canonical strings, and these differ in lower case too if a unique index of
that column alone asks for it. -/
theorem Catalog.Reachable.keys_differ {c : Catalog} (h : c.Reachable) {name : String} {r : Relation}
    (hr : c.get? name = some r) {position : Nat} {column : Column}
    (hcolumn : r.table.columns[position]? = some column) {i j : Nat} {a b : Row} {v w : Value}
    (hne : i ≠ j) (ha : r.rows[i]? = some a) (hb : r.rows[j]? = some b)
    (hv : a[position]? = some v) (hw : b[position]? = some w) (hv' : v ≠ .null) (hw' : w ≠ .null) :
    (column.unique = true → v.canonical ≠ w.canonical) ∧
      ((∃ index ∈ r.indexes, index.unique = true ∧ index.columns = [⟨column.name, true⟩]) →
        Text.lowercase v.canonical ≠ Text.lowercase w.canonical) := by
  have hkeyed : r.Keyed := h.relation Relation.Keyed.new Relation.Keyed.change name r hr
  have hdiffer (hunique : column.unique = true) : w.sameKey (r.isNocase column.name) v = false :=
    holdsKey_eq_false.1 (Apart.of_pairwise (hkeyed.apart position column hcolumn hunique) hne ha hb
      v hv (Value.isNull_eq_false.2 hv')) w hw
  refine ⟨fun hunique => ?_, fun hindex => ?_⟩
  · have := hdiffer hunique
    intro heq
    cases hlow : r.isNocase column.name <;>
      simp [Value.sameKey, Value.isNull_eq_false.2 hw', hlow, heq] at this
  · have hlow := Relation.isNocase_iff.2 hindex
    have := hdiffer (hkeyed.nocase_unique column (List.mem_of_getElem? hcolumn) hlow)
    intro heq
    simp [Value.sameKey, Value.isNull_eq_false.2 hw', hlow, heq] at this

/-- A unique column that an index compares in lower case: "BOB" is refused after "Bob". -/
theorem keys_differ_of_nocase :
    let r : Relation := ⟨⟨"t", [⟨"name", "text", false, true, false, none⟩]⟩,
      [[.text "Bob"], [.null], [.text "Al"]], [⟨"i", [⟨"name", true⟩], true⟩]⟩
    (Catalog.after
      [(fun _ => "", .createTable ⟨"t", false, [⟨"name", "text", false, [.unique]⟩], []⟩),
        (fun _ => "", .insert ⟨"t", ["name"], [[⟨.string, "Bob"⟩], [⟨.null, "null"⟩]], none⟩),
        (fun _ => "", .createIndex ⟨"i", "t", true, false, [⟨"name", true⟩]⟩),
        (fun _ => "", .insert ⟨"t", ["name"], [[⟨.string, "Al"⟩], [⟨.string, "BOB"⟩]], none⟩)]).get?
      "t" = some r ∧ "Bob" ≠ "Al" ∧ Text.lowercase "Bob" ≠ Text.lowercase "Al" := by
  intro r
  refine (and_iff_left_of_imp fun hget => ?_).2 (by decide +kernel)
  have ha : r.rows[0]? = some [.text "Bob"] := rfl
  have hb : r.rows[2]? = some [.text "Al"] := rfl
  have hcolumn : r.table.columns[0]? = some ⟨"name", "text", false, true, false, none⟩ := rfl
  have hboth := (Catalog.Reachable.after _).keys_differ hget hcolumn (by decide) ha hb rfl rfl
    (by decide) (by decide)
  exact ⟨hboth.1 rfl, hboth.2 ⟨_, List.mem_singleton_self _, rfl, rfl⟩⟩

end Tabula
