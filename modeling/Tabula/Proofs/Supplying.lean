import Tabula.Proofs.Appending
import Tabula.Proofs.Readable

/-!
# Values that are supplied and values that are stored

A new row is made column by column, and each column looks for its literal in the list of columns of
the INSERT.  So a literal is stored if its place in that list is the first that names its column.
The literal at a later place is not looked at, and nothing tells that it is not.

* `Column.SuppliedAt`: the place in a list of columns from which a column takes its literal.
* `Insert.execute_of_like`: the literals at the other places make no difference.
* `Insert.supplied_stored`: what becomes of the literal at each place.
-/

namespace Tabula

/-! ## Algorithm -/

/-- The place in a list of columns from which a column takes its literal: the first that names it.
A column that numbers its rows takes none. -/
structure Column.SuppliedAt (columns : List String) (a : Column) (k : Nat) : Prop where
  plain : a.autoIncrement = false
  mention : columns[k]? = some a.name
  first : ∀ j < k, columns[j]? ≠ some a.name

/-- Another INSERT into the same columns, with the same literals at the places from which columns
take them. -/
structure Insert.Like (t : Table) (s other : Insert) : Prop where
  table : other.table = s.table
  columns : other.columns = s.columns
  returning : other.returning = s.returning
  rows : List.Forall₂ (fun values values' => ∀ a ∈ t.columns, ∀ (k : Nat),
    a.SuppliedAt s.columns k → values'[k]? = values[k]?) s.rows other.rows

/-! ## Lemmas -/

/-- The literal at the place from which a column takes it is the one that is read. -/
theorem Column.Takes.of_suppliedAt {now : String} {columns : List String} {values : List Literal}
    {n : Nat} {a : Column} {v : Value} (h : a.Takes now columns values n v) {k : Nat}
    (hk : a.SuppliedAt columns k) {l : Literal} (hl : values[k]? = some l) :
    a.coerce now l = .ok v := by
  cases h with
  | number hnumbers => exact absurd hnumbers (by simp [hk.plain])
  | @literal m l' v _ hmention hfirst hl' hread =>
    obtain rfl : m = k := by
      rcases Nat.lt_trichotomy m k with hlt | heq | hgt
      · exact absurd hmention (hk.first m hlt)
      · exact heq
      · exact absurd hk.mention (hfirst k hgt)
    obtain rfl := Option.some.inj (hl'.symm.trans hl)
    exact hread
  | default _ habsent _ => exact absurd (List.mem_of_getElem? hk.mention) habsent

namespace Relation

variable {now : String} {columns : List String} {values values' : List Literal}

/-- A column is supplied with the same literal by rows that agree where it takes it from. -/
theorem supplied?_congr {a : Column} (hplain : a.autoIncrement = false)
    (h : ∀ k, a.SuppliedAt columns k → values'[k]? = values[k]?) :
    supplied? columns values' a.name = supplied? columns values a.name := by
  unfold supplied?
  cases hk : columns.findIdx? (· == a.name) with
  | none => rfl
  | some k =>
    obtain ⟨hlt, hname, hfirst⟩ := List.findIdx?_eq_some_iff_getElem.1 hk
    refine h k ⟨hplain, ?_, fun j hj hmention => ?_⟩
    · rw [List.getElem?_eq_getElem hlt, beq_iff_eq.1 hname]
    · obtain ⟨hj', hname'⟩ := List.getElem?_eq_some_iff.1 hmention
      exact hfirst j hj (beq_iff_eq.2 hname')

theorem newRow_congr {r : Relation} (cs : List Column)
    (h : ∀ a ∈ cs, ∀ k, a.SuppliedAt columns k → values'[k]? = values[k]?) :
    ∀ position, r.newRow now columns values' position cs =
      r.newRow now columns values position cs := by
  induction cs with
  | nil => intro position; rfl
  | cons a rest ih =>
    intro position
    obtain ⟨ha, hrest⟩ := List.forall_mem_cons.1 h
    have hvalue : r.newValue now a (supplied? columns values' a.name) =
        r.newValue now a (supplied? columns values a.name) := by
      unfold newValue
      by_cases hnumbers : a.autoIncrement = true
      · rw [if_pos hnumbers, if_pos hnumbers]
      · rw [supplied?_congr (by simpa using hnumbers) ha]
    simp only [newRow, hvalue, ih hrest]

/-- A row is inserted alike from literals that agree where its columns take them from. -/
theorem insert_congr {r : Relation} (returning : Option String)
    (h : ∀ a ∈ r.table.columns, ∀ k, a.SuppliedAt columns k → values'[k]? = values[k]?) :
    r.insert now columns values' returning = r.insert now columns values returning := by
  rw [insert_eq, insert_eq, newRow_congr _ h]

end Relation

namespace Insert

variable {times : Times} {s other : Insert}

/-- Rows that agree where columns take their literals from are inserted alike. -/
theorem insertRows_congr (hcolumns : other.columns = s.columns)
    (hreturning : other.returning = s.returning) {t : Table} {rows rows' : List (List Literal)}
    (hrows : List.Forall₂ (fun values values' => ∀ a ∈ t.columns, ∀ (k : Nat),
      a.SuppliedAt s.columns k → values'[k]? = values[k]?) rows rows') :
    ∀ (i : Nat) {r : Relation}, r.table = t →
      (other.insertRows times i rows').run r = (s.insertRows times i rows).run r := by
  induction hrows with
  | nil => intro i r _; rfl
  | @cons values values' rest rest' hvalues hrest ih =>
    intro i r ht
    subst ht
    rw [insertRows_run, insertRows_run, hcolumns, hreturning,
      Relation.insert_congr s.returning hvalues]
    cases hfirst : r.insert (times i) s.columns values s.returning with
    | error f => rfl
    | ok p =>
      obtain ⟨next, first⟩ := p
      obtain ⟨row, -, hnext⟩ := Relation.insert_eq_ok hfirst
      have hrest := ih (i + 1) (show next.table = r.table from hnext ▸ rfl)
      dsimp only
      rw [hrest]

/-- The literals at the places from which no column takes one make no difference. -/
theorem execute_of_like {c : Catalog} {r : Relation} (hr : c.get? s.table = some r)
    (h : Like r.table s other) :
    (Statement.insert other).execute times c = (Statement.insert s).execute times c := by
  have hget : c.get? other.table = some r := h.table ▸ hr
  have hanswer : other.answer = s.answer := by
    unfold answer
    rw [h.returning, h.rows.length_eq]
  rw [execute_eq times hr, execute_eq times hget,
    insertRows_congr h.columns h.returning h.rows 0 rfl, h.table, hanswer]

/-- A run with rows has no name in its list of columns that is not that of a column. -/
theorem Adds.named {i : Nat} {r last : Relation} {rows : List (List Literal)}
    {inserted : List Inserted} (h : Adds times s i r rows last inserted) (hrows : rows ≠ []) :
    ∀ name ∈ s.columns, name ∈ r.table.columnNames := by
  cases h with
  | nil => exact absurd rfl hrows
  | cons hfirst _ =>
    simp only [Relation.insert_eq, bind_eq_ok] at hfirst
    obtain ⟨⟨⟩, hall, -⟩ := hfirst
    exact Relation.requireAll_eq_ok _ hall

/-- A row that is appended holds the literal at the place from which a column takes it. -/
theorem Appends.stores {r : Relation} {added : List Row} (h : s.Appends times r added) {i : Nat}
    {values : List Literal} {row : Row} (hvalues : s.rows[i]? = some values)
    (hrow : added[i]? = some row) {p k : Nat} {a : Column} (ha : r.table.columns[p]? = some a)
    (hk : a.SuppliedAt s.columns k) {l : Literal} (hl : values[k]? = some l) :
    ∃ v, row[p]? = some v ∧ a.coerce (times i) l = .ok v := by
  obtain ⟨v, hv⟩ := h.getElem? (List.mem_of_getElem? hrow) ha
  refine ⟨v, hv, ?_⟩
  obtain ⟨hlt, rfl⟩ := List.getElem?_eq_some_iff.1 ha
  obtain ⟨hlt', rfl⟩ := List.getElem?_eq_some_iff.1 hv
  have htakes := (List.forall₂_iff_get.1 (h.takes i values row hvalues hrow)).2 p hlt hlt'
  exact htakes.of_suppliedAt hk hl

end Insert

/-! ## Top theorem -/

/-- Let an INSERT be one that can be read.  If it succeeds, it appends a row for each of its lists
of values, and every name in its list of columns is that of a column; a literal at the first place
that names a column which does not number its rows is read as a value of that column, and stored
there.  The literals at all other places are discarded: whatever stands there instead, the statement
has the same outcome. -/
theorem Insert.supplied_stored (times : Times) {s : Insert} (hs : s.Readable) (c : Catalog) :
    (((Statement.insert s).execute times c).fault = none →
      ∃ (r : Relation) (added : List Row), c.get? s.table = some r ∧
        ((Statement.insert s).execute times c).catalog =
          c.set s.table { r with rows := r.rows ++ added } ∧
        added.length = s.rows.length ∧ (∀ name ∈ s.columns, name ∈ r.table.columnNames) ∧
        ∀ (i : Nat) (values : List Literal) (row : Row), s.rows[i]? = some values →
          added[i]? = some row → values.length = s.columns.length ∧
          ∀ (p k : Nat) (a : Column), r.table.columns[p]? = some a → a.SuppliedAt s.columns k →
            ∃ l v, values[k]? = some l ∧ row[p]? = some v ∧ a.coerce (times i) l = .ok v) ∧
      ∀ (r : Relation) (other : Insert), c.get? s.table = some r → Like r.table s other →
        (Statement.insert other).execute times c = (Statement.insert s).execute times c := by
  refine ⟨fun hok => ?_, fun r other hr hlike => execute_of_like hr hlike⟩
  obtain ⟨r, last, inserted, hr, hadds, hexec⟩ := execute_adds hok
  obtain ⟨added, rfl, happends⟩ := hadds.appends hs.widths
  rw [hexec]
  refine ⟨r, added, hr, rfl, happends.length, hadds.named hs.rows, ?_⟩
  intro i values row hvalues hrow
  have hwidth := hs.widths values (List.mem_of_getElem? hvalues)
  refine ⟨hwidth, fun p k a ha hk => ?_⟩
  obtain ⟨l, hl⟩ : ∃ l, values[k]? = some l :=
    ⟨_, List.getElem?_eq_getElem (hwidth ▸ (List.getElem?_eq_some_iff.1 hk.mention).1)⟩
  obtain ⟨v, hv, hread⟩ := happends.stores hvalues hrow ha hk hl
  exact ⟨l, v, hl, hv, hread⟩

/-- A column is named twice, and so is one that numbers its rows: the text p is stored, and the
number 9 and the text q make no difference. -/
theorem supplied_stored_of_repeated :
    let c := Catalog.after
      [(fun _ => "", .createTable ⟨"t", false,
          [⟨"id", "int", false, [.autoIncrement]⟩, ⟨"a", "text", false, []⟩], []⟩)]
    let s : List Literal → Insert := fun values => ⟨"t", ["a", "id", "a"], [values], none⟩
    let values : List Literal := [⟨.string, "p"⟩, ⟨.number, "9"⟩, ⟨.string, "q"⟩]
    (∃ r row, c.get? "t" = some r ∧ row[1]? = some (.text "p") ∧
        ((Statement.insert (s values)).execute (fun _ => "") c).catalog =
          c.set "t" { r with rows := r.rows ++ [row] }) ∧
      (Statement.insert (s [⟨.string, "p"⟩, ⟨.null, "null"⟩, ⟨.number, "1"⟩])).execute
          (fun _ => "") c =
        (Statement.insert (s values)).execute (fun _ => "") c := by
  intro c s values
  have hparse : Statement.parse "INSERT INTO t (a, id, a) VALUES ('p', 9, 'q')" =
      .ok [.insert (s values)] := by decide +kernel
  have hs : (s values).Readable := Statement.parse_readable hparse _ (List.mem_singleton_self _)
  have hget : c.get? "t" = some ⟨⟨"t", [⟨"id", "int", true, false, false, none⟩,
      ⟨"a", "text", false, false, false, none⟩]⟩, [], []⟩ := by decide +kernel
  obtain ⟨hstored, hlike⟩ := (s values).supplied_stored (fun _ => "") hs c
  refine ⟨?_, hlike _ _ hget ⟨rfl, rfl, rfl, .cons ?_ .nil⟩⟩
  · obtain ⟨r, added, hr, hcatalog, hlen, -, hrows⟩ := hstored (by decide +kernel)
    obtain rfl := Option.some.inj (hget.symm.trans hr)
    obtain ⟨row, rfl⟩ := List.length_eq_one_iff.1 hlen
    obtain ⟨-, hplaces⟩ := hrows 0 values row rfl rfl
    obtain ⟨l, v, hl, hv, hread⟩ := hplaces 1 0 ⟨"a", "text", false, false, false, none⟩ rfl
      ⟨rfl, rfl, fun j hj => absurd hj (Nat.not_lt_zero j)⟩
    obtain rfl : ⟨.string, "p"⟩ = l := Option.some.inj hl
    obtain rfl : .text "p" = v := Except.ok.inj hread
    exact ⟨_, row, hr, hv, hcatalog⟩
  · -- only the first place is one from which a column takes its literal
    rintro a ha k ⟨hplain, hmention, hfirst⟩
    rcases List.mem_cons.1 ha with rfl | ha
    · cases hplain
    · obtain rfl := List.mem_singleton.1 ha
      cases k with
      | zero => rfl
      | succ k => exact absurd rfl (hfirst 0 (Nat.succ_pos k))

/-- An INSERT that names a column twice succeeds and does not store the second literal. -/
theorem supplied_not_stored :
    ¬∀ (c : Catalog) (s : Insert) (times : Times), c.Reachable → s.Readable →
      ((Statement.insert s).execute times c).fault = none →
      ∃ (r : Relation) (added : List Row), c.get? s.table = some r ∧
        ((Statement.insert s).execute times c).catalog =
          c.set s.table { r with rows := r.rows ++ added } ∧
        ∀ (i p k : Nat) (values : List Literal) (row : Row) (a : Column) (l : Literal),
          s.rows[i]? = some values → added[i]? = some row → r.table.columns[p]? = some a →
          s.columns[k]? = some a.name → a.autoIncrement = false → values[k]? = some l →
          l.isGenerator = false → ∃ v, row[p]? = some v ∧ a.coerce (times i) l = .ok v := by
  intro hstored
  let c := Catalog.after
    [(fun _ => "", .createTable ⟨"t", false, [⟨"a", "int", false, []⟩], []⟩)]
  let s : Insert := ⟨"t", ["a", "a"], [[⟨.number, "1"⟩, ⟨.number, "2"⟩]], none⟩
  have hparse : Statement.parse "INSERT INTO t (a, a) VALUES (1, 2)" = .ok [.insert s] := by
    decide +kernel
  have hs : s.Readable := Statement.parse_readable hparse _ (List.mem_singleton_self _)
  obtain ⟨r, added, hr, hcatalog, hrows⟩ := hstored c s (fun _ => "") (Catalog.Reachable.after _)
    hs (by decide +kernel)
  have hget : c.get? "t" = some ⟨⟨"t", [⟨"a", "int", false, false, false, none⟩]⟩, [], []⟩ := by
    decide +kernel
  obtain rfl := Option.some.inj (hget.symm.trans hr)
  have hadded : (((Statement.insert s).execute (fun _ => "") c).catalog.get? "t").map (·.rows) =
      some [[.integer 1]] := by decide +kernel
  rw [hcatalog, Catalog.get?_set, if_pos rfl] at hadded
  obtain rfl : added = [[.integer 1]] := by simpa using hadded
  obtain ⟨v, hv, hread⟩ := hrows 0 0 1 _ _ _ _ rfl rfl rfl rfl rfl rfl rfl
  obtain rfl : .integer 1 = v := Option.some.inj hv
  exact absurd hread (by decide +kernel)

end Tabula
