import Mathlib.Data.List.Forall2
import Tabula.Proofs.Insertion
import Tabula.Proofs.Selection

/-!
# What an INSERT stores and what it answers

What an INSERT stores and what it answers come about apart from each other: each row is appended to
those before it, and what is reported of each is put together when all are stored.  Both agree.  The
rows of the statement are appended in order; the columns that number their rows go on counting from
the rows that there were; and the answer is the last of these numbers with how many rows there are,
or the column that was asked for in the rows that were appended.

* `Column.Takes`: what a new row holds in a column.
* `Insert.Adds.autoIds`, `Insert.Adds.returned`: what a run reports of its rows.
* `Insert.execute_appends`: the rows and the answer of an INSERT that succeeds.
-/

namespace Tabula

/-! ## Algorithm -/

/-- What the `n`-th row of a relation holds in a column if `values` are supplied for `columns`.  A
column that numbers its rows holds the number, whatever is supplied.  Any other holds the literal at
its first mention, and its default if it is not mentioned. -/
inductive Column.Takes (now : String) (columns : List String) (values : List Literal) (n : Nat)
    (a : Column) : Value → Prop where
  | number : a.autoIncrement = true → Takes now columns values n a (.integer (Int64.ofNat n))
  | literal {k : Nat} {l : Literal} {v : Value} : a.autoIncrement = false →
      columns[k]? = some a.name → (∀ j < k, columns[j]? ≠ some a.name) → values[k]? = some l →
      a.coerce now l = .ok v → Takes now columns values n a v
  | default {v : Value} : a.autoIncrement = false → a.name ∉ columns →
      a.defaultValue now = .ok v → Takes now columns values n a v

/-- The rows that an INSERT appends to a relation, in the order of the statement.  Each holds in
every column what the column takes. -/
structure Insert.Appends (times : Times) (s : Insert) (r : Relation) (added : List Row) : Prop where
  length : added.length = s.rows.length
  takes : ∀ (i : Nat) (values : List Literal) (row : Row), s.rows[i]? = some values →
    added[i]? = some row →
    List.Forall₂ (Column.Takes (times i) s.columns values (r.rows.length + i + 1)) r.table.columns
      row

/-! ## New rows -/

namespace Relation

variable {now : String} {columns : List String} {values : List Literal}

/-- A column that is mentioned is supplied with the literal at its first mention, if the row is as
wide as the list of columns, and a column that is not mentioned with none. -/
theorem supplied?_cases (hwidth : values.length = columns.length) (name : String) :
    (∃ (k : Nat) (l : Literal), columns[k]? = some name ∧ (∀ j < k, columns[j]? ≠ some name) ∧
      values[k]? = some l ∧ supplied? columns values name = some l) ∨
    name ∉ columns ∧ supplied? columns values name = none := by
  unfold supplied?
  cases hk : columns.findIdx? (· == name) with
  | none =>
    refine Or.inr ⟨fun hmem => ?_, rfl⟩
    have := List.findIdx?_eq_none_iff.1 hk name hmem
    simp at this
  | some k =>
    obtain ⟨hlt, hname, hfirst⟩ := List.findIdx?_eq_some_iff_getElem.1 hk
    obtain ⟨l, hl⟩ : ∃ l, values[k]? = some l := ⟨_, List.getElem?_eq_getElem (hwidth ▸ hlt)⟩
    refine Or.inl ⟨k, l, ?_, fun j hj hmention => ?_, hl, ?_⟩
    · rw [List.getElem?_eq_getElem hlt]
      exact congrArg some (by simpa using hname)
    · obtain ⟨hj', hname'⟩ := List.getElem?_eq_some_iff.1 hmention
      exact hfirst j hj (by simpa using hname')
    · exact hl

/-- The value that is made for a column is the one it takes. -/
theorem newValue_takes {r : Relation} {a : Column} {v : Value}
    (hwidth : values.length = columns.length)
    (h : r.newValue now a (supplied? columns values a.name) = .ok v) :
    a.Takes now columns values (r.rows.length + 1) v := by
  unfold newValue at h
  split at h
  · next hnumbers =>
    obtain rfl := Except.ok.inj h
    exact .number hnumbers
  · next hnumbers =>
    have hplain : a.autoIncrement = false := by simpa using hnumbers
    rcases supplied?_cases hwidth a.name with
      ⟨k, l, hmention, hfirst, hl, hsupplied⟩ | ⟨habsent, hsupplied⟩
    · rw [hsupplied] at h
      exact .literal hplain hmention hfirst hl h
    · rw [hsupplied] at h
      exact .default hplain habsent h

/-- A new row holds in every column what the column takes. -/
theorem newRow_takes {r : Relation} {cs : List Column} {row : Row}
    (hwidth : values.length = columns.length) (h : r.newRow now columns values 0 cs = .ok row) :
    List.Forall₂ (Column.Takes now columns values (r.rows.length + 1)) cs row := by
  obtain ⟨hlen, hmade⟩ := newRow_eq_ok cs h
  refine List.forall₂_iff_get.2 ⟨hlen.symm, fun k hk hk' => ?_⟩
  exact newValue_takes hwidth
    (hmade k _ _ (List.getElem?_eq_getElem hk) (List.getElem?_eq_getElem hk')).1

/-! ## What is reported of a row -/

/-- What is reported of a row: its number, if some column numbers its rows, and the value of the
column that was asked for. -/
theorem insert_reports {r next : Relation} {returning : Option String} {inserted : Inserted}
    (h : r.insert now columns values returning = .ok (next, inserted)) :
    inserted.autoId = (if r.table.columns.any (·.autoIncrement) then some r.nextId else none) ∧
      ∃ row, next = { r with rows := r.rows ++ [row] } ∧
        returnedValue r.table row returning = .ok inserted.returned := by
  simp only [insert_eq, bind_eq_ok, pure_eq_ok, Prod.mk.injEq] at h
  obtain ⟨-, -, row, -, returned, hreturned, rfl, rfl⟩ := h
  exact ⟨rfl, row, rfl, hreturned⟩

/-- The value that is asked for is that of a column of the table. -/
theorem returnedValue_some {t : Table} {row : Row} {name : String} {returned : Option Value} :
    returnedValue t row (some name) = .ok returned ↔
      ∃ p, t.position? name = some p ∧ row[p]? = returned := by
  simp only [returnedValue, bind_eq_ok, pure_eq_ok, Table.require_eq_ok]

end Relation

namespace Insert

variable {times : Times} {s : Insert} {i : Nat} {r last : Relation} {rows : List (List Literal)}
  {inserted : List Inserted}

/-- A run counts on from the rows that there were. -/
theorem Adds.autoIds (h : Adds times s i r rows last inserted) :
    inserted.filterMap (·.autoId) =
      if r.table.columns.any (·.autoIncrement) then
        (List.range' (r.rows.length + 1) rows.length).map Int64.ofNat
      else [] := by
  induction h with
  | nil => simp
  | @cons i r next last values rest first others hfirst _ ih =>
    obtain ⟨hid, row, rfl, -⟩ := Relation.insert_reports hfirst
    dsimp only at ih
    split at hid
    · next hnumbers =>
      rw [if_pos hnumbers] at ih ⊢
      rw [List.filterMap_cons_some hid, ih, List.length_cons, List.range'_succ, List.map_cons,
        List.length_append, List.length_singleton]
      rfl
    · next hplain =>
      rw [if_neg hplain] at ih ⊢
      rw [List.filterMap_cons_none hid, ih]

/-- A run without rows aside, the column that is asked for is one of the table. -/
theorem Adds.position? {name : String} (h : Adds times s i r rows last inserted)
    (hrows : rows ≠ []) (hname : s.returning = some name) :
    ∃ p, r.table.position? name = some p := by
  cases h with
  | nil => exact absurd rfl hrows
  | cons hfirst _ =>
    obtain ⟨-, row, -, hreturned⟩ := Relation.insert_reports hfirst
    rw [hname] at hreturned
    obtain ⟨p, hp, -⟩ := Relation.returnedValue_some.1 hreturned
    exact ⟨p, hp⟩

/-- A run reports the column that is asked for in the rows that it appends. -/
theorem Adds.returned {name : String} {p : Nat} (h : Adds times s i r rows last inserted)
    (hname : s.returning = some name) (hp : r.table.position? name = some p) :
    ∀ {added : List Row}, last.rows = r.rows ++ added →
      inserted.map (·.returned) = added.map (·[p]?) := by
  induction h with
  | nil =>
    intro added hadded
    obtain rfl : added = [] := by simpa using hadded
    rfl
  | @cons i r next last values rest first others hfirst hrest ih =>
    intro added hadded
    obtain ⟨-, row, rfl, hreturned⟩ := Relation.insert_reports hfirst
    rw [hname] at hreturned
    obtain ⟨q, hq, hvalue⟩ := Relation.returnedValue_some.1 hreturned
    obtain rfl : p = q := Option.some.inj (hp.symm.trans hq)
    -- the rows appended are this one and those that the rest of the run appends
    obtain ⟨others', hlast, -⟩ := hrest.rows
    obtain rfl : row :: others' = added := by
      rw [hlast, List.append_assoc] at hadded
      exact List.append_cancel_left hadded
    rw [List.map_cons, List.map_cons, ih hp (by rw [hlast]), hvalue]

/-- The last of the numbers that a run gives. -/
theorem Adds.lastId (h : Adds times s i r rows last inserted) (hrows : rows ≠ []) :
    ((inserted.filterMap (·.autoId)).getLast?.map (·.toInt)).getD 0 =
      if r.table.columns.any (·.autoIncrement) then
        (Int64.ofNat (r.rows.length + rows.length)).toInt
      else 0 := by
  rw [h.autoIds]
  split
  · obtain ⟨m, hm⟩ : ∃ m, rows.length = m + 1 :=
      Nat.exists_eq_succ_of_ne_zero (by simpa using hrows)
    rw [hm, List.range'_concat, List.map_append, List.map_singleton, List.getLast?_concat,
      Nat.one_mul, Nat.add_right_comm, Nat.add_assoc]
    rfl
  · rfl

/-- The rows of a run are those that the statement appends, if they are as wide as its list of
columns. -/
theorem Adds.appends (h : Adds times s 0 r s.rows last inserted)
    (hwidths : ∀ values ∈ s.rows, values.length = s.columns.length) :
    ∃ added, last = { r with rows := r.rows ++ added } ∧ s.Appends times r added := by
  obtain ⟨added, hlast, hlen, hmade⟩ := h.rows
  refine ⟨added, hlast, hlen, fun k values row hvalues hrow => ?_⟩
  have hnew := hmade k values row hvalues hrow
  have hk : k < added.length := (List.getElem?_eq_some_iff.1 hrow).1
  rw [Nat.zero_add] at hnew
  have htakes := Relation.newRow_takes (hwidths values (List.mem_of_getElem? hvalues)) hnew
  rwa [List.length_append, List.length_take, Nat.min_eq_left (Nat.le_of_lt hk)] at htakes

/-- A row that was appended has a value in every column. -/
theorem Appends.getElem? {added : List Row} (h : s.Appends times r added) {row : Row}
    (hrow : row ∈ added) {p : Nat} {a : Column} (ha : r.table.columns[p]? = some a) :
    ∃ v, row[p]? = some v := by
  obtain ⟨k, hk, rfl⟩ := List.mem_iff_getElem.1 hrow
  obtain ⟨values, hvalues⟩ : ∃ values, s.rows[k]? = some values :=
    ⟨_, List.getElem?_eq_getElem (h.length ▸ hk)⟩
  have hlen := (h.takes k _ _ hvalues (List.getElem?_eq_getElem hk)).length_eq
  have hp : p < added[k].length := hlen ▸ (List.getElem?_eq_some_iff.1 ha).1
  exact ⟨_, List.getElem?_eq_getElem hp⟩

/-- Values that are all there are shown one in each row. -/
theorem answer_rows {rows : List Row} {p : Nat} (h : ∀ row ∈ rows, ∃ v, row[p]? = some v) :
    (rows.filterMap (·[p]?)).map (fun v => Frame.row [v.canonical]) =
      (rows.map fun row => row[p]?.toList.map (·.canonical)).map .row := by
  induction rows with
  | nil => rfl
  | cons row rest ih =>
    obtain ⟨v, hv⟩ := h row List.mem_cons_self
    have hothers := ih fun row hrow => h row (List.mem_cons_of_mem _ hrow)
    simp only [List.filterMap_cons, List.map_cons, hv, hothers, Option.toList_some, List.map_nil]

/-- What an INSERT answers where no column is asked for. -/
theorem Adds.answer_number (h : Adds times s i r s.rows last inserted) (hrows : s.rows ≠ [])
    (hnone : s.returning = none) :
    s.answer inserted =
      [.result (if r.table.columns.any (·.autoIncrement) then
          (Int64.ofNat (r.rows.length + s.rows.length)).toInt
        else 0) s.rows.length] := by
  unfold answer
  rw [hnone]
  dsimp only
  rw [h.lastId hrows]

/-- What an INSERT answers where a column is asked for. -/
theorem Adds.answer_values {name : String} {p : Nat} {a : Column} {added : List Row}
    (h : Adds times s i r rows { r with rows := r.rows ++ added } inserted)
    (hadded : s.Appends times r added) (hname : s.returning = some name)
    (hp : r.table.position? name = some p) (ha : r.table.columns[p]? = some a) :
    s.answer inserted =
      .header [name] :: (added.map fun row => row[p]?.toList.map (·.canonical)).map .row ++
        [.done] := by
  have hreturned : inserted.filterMap (·.returned) = added.filterMap (·[p]?) := by
    have hvalues := congrArg (List.filterMap id) (h.returned hname hp rfl)
    rwa [List.filterMap_map, List.filterMap_map] at hvalues
  unfold answer
  rw [hname]
  dsimp only
  rw [hreturned, answer_rows fun row hrow => hadded.getElem? hrow ha]

/-- An INSERT that succeeds runs through all its rows. -/
theorem execute_adds {c : Catalog} (h : ((Statement.insert s).execute times c).fault = none) :
    ∃ r last inserted, c.get? s.table = some r ∧ Adds times s 0 r s.rows last inserted ∧
      (Statement.insert s).execute times c =
        ⟨c.set s.table last, s.answer inserted, none⟩ := by
  cases hget : c.get? s.table with
  | none =>
    rw [execute_of_none hget] at h
    cases h
  | some r =>
    have hexec := execute_eq times hget
    rcases insertRows_adds times s s.rows 0 r with
      ⟨last, inserted, hrun, hadds⟩ | ⟨_, _, _, f, _, _, _, hrun, _⟩
    · rw [hrun] at hexec
      exact ⟨r, last, inserted, rfl, hadds, hexec⟩
    · rw [hexec, hrun] at h
      cases h

end Insert

/-! ## Top theorem -/

/-- Let an INSERT have rows, as wide as its list of columns; every INSERT that is read has.  If it
succeeds, it changes its own table only, and leaves the rows that were there before the ones that it
appends.  Its answer is the number that the last row was given, 0 if no column numbers its rows, and
how many rows there are; or, where a column was asked for, what the rows that were appended hold in
it. -/
theorem Insert.execute_appends {times : Times} {s : Insert} {c : Catalog} (hrows : s.rows ≠ [])
    (hwidths : ∀ values ∈ s.rows, values.length = s.columns.length)
    (hok : ((Statement.insert s).execute times c).fault = none) :
    ∃ (r : Relation) (added : List Row), c.get? s.table = some r ∧ s.Appends times r added ∧
      ((Statement.insert s).execute times c).catalog =
        c.set s.table { r with rows := r.rows ++ added } ∧
      (s.returning = none → ∃ lastId : Int,
        ((Statement.insert s).execute times c).frames = [.result lastId s.rows.length] ∧
        ((∀ a ∈ r.table.columns, a.autoIncrement = false) → lastId = 0) ∧
        ∀ a ∈ r.table.columns, a.autoIncrement = true →
          lastId = (Int64.ofNat (r.rows.length + s.rows.length)).toInt ∧
          (r.rows.length + s.rows.length < Nat.pow 2 63 →
            lastId = r.rows.length + s.rows.length)) ∧
      ∀ name, s.returning = some name → ∃ (p : Nat) (a : Column),
        r.table.columns[p]? = some a ∧ a.name = name ∧
        Collector.collect ((Statement.insert s).execute times c).frames =
          [.rows [name] (added.map fun row => row[p]?.toList.map (·.canonical))] := by
  obtain ⟨r, last, inserted, hr, hadds, hexec⟩ := execute_adds hok
  obtain ⟨added, rfl, happends⟩ := hadds.appends hwidths
  rw [hexec]
  refine ⟨r, added, hr, happends, rfl, fun hnone => ?_, fun name hname => ?_⟩
  · refine ⟨_, hadds.answer_number hrows hnone, fun hplain => ?_, fun a ha hnumbers => ?_⟩
    · rw [if_neg]
      simpa using hplain
    · rw [if_pos (List.any_eq_true.2 ⟨a, ha, hnumbers⟩)]
      exact ⟨rfl, fun hroom => Int64.toInt_ofNat_of_lt hroom⟩
  · obtain ⟨p, hp⟩ := hadds.position? hrows hname
    obtain ⟨a, ha, haname⟩ := Table.position?_eq_some hp
    refine ⟨p, a, ha, haname, ?_⟩
    dsimp only
    rw [hadds.answer_values happends hname hp ha]
    exact Collector.collect_rows _ _

/-- The column that numbers its rows is named and another is named twice: the second and the third
row get their own numbers, and the answer is the number of the third. -/
theorem execute_appends_of_repeated :
    let c := Catalog.after
      [(fun _ => "", .createTable ⟨"t", false,
          [⟨"id", "int", false, [.autoIncrement]⟩, ⟨"a", "text", false, []⟩,
            ⟨"b", "int", false, [.default ⟨.number, "7"⟩]⟩], []⟩),
        (fun _ => "", .insert ⟨"t", ["a"], [[⟨.string, "o"⟩]], none⟩)]
    let s : Insert := ⟨"t", ["a", "id", "a"],
      [[⟨.string, "p"⟩, ⟨.number, "9"⟩, ⟨.string, "q"⟩],
        [⟨.string, "r"⟩, ⟨.number, "9"⟩, ⟨.string, "s"⟩]], none⟩
    ∃ r added, c.get? "t" = some r ∧ r.rows = [[.integer 1, .text "o", .integer 7]] ∧
      s.Appends (fun _ => "") r added ∧
      added = [[.integer 2, .text "p", .integer 7], [.integer 3, .text "r", .integer 7]] ∧
      ((Statement.insert s).execute (fun _ => "") c).frames = [.result 3 2] := by
  intro c s
  have hget : c.get? "t" = some ⟨⟨"t", [⟨"id", "int", true, false, false, none⟩,
        ⟨"a", "text", false, false, false, none⟩,
        ⟨"b", "int", false, false, false, some (.literal ⟨.number, "7"⟩)⟩]⟩,
      [[.integer 1, .text "o", .integer 7]], []⟩ := by decide +kernel
  have hok : ((Statement.insert s).execute (fun _ => "") c).fault = none := by decide +kernel
  have hrows : (((Statement.insert s).execute (fun _ => "") c).catalog.get? "t").map (·.rows) =
      some [[.integer 1, .text "o", .integer 7], [.integer 2, .text "p", .integer 7],
        [.integer 3, .text "r", .integer 7]] := by decide +kernel
  obtain ⟨r, added, hr, happends, hcatalog, hnumber, -⟩ :=
    s.execute_appends (by decide) (by decide) hok
  obtain rfl := Option.some.inj (hget.symm.trans hr)
  obtain ⟨lastId, hframes, -, hlast⟩ := hnumber rfl
  obtain rfl : lastId = 3 := (hlast _ List.mem_cons_self rfl).2 (by decide)
  refine ⟨_, added, hget, rfl, happends, ?_, hframes⟩
  rw [hcatalog, Catalog.get?_set, if_pos rfl] at hrows
  simpa using hrows

end Tabula
