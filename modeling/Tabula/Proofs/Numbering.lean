import Tabula.Proofs.Characters
import Tabula.Proofs.Insertion
import Tabula.Proofs.Stamping
import Tabula.Proofs.Uniqueness

/-!
# Columns that number their rows

A column that numbers its rows takes the number of a new row from the rows that are there, not from
a counter of its own.  As long as rows are only added at the end, or taken out all at once, the
`k`-th row holds `k`, and the next number is one that no row holds.

* `Relation.Numbered`: every row holds its own number; one lemma for each operation.
* `Statement.execute_numbered`: the step; only a DELETE with conditions and an UPDATE of the column
  disturb the numbers.
* `Insert.insertRows_ne_notUnique`: rows that are numbered are never refused for their numbers.
* `Catalog.after_numbered`: the run.
-/

namespace Tabula

/-! ## Algorithm -/

/-- A column holds in every row the number of the row, counted from 1. -/
def Relation.Numbered (position : Nat) (r : Relation) : Prop :=
  ∀ (k : Nat) (row : Row), r.rows[k]? = some row →
    row[position]? = some (.integer (Int64.ofNat (k + 1)))

/-- Whether a statement may take single rows out of a table, or assigns to a column of it. -/
def Statement.disturbs (table column : String) : Statement → Bool
  | .delete s => s.table == table && !s.conditions.isEmpty
  | .update s => s.table == table && s.assignments.any (·.1 == column)
  | _ => false

/-! ## Lemmas -/

/-! ### Numerals -/

/-- Digits have no other lower case. -/
theorem Text.lowercase_of_digits {s : String} (h : ∀ c ∈ s.toList, c.isDigit = true) :
    Text.lowercase s = s := by
  have hafter : ∀ (cs seen : List Char), (∀ c ∈ cs, c.isDigit = true) →
      Text.lowerAfter seen cs = cs := by
    intro cs
    induction cs with
    | nil => intro seen _; rfl
    | cons c rest ih =>
      intro seen hdigits
      have hdigit := hdigits c List.mem_cons_self
      have hbounds := Text.isDigit_bounds hdigit
      have hsigma : c ≠ 'Σ' := by
        rintro rfl
        exact absurd hdigit (by decide)
      rw [Text.lowerAfter, if_neg hsigma, Text.lowerChar, if_pos (by omega),
        Text.toLower_of_isDigit hdigit, ih _ fun d hd => hdigits d (List.mem_cons_of_mem _ hd)]
      rfl
  rw [Text.lowercase, hafter s.toList [] h, String.ofList_toList]

/-- The canonical string of a row number is its numeral. -/
theorem Value.canonical_number {n : Nat} (h : n < Nat.pow 2 63) :
    (Value.integer (Int64.ofNat n)).canonical = toString n := by
  rw [Value.canonical, Int64.toInt_ofNat_of_lt h]
  rfl

theorem isDigit_of_mem_toString {n : Nat} {c : Char} (h : c ∈ (toString n).toList) :
    c.isDigit = true := by
  rw [Nat.toString_eq_repr, Nat.toList_repr] at h
  exact Nat.isDigit_of_mem_toDigits (by decide) (by decide) h

/-- A number is read back from its numeral. -/
theorem toString_number_inj {m n : Nat} (h : toString m = toString n) : m = n := by
  have hread : ∀ k : Nat, Nat.ofDigitChars 10 (toString k).toList 0 = k := by
    intro k
    rw [Nat.toString_eq_repr, Nat.toList_repr]
    exact Nat.ofDigitChars_toDigits (by decide) (by decide)
  rw [← hread m, h, hread n]

/-- Different row numbers have different keys, in lower case or not. -/
theorem Value.sameKey_number {nocase : Bool} {m n : Nat} (hm : m < Nat.pow 2 63) (hn : n < Nat.pow 2 63)
    (hne : m ≠ n) :
    (Value.integer (Int64.ofNat m)).sameKey nocase (.integer (Int64.ofNat n)) = false := by
  have hnumerals : (toString m == toString n) = false :=
    beq_false_of_ne fun heq => hne (toString_number_inj heq)
  unfold Value.sameKey
  rw [Value.canonical_number hm, Value.canonical_number hn,
    Text.lowercase_of_digits fun _ => isDigit_of_mem_toString,
    Text.lowercase_of_digits fun _ => isDigit_of_mem_toString, hnumerals]
  cases nocase <;> rfl

/-! ### Operations -/

namespace Relation

variable {r next : Relation} {position : Nat} {column : Column}

theorem Numbered.new {t : Table} : Numbered position { table := t } :=
  fun _ _ hrow => by simp at hrow

theorem Numbered.truncate : Numbered position r.truncate.1 :=
  fun _ _ hrow => by simp [Relation.truncate] at hrow

/-- A column that numbers its rows takes no other value than the next number. -/
theorem newValue_number {now : String} {supplied : Option Literal} (r : Relation)
    (hnumbers : column.autoIncrement = true) :
    r.newValue now column supplied = .ok (.integer r.nextId) :=
  if_pos hnumbers

theorem Numbered.insert {now : String} {columns : List String} {values : List Literal}
    {returning : Option String} {inserted : Inserted} (hr : r.Numbered position)
    (hcolumn : r.table.columns[position]? = some column) (hnumbers : column.autoIncrement = true)
    (h : r.insert now columns values returning = .ok (next, inserted)) :
    next.Numbered position := by
  obtain ⟨row, hrow, rfl⟩ := insert_eq_ok h
  obtain ⟨hlen, hmade⟩ := newRow_eq_ok _ hrow
  intro k row' hrow'
  rcases Nat.lt_or_ge k r.rows.length with hold | hnew
  · rw [List.getElem?_append_left hold] at hrow'
    exact hr k row' hrow'
  · -- the row that was added stands at the place of its number
    rw [List.getElem?_append_right hnew] at hrow'
    obtain ⟨hk, rfl⟩ := List.getElem?_eq_some_iff.1 hrow'
    have hlast : k = r.rows.length := by
      rw [List.length_singleton] at hk
      omega
    have hwidth : position < row.length := by
      rw [hlen]
      exact (List.getElem?_eq_some_iff.1 hcolumn).1
    have hvalue := (hmade position column row[position] hcolumn
      (List.getElem?_eq_getElem hwidth)).1
    rw [newValue_number r hnumbers] at hvalue
    rw [List.getElem_singleton, List.getElem?_eq_getElem hwidth, ← Except.ok.inj hvalue, nextId,
      hlast]

theorem Numbered.updateWhere {now : String} {assignments : List (String × Literal)}
    {test : RowTest} {n : Nat} (hr : r.Numbered position)
    (hcolumn : r.table.columns[position]? = some column)
    (hassigned : ∀ a ∈ assignments, a.1 ≠ column.name)
    (h : r.updateWhere now assignments test = .ok (next, n)) : next.Numbered position := by
  obtain ⟨resolved, hits, hresolved, hhits, -, rfl, -⟩ := updateWhere_eq_ok h
  have hlast : lastAssigned? resolved position = none := by
    cases hsome : lastAssigned? resolved position with
    | none => rfl
    | some v =>
      obtain ⟨other, l, hother, hmem, -, -⟩ :=
        resolveAssignments_eq_ok _ hresolved position v (lastAssigned?_mem hsome)
      obtain rfl := Option.some.inj (hcolumn.symm.trans hother)
      exact absurd rfl (hassigned _ hmem)
  have hlen := testRows_length _ hhits
  intro k row hrow
  have hk : k < r.rows.length := by
    have hlength : (assigned resolved r.rows hits).length = r.rows.length := assigned_length hlen
    rw [← hlength]
    exact (List.getElem?_eq_some_iff.1 hrow).1
  have hold := List.getElem?_eq_getElem hk
  rcases assigned_getElem? resolved hlen k _ hold with ⟨-, hnew⟩ | ⟨-, hnew⟩
  · obtain rfl := Option.some.inj (hnew.symm.trans hrow)
    rw [assign_getElem?, hr k _ hold, hlast]
    rfl
  · obtain rfl := Option.some.inj (hnew.symm.trans hrow)
    exact hr k _ hold

theorem Numbered.createIndex {index : Index} (hr : r.Numbered position)
    (h : r.createIndex index = .ok next) : next.Numbered position := by
  obtain ⟨-, -, ⟨-, rfl⟩ | ⟨-, position, -, -, -, rfl⟩⟩ := createIndex_eq_ok h <;> exact hr

/-- No row holds the key of the next number. -/
theorem Numbered.checkKey (hr : r.Numbered position) (hroom : r.rows.length + 1 < Nat.pow 2 63) :
    r.checkKey position column (.integer r.nextId) = .ok () := by
  have hfree : r.rows.any (holdsKey (r.isNocase column.name) position (.integer r.nextId)) =
      false := by
    rw [List.any_eq_false]
    intro row hrow
    obtain ⟨k, hk, hget⟩ := List.mem_iff_getElem.1 hrow
    rw [Bool.not_eq_true, holdsKey_eq_false]
    intro w hw
    rw [hr k row (List.getElem?_eq_some_iff.2 ⟨hk, hget⟩)] at hw
    obtain rfl := Option.some.inj hw
    exact Value.sameKey_number (by omega) hroom (by omega)
  unfold Relation.checkKey
  rw [hfree, Bool.and_false]
  rfl

end Relation

/-! ### Refusals -/

namespace Column

/-- A literal that is not stored is refused as one. -/
theorem coerce_error {now : String} {a : Column} {l : Literal} {f : Fault}
    (h : a.coerce now l = .error f) : f = .notCoercible l.lexeme a.typeName := by
  unfold coerce at h
  split at h
  · cases h
  · split at h
    · cases h
    · split at h
      · cases h
      · exact (Except.error.inj h).symm

theorem defaultValue_error {now : String} {a : Column} {f : Fault}
    (h : a.defaultValue now = .error f) : ∃ lexeme, f = .notCoercible lexeme a.typeName := by
  unfold defaultValue at h
  split at h
  · cases h
  · exact ⟨_, coerce_error h⟩
  · cases h

end Column

namespace Relation

variable {r : Relation} {now table name value : String} {columns : List String}
  {values : List Literal}

theorem newValue_ne_notUnique {column : Column} {supplied : Option Literal} :
    r.newValue now column supplied ≠ .error (.notUnique table name value) := by
  intro h
  unfold newValue at h
  split at h
  · cases h
  · split at h
    · cases Column.coerce_error h
    · obtain ⟨lexeme, hfault⟩ := Column.defaultValue_error h
      cases hfault

theorem requireAll_ne_notUnique {t : Table} (names : List String) :
    requireAll t names ≠ .error (.notUnique table name value) := by
  induction names with
  | nil => intro h; cases h
  | cons first rest ih =>
    intro h
    unfold requireAll Table.require at h
    split at h
    · exact ih h
    · cases h

/-- A new row that is refused for a key holds it in a column of the name that is given. -/
theorem newRow_notUnique (cs : List Column) :
    ∀ {position : Nat},
      r.newRow now columns values position cs = .error (.notUnique table name value) →
      ∃ (k : Nat) (column : Column) (v : Value), cs[k]? = some column ∧ column.name = name ∧
        r.newValue now column (supplied? columns values column.name) = .ok v ∧
        r.checkKey (position + k) column v ≠ .ok () := by
  induction cs with
  | nil => intro position h; cases h
  | cons c rest ih =>
    intro position h
    simp only [newRow, bind_eq_error] at h
    rcases h with hv | ⟨v, hv, hnull | ⟨⟨⟩, -, hkey | ⟨⟨⟩, -, hrest | ⟨vs, -, h⟩⟩⟩⟩
    · exact absurd hv newValue_ne_notUnique
    · unfold checkNull at hnull
      split at hnull <;> cases hnull
    · refine ⟨0, c, v, rfl, ?_, hv, by rw [Nat.add_zero, hkey]; intro hok; cases hok⟩
      unfold checkKey at hkey
      split at hkey
      · exact (Fault.notUnique.inj (Except.error.inj hkey)).2.1
      · cases hkey
    · obtain ⟨k, column, w, hk, hname, hw, hcheck⟩ := ih hrest
      refine ⟨k + 1, column, w, hk, hname, hw, ?_⟩
      rwa [Nat.add_right_comm] at hcheck
    · cases h

/-- A row is never refused for its number. -/
theorem Numbered.insert_ne_notUnique {position : Nat} {column : Column} {returning : Option String}
    (hr : r.Numbered position) (hnames : r.table.columnNames.Nodup)
    (hcolumn : r.table.columns[position]? = some column) (hnumbers : column.autoIncrement = true)
    (hroom : r.rows.length + 1 < Nat.pow 2 63) :
    r.insert now columns values returning ≠ .error (.notUnique table column.name value) := by
  intro h
  simp only [Relation.insert_eq, bind_eq_error] at h
  rcases h with hall | ⟨⟨⟩, -, hrow | ⟨row, -, hreturned | ⟨returned, -, h⟩⟩⟩
  · exact requireAll_ne_notUnique _ hall
  · obtain ⟨k, other, v, hother, hname, hvalue, hcheck⟩ := newRow_notUnique _ hrow
    -- only the column itself has its name, and the next number is free
    obtain rfl : k = position := by
      have hk := Table.position?_eq_of_nodup hnames hother
      have hposition := Table.position?_eq_of_nodup hnames hcolumn
      rw [hname] at hk
      exact Option.some.inj (hk.symm.trans hposition)
    obtain rfl := Option.some.inj (hother.symm.trans hcolumn)
    rw [newValue_number r hnumbers] at hvalue
    rw [Nat.zero_add, ← Except.ok.inj hvalue] at hcheck
    exact hcheck (hr.checkKey hroom)
  · unfold returnedValue Table.require at hreturned
    split at hreturned
    · cases hreturned
    · split at hreturned <;> cases hreturned
  · cases h

end Relation

namespace Insert

variable {times : Times} {s : Insert} {position : Nat} {column : Column}

/-- Rows that are added one after the other are numbered like those before them. -/
theorem insertRows_numbered (hnumbers : column.autoIncrement = true)
    (rows : List (List Literal)) :
    ∀ {i : Nat} {r : Relation}, r.Numbered position →
      r.table.columns[position]? = some column →
      ((s.insertRows times i rows).after r).Numbered position := by
  induction rows with
  | nil => intro i r hr _; exact hr
  | cons values rest ih =>
    intro i r hr hcolumn
    rw [insertRows_after]
    cases hi : r.insert (times i) s.columns values s.returning with
    | error f => exact hr
    | ok p =>
      obtain ⟨row, -, hnext⟩ := Relation.insert_eq_ok hi
      exact ih (hr.insert hcolumn hnumbers hi) (by rw [hnext]; exact hcolumn)

end Insert

/-! ### Statements -/

/-- A column that is declared to number its rows does so. -/
theorem CreateTable.numbering_of_plain {d : CreateTable} {t u : Table} (ht : d.define = .ok t)
    (h : u.plain = t.plain) {i : Nat} {declared : ColumnDef} (hi : d.columns[i]? = some declared)
    (hauto : .autoIncrement ∈ declared.constraints) :
    ∃ column, u.columns[i]? = some column ∧ column.name = declared.name ∧
      column.autoIncrement = true := by
  obtain ⟨column, hcolumn, hbare⟩ := column_of_plain ht h hi
  obtain ⟨hname, -, hnumbers, -⟩ := Column.of_bare hbare
  refine ⟨column, hcolumn, hname.trans declared.column_name, ?_⟩
  rw [hnumbers]
  exact declared.column_autoIncrement.2 hauto

/-- A DELETE without conditions takes out all rows. -/
theorem Delete.execute_of_nil {now : String} {s : Delete} (hempty : s.conditions.isEmpty = true) :
    s.execute now = Catalog.truncate s.table :=
  if_pos hempty

/-- A statement that does not disturb a column that numbers its rows leaves them numbered. -/
theorem Statement.execute_numbered {times : Times} {s : Statement} {c : Catalog} {name : String}
    {old r : Relation} {position : Nat} {column : Column} (hold : c.get? name = some old)
    (h : (s.execute times c).catalog.get? name = some r) (hn : old.Numbered position)
    (hcolumn : old.table.columns[position]? = some column) (hnumbers : column.autoIncrement = true)
    (hcalm : s.disturbs name column.name = false) : r.Numbered position := by
  rcases execute_alters hold h with rfl | ⟨htarget, halters⟩
  · exact hn
  · cases halters with
    | createIndex hindex => exact hn.createIndex hindex
    | insert => exact Insert.insertRows_numbered hnumbers _ hn hcolumn
    | @update s test next n hupdate =>
      refine hn.updateWhere hcolumn (fun a ha heq => ?_) hupdate
      have hany : s.assignments.any (·.1 == column.name) = true :=
        List.any_eq_true.2 ⟨a, ha, beq_iff_eq.2 heq⟩
      rw [disturbs, hany, Option.some.inj htarget, beq_self_eq_true] at hcalm
      cases hcalm
    | @delete s test next n hdelete =>
      have hempty : s.conditions.isEmpty = true := by
        rw [disturbs, Option.some.inj htarget, beq_self_eq_true, Bool.true_and] at hcalm
        simpa using hcalm
      rw [execute_catalog] at h
      rcases Outcome.ofAction_get? (s.atomic_execute (times 0)) hold h with
        rfl | ⟨next', frames, hx, hr⟩
      · exact hn
      · rw [Delete.execute_of_nil hempty] at hx
        obtain ⟨found, hfound, rfl⟩ := Catalog.truncate_eq_ok hx
        obtain ⟨-, rfl⟩ := Catalog.placed hold htarget hfound hr
        exact .truncate
    | deleteAll => exact .truncate
    | truncate => exact .truncate

/-- An INSERT into a table with a column that numbers its rows is not refused for a number. -/
theorem Insert.execute_ne_notUnique {times : Times} {s : Insert} {c : Catalog} {r : Relation}
    {position : Nat} {column : Column} {table value : String} (hr : c.get? s.table = some r)
    (hn : r.Numbered position) (hnames : r.table.columnNames.Nodup)
    (hcolumn : r.table.columns[position]? = some column) (hnumbers : column.autoIncrement = true)
    (hroom : r.rows.length + s.rows.length < Nat.pow 2 63) :
    ((Statement.insert s).execute times c).fault ≠ some (.notUnique table column.name value) := by
  intro h
  rw [Insert.execute_eq times hr] at h
  rcases insertRows_adds times s s.rows 0 r with
    ⟨last, inserted, hrun, -⟩ |
      ⟨before, values, rest, f, last, inserted, hrows, hrun, hadds, hlast⟩
  · rw [hrun] at h
    cases h
  · rw [hrun] at h
    obtain rfl := Option.some.inj h
    -- the rows before the one that is refused are numbered
    have hafter : (s.insertRows times 0 s.rows).after r = last := by
      unfold Action.after
      rw [hrun]
    have hnumbered : last.Numbered position :=
      hafter ▸ insertRows_numbered hnumbers s.rows hn hcolumn
    obtain ⟨added, rfl, hlen, -⟩ := hadds.rows
    refine hnumbered.insert_ne_notUnique hnames hcolumn hnumbers ?_ hlast
    have hshort : added.length < s.rows.length := by
      rw [hlen, hrows, List.length_append, List.length_cons]
      omega
    rw [List.length_append]
    omega

/-! ## Top theorem -/

namespace Relation

variable {r : Relation} {position : Nat}

/-- As long as rows can be counted, a row holds its number as it is. -/
theorem Numbered.number (hr : r.Numbered position) (hroom : r.rows.length < Nat.pow 2 63) (k : Nat)
    (row : Row) (hrow : r.rows[k]? = some row) :
    ∃ n : Int64, row[position]? = some (.integer n) ∧ n.toInt = k + 1 := by
  have hk := (List.getElem?_eq_some_iff.1 hrow).1
  exact ⟨_, hr k row hrow, Int64.toInt_ofNat_of_lt (Nat.lt_of_le_of_lt hk hroom)⟩

/-- As long as rows can be counted, their numbers are different. -/
theorem Numbered.nodup (hr : r.Numbered position) (hroom : r.rows.length < Nat.pow 2 63) :
    (r.rows.map (·[position]?)).Nodup := by
  refine List.pairwise_map.2 (List.pairwise_iff_getElem.2 fun j k hj hk hlt heq => ?_)
  obtain ⟨m, hm, hmj⟩ := hr.number hroom j _ (List.getElem?_eq_getElem hj)
  obtain ⟨n, hn, hnk⟩ := hr.number hroom k _ (List.getElem?_eq_getElem hk)
  rw [hm, hn] at heq
  obtain rfl := Value.integer.inj (Option.some.inj heq)
  omega

end Relation

namespace Catalog

/-- A table that is there after a script was made by a CREATE TABLE of the script.  A column that
numbers its rows holds the number of the row in every row, counted from 1, unless a statement since
then may have taken out single rows of the table or assigned to the column.  As long as rows can be
counted the numbers are different, and no INSERT is refused for one of them, whatever keys and
indexes the column is in. -/
theorem after_numbered (script : List (Times × Statement)) {name : String} {r : Relation}
    (hr : (after script).get? name = some r) :
    ∃ before times d rest, script = before ++ (times, .createTable d) :: rest ∧
      Made name before times d rest ∧ r.table.columnNames = d.columns.map (·.name) ∧
      ∀ (i : Nat) (declared : ColumnDef), d.columns[i]? = some declared →
        .autoIncrement ∈ declared.constraints →
        (∀ step ∈ rest, step.2.disturbs name declared.name = false) →
        r.Numbered i ∧
        (r.rows.length < Nat.pow 2 63 →
          (∀ (k : Nat) (row : Row), r.rows[k]? = some row →
            ∃ n : Int64, row[i]? = some (.integer n) ∧ n.toInt = k + 1) ∧
          (r.rows.map (·[i]?)).Nodup) ∧
        ∀ (times : Times) (s : Insert) (value : String), s.table = name →
          r.rows.length + s.rows.length < Nat.pow 2 63 →
          ((Statement.insert s).execute times (after script)).fault ≠
            some (.notUnique name declared.name value) := by
  obtain ⟨before, times, d, rest, hscript, hmade, ⟨t, ht, hplain⟩, hnumbered⟩ :=
    after_since
      (P := fun d rest r => (∃ t, d.define = .ok t ∧ r.table.plain = t.plain) ∧
        ∀ (i : Nat) (declared : ColumnDef), d.columns[i]? = some declared →
          .autoIncrement ∈ declared.constraints →
          (∀ step ∈ rest, step.2.disturbs name declared.name = false) → r.Numbered i)
      (fun ht => ⟨⟨_, ht, rfl⟩, fun _ _ _ _ _ => .new⟩)
      (fun {d rest times s c old r} ⟨⟨t, ht, hplain⟩, hn⟩ hold hr => by
        refine ⟨⟨t, ht, (Statement.execute_changes hold hr).plain.trans hplain⟩, ?_⟩
        intro i declared hdeclared hauto hcalm
        obtain ⟨column, hcolumn, hname, hnumbers⟩ :=
          CreateTable.numbering_of_plain ht hplain hdeclared hauto
        refine Statement.execute_numbered hold hr ?_ hcolumn hnumbers ?_
        · exact hn i declared hdeclared hauto fun step hstep =>
            hcalm step (List.mem_append_left _ hstep)
        · rw [hname]
          exact hcalm (times, s) (List.mem_append_right _ List.mem_cons_self)) script hr
  refine ⟨before, times, d, rest, hscript, hmade, ?_, ?_⟩
  · exact (Table.columnNames_of_plain hplain).trans (CreateTable.define_columnNames ht)
  · intro i declared hdeclared hauto hcalm
    have hn := hnumbered i declared hdeclared hauto hcalm
    obtain ⟨column, hcolumn, hname, hnumbers⟩ :=
      CreateTable.numbering_of_plain ht hplain hdeclared hauto
    refine ⟨hn, fun hroom => ⟨hn.number hroom, hn.nodup hroom⟩, ?_⟩
    rintro times s value rfl hroom
    have hnames := ((Reachable.after script).even _ r hr).names
    rw [← hname]
    exact Insert.execute_ne_notUnique hr hn hnames hcolumn hnumbers hroom

/-- A key that numbers its rows under an index that compares in lower case: rows are added, taken out
all at once, added again up to one that is refused for its name, and updated. -/
theorem after_numbered_of_refusal :
    let create : CreateTable := ⟨"t", false, [⟨"id", "INT", false, [.primaryKey, .autoIncrement]⟩,
      ⟨"name", "TEXT", false, [.unique]⟩], []⟩
    let later : List (Times × Statement) :=
      [(fun _ => "", .createIndex ⟨"i", "t", true, false, [⟨"id", true⟩]⟩),
        (fun _ => "", .insert ⟨"t", ["name"], [[⟨.string, "a"⟩], [⟨.string, "b"⟩]], none⟩),
        (fun _ => "", .delete ⟨"t", []⟩),
        (fun _ => "", .insert ⟨"t", ["id", "name"], [[⟨.number, "7"⟩, ⟨.string, "c"⟩]], none⟩),
        (fun _ => "", .insert ⟨"t", ["name"], [[⟨.string, "d"⟩], [⟨.string, "c"⟩]], none⟩),
        (fun _ => "", .update ⟨"t", [("name", ⟨.string, "e"⟩)],
          [.compare ⟨none, "name"⟩ .eq ⟨.string, "d"⟩]⟩)]
    let script := (fun _ => "", .createTable create) :: later
    let r : Relation := ⟨⟨"t", [⟨"id", "int", true, true, true, none⟩,
      ⟨"name", "text", false, true, false, none⟩]⟩,
      [[.integer 1, .text "c"], [.integer 2, .text "e"]], [⟨"i", [⟨"id", true⟩], true⟩]⟩
    (after script).get? "t" = some r ∧
      (∀ step ∈ later, step.2.disturbs "t" "id" = false) ∧ r.Numbered 0 ∧
      ((Statement.insert ⟨"t", ["name"], [[⟨.string, "f"⟩], [⟨.string, "c"⟩]], none⟩).execute
        (fun _ => "") (after script)).fault ≠ some (.notUnique "t" "id" "4") := by
  intro create later script r
  have hget : (after script).get? "t" = some r := by decide +kernel
  have hcalm : ∀ step ∈ later, step.2.disturbs "t" "id" = false := by decide
  obtain ⟨before, times, d, rest, hscript, -, -, hcolumns⟩ := after_numbered script hget
  -- only the first statement is a CREATE TABLE
  obtain ⟨rfl, rfl⟩ : create = d ∧ later = rest := by
    cases before with
    | nil =>
      obtain ⟨hfirst, hrest⟩ := List.cons.inj hscript
      exact ⟨Statement.createTable.inj (Prod.mk.inj hfirst).2, hrest⟩
    | cons first before =>
      have hmem : (times, Statement.createTable d) ∈ later := by
        rw [(List.cons.inj hscript).2]
        exact List.mem_append_right _ List.mem_cons_self
      simp [later] at hmem
  obtain ⟨hnumbered, -, hinserts⟩ := hcolumns 0 _ rfl
    (List.mem_cons_of_mem _ List.mem_cons_self) hcalm
  exact ⟨hget, hcalm, hnumbered, hinserts _ _ _ rfl (by decide)⟩

end Catalog

end Tabula
