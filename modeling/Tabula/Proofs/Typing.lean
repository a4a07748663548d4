import Tabula.Proofs.Operations
import Tabula.Proofs.Reach

/-!
# What columns hold

A value enters a row as a literal that was coerced, as a default, or as the number of its row.  A
column that does not number its rows holds nulls and values of its declared type; only the time,
which is a text, is stored whatever the type.

* `Column.coerce_holds`: what a literal is stored as.
* `Relation.Filled`: what all columns hold; one lemma for each operation says what it adds.
* `Relation.Stamped`: columns hold values of their types, and no times but certain ones.
* `Catalog.Reachable.stored`: whatever statements are executed, columns hold what their types store,
  and the numbers of their rows.
-/

namespace Tabula

/-! ## Algorithm -/

/-- What a type is for: nulls and its own values. -/
def ColumnType.Holds : ColumnType → Value → Prop
  | _, .null => True
  | .integer, .integer _ => True
  | .decimal, .decimal _ => True
  | .bool, .bool _ => True
  | .text, .text _ => True
  | _, _ => False

/-- What a column of a type may hold: a null, a value of the type, or a time. -/
def ColumnType.Stores : ColumnType → Value → Prop
  | _, .null => True
  | _, .text _ => True
  | .integer, .integer _ => True
  | .decimal, .decimal _ => True
  | .bool, .bool _ => True
  | _, _ => False

/-- Whether a default stands for the time. -/
def DefaultValue.isGenerator : DefaultValue → Bool
  | .literal l => l.isGenerator
  | .currentTime => true

/-- Whether a column stores the time where an insertion supplies a literal, or none. -/
def Column.storesTime (a : Column) : Option Literal → Bool
  | some l => l.isGenerator
  | none => a.default.any (·.isGenerator)

/-- What a column may hold: what its type stores, and the numbers of rows if it counts them. -/
def Column.Stores (a : Column) (v : Value) : Prop :=
  a.columnType.Stores v ∨ a.autoIncrement = true ∧ ∃ n, v = .integer n

/-- What all columns hold. -/
def Relation.Filled (P : Column → Value → Prop) (r : Relation) : Prop :=
  ∀ row ∈ r.rows, ∀ (i : Nat) (column : Column) (v : Value), r.table.columns[i]? = some column →
    row[i]? = some v → P column v

/-- Columns that do not number their rows hold values of their types, or times that may stand in
them. -/
def Relation.Stamped (S : Column → String → Prop) (r : Relation) : Prop :=
  ∀ row ∈ r.rows, ∀ (i : Nat) (column : Column) (v : Value), r.table.columns[i]? = some column →
    column.autoIncrement = false → row[i]? = some v →
    column.columnType.Holds v ∨ ∃ text, v = .text text ∧ S column text

/-- Columns that do not number their rows hold what their types store. -/
def Relation.Typed (r : Relation) : Prop :=
  ∀ row ∈ r.rows, ∀ (i : Nat) (column : Column) (v : Value), r.table.columns[i]? = some column →
    column.autoIncrement = false → row[i]? = some v → column.columnType.Stores v

/-! ## Lemmas -/

/-! ### Values -/

/-- A column of texts holds nulls and texts. -/
theorem ColumnType.stores_text {v : Value} (h : ColumnType.text.Stores v) :
    v = .null ∨ ∃ s, v = .text s := by
  cases v with
  | null => exact .inl rfl
  | text s => exact .inr ⟨s, rfl⟩
  | integer n => cases h
  | decimal x => cases h
  | bool b => cases h

theorem ColumnType.Holds.stores {type : ColumnType} {v : Value} (h : type.Holds v) :
    type.Stores v := by
  cases type <;> cases v <;> trivial

theorem ColumnType.holds_null (type : ColumnType) : type.Holds .null := by
  cases type <;> trivial

theorem ColumnType.stores_time (type : ColumnType) (text : String) : type.Stores (.text text) := by
  cases type <;> trivial

namespace Column

theorem readLexeme?_holds {type : ColumnType} {lexeme : String} {v : Value}
    (h : readLexeme? type lexeme = some v) : type.Holds v := by
  cases type with
  | integer => obtain ⟨n, -, rfl⟩ := Option.map_eq_some_iff.1 h; trivial
  | decimal => obtain ⟨x, -, rfl⟩ := Option.map_eq_some_iff.1 h; trivial
  | bool => obtain ⟨b, -, rfl⟩ := Option.map_eq_some_iff.1 h; trivial
  | text => obtain rfl := Option.some.inj h; trivial

/-- A literal is stored as a value of the type, unless it stands for the time. -/
theorem coerce_holds {now : String} {a : Column} {l : Literal} {v : Value}
    (h : a.coerce now l = .ok v) :
    a.columnType.Holds v ∨ l.isGenerator = true ∧ v = .text now := by
  unfold coerce at h
  split at h
  · next hgenerator =>
    obtain rfl := Except.ok.inj h
    exact .inr ⟨hgenerator, rfl⟩
  · split at h
    · obtain rfl := Except.ok.inj h
      exact .inl a.columnType.holds_null
    · split at h
      · next w hw =>
        obtain rfl := Except.ok.inj h
        exact .inl (readLexeme?_holds hw)
      · cases h

theorem defaultValue_holds {now : String} {a : Column} {v : Value}
    (h : a.defaultValue now = .ok v) :
    a.columnType.Holds v ∨ a.storesTime none = true ∧ v = .text now := by
  unfold defaultValue at h
  unfold storesTime
  cases hdefault : a.default with
  | none =>
    rw [hdefault] at h
    obtain rfl := Except.ok.inj h
    exact .inl a.columnType.holds_null
  | some d =>
    rw [hdefault] at h
    cases d with
    | literal l => exact coerce_holds h
    | currentTime =>
      obtain rfl := Except.ok.inj h
      exact .inr ⟨rfl, rfl⟩

end Column

theorem Relation.newValue_holds {now : String} {r : Relation} {column : Column}
    {supplied : Option Literal} {v : Value} (hplain : column.autoIncrement = false)
    (h : r.newValue now column supplied = .ok v) :
    column.columnType.Holds v ∨ column.storesTime supplied = true ∧ v = .text now := by
  unfold newValue at h
  rw [if_neg (by simp [hplain])] at h
  cases supplied with
  | none => exact Column.defaultValue_holds h
  | some l => exact Column.coerce_holds h

/-! ### Operations -/

namespace Relation

section Filled

variable {P : Column → Value → Prop} {r next : Relation}

theorem Filled.new {t : Table} : Filled P { table := t } :=
  fun _ hrow => by cases hrow

/-- Rows that are left hold what they held. -/
theorem Filled.sublist (h : r.Filled P) {rows : List Row} (hrows : rows.Sublist r.rows) :
    Filled P { r with rows := rows } :=
  fun row hrow => h row (hrows.subset hrow)

/-- A new row holds what is made for its columns. -/
theorem Filled.insert {now : String} {columns : List String} {values : List Literal}
    {returning : Option String} {inserted : Inserted} (hr : r.Filled P)
    (h : r.insert now columns values returning = .ok (next, inserted))
    (hnew : ∀ column ∈ r.table.columns, ∀ v,
      r.newValue now column (supplied? columns values column.name) = .ok v → P column v) :
    next.Filled P := by
  obtain ⟨added, hadded, rfl⟩ := insert_eq_ok h
  intro row hrow i column v hcolumn hv
  rcases List.mem_append.1 hrow with hold | hnewRow
  · exact hr row hold i column v hcolumn hv
  · obtain rfl := List.mem_singleton.1 hnewRow
    exact hnew column (List.mem_of_getElem? hcolumn) v
      ((newRow_eq_ok _ hadded).2 i column v hcolumn hv).1

/-- After an assignment rows hold what was assigned, or what they held. -/
theorem Filled.updateWhere {now : String} {assignments : List (String × Literal)} {test : RowTest}
    {n : Nat} (hr : r.Filled P) (h : r.updateWhere now assignments test = .ok (next, n))
    (hnew : ∀ column l v, (column.name, l) ∈ assignments → column.coerce now l = .ok v →
      P column v) :
    next.Filled P := by
  obtain ⟨resolved, hits, hresolved, -, -, rfl, -⟩ := updateWhere_eq_ok h
  intro row hrow i column v hcolumn hv
  obtain ⟨⟨old, hit⟩, hmem, rfl⟩ := List.mem_map.1 hrow
  have hold := hr old (List.of_mem_zip hmem).1 i column
  cases hit with
  | false => exact hold v hcolumn hv
  | true =>
    -- the column holds the last value assigned to it, or what it held before
    dsimp only at hv
    rw [if_pos rfl, assign_getElem?] at hv
    obtain ⟨w, hw, rfl⟩ := Option.map_eq_some_iff.1 hv
    cases hlast : lastAssigned? resolved i with
    | none => exact hold w hcolumn hw
    | some v =>
      obtain ⟨other, l, hother, hassigned, hcoerce, -⟩ :=
        resolveAssignments_eq_ok _ hresolved i v (lastAssigned?_mem hlast)
      obtain rfl := Option.some.inj (hother.symm.trans hcolumn)
      exact hnew other l v hassigned hcoerce

/-- An index makes its column unique and leaves the rest of it. -/
theorem Filled.createIndex {index : Index} (hr : r.Filled P) (h : r.createIndex index = .ok next)
    (hP : ∀ column v, P column v → P { column with unique := true } v) : next.Filled P := by
  obtain ⟨-, -, ⟨-, rfl⟩ | ⟨-, position, -, -, -, rfl⟩⟩ := createIndex_eq_ok h
  · exact hr
  · intro row hrow i column v hcolumn hv
    dsimp only [setUnique] at hcolumn
    rw [List.getElem?_modify] at hcolumn
    obtain ⟨old, hold, rfl⟩ := Option.map_eq_some_iff.1 hcolumn
    have hholds := hr row hrow i old v hold hv
    split
    · exact hP old v hholds
    · exact hholds

/-- Where what is made for a column may stand in it, every operation keeps it so. -/
theorem Filled.change (hr : r.Filled P) (h : r.Change next)
    (hnew : ∀ (r : Relation) now column supplied v, r.newValue now column supplied = .ok v →
      P column v)
    (hcoerce : ∀ column now l v, column.coerce now l = .ok v → P column v)
    (hP : ∀ column v, P column v → P { column with unique := true } v) : next.Filled P := by
  cases h with
  | insert h => exact hr.insert h fun column _ v => hnew _ _ column _ v
  | delete h =>
    obtain ⟨hits, -, rfl, -⟩ := deleteWhere_eq_ok h
    exact hr.sublist (kept_sublist r.rows hits)
  | truncate => exact hr.sublist (List.nil_sublist _)
  | update h => exact hr.updateWhere h fun column l v _ => hcoerce column _ l v
  | index h => exact hr.createIndex h hP

end Filled

section Stamped

variable {S : Column → String → Prop} {r next : Relation}

theorem stamped_iff : r.Stamped S ↔ r.Filled fun column v => column.autoIncrement = false →
    column.columnType.Holds v ∨ ∃ text, v = .text text ∧ S column text :=
  ⟨fun h row hrow i column v hcolumn hv hplain => h row hrow i column v hcolumn hplain hv,
    fun h row hrow i column v hcolumn hplain hv => h row hrow i column v hcolumn hv hplain⟩

theorem Stamped.new {t : Table} : Stamped S { table := t } :=
  stamped_iff.2 .new

theorem Stamped.mono {T : Column → String → Prop} (h : r.Stamped S)
    (hST : ∀ column text, S column text → T column text) : r.Stamped T := by
  intro row hrow i column v hcolumn hplain hv
  rcases h row hrow i column v hcolumn hplain hv with hholds | ⟨text, hv, htime⟩
  · exact .inl hholds
  · exact .inr ⟨text, hv, hST column text htime⟩

theorem Stamped.sublist (h : r.Stamped S) {rows : List Row} (hrows : rows.Sublist r.rows) :
    Stamped S { r with rows := rows } :=
  stamped_iff.2 ((stamped_iff.1 h).sublist hrows)

/-- A new row holds the time where its literal or the default stands for it. -/
theorem Stamped.insert {now : String} {columns : List String} {values : List Literal}
    {returning : Option String} {inserted : Inserted} (hr : r.Stamped S)
    (h : r.insert now columns values returning = .ok (next, inserted))
    (hS : ∀ column ∈ r.table.columns,
      column.storesTime (supplied? columns values column.name) = true → S column now) :
    next.Stamped S := by
  refine stamped_iff.2 ((stamped_iff.1 hr).insert h fun column hcolumn v hv hplain => ?_)
  rcases newValue_holds hplain hv with hholds | ⟨htime, rfl⟩
  · exact .inl hholds
  · exact .inr ⟨now, rfl, hS column hcolumn htime⟩

/-- Rows hold the time after an assignment that stands for it. -/
theorem Stamped.updateWhere {now : String} {assignments : List (String × Literal)} {test : RowTest}
    {n : Nat} (hr : r.Stamped S) (h : r.updateWhere now assignments test = .ok (next, n))
    (hS : ∀ column l, (column.name, l) ∈ assignments → l.isGenerator = true → S column now) :
    next.Stamped S := by
  refine stamped_iff.2 ((stamped_iff.1 hr).updateWhere h fun column l v hassigned hcoerce _ => ?_)
  rcases Column.coerce_holds hcoerce with hholds | ⟨hgenerator, rfl⟩
  · exact .inl hholds
  · exact .inr ⟨now, rfl, hS column l hassigned hgenerator⟩

theorem Stamped.createIndex {index : Index} (hr : r.Stamped S)
    (h : r.createIndex index = .ok next)
    (hS : ∀ column text, S column text → S { column with unique := true } text) :
    next.Stamped S := by
  refine stamped_iff.2 ((stamped_iff.1 hr).createIndex h fun column v hholds hplain => ?_)
  rcases hholds hplain with hholds | ⟨text, rfl, htime⟩
  · exact .inl hholds
  · exact .inr ⟨text, rfl, hS column text htime⟩

end Stamped

end Relation

/-! ### What is stored -/

theorem Column.coerce_stores {now : String} {a : Column} {l : Literal} {v : Value}
    (h : a.coerce now l = .ok v) : a.columnType.Stores v := by
  rcases coerce_holds h with hholds | ⟨-, rfl⟩
  · exact hholds.stores
  · exact a.columnType.stores_time now

theorem Relation.newValue_stores {now : String} {r : Relation} {column : Column}
    {supplied : Option Literal} {v : Value} (h : r.newValue now column supplied = .ok v) :
    column.Stores v := by
  cases hauto : column.autoIncrement with
  | true =>
    unfold newValue at h
    rw [if_pos hauto] at h
    obtain rfl := Except.ok.inj h
    exact .inr ⟨hauto, _, rfl⟩
  | false =>
    rcases newValue_holds hauto h with hholds | ⟨-, rfl⟩
    · exact .inl hholds.stores
    · exact .inl (column.columnType.stores_time now)

/-! ## Top theorem -/

/-- Columns hold what their types store and the numbers of their rows, whatever statements are
executed. -/
theorem Catalog.Reachable.stored {c : Catalog} (h : c.Reachable) :
    ∀ name r, c.get? name = some r → r.Filled Column.Stores :=
  h.relation (fun _ => Relation.Filled.new) fun hr hchange =>
    hr.change hchange (fun _ _ _ _ _ => Relation.newValue_stores)
      (fun _ _ _ _ h => .inl (Column.coerce_stores h)) fun _ _ h => h

/-- Columns that do not number their rows hold what their types store. -/
theorem Catalog.Reachable.typed {c : Catalog} (h : c.Reachable) :
    ∀ name r, c.get? name = some r → r.Typed := by
  intro name r hr row hrow i column v hcolumn hplain hv
  rcases h.stored name r hr row hrow i column v hcolumn hv with hstores | ⟨hauto, -⟩
  · exact hstores
  · rw [hplain] at hauto
    cases hauto

end Tabula
