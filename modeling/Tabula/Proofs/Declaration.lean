import Mathlib.Data.List.Nodup
import Tabula.Proofs.Operations
import Tabula.Proofs.Reach

/-!
# What a table was declared to be

A relation that is in a catalog came there by one CREATE TABLE, and what is done to it afterwards
changes nothing in its table but which columns are unique.

* `CreateTable.define_notNull`: a table forbids nulls in the columns in which its definition does.
* `Relation.Change.plain`: the step; no operation changes what the definition says of the columns.
* `Statement.execute_origin`: a relation was there before a statement, or the statement created it.
* `Catalog.after_since`: the run; what a CREATE TABLE makes true and all statements keep.
* `Catalog.after_declared`: the CREATE TABLE since which a relation is there describes it.
-/

namespace Tabula

/-! ## Where nulls are forbidden -/

/-- Whether a declaration forbids nulls in its column. -/
def ColumnDef.ForbidsNull (d : ColumnDef) : Prop :=
  .notNull ∈ d.constraints ∨ .primaryKey ∈ d.constraints

/-- Whether a CREATE TABLE forbids nulls in a column: the declaration of the column does, or the
column is in the primary key of the table. -/
def CreateTable.ForbidsNull (s : CreateTable) (column : String) : Prop :=
  (∃ d ∈ s.columns, d.name = column ∧ d.ForbidsNull) ∨ column ∈ s.primaryKey

theorem Column.constrain_name (a : Column) (c : Constraint) : (a.constrain c).name = a.name := by
  cases c <;> rfl

theorem Column.constrain_notNull (a : Column) (c : Constraint) :
    (a.constrain c).notNull = true ↔ a.notNull = true ∨ c = .notNull ∨ c = .primaryKey := by
  cases c <;> simp [Column.constrain]

theorem Column.constrain_typeName (a : Column) (c : Constraint) :
    (a.constrain c).typeName = a.typeName := by
  cases c <;> rfl

theorem Column.constrain_autoIncrement (a : Column) (c : Constraint) :
    (a.constrain c).autoIncrement = true ↔ a.autoIncrement = true ∨ c = .autoIncrement := by
  cases c <;> simp [Column.constrain]

namespace ColumnDef

/-- What no constraint changes is what it was without constraints. -/
theorem column_keep {α : Type} {g : Column → α} (hg : ∀ a c, g (Column.constrain a c) = g a)
    (d : ColumnDef) : g d.column = g (.ofType d.name d.typeName) := by
  have hfold : ∀ (cs : List Constraint) (a : Column), g (cs.foldl Column.constrain a) = g a := by
    intro cs
    induction cs with
    | nil => intro a; rfl
    | cons c rest ih => intro a; exact (ih _).trans (hg a c)
  exact hfold d.constraints _

/-- What some constraints set is set if one of them is there. -/
theorem column_flag {flag : Column → Bool} {p : Constraint → Prop}
    (hflag : ∀ a c, flag (Column.constrain a c) = true ↔ flag a = true ∨ p c) (d : ColumnDef) :
    flag d.column = true ↔
      flag (.ofType d.name d.typeName) = true ∨ ∃ c ∈ d.constraints, p c := by
  have hfold : ∀ (cs : List Constraint) (a : Column),
      flag (cs.foldl Column.constrain a) = true ↔ flag a = true ∨ ∃ c ∈ cs, p c := by
    intro cs
    induction cs with
    | nil => intro a; simp
    | cons c rest ih =>
      intro a
      rw [List.foldl_cons, ih, hflag, List.exists_mem_cons_iff, or_assoc]
  exact hfold d.constraints _

theorem column_name (d : ColumnDef) : d.column.name = d.name :=
  column_keep Column.constrain_name d

theorem column_typeName (d : ColumnDef) : d.column.typeName = Text.lowercase d.typeName :=
  column_keep Column.constrain_typeName d

theorem column_notNull (d : ColumnDef) : d.column.notNull = true ↔ d.ForbidsNull := by
  rw [column_flag Column.constrain_notNull]
  simp [Column.ofType, ForbidsNull, and_or_left, exists_or]

theorem column_autoIncrement (d : ColumnDef) :
    d.column.autoIncrement = true ↔ .autoIncrement ∈ d.constraints := by
  rw [column_flag Column.constrain_autoIncrement]
  simp [Column.ofType]

end ColumnDef

/-! ## What a definition says of a column -/

/-- A primary key forbids nulls in its columns, and leaves the others as they were. -/
theorem Table.setKeys_notNull {sole : Bool} (keys : List String) :
    ∀ {t next : Table}, t.columnNames.Nodup → t.setKeys sole keys = .ok next →
      ∀ (position : Nat) (column : Column), t.columns[position]? = some column →
        ∃ keyed, next.columns[position]? = some keyed ∧ keyed.name = column.name ∧
          (keyed.notNull = true ↔ column.notNull = true ∨ column.name ∈ keys) := by
  induction keys with
  | nil =>
    intro t next _ h position column hcolumn
    obtain rfl := Except.ok.inj h
    exact ⟨column, hcolumn, rfl, by simp⟩
  | cons key rest ih =>
    intro t next hnames h position column hcolumn
    simp only [setKeys, bind_eq_ok] at h
    obtain ⟨place, hplace, h⟩ := h
    rw [require_eq_ok] at hplace
    have hsame : (t.setKey sole place).columnNames = t.columnNames :=
      t.modify_columnNames place fun _ => rfl
    have hat : (t.setKey sole place).columns[position]? =
        some (if place = position then
          { column with notNull := true, unique := column.unique || sole } else column) := by
      rw [setKey, List.getElem?_modify, hcolumn]
      split <;> rfl
    -- the key that is set stands where the column does, or names another one
    have hkey : place = position ↔ column.name = key := by
      have hposition := position?_eq_of_nodup hnames hcolumn
      constructor
      · rintro rfl
        obtain ⟨column', hcolumn', hname⟩ := position?_eq_some hplace
        obtain rfl := Option.some.inj (hcolumn.symm.trans hcolumn')
        exact hname
      · rintro rfl
        exact Option.some.inj (hplace.symm.trans hposition)
    obtain ⟨keyed, hkeyed, hname, hnull⟩ := ih (hsame ▸ hnames) h position _ hat
    refine ⟨keyed, hkeyed, ?_, ?_⟩
    · rw [hname]
      split <;> rfl
    · rw [hnull, List.mem_cons, ← hkey]
      by_cases hp : place = position <;> simp [hp]

namespace CreateTable

/-- The columns of the table are those that are declared, in order. -/
theorem define_columnNames {s : CreateTable} {t : Table} (h : s.define = .ok t) :
    t.columnNames = s.columns.map (·.name) := by
  simp only [define, bind_eq_ok] at h
  obtain ⟨made, hmake, hkeys⟩ := h
  rw [(Table.setKeys_eq_ok _ hkeys).2, (Table.make_eq_ok hmake).1, Table.columnNames, List.map_map]
  exact List.map_congr_left fun d _ => d.column_name

/-- The table forbids nulls in the columns in which its definition does, and in no others. -/
theorem define_notNull {s : CreateTable} {t : Table} (h : s.define = .ok t) {position : Nat}
    {column : Column} (hcolumn : t.columns[position]? = some column) :
    column.notNull = true ↔ s.ForbidsNull column.name := by
  have hnames := define_columnNames h
  have hnodup := define_columnNames_nodup h
  simp only [define, bind_eq_ok] at h
  obtain ⟨made, hmake, hkeys⟩ := h
  obtain ⟨rfl, hmade⟩ := Table.make_eq_ok hmake
  obtain ⟨d, hd⟩ : ∃ d, s.columns[position]? = some d := by
    have hat := Table.columnNames_getElem? hcolumn
    rw [hnames, List.getElem?_map, Option.map_eq_some_iff] at hat
    obtain ⟨d, hd, -⟩ := hat
    exact ⟨d, hd⟩
  obtain ⟨keyed, hkeyed, hname, hnull⟩ := Table.setKeys_notNull _ hmade hkeys position d.column
    (by rw [List.getElem?_map, hd]; rfl)
  obtain rfl := Option.some.inj (hcolumn.symm.trans hkeyed)
  rw [hnull, hname, d.column_name, d.column_notNull]
  -- no other declaration has this name
  have hsole : ∀ d' ∈ s.columns, d'.name = d.name → d' = d := fun d' hd' hsame =>
    List.inj_on_of_nodup_map (hnames ▸ hnodup) hd' (List.mem_of_getElem? hd) hsame
  constructor
  · rintro (hforbids | hkey)
    · exact Or.inl ⟨d, List.mem_of_getElem? hd, rfl, hforbids⟩
    · exact Or.inr hkey
  · rintro (⟨d', hd', hsame, hforbids⟩ | hkey)
    · exact Or.inl (hsole d' hd' hsame ▸ hforbids)
    · exact Or.inr hkey

end CreateTable

/-! ## What no operation changes -/

/-- A table with nothing said of which of its columns are unique. -/
def Table.plain (t : Table) : Table :=
  { t with columns := t.columns.map fun c => { c with unique := false } }

theorem Table.name_of_plain {t u : Table} (h : t.plain = u.plain) : t.name = u.name :=
  (Table.mk.inj h).1

theorem Table.columnNames_of_plain {t u : Table} (h : t.plain = u.plain) :
    t.columnNames = u.columnNames := by
  have hnames : ∀ t : Table, t.plain.columnNames = t.columnNames := by
    intro t
    unfold plain columnNames
    rw [List.map_map]
    rfl
  rw [← hnames t, h, hnames u]

/-- Tables that differ in their unique columns only forbid nulls at the same places. -/
theorem Table.notNull_of_plain {t u : Table} (h : t.plain = u.plain) {position : Nat}
    {column : Column} (hcolumn : t.columns[position]? = some column) :
    ∃ other, u.columns[position]? = some other ∧ other.name = column.name ∧
      other.notNull = column.notNull := by
  have hat : t.plain.columns[position]? = u.plain.columns[position]? := by rw [h]
  unfold plain at hat
  rw [List.getElem?_map, List.getElem?_map, hcolumn, Option.map_some] at hat
  obtain ⟨other, hother, hsame⟩ := Option.map_eq_some_iff.1 hat.symm
  refine ⟨other, hother, ?_, ?_⟩
  · exact (Column.mk.inj hsame).1
  · exact (Column.mk.inj hsame).2.2.2.2.1

theorem Table.setUnique_plain (t : Table) (position : Nat) :
    (Relation.setUnique t position).plain = t.plain :=
  congrArg (Table.mk t.name) (map_modify t.columns position fun _ => rfl)

theorem Relation.Change.plain {r next : Relation} (h : r.Change next) :
    next.table.plain = r.table.plain := by
  cases h with
  | insert h =>
    obtain ⟨row, -, rfl⟩ := insert_eq_ok h
    rfl
  | delete h =>
    obtain ⟨hits, -, rfl, -⟩ := deleteWhere_eq_ok h
    rfl
  | truncate => rfl
  | update h =>
    obtain ⟨resolved, hits, -, -, -, rfl, -⟩ := updateWhere_eq_ok h
    rfl
  | index h =>
    obtain ⟨-, -, ⟨-, rfl⟩ | ⟨-, position, -, -, -, rfl⟩⟩ := createIndex_eq_ok h
    · rfl
    · exact r.table.setUnique_plain position

theorem Relation.Changes.plain {r next : Relation} (h : r.Changes next) :
    next.table.plain = r.table.plain := by
  apply h.keep (P := fun reached => reached.table.plain = r.table.plain) _ rfl
  intro reached last hreached hlast
  exact hlast.plain.trans hreached

/-! ## Where a relation comes from -/

/-- A statement other than a CREATE TABLE does nothing to a table that is not there. -/
theorem Statement.execute_of_missing (times : Times) {s : Statement} {c : Catalog} {name : String}
    (hs : ∀ d, s ≠ .createTable d) (htarget : s.target? = some name) (hnone : c.get? name = none) :
    (s.execute times c).catalog = c := by
  rw [execute_catalog]
  cases s with
  | createTable d => exact absurd rfl (hs d)
  | createIndex d =>
    obtain rfl := Option.some.inj htarget
    exact congrArg Outcome.catalog (Outcome.ofAction_within_of_none _ _ hnone)
  | insert d =>
    obtain rfl := Option.some.inj htarget
    exact congrArg Outcome.catalog (Outcome.ofAction_within_of_none _ _ hnone)
  | select d => cases htarget
  | update d =>
    obtain rfl := Option.some.inj htarget
    exact congrArg Outcome.catalog (Outcome.ofAction_within_of_none _ _ hnone)
  | delete d =>
    obtain rfl := Option.some.inj htarget
    show (Outcome.ofAction (d.execute (times 0)) c).catalog = c
    unfold Delete.execute
    split
    · exact congrArg Outcome.catalog (Outcome.ofAction_within_of_none _ _ hnone)
    · exact congrArg Outcome.catalog (Outcome.ofAction_within_of_none _ _ hnone)
  | truncate table =>
    obtain rfl := Option.some.inj htarget
    exact congrArg Outcome.catalog (Outcome.ofAction_within_of_none _ _ hnone)
  | dropTable table ifExists =>
    obtain rfl := Option.some.inj htarget
    have hget : c.get table = .error (.noTable table) := by
      unfold Catalog.get
      rw [hnone]
    show (Outcome.ofAction (Catalog.dropTable table) c).catalog = c
    rw [Outcome.ofAction_catalog]
    refine Catalog.atomic_dropTable table c (.noTable table) ?_
    rw [Catalog.dropTable_reach, Catalog.drop_eq, hget]
    rfl
  | grant => cases htarget

/-- A relation that is there after a CREATE TABLE was created by it, or was there before. -/
theorem CreateTable.execute_origin {s : CreateTable} {c : Catalog} {name : String} {r : Relation}
    (h : (Outcome.ofAction s.execute c).catalog.get? name = some r) :
    (∃ t, s.table = name ∧ c.get? name = none ∧ s.define = .ok t ∧ r = { table := t }) ∨
      c.get? name = some r := by
  rcases Outcome.ofAction_cases s.atomic_execute c with hc | ⟨next, frames, hx, hc⟩
  · exact Or.inr (hc ▸ h)
  · simp only [execute_reach, bind_eq_ok, pure_eq_ok, Prod.mk.injEq] at hx
    obtain ⟨t, ht, next', hcreate, rfl, -⟩ := hx
    have hname : t.name = s.table := define_name ht
    rw [Catalog.create_eq] at hcreate
    unfold Catalog.contains at hcreate
    split at hcreate
    · cases hcreate
    · next hnone =>
      obtain rfl := Except.ok.inj hcreate
      have h : (c.set t.name { table := t }).get? name = some r := hc ▸ h
      rw [Catalog.get?_set] at h
      split at h
      · next heq =>
        obtain rfl := Option.some.inj h
        rw [← heq] at hnone
        exact Or.inl ⟨t, hname ▸ heq.symm, by simpa using hnone, ht, rfl⟩
      · exact Or.inr h

/-- A relation that is there after a change to one that was there before is what operations made of
it, or another one. -/
theorem Catalog.Change.origin {target name : String} {c next : Catalog} {r : Relation}
    (hchange : Catalog.Change target c next) (hthere : c.get? target ≠ none)
    (h : next.get? name = some r) : ∃ old, c.get? name = some old ∧ old.Changes r := by
  cases hchange with
  | create _ _ hnew => exact absurd hnew hthere
  | alter hold hchanges =>
    rw [Catalog.get?_set] at h
    split at h
    · next heq =>
      obtain rfl := Option.some.inj h
      exact ⟨_, heq ▸ hold, hchanges⟩
    · exact ⟨r, h, .refl⟩
  | drop =>
    rw [Catalog.get?_erase] at h
    split at h
    · cases h
    · exact ⟨r, h, .refl⟩

/-- A relation that is there after a statement was created by it, or is what operations made of the
one that was there before. -/
theorem Statement.execute_origin {times : Times} {s : Statement} {c : Catalog} {name : String}
    {r : Relation} (h : (s.execute times c).catalog.get? name = some r) :
    (∃ d t, s = .createTable d ∧ d.table = name ∧ c.get? name = none ∧ d.define = .ok t ∧
        r = { table := t }) ∨
      ∃ old, c.get? name = some old ∧ old.Changes r := by
  by_cases hs : ∃ d, s = .createTable d
  · obtain ⟨d, rfl⟩ := hs
    rw [execute_catalog] at h
    rcases CreateTable.execute_origin h with ⟨t, hname, hnone, ht, hr⟩ | hsame
    · exact Or.inl ⟨d, t, rfl, hname, hnone, ht, hr⟩
    · exact Or.inr ⟨r, hsame, .refl⟩
  · right
    have hs : ∀ d, s ≠ .createTable d := fun d heq => hs ⟨d, heq⟩
    rcases s.execute_change times c with hsame | ⟨target, htarget, hchange⟩
    · exact ⟨r, hsame ▸ h, .refl⟩
    · by_cases hnone : c.get? target = none
      · exact ⟨r, execute_of_missing times hs htarget hnone ▸ h, .refl⟩
      · exact hchange.origin hnone h

/-- A relation that is there before and after a statement is changed by operations at most. -/
theorem Statement.execute_changes {times : Times} {s : Statement} {c : Catalog} {name : String}
    {old r : Relation} (hold : c.get? name = some old)
    (h : (s.execute times c).catalog.get? name = some r) : old.Changes r := by
  rcases Statement.execute_origin h with ⟨d, t, -, -, hnone, -⟩ | ⟨other, hother, hchanges⟩
  · rw [hold] at hnone
    cases hnone
  · obtain rfl := Option.some.inj (hold.symm.trans hother)
    exact hchanges

/-! ## Runs -/

namespace Catalog

/-- A CREATE TABLE that comes after some statements and before the rest makes the table of a name:
there is none before it, and there is one ever since. -/
structure Made (name : String) (before : List (Times × Statement)) (times : Times)
    (d : CreateTable) (rest : List (Times × Statement)) : Prop where
  named : d.table = name
  new : (after before).get? name = none
  since : ∀ middle, middle <+: rest →
    (after (before ++ (times, .createTable d) :: middle)).contains name = true

/-- A CREATE TABLE of a script makes the table of a name. -/
def Declares (script : List (Times × Statement)) (name : String) (d : CreateTable) : Prop :=
  ∃ before times rest, script = before ++ (times, .createTable d) :: rest ∧
    Made name before times d rest

/-- What holds of a table when it is created, and is kept by every statement that it is there before
and after, holds of every table that is there after a script. -/
theorem after_since {P : CreateTable → List (Times × Statement) → Relation → Prop} {name : String}
    (new : ∀ {d t}, d.define = .ok t → P d [] { table := t })
    (keep : ∀ {d rest times s c old r}, P d rest old → c.get? name = some old →
      (Statement.execute times s c).catalog.get? name = some r → P d (rest ++ [(times, s)]) r)
    (script : List (Times × Statement)) :
    ∀ {r : Relation}, (after script).get? name = some r →
      ∃ before times d rest, script = before ++ (times, .createTable d) :: rest ∧
        Made name before times d rest ∧ P d rest r := by
  induction script using List.reverseRecOn with
  | nil => intro r hr; cases hr
  | append_singleton front step ih =>
    obtain ⟨times, s⟩ := step
    intro r hr
    have hthere : (after (front ++ [(times, s)])).contains name = true := by
      rw [contains, hr]
      rfl
    have hexecuted := hr
    rw [after_concat] at hexecuted
    rcases Statement.execute_origin hexecuted with
      ⟨d, t, rfl, hname, hnone, ht, rfl⟩ | ⟨old, hold, -⟩
    · refine ⟨front, times, d, [], rfl, ⟨hname, hnone, fun middle hmiddle => ?_⟩, new ht⟩
      rw [List.prefix_nil.1 hmiddle]
      exact hthere
    · obtain ⟨before, created, d, rest, rfl, hmade, hP⟩ := ih hold
      refine ⟨before, created, d, rest ++ [(times, s)], ?_, ⟨hmade.named, hmade.new, ?_⟩,
        keep hP hold hexecuted⟩
      · rw [List.append_assoc, List.cons_append]
      · intro middle hmiddle
        rcases List.prefix_concat_iff.1 hmiddle with rfl | hearlier
        · rw [List.append_assoc, List.cons_append] at hthere
          exact hthere
        · exact hmade.since middle hearlier

/-- A table that is there after a script is the one that a CREATE TABLE of the script describes, but
for which of its columns are unique. -/
theorem after_declared (script : List (Times × Statement)) {name : String} {r : Relation}
    (hr : (after script).get? name = some r) :
    ∃ d t, Declares script name d ∧ d.define = .ok t ∧ r.table.plain = t.plain := by
  obtain ⟨before, times, d, rest, hscript, hmade, t, ht, hplain⟩ :=
    after_since (P := fun d _ r => ∃ t, d.define = .ok t ∧ r.table.plain = t.plain)
      (fun ht => ⟨_, ht, rfl⟩)
      (fun ⟨t, ht, hplain⟩ hold hr =>
        ⟨t, ht, (Statement.execute_changes hold hr).plain.trans hplain⟩) script hr
  exact ⟨d, t, ⟨before, times, rest, hscript, hmade⟩, ht, hplain⟩

/-- A relation stands under the name of its own table. -/
theorem Reachable.table_name {c : Catalog} (h : c.Reachable) {name : String} {r : Relation}
    (hr : c.get? name = some r) : r.table.name = name := by
  obtain ⟨script, rfl⟩ := h.exists_script
  obtain ⟨d, t, ⟨before, times, rest, -, hmade⟩, ht, hplain⟩ := after_declared script hr
  rw [Table.name_of_plain hplain, CreateTable.define_name ht, hmade.named]

end Catalog

end Tabula
