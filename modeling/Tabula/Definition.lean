import Tabula.Statement

/-!
# Definitions of tables and indexes

The table that a CREATE TABLE describes and the index that a CREATE INDEX describes.  A primary key
forbids nulls; a key of one column also makes that column unique, while the combination of several
is not watched.
-/

namespace Tabula

/-- The default that a literal stands for. -/
def DefaultValue.ofLiteral (l : Literal) : DefaultValue :=
  if l.isGenerator then .currentTime else .literal l

/-- A column with one more constraint. -/
def Column.constrain (a : Column) : Constraint → Column
  | .unique => { a with unique := true }
  | .notNull => { a with notNull := true }
  | .primaryKey => { a with unique := true, notNull := true }
  | .autoIncrement => { a with autoIncrement := true }
  | .default l => { a with default := some (.ofLiteral l) }

/-- The column that a declaration describes, the last default counting. -/
def ColumnDef.column (d : ColumnDef) : Column :=
  d.constraints.foldl Column.constrain (.ofType d.name d.typeName)

/-- A table with a column that forbids nulls, and is unique if it is `sole` in its key. -/
def Table.setKey (t : Table) (sole : Bool) (position : Nat) : Table :=
  { t with columns := t.columns.modify position fun a =>
      { a with notNull := true, unique := a.unique || sole } }

/-- A table with the columns of a primary key. -/
def Table.setKeys (t : Table) (sole : Bool) : List String → Except Fault Table
  | [] => .ok t
  | name :: rest => do
    let position ← t.require name
    (t.setKey sole position).setKeys sole rest

/-- The table that is described. -/
def CreateTable.define (s : CreateTable) : Except Fault Table := do
  let t ← Table.make s.table (s.columns.map (·.column))
  t.setKeys (s.primaryKey.length == 1) s.primaryKey

/-- The index that is described. -/
def CreateIndex.define (s : CreateIndex) : Index :=
  ⟨s.name, s.columns, s.unique⟩

end Tabula
