import Tabula.Statement

/-!
# Scopes

A scope lists the tables that a statement can see, in order, with the names of their columns.
`Scope.resolve` finds the column that a reference means and answers with its key, `table.column`.
A reference without a table has to mean a column of exactly one table.
-/

namespace Tabula

/-- The key of a column in a row that is put together from several tables. -/
def columnKey (table column : String) : String :=
  table ++ "." ++ column

/-- Tables in order, each with its columns. -/
structure Scope where
  tables : List (String × List String) := []
deriving DecidableEq, Repr

namespace Scope

/-- The columns of a table that can be seen. -/
def columns? (s : Scope) (table : String) : Option (List String) :=
  s.tables.lookup table

/-- Adds a table at the end.  A table that is there already is not added again. -/
def push (s : Scope) (table : String) (columns : List String) : Scope :=
  if (s.columns? table).isSome then s else ⟨s.tables ++ [(table, columns)]⟩

/-- A scope of tables given in order. -/
def ofList (tables : List (String × List String)) : Scope :=
  tables.foldl (fun s (table, columns) => s.push table columns) {}

/-- The tables that have a column of a name. -/
def owners (s : Scope) (column : String) : List String :=
  (s.tables.filter fun (_, columns) => columns.contains column).map (·.1)

/-- The key of the column that a reference means. -/
def resolve (s : Scope) (c : ColumnRef) : Except Fault String :=
  match c.table with
  | some table =>
    match s.columns? table with
    | none => .error (.noTable table)
    | some columns =>
      if columns.contains c.name then .ok (columnKey table c.name)
      else .error (.noColumn table c.name)
  | none =>
    match s.owners c.name with
    | [table] => .ok (columnKey table c.name)
    | [] => .error (.noColumn (String.intercalate ", " (s.tables.map (·.1))) c.name)
    | _ => .error (.ambiguous c.name)

/-- The key and the name of every column, table by table. -/
def allColumns (s : Scope) : List (String × String) :=
  s.tables.flatMap fun (table, columns) => columns.map fun c => (columnKey table c, c)

end Scope

end Tabula
