import Tabula.Schema

/-!
# Statements

What a statement says, once read: nine kinds, and the parts they are made of.  The clause of a
statement names the handler that executes it; a statement with IF [NOT] EXISTS has the clause IF,
and its unguarded clause is that of the statement without the guard.
-/

namespace Tabula

/-- A column, perhaps with the table it belongs to. -/
structure ColumnRef where
  table : Option String
  name : String
deriving DecidableEq, Repr

/-- The text of a reference: `name` or `table.name`. -/
def ColumnRef.text (c : ColumnRef) : String :=
  match c.table with
  | some table => table ++ "." ++ c.name
  | none => c.name

/-- How a column is compared with a literal. -/
inductive CompareOp where
  | eq
  | ne
  | lt
  | gt
  | le
  | ge
deriving DecidableEq, Repr

/-- One of the conditions that a row has to meet. -/
inductive Condition where
  /-- `1`, `1 = 1`, or no condition at all. -/
  | always
  | compare (column : ColumnRef) (op : CompareOp) (value : Literal)
  | oneOf (column : ColumnRef) (values : List Literal) (negated : Bool)
  | nullTest (column : ColumnRef) (negated : Bool)
deriving DecidableEq, Repr

/-- What a column is declared to be. -/
inductive Constraint where
  | unique
  | notNull
  | primaryKey
  | autoIncrement
  | default (l : Literal)
deriving DecidableEq, Repr

/-- The declaration of a column. -/
structure ColumnDef where
  name : String
  /-- The type name as written. -/
  typeName : String
  withTimeZone : Bool
  constraints : List Constraint
deriving DecidableEq, Repr

/-- `CREATE TABLE` -/
structure CreateTable where
  table : String
  ifNotExists : Bool
  columns : List ColumnDef
  /-- The columns of all `PRIMARY KEY (...)` clauses. -/
  primaryKey : List String
deriving DecidableEq, Repr

/-- `CREATE [UNIQUE] INDEX` -/
structure CreateIndex where
  name : String
  table : String
  unique : Bool
  ifNotExists : Bool
  columns : List IndexColumn
deriving DecidableEq, Repr

/-- `INSERT INTO` -/
structure Insert where
  table : String
  columns : List String
  rows : List (List Literal)
  returning : Option String
deriving DecidableEq, Repr

/-- What is counted. -/
inductive CountArg where
  | star
  | column (c : ColumnRef)
deriving DecidableEq, Repr

/-- One of the columns of an answer. -/
inductive Projection where
  | star
  | column (c : ColumnRef)
  | count (arg : CountArg)
deriving DecidableEq, Repr

/-- Which rows of an answer count as the same. -/
inductive Distinct where
  | all
  /-- Rows with the same values of the columns, which are also projected first. -/
  | on (columns : List ColumnRef)
deriving DecidableEq, Repr

/-- `JOIN table ON left = right` -/
structure Join where
  table : String
  left : ColumnRef
  right : ColumnRef
deriving DecidableEq, Repr

/-- One of the columns that an answer is sorted by. -/
structure SortKey where
  column : ColumnRef
  descending : Bool
deriving DecidableEq, Repr

/-- `SELECT` -/
structure Select where
  distinct : Option Distinct
  projections : List Projection
  tables : List String
  joins : List Join
  conditions : List Condition
  orderBy : List SortKey
  limit : Option Nat
  offset : Option Nat
  forUpdate : Bool
deriving DecidableEq, Repr

/-- `UPDATE` -/
structure Update where
  table : String
  assignments : List (String × Literal)
  conditions : List Condition
deriving DecidableEq, Repr

/-- `DELETE FROM`.  Without a condition every row is deleted. -/
structure Delete where
  table : String
  conditions : List Condition
deriving DecidableEq, Repr

/-- A statement. -/
inductive Statement where
  | createTable (s : CreateTable)
  | createIndex (s : CreateIndex)
  | insert (s : Insert)
  | select (s : Select)
  | update (s : Update)
  | delete (s : Delete)
  | truncate (table : String)
  | dropTable (table : String) (ifExists : Bool)
  /-- Accepted and without effect. -/
  | grant
deriving DecidableEq, Repr

/-- What a statement begins with, or its guard. -/
inductive Clause where
  | create
  | select
  | insert
  | delete
  | update
  | truncate
  | drop
  | grant
  | guard
deriving DecidableEq, Repr

/-- The keyword of a clause. -/
def Clause.text : Clause → String
  | .create => "CREATE"
  | .select => "SELECT"
  | .insert => "INSERT"
  | .delete => "DELETE"
  | .update => "UPDATE"
  | .truncate => "TRUNCATE"
  | .drop => "DROP"
  | .grant => "GRANT"
  | .guard => "IF"

/-- Every clause. -/
def Clause.all : List Clause :=
  [.create, .select, .insert, .delete, .update, .truncate, .drop, .grant, .guard]

namespace Statement

/-- The clause of a statement without its guard. -/
def unguardedClause : Statement → Clause
  | .createTable _ => .create
  | .createIndex _ => .create
  | .insert _ => .insert
  | .select _ => .select
  | .update _ => .update
  | .delete _ => .delete
  | .truncate _ => .truncate
  | .dropTable _ _ => .drop
  | .grant => .grant

/-- Whether the statement has a guard. -/
def isGuarded : Statement → Bool
  | .createTable s => s.ifNotExists
  | .createIndex s => s.ifNotExists
  | .dropTable _ ifExists => ifExists
  | _ => false

/-- The clause by which a statement is executed. -/
def clause (s : Statement) : Clause :=
  if s.isGuarded then .guard else s.unguardedClause

end Statement

end Tabula
