import Tabula.Fault
import Tabula.Literal
import Tabula.Text.Lowercase
import Tabula.Value

/-!
# Schemas

A table has a name and columns in order; an index names some of its columns.  `Table.make` refuses
two columns of one name.  `Column.coerce` turns a literal into the value that the column stores, by
the declared type: whole numbers, decimals, truth values, and for any other type name the text
itself.
-/

namespace Tabula

/-- What a column holds where an insertion supplies nothing. -/
inductive DefaultValue where
  | literal (l : Literal)
  /-- The time of the insertion. -/
  | currentTime
deriving DecidableEq, Repr

/-- A column of a table.  Type names are kept in lower case. -/
structure Column where
  name : String
  typeName : String
  autoIncrement : Bool := false
  unique : Bool := false
  notNull : Bool := false
  default : Option DefaultValue := none
deriving DecidableEq, Repr

/-- What a declared type stores. -/
inductive ColumnType where
  | integer
  | decimal
  | bool
  | text
deriving DecidableEq, Repr

/-- What a type name means: every name that is not listed stores texts. -/
def ColumnType.ofName (name : String) : ColumnType :=
  if ["int", "int64", "integer", "bigint", "smallint", "serial", "bigserial"].contains name then
    .integer
  else if ["numeric", "decimal", "float", "real", "double"].contains name then .decimal
  else if ["bool", "boolean"].contains name then .bool
  else .text

namespace Column

/-- A column without constraints, of a type in any case. -/
def ofType (name typeName : String) : Column :=
  { name, typeName := Text.lowercase typeName }

/-- What the column stores. -/
def columnType (a : Column) : ColumnType :=
  ColumnType.ofName a.typeName

/-- The truth value that a lexeme names, in any case. -/
def readBool? (lexeme : String) : Option Bool :=
  let word := Text.lowercase lexeme
  if ["true", "t", "1"].contains word then some true
  else if ["false", "f", "0"].contains word then some false
  else none

/-- The value of a lexeme as a type reads it. -/
def readLexeme? (type : ColumnType) (lexeme : String) : Option Value :=
  match type with
  | .integer => (Number.Whole.read? lexeme.toList).map .integer
  | .decimal => (Number.Decimal.read? lexeme.toList).map .decimal
  | .bool => (readBool? lexeme).map .bool
  | .text => some (.text lexeme)

/-- The value that a literal is stored as at a given time.  A literal that stands for the time is
stored as text whatever the type, and NULL is null. -/
def coerce (now : String) (a : Column) (l : Literal) : Except Fault Value :=
  if l.isGenerator then .ok (.text now)
  else if l.kind = .null then .ok .null
  else
    match readLexeme? a.columnType l.lexeme with
    | some v => .ok v
    | none => .error (.notCoercible l.lexeme a.typeName)

/-- The value stored where nothing was supplied. -/
def defaultValue (now : String) (a : Column) : Except Fault Value :=
  match a.default with
  | some .currentTime => .ok (.text now)
  | some (.literal l) => a.coerce now l
  | none => .ok .null

end Column

/-- A name and columns in order. -/
structure Table where
  name : String
  columns : List Column
deriving DecidableEq, Repr

namespace Table

/-- The first column that has the name of an earlier one, given the names seen so far. -/
def firstRepeated? (seen : List String) : List Column → Option String
  | [] => none
  | a :: rest => if seen.contains a.name then some a.name else firstRepeated? (a.name :: seen) rest

/-- A table whose columns have different names. -/
def make (name : String) (columns : List Column) : Except Fault Table :=
  match firstRepeated? [] columns with
  | some repeated => .error (.declaredTwice repeated)
  | none => .ok ⟨name, columns⟩

/-- The names of the columns, in order. -/
def columnNames (t : Table) : List String :=
  t.columns.map (·.name)

/-- The place of a column. -/
def position? (t : Table) (column : String) : Option Nat :=
  t.columns.findIdx? (·.name == column)

/-- The place of a column that has to be there. -/
def require (t : Table) (column : String) : Except Fault Nat :=
  match t.position? column with
  | some i => .ok i
  | none => .error (.noColumn t.name column)

end Table

/-- A column of an index; `nocase` asks for texts to be compared in lower case. -/
structure IndexColumn where
  name : String
  nocase : Bool
deriving DecidableEq, Repr

/-- What is known of an index.  It has no structure of its own: every search reads all rows. -/
structure Index where
  name : String
  columns : List IndexColumn
  unique : Bool
deriving DecidableEq, Repr

end Tabula
