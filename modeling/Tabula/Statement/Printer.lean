import Tabula.Statement
import Tabula.Text.Quoted

/-!
# From statements to text

Every statement has one printed form.  Names stand between double quotes and strings between single
quotes, so that no name is taken for a keyword and nothing in a string ends it; numbers and dates
stand between doubled dollars.  Optional parts that are missing are not written.

A statement is printed as pieces, with a blank between two pieces.
-/

namespace Tabula

/-- What is written between two blanks. -/
inductive Piece where
  /-- A keyword, a mark or a numeral as it stands. -/
  | plain (text : String)
  | name (s : String)
  | string (s : String)
  /-- A number or a date, as the dollars do not alter it. -/
  | dollar (s : String)
deriving DecidableEq, Repr

/-- The characters of a piece. -/
def Piece.text : Piece → String
  | .plain text => text
  | .name s => Text.quoted '"' s
  | .string s => Text.quoted '\x27' s
  | .dollar s => "$$" ++ s ++ "$$"

/-- Several keywords or marks. -/
def Piece.plains (texts : List String) : List Piece :=
  texts.map .plain

/-- Lists of pieces with commas between them. -/
def Piece.commaList : List (List Piece) → List Piece
  | [] => []
  | [item] => item
  | item :: rest => item ++ .plain "," :: commaList rest

/-- Pieces between parentheses. -/
def Piece.parenthesised (pieces : List Piece) : List Piece :=
  .plain "(" :: pieces ++ [.plain ")"]

/-- Pieces that are written only if something holds. -/
def Piece.whenever (condition : Bool) (texts : List String) : List Piece :=
  if condition then plains texts else []

/-- How a literal is written. -/
def Literal.piece (l : Literal) : Piece :=
  match l.kind with
  | .string => .string l.lexeme
  | .number => .dollar l.lexeme
  | .date => .dollar l.lexeme
  | .raw => .name l.lexeme
  | .bool => .plain l.lexeme
  | .null => .plain l.lexeme
  | .now => .plain l.lexeme
  | .localTimestamp => .plain l.lexeme

/-- How a reference to a column is written. -/
def ColumnRef.pieces (c : ColumnRef) : List Piece :=
  match c.table with
  | some table => [.name table, .plain ".", .name c.name]
  | none => [.name c.name]

namespace Piece

/-- Names with commas between them. -/
def names (ss : List String) : List Piece :=
  commaList (ss.map fun s => [.name s])

/-- Literals between parentheses. -/
def literals (ls : List Literal) : List Piece :=
  parenthesised (commaList (ls.map fun l => [l.piece]))

end Piece

/-! ## The parts of statements -/

/-- How a constraint is written. -/
def Constraint.pieces : Constraint → List Piece
  | .unique => Piece.plains ["UNIQUE"]
  | .notNull => Piece.plains ["NOT", "NULL"]
  | .primaryKey => Piece.plains ["PRIMARY", "KEY"]
  | .autoIncrement => Piece.plains ["AUTOINCREMENT"]
  | .default l => [.plain "DEFAULT", l.piece]

/-- How a declaration is written. -/
def ColumnDef.pieces (d : ColumnDef) : List Piece :=
  .name d.name :: .name d.typeName ::
    Piece.whenever d.withTimeZone ["WITH", "TIME", "ZONE"] ++
    d.constraints.flatMap Constraint.pieces

/-- How a column of an index is written. -/
def IndexColumn.pieces (c : IndexColumn) : List Piece :=
  .name c.name :: Piece.whenever c.nocase ["COLLATE", "NOCASE"]

/-- The mark of a comparison. -/
def CompareOp.mark : CompareOp → String
  | .eq => "="
  | .ne => "<>"
  | .lt => "<"
  | .gt => ">"
  | .le => "<="
  | .ge => ">="

/-- How a condition is written. -/
def Condition.pieces : Condition → List Piece
  | .always => [.plain "1"]
  | .compare column op value => column.pieces ++ [.plain op.mark, value.piece]
  | .oneOf column values negated =>
    column.pieces ++ Piece.whenever negated ["NOT"] ++ .plain "IN" :: Piece.literals values
  | .nullTest column negated =>
    column.pieces ++ .plain "IS" :: Piece.whenever negated ["NOT"] ++ [.plain "NULL"]

/-- Conditions after WHERE, if there are any. -/
def Condition.wherePieces : List Condition → List Piece
  | [] => []
  | c :: rest => .plain "WHERE" :: c.pieces ++ rest.flatMap fun d => .plain "AND" :: d.pieces

/-- How a column of an answer is written. -/
def Projection.pieces : Projection → List Piece
  | .star => [.plain "*"]
  | .column c => c.pieces
  | .count .star => .plain "COUNT" :: Piece.parenthesised [.plain "*"]
  | .count (.column c) => .plain "COUNT" :: Piece.parenthesised c.pieces

/-- How a join is written. -/
def Join.pieces (j : Join) : List Piece :=
  .plain "JOIN" :: .name j.table :: .plain "ON" :: j.left.pieces ++ .plain "=" :: j.right.pieces

/-- How a column to sort by is written. -/
def SortKey.pieces (k : SortKey) : List Piece :=
  k.column.pieces ++ Piece.whenever k.descending ["DESC"]

/-- A number after a keyword, if there is one. -/
def Piece.count (keyword : String) : Option Nat → List Piece
  | some n => plains [keyword, toString n]
  | none => []

/-! ## Statements -/

/-- How a CREATE TABLE is written. -/
def CreateTable.pieces (s : CreateTable) : List Piece :=
  let key := if s.primaryKey.isEmpty then []
    else [Piece.plains ["PRIMARY", "KEY"] ++ Piece.parenthesised (Piece.names s.primaryKey)]
  Piece.plains ["CREATE", "TABLE"] ++ Piece.whenever s.ifNotExists ["IF", "NOT", "EXISTS"] ++
    .name s.table :: Piece.parenthesised (Piece.commaList (s.columns.map ColumnDef.pieces ++ key))

/-- How a CREATE INDEX is written. -/
def CreateIndex.pieces (s : CreateIndex) : List Piece :=
  .plain "CREATE" :: Piece.whenever s.unique ["UNIQUE"] ++ .plain "INDEX" ::
    Piece.whenever s.ifNotExists ["IF", "NOT", "EXISTS"] ++
    [.name s.name, .plain "ON", .name s.table] ++
    Piece.parenthesised (Piece.commaList (s.columns.map IndexColumn.pieces))

/-- How an INSERT is written. -/
def Insert.pieces (s : Insert) : List Piece :=
  Piece.plains ["INSERT", "INTO"] ++ .name s.table :: Piece.parenthesised (Piece.names s.columns) ++
    .plain "VALUES" :: Piece.commaList (s.rows.map Piece.literals) ++
    match s.returning with
    | some column => [.plain "RETURNING", .name column]
    | none => []

/-- How the DISTINCT of a SELECT is written. -/
def Distinct.pieces : Distinct → List Piece
  | .all => [.plain "DISTINCT"]
  | .on columns =>
    Piece.plains ["DISTINCT", "ON"] ++
      Piece.parenthesised (Piece.commaList (columns.map ColumnRef.pieces))

/-- The projections that are written: those of DISTINCT ON are not written again. -/
def Select.ownProjections (s : Select) : List Projection :=
  match s.distinct with
  | some (.on columns) => s.projections.drop columns.length
  | _ => s.projections

/-- How a SELECT is written. -/
def Select.pieces (s : Select) : List Piece :=
  let orderBy := if s.orderBy.isEmpty then []
    else Piece.plains ["ORDER", "BY"] ++ Piece.commaList (s.orderBy.map SortKey.pieces)
  .plain "SELECT" :: (s.distinct.map Distinct.pieces).getD [] ++
    Piece.commaList (s.ownProjections.map Projection.pieces) ++
    .plain "FROM" :: Piece.names s.tables ++ s.joins.flatMap Join.pieces ++
    Condition.wherePieces s.conditions ++ orderBy ++ Piece.count "LIMIT" s.limit ++
    Piece.count "OFFSET" s.offset ++ Piece.whenever s.forUpdate ["FOR", "UPDATE"]

/-- How an UPDATE is written. -/
def Update.pieces (s : Update) : List Piece :=
  .plain "UPDATE" :: .name s.table :: .plain "SET" ::
    Piece.commaList (s.assignments.map fun (column, l) => [.name column, .plain "=", l.piece]) ++
    Condition.wherePieces s.conditions

/-- How a DELETE is written. -/
def Delete.pieces (s : Delete) : List Piece :=
  Piece.plains ["DELETE", "FROM"] ++ .name s.table :: Condition.wherePieces s.conditions

namespace Statement

/-- How a statement is written. -/
def pieces : Statement → List Piece
  | .createTable s => s.pieces
  | .createIndex s => s.pieces
  | .insert s => s.pieces
  | .select s => s.pieces
  | .update s => s.pieces
  | .delete s => s.pieces
  | .truncate table => Piece.plains ["TRUNCATE", "TABLE"] ++ [.name table]
  | .dropTable table ifExists =>
    Piece.plains ["DROP", "TABLE"] ++ Piece.whenever ifExists ["IF", "EXISTS"] ++ [.name table]
  | .grant => [.plain "GRANT"]

/-- The text of a statement. -/
def print (s : Statement) : String :=
  String.intercalate " " (s.pieces.map Piece.text)

/-- The text of statements, with semicolons between them. -/
def printAll (statements : List Statement) : String :=
  String.intercalate " ; " (statements.map print)

end Statement

end Tabula
