import Tabula.Statement
import Tabula.Token.Lexer

/-!
# From tokens to statements

A `Reader` takes a part of a statement off the beginning of a list of tokens, or says where it is
stuck.  There is one for each part of the grammar, and one loop, `Reader.many`, for everything that
repeats.  `Statement.parse` reads a whole text, with semicolons between the statements.

Main statement: `many` ends because it goes on only while tokens are taken.
-/

namespace Tabula

/-- Where reading came to a stop: what was wanted, and the tokens from there on. -/
structure Stuck where
  message : String
  rest : List Token
deriving DecidableEq, Repr

/-- The fault, which shows the token with its neighbours. -/
def Stuck.fault (tokens : List Token) (s : Stuck) : Fault :=
  let before := match tokens.length - s.rest.length with
    | 0 => ""
    | n + 1 => match tokens[n]? with
      | some t => t.lexeme ++ " "
      | none => ""
  let here := match s.rest with
    | t :: _ => "[" ++ t.lexeme ++ "]"
    | [] => "[end of input]"
  let after := match s.rest with
    | _ :: t :: _ => " " ++ t.lexeme
    | _ => ""
  .ungrammatical (before ++ here ++ after) s.message

/-- Takes a part of a statement off the beginning of a list of tokens. -/
abbrev Reader (α : Type) := StateT (List Token) (Except Stuck) α

namespace Reader

/-! ## Single tokens -/

/-- The reader is stuck here. -/
def stop {α : Type} (message : String) : Reader α :=
  fun tokens => .error ⟨message, tokens⟩

/-- The token that comes next. -/
def peek? : Reader (Option Token) :=
  fun tokens => .ok (tokens.head?, tokens)

/-- The kind of the token that comes next. -/
def peekKind? : Reader (Option TokenKind) :=
  fun tokens => .ok (tokens.head?.map (·.kind), tokens)

/-- The kind of the token after the next. -/
def peekSecond? : Reader (Option TokenKind) :=
  fun tokens => .ok (tokens[1]?.map (·.kind), tokens)

/-- Whether all tokens have been read. -/
def atEnd : Reader Bool :=
  fun tokens => .ok (tokens.isEmpty, tokens)

/-- Passes over one token. -/
def advance : Reader Unit :=
  fun tokens => .ok ((), tokens.tail)

/-- Passes over a token of a kind, if there is one here. -/
def accept (kind : TokenKind) : Reader Bool :=
  fun tokens =>
    match tokens with
    | t :: rest => if t.kind = kind then .ok (true, rest) else .ok (false, tokens)
    | [] => .ok (false, [])

/-- Passes over a keyword, if it is here. -/
def acceptWord (k : Keyword) : Reader Bool :=
  accept (.keyword k)

/-- Passes over a token of a kind, which has to be here. -/
def expect (kind : TokenKind) : Reader Unit := do
  if !(← accept kind) then stop ("expected " ++ kind.name)

/-- Passes over a keyword, which has to be here. -/
def expectWord (k : Keyword) : Reader Unit :=
  expect (.keyword k)

/-- Passes over all tokens up to one of a kind. -/
def skipUntil (kind : TokenKind) : Reader Unit :=
  fun tokens => .ok ((), tokens.dropWhile (·.kind != kind))

/-- Passes over all tokens of a kind, and says how many there were. -/
def skipAll (kind : TokenKind) : Reader Nat :=
  fun tokens =>
    let run := tokens.takeWhile (·.kind == kind)
    .ok (run.length, tokens.drop run.length)

/-! ## Repetition -/

/-- Reads items until there is none, or until an item takes no token. -/
def many {α : Type} (item? : Reader (Option α)) (tokens : List Token) :
    Except Stuck (List α × List Token) :=
  match item? tokens with
  | .error e => .error e
  | .ok (none, rest) => .ok ([], rest)
  | .ok (some x, rest) =>
    if rest.length < tokens.length then
      match many item? rest with
      | .error e => .error e
      | .ok (xs, rest) => .ok (x :: xs, rest)
    else .ok ([x], rest)
termination_by tokens.length

/-- Reads an item if a reader says that there is one. -/
def optional {α : Type} (present : Reader Bool) (item : Reader α) : Reader (Option α) := do
  if ← present then return some (← item) else return none

/-- Reads one item, and another as often as a reader says that there is one more. -/
def separated {α : Type} (more : Reader Bool) (item : Reader α) : Reader (List α) := do
  let first ← item
  let rest ← many (optional more item)
  return first :: rest

/-- Reads items with commas between them. -/
def commaList {α : Type} (item : Reader α) : Reader (List α) :=
  separated (accept .comma) item

/-- Reads something between parentheses. -/
def parenthesised {α : Type} (inner : Reader α) : Reader α := do
  expect .lparen
  let x ← inner
  expect .rparen
  return x

/-! ## Names and values -/

/-- Whether a token with those after it is a name: a word that is no keyword, a quoted one, or a
keyword that may name something.  COUNT may, unless a parenthesis follows. -/
def isName (t : Token) (rest : List Token) : Bool :=
  match t.kind with
  | .identifier => true
  | .quotedIdent => true
  | .keyword .count => rest.head?.map (·.kind) != some .lparen
  | .keyword k => k.isSoft
  | _ => false

/-- A name. -/
def name : Reader String :=
  fun tokens =>
    match tokens with
    | t :: rest =>
      if isName t rest then .ok (t.lexeme, rest) else .error ⟨"expected identifier", tokens⟩
    | [] => .error ⟨"expected identifier", []⟩

/-- A column, perhaps with its table. -/
def columnRef : Reader ColumnRef := do
  let first ← name
  if ← accept .period then return ⟨some first, ← name⟩ else return ⟨none, first⟩

/-- The literal that a token is, bare words left out. -/
def literalOf? (t : Token) : Option Literal :=
  match t.kind with
  | .string => some ⟨.string, t.lexeme⟩
  | .number => some ⟨.number, t.lexeme⟩
  | .date => some ⟨.date, t.lexeme⟩
  | .keyword .trueWord => some ⟨.bool, Text.lowercase t.lexeme⟩
  | .keyword .falseWord => some ⟨.bool, Text.lowercase t.lexeme⟩
  | .keyword .null => some ⟨.null, "null"⟩
  | .now => some ⟨.now, t.lexeme⟩
  | .keyword .localTimestamp => some ⟨.localTimestamp, t.lexeme⟩
  | _ => none

/-- The literal that a token is, where a bare word stands for itself. -/
def valueOf? (t : Token) : Option Literal :=
  match t.kind with
  | .identifier => some ⟨.raw, t.lexeme⟩
  | .quotedIdent => some ⟨.raw, t.lexeme⟩
  | _ => literalOf? t

/-- Reads a token that is a literal. -/
def literalBy (read? : Token → Option Literal) : Reader Literal := do
  match (← peek?).bind read? with
  | some l =>
    advance
    return l
  | none => stop "expected default value"

/-- The literal of a DEFAULT. -/
def defaultLiteral : Reader Literal :=
  literalBy literalOf?

/-- A literal, or a bare word. -/
def value : Reader Literal :=
  literalBy valueOf?

/-- Passes over `IF NOT EXISTS`, if it is here. -/
def ifNotExists : Reader Bool := do
  if ← acceptWord .ifWord then
    expectWord .not
    expectWord .existsWord
    return true
  else return false

/-! ## CREATE -/

/-- What may follow the type of a column. -/
inductive ColumnOption where
  | constraint (c : Constraint)
  /-- `NULL`, which says nothing. -/
  | nullable
  | timeZone
deriving DecidableEq, Repr

/-- A type name; a size after it is passed over. -/
def typeName : Reader String := do
  let type ← name
  if ← accept .lparen then
    expect .number
    if ← accept .comma then expect .number
    expect .rparen
  return type

/-- The next option of a column, up to a comma or a closing parenthesis. -/
def columnOption? (type : String) : Reader (Option ColumnOption) := do
  match ← peekKind? with
  | some (.keyword .unique) =>
    advance
    return some (.constraint .unique)
  | some (.keyword .not) =>
    advance
    expectWord .null
    return some (.constraint .notNull)
  | some (.keyword .null) =>
    advance
    return some .nullable
  | some (.keyword .primary) =>
    advance
    expectWord .key
    return some (.constraint .primaryKey)
  | some (.keyword .autoIncrement) =>
    advance
    return some (.constraint .autoIncrement)
  | some (.keyword .default) =>
    advance
    return some (.constraint (.default (← defaultLiteral)))
  | some (.keyword .withWord) =>
    if type.toList.map Char.toLower != "timestamp".toList then
      stop "WITH TIME ZONE only applies to timestamp"
    else
      advance
      expectWord .time
      expectWord .zone
      return some .timeZone
  | some .comma => return none
  | some .rparen => return none
  | _ => stop "unexpected column constraint"

/-- The declaration of a column. -/
def columnDef : Reader ColumnDef := do
  let column ← name
  let type ← typeName
  let options ← many (columnOption? type)
  let constraints := options.filterMap fun
    | .constraint c => some c
    | _ => none
  return ⟨column, type, options.contains .timeZone, constraints⟩

/-- What stands between the parentheses of CREATE TABLE: the names of a primary key, or a column. -/
def tableItem : Reader (List String ⊕ ColumnDef) := do
  if ← acceptWord .primary then
    expectWord .key
    return .inl (← parenthesised (commaList name))
  else return .inr (← columnDef)

/-- The rest of `CREATE TABLE`. -/
def createTable : Reader CreateTable := do
  expectWord .table
  let guarded ← ifNotExists
  let table ← name
  let items ← parenthesised (commaList tableItem)
  let columns := items.filterMap Sum.getRight?
  let primaryKey := (items.filterMap Sum.getLeft?).flatten
  if columns.isEmpty then stop "table needs at least one column"
  return ⟨table, guarded, columns, primaryKey⟩

/-- A column of an index. -/
def indexColumn : Reader IndexColumn := do
  let column ← name
  if ← acceptWord .collate then
    expectWord .nocase
    return ⟨column, true⟩
  else return ⟨column, false⟩

/-- The rest of `CREATE [UNIQUE] INDEX`. -/
def createIndex : Reader CreateIndex := do
  let unique ← acceptWord .unique
  expectWord .index
  let guarded ← ifNotExists
  let index ← name
  expectWord .on
  let table ← name
  let columns ← parenthesised (commaList indexColumn)
  return ⟨index, table, unique, guarded, columns⟩

/-- A statement that begins with CREATE. -/
def create : Reader Statement := do
  advance
  match ← peekKind? with
  | some (.keyword .table) => return .createTable (← createTable)
  | some (.keyword .unique) => return .createIndex (← createIndex)
  | some (.keyword .index) => return .createIndex (← createIndex)
  | _ => stop "expected TABLE or INDEX after CREATE"

/-! ## INSERT -/

/-- The values of one row, as many as there are columns. -/
def valueRow (width : Nat) : Reader (List Literal) := do
  expect .lparen
  let values ← commaList value
  if values.length != width then
    stop ("expected " ++ toString width ++ " values, found " ++ toString values.length)
  expect .rparen
  return values

/-- A statement that begins with INSERT. -/
def insert : Reader Insert := do
  advance
  expectWord .into
  let table ← name
  let columns ← parenthesised (commaList name)
  expectWord .values
  let rows ← commaList (valueRow columns.length)
  let returning ← optional (acceptWord .returning) name
  return ⟨table, columns, rows, returning⟩

/-! ## Conditions -/

/-- Passes over the number 1, if it is here. -/
def acceptOne : Reader Bool := do
  match ← peek? with
  | some t =>
    if t.kind = .number && t.lexeme = "1" then
      advance
      return true
    else return false
  | none => return false

/-- The comparison that a token stands for. -/
def compareOp? : TokenKind → Option CompareOp
  | .eq => some .eq
  | .ne => some .ne
  | .lt => some .lt
  | .gt => some .gt
  | .le => some .le
  | .ge => some .ge
  | _ => none

/-- A condition on a column. -/
def columnCondition : Reader Condition := do
  let column ← columnRef
  if ← acceptWord .is then
    let negated ← acceptWord .not
    expectWord .null
    return .nullTest column negated
  let negated ← acceptWord .not
  if ← acceptWord .inWord then
    let values ← parenthesised (commaList value)
    return .oneOf column values negated
  if negated then stop "expected IN after NOT"
  match (← peekKind?).bind compareOp? with
  | some op =>
    advance
    return .compare column op (← value)
  | none => stop "expected comparison operator"

/-- A condition without parentheses around it. -/
def bareCondition : Reader Condition := do
  if ← acceptOne then
    if ← accept .eq then
      if !(← acceptOne) then stop "expected 1 = 1"
    return .always
  else columnCondition

/-- Closes as many parentheses as were opened. -/
def closeParentheses : Nat → Reader Unit
  | 0 => return ()
  | n + 1 => do
    expect .rparen
    closeParentheses n

/-- A condition in any number of parentheses. -/
def condition : Reader Condition := do
  let opened ← skipAll .lparen
  let c ← bareCondition
  closeParentheses opened
  return c

/-- Whether another condition follows.  Conditions cannot be joined by OR. -/
def anotherCondition : Reader Bool := do
  if (← peekKind?) = some (.keyword .or) then stop "OR is not supported"
  else acceptWord .and

/-- The conditions after WHERE; `absent` if there is no WHERE. -/
def conditions (absent : List Condition) : Reader (List Condition) := do
  if ← acceptWord .whereWord then separated anotherCondition condition else return absent

/-! ## SELECT -/

/-- The columns of DISTINCT ON, or DISTINCT without columns. -/
def distinct : Reader (Option Distinct) := do
  if ← acceptWord .distinct then
    if ← acceptWord .on then return some (.on (← parenthesised (commaList columnRef)))
    else return some .all
  else return none

/-- What COUNT counts. -/
def countArg : Reader CountArg := do
  if ← accept .star then return .star else return .column (← columnRef)

/-- One of the columns of the answer. -/
def projection : Reader Projection := do
  if ← accept .star then return .star
  if (← peekKind?) = some (.keyword .count) && (← peekSecond?) = some .lparen then
    advance
    return .count (← parenthesised countArg)
  else return .column (← columnRef)

/-- The rest of a JOIN. -/
def join : Reader Join := do
  let table ← name
  expectWord .on
  let left ← columnRef
  expect .eq
  let right ← columnRef
  return ⟨table, left, right⟩

/-- A column to sort by, ascending if nothing is said. -/
def sortKey : Reader SortKey := do
  let column ← columnRef
  if ← acceptWord .desc then return ⟨column, true⟩
  let _ ← acceptWord .asc
  return ⟨column, false⟩

/-- The columns to sort by, if there is an ORDER BY. -/
def orderBy : Reader (List SortKey) := do
  if ← acceptWord .order then
    expectWord .byWord
    commaList sortKey
  else return []

/-- A number of rows. -/
def rowCount : Reader Nat := do
  match ← peek? with
  | some t =>
    if t.kind = .number then
      match Number.Whole.readCount? t.lexeme.toList with
      | some n =>
        advance
        return n
      | none => stop "expected a non-negative integer"
    else stop "expected a row count"
  | none => stop "expected a row count"

/-- Passes over `FOR UPDATE`, if it is here. -/
def forUpdate : Reader Bool := do
  if ← acceptWord .forWord then
    expectWord .update
    return true
  else return false

/-- A statement that begins with SELECT.  The columns of DISTINCT ON are projected before the
others. -/
def select : Reader Select := do
  advance
  let distinct ← distinct
  let keys := match distinct with
    | some (.on columns) => columns.map Projection.column
    | _ => []
  let projections ← commaList projection
  expectWord .fromWord
  let tables ← commaList name
  let joins ← many (optional (acceptWord .join) join)
  let conditions ← conditions [.always]
  let orderBy ← orderBy
  let limit ← optional (acceptWord .limit) rowCount
  let offset ← optional (acceptWord .offset) rowCount
  let forUpdate ← forUpdate
  return {
    distinct, projections := keys ++ projections, tables, joins, conditions, orderBy, limit, offset,
    forUpdate }

/-! ## The other statements -/

/-- A column and the literal that is assigned to it. -/
def assignment : Reader (String × Literal) := do
  let column ← name
  expect .eq
  return (column, ← value)

/-- A statement that begins with UPDATE. -/
def update : Reader Update := do
  advance
  let table ← name
  expectWord .set
  let assignments ← commaList assignment
  let conditions ← conditions [.always]
  return ⟨table, assignments, conditions⟩

/-- A statement that begins with DELETE. -/
def delete : Reader Delete := do
  advance
  expectWord .fromWord
  let table ← name
  let conditions ← conditions []
  return ⟨table, conditions⟩

/-- A statement that begins with TRUNCATE. -/
def truncate : Reader String := do
  advance
  let _ ← acceptWord .table
  name

/-- A statement that begins with DROP. -/
def drop : Reader Statement := do
  advance
  expectWord .table
  let guarded ← acceptWord .ifWord
  if guarded then expectWord .existsWord
  return .dropTable (← name) guarded

/-- A statement that begins with GRANT, up to a semicolon. -/
def grant : Reader Statement := do
  skipUntil .semicolon
  return .grant

/-- A statement. -/
def statement : Reader Statement := do
  match ← peekKind? with
  | some (.keyword .create) => create
  | some (.keyword .select) => return .select (← select)
  | some (.keyword .insert) => return .insert (← insert)
  | some (.keyword .update) => return .update (← update)
  | some (.keyword .delete) => return .delete (← delete)
  | some (.keyword .truncate) => return .truncate (← truncate)
  | some (.keyword .drop) => drop
  | some (.keyword .grant) => grant
  | _ => stop "expected CREATE, SELECT, INSERT, UPDATE, DELETE, TRUNCATE, DROP or GRANT"

/-- The next statement after any semicolons; a semicolon or the end has to follow it. -/
def nextStatement? : Reader (Option Statement) := do
  let _ ← skipAll .semicolon
  if ← atEnd then return none
  let s ← statement
  match ← peekKind? with
  | none => return some s
  | some .semicolon => return some s
  | some _ => stop "expected ; or end of statement"

end Reader

namespace Statement

/-- The statements that tokens make up. -/
def ofTokens (tokens : List Token) : Except Fault (List Statement) :=
  match Reader.many Reader.nextStatement? tokens with
  | .ok (statements, _) => .ok statements
  | .error stuck => .error (stuck.fault tokens)

/-- The statements of a text. -/
def parse (text : String) : Except Fault (List Statement) := do
  let tokens ← Token.scan text
  ofTokens (Token.withoutSpaces tokens)

end Statement

end Tabula
