/-!
# Faults

Everything that can go wrong, by cause.  `Fault.message` is the only place where a fault is worded.
-/

namespace Tabula

/-- Why a text, a statement, a connection or a configuration was refused. -/
inductive Fault where
  /-- No token begins at a character; the rest of the text from there. -/
  | unlexable (position : Nat) (remainder : String)
  /-- The grammar allows no such token here; the token with its neighbours, and what was wanted. -/
  | ungrammatical (context message : String)
  | noTable (name : String)
  | tableExists (name : String)
  | indexExists (name : String)
  | noColumn (table column : String)
  /-- A row that is being put together does not hold the column yet. -/
  | notInRow (key : String)
  | ambiguous (name : String)
  | declaredTwice (name : String)
  | notUnique (table column value : String)
  | nullForbidden (column : String)
  | notCoercible (lexeme typeName : String)
  | malformed (reason : String)
  /-- No handler executes the statement. -/
  | unrouted (reason : String)
  /-- A handler was broken off. -/
  | aborted (reason : String)
  | connection (reason : String)
  | inputOutput (reason : String)
  | configuration (reason : String)
deriving DecidableEq, Repr

/-- The wording of a fault. -/
def Fault.message : Fault → String
  | .unlexable position remainder =>
    "cannot lex input at character " ++ toString position ++ ", near \"" ++ remainder ++ "\""
  | .ungrammatical context message => "syntax error near " ++ context ++ ": " ++ message
  | .noTable name => "table " ++ name ++ " does not exist"
  | .tableExists name => "table " ++ name ++ " already exists"
  | .indexExists name => "index " ++ name ++ " already exists"
  | .noColumn table column => "attribute " ++ column ++ " does not exist in table " ++ table
  | .notInRow key => "attribute " ++ key ++ " not found in row"
  | .ambiguous name => "attribute " ++ name ++ " is ambiguous"
  | .declaredTwice name => "attribute " ++ name ++ " declared twice"
  | .notUnique table column value =>
    "unique constraint violation on " ++ table ++ "." ++ column ++ ": value " ++ value
  | .nullForbidden column => "null value in column " ++ column ++ " violates not-null constraint"
  | .notCoercible lexeme typeName => "cannot convert " ++ lexeme ++ " to " ++ typeName
  | .malformed reason => "malformed statement: " ++ reason
  | .unrouted reason => "no executor registered for " ++ reason
  | .aborted reason => "fatal error: " ++ reason
  | .connection reason => "connection error: " ++ reason
  | .inputOutput reason => "IO error: " ++ reason
  | .configuration reason => "configuration error: " ++ reason

end Tabula
