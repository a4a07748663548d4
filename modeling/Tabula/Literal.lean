/-!
# Literals

A `Literal` is a value as a statement writes it: its kind and the characters it was written with.
What it becomes depends on the column it is meant for.
-/

namespace Tabula

/-- How a literal was written. -/
inductive LiteralKind where
  | string
  | number
  | date
  | bool
  | null
  /-- `NOW()` -/
  | now
  /-- `LOCALTIMESTAMP` -/
  | localTimestamp
  /-- A bare word that stands for a value. -/
  | raw
deriving DecidableEq, Repr

/-- A literal as written. -/
structure Literal where
  kind : LiteralKind
  lexeme : String
deriving DecidableEq, Repr

namespace Literal

/-- Whether the literal stands for the time at which it is evaluated. -/
def isGenerator (l : Literal) : Bool :=
  match l.kind with
  | .now | .localTimestamp => true
  | _ => false

/-- The text of a literal in messages: a string between quotes, everything else as written. -/
def text (l : Literal) : String :=
  match l.kind with
  | .string => "'" ++ l.lexeme ++ "'"
  | _ => l.lexeme

/-- What the literal is compared as at a given time. -/
def lexemeAt (now : String) (l : Literal) : String :=
  if l.isGenerator then now else l.lexeme

end Literal

end Tabula
