import Tabula.Calendar.Notation
import Tabula.Record

/-!
# Conditions on rows

The two sides of a comparison are operands: a value of a row on the left, what the statement says on
the right.  `Operator.holds` compares them.  Equality compares the canonical string of the value
with the lexeme, character by character.  The other comparisons are numerical if the left side reads
as a number, chronological if both sides read as moments, and otherwise do not hold.  A null equals
nothing.

`Predicate.bind` looks up the column of a condition in a scope; `Predicate.all` tests a record.
-/

namespace Tabula

/-- One side of a comparison. -/
inductive Operand where
  /-- A value of a row. -/
  | value (v : Value)
  /-- What a literal is compared as. -/
  | lexeme (s : String)
  /-- What the literals of a list are compared as. -/
  | list (items : List String)
  /-- The missing side of a test that has only one. -/
  | absent
deriving DecidableEq

namespace Operand

/-- A literal at a given time. -/
def ofLiteral (now : String) (l : Literal) : Operand :=
  .lexeme (l.lexemeAt now)

/-- A list of literals at a given time. -/
def ofLiterals (now : String) (ls : List Literal) : Operand :=
  .list (ls.map (·.lexemeAt now))

/-- The text of an operand. -/
def text : Operand → String
  | .value v => v.canonical
  | .lexeme s => s
  | .list items => String.intercalate "," items
  | .absent => ""

/-- Whether the operand is a null. -/
def isNull : Operand → Bool
  | .value v => v.isNull
  | _ => false

/-- The number that an operand reads as, blanks around it left out. -/
def number? (o : Operand) : Option Float :=
  Number.Decimal.read? (Text.trim o.text.toList)

/-- The moment that an operand reads as. -/
def moment? (o : Operand) : Option Calendar.Moment :=
  Calendar.Moment.read? o.text.toList

/-- Whether the canonical string of the left side is the text of the right. -/
def equals (left right : Operand) : Bool :=
  !left.isNull && left.text == right.text

/-- The order of two operands, where there is one. -/
def order? (left right : Operand) : Option Ordering :=
  match left.number? with
  | some x => right.number?.bind (Value.compareDecimals x)
  | none =>
    match left.moment?, right.moment? with
    | some a, some b => some (if a.before b then .lt else if b.before a then .gt else .eq)
    | _, _ => none

/-- Whether the right side is a list that has the text of the left. -/
def isIn (left right : Operand) : Bool :=
  !left.isNull &&
    match right with
    | .list items => items.contains left.text
    | _ => false

end Operand

/-- A test on two operands. -/
inductive Operator where
  | compare (op : CompareOp)
  | oneOf (negated : Bool)
  | nullTest (negated : Bool)
  | always
deriving DecidableEq, Repr

/-- Whether a comparison holds. -/
def CompareOp.holds (op : CompareOp) (left right : Operand) : Bool :=
  match op with
  | .eq => left.equals right
  | .ne => !left.equals right
  | .lt => left.order? right == some .lt
  | .gt => left.order? right == some .gt
  | .le => left.order? right == some .lt || left.equals right
  | .ge => left.order? right == some .gt || left.equals right

namespace Operator

/-- Whether a test holds. -/
def holds (o : Operator) (left right : Operand) : Bool :=
  match o with
  | .compare op => op.holds left right
  | .oneOf negated => left.isIn right != negated
  | .nullTest negated => left.isNull != negated
  | .always => true

/-- Every operator with its name. -/
def names : List (String × Operator) :=
  [("=", .compare .eq), ("!=", .compare .ne), ("<", .compare .lt), (">", .compare .gt),
   ("<=", .compare .le), (">=", .compare .ge), ("in", .oneOf false), ("not in", .oneOf true),
   ("is null", .nullTest false), ("is not null", .nullTest true), ("true", .always)]

/-- The names of the operators that hold of two operands. -/
def namesHolding (left right : Operand) : List String :=
  (names.filter fun (_, o) => o.holds left right).map (·.1)

end Operator

/-- A condition whose column has been found. -/
inductive Predicate where
  | always
  | test (key : String) (o : Operator) (right : Operand)
deriving DecidableEq

namespace Predicate

/-- Finds the column of a condition. -/
def bind (now : String) (s : Scope) : Condition → Except Fault Predicate
  | .always => .ok .always
  | .compare column op value => do
    return .test (← s.resolve column) (.compare op) (.ofLiteral now value)
  | .oneOf column values negated => do
    return .test (← s.resolve column) (.oneOf negated) (.ofLiterals now values)
  | .nullTest column negated => do
    return .test (← s.resolve column) (.nullTest negated) .absent

/-- Finds the columns of all conditions, in order. -/
def bindAll (now : String) (s : Scope) : List Condition → Except Fault (List Predicate)
  | [] => .ok []
  | c :: rest => do
    let p ← bind now s c
    let ps ← bindAll now s rest
    return p :: ps

/-- Tests a record. -/
def holds (r : Record) : Predicate → Except Fault Bool
  | .always => .ok true
  | .test key o right => do
    let v ← r.get key
    return o.holds (.value v) right

/-- Tests a record by one predicate after the other, up to the first that does not hold. -/
def all (r : Record) : List Predicate → Except Fault Bool
  | [] => .ok true
  | p :: rest => do
    if ← p.holds r then all r rest else return false

end Predicate

end Tabula
