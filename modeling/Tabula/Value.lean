import Tabula.Number.Whole
import Tabula.Text.Blank

/-!
# Values

A `Value` is what a row holds in one column.  `Value.text` is its canonical string: the form in
which it leaves the engine and by which values are told apart.  `Value.compareForSort` is the order
of ORDER BY: nulls first, two numbers (or texts that read as numbers) numerically, everything else
by canonical string.
-/

namespace Tabula

/-- A stored scalar. -/
inductive Value where
  | integer (n : Int64)
  | decimal (x : Float)
  /-- A text as written, or a formatted moment. -/
  | text (s : String)
  | bool (b : Bool)
  | null
deriving DecidableEq

namespace Value

/-- Whether the value is missing. -/
def isNull : Value → Bool
  | .null => true
  | _ => false

/-- The canonical string. -/
def canonical : Value → String
  | .integer n => toString n.toInt
  | .decimal x => Number.Decimal.text x
  | .text s => s
  | .bool b => if b then "true" else "false"
  | .null => "null"

/-- The value as a binary64 number; a text is read without the blanks around it. -/
def asDecimal? : Value → Option Float
  | .integer n => some (Float.ofInt n.toInt)
  | .decimal x => some x
  | .text s => Number.Decimal.read? (Text.trim s.toList)
  | .bool _ => none
  | .null => none

/-- The value as a whole number; a text is read without the blanks around it. -/
def asInteger? : Value → Option Int64
  | .integer n => some n
  | .text s => Number.Whole.read? (Text.trim s.toList)
  | _ => none

/-- The numerical order, where there is one: nothing compares with NaN. -/
def compareDecimals (x y : Float) : Option Ordering :=
  if x < y then some .lt else if y < x then some .gt else if x == y then some .eq else none

/-- The order of ORDER BY. -/
def compareForSort (a b : Value) : Ordering :=
  match a, b with
  | .null, .null => .eq
  | .null, _ => .lt
  | _, .null => .gt
  | _, _ =>
    match a.asDecimal?, b.asDecimal? with
    | some x, some y => (compareDecimals x y).getD .eq
    | _, _ => compare a.canonical b.canonical

end Value

end Tabula
