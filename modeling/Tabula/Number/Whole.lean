import Tabula.Number.Decimal

/-!
# Whole numbers as text

A whole number is read from an optional sign and at least one decimal digit, and only if it is in
the range of its type: `Whole.read?` for signed and `Whole.readCount?` for unsigned 64-bit numbers.
A count takes no minus sign, not even before zero.
-/

namespace Tabula.Number.Whole

/-- The value of a non-empty row of decimal digits. -/
def magnitude? (cs : List Char) : Option Nat :=
  if !cs.isEmpty && cs.all Char.isDigit then some (ofDigits cs) else none

/-- A whole number of any size, with an optional sign. -/
def signed? : List Char → Option Int
  | '+' :: r => (magnitude? r).map Int.ofNat
  | '-' :: r => (magnitude? r).map fun n => -(n : Int)
  | r => (magnitude? r).map Int.ofNat

/-- A whole number from `-2 ^ 63` to `2 ^ 63 - 1`. -/
def read? (cs : List Char) : Option Int64 :=
  match signed? cs with
  | some n =>
    if -Int.pow 2 63 ≤ n ∧ n < Int.pow 2 63 then some (Int64.ofInt n) else none
  | none => none

/-- A whole number from `0` to `2 ^ 64 - 1`. -/
def readCount? (cs : List Char) : Option Nat :=
  let digits := match cs with
    | '+' :: r => r
    | r => r
  match magnitude? digits with
  | some n => if n < UInt64.size then some n else none
  | none => none

end Tabula.Number.Whole
