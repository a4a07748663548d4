import Tabula.Number.Shortest

/-!
# Decimal numbers as text

`Decimal.text` writes a binary64 value with the fewest digits that name it, always positionally,
and never with an exponent.  `Decimal.read?` reads a decimal numeral: a sign, digits with at most
one point among or around them, an exponent; or one of the words `inf`, `infinity` and `nan` in any
case.  The value read is the nearest binary64 value, ties to even.
-/

namespace Tabula.Number

/-- The value of a row of decimal digits. -/
def ofDigits (digits : List Char) : Nat :=
  digits.foldl (fun n c => 10 * n + (c.toNat - '0'.toNat)) 0

/-- The digits of a number in base ten. -/
def toDigits (n : Nat) : List Char :=
  Nat.toDigits 10 n

namespace Decimal

/-! ## Writing -/

/-- Writes `coefficient * 10 ^ exponent` with a point where the exponent puts it.  A fraction has no
zeros at its end, because they are taken off first. -/
def positional (d : Scaled) : List Char :=
  let digits := toDigits d.coefficient
  if 0 ≤ d.exponent then digits ++ List.replicate d.exponent.toNat '0'
  else
    let places := d.exponent.natAbs
    let padded := List.replicate (places + 1 - digits.length) '0' ++ digits
    let whole := padded.take (padded.length - places)
    let fraction := ((padded.drop (padded.length - places)).reverse.dropWhile (· == '0')).reverse
    if fraction.isEmpty then whole else whole ++ '.' :: fraction

/-- The text of a binary64 value: `NaN`, `inf` and `-inf` where it is no number, and zero keeps its
sign. -/
def text (x : Float) : String :=
  if x.isNaN then "NaN"
  else
    let sign := if x.toBits >>> 63 = 1 then ['-'] else []
    let body := if x.isInf then "inf".toList else positional (Binary.ofBits x.toBits).shortest
    String.ofList (sign ++ body)

/-! ## Reading -/

/-- The binary64 value nearest to `digits * 10 ^ exponent`.  Far outside the range of the format the
answer is zero or infinity without any power of ten being computed. -/
def nearest (digits : List Char) (exponent : Int) : Float :=
  let significant := digits.dropWhile (· == '0')
  let top := (significant.length : Int) + exponent
  if significant.isEmpty || top < -400 then 0.0
  else if 400 < top then 1.0 / 0.0
  else Float.ofScientific (ofDigits significant) (exponent < 0) exponent.natAbs

/-- A whole number with an optional sign, digits alone. -/
def readExponent? (cs : List Char) : Option Int :=
  let value (digits : List Char) : Option Int :=
    if !digits.isEmpty && digits.all Char.isDigit then some (ofDigits digits) else none
  match cs with
  | '+' :: r => value r
  | '-' :: r => (value r).map (- ·)
  | r => value r

/-- What may follow the digits: nothing, or an exponent. -/
def readTail? : List Char → Option Int
  | [] => some 0
  | c :: r => if c = 'e' || c = 'E' then readExponent? r else none

/-- A numeral without a sign. -/
def readUnsigned? (cs : List Char) : Option Float :=
  let whole := cs.takeWhile Char.isDigit
  let rest := cs.dropWhile Char.isDigit
  let (fraction, tail) := match rest with
    | '.' :: r => (r.takeWhile Char.isDigit, r.dropWhile Char.isDigit)
    | r => ([], r)
  if whole.isEmpty && fraction.isEmpty then none
  else (readTail? tail).map fun e => nearest (whole ++ fraction) (e - fraction.length)

/-- The values that are written as a word. -/
def readWord? (cs : List Char) : Option Float :=
  let word := String.ofList (cs.map Char.toLower)
  if word = "inf" || word = "infinity" then some (1.0 / 0.0)
  else if word = "nan" then some (0.0 / 0.0)
  else none

/-- The value a numeral stands for. -/
def read? (cs : List Char) : Option Float :=
  let magnitude (r : List Char) : Option Float := readWord? r <|> readUnsigned? r
  match cs with
  | '+' :: r => magnitude r
  | '-' :: r => (magnitude r).map (- ·)
  | r => magnitude r

end Decimal

end Tabula.Number
