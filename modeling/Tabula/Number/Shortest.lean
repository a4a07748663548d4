/-!
# The fewest digits that name a binary64 value

A finite value is `mantissa * 2 ^ power`.  The reals that round to it form an interval, its ends
included when the mantissa is even.  `shortest` looks for a decimal in that interval on the grids of
1, 2, ... 17 digits: the first grid with a hit wins, of two hits the nearer one, and the upper one
when both are equally near.  Everything is compared by exact integer arithmetic.
-/

namespace Tabula.Number

/-- A finite binary64 value without its sign. -/
structure Binary where
  mantissa : Nat
  power : Int
  /-- The value below is half as far away as the value above. -/
  narrowBelow : Bool

/-- The finite value that 64 bits stand for, its sign left out. -/
def Binary.ofBits (bits : UInt64) : Binary :=
  let field := ((bits >>> 52) &&& 0x7FF).toNat
  let fraction := (bits &&& 0xFFFFFFFFFFFFF).toNat
  if field = 0 then ⟨fraction, -1074, false⟩
  else ⟨Nat.pow 2 52 + fraction, (field : Int) - 1075, fraction == 0 && field > 1⟩

/-- The decimal `coefficient * 10 ^ exponent`. -/
structure Scaled where
  coefficient : Nat
  exponent : Int
deriving DecidableEq, Repr

/-- Compares `a * 10 ^ i` with `n * 2 ^ j`. -/
def compareScaled (a : Nat) (i : Int) (n : Nat) (j : Int) : Ordering :=
  compare (a * Nat.pow 10 i.toNat * Nat.pow 2 (-j).toNat)
    (n * Nat.pow 2 j.toNat * Nat.pow 10 (-i).toNat)

/-- Whether a decimal lies among the reals that round to the value. -/
def Binary.readsBack (x : Binary) (d : Scaled) : Bool :=
  let low := if x.narrowBelow then 4 * x.mantissa - 1 else 4 * x.mantissa - 2
  let high := 4 * x.mantissa + 2
  let closed := x.mantissa % 2 == 0
  let atLow := compareScaled d.coefficient d.exponent low (x.power - 2)
  let atHigh := compareScaled d.coefficient d.exponent high (x.power - 2)
  (atLow == .gt || (closed && atLow == .eq)) && (atHigh == .lt || (closed && atHigh == .eq))

/-- The least `k` with `x < 10 ^ k`, for a value above zero.  The binary logarithm is at most two
steps short of it. -/
def Binary.magnitude (x : Binary) : Int :=
  let start := ((x.mantissa.log2 : Int) + x.power) * 1233 / 4096
  let below (k : Int) : Bool := compareScaled 1 k x.mantissa x.power == .gt
  if below start then start else if below (start + 1) then start + 1 else start + 2

/-- `⌊x / 10 ^ g⌋`. -/
def Binary.floorOnGrid (x : Binary) (g : Int) : Nat :=
  (x.mantissa * Nat.pow 2 x.power.toNat * Nat.pow 10 (-g).toNat) /
    (Nat.pow 2 (-x.power).toNat * Nat.pow 10 g.toNat)

/-- The best decimal on the grid `10 ^ g` among those that read back. -/
def Binary.onGrid? (x : Binary) (g : Int) : Option Scaled :=
  let a := x.floorOnGrid g
  let lower : Scaled := ⟨a, g⟩
  let upper : Scaled := ⟨a + 1, g⟩
  match x.readsBack lower, x.readsBack upper with
  | true, true =>
    if compareScaled (2 * a + 1) g (2 * x.mantissa) x.power == .gt then some lower else some upper
  | true, false => some lower
  | false, true => some upper
  | false, false => none

/-- The value itself, every digit written out. -/
def Binary.exact (x : Binary) : Scaled :=
  if x.power < 0 then ⟨x.mantissa * Nat.pow 5 x.power.natAbs, x.power⟩
  else ⟨x.mantissa * Nat.pow 2 x.power.toNat, 0⟩

/-- The fewest digits that read back as the value. -/
def Binary.shortest (x : Binary) : Scaled :=
  if x.mantissa = 0 then ⟨0, 0⟩
  else
    let k := x.magnitude
    ((List.range 17).findSome? fun n => x.onGrid? (k - (n + 1 : Nat))).getD x.exact

end Tabula.Number
