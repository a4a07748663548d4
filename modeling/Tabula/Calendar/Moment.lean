/-!
# Days and moments

The proleptic Gregorian calendar: which year, month and day name a day, and how many days lie
between that day and 1 January 1970.  A `Moment` is a point in time as seconds since the beginning
of 1970 in UTC; the second after a leap second's 59 is written with nanoseconds from 1000000000 up.
-/

namespace Tabula.Calendar

/-- Every fourth year is a leap year, of the centuries only every fourth. -/
def isLeap (year : Int) : Bool :=
  year % 4 == 0 && (year % 100 != 0 || year % 400 == 0)

/-- The lengths of the months of a year. -/
def monthLengths (year : Int) : List Nat :=
  [31, if isLeap year then 29 else 28, 31, 30, 31, 30, 31, 31, 30, 31, 30, 31]

/-- A day named by year, month and day of the month. -/
structure Day where
  year : Int
  month : Nat
  day : Nat
deriving DecidableEq, Repr

/-- The years that can be named. -/
def firstYear : Int := -262143

/-- The years that can be named. -/
def lastYear : Int := 262142

/-- Whether the calendar has the day. -/
def Day.isValid (d : Day) : Bool :=
  firstYear ≤ d.year && d.year ≤ lastYear && 1 ≤ d.month && d.month ≤ 12 && 1 ≤ d.day &&
    d.day ≤ (monthLengths d.year)[d.month - 1]?.getD 0

/-- Days from 1 January of the year 1 to 1 January of a year. -/
def daysBeforeYear (year : Int) : Int :=
  365 * (year - 1) + (year - 1) / 4 - (year - 1) / 100 + (year - 1) / 400

/-- Days from 1 January to the first of a month. -/
def daysBeforeMonth (year : Int) (month : Nat) : Nat :=
  ((monthLengths year).take (month - 1)).foldl (· + ·) 0

/-- Days from 1 January 1970 to the day. -/
def Day.number (d : Day) : Int :=
  daysBeforeYear d.year + daysBeforeMonth d.year d.month + d.day - 719163

/-- The month that a day of the year (from 0) falls into, counted from `month`, and the day of the
month. -/
def locate (month : Nat) : List Nat → Nat → Nat × Nat
  | [], n => (month, n + 1)
  | length :: rest, n => if n < length then (month, n + 1) else locate (month + 1) rest (n - length)

/-- The day that many days after 1 January 1970. -/
def Day.ofNumber (n : Int) : Day :=
  let fromOne := n + 719162
  let guess := 400 * fromOne / 146097 + 1
  let year :=
    if fromOne < daysBeforeYear guess then guess - 1
    else if daysBeforeYear (guess + 1) ≤ fromOne then guess + 1
    else guess
  let (month, day) := locate 1 (monthLengths year) (fromOne - daysBeforeYear year).toNat
  ⟨year, month, day⟩

/-- A point in time, with the offset from UTC that it was written with. -/
structure Moment where
  /-- Seconds since the beginning of 1970 in UTC. -/
  seconds : Int
  /-- Nanoseconds within the second; 1000000000 and more within a leap second. -/
  nanos : Nat
  /-- Seconds east of UTC. -/
  offset : Int
deriving DecidableEq, Repr

/-- Whether one moment comes before another; the offsets play no part. -/
def Moment.before (a b : Moment) : Bool :=
  a.seconds < b.seconds || (a.seconds == b.seconds && a.nanos < b.nanos)

end Tabula.Calendar
