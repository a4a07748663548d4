import Tabula.Calendar.Notation

/-!
# Clocks

What time it is when a batch of statements asks.  A clock gives every statement, and every row that
a statement inserts, a time of its own, later ones to later ones.
-/

namespace Tabula.Calendar

/-- The written time at a statement of a batch and a row of the statement, both counted from 0. -/
abbrev Clock := Nat → Nat → String

/-- The moment some microseconds later. -/
def Moment.plus (m : Moment) (microseconds : Nat) : Moment :=
  let nanos := m.nanos + 1000 * microseconds
  { m with seconds := m.seconds + nanos / 1000000000, nanos := nanos % 1000000000 }

/-- The clock of a batch that begins at a moment: each statement a millisecond after the one before
it, each row a microsecond after the one before it. -/
def Clock.starting (m : Moment) : Clock :=
  fun statement row => (m.plus (1000 * statement + row)).text

end Tabula.Calendar
