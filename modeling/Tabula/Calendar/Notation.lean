import Tabula.Calendar.Moment
import Tabula.Number.Decimal
import Tabula.Text.Blank

/-!
# Moments as text

`Moment.read?` reads a moment in any of six forms: date, time and offset; the same as an exchange
format with fixed widths; date and time with a blank or a `T` between; a date with the month as an
abbreviated name; a date in numbers.  Where no offset is written, the text is in UTC; where no time
is written, it is midnight.  `Moment.text` writes a moment of UTC in the first form, to the
microsecond.

A form is a list of `Part`s that are read one after the other.
-/

namespace Tabula.Calendar

/-- What a number in a text stands for. -/
inductive Field where
  | year
  | month
  | day
  | hour
  | minute
  | second
deriving DecidableEq, Repr

/-- One part of a written moment. -/
inductive Part where
  /-- A number after any blanks: a year of up to four digits, or of any number of digits after a
  sign; everything else of up to two digits. -/
  | loose (field : Field)
  /-- A number of exactly so many digits. -/
  | exact (field : Field) (width : Nat)
  /-- The first three letters of the month's English name, in any case. -/
  | monthName
  /-- A point and a fraction of the second, or nothing.  Digits after the ninth do not count. -/
  | fraction
  /-- Any number of blanks. -/
  | gap
  /-- One of the given characters. -/
  | oneOf (cs : List Char)
  /-- An offset after any blanks: a sign, two digits, colons and blanks, two digits. -/
  | looseOffset
  /-- An offset of less than a day: the letter Z, or a sign, two digits, a colon and two digits. -/
  | exactOffset
deriving DecidableEq, Repr

/-- What the parts read so far have said. -/
structure Written where
  date : Day := ⟨1970, 1, 1⟩
  hour : Nat := 0
  minute : Nat := 0
  second : Nat := 0
  nanos : Nat := 0
  offset : Int := 0

/-! ## Reading the parts -/

/-- Notes a number. -/
def Written.note (w : Written) (field : Field) (n : Int) : Written :=
  match field with
  | .year => { w with date := { w.date with year := n } }
  | .month => { w with date := { w.date with month := n.toNat } }
  | .day => { w with date := { w.date with day := n.toNat } }
  | .hour => { w with hour := n.toNat }
  | .minute => { w with minute := n.toNat }
  | .second => { w with second := n.toNat }

/-- At least `least` and at most `most` digits at the beginning of a text. -/
def readNumber? (least most : Nat) (cs : List Char) : Option (Nat × List Char) :=
  let digits := (cs.take most).takeWhile Char.isDigit
  if least ≤ digits.length then some (Number.ofDigits digits, cs.drop digits.length) else none

/-- All the digits at the beginning of a text, at least one. -/
def readDigits? (cs : List Char) : Option (Nat × List Char) :=
  readNumber? 1 cs.length cs

/-- A number after blanks. -/
def readLoose? (field : Field) (cs : List Char) : Option (Int × List Char) :=
  match field, Text.trimStart cs with
  | .year, '-' :: r => (readDigits? r).map fun (n, rest) => (-(n : Int), rest)
  | .year, '+' :: r => (readDigits? r).map fun (n, rest) => ((n : Int), rest)
  | .year, r => (readNumber? 1 4 r).map fun (n, rest) => ((n : Int), rest)
  | _, r => (readNumber? 1 2 r).map fun (n, rest) => ((n : Int), rest)

/-- The names of the months as they are abbreviated. -/
def monthNames : List String :=
  ["jan", "feb", "mar", "apr", "may", "jun", "jul", "aug", "sep", "oct", "nov", "dec"]

/-- The number of the month whose abbreviated name a text begins with. -/
def readMonthName? (cs : List Char) : Option (Nat × List Char) :=
  let name := String.ofList ((cs.take 3).map Char.toLower)
  (monthNames.findIdx? (· == name)).map fun i => (i + 1, cs.drop 3)

/-- A fraction of a second in nanoseconds. -/
def readFraction? : List Char → Option (Nat × List Char)
  | '.' :: r =>
    (readNumber? 1 9 r).map fun (n, rest) =>
      (n * Nat.pow 10 (9 - (r.length - rest.length)), rest.dropWhile Char.isDigit)
  | r => some (0, r)

/-- The sign of an offset; a minus may be the mathematical one. -/
def readSign? : List Char → Option (Int × List Char)
  | '+' :: r => some (1, r)
  | '-' :: r => some (-1, r)
  | '\u2212' :: r => some (-1, r)
  | _ => none

/-- Seconds east of UTC: sign, hours, what `between` reads, minutes below sixty. -/
def readOffset? (between : List Char → Option (List Char)) (cs : List Char) :
    Option (Int × List Char) := do
  let (sign, r) ← readSign? cs
  let (hours, r) ← readNumber? 2 2 r
  let (minutes, r) ← readNumber? 2 2 (← between r)
  if minutes < 60 then some (sign * (hours * 3600 + minutes * 60 : Nat), r) else none

/-- Any number of colons and blanks. -/
def skipSeparators (cs : List Char) : Option (List Char) :=
  some (cs.dropWhile fun c => c == ':' || Text.isBlank c)

/-- One colon. -/
def skipColon? : List Char → Option (List Char)
  | ':' :: r => some r
  | _ => none

/-- Reads one part at the beginning of a text. -/
def Part.read? (w : Written) (cs : List Char) : Part → Option (Written × List Char)
  | .loose field => (readLoose? field cs).map fun (n, r) => (w.note field n, r)
  | .exact field width => (readNumber? width width cs).map fun (n, r) => (w.note field n, r)
  | .monthName => (readMonthName? cs).map fun (n, r) => (w.note .month n, r)
  | .fraction => (readFraction? cs).map fun (n, r) => ({ w with nanos := n }, r)
  | .gap => some (w, Text.trimStart cs)
  | .oneOf allowed =>
    match cs with
    | c :: r => if allowed.contains c then some (w, r) else none
    | [] => none
  | .looseOffset =>
    (readOffset? skipSeparators (Text.trimStart cs)).map fun (n, r) => ({ w with offset := n }, r)
  | .exactOffset =>
    match cs with
    | 'Z' :: r => some (w, r)
    | 'z' :: r => some (w, r)
    | _ => (readOffset? skipColon? cs).map fun (n, r) => ({ w with offset := n }, r)

/-- Reads parts one after the other, to the end of the text. -/
def readParts? (w : Written) (cs : List Char) : List Part → Option Written
  | [] => if cs.isEmpty then some w else none
  | part :: parts =>
    match part.read? w cs with
    | some (w, rest) => readParts? w rest parts
    | none => none

/-! ## The forms -/

/-- Year, month and day in numbers. -/
def numberDate : List Part :=
  [.loose .year, .oneOf ['-'], .loose .month, .oneOf ['-'], .loose .day]

/-- Hour, minute and second with a fraction. -/
def looseTime : List Part :=
  [.loose .hour, .oneOf [':'], .loose .minute, .oneOf [':'], .loose .second, .fraction]

/-- The form with fixed widths in which moments are exchanged. -/
def exchangeForm : List Part :=
  [.exact .year 4, .oneOf ['-'], .exact .month 2, .oneOf ['-'], .exact .day 2,
   .oneOf ['t', 'T', ' '],
   .exact .hour 2, .oneOf [':'], .exact .minute 2, .oneOf [':'], .exact .second 2, .fraction,
   .exactOffset]

/-- The forms in the order in which they are tried. -/
def forms : List (List Part) :=
  [numberDate ++ [.gap] ++ looseTime ++ [.gap, .looseOffset],
   exchangeForm,
   numberDate ++ [.gap] ++ looseTime,
   numberDate ++ [.oneOf ['T']] ++ looseTime,
   [.loose .year, .oneOf ['-'], .monthName, .oneOf ['-'], .loose .day],
   numberDate]

/-- The moment that was written, if there is such a day, time and offset.  Second 60 is a leap
second: it counts as second 59 with a further 1000000000 nanoseconds. -/
def Written.moment? (w : Written) : Option Moment :=
  let second := min w.second 59
  let leap := if w.second = 60 then 1000000000 else 0
  let wall : Int := w.date.number * 86400 + (w.hour * 3600 + w.minute * 60 + second : Nat)
  let seconds := wall - w.offset
  let inRange (s : Int) : Bool :=
    (Day.mk firstYear 1 1).number * 86400 ≤ s && s < ((Day.mk lastYear 12 31).number + 1) * 86400
  if w.date.isValid && w.hour < 24 && w.minute < 60 && w.second ≤ 60 &&
      w.offset.natAbs < 86400 && inRange seconds then
    some ⟨seconds, w.nanos + leap, w.offset⟩
  else none

/-- The moment a text names, blanks around it left out. -/
def Moment.read? (text : List Char) : Option Moment :=
  forms.findSome? fun form => do (← readParts? {} (Text.trim text) form).moment?

/-! ## Writing -/

/-- A number with at least so many digits. -/
def padded (width n : Nat) : List Char :=
  let digits := Number.toDigits n
  List.replicate (width - digits.length) '0' ++ digits

/-- A year: four digits, with a sign where four digits do not hold it. -/
def yearText (year : Int) : List Char :=
  if year < 0 then '-' :: padded 4 year.natAbs
  else if 9999 < year then '+' :: padded 4 year.natAbs
  else padded 4 year.natAbs

/-- The text of a moment in UTC, cut to the microsecond: `2006-01-02 15:04:05.000000 +0000`. -/
def Moment.text (m : Moment) : String :=
  let day := Day.ofNumber (m.seconds / 86400)
  let time := (m.seconds % 86400).toNat
  let second := time % 60 + m.nanos / 1000000000
  String.ofList (yearText day.year ++ '-' :: padded 2 day.month ++ '-' :: padded 2 day.day ++
    ' ' :: padded 2 (time / 3600) ++ ':' :: padded 2 (time / 60 % 60) ++ ':' :: padded 2 second ++
    '.' :: padded 6 (m.nanos % 1000000000 / 1000) ++ " +0000".toList)

end Tabula.Calendar
