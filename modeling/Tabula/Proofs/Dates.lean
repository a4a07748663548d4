import Tabula.Proofs.Numerals
import Tabula.Proofs.Timestamps

/-!
# Dates

A date in numbers is one token if the calendar has the day, and three numbers otherwise.  Dates may
also be written with the name of the month, and with midnight as their time; in all these forms they
are read as the beginning of the day, and compared as days.

* `Day.Fits.scan_date`, `Day.Fits.scan_numbers`: the tokens of a date in numbers.
* `DateForm.read?_text`: a date is read in every form, if the calendar has the day.
* `DateForm.lt_iff`: dates are compared as days, whatever their forms.
* `Day.Fits.calendar_decides`: all of this together.
-/

namespace Tabula

open Calendar Lexeme

/-! ## Algorithm -/

namespace Calendar

/-- The names of the months, abbreviated. -/
def monthTitles : List String :=
  ["Jan", "Feb", "Mar", "Apr", "May", "Jun", "Jul", "Aug", "Sep", "Oct", "Nov", "Dec"]

/-- The abbreviated name of a month. -/
def monthTitle (month : Nat) : List Char :=
  (monthTitles[month - 1]?.getD "").toList

/-- How a date is written. -/
inductive DateForm where
  | numbers
  /-- With the name of the month. -/
  | named
  /-- With midnight as the time. -/
  | midnight
deriving DecidableEq, Repr

/-- The characters of a date. -/
def DateForm.chars (d : Day) : DateForm → List Char
  | .numbers => d.numerals
  | .named => yearText d.year ++ '-' :: monthTitle d.month ++ '-' :: padded 2 d.day
  | .midnight => d.numerals ++ ' ' :: clockText 0 0 0

/-- A date in a form. -/
def DateForm.text (form : DateForm) (d : Day) : String :=
  String.ofList (form.chars d)

end Calendar

/-! ## Lemmas -/

/-! ### Reading dates -/

namespace Calendar

variable {d : Day} {w : Written} {rest : List Char} {parts : List Part}

/-- Where no number of a month is read, no date is. -/
theorem readParts?_of_month {part : Field → Part} (hpart : ReadBlocks part) (hd : d.Fits)
    (hmonth : ∀ w, (part .month).read? w rest = none) :
    readParts? w (yearText d.year ++ '-' :: rest) (dateParts part ++ parts) = none := by
  rw [hd.padded_year, dateParts]
  simp only [List.cons_append, List.nil_append]
  rw [hpart .year _ _ _ _ hd.year_lt, readParts?_oneOf List.mem_cons_self,
    readParts?_of_none (hmonth _)]

/-- No name of a month begins with a digit. -/
theorem readMonthName?_of_isDigit {c : Char} (hc : c.isDigit = true) (cs : List Char) :
    readMonthName? (c :: cs) = none := by
  have hnames : ∀ name ∈ monthNames, name.toList.head?.all (fun c => !c.isDigit) = true := by
    decide
  unfold readMonthName?
  dsimp only
  rw [List.findIdx?_eq_none_iff.2 fun name hname => ?_]
  · rfl
  · rw [beq_eq_false_iff_ne]
    rintro rfl
    have hhead := hnames _ hname
    rw [String.toList_ofList, List.take_succ_cons, List.map_cons,
      Text.toLower_of_isDigit hc] at hhead
    simp [hc] at hhead

/-- A date in numbers is read as its day. -/
theorem read?_numerals (hd : d.Fits) (htrim : Text.trim d.numerals = d.numerals) :
    Moment.read? d.numerals = Written.moment? { date := d } := by
  have hparts {part : Field → Part} (hpart : ReadBlocks part) (parts : List Part) :
      readParts? {} d.numerals (dateParts part ++ parts) =
        readParts? { date := d } [] parts := by
    rw [← List.append_nil d.numerals]
    exact readParts?_numerals hpart hd
  have hloose := hparts readBlocks_loose
  have hblock := hparts readBlocks_block
  have hname : readParts? {} d.numerals
      [.loose .year, .oneOf ['-'], .monthName, .oneOf ['-'], .loose .day] = none := by
    obtain ⟨c, cs, hlist, hc⟩ := padded_head Field.month.width d.month
    rw [← List.append_nil d.numerals, hd.numerals, readBlocks_loose .year _ _ _ _ hd.year_lt,
      readParts?_oneOf List.mem_cons_self, hlist, List.cons_append,
      readParts?_of_none (by rw [Part.read?, readMonthName?_of_isDigit hc]; rfl)]
  rw [Moment.read?_of_trim htrim, forms_eq]
  have hend : readParts? { date := d } [] [] = some { date := d } := rfl
  simp only [List.findSome?_cons, hloose, hblock, hname, readParts?_gap_nil, readParts?_oneOf_nil,
    hend, Option.bind_none, Option.bind_some, List.findSome?_nil]
  cases Written.moment? { date := d } <;> rfl

/-! ### Names of months -/

theorem readNumber?_of_not_digit {c : Char} (hc : c.isDigit = false) {least : Nat}
    (hleast : 0 < least) (most : Nat) (cs : List Char) :
    readNumber? least most (c :: cs) = none := by
  have hdigits : ((c :: cs).take most).takeWhile Char.isDigit = [] := by
    cases most with
    | zero => rfl
    | succ most => exact List.takeWhile_cons_of_neg (by rw [hc]; exact Bool.false_ne_true)
  unfold readNumber?
  dsimp only
  rw [hdigits]
  exact if_neg (Nat.not_le.2 hleast)

/-- The name of a month begins with a letter. -/
theorem monthTitle_head {month : Nat} (hpos : 1 ≤ month) (hle : month ≤ 12) :
    ∃ c cs, monthTitle month = c :: cs ∧ c.isDigit = false ∧ Text.isBlank c = false := by
  interval_cases month <;> exact ⟨_, _, rfl, by decide, by decide⟩

/-- The name of a month is read as the month. -/
theorem readMonthName?_monthTitle {month : Nat} (hpos : 1 ≤ month) (hle : month ≤ 12)
    (rest : List Char) : readMonthName? (monthTitle month ++ rest) = some (month, rest) := by
  interval_cases month <;> rfl

/-- No number is read from the name of a month. -/
theorem loose_of_monthTitle {month : Nat} (hpos : 1 ≤ month) (hle : month ≤ 12) (w : Written)
    (rest : List Char) : (Part.loose .month).read? w (monthTitle month ++ rest) = none := by
  obtain ⟨c, cs, hlist, hdigit, hblank⟩ := monthTitle_head hpos hle
  have hread (cs : List Char) : readLoose? .month cs =
      (readNumber? 1 2 (Text.trimStart cs)).map fun p => ((p.1 : Int), p.2) := rfl
  rw [hlist, List.cons_append, Part.read?, hread, trimStart_of_head hblank,
    readNumber?_of_not_digit hdigit Nat.one_pos]
  rfl

theorem block_of_monthTitle {month : Nat} (hpos : 1 ≤ month) (hle : month ≤ 12) (w : Written)
    (rest : List Char) : (Part.block .month).read? w (monthTitle month ++ rest) = none := by
  obtain ⟨c, cs, hlist, hdigit, -⟩ := monthTitle_head hpos hle
  rw [hlist, List.cons_append, Part.block, Part.read?,
    readNumber?_of_not_digit hdigit (Field.width_pos .month)]
  rfl

theorem readParts?_monthName {month : Nat} (hpos : 1 ≤ month) (hle : month ≤ 12) :
    readParts? w (monthTitle month ++ rest) (.monthName :: parts) =
      readParts? (w.note .month month) rest parts := by
  simp only [readParts?, Part.read?, readMonthName?_monthTitle hpos hle, Option.map_some]

/-- A date with the name of the month is read as its day. -/
theorem read?_named (hd : d.Fits) (hpos : 1 ≤ d.month) (hle : d.month ≤ 12)
    (htrim : Text.trim (DateForm.named.chars d) = DateForm.named.chars d) :
    Moment.read? (DateForm.named.chars d) = Written.moment? { date := d } := by
  have hchars : DateForm.named.chars d =
      yearText d.year ++ '-' :: (monthTitle d.month ++ '-' :: padded Field.day.width d.day) := by
    simp only [DateForm.chars, Field.width, List.append_assoc, List.cons_append]
  have hloose (parts : List Part) :
      readParts? {} (DateForm.named.chars d) (dateParts .loose ++ parts) = none := by
    rw [hchars]
    exact readParts?_of_month readBlocks_loose hd fun w => loose_of_monthTitle hpos hle w _
  have hblock (parts : List Part) :
      readParts? {} (DateForm.named.chars d) (dateParts .block ++ parts) = none := by
    rw [hchars]
    exact readParts?_of_month readBlocks_block hd fun w => block_of_monthTitle hpos hle w _
  have hname : readParts? {} (DateForm.named.chars d)
      [.loose .year, .oneOf ['-'], .monthName, .oneOf ['-'], .loose .day] =
        some { date := d } := by
    rw [hchars, hd.padded_year, readBlocks_loose .year _ _ _ _ hd.year_lt,
      readParts?_oneOf List.mem_cons_self, readParts?_monthName hpos hle,
      readParts?_oneOf List.mem_cons_self, ← List.append_nil (padded _ _),
      readBlocks_loose .day _ _ _ _ hd.day_lt, hd.note]
    rfl
  rw [Moment.read?_of_trim htrim, forms_eq]
  simp only [List.findSome?_cons, hloose, hblock, hname, Option.bind_none, Option.bind_some]
  cases Written.moment? { date := d } <;> rfl

/-! ### Midnight -/

/-- A date with midnight as its time is read as its day. -/
theorem read?_midnight (hd : d.Fits)
    (htrim : Text.trim (DateForm.midnight.chars d) = DateForm.midnight.chars d) {m : Moment}
    (hm : Written.moment? { date := d } = some m) :
    Moment.read? (DateForm.midnight.chars d) = some m := by
  have hclock {part : Field → Part} (hpart : ReadBlocks part) (parts : List Part) :
      readParts? { date := d } (clockText 0 0 0) (timeParts part ++ parts) =
        readParts? { date := d } [] parts := by
    rw [← List.append_nil (clockText 0 0 0)]
    exact readParts?_clockText hpart (by decide) (by decide) (by decide)
  have hgap (parts : List Part) :
      readParts? {} (DateForm.midnight.chars d)
        (dateParts .loose ++ .gap :: (timeParts .loose ++ parts)) =
          readParts? { date := d } [] parts := by
    rw [DateForm.chars, readParts?_numerals readBlocks_loose hd,
      ← List.append_nil (clockText 0 0 0), readParts?_gap, List.append_nil,
      hclock readBlocks_loose]
  have hblock (parts : List Part) :
      readParts? {} (DateForm.midnight.chars d)
        (dateParts .block ++ .oneOf ['t', 'T', ' '] :: (timeParts .block ++ parts)) =
          readParts? { date := d } [] parts := by
    rw [DateForm.chars, readParts?_numerals readBlocks_block hd, readParts?_oneOf (by decide),
      hclock readBlocks_block]
  have hzone : readParts? { date := d } [] [.fraction, .gap, .looseOffset] = none := rfl
  have hzone' : readParts? { date := d } [] [.fraction, .exactOffset] = none := rfl
  have hend : readParts? { date := d } [] [.fraction] = some { date := d } := rfl
  rw [Moment.read?_of_trim htrim, forms_eq]
  simp only [List.findSome?_cons, hgap, hblock, hzone, hzone', hend, Option.bind_none,
    Option.bind_some, hm]

/-! ### All forms -/

namespace DateForm

/-- A date begins with a year and a hyphen. -/
theorem chars_year (hd : d.Fits) (form : DateForm) :
    ∃ rest, form.chars d = padded Field.year.width d.year.natAbs ++ '-' :: rest := by
  cases form with
  | numbers => exact ⟨_, by rw [chars, ← List.append_nil d.numerals, hd.numerals]⟩
  | named => exact ⟨_, by rw [chars, hd.padded_year, List.append_assoc, List.cons_append]⟩
  | midnight => exact ⟨_, by rw [chars, hd.numerals]⟩

/-- A date ends with two digits. -/
theorem chars_last (d : Day) (form : DateForm) :
    ∃ front n, form.chars d = front ++ padded 2 n := by
  cases form with
  | numbers =>
    exact ⟨yearText d.year ++ '-' :: padded 2 d.month ++ ['-'], d.day, by
      simp [chars, Day.numerals]⟩
  | named =>
    exact ⟨yearText d.year ++ '-' :: monthTitle d.month ++ ['-'], d.day, by simp [chars]⟩
  | midnight =>
    exact ⟨d.numerals ++ ' ' :: padded 2 0 ++ ':' :: padded 2 0 ++ [':'], 0, by
      simp [chars, clockText]⟩

/-- A date neither begins nor ends with a blank. -/
theorem trim_chars (hd : d.Fits) (form : DateForm) : Text.trim (form.chars d) = form.chars d := by
  obtain ⟨rest, hyear⟩ := chars_year hd form
  obtain ⟨front, n, hlast⟩ := chars_last d form
  refine trim_of_blocks ?_ (hlast ▸ last_block front 2 n)
  rw [hyear]
  exact head_block _ _ _

/-- A date is no number. -/
theorem number?_chars (hd : d.Fits) (form : DateForm) :
    Number.Decimal.read? (Text.trim (form.chars d)) = none := by
  obtain ⟨rest, hyear⟩ := chars_year hd form
  rw [trim_chars hd, hyear, read?_block_hyphen]

/-- A day without a time is its midnight, if the calendar has the day. -/
theorem moment?_eq (hd : d.Fits) : Written.moment? { date := d } =
    if d.isValid then some ⟨d.number * 86400, 0, 0⟩ else none := by
  rw [Written.moment?_of_fits hd (by decide) (by decide) (by decide)]
  simp

/-- In every form, a day of the calendar is read as its midnight. -/
theorem read?_text (hd : d.Fits) (hcalendar : d.InCalendar) (form : DateForm) :
    Moment.read? (form.text d).toList = some ⟨d.number * 86400, 0, 0⟩ := by
  have hmoment : Written.moment? { date := d } = some ⟨d.number * 86400, 0, 0⟩ := by
    rw [moment?_eq hd, if_pos (hd.isValid_iff.2 hcalendar)]
  have htrim := trim_chars hd form
  rw [text, String.toList_ofList]
  cases form with
  | numbers => exact (read?_numerals hd htrim).trans hmoment
  | named => exact (read?_named hd hcalendar.month_pos hcalendar.month_le htrim).trans hmoment
  | midnight => exact read?_midnight hd htrim hmoment

/-- Dates are compared as days, whatever their forms. -/
theorem lt_iff {e : Day} (hd : d.Fits) (hd' : d.InCalendar) (he : e.Fits) (he' : e.InCalendar)
    (form other : DateForm) :
    CompareOp.lt.holds (.value (.text (form.text d))) (.lexeme (other.text e)) = true ↔
      d.Before e := by
  have hnumber : Number.Decimal.read? (Text.trim (form.text d).toList) = none := by
    rw [text, String.toList_ofList, number?_chars hd]
  have hnanos : 0 < 1000000000 := by decide
  rw [Operand.lt_iff_of_moments hnumber (read?_text hd hd' form) (read?_text he he' other),
    Moment.before_iff hnanos hnanos, ← Day.number_lt_iff hd' he']
  simp only [Moment.instant]
  omega

end DateForm

end Calendar

/-! ### Tokens of a date -/

/-- What is found is the first token. -/
theorem Token.scanFrom_of_finds {w rest text : List Char} {kind : TokenKind}
    (h : Finds (first? (w ++ rest)) kind text w.length) (position : Nat) :
    scanFrom position (w ++ rest) = (scanFrom (position + w.length) rest >>= fun tokens =>
      .ok (⟨kind, String.ofList text, position⟩ :: tokens)) := by
  obtain ⟨l, hl, rfl, rfl, hwidth⟩ := h
  rw [scanFrom_of_first? hl, hwidth, List.drop_left]

/-- A number ends before a hyphen. -/
theorem Lexeme.hyphen_ends {rest : List Char} :
    ∀ c ∈ ('-' :: rest).head?, Text.isWordChar c = false ∧ c ≠ '.' := by
  intro c hc
  obtain rfl := Option.some.inj hc
  decide

theorem Lexeme.now?_of_isDigit {c : Char} (hc : c.isDigit = true) (cs : List Char) :
    now? (c :: cs) = none := by
  rw [now?, if_neg]
  intro h
  rw [List.take_succ_cons, List.map_cons, Text.toLower_of_isDigit hc] at h
  rw [(List.cons.inj h).1] at hc
  cases hc

namespace Calendar.Day.Fits

variable {d : Day} (hd : d.Fits)
include hd

theorem numerals_eq : d.numerals =
    padded 4 d.year.natAbs ++ ('-' :: padded 2 d.month ++ ('-' :: padded 2 d.day)) := by
  rw [Day.numerals, hd.padded_year, List.append_assoc]
  rfl

/-- A date in numbers has the shape of a date. -/
theorem shape : hasDateShape d.numerals = true ∧ d.numerals.length = 10 := by
  obtain ⟨a, b, c, e, hyear⟩ := padded_four hd.year_lt
  obtain ⟨f, g, hmonth⟩ := padded_two hd.month_lt
  obtain ⟨i, j, hday⟩ := padded_two hd.day_lt
  have hchars : d.numerals = [a, b, c, e, '-', f, g, '-', i, j] := by
    rw [hd.numerals_eq, hyear, hmonth, hday]
    rfl
  have hdigits : ([a, b, c, e] ++ [f, g] ++ [i, j]).all Char.isDigit = true := by
    rw [← hyear, ← hmonth, ← hday, List.all_eq_true]
    intro x hx
    rcases List.mem_append.1 hx with hx | hx
    · rcases List.mem_append.1 hx with hx | hx <;> exact isDigit_of_mem_padded hx
    · exact isDigit_of_mem_padded hx
  rw [hchars]
  exact ⟨hdigits, rfl⟩

/-- A date in numbers is found if the calendar has the day. -/
theorem date?_numerals : date? d.numerals =
    if d.isValid then some ⟨.date, d.numerals, 10, Nat.succ_pos _⟩ else none := by
  have htake : d.numerals.take 10 = d.numerals := List.take_of_length_le hd.shape.2.le
  have hdrop : d.numerals.drop 10 = [] := List.drop_of_length_le hd.shape.2.le
  have hread : Moment.read? d.numerals = Written.moment? { date := d } :=
    read?_numerals hd (DateForm.trim_chars hd .numbers)
  have hend : startsInWord [] = false := rfl
  simp only [date?, htake, hdrop, hd.shape.1, hend, hread, DateForm.moment?_eq hd]
  cases d.isValid <;> rfl

theorem first?_numerals : first? d.numerals =
    (date? d.numerals).or ((number? d.numerals).or (word? d.numerals)) := by
  obtain ⟨c, cs, hlist, hc⟩ := padded_head 4 d.year.natAbs
  rw [hd.numerals_eq, hlist, List.cons_append, first?_ordinary (ordinary_of_isDigit hc),
    now?_of_isDigit hc, Option.none_or]

/-- A day of the calendar is one token. -/
theorem scan_date (hcalendar : d.InCalendar) :
    Token.scan (DateForm.numbers.text d) = .ok [⟨.date, DateForm.numbers.text d, 0⟩] := by
  have hfirst : first? d.numerals = some ⟨.date, d.numerals, 10, by omega⟩ := by
    rw [hd.first?_numerals, hd.date?_numerals, if_pos (hd.isValid_iff.2 hcalendar), Option.some_or]
  have hend : d.numerals.drop 10 = [] := List.drop_of_length_le hd.shape.2.le
  rw [Token.scan, DateForm.text, String.toList_ofList, DateForm.chars,
    Token.scanFrom_of_first? hfirst, hend, Token.scanFrom]
  rfl

/-- The year of a day that the calendar does not have is a number. -/
theorem finds_year (hcalendar : ¬d.InCalendar) :
    Finds (first? d.numerals) .number (padded 4 d.year.natAbs)
      (padded 4 d.year.natAbs).length := by
  obtain ⟨c, hc, hdigit⟩ := head_block 4 d.year.natAbs
    ('-' :: padded 2 d.month ++ ('-' :: padded 2 d.day))
  obtain ⟨l, hl, hkind, htext, hwidth⟩ : Finds (unsigned? [] (padded 4 d.year.natAbs ++
      ('-' :: padded 2 d.month ++ ('-' :: padded 2 d.day)))) _ _ _ :=
    unsigned?_digits [] (padded_ne_nil _ _) (fun c hc => isDigit_of_mem_padded hc) hyphen_ends
  rw [List.length_nil, Nat.zero_add] at hwidth
  rw [← hd.numerals_eq] at hc hl
  have hhead : d.numerals.head? ≠ some '-' := by
    intro hminus
    obtain rfl := Option.some.inj (hc.symm.trans hminus)
    cases hdigit
  refine ⟨l, ?_, hkind, htext, hwidth⟩
  rw [hd.first?_numerals, hd.date?_numerals, if_neg (mt hd.isValid_iff.1 hcalendar),
    Option.none_or, number?_unsigned hhead, hl, Option.some_or]

/-- A day that the calendar does not have is three numbers. -/
theorem scan_numbers (hcalendar : ¬d.InCalendar) :
    Token.scan (DateForm.numbers.text d) =
      .ok [⟨.number, String.ofList (padded 4 d.year.natAbs), 0⟩,
        ⟨.number, String.ofList ('-' :: padded 2 d.month), 4⟩,
        ⟨.number, String.ofList ('-' :: padded 2 d.day), 7⟩] := by
  have hlength : (padded 4 d.year.natAbs).length = 4 := length_padded (by decide) hd.year_lt
  have hlength' : ('-' :: padded 2 d.month).length = 3 :=
    congrArg Nat.succ (length_padded (by decide) hd.month_lt)
  have hyear := hd.finds_year hcalendar
  rw [hd.numerals_eq] at hyear
  have hmonth : Finds (first? ('-' :: padded 2 d.month ++ ('-' :: padded 2 d.day))) .number
      ('-' :: padded 2 d.month) ('-' :: padded 2 d.month).length :=
    finds_signed (padded_ne_nil _ _) (fun c hc => isDigit_of_mem_padded hc) hyphen_ends
  have hday : Finds (first? ('-' :: padded 2 d.day ++ [])) .number ('-' :: padded 2 d.day)
      ('-' :: padded 2 d.day).length :=
    finds_signed (padded_ne_nil _ _) (fun c hc => isDigit_of_mem_padded hc) fun c hc => by cases hc
  have hend := Token.scanFrom_of_finds hday 7
  rw [List.append_nil, Token.scanFrom, ok_bind] at hend
  rw [Token.scan, DateForm.text, String.toList_ofList, DateForm.chars, hd.numerals_eq,
    Token.scanFrom_of_finds hyear, hlength, Token.scanFrom_of_finds hmonth, hlength', hend]
  rfl

end Calendar.Day.Fits

/-! ## Main result -/

/-- A date in numbers is one token if the calendar has the day, and three numbers otherwise.  A date
in any form is read as the beginning of its day, and dates are in the order of their days, whatever
their forms. -/
theorem Calendar.Day.Fits.calendar_decides {d : Day} (hd : d.Fits) :
    (Token.scan (DateForm.numbers.text d) = .ok [⟨.date, DateForm.numbers.text d, 0⟩] ↔
      d.InCalendar) ∧
    (¬d.InCalendar → Token.scan (DateForm.numbers.text d) =
      .ok [⟨.number, String.ofList (padded 4 d.year.natAbs), 0⟩,
        ⟨.number, String.ofList ('-' :: padded 2 d.month), 4⟩,
        ⟨.number, String.ofList ('-' :: padded 2 d.day), 7⟩]) ∧
    (d.InCalendar → ∀ form : DateForm,
      Moment.read? (form.text d).toList = some ⟨d.number * 86400, 0, 0⟩ ∧
      ∀ (e : Day) (other : DateForm), e.Fits → e.InCalendar →
        (CompareOp.lt.holds (.value (.text (form.text d))) (.lexeme (other.text e)) = true ↔
          d.Before e)) := by
  refine ⟨⟨fun hscan => ?_, hd.scan_date⟩, hd.scan_numbers, fun hcalendar form =>
    ⟨form.read?_text hd hcalendar, fun e other he he' => form.lt_iff hd hcalendar he he' other⟩⟩
  by_contra hnot
  rw [hd.scan_numbers hnot] at hscan
  cases hscan

/-- A day that every fourth century has and others do not, and the day after it. -/
theorem Calendar.Day.Fits.calendar_decides_of_leap :
    Token.scan "2000-02-29" = .ok [⟨.date, "2000-02-29", 0⟩] ∧
      Token.scan "1900-02-29" =
        .ok [⟨.number, "1900", 0⟩, ⟨.number, "-02", 4⟩, ⟨.number, "-29", 7⟩] ∧
      Moment.read? "2000-Feb-29".toList = some ⟨951782400, 0, 0⟩ ∧
      CompareOp.lt.holds (.value (.text "2000-Feb-29")) (.lexeme "2000-03-01 00:00:00") = true := by
  have hleap : Day.Fits ⟨2000, 2, 29⟩ := ⟨by decide, by decide, by decide, by decide⟩
  have hnext : Day.Fits ⟨2000, 3, 1⟩ := ⟨by decide, by decide, by decide, by decide⟩
  have hcentury : Day.Fits ⟨1900, 2, 29⟩ := ⟨by decide, by decide, by decide, by decide⟩
  have hleap' : Day.InCalendar ⟨2000, 2, 29⟩ := ⟨by decide, by decide, by decide, by decide⟩
  have hnext' : Day.InCalendar ⟨2000, 3, 1⟩ := ⟨by decide, by decide, by decide, by decide⟩
  have hcentury' : ¬Day.InCalendar ⟨1900, 2, 29⟩ := fun h => absurd h.day_le (by decide)
  have hbefore : Day.Before ⟨2000, 2, 29⟩ ⟨2000, 3, 1⟩ := .inr ⟨rfl, .inl (by decide)⟩
  have hnumbers : DateForm.numbers.text ⟨2000, 2, 29⟩ = "2000-02-29" := by decide +kernel
  have hnamed : DateForm.named.text ⟨2000, 2, 29⟩ = "2000-Feb-29" := by decide +kernel
  have hmidnight : DateForm.midnight.text ⟨2000, 3, 1⟩ = "2000-03-01 00:00:00" := by
    decide +kernel
  obtain ⟨hscan, -, hforms⟩ := hleap.calendar_decides
  obtain ⟨hread, hlt⟩ := hforms hleap' .named
  obtain ⟨-, hrefused, -⟩ := hcentury.calendar_decides
  refine ⟨hnumbers ▸ hscan.2 hleap', ?_, ?_, ?_⟩
  · exact (by decide +kernel : DateForm.numbers.text ⟨1900, 2, 29⟩ = "1900-02-29") ▸
      hrefused hcentury'
  · rw [← hnamed]
    exact hread
  · rw [← hnamed, ← hmidnight]
    exact (hlt ⟨2000, 3, 1⟩ .midnight hnext hnext').2 hbefore

end Tabula
