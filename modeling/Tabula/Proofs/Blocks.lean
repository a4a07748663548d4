import Mathlib
import Tabula.Calendar.Notation
import Tabula.Proofs.Chronology
import Tabula.Proofs.Lookahead
import Tabula.Proofs.Spacing

/-!
# Dates and times in blocks of digits

A date and a time are written in blocks of as many digits as their numbers may have, with marks
between the blocks.  The parts of a form read one block after the other, and blocks at the same
places are compared as their numbers.

* `padded_lt_iff`: blocks of one width are compared as their numbers.
* `readParts?_numerals`, `readParts?_clockText`: what the parts of a date and a time read.
* `Day.numerals_lt_iff`: dates are compared as their days.
-/

namespace Tabula

/-! ## Algorithm -/

namespace Calendar

/-- Digits that a number of a kind is written with. -/
def Field.width : Field → Nat
  | .year => 4
  | _ => 2

/-- The part that reads a block of all its digits. -/
def Part.block (field : Field) : Part :=
  .exact field field.width

/-- A day in numbers. -/
def Day.numerals (d : Day) : List Char :=
  yearText d.year ++ '-' :: padded 2 d.month ++ '-' :: padded 2 d.day

/-- Hour, minute and second. -/
def clockText (hour minute second : Nat) : List Char :=
  padded 2 hour ++ ':' :: padded 2 minute ++ ':' :: padded 2 second

/-- A second of the day as hour, minute and second. -/
def clockAt (second : Nat) : List Char :=
  clockText (second / 3600) (second / 60 % 60) (second % 60)

/-- Parts for the numbers of a date. -/
def dateParts (part : Field → Part) : List Part :=
  [part .year, .oneOf ['-'], part .month, .oneOf ['-'], part .day]

/-- Parts for the numbers of a time. -/
def timeParts (part : Field → Part) : List Part :=
  [part .hour, .oneOf [':'], part .minute, .oneOf [':'], part .second]

/-- Parts that read a block as its number, whatever comes after it. -/
def ReadBlocks (part : Field → Part) : Prop :=
  ∀ (field : Field) (n : Nat) (w : Written) (rest : List Char) (parts : List Part),
    n < 10 ^ field.width → readParts? w (padded field.width n ++ rest) (part field :: parts) =
      readParts? (w.note field n) rest parts

/-- A day whose numbers have four digits, two and two. -/
structure Day.Fits (d : Day) : Prop where
  year_nonneg : 0 ≤ d.year
  year_le : d.year ≤ 9999
  month_lt : d.month < 100
  day_lt : d.day < 100

end Calendar

/-! ## Lemmas -/

/-! ### The order of texts -/

/-- Texts are compared by what they begin with, where this is as long in both. -/
theorem append_lt_append_iff {a b s t : List Char} (h : a.length = b.length) :
    a ++ s < b ++ t ↔ a < b ∨ a = b ∧ s < t := by
  induction a generalizing b with
  | nil =>
    obtain rfl := List.length_eq_zero_iff.1 h.symm
    simp
  | cons c cs ih =>
    cases b with
    | nil => cases h
    | cons d ds =>
      rw [List.cons_append, List.cons_append, List.cons_lt_cons_iff, List.cons_lt_cons_iff,
        ih (Nat.succ.inj h), List.cons.injEq]
      tauto

namespace Number

theorem ofDigits_cons (c : Char) (cs : List Char) :
    ofDigits (c :: cs) = 10 ^ cs.length * (c.toNat - '0'.toNat) + ofDigits cs := by
  have hhead : ofDigits [c] = c.toNat - '0'.toNat := by simp [ofDigits]
  rw [← hhead, ← Decimal.ofDigits_append]
  rfl

theorem ofDigits_lt {ds : List Char} (h : ∀ c ∈ ds, c.isDigit = true) :
    ofDigits ds < 10 ^ ds.length := by
  induction ds with
  | nil => exact Nat.one_pos
  | cons c cs ih =>
    have hc := Text.isDigit_bounds (h c List.mem_cons_self)
    have hrest := ih fun d hd => h d (List.mem_cons_of_mem _ hd)
    have hle : c.toNat - '0'.toNat ≤ 9 := by
      have : '0'.toNat = 48 := rfl
      omega
    rw [ofDigits_cons, List.length_cons, pow_succ]
    have := Nat.mul_le_mul_left (10 ^ cs.length) hle
    omega

/-- Numbers of units and less than a unit are compared by the units first. -/
theorem units_lt_iff {unit a b x y : Nat} (hx : x < unit) (hy : y < unit) :
    unit * a + x < unit * b + y ↔ a < b ∨ a = b ∧ x < y := by
  rcases Nat.lt_trichotomy a b with hlt | rfl | hgt
  · have hstep : unit * (a + 1) ≤ unit * b := Nat.mul_le_mul_left _ hlt
    rw [Nat.mul_succ] at hstep
    exact iff_of_true (by omega) (.inl hlt)
  · simp
  · have hstep : unit * (b + 1) ≤ unit * a := Nat.mul_le_mul_left _ hgt
    rw [Nat.mul_succ] at hstep
    exact iff_of_false (by omega) (by omega)

/-- Rows of as many digits are compared as their numbers. -/
theorem digits_lt_iff {ds es : List Char} (hlength : ds.length = es.length)
    (hds : ∀ c ∈ ds, c.isDigit = true) (hes : ∀ c ∈ es, c.isDigit = true) :
    ds < es ↔ ofDigits ds < ofDigits es := by
  induction ds generalizing es with
  | nil =>
    obtain rfl := List.length_eq_zero_iff.1 hlength.symm
    simp
  | cons c cs ih =>
    cases es with
    | nil => cases hlength
    | cons d ds =>
      have hc := Text.isDigit_bounds (hds c List.mem_cons_self)
      have hd := Text.isDigit_bounds (hes d List.mem_cons_self)
      have hcs : ∀ x ∈ cs, x.isDigit = true := fun x hx => hds x (List.mem_cons_of_mem _ hx)
      have hds' : ∀ x ∈ ds, x.isDigit = true := fun x hx => hes x (List.mem_cons_of_mem _ hx)
      have hlength' : cs.length = ds.length := Nat.succ.inj hlength
      have hlow := ofDigits_lt hds'
      rw [← hlength'] at hlow
      have hchar : c < d ↔ c.toNat - '0'.toNat < d.toNat - '0'.toNat := by
        have hval : c < d ↔ c.toNat < d.toNat := by
          rw [Char.lt_def, UInt32.lt_iff_toNat_lt]
          rfl
        have hzero : '0'.toNat = 48 := rfl
        rw [hval]
        omega
      have heq : c = d ↔ c.toNat - '0'.toNat = d.toNat - '0'.toNat := by
        have hzero : '0'.toNat = 48 := rfl
        rw [← Char.toNat_inj]
        omega
      rw [List.cons_lt_cons_iff, ih hlength' hcs hds', ofDigits_cons, ofDigits_cons, ← hlength',
        units_lt_iff (ofDigits_lt hcs) hlow, hchar, heq]

end Number

namespace Calendar

/-! ### Blocks -/

section

variable {width m n : Nat}

theorem isDigit_of_mem_padded {c : Char} (h : c ∈ padded width n) : c.isDigit = true :=
  Number.Decimal.isDigit_of_mem_padded h

theorem ofDigits_padded (width n : Nat) : Number.ofDigits (padded width n) = n :=
  Number.Decimal.ofDigits_padded _ n

theorem length_padded (hpos : 0 < width) (h : n < 10 ^ width) :
    (padded width n).length = width := by
  have hle : (Number.toDigits n).length ≤ width :=
    (Nat.length_toDigits_le_iff (by decide) hpos).2 h
  rw [padded, List.length_append, List.length_replicate]
  omega

theorem padded_four (h : n < 10000) : ∃ a b c d, padded 4 n = [a, b, c, d] := by
  have hlength : (padded 4 n).length = 4 := length_padded (by decide) h
  match hlist : padded 4 n, hlength with
  | [a, b, c, d], _ => exact ⟨a, b, c, d, rfl⟩

theorem padded_two (h : n < 100) : ∃ a b, padded 2 n = [a, b] := by
  have hlength : (padded 2 n).length = 2 := length_padded (by decide) h
  match hlist : padded 2 n, hlength with
  | [a, b], _ => exact ⟨a, b, rfl⟩

theorem padded_inj : padded width m = padded width n ↔ m = n := by
  refine ⟨fun h => ?_, congrArg _⟩
  rw [← ofDigits_padded width m, h, ofDigits_padded]

/-- Blocks of one width are compared as their numbers. -/
theorem padded_lt_iff (hpos : 0 < width) (hm : m < 10 ^ width) (hn : n < 10 ^ width) :
    padded width m < padded width n ↔ m < n := by
  rw [Number.digits_lt_iff ((length_padded hpos hm).trans (length_padded hpos hn).symm)
    (fun c hc => isDigit_of_mem_padded hc) (fun c hc => isDigit_of_mem_padded hc),
    ofDigits_padded, ofDigits_padded]

/-- A block before other characters is compared first. -/
theorem block_lt_iff (hpos : 0 < width) (hm : m < 10 ^ width) (hn : n < 10 ^ width) (c : Char)
    (s t : List Char) :
    padded width m ++ c :: s < padded width n ++ c :: t ↔ m < n ∨ m = n ∧ s < t := by
  rw [append_lt_append_iff ((length_padded hpos hm).trans (length_padded hpos hn).symm),
    padded_lt_iff hpos hm hn, padded_inj, List.cons_lt_cons_iff]
  simp

/-! ### Reading blocks -/

/-- A block is read, and no more where no digit comes after it or no more is read. -/
theorem readNumber?_padded (hpos : 0 < width) (h : n < 10 ^ width) {least most : Nat}
    (hleast : least ≤ width) (hmost : width ≤ most) {rest : List Char}
    (hrest : ∀ c ∈ (rest.take (most - width)).head?, c.isDigit = false) :
    readNumber? least most (padded width n ++ rest) = some (n, rest) := by
  have hlength := length_padded hpos h
  have hdigits : ((padded width n ++ rest).take most).takeWhile Char.isDigit = padded width n := by
    rw [List.take_append, hlength, List.take_of_length_le (hlength.trans_le hmost),
      takeWhile_append_of_head hrest]
    exact List.takeWhile_eq_self_iff.2 fun c hc => isDigit_of_mem_padded hc
  unfold readNumber?
  dsimp only
  rw [hdigits, hlength, if_pos hleast, ofDigits_padded, List.drop_left' hlength]

/-- A block is read where no more digits are read than it has. -/
theorem readNumber?_full (hpos : 0 < width) (h : n < 10 ^ width) {least : Nat}
    (hleast : least ≤ width) (rest : List Char) :
    readNumber? least width (padded width n ++ rest) = some (n, rest) := by
  refine readNumber?_padded hpos h hleast le_rfl ?_
  rw [Nat.sub_self, List.take_zero]
  intro c hc
  cases hc

end

theorem trimStart_of_head {c : Char} (h : Text.isBlank c = false) (cs : List Char) :
    Text.trimStart (c :: cs) = c :: cs :=
  List.dropWhile_cons_of_neg (by rw [h]; exact Bool.false_ne_true)

theorem padded_ne_nil (width n : Nat) : padded width n ≠ [] := by
  intro hnil
  have hempty : Number.toDigits n = [] := (List.append_eq_nil_iff.1 hnil).2
  exact Nat.toDigits_ne_nil hempty

theorem padded_head (width n : Nat) :
    ∃ c cs, padded width n = c :: cs ∧ c.isDigit = true := by
  obtain ⟨c, cs, hlist⟩ := List.exists_cons_of_ne_nil (padded_ne_nil width n)
  exact ⟨c, cs, hlist, isDigit_of_mem_padded (hlist ▸ List.mem_cons_self)⟩

theorem head_block (width n : Nat) (rest : List Char) :
    ∃ c ∈ (padded width n ++ rest).head?, c.isDigit = true := by
  obtain ⟨c, cs, hlist, hc⟩ := padded_head width n
  exact ⟨c, by rw [hlist]; rfl, hc⟩

theorem last_block (front : List Char) (width n : Nat) :
    ∃ c ∈ (front ++ padded width n).getLast?, c.isDigit = true := by
  have hne := padded_ne_nil width n
  refine ⟨(padded width n).getLast hne, ?_, isDigit_of_mem_padded (List.getLast_mem hne)⟩
  rw [List.getLast?_append_of_ne_nil _ hne, List.getLast?_eq_some_getLast hne]
  rfl

/-- A text that begins and ends with a digit has no blanks around it. -/
theorem trim_of_blocks {cs : List Char} (hhead : ∃ c ∈ cs.head?, c.isDigit = true)
    (hlast : ∃ c ∈ cs.getLast?, c.isDigit = true) : Text.trim cs = cs := by
  obtain ⟨c, hc, hdigit⟩ := hhead
  obtain ⟨d, hd, hdigit'⟩ := hlast
  refine Lexeme.trim_of_ends (fun x hx => ?_) fun x hx => ?_
  · obtain rfl := Option.some.inj (hc.symm.trans hx)
    exact (Lexeme.ordinary_of_isDigit hdigit).blank
  · obtain rfl := Option.some.inj (hd.symm.trans hx)
    exact (Lexeme.ordinary_of_isDigit hdigit').blank

/-- A block before a hyphen is no number. -/
theorem read?_block_hyphen (width n : Nat) (rest : List Char) :
    Number.Decimal.read? (padded width n ++ '-' :: rest) = none :=
  Number.Decimal.read?_hyphen (padded_ne_nil width n) (fun _ hc => isDigit_of_mem_padded hc) rest

theorem Field.width_pos (field : Field) : 0 < field.width := by
  cases field <;> decide

theorem readLoose?_padded (field : Field) {n : Nat} (h : n < 10 ^ field.width)
    (rest : List Char) :
    readLoose? field (padded field.width n ++ rest) = some ((n : Int), rest) := by
  obtain ⟨c, cs, hlist, hc⟩ := padded_head field.width n
  have htrim : Text.trimStart (padded field.width n ++ rest) = padded field.width n ++ rest := by
    rw [hlist, List.cons_append, trimStart_of_head (Lexeme.ordinary_of_isDigit hc).blank]
  have hread := readNumber?_full field.width_pos h (Nat.succ_le_of_lt field.width_pos) rest
  unfold readLoose?
  rw [htrim]
  cases field with
  | year =>
    split
    · next heq =>
      rw [hlist] at heq
      rw [(List.cons.inj heq).1] at hc
      cases hc
    · next heq =>
      rw [hlist] at heq
      rw [(List.cons.inj heq).1] at hc
      cases hc
    · rw [show readNumber? 1 4 _ = _ from hread]
      rfl
    · contradiction
  | _ =>
    show (readNumber? 1 2 _).map _ = _
    rw [show readNumber? 1 2 _ = _ from hread]
    rfl

section

variable {w : Written} {rest : List Char} {parts : List Part}

/-- The forms, with the blocks of dates and times apart. -/
theorem forms_eq : forms =
    [dateParts Part.loose ++ Part.gap :: (timeParts Part.loose ++
      [Part.fraction, Part.gap, Part.looseOffset]),
     dateParts Part.block ++ Part.oneOf ['t', 'T', ' '] :: (timeParts Part.block ++
      [Part.fraction, Part.exactOffset]),
     dateParts Part.loose ++ Part.gap :: (timeParts Part.loose ++ [Part.fraction]),
     dateParts Part.loose ++ Part.oneOf ['T'] :: (timeParts Part.loose ++ [Part.fraction]),
     [.loose .year, .oneOf ['-'], .monthName, .oneOf ['-'], .loose .day],
     dateParts Part.loose ++ []] :=
  rfl

/-- A text without blanks around it is read in the first form that it has. -/
theorem Moment.read?_of_trim {cs : List Char} (h : Text.trim cs = cs) :
    Moment.read? cs = forms.findSome? fun form => (readParts? {} cs form).bind (·.moment?) := by
  rw [Moment.read?, h]
  rfl

theorem readBlocks_loose : ReadBlocks .loose := by
  intro field n w rest parts h
  simp only [readParts?, Part.read?, readLoose?_padded field h, Option.map_some]

theorem readBlocks_block : ReadBlocks .block := by
  intro field n w rest parts h
  simp only [readParts?, Part.block, Part.read?, readNumber?_full field.width_pos h le_rfl,
    Option.map_some]

theorem readParts?_oneOf {c : Char} {allowed : List Char} (h : c ∈ allowed) :
    readParts? w (c :: rest) (.oneOf allowed :: parts) = readParts? w rest parts := by
  simp only [readParts?, Part.read?, List.contains_iff_mem.2 h, if_true]

/-- A blank before a time is a gap. -/
theorem readParts?_gap (hour minute second : Nat) :
    readParts? w (' ' :: (clockText hour minute second ++ rest)) (.gap :: parts) =
      readParts? w (clockText hour minute second ++ rest) parts := by
  obtain ⟨c, cs, hlist, hc⟩ := padded_head 2 hour
  have htrim : Text.trimStart (' ' :: (clockText hour minute second ++ rest)) =
      clockText hour minute second ++ rest := by
    simp only [clockText, hlist, List.append_assoc, List.cons_append]
    rw [Text.trimStart, List.dropWhile_cons_of_pos (by decide)]
    exact trimStart_of_head (Lexeme.ordinary_of_isDigit hc).blank _
  simp only [readParts?, Part.read?, htrim]

/-- Six digits after a point are microseconds. -/
theorem readParts?_fraction {n : Nat} (hn : n < 10 ^ 6)
    (hrest : ∀ c ∈ rest.head?, c.isDigit = false) :
    readParts? w ('.' :: (padded 6 n ++ rest)) (.fraction :: parts) =
      readParts? { w with nanos := n * 1000 } rest parts := by
  have hlength : (padded 6 n ++ rest).length - rest.length = 6 := by
    rw [List.length_append, length_padded (by decide) hn, Nat.add_sub_cancel]
  have hdrop : rest.dropWhile Char.isDigit = rest := dropWhile_append_of_head hrest []
  have hread : readNumber? 1 9 (padded 6 n ++ rest) = some (n, rest) := by
    refine readNumber?_padded (by decide) hn (by decide) (by decide) fun c hc => hrest c ?_
    rwa [List.head?_take, if_neg (by decide)] at hc
  simp only [readParts?, Part.read?, readFraction?, hread, Option.map_some, hlength, hdrop]

/-- The offset of UTC after a blank. -/
theorem readParts?_zone : readParts? w [' ', '+', '0', '0', '0', '0'] [.gap, .looseOffset] =
    some { w with offset := 0 } :=
  rfl

/-- Where a text ends, a gap is read, and no time. -/
theorem readParts?_gap_nil :
    readParts? w [] (Part.gap :: (timeParts Part.loose ++ parts)) = none :=
  rfl

theorem readParts?_oneOf_nil {allowed : List Char} :
    readParts? w [] (.oneOf allowed :: parts) = none :=
  rfl

theorem readParts?_of_none {cs : List Char} {part : Part} (h : part.read? w cs = none) :
    readParts? w cs (part :: parts) = none := by
  simp only [readParts?, h]

/-! ### Dates and times -/

variable {d : Day}

theorem Day.Fits.padded_year (hd : d.Fits) :
    yearText d.year = padded Field.year.width d.year.natAbs := by
  rw [yearText, if_neg (Int.not_lt.2 hd.year_nonneg), if_neg (Int.not_lt.2 hd.year_le)]
  rfl

/-- The numbers of a day stand in three blocks. -/
theorem Day.Fits.numerals (hd : d.Fits) : d.numerals ++ rest =
    padded Field.year.width d.year.natAbs ++ '-' :: (padded Field.month.width d.month ++
      '-' :: (padded Field.day.width d.day ++ rest)) := by
  rw [Day.numerals, hd.padded_year]
  simp only [List.append_assoc, List.cons_append, Field.width]

theorem Day.Fits.note (hd : d.Fits) :
    ((w.note .year d.year.natAbs).note .month d.month).note .day d.day = { w with date := d } := by
  have hyear : (d.year.natAbs : Int) = d.year := Int.natAbs_of_nonneg hd.year_nonneg
  simp only [Written.note, hyear, Int.toNat_natCast]

theorem Day.Fits.year_lt (hd : d.Fits) : d.year.natAbs < 10 ^ Field.year.width := by
  have := hd.year_nonneg
  have := hd.year_le
  show d.year.natAbs < 10000
  omega

variable {part : Field → Part} (hpart : ReadBlocks part)
include hpart

/-- The numbers of a day are read as the day. -/
theorem readParts?_numerals (hd : d.Fits) :
    readParts? w (d.numerals ++ rest) (dateParts part ++ parts) =
      readParts? { w with date := d } rest parts := by
  rw [hd.numerals, ← hd.note, dateParts]
  simp only [List.cons_append, List.nil_append]
  rw [hpart .year _ _ _ _ hd.year_lt, readParts?_oneOf List.mem_cons_self,
    hpart .month _ _ _ _ hd.month_lt, readParts?_oneOf List.mem_cons_self,
    hpart .day _ _ _ _ hd.day_lt]

/-- Hour, minute and second are read as they are. -/
theorem readParts?_clockText {hour minute second : Nat} (hhour : hour < 100)
    (hminute : minute < 100) (hsecond : second < 100) :
    readParts? w (clockText hour minute second ++ rest) (timeParts part ++ parts) =
      readParts? { w with hour := hour, minute := minute, second := second } rest parts := by
  have hchars : clockText hour minute second ++ rest = padded Field.hour.width hour ++
      ':' :: (padded Field.minute.width minute ++ ':' :: (padded Field.second.width second ++
        rest)) := by
    simp only [clockText, List.append_assoc, List.cons_append, Field.width]
  have hnote : ((w.note .hour hour).note .minute minute).note .second second =
      { w with hour := hour, minute := minute, second := second } := rfl
  rw [hchars, ← hnote, timeParts]
  simp only [List.cons_append, List.nil_append]
  rw [hpart .hour _ _ _ _ hhour, readParts?_oneOf List.mem_cons_self,
    hpart .minute _ _ _ _ hminute, readParts?_oneOf List.mem_cons_self,
    hpart .second _ _ _ _ hsecond]

end

/-! ### What was written -/

theorem Day.Fits.number_bounds {d : Day} (hd : d.Fits) (hcalendar : d.InCalendar) :
    -719528 ≤ d.number ∧ d.number ≤ 2932897 := by
  have hpos := Day.ofYear_pos hcalendar
  have hle := Day.ofYear_le hcalendar
  have hlength : yearLength d.year ≤ 366 := by
    unfold yearLength
    split <;> decide
  have hfirst : -366 ≤ daysBeforeYear d.year := daysBeforeYear_mono hd.year_nonneg
  have hlast : daysBeforeYear d.year ≤ 3651694 := daysBeforeYear_mono hd.year_le
  rw [Day.number_eq]
  omega

theorem Day.Fits.isValid_iff {d : Day} (hd : d.Fits) : d.isValid = true ↔ d.InCalendar := by
  have hfirst : firstYear ≤ d.year := Int.le_trans (by decide) hd.year_nonneg
  have hlast : d.year ≤ lastYear := Int.le_trans hd.year_le (by decide)
  rw [Day.isValid_iff]
  exact ⟨fun h => h.2.2, fun h => ⟨hfirst, hlast, h⟩⟩

/-- A date and a time of day in UTC are a moment if the calendar has the day. -/
theorem Written.moment?_of_fits {d : Day} (hd : d.Fits) {hour minute second : Nat}
    (hhour : hour < 24) (hminute : minute < 60) (hsecond : second < 60) (nanos : Nat) :
    Written.moment? ⟨d, hour, minute, second, nanos, 0⟩ =
      if d.isValid then
        some ⟨d.number * 86400 + (hour * 3600 + minute * 60 + second : Nat), nanos, 0⟩
      else none := by
  have hmin : min second 59 = second := by omega
  have hleap : second ≠ 60 := by omega
  have hlow : (Day.mk firstYear 1 1).number = -96465292 := by decide
  have hhigh : (Day.mk lastYear 12 31).number = 95026236 := by decide
  unfold moment?
  simp only [hmin, hleap, if_false, Nat.add_zero, Int.sub_zero, hlow, hhigh]
  by_cases hvalid : d.isValid = true
  · have hbounds := hd.number_bounds (hd.isValid_iff.1 hvalid)
    rw [if_pos, if_pos hvalid]
    simp only [hvalid, hhour, hminute, Bool.true_and, Bool.and_eq_true, decide_eq_true_eq,
      true_and]
    omega
  · rw [if_neg, if_neg hvalid]
    simp [hvalid]

/-! ### Comparing dates and times -/

/-- Dates are compared as their days, and then what comes after them. -/
theorem Day.numerals_lt_iff {d e : Day} (hd : d.Fits) (he : e.Fits) (s t : List Char) :
    d.numerals ++ s < e.numerals ++ t ↔ d.Before e ∨ d = e ∧ s < t := by
  have hyear : d.year.natAbs < e.year.natAbs ↔ d.year < e.year := by
    have := hd.year_nonneg
    have := he.year_nonneg
    omega
  have hyear' : d.year.natAbs = e.year.natAbs ↔ d.year = e.year := by
    have := hd.year_nonneg
    have := he.year_nonneg
    omega
  have hlength := (length_padded Field.day.width_pos hd.day_lt).trans
    (length_padded Field.day.width_pos he.day_lt).symm
  rw [hd.numerals, he.numerals, block_lt_iff Field.year.width_pos hd.year_lt he.year_lt,
    block_lt_iff Field.month.width_pos hd.month_lt he.month_lt, append_lt_append_iff hlength,
    padded_lt_iff Field.day.width_pos hd.day_lt he.day_lt, padded_inj, hyear, hyear']
  obtain ⟨year, month, day⟩ := d
  obtain ⟨year', month', day'⟩ := e
  simp only [Before, mk.injEq]
  tauto

/-- Times are compared as seconds of the day, and then what comes after them. -/
theorem clockAt_lt_iff {a b : Nat} (ha : a < 86400) (hb : b < 86400) (c : Char)
    (s t : List Char) : clockAt a ++ c :: s < clockAt b ++ c :: t ↔ a < b ∨ a = b ∧ s < t := by
  simp only [clockAt, clockText, List.append_assoc, List.cons_append]
  rw [block_lt_iff (by decide) (by omega) (by omega),
    block_lt_iff (by decide) (by omega) (by omega),
    block_lt_iff (by decide) (by omega) (by omega)]
  by_cases hst : s < t
  · simp only [hst, and_true]
    omega
  · simp only [hst, and_false, or_false]
    omega

end Calendar

end Tabula
