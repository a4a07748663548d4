import Mathlib.Tactic.IntervalCases
import Tabula.Calendar.Moment

/-!
# The calendar counts days

The days of the calendar are numbered one after the other.  A day has exactly one number, the days
of the calendar are in the order of year, month and day of the month, and every number is that of a
day.

* `Day.InCalendar`, `Day.isValid_iff`: the days of the calendar, by the rule of thirty days.
* `Day.number_next`: the day after a day has the next number.
* `Day.number_lt_iff`, `Day.number_inj`: earlier days have lesser numbers.
* `Day.inCalendar_ofNumber`, `Day.number_ofNumber`: the day of a number.
-/

namespace Tabula.Calendar

/-! ## Algorithm -/

/-- The length of a year. -/
def yearLength (year : Int) : Nat :=
  if isLeap year then 366 else 365

/-- The length of a month: thirty days have April, June, September and November. -/
def monthLength (year : Int) (month : Nat) : Nat :=
  if month = 2 then if isLeap year then 29 else 28
  else if month ∈ [4, 6, 9, 11] then 30 else 31

/-- The days of several months. -/
def daysOf : List Nat → Nat
  | [] => 0
  | length :: rest => length + daysOf rest

namespace Day

/-- The calendar has the day, whatever the year. -/
structure InCalendar (d : Day) : Prop where
  month_pos : 1 ≤ d.month
  month_le : d.month ≤ 12
  day_pos : 1 ≤ d.day
  day_le : d.day ≤ monthLength d.year d.month

/-- The day of the year, from 1. -/
def ofYear (d : Day) : Nat :=
  daysBeforeMonth d.year d.month + d.day

/-- One day is before another: by year, then by month, then by day of the month. -/
def Before (d e : Day) : Prop :=
  d.year < e.year ∨ d.year = e.year ∧ (d.month < e.month ∨ d.month = e.month ∧ d.day < e.day)

/-- The day after a day. -/
def next (d : Day) : Day :=
  if d.day < monthLength d.year d.month then { d with day := d.day + 1 }
  else if d.month < 12 then ⟨d.year, d.month + 1, 1⟩
  else ⟨d.year + 1, 1, 1⟩

end Day

/-! ## Lemmas -/

/-! ### Years -/

theorem isLeap_iff {year : Int} :
    isLeap year = true ↔ year % 4 = 0 ∧ (year % 100 ≠ 0 ∨ year % 400 = 0) := by
  simp [isLeap]

theorem daysBeforeYear_succ (year : Int) :
    daysBeforeYear (year + 1) = daysBeforeYear year + yearLength year := by
  unfold daysBeforeYear yearLength
  split
  · next h =>
    rw [isLeap_iff] at h
    omega
  · next h =>
    rw [isLeap_iff] at h
    omega

theorem daysBeforeYear_mono {a b : Int} (h : a ≤ b) : daysBeforeYear a ≤ daysBeforeYear b := by
  unfold daysBeforeYear
  omega

theorem daysBeforeYear_lt {a b : Int} (h : a < b) :
    daysBeforeYear a + yearLength a ≤ daysBeforeYear b := by
  rw [← daysBeforeYear_succ]
  exact daysBeforeYear_mono h

/-! ### Months -/

theorem foldl_daysOf (lengths : List Nat) : ∀ n, lengths.foldl (· + ·) n = n + daysOf lengths := by
  induction lengths with
  | nil => intro n; rfl
  | cons length rest ih => intro n; rw [List.foldl_cons, ih, daysOf, Nat.add_assoc]

theorem daysBeforeMonth_eq (year : Int) (month : Nat) :
    daysBeforeMonth year month = daysOf ((monthLengths year).take (month - 1)) := by
  rw [daysBeforeMonth, foldl_daysOf, Nat.zero_add]

theorem daysOf_monthLengths (year : Int) : daysOf (monthLengths year) = yearLength year := by
  unfold monthLengths yearLength
  split <;> rfl

theorem daysBeforeMonth_end (year : Int) : daysBeforeMonth year 13 = yearLength year := by
  rw [daysBeforeMonth_eq, ← daysOf_monthLengths]
  rfl

theorem monthLengths_getElem? (year : Int) {month : Nat} (hpos : 1 ≤ month) (hle : month ≤ 12) :
    (monthLengths year)[month - 1]? = some (monthLength year month) := by
  interval_cases month <;> rfl

theorem daysBeforeMonth_succ (year : Int) {month : Nat} (hpos : 1 ≤ month) (hle : month ≤ 12) :
    daysBeforeMonth year (month + 1) = daysBeforeMonth year month + monthLength year month := by
  have hsplit : ∀ (lengths : List Nat) (i n : Nat), lengths[i]? = some n →
      daysOf (lengths.take (i + 1)) = daysOf (lengths.take i) + n := by
    intro lengths
    induction lengths with
    | nil => intro i n h; cases h
    | cons length rest ih =>
      intro i n h
      cases i with
      | zero =>
        obtain rfl := Option.some.inj h
        exact Nat.add_comm _ _
      | succ i =>
        rw [List.take_succ_cons, List.take_succ_cons, daysOf, daysOf, ih i n h, Nat.add_assoc]
  rw [daysBeforeMonth_eq, daysBeforeMonth_eq, Nat.add_sub_cancel,
    ← hsplit _ _ _ (monthLengths_getElem? year hpos hle), Nat.sub_add_cancel hpos]

theorem daysBeforeMonth_le (year : Int) {month later : Nat} (hpos : 1 ≤ month)
    (h : month < later) (hle : later ≤ 13) :
    daysBeforeMonth year month + monthLength year month ≤ daysBeforeMonth year later := by
  obtain ⟨k, rfl⟩ := Nat.exists_eq_add_of_lt h
  induction k with
  | zero => exact (daysBeforeMonth_succ year hpos (by omega)).ge
  | succ k ih =>
    rw [show month + (k + 1) + 1 = month + k + 1 + 1 from rfl,
      daysBeforeMonth_succ year (by omega) (by omega)]
    exact Nat.le_add_right_of_le (ih (by omega) (by omega))

namespace Day

variable {d e : Day}

/-! ### Days of the year -/

theorem ofYear_pos (hd : d.InCalendar) : 1 ≤ d.ofYear :=
  Nat.le_add_left_of_le hd.day_pos

theorem ofYear_le (hd : d.InCalendar) : d.ofYear ≤ yearLength d.year := by
  rw [← daysBeforeMonth_end]
  exact (Nat.add_le_add_left hd.day_le _).trans
    (daysBeforeMonth_le d.year hd.month_pos (Nat.lt_succ_of_le hd.month_le) le_rfl)

theorem number_eq (d : Day) : d.number = daysBeforeYear d.year + d.ofYear - 719163 := by
  rw [number, ofYear, Nat.cast_add, Int.add_assoc]

/-! ### The order of days -/

theorem number_lt (hd : d.InCalendar) (he : e.InCalendar) (h : d.Before e) :
    d.number < e.number := by
  rw [number_eq, number_eq]
  rcases h with hyear | ⟨hyear, hmonth | ⟨hmonth, hday⟩⟩
  · have hyears := daysBeforeYear_lt hyear
    have hle := ofYear_le hd
    have hpos := ofYear_pos he
    omega
  · have hmonths := daysBeforeMonth_le d.year hd.month_pos hmonth (Nat.le_succ_of_le he.month_le)
    have hle := hd.day_le
    have hpos := he.day_pos
    unfold ofYear
    rw [← hyear]
    omega
  · unfold ofYear
    rw [← hyear, ← hmonth]
    omega

theorem before_trichotomy (d e : Day) : d.Before e ∨ d = e ∨ e.Before d := by
  obtain ⟨y, m, n⟩ := d
  obtain ⟨y', m', n'⟩ := e
  simp only [Before, Day.mk.injEq]
  omega

/-- Earlier days have lesser numbers. -/
theorem number_lt_iff (hd : d.InCalendar) (he : e.InCalendar) :
    d.number < e.number ↔ d.Before e := by
  refine ⟨fun h => ?_, number_lt hd he⟩
  rcases before_trichotomy d e with hbefore | rfl | hafter
  · exact hbefore
  · exact absurd h (Int.lt_irrefl _)
  · exact absurd (number_lt he hd hafter) (Int.not_lt.2 (Int.le_of_lt h))

theorem number_inj (hd : d.InCalendar) (he : e.InCalendar) : d.number = e.number ↔ d = e := by
  refine ⟨fun h => ?_, congrArg number⟩
  rcases before_trichotomy d e with hbefore | heq | hafter
  · exact absurd h (Int.ne_of_lt (number_lt hd he hbefore))
  · exact heq
  · exact absurd h.symm (Int.ne_of_lt (number_lt he hd hafter))

/-- The numbers count the days from 1 January 1970. -/
theorem number_next (hd : d.InCalendar) : d.next.number = d.number + 1 := by
  have hday := hd.day_le
  have hend := daysBeforeMonth_succ d.year hd.month_pos hd.month_le
  unfold next
  split
  · simp only [number]
    omega
  · split
    · simp only [number, hend]
      omega
    · have hmonth : d.month + 1 = 13 := by
        have := hd.month_le
        omega
      have hyear : daysBeforeMonth d.year d.month + monthLength d.year d.month =
          yearLength d.year := by
        rw [← hend, hmonth, daysBeforeMonth_end]
      have hnew : daysBeforeMonth (d.year + 1) 1 = 0 := rfl
      simp only [number, daysBeforeYear_succ, hnew]
      omega

/-- Days are counted from the beginning of 1970. -/
theorem number_epoch : (Day.mk 1970 1 1).number = 0 := by
  decide

/-! ### The day of a number -/

/-- The month and the day that are found lie in the list, and as many days before them as were
counted off. -/
theorem locate_spec (lengths : List Nat) : ∀ (first : Nat) {n : Nat}, n < daysOf lengths →
    ∃ i length, lengths[i]? = some length ∧ (locate first lengths n).1 = first + i ∧
      1 ≤ (locate first lengths n).2 ∧ (locate first lengths n).2 ≤ length ∧
      daysOf (lengths.take i) + (locate first lengths n).2 = n + 1 := by
  induction lengths with
  | nil => intro first n h; exact absurd h (Nat.not_lt_zero n)
  | cons length rest ih =>
    intro first n h
    rw [daysOf] at h
    unfold locate
    split
    · next hfirst => exact ⟨0, length, rfl, rfl, by omega, hfirst, Nat.zero_add _⟩
    · next hlater =>
      obtain ⟨i, found, hi, hmonth, hpos, hle, hcount⟩ :=
        ih (first + 1) (n := n - length) (by omega)
      refine ⟨i + 1, found, hi, by omega, hpos, hle, ?_⟩
      rw [List.take_succ_cons, daysOf]
      omega

/-- The year that is guessed is the one that the day lies in, or the year before it. -/
theorem ofNumber_year (n : Int) : daysBeforeYear (ofNumber n).year ≤ n + 719162 ∧
    n + 719162 < daysBeforeYear ((ofNumber n).year + 1) := by
  simp only [ofNumber]
  split
  · unfold daysBeforeYear at *
    omega
  · split
    · unfold daysBeforeYear at *
      omega
    · unfold daysBeforeYear at *
      omega

/-- The month and the day of a number are those that its day of the year falls into. -/
theorem ofNumber_located (n : Int) :
    ((ofNumber n).month, (ofNumber n).day) =
      locate 1 (monthLengths (ofNumber n).year)
        (n + 719162 - daysBeforeYear (ofNumber n).year).toNat := by
  simp only [ofNumber]

/-- A day whose year holds the number, and that is found in this year, has the number. -/
theorem number_of_located {n : Int} (hfrom : daysBeforeYear d.year ≤ n + 719162)
    (hto : n + 719162 < daysBeforeYear (d.year + 1))
    (hlocated : (d.month, d.day) =
      locate 1 (monthLengths d.year) (n + 719162 - daysBeforeYear d.year).toNat) :
    d.InCalendar ∧ d.number = n := by
  rw [daysBeforeYear_succ] at hto
  obtain ⟨i, length, hi, hmonth, hpos, hle, hcount⟩ := locate_spec (monthLengths d.year) 1
    (n := (n + 719162 - daysBeforeYear d.year).toNat) (by rw [daysOf_monthLengths]; omega)
  rw [← hlocated] at hmonth hpos hle hcount
  dsimp only at hmonth hpos hle hcount
  have hlt : i < 12 := (List.getElem?_eq_some_iff.1 hi).1
  have hlength : monthLength d.year d.month = length := by
    have hat : (monthLengths d.year)[d.month - 1]? = _ :=
      monthLengths_getElem? d.year (by omega) (by omega)
    rw [hmonth, Nat.add_sub_cancel_left, hi] at hat
    rw [hmonth]
    exact (Option.some.inj hat).symm
  have hbefore : daysBeforeMonth d.year d.month = daysOf ((monthLengths d.year).take i) := by
    rw [daysBeforeMonth_eq, hmonth, Nat.add_sub_cancel_left]
  refine ⟨⟨by omega, by omega, hpos, hlength ▸ hle⟩, ?_⟩
  rw [number, hbefore]
  omega

theorem ofNumber_spec (n : Int) : (ofNumber n).InCalendar ∧ (ofNumber n).number = n :=
  number_of_located (ofNumber_year n).1 (ofNumber_year n).2 (ofNumber_located n)

/-- Every number is that of a day. -/
theorem inCalendar_ofNumber (n : Int) : (ofNumber n).InCalendar :=
  (ofNumber_spec n).1

@[simp] theorem number_ofNumber (n : Int) : (ofNumber n).number = n :=
  (ofNumber_spec n).2

/-! ### Days that can be named -/

/-- The days that can be named are those of the calendar, in the years that can. -/
theorem isValid_iff : d.isValid = true ↔
    firstYear ≤ d.year ∧ d.year ≤ lastYear ∧ d.InCalendar := by
  have hlength (hpos : 1 ≤ d.month) (hle : d.month ≤ 12) :
      (monthLengths d.year)[d.month - 1]?.getD 0 = monthLength d.year d.month := by
    rw [monthLengths_getElem? d.year hpos hle, Option.getD_some]
  simp only [isValid, Bool.and_eq_true, decide_eq_true_eq]
  constructor
  · rintro ⟨⟨⟨⟨⟨hfirst, hlast⟩, hmonth⟩, hmonth'⟩, hday⟩, hday'⟩
    exact ⟨hfirst, hlast, hmonth, hmonth', hday, hlength hmonth hmonth' ▸ hday'⟩
  · rintro ⟨hfirst, hlast, hmonth, hmonth', hday, hday'⟩
    exact ⟨⟨⟨⟨⟨hfirst, hlast⟩, hmonth⟩, hmonth'⟩, hday⟩, (hlength hmonth hmonth').symm ▸ hday'⟩

end Day

end Tabula.Calendar
