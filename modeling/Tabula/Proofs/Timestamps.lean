import Mathlib
import Tabula.Proofs.Blocks
import Tabula.Proofs.Comparing

/-!
# Times are in order

The time that a statement reads is stored as a text.  The text is read back as the moment, cut to
the microsecond; and since all its numbers stand in blocks of digits, from the year down, texts are
in the order of the moments, whether they are compared as moments or as texts.

* `Moment.Plain.read?_text`: a text is read back.
* `Moment.Plain.text_lt_iff`: texts are compared as their moments.
* `Moment.Plain.text_chronological`: reading back, the operators and ORDER BY together.
-/

namespace Tabula

/-! ## Algorithm -/

namespace Calendar.Moment

/-- A moment in UTC, in a year of four digits and in no leap second. -/
structure Plain (m : Moment) : Prop where
  utc : m.offset = 0
  nanos_lt : m.nanos < 1000000000
  first : (Day.mk 0 1 1).number * 86400 ≤ m.seconds
  last : m.seconds < (Day.mk 10000 1 1).number * 86400

/-- The moment, cut to the microsecond. -/
def truncated (m : Moment) : Moment :=
  { m with nanos := m.nanos / 1000 * 1000 }

/-- Nanoseconds since the beginning of 1970 in UTC. -/
def instant (m : Moment) : Int :=
  m.seconds * 1000000000 + m.nanos

/-- The day in UTC. -/
def date (m : Moment) : Day :=
  .ofNumber (m.seconds / 86400)

/-- The second of the day. -/
def ofDay (m : Moment) : Nat :=
  (m.seconds % 86400).toNat

end Calendar.Moment

/-! ## Lemmas -/

namespace Calendar.Moment

variable {m : Moment}

/-! ### The layout of a text -/

theorem ofDay_lt (m : Moment) : m.ofDay < 86400 := by
  unfold ofDay
  omega

theorem inCalendar_date (m : Moment) : m.date.InCalendar :=
  Day.inCalendar_ofNumber (m.seconds / 86400)

theorem seconds_eq (m : Moment) : m.seconds = m.date.number * 86400 + m.ofDay := by
  unfold date ofDay
  rw [Day.number_ofNumber]
  omega

namespace Plain

theorem fits (h : m.Plain) : m.date.Fits := by
  have hcalendar := m.inCalendar_date
  have hseconds := m.seconds_eq
  have hday := m.ofDay_lt
  have hfirst := h.first
  have hlast := h.last
  have hbefore : ¬m.date.Before ⟨0, 1, 1⟩ := by
    rw [← Day.number_lt_iff hcalendar ⟨by decide, by decide, by decide, by decide⟩]
    omega
  have hafter : m.date.Before ⟨10000, 1, 1⟩ := by
    rw [← Day.number_lt_iff hcalendar ⟨by decide, by decide, by decide, by decide⟩]
    omega
  have hmonth := hcalendar.month_le
  have hmonth' := hcalendar.month_pos
  have hdays := hcalendar.day_pos
  have hdays' := hcalendar.day_le
  have hlength : monthLength m.date.year m.date.month ≤ 31 := by
    unfold monthLength
    split
    · split <;> decide
    · split <;> decide
  simp only [Day.Before] at hbefore hafter
  exact ⟨by omega, by omega, by omega, by omega⟩

/-- A text is a date, a time, a fraction and an offset. -/
theorem text (h : m.Plain) : m.text.toList = m.date.numerals ++ ' ' :: (clockAt m.ofDay ++
    '.' :: (padded 6 (m.nanos / 1000) ++ [' ', '+', '0', '0', '0', '0'])) := by
  have hleap : m.nanos / 1000000000 = 0 := Nat.div_eq_of_lt h.nanos_lt
  have hnanos : m.nanos % 1000000000 = m.nanos := Nat.mod_eq_of_lt h.nanos_lt
  have hzone : " +0000".toList = [' ', '+', '0', '0', '0', '0'] := by decide
  unfold Moment.text
  simp only [String.toList_ofList, hleap, hnanos, hzone, Nat.add_zero, Day.numerals, clockAt,
    clockText, List.append_assoc, List.cons_append]
  rfl

/-! ### Reading a text -/

/-- A text has no blanks around it. -/
theorem trim_text (h : m.Plain) : Text.trim m.text.toList = m.text.toList := by
  have hlast : m.text.toList.getLast? = some '0' := by
    have hfront : m.text.toList = m.date.numerals ++ ' ' :: (clockAt m.ofDay ++
        '.' :: (padded 6 (m.nanos / 1000) ++ [' ', '+', '0', '0', '0'])) ++ ['0'] := by
      rw [h.text]
      simp only [List.append_assoc, List.cons_append, List.nil_append]
    rw [hfront, List.getLast?_concat]
  refine trim_of_blocks ?_ ⟨'0', hlast, by decide⟩
  rw [h.text, h.fits.numerals]
  exact head_block Field.year.width m.date.year.natAbs _

/-- A text is no number. -/
theorem read?_none (h : m.Plain) : Number.Decimal.read? (Text.trim m.text.toList) = none := by
  rw [h.trim_text, h.text, h.fits.numerals, read?_block_hyphen]

/-- A text is read as the moment, cut to the microsecond. -/
theorem read?_text (h : m.Plain) : Moment.read? m.text.toList = some m.truncated := by
  have hday := m.ofDay_lt
  have hmicros : m.nanos / 1000 < 10 ^ 6 := by
    have := h.nanos_lt
    omega
  have hzone : ∀ c ∈ [' ', '+', '0', '0', '0', '0'].head?, c.isDigit = false := by
    intro c hc
    obtain rfl := Option.some.inj hc
    rfl
  have hvalid : m.date.isValid = true :=
    h.fits.isValid_iff.2 m.inCalendar_date
  have hmoment : Written.moment?
      ⟨m.date, m.ofDay / 3600, m.ofDay / 60 % 60, m.ofDay % 60, m.nanos / 1000 * 1000, 0⟩ =
        some m.truncated := by
    rw [Written.moment?_of_fits h.fits (by omega) (by omega) (by omega), if_pos hvalid]
    have hclock : m.ofDay / 3600 * 3600 + m.ofDay / 60 % 60 * 60 + m.ofDay % 60 = m.ofDay := by
      omega
    rw [hclock, ← m.seconds_eq, ← h.utc]
    rfl
  rw [read?_of_trim h.trim_text, forms_eq, List.findSome?_cons, h.text,
    readParts?_numerals readBlocks_loose h.fits, clockAt, readParts?_gap,
    readParts?_clockText readBlocks_loose (by omega) (by omega) (by omega),
    readParts?_fraction hmicros hzone, readParts?_zone, Option.bind_some]
  dsimp only
  rw [hmoment]

/-! ### Comparing texts -/

/-- Texts are compared as their moments, cut to the microsecond. -/
theorem text_lt_iff {n : Moment} (hm : m.Plain) (hn : n.Plain) :
    m.text < n.text ↔ m.truncated.instant < n.truncated.instant := by
  have hmicros {k : Moment} (hk : k.Plain) : k.nanos / 1000 < 10 ^ 6 := by
    have := hk.nanos_lt
    omega
  have hblank {s t : List Char} : ' ' :: s < ' ' :: t ↔ s < t := by
    simp
  have hzone : ¬(['+', '0', '0', '0', '0'] : List Char) < ['+', '0', '0', '0', '0'] := by decide
  have hlayout : m.text < n.text ↔ m.date.number < n.date.number ∨
      m.date.number = n.date.number ∧ (m.ofDay < n.ofDay ∨ m.ofDay = n.ofDay ∧
        m.nanos / 1000 < n.nanos / 1000) := by
    rw [String.lt_iff, hm.text, hn.text, Day.numerals_lt_iff hm.fits hn.fits, hblank,
      clockAt_lt_iff m.ofDay_lt n.ofDay_lt, block_lt_iff (by decide) (hmicros hm) (hmicros hn),
      Day.number_lt_iff m.inCalendar_date n.inCalendar_date,
      Day.number_inj m.inCalendar_date n.inCalendar_date]
    simp only [hzone, and_false, or_false]
  have hseconds := m.seconds_eq
  have hseconds' := n.seconds_eq
  have hday := m.ofDay_lt
  have hday' := n.ofDay_lt
  have hnanos := hmicros hm
  have hnanos' := hmicros hn
  rw [hlayout]
  simp only [instant, truncated, Nat.cast_mul, Nat.cast_ofNat]
  omega

end Plain

/-- Outside leap seconds, moments are in the order of their nanoseconds. -/
theorem before_iff {m n : Moment} (hm : m.nanos < 1000000000) (hn : n.nanos < 1000000000) :
    m.before n = true ↔ m.instant < n.instant := by
  simp only [before, instant, Bool.or_eq_true, Bool.and_eq_true, decide_eq_true_eq, beq_iff_eq]
  omega

theorem Plain.truncated_lt (h : m.Plain) : m.truncated.nanos < 1000000000 :=
  (Nat.div_mul_le_self _ _).trans_lt h.nanos_lt

end Calendar.Moment

/-- Two texts that are moments, and the first no number, are compared as moments. -/
theorem Operand.lt_iff_of_moments {s t : String} {m n : Calendar.Moment}
    (hnumber : Number.Decimal.read? (Text.trim s.toList) = none)
    (hm : Calendar.Moment.read? s.toList = some m) (hn : Calendar.Moment.read? t.toList = some n) :
    CompareOp.lt.holds (.value (.text s)) (.lexeme t) = true ↔ m.before n = true := by
  have hmoment : (Operand.value (.text s)).moment? = some m := hm
  have hmoment' : (Operand.lexeme t).moment? = some n := hn
  have hnone : (Operand.value (.text s)).number? = none := hnumber
  have horder : (Operand.value (.text s)).order? (.lexeme t) = some .lt ↔ m.before n = true := by
    rw [order?, hnone, hmoment, hmoment']
    dsimp only
    rw [Option.some_inj]
    by_cases hbefore : m.before n = true
    · rw [if_pos hbefore]
      exact iff_of_true rfl hbefore
    · rw [if_neg hbefore]
      refine iff_of_false ?_ hbefore
      split
      · exact Ordering.noConfusion
      · exact Ordering.noConfusion
  rw [← horder]
  exact beq_iff_eq

/-- Texts that are before each other as numbers are have the order of the numbers. -/
theorem compare_of_lt_iff {s t : String} {a b : Int} (hlt : s < t ↔ a < b) (hgt : t < s ↔ b < a) :
    compare s t = compare a b := by
  have heq : s = t ↔ a = b := by
    rw [eq_iff_le_not_lt, eq_iff_le_not_lt, ← not_lt, hlt, hgt, not_lt]
  show compareOfLessAndEq s t = compareOfLessAndEq a b
  simp only [compareOfLessAndEq, hlt, heq]

/-! ## Main result -/

namespace Calendar.Moment

/-- A time that is written by the microsecond is read back as the moment, cut to the microsecond;
and of two of them, `<` holds of the one that is earlier then, and ORDER BY puts them into the order
of the moments. -/
theorem Plain.text_chronological {m n : Moment} (hm : m.Plain) (hn : n.Plain) :
    Moment.read? m.text.toList = some m.truncated ∧
      (CompareOp.lt.holds (.value (.text m.text)) (.lexeme n.text) = true ↔
        m.truncated.instant < n.truncated.instant) ∧
      (Value.text m.text).compareForSort (.text n.text) =
        compare m.truncated.instant n.truncated.instant := by
  refine ⟨hm.read?_text, ?_, ?_⟩
  · rw [Operand.lt_iff_of_moments hm.read?_none hm.read?_text hn.read?_text,
      before_iff hm.truncated_lt hn.truncated_lt]
  · have hnumber : (Value.text m.text).asDecimal? = none := by
      rw [Value.asDecimal?, hm.read?_none]
    rw [Value.compareForSort_of_canonical (.inl hnumber) Value.noConfusion Value.noConfusion]
    exact compare_of_lt_iff (hm.text_lt_iff hn) (hn.text_lt_iff hm)

/-- The last nanosecond of February in a leap year, and the beginning of March. -/
theorem Plain.text_chronological_of_february :
    let m : Moment := ⟨951868799, 999999999, 0⟩
    let n : Moment := ⟨951868800, 0, 0⟩
    m.text = "2000-02-29 23:59:59.999999 +0000" ∧
      Moment.read? m.text.toList = some ⟨951868799, 999999000, 0⟩ ∧
      CompareOp.lt.holds (.value (.text m.text)) (.lexeme n.text) = true ∧
      (Value.text m.text).compareForSort (.text n.text) = .lt := by
  intro m n
  have hm : m.Plain := ⟨rfl, by decide, by decide, by decide⟩
  have hn : n.Plain := ⟨rfl, by decide, by decide, by decide⟩
  have htruncated : m.truncated = ⟨951868799, 999999000, 0⟩ := by decide
  have hinstant : m.truncated.instant < n.truncated.instant := by decide
  obtain ⟨hread, hlt, hsort⟩ := hm.text_chronological hn
  rw [htruncated] at hread
  exact ⟨by decide +kernel, hread, hlt.2 hinstant, hsort.trans (compare_lt_iff_lt.2 hinstant)⟩

end Calendar.Moment

end Tabula
