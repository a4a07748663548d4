import Tabula.Calendar.Notation
import Tabula.Proofs.Decimals
import Tabula.Proofs.Typing

/-!
# Values with one canonical string

Values of one kind have different canonical strings.  Across the kinds they may have the same one: a
null and the text `null`, a whole number and a decimal, anything and a text.  The type of a column
leaves few of these together in it.

* `Value.eq_of_canonical`: what is known of two values with one canonical string that are no texts.
* `Column.confuses_of_canonical`: different values of one column with one canonical string are a
  null and a text, the number of a row and what another column of its type would hold, or anything
  and a time that was not written as moments are.
-/

namespace Tabula

/-! ## Algorithm -/

/-- Whether a value is a text. -/
def Value.isText : Value → Bool
  | .text _ => true
  | _ => false

/-- Whether a value is a number. -/
def Value.isNumber : Value → Bool
  | .integer _ => true
  | .decimal _ => true
  | _ => false

/-- Two different values of a column that have one canonical string. -/
inductive Column.Confuses (a : Column) : Value → Value → Prop where
  /-- A null, and a text that says so. -/
  | null : a.columnType = .text → Confuses a .null (.text "null")
  /-- The number of a row, and a text that says so. -/
  | numeral (n : Int64) : a.columnType = .text → a.autoIncrement = true →
      Confuses a (.integer n) (.text (toString n.toInt))
  /-- The number of a row, and a decimal without a fraction. -/
  | count (n : Int64) (x : Float) : a.columnType = .decimal → a.autoIncrement = true →
      Number.Decimal.text x = toString n.toInt → Confuses a (.integer n) (.decimal x)
  /-- Any value, and a time in a column of another type, written as no moment is. -/
  | time (v : Value) : a.columnType ≠ .text → v.isText = false →
      (∀ m : Calendar.Moment, m.text ≠ v.canonical) → Confuses a v (.text v.canonical)

/-! ## Lemmas -/

/-! ### Whole numbers -/

theorem toList_toString (i : Int) : (toString i).toList =
    if 0 ≤ i then Number.toDigits i.toNat else '-' :: Number.toDigits (-i).toNat := by
  rw [Int.toString_eq_repr, Int.repr_eq_if]
  split
  · rw [Nat.toList_repr]
    rfl
  · rw [String.toList_append, Nat.toList_repr]
    rfl

theorem isDigit_of_mem_numeral {i : Int} {c : Char} (h : c ∈ (toString i).toList) :
    c.isDigit = true ∨ c = '-' := by
  rw [toList_toString] at h
  split at h
  · exact .inl (Number.Decimal.isDigit_of_mem_toDigits h)
  · rcases List.mem_cons.1 h with rfl | h
    · exact .inr rfl
    · exact .inl (Number.Decimal.isDigit_of_mem_toDigits h)

theorem toString_int_inj {i j : Int} (h : toString i = toString j) : i = j := by
  have hlist := congrArg String.toList h
  have hminus : ∀ m n : Nat, Number.toDigits m ≠ '-' :: Number.toDigits n := by
    intro m n heq
    have hdigit : ('-' : Char).isDigit = true :=
      Number.Decimal.isDigit_of_mem_toDigits (n := m) (heq ▸ List.mem_cons_self)
    cases hdigit
  rw [toList_toString, toList_toString] at hlist
  split at hlist
  · split at hlist
    · have := Number.Decimal.toDigits_inj hlist
      omega
    · exact absurd hlist (hminus _ _)
  · split at hlist
    · exact absurd hlist.symm (hminus _ _)
    · have := Number.Decimal.toDigits_inj (List.cons.inj hlist).2
      omega

/-! ### Canonical strings -/

namespace Value

/-- Numbers do not begin as `true`, `false` and `null` do. -/
theorem canonical_head_of_isNumber {v : Value} (h : v.isNumber = true) :
    ∃ c rest, v.canonical.toList = c :: rest ∧ c ∉ ['t', 'f', 'n'] := by
  have hne : ∀ c : Char, c.isDigit = true ∨ c = 'i' ∨ c = '-' ∨ c = 'N' → c ∉ ['t', 'f', 'n'] := by
    intro c hc hmem
    simp only [List.mem_cons, List.not_mem_nil, or_false] at hmem
    rcases hmem with rfl | rfl | rfl <;> rcases hc with hc | hc | hc | hc <;> cases hc
  cases v with
  | integer n =>
    obtain ⟨c, rest, hlist⟩ : ∃ c rest, (toString n.toInt).toList = c :: rest := by
      apply List.exists_cons_of_ne_nil
      rw [toList_toString]
      split
      · exact Nat.toDigits_ne_nil
      · exact List.cons_ne_nil _ _
    refine ⟨c, rest, hlist, hne c ?_⟩
    rcases isDigit_of_mem_numeral (hlist ▸ List.mem_cons_self) with hc | hc
    · exact .inl hc
    · exact .inr (.inr (.inl hc))
  | decimal x =>
    obtain ⟨c, rest, hlist, hc⟩ := Number.Decimal.text_head x
    exact ⟨c, rest, hlist, hne c hc⟩
  | text s => cases h
  | bool b => cases h
  | null => cases h

theorem canonical_head_of_not_isNumber {v : Value} (h : v.isNumber = false)
    (htext : v.isText = false) :
    ∃ c rest, v.canonical.toList = c :: rest ∧ c ∈ ['t', 'f', 'n'] := by
  cases v with
  | bool b => cases b <;> exact ⟨_, _, rfl, by decide⟩
  | null => exact ⟨_, _, rfl, by decide⟩
  | integer n => cases h
  | decimal x => cases h
  | text s => cases htext

/-- No value but a text has a blank in its canonical string. -/
theorem not_blank_mem_canonical {v : Value} (h : v.isText = false) : ' ' ∉ v.canonical.toList := by
  intro hmem
  cases v with
  | integer n => rcases isDigit_of_mem_numeral hmem with hc | hc <;> cases hc
  | decimal x => exact Number.Decimal.blank_not_mem_text x hmem
  | bool b => cases b <;> exact absurd hmem (by decide)
  | null => exact absurd hmem (by decide)
  | text s => cases h

/-- A number has its canonical string in common with numbers and texts only. -/
theorem isNumber_of_canonical {v w : Value} (h : v.canonical = w.canonical)
    (hw : w.isText = false) (hnumber : v.isNumber = true) : w.isNumber = true := by
  cases hother : w.isNumber with
  | true => rfl
  | false =>
    obtain ⟨c, rest, hlist, hc⟩ := canonical_head_of_isNumber hnumber
    obtain ⟨d, rest', hlist', hd⟩ := canonical_head_of_not_isNumber hother hw
    rw [h, hlist'] at hlist
    obtain ⟨rfl, -⟩ := List.cons.inj hlist
    exact absurd hd hc

/-- Values that are no texts have one canonical string only if they are one value, or are a whole
number and a decimal. -/
theorem eq_of_canonical {v w : Value} (hv : v.isText = false) (hw : w.isText = false)
    (h : v.canonical = w.canonical) :
    v = w ∨ (∃ n x, v = .integer n ∧ w = .decimal x) ∨ ∃ n x, v = .decimal x ∧ w = .integer n := by
  have hkind : v.isNumber = w.isNumber :=
    Bool.eq_iff_iff.2 ⟨isNumber_of_canonical h hw, isNumber_of_canonical h.symm hv⟩
  cases v with
  | integer n =>
    cases w with
    | integer m => exact .inl (congrArg _ (Int64.toInt_inj.1 (toString_int_inj h)))
    | decimal x => exact .inr (.inl ⟨n, x, rfl, rfl⟩)
    | _ => cases hkind
  | decimal x =>
    cases w with
    | integer n => exact .inr (.inr ⟨n, x, rfl, rfl⟩)
    | decimal y => exact .inl (congrArg _ (Number.Decimal.text_inj h))
    | _ => cases hkind
  | bool b =>
    cases w with
    | bool b' => cases b <;> cases b' <;> first | exact .inl rfl | exact absurd h (by decide)
    | null => cases b <;> exact absurd h (by decide)
    | text s => cases hw
    | _ => cases hkind
  | null =>
    cases w with
    | bool b => cases b <;> exact absurd h (by decide)
    | null => exact .inl rfl
    | text s => cases hw
    | _ => cases hkind
  | text s => cases hv

theorem eq_text_of_isText {v : Value} (h : v.isText = true) : v = .text v.canonical := by
  cases v with
  | text s => rfl
  | _ => cases h

end Value

/-- A moment is written with a blank before the time. -/
theorem Calendar.Moment.blank_mem_text (m : Moment) : ' ' ∈ m.text.toList := by
  unfold text
  rw [String.toList_ofList]
  simp

/-! ### Values of one column -/

namespace Column

variable {a : Column}

theorem confuses_text {v : Value} (hv : a.Stores v) (hnot : v.isText = false) :
    a.Confuses v (.text v.canonical) := by
  by_cases htype : a.columnType = .text
  · cases v with
    | null => exact .null htype
    | integer n =>
      rcases hv with hv | ⟨hauto, -⟩
      · rw [htype] at hv
        cases hv
      · exact .numeral n htype hauto
    | text s => cases hnot
    | decimal x =>
      rcases hv with hv | ⟨-, n, hn⟩
      · rw [htype] at hv
        cases hv
      · cases hn
    | bool b =>
      rcases hv with hv | ⟨-, n, hn⟩
      · rw [htype] at hv
        cases hv
      · cases hn
  · refine .time v htype hnot fun m hm => ?_
    exact Value.not_blank_mem_canonical hnot (hm ▸ m.blank_mem_text)

theorem confuses_decimal {n : Int64} {x : Float} (hn : a.Stores (.integer n))
    (hx : a.Stores (.decimal x)) (h : Number.Decimal.text x = toString n.toInt) :
    a.Confuses (.integer n) (.decimal x) := by
  have htype : a.columnType = .decimal := by
    rcases hx with hx | ⟨-, n, hn⟩
    · cases htype : a.columnType <;> rw [htype] at hx <;> first | rfl | cases hx
    · cases hn
  rcases hn with hn | ⟨hauto, -⟩
  · rw [htype] at hn
    cases hn
  · exact .count n x htype hauto h

/-! ## Top theorem -/

/-- Values that a column stores have one canonical string only if they are one value, or two that
the column confuses. -/
theorem confuses_of_canonical {v w : Value} (hv : a.Stores v) (hw : a.Stores w)
    (h : v.canonical = w.canonical) : v = w ∨ a.Confuses v w ∨ a.Confuses w v := by
  cases hvt : v.isText with
  | false =>
    cases hwt : w.isText with
    | false =>
      rcases Value.eq_of_canonical hvt hwt h with heq | ⟨n, x, rfl, rfl⟩ | ⟨n, x, rfl, rfl⟩
      · exact .inl heq
      · exact .inr (.inl (confuses_decimal hv hw h.symm))
      · exact .inr (.inr (confuses_decimal hw hv h))
    | true =>
      rw [Value.eq_text_of_isText hwt, ← h]
      exact .inr (.inl (confuses_text hv hvt))
  | true =>
    cases hwt : w.isText with
    | false =>
      rw [Value.eq_text_of_isText hvt, h]
      exact .inr (.inr (confuses_text hw hwt))
    | true =>
      rw [Value.eq_text_of_isText hvt, Value.eq_text_of_isText hwt, h]
      exact .inl rfl

end Column

end Tabula
