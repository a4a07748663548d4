import Tabula.Proofs.Sorting

/-!
# Where the order of ORDER BY is no order

ORDER BY compares two values that read as numbers by these numbers, and everything else by texts.
The two comparisons have nothing to do with each other, and so the order of three values need not be
one: "9" comes before "10" as a number, "10" before "1a" and "1a" before "9" as texts.

* `Float.compareDecimals_eq`: among numbers the comparison is that of a rank, and NaN has none.
* `Value.compareForSort_swap`: two values are never both before each other.
* `Value.crossed_of_gt`: three values that are not in order are `Crossed`: either NaN is between two
  numbers, or two of them read as numbers and the third, which does not, is on the wrong side of one
  of their texts.
* `Value.Preordered.of_numbers`: numbers, with nulls among them, are in order.
* `Value.compareForSort_order`: all this of any three values.
-/

namespace Tabula

open Float.Model (UnpackedFloat)

/-! ## Algorithm -/

namespace Number

/-- The rank of a number that is not NaN: its kind, its power and its mantissa, the last two the
other way round below zero. -/
def rank : UnpackedFloat → Int × Int × Int
  | .infinity .positive => (2, 0, 0)
  | .finite .positive m e _ => (1, e, m)
  | .zero _ | .notANumber => (0, 0, 0)
  | .finite .negative m e _ => (-1, -e, -m)
  | .infinity .negative => (-2, 0, 0)

/-- Ranks are compared part by part. -/
def compareRanks : Int × Int × Int → Int × Int × Int → Ordering :=
  compareLex (compareOn (·.1)) (compareLex (compareOn (·.2.1)) (compareOn (·.2.2)))

end Number

namespace Value

/-- Three values of which each comes before the next but the first after the third: as their numbers
and their texts stand, one comparison goes by numbers and another by texts, or NaN is in between. -/
inductive Crossed (a b c : Value) : Prop where
  | nan {x y z : Float} : a.asDecimal? = some x → b.asDecimal? = some y → c.asDecimal? = some z →
    y.isNaN = true → compareDecimals x z = some .gt → Crossed a b c
  | first {y z : Float} : a.asDecimal? = none → a ≠ .null → b.asDecimal? = some y →
    c.asDecimal? = some z → compareDecimals y z ≠ some .gt →
    compare a.canonical b.canonical ≠ .gt → compare a.canonical c.canonical = .gt → Crossed a b c
  | second {x z : Float} : a.asDecimal? = some x → b.asDecimal? = none → b ≠ .null →
    c.asDecimal? = some z → compareDecimals x z = some .gt →
    compare a.canonical b.canonical ≠ .gt → compare b.canonical c.canonical ≠ .gt → Crossed a b c
  | third {x y : Float} : a.asDecimal? = some x → b.asDecimal? = some y → c.asDecimal? = none →
    c ≠ .null → compareDecimals x y ≠ some .gt →
    compare b.canonical c.canonical ≠ .gt → compare a.canonical c.canonical = .gt → Crossed a b c

end Value

/-! ## Lemmas -/

/-! ### Numbers -/

namespace Number

instance : Std.TransCmp compareRanks :=
  inferInstanceAs (Std.TransCmp (compareLex (compareOn (·.1))
    (compareLex (compareOn (·.2.1)) (compareOn fun p : Int × Int × Int => p.2.2))))

theorem compare_natCast (m n : Nat) : compare (m : Int) (n : Int) = compare m n := by
  simp only [compare, compareOfLessAndEq, Int.ofNat_lt, Int.natCast_inj]

theorem compare_neg (a b : Int) : compare (-a) (-b) = (compare a b).swap := by
  simp only [compare, compareOfLessAndEq]
  by_cases hlt : a < b
  · rw [if_pos hlt, if_neg (by omega), if_neg (by omega)]
    rfl
  · by_cases heq : a = b
    · rw [if_neg hlt, if_pos heq, if_neg (by omega), if_pos (by omega)]
      rfl
    · rw [if_neg hlt, if_neg heq, if_pos (by omega)]
      rfl

/-- Numbers are compared by rank, and nothing is compared with NaN. -/
theorem compare_unpacked (x y : UnpackedFloat) :
    x.compare y =
      if x.isNaN || y.isNaN then none else some (compareRanks (rank x) (rank y)) := by
  cases x with
  | notANumber => rfl
  | infinity s =>
    cases y with
    | notANumber => cases s <;> rfl
    | infinity s' => cases s <;> cases s' <;> rfl
    | zero s' => cases s <;> rfl
    | finite s' m' e' _ => cases s <;> cases s' <;> rfl
  | zero s =>
    cases y with
    | notANumber => rfl
    | infinity s' => cases s' <;> rfl
    | zero s' => rfl
    | finite s' m' e' _ => cases s' <;> rfl
  | finite s m e _ =>
    cases y with
    | notANumber => cases s <;> rfl
    | infinity s' => cases s <;> cases s' <;> rfl
    | zero s' => cases s <;> rfl
    | finite s' m' e' _ =>
      cases s with
      | negative =>
        cases s' with
        | positive => rfl
        | negative =>
          show some ((compare e e').then (compare m m')).swap =
            some ((compare (-e) (-e')).then (compare (-(m : Int)) (-(m' : Int))))
          rw [compare_neg, compare_neg, compare_natCast, Ordering.swap_then]
      | positive =>
        cases s' with
        | negative => rfl
        | positive =>
          show some ((compare e e').then (compare m m')) =
            some ((compare e e').then (compare (m : Int) (m' : Int)))
          rw [compare_natCast]

end Number

namespace Value

/-- The numerical order is that of ranks; NaN is not in it. -/
theorem compareDecimals_eq (x y : Float) :
    compareDecimals x y =
      if x.isNaN || y.isNaN then none
      else some (Number.compareRanks (Number.rank x.toModel.unpack)
        (Number.rank y.toModel.unpack)) := by
  have hlt (x y : Float) : x < y ↔ x.toModel.unpack.compare y.toModel.unpack = some .lt := by
    show decide (x.toModel < y.toModel) = true ↔ _
    rw [decide_eq_true_iff]
    exact beq_iff_eq
  have heq : (x == y) = true ↔ x.toModel.unpack.compare y.toModel.unpack = some .eq := by
    show (x.toModel.unpack.compare y.toModel.unpack == some .eq) = true ↔ _
    exact beq_iff_eq
  have hnan (x : Float) : x.toModel.unpack.isNaN = x.isNaN := rfl
  have hswap : Number.compareRanks (Number.rank y.toModel.unpack) (Number.rank x.toModel.unpack) =
      (Number.compareRanks (Number.rank x.toModel.unpack) (Number.rank y.toModel.unpack)).swap :=
    Std.OrientedCmp.eq_swap
  simp only [compareDecimals, hlt, heq, Number.compare_unpacked, hnan, Bool.or_comm y.isNaN, hswap]
  cases hx : x.isNaN || y.isNaN with
  | true => rfl
  | false =>
    generalize Number.compareRanks _ _ = order
    cases order <;> rfl

theorem compareDecimals_swap (x y : Float) :
    compareDecimals x y = (compareDecimals y x).map Ordering.swap := by
  rw [compareDecimals_eq, compareDecimals_eq, Bool.or_comm]
  split
  · rfl
  · rw [Option.map_some, ← Std.OrientedCmp.eq_swap]

theorem compareDecimals_of_isNaN {x y : Float} (h : x.isNaN = true ∨ y.isNaN = true) :
    compareDecimals x y = none := by
  rw [compareDecimals_eq, if_pos (Bool.or_eq_true_iff.2 h)]

theorem compareDecimals_ne_gt {x y : Float} :
    compareDecimals x y ≠ some .gt ↔ x.isNaN = true ∨ y.isNaN = true ∨
      (Number.compareRanks (Number.rank x.toModel.unpack)
        (Number.rank y.toModel.unpack)).isLE = true := by
  rw [compareDecimals_eq, Ordering.isLE_iff_ne_gt]
  cases x.isNaN <;> cases y.isNaN <;> simp

/-- Among numbers the order is one, but NaN, which is before and after every number, does not say
how two numbers stand. -/
theorem compareDecimals_trans {x y z : Float} (hy : y.isNaN = false)
    (hxy : compareDecimals x y ≠ some .gt) (hyz : compareDecimals y z ≠ some .gt) :
    compareDecimals x z ≠ some .gt := by
  rw [compareDecimals_ne_gt, hy] at hxy hyz
  rw [compareDecimals_ne_gt]
  rcases hxy with hx | hnan | hxy
  · exact Or.inl hx
  · cases hnan
  · rcases hyz with hnan | hz | hyz
    · cases hnan
    · exact Or.inr (Or.inl hz)
    · exact Or.inr (Or.inr (Std.TransCmp.isLE_trans hxy hyz))

/-! ### Values -/

theorem compareForSort_of_numbers {a b : Value} {x y : Float} (ha : a.asDecimal? = some x)
    (hb : b.asDecimal? = some y) : a.compareForSort b = (compareDecimals x y).getD .eq := by
  cases a with
  | null => cases ha
  | bool u => cases ha
  | _ =>
    cases b with
    | null => cases hb
    | bool u => cases hb
    | _ => simp only [compareForSort, ha, hb]

/-- Values that do not both read as numbers are compared as texts, nulls first. -/
theorem compareForSort_of_text {a b : Value} (h : a.asDecimal? = none ∨ b.asDecimal? = none) :
    a.compareForSort b = compare a.sortText? b.sortText? := by
  rcases h with ha | hb
  · exact compareForSort_of_asDecimal?_eq_none ha b
  · cases ha : a.asDecimal? with
    | none => exact compareForSort_of_asDecimal?_eq_none ha b
    | some x =>
      cases a with
      | null => cases ha
      | bool u => cases ha
      | _ =>
        cases b with
        | null => rfl
        | _ =>
          simp only [compareForSort, ha, hb]
          rfl

theorem sortText?_of_ne_null {a : Value} (h : a ≠ .null) : a.sortText? = some a.canonical := by
  cases a with
  | null => exact absurd rfl h
  | _ => rfl

theorem ne_null_of_number {a : Value} {x : Float} (h : a.asDecimal? = some x) : a ≠ .null := by
  rintro rfl
  cases h

/-- A value that does not read as a number, and is not before one, is not null. -/
theorem ne_null_of_le {a b : Value} {x : Float} (ha : a.asDecimal? = some x)
    (h : a.compareForSort b ≠ .gt) : b ≠ .null := by
  rintro rfl
  rw [compareForSort_of_text (Or.inr rfl), sortText?_of_ne_null (ne_null_of_number ha)] at h
  exact h rfl

/-- Two values of which one does not read as a number are compared by their canonical strings. -/
theorem compareForSort_of_canonical {a b : Value} (h : a.asDecimal? = none ∨ b.asDecimal? = none)
    (ha : a ≠ .null) (hb : b ≠ .null) : a.compareForSort b = compare a.canonical b.canonical := by
  rw [compareForSort_of_text h, sortText?_of_ne_null ha, sortText?_of_ne_null hb]
  rfl

/-- Two values are before each other in one way only. -/
theorem compareForSort_swap (a b : Value) : a.compareForSort b = (b.compareForSort a).swap := by
  cases ha : a.asDecimal? with
  | none =>
    rw [compareForSort_of_text (Or.inl ha), compareForSort_of_text (Or.inr ha)]
    exact Std.OrientedCmp.eq_swap
  | some x =>
    cases hb : b.asDecimal? with
    | none =>
      rw [compareForSort_of_text (Or.inr hb), compareForSort_of_text (Or.inl hb)]
      exact Std.OrientedCmp.eq_swap
    | some y =>
      rw [compareForSort_of_numbers ha hb, compareForSort_of_numbers hb ha,
        compareDecimals_swap x y]
      cases compareDecimals y x <;> rfl

theorem compareForSort_eq_gt {a b : Value} {x y : Float} (ha : a.asDecimal? = some x)
    (hb : b.asDecimal? = some y) :
    a.compareForSort b = .gt ↔ compareDecimals x y = some .gt := by
  rw [compareForSort_of_numbers ha hb]
  cases compareDecimals x y <;> simp

theorem null_le (b : Value) : Value.null.compareForSort b ≠ .gt := by
  cases b <;> exact fun h => by cases h

/-- Values that are compared as texts are in order. -/
theorem compareForSort_trans_of_text {a b c : Value}
    (hab : a.asDecimal? = none ∨ b.asDecimal? = none)
    (hbc : b.asDecimal? = none ∨ c.asDecimal? = none)
    (hac : a.asDecimal? = none ∨ c.asDecimal? = none) (h : a.compareForSort b ≠ .gt)
    (h' : b.compareForSort c ≠ .gt) : a.compareForSort c ≠ .gt := by
  rw [compareForSort_of_text hab, ne_eq, ← Ordering.isLE_iff_ne_gt] at h
  rw [compareForSort_of_text hbc, ne_eq, ← Ordering.isLE_iff_ne_gt] at h'
  rw [compareForSort_of_text hac, ne_eq, ← Ordering.isLE_iff_ne_gt]
  exact Std.TransCmp.isLE_trans h h'

/-- Values that are not in order are crossed, by which of them read as numbers. -/
theorem crossed_of_gt {a b c : Value} (hab : a.compareForSort b ≠ .gt)
    (hbc : b.compareForSort c ≠ .gt) (hac : a.compareForSort c = .gt) : Crossed a b c := by
  have htexts : ¬ ((a.asDecimal? = none ∨ b.asDecimal? = none) ∧
      (b.asDecimal? = none ∨ c.asDecimal? = none) ∧ (a.asDecimal? = none ∨ c.asDecimal? = none)) :=
    fun ⟨h, h', h''⟩ => compareForSort_trans_of_text h h' h'' hab hbc hac
  have hnull : a ≠ .null := by
    rintro rfl
    exact null_le c hac
  cases ha : a.asDecimal? with
  | none =>
    cases hb : b.asDecimal? with
    | none => exact (htexts ⟨Or.inl ha, Or.inl hb, Or.inl ha⟩).elim
    | some y =>
      cases hc : c.asDecimal? with
      | none => exact (htexts ⟨Or.inl ha, Or.inr hc, Or.inl ha⟩).elim
      | some z =>
        rw [compareForSort_of_canonical (Or.inl ha) hnull (ne_null_of_number hb)] at hab
        rw [compareForSort_of_canonical (Or.inl ha) hnull (ne_null_of_number hc)] at hac
        exact .first ha hnull hb hc (mt (compareForSort_eq_gt hb hc).2 hbc) hab hac
  | some x =>
    cases hb : b.asDecimal? with
    | none =>
      have hb' := ne_null_of_le ha hab
      cases hc : c.asDecimal? with
      | none => exact (htexts ⟨Or.inr hb, Or.inl hb, Or.inr hc⟩).elim
      | some z =>
        rw [compareForSort_of_canonical (Or.inr hb) hnull hb'] at hab
        rw [compareForSort_of_canonical (Or.inl hb) hb' (ne_null_of_number hc)] at hbc
        exact .second ha hb hb' hc ((compareForSort_eq_gt ha hc).1 hac) hab hbc
    | some y =>
      cases hc : c.asDecimal? with
      | none =>
        have hc' := ne_null_of_le hb hbc
        rw [compareForSort_of_canonical (Or.inr hc) (ne_null_of_number hb) hc'] at hbc
        rw [compareForSort_of_canonical (Or.inr hc) hnull hc'] at hac
        exact .third ha hb hc hc' (mt (compareForSort_eq_gt ha hb).2 hab) hbc hac
      | some z =>
        rw [ne_eq, compareForSort_eq_gt ha hb] at hab
        rw [ne_eq, compareForSort_eq_gt hb hc] at hbc
        rw [compareForSort_eq_gt ha hc] at hac
        cases hy : y.isNaN with
        | true => exact .nan ha hb hc hy hac
        | false => exact absurd hac (compareDecimals_trans hy hab hbc)

/-- Crossed values are not in order. -/
theorem Crossed.not_ordered {a b c : Value} (h : Crossed a b c) :
    a.compareForSort b ≠ .gt ∧ b.compareForSort c ≠ .gt ∧ a.compareForSort c = .gt := by
  cases h with
  | nan ha hb hc hy hac =>
    refine ⟨fun h => ?_, fun h => ?_, (compareForSort_eq_gt ha hc).2 hac⟩
    · rw [compareForSort_eq_gt ha hb, compareDecimals_of_isNaN (Or.inr hy)] at h
      cases h
    · rw [compareForSort_eq_gt hb hc, compareDecimals_of_isNaN (Or.inl hy)] at h
      cases h
  | first ha ha' hb hc hbc hab hac =>
    rw [compareForSort_of_canonical (Or.inl ha) ha' (ne_null_of_number hb),
      compareForSort_of_canonical (Or.inl ha) ha' (ne_null_of_number hc),
      ne_eq (b.compareForSort c), compareForSort_eq_gt hb hc]
    exact ⟨hab, hbc, hac⟩
  | second ha hb hb' hc hac hab hbc =>
    rw [compareForSort_of_canonical (Or.inr hb) (ne_null_of_number ha) hb',
      compareForSort_of_canonical (Or.inl hb) hb' (ne_null_of_number hc),
      compareForSort_eq_gt ha hc]
    exact ⟨hab, hbc, hac⟩
  | third ha hb hc hc' hab hbc hac =>
    rw [compareForSort_of_canonical (Or.inr hc) (ne_null_of_number hb) hc',
      compareForSort_of_canonical (Or.inr hc) (ne_null_of_number ha) hc',
      ne_eq (a.compareForSort b), compareForSort_eq_gt ha hb]
    exact ⟨hab, hbc, hac⟩

/-- The order of ORDER BY is one on nulls and on values that read as numbers other than NaN. -/
theorem Preordered.of_numbers {values : List Value}
    (h : ∀ v ∈ values, v = .null ∨ ∃ x, v.asDecimal? = some x ∧ x.isNaN = false) :
    Value.Preordered values where
  swap a _ b _ := compareForSort_swap a b
  trans a ha b hb c hc hab hbc hac := by
    have hnumber : ∀ v ∈ values, v.asDecimal? = none → v = .null := by
      intro v hv hnone
      rcases h v hv with hnull | ⟨x, hx, -⟩
      · exact hnull
      · rw [hnone] at hx
        cases hx
    cases crossed_of_gt hab hbc hac with
    | nan _ hy _ hnan _ =>
      rcases h b hb with rfl | ⟨y, hy', hnot⟩
      · cases hy
      · obtain rfl := Option.some.inj (hy.symm.trans hy')
        rw [hnan] at hnot
        cases hnot
    | first hnone hnull => exact hnull (hnumber a ha hnone)
    | second _ hnone hnull => exact hnull (hnumber b hb hnone)
    | third _ _ hnone hnull => exact hnull (hnumber c hc hnone)

/-! ## Top theorem -/

/-- Of any two values the order of ORDER BY is one way or the other, and three values are in order
but for those that are crossed. -/
theorem compareForSort_order (a b c : Value) :
    a.compareForSort b = (b.compareForSort a).swap ∧
      (a.compareForSort b ≠ .gt ∧ b.compareForSort c ≠ .gt ∧ a.compareForSort c = .gt ↔
        Crossed a b c) :=
  ⟨compareForSort_swap a b, fun ⟨hab, hbc, hac⟩ => crossed_of_gt hab hbc hac, Crossed.not_ordered⟩

/-- Texts need not be in order: "9" comes before "10", "10" before "1a" and "1a" before "9". -/
theorem compareForSort_no_order :
    ¬ ∀ a b c : Value, (a = .null ∨ ∃ s, a = .text s) → (b = .null ∨ ∃ s, b = .text s) →
      (c = .null ∨ ∃ s, c = .text s) →
      a.compareForSort b = (b.compareForSort a).swap ∧
        (a.compareForSort b ≠ .gt → b.compareForSort c ≠ .gt → a.compareForSort c ≠ .gt) := by
  intro horder
  have htexts := (horder (.text "9") (.text "10") (.text "1a") (Or.inr ⟨_, rfl⟩) (Or.inr ⟨_, rfl⟩)
    (Or.inr ⟨_, rfl⟩)).2
  exact htexts (by decide +kernel) (by decide +kernel) (by decide +kernel)

end Value

end Tabula
