import Mathlib.Algebra.Order.Field.Power
import Mathlib.Algebra.Order.Ring.Rat
import Mathlib.Tactic.Linarith
import Mathlib.Tactic.Positivity
import Mathlib.Tactic.Ring
import Tabula.Number.Shortest

/-!
# The shortest decimal names one value

The finite binary64 values without their signs can be counted from zero on.  The numbers that round
to one of them begin where those that round to the value before end, and of two neighbours one has
an odd mantissa, to which the number halfway between them does not round.  So no number rounds to
two values, and since the decimal that `Binary.shortest` finds rounds to its value, no other value
has the same.

* `compareScaled_eq`: the integers that are compared stand for a decimal and a binary number.
* `Binary.readsBack_iff`: reading back is rounding.
* `Binary.nth_low_succ`: neighbours meet.
* `Binary.not_rounds_of_lt`: no number rounds to two values.
* `Binary.rounds_shortest`, `Binary.nth_inj`: the shortest decimal rounds to the value, and to no
  other.
-/

namespace Tabula.Number

/-! ## Algorithm -/

/-- The number that a decimal stands for. -/
def Scaled.value (d : Scaled) : ℚ :=
  d.coefficient * 10 ^ d.exponent

namespace Binary

/-- The number that a finite value is. -/
def value (x : Binary) : ℚ :=
  x.mantissa * 2 ^ x.power

/-- Halfway to the value below, in quarters of the last place of the mantissa. -/
def lowQuarters (x : Binary) : Nat :=
  if x.narrowBelow then 4 * x.mantissa - 1 else 4 * x.mantissa - 2

/-- The least number that may round to the value. -/
def low (x : Binary) : ℚ :=
  x.lowQuarters * 2 ^ (x.power - 2)

/-- The greatest number that may round to the value. -/
def high (x : Binary) : ℚ :=
  (4 * x.mantissa + 2 : Nat) * 2 ^ (x.power - 2)

/-- A number rounds to the value: it is between the ends, or is one of them and the mantissa is
even. -/
def Rounds (x : Binary) (v : ℚ) : Prop :=
  (x.low < v ∨ x.mantissa % 2 = 0 ∧ x.low = v) ∧ (v < x.high ∨ x.mantissa % 2 = 0 ∧ v = x.high)

/-- The `n`-th finite value from zero on. -/
def nth (n : Nat) : Binary :=
  if n / 2 ^ 52 = 0 then ⟨n % 2 ^ 52, -1074, false⟩
  else ⟨2 ^ 52 + n % 2 ^ 52, ((n / 2 ^ 52 : Nat) : Int) - 1075, n % 2 ^ 52 == 0 && n / 2 ^ 52 > 1⟩

end Binary

/-! ## Lemmas -/

/-! ### Comparing decimals with binary numbers -/

/-- A power is the quotient of what it is above one by what it is below one. -/
theorem zpow_mul_toNat {b : ℚ} (hb : b ≠ 0) (i : Int) : b ^ i * b ^ (-i).toNat = b ^ i.toNat := by
  rw [← zpow_natCast, ← zpow_natCast, ← zpow_add₀ hb]
  congr 1
  omega

/-- What is compared are the two numbers, both times the same whole number. -/
theorem compareScaled_eq (a : Nat) (i : Int) (n : Nat) (j : Int) :
    compareScaled a i n j = compare ((a : ℚ) * 10 ^ i) ((n : ℚ) * 2 ^ j) := by
  have hpos : (0 : ℚ) < 2 ^ (-j).toNat * 10 ^ (-i).toNat := by positivity
  have hleft : ((a * Nat.pow 10 i.toNat * Nat.pow 2 (-j).toNat : Nat) : ℚ) =
      a * 10 ^ i * (2 ^ (-j).toNat * 10 ^ (-i).toNat) := by
    have hten := zpow_mul_toNat (b := 10) (by norm_num) i
    simp only [Nat.pow_eq]
    push_cast
    rw [← hten]
    ring
  have hright : ((n * Nat.pow 2 j.toNat * Nat.pow 10 (-i).toNat : Nat) : ℚ) =
      n * 2 ^ j * (2 ^ (-j).toNat * 10 ^ (-i).toNat) := by
    have htwo := zpow_mul_toNat (b := 2) (by norm_num) j
    simp only [Nat.pow_eq]
    push_cast
    rw [← htwo]
    ring
  have hlt : a * Nat.pow 10 i.toNat * Nat.pow 2 (-j).toNat <
      n * Nat.pow 2 j.toNat * Nat.pow 10 (-i).toNat ↔ (a : ℚ) * 10 ^ i < n * 2 ^ j := by
    rw [← Nat.cast_lt (α := ℚ), hleft, hright, mul_lt_mul_iff_of_pos_right hpos]
  have heq : a * Nat.pow 10 i.toNat * Nat.pow 2 (-j).toNat =
      n * Nat.pow 2 j.toNat * Nat.pow 10 (-i).toNat ↔ (a : ℚ) * 10 ^ i = n * 2 ^ j := by
    rw [← Nat.cast_inj (R := ℚ), hleft, hright, mul_left_inj' hpos.ne']
  rw [compareScaled, LinearOrder.compare_eq_compareOfLessAndEq ((a : ℚ) * 10 ^ i)]
  show compareOfLessAndEq _ _ = _
  simp only [compareOfLessAndEq, hlt, heq]

theorem Binary.readsBack_iff (x : Binary) (d : Scaled) :
    x.readsBack d = true ↔ x.Rounds d.value := by
  have hlow : compareScaled d.coefficient d.exponent x.lowQuarters (x.power - 2) =
      compare d.value x.low := compareScaled_eq _ _ _ _
  have hhigh : compareScaled d.coefficient d.exponent (4 * x.mantissa + 2) (x.power - 2) =
      compare d.value x.high := compareScaled_eq _ _ _ _
  have hlowQuarters : x.lowQuarters =
      if x.narrowBelow then 4 * x.mantissa - 1 else 4 * x.mantissa - 2 := rfl
  simp only [readsBack, ← hlowQuarters, hlow, hhigh, Bool.and_eq_true, Bool.or_eq_true, beq_iff_eq,
    compare_gt_iff_gt, compare_eq_iff_eq, compare_lt_iff_lt, Rounds, eq_comm (a := d.value)]

namespace Binary

/-! ### Neighbours -/

theorem nth_mantissa_mod_two (n : Nat) : (nth n).mantissa % 2 = n % 2 := by
  unfold nth
  split <;> dsimp only <;> omega

/-- The values that are next to each other meet. -/
theorem nth_low_succ (n : Nat) : (nth (n + 1)).low = (nth n).high := by
  obtain ⟨hquot, hrem⟩ | ⟨hrem, hquot, hrem'⟩ :
      ((n + 1) / 2 ^ 52 = n / 2 ^ 52 ∧ (n + 1) % 2 ^ 52 = n % 2 ^ 52 + 1) ∨
        (n % 2 ^ 52 = 2 ^ 52 - 1 ∧ (n + 1) / 2 ^ 52 = n / 2 ^ 52 + 1 ∧ (n + 1) % 2 ^ 52 = 0) := by
    omega
  · -- the next mantissa of the same power
    unfold nth
    rw [hquot, hrem]
    split
    · have hquarters : 4 * (n % 2 ^ 52 + 1) - 2 = 4 * (n % 2 ^ 52) + 2 := by omega
      exact congrArg (fun k : Nat => (k : ℚ) * 2 ^ (-1074 - 2 : Int)) hquarters
    · have hquarters : 4 * (2 ^ 52 + (n % 2 ^ 52 + 1)) - 2 = 4 * (2 ^ 52 + n % 2 ^ 52) + 2 := by
        omega
      exact congrArg
        (fun k : Nat => (k : ℚ) * 2 ^ (((n / 2 ^ 52 : Nat) : Int) - 1075 - 2)) hquarters
  · -- the first mantissa of the next power
    unfold nth
    rw [hrem, hquot, hrem', if_neg (Nat.succ_ne_zero _)]
    by_cases hfirst : n / 2 ^ 52 = 0
    · rw [hfirst, if_pos rfl]
      rfl
    · -- halfway down is a quarter of the greater place
      have hnarrow : decide (n / 2 ^ 52 + 1 > 1) = true := decide_eq_true (by omega)
      have hpower : (((n / 2 ^ 52 + 1 : Nat) : Int) - 1075 - 2) =
          ((n / 2 ^ 52 : Nat) : Int) - 1075 - 2 + 1 := by omega
      rw [if_neg hfirst, hnarrow]
      simp only [low, high, lowQuarters, hpower]
      rw [zpow_add_one₀ two_ne_zero]
      norm_num
      ring

theorem low_lt_high (x : Binary) : x.low < x.high := by
  have hpos : (0 : ℚ) < 2 ^ (x.power - 2) := by positivity
  have hquarters : x.lowQuarters < 4 * x.mantissa + 2 := by
    unfold lowQuarters
    split <;> omega
  exact mul_lt_mul_of_pos_right (Nat.cast_lt.2 hquarters) hpos

theorem nth_low_strictMono : StrictMono fun n => (nth n).low :=
  strictMono_nat_of_lt_succ fun n => (nth_low_succ n).symm ▸ low_lt_high (nth n)

/-- No number rounds to two values. -/
theorem not_rounds_of_lt {m n : Nat} (h : m < n) {v : ℚ} (hm : (nth m).Rounds v)
    (hn : (nth n).Rounds v) : False := by
  have hends : (nth m).high ≤ (nth n).low :=
    nth_low_succ m ▸ nth_low_strictMono.monotone h
  obtain ⟨-, hhigh⟩ := hm
  obtain ⟨hlow, -⟩ := hn
  rw [nth_mantissa_mod_two] at hhigh hlow
  -- the number is where both end, so both mantissas are even
  rcases hhigh with hhigh | ⟨hm, hhigh⟩
  · rcases hlow with hlow | ⟨-, hlow⟩ <;> linarith
  · rcases hlow with hlow | ⟨hn, hlow⟩
    · linarith
    · have hsame : (nth (m + 1)).low = (nth n).low := by
        rw [nth_low_succ, ← hhigh, hlow]
      have hnext := nth_low_strictMono.injective hsame
      omega

/-! ### The shortest decimal -/

theorem exact_value (x : Binary) : x.exact.value = x.value := by
  unfold exact Scaled.value
  split
  · next hpower =>
    have hfive : (5 : ℚ) ^ x.power * 5 ^ x.power.natAbs = 1 := by
      rw [← zpow_natCast, ← zpow_add₀ (by norm_num)]
      have hzero : x.power + (x.power.natAbs : Int) = 0 := by omega
      rw [hzero, zpow_zero]
    have hten : (10 : ℚ) ^ x.power = 2 ^ x.power * 5 ^ x.power := by
      rw [← mul_zpow]
      norm_num
    rw [Nat.pow_eq]
    push_cast
    calc (x.mantissa : ℚ) * 5 ^ x.power.natAbs * 10 ^ x.power
        = x.mantissa * 2 ^ x.power * (5 ^ x.power * 5 ^ x.power.natAbs) := by rw [hten]; ring
      _ = x.value := by rw [hfive, mul_one]; rfl
  · next hpower =>
    have htwo : (2 : ℚ) ^ x.power.toNat = 2 ^ x.power := by
      rw [← zpow_natCast, Int.toNat_of_nonneg (not_lt.1 hpower)]
    rw [Nat.pow_eq]
    push_cast
    rw [mul_one, htwo]
    rfl

/-- A value above zero is not at an end of the numbers that round to it. -/
theorem rounds_exact {x : Binary} (h : x.mantissa ≠ 0) : x.Rounds x.exact.value := by
  have hvalue : x.exact.value = (4 * x.mantissa : Nat) * 2 ^ (x.power - 2) := by
    have hfour : (2 : ℚ) ^ x.power = 4 * 2 ^ (x.power - 2) := by
      rw [zpow_sub₀ two_ne_zero]
      norm_num
      ring
    rw [exact_value, value, hfour]
    push_cast
    ring
  have hpos : (0 : ℚ) < 2 ^ (x.power - 2) := by positivity
  have hquarters : x.lowQuarters < 4 * x.mantissa := by
    unfold lowQuarters
    split <;> omega
  rw [Rounds, hvalue]
  exact ⟨Or.inl (mul_lt_mul_of_pos_right (Nat.cast_lt.2 hquarters) hpos),
    Or.inl (mul_lt_mul_of_pos_right (Nat.cast_lt.2 (by omega)) hpos)⟩

theorem readsBack_of_onGrid? {x : Binary} {g : Int} {d : Scaled} (h : x.onGrid? g = some d) :
    x.readsBack d = true := by
  unfold onGrid? at h
  dsimp only at h
  split at h
  · next hlower hupper =>
    split at h
    · obtain rfl := Option.some.inj h
      exact hlower
    · obtain rfl := Option.some.inj h
      exact hupper
  · next hlower _ =>
    obtain rfl := Option.some.inj h
    exact hlower
  · next _ hupper =>
    obtain rfl := Option.some.inj h
    exact hupper
  · cases h

/-- The shortest decimal rounds to the value. -/
theorem rounds_shortest (x : Binary) : x.Rounds x.shortest.value := by
  unfold shortest
  split
  · next hzero =>
    have hlow : x.low = 0 := by
      have hquarters : x.lowQuarters = 0 := by
        unfold lowQuarters
        rw [hzero]
        split <;> rfl
      rw [low, hquarters, Nat.cast_zero, zero_mul]
    have hhigh : x.low < x.high := x.low_lt_high
    rw [hlow] at hhigh
    have hvalue : (⟨0, 0⟩ : Scaled).value = 0 := by simp [Scaled.value]
    rw [Rounds, hvalue, hzero, hlow]
    exact ⟨Or.inr ⟨rfl, rfl⟩, Or.inl hhigh⟩
  · next hne =>
    dsimp only
    cases hfound : (List.range 17).findSome? fun n => x.onGrid? (x.magnitude - (n + 1 : Nat)) with
    | none => exact rounds_exact hne
    | some d =>
      obtain ⟨n, -, hd⟩ := List.exists_of_findSome?_eq_some hfound
      exact (x.readsBack_iff d).1 (readsBack_of_onGrid? hd)

/-- A finite value is known by the number that its shortest decimal stands for. -/
theorem nth_inj {m n : Nat} (h : (nth m).shortest.value = (nth n).shortest.value) : m = n := by
  have hm := rounds_shortest (nth m)
  have hn := rounds_shortest (nth n)
  rw [h] at hm
  rcases Nat.lt_trichotomy m n with hlt | heq | hgt
  · exact (not_rounds_of_lt hlt hm hn).elim
  · exact heq
  · exact (not_rounds_of_lt hgt hn hm).elim

end Binary

end Tabula.Number
