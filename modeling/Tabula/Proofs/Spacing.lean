import Mathlib
import Tabula.Condition
import Tabula.Proofs.Comparing
import Tabula.Proofs.Confusion
import Tabula.Proofs.Tokens

/-!
# Whole numbers are compared as binary64 values

ORDER BY and the operators take whole numbers for binary64 values.  From `2 ^ 53` on these are more
than one apart, and a number between two of them is rounded to the nearer one.  Two numbers that are
rounded to one value compare as equal; all others stand as the numbers do, since rounding keeps the
order.

* `roundWithAccuracy_nearest`: a mantissa is rounded to the nearest value, ties to even.
* `isWhole_ofInt`: a number becomes the value nearest to it.
* `IsWhole.compare`: values that are whole numbers are compared as these.
* `nearestInt_nearest`, `nearestInt_mono`: what rounding does to whole numbers.
* `Decimal.read?_toString`: the digits of a number are read as the value that the number becomes.
* `Value.integers_compared`: how ORDER BY and the operators compare two numbers.
-/

namespace Tabula

open Float.Model (UnpackedFloat Format totalExponent)
open Float.Model.UnpackedFloat (Sign ExtendedMantissa roundWithAccuracy shiftToTargetExponent
  packComponents unpackSign unpackExponent unpackMantissa)

/-! ## Algorithm -/

namespace Number

/-- How many times a unit goes into a number, to the nearest, and to the even one of two that are
equally near. -/
def nearestCount (n unit : Nat) : Nat :=
  if 2 * (n % unit) < unit then n / unit
  else if 2 * (n % unit) = unit then n / unit + n / unit % 2
  else n / unit + 1

/-- How far apart the binary64 values around a number are, and one where they are nearer. -/
def spacing (n : Nat) : Nat :=
  2 ^ (n.log2 - 52)

/-- The binary64 value nearest to a number, of two the one with the even mantissa. -/
def nearestNat (n : Nat) : Nat :=
  nearestCount n (spacing n) * spacing n

/-- The binary64 value nearest to a number with a sign. -/
def nearestInt (z : Int) : Int :=
  z.sign * nearestNat z.natAbs

/-- A whole number of at most 53 bits before the zeros at its end. -/
def IsHeld (v : Int) : Prop :=
  ∃ m k : Nat, m < 2 ^ 53 ∧ v.natAbs = m * 2 ^ k

/-- An unpacked value is a whole number. -/
inductive IsWhole : UnpackedFloat → Int → Prop where
  | zero (s : Sign) : IsWhole (.zero s) 0
  | finite (s : Sign) {m k v : Nat} (h : 0 < m) : 2 ^ 52 ≤ m → m < 2 ^ 53 →
      m * 2 ^ k = v * 2 ^ 52 → IsWhole (.finite s m ((k : Int) - 52) h) (s.apply v)

end Number

/-- A whole number, as a condition of a query writes it. -/
def Operand.numeral (now : String) (z : Int) : Operand :=
  .ofLiteral now ⟨.number, toString z⟩

/-! ## Lemmas -/

namespace Number

/-! ### Counting units -/

theorem nearestCount_one (n : Nat) : nearestCount n 1 = n := by
  simp [nearestCount, Nat.mod_one]

theorem nearestCount_mul (n unit : Nat) {c : Nat} (hc : 0 < c) :
    nearestCount (n * c) (unit * c) = nearestCount n unit := by
  unfold nearestCount
  rw [Nat.mul_mod_mul_right, Nat.mul_div_mul_right _ _ hc, ← Nat.mul_assoc]
  simp only [Nat.mul_lt_mul_right hc, Nat.mul_right_cancel_iff hc]

theorem nearestCount_bounds (n unit : Nat) :
    n / unit ≤ nearestCount n unit ∧ nearestCount n unit ≤ n / unit + 1 := by
  unfold nearestCount
  split
  · omega
  · split <;> omega

theorem nearestCount_mono (unit : Nat) {a b : Nat} (h : a ≤ b) :
    nearestCount a unit ≤ nearestCount b unit := by
  rcases Nat.lt_or_eq_of_le (Nat.div_le_div_right (c := unit) h) with hlt | heq
  · have := (nearestCount_bounds a unit).2
    have := (nearestCount_bounds b unit).1
    omega
  · have hrest : a % unit ≤ b % unit := by
      have ha := Nat.div_add_mod a unit
      have hb := Nat.div_add_mod b unit
      rw [heq] at ha
      omega
    unfold nearestCount
    rw [heq]
    split
    · split
      · exact le_rfl
      · split <;> omega
    · split
      · split
        · omega
        · split <;> omega
      · split
        · omega
        · split <;> omega

theorem log2_mul_two_pow {n : Nat} (hn : n ≠ 0) (c : Nat) : (n * 2 ^ c).log2 = n.log2 + c := by
  refine (Nat.log2_eq_iff (Nat.mul_ne_zero hn (Nat.two_pow_pos c).ne')).2 ⟨?_, ?_⟩
  · rw [Nat.pow_add]
    exact Nat.mul_le_mul_right _ (Nat.log2_self_le hn)
  · rw [Nat.add_right_comm, Nat.pow_add]
    exact Nat.mul_lt_mul_of_pos_right Nat.lt_log2_self (Nat.two_pow_pos c)

/-- A number of more than 53 bits has a mantissa of 53. -/
theorem div_range {m k : Nat} (hm : 0 < m) (hlog : m.log2 = 52 + k) :
    2 ^ 52 ≤ m / 2 ^ k ∧ m / 2 ^ k < 2 ^ 53 := by
  have hrange := (Nat.log2_eq_iff hm.ne').1 hlog
  constructor
  · rw [Nat.le_div_iff_mul_le (Nat.two_pow_pos k), ← Nat.pow_add]
    exact hrange.1
  · rw [Nat.div_lt_iff_lt_mul (Nat.two_pow_pos k), ← Nat.pow_add]
    exact lt_of_lt_of_eq hrange.2 (congrArg (2 ^ ·) (by omega))

/-- Places at the end of a number make no difference to how it is rounded. -/
theorem nearestCount_scaled {n c i : Nat} (hi : n.log2 + c = 52 + i) :
    nearestCount (n * 2 ^ c) (2 ^ i) * 2 ^ i = nearestNat n * 2 ^ c := by
  unfold nearestNat spacing
  rcases Nat.le_total 52 n.log2 with hlarge | hsmall
  · have hunit : 2 ^ i = 2 ^ (n.log2 - 52) * 2 ^ c := by
      rw [← Nat.pow_add]
      congr 1
      omega
    rw [hunit, nearestCount_mul _ _ (Nat.two_pow_pos c), Nat.mul_assoc]
  · have hexact : n * 2 ^ c = n * 2 ^ (c - i) * 2 ^ i := by
      rw [Nat.mul_assoc, ← Nat.pow_add]
      congr 2
      omega
    have hcount := nearestCount_mul (n * 2 ^ (c - i)) 1 (Nat.two_pow_pos i)
    rw [Nat.one_mul, nearestCount_one] at hcount
    rw [hexact, hcount, ← hexact, Nat.sub_eq_zero_of_le hsmall, Nat.pow_zero, nearestCount_one,
      Nat.mul_one]

/-! ### The nearest value -/

theorem nearestNat_of_lt {n : Nat} (h : n < 2 ^ 53) : nearestNat n = n := by
  have hlog : n.log2 - 52 = 0 := by
    rcases Nat.eq_zero_or_pos n with rfl | hn
    · rfl
    · have := (Nat.log2_lt hn.ne').2 h
      omega
  rw [nearestNat, spacing, hlog, Nat.pow_zero, nearestCount_one, Nat.mul_one]

/-- Rounding does not go beyond the next power of two. -/
theorem nearestNat_range {n : Nat} (hn : 0 < n) :
    2 ^ n.log2 ≤ nearestNat n ∧ nearestNat n ≤ 2 ^ (n.log2 + 1) := by
  by_cases hsmall : n < 2 ^ 53
  · rw [nearestNat_of_lt hsmall]
    exact ⟨Nat.log2_self_le hn.ne', Nat.lt_log2_self.le⟩
  · have hlarge : 53 ≤ n.log2 := (Nat.le_log2 hn.ne').2 (by omega)
    obtain ⟨k, hk⟩ := Nat.exists_eq_add_of_le (Nat.le_of_succ_le hlarge)
    have hbounds := nearestCount_bounds n (2 ^ k)
    have hrange := div_range hn hk
    have hunit : n.log2 - 52 = k := by omega
    rw [nearestNat, spacing, hunit, hk, Nat.add_right_comm, Nat.pow_add, Nat.pow_add]
    exact ⟨Nat.mul_le_mul_right _ (by omega), Nat.mul_le_mul_right _ (by omega)⟩

theorem nearestNat_mono {a b : Nat} (h : a ≤ b) : nearestNat a ≤ nearestNat b := by
  rcases Nat.eq_zero_or_pos a with rfl | ha
  · exact Nat.zero_le _
  · rcases Nat.lt_or_ge a.log2 b.log2 with hlt | hle
    · calc nearestNat a ≤ 2 ^ (a.log2 + 1) := (nearestNat_range ha).2
        _ ≤ 2 ^ b.log2 := Nat.pow_le_pow_right (by decide) hlt
        _ ≤ nearestNat b := (nearestNat_range (Nat.lt_of_lt_of_le ha h)).1
    · have hlog : b.log2 = a.log2 := by
        refine le_antisymm hle ((Nat.le_log2 (by omega)).2 ?_)
        exact (Nat.log2_self_le ha.ne').trans h
      unfold nearestNat spacing
      rw [hlog]
      exact Nat.mul_le_mul_right _ (nearestCount_mono _ h)

theorem nearestInt_natCast (n : Nat) : nearestInt n = nearestNat n := by
  unfold nearestInt
  rcases Nat.eq_zero_or_pos n with rfl | hn
  · rfl
  · rw [Int.sign_eq_one_of_pos (by omega), Int.natAbs_natCast, Int.one_mul]

theorem nearestInt_neg (z : Int) : nearestInt (-z) = -nearestInt z := by
  rw [nearestInt, Int.sign_neg, Int.natAbs_neg, Int.neg_mul, ← nearestInt]

/-- Rounding keeps the order. -/
theorem nearestInt_mono {a b : Int} (h : a ≤ b) : nearestInt a ≤ nearestInt b := by
  rcases Int.eq_nat_or_neg a with ⟨m, rfl | rfl⟩ <;> rcases Int.eq_nat_or_neg b with ⟨n, rfl | rfl⟩
  · rw [nearestInt_natCast, nearestInt_natCast]
    exact_mod_cast nearestNat_mono (by omega)
  · obtain rfl : m = 0 := by omega
    obtain rfl : n = 0 := by omega
    exact le_rfl
  · rw [nearestInt_neg, nearestInt_natCast, nearestInt_natCast]
    omega
  · rw [nearestInt_neg, nearestInt_neg, nearestInt_natCast, nearestInt_natCast]
    exact neg_le_neg (by exact_mod_cast nearestNat_mono (by omega))

theorem natAbs_nearestInt (z : Int) : (nearestInt z).natAbs = nearestNat z.natAbs := by
  rcases Int.eq_nat_or_neg z with ⟨n, rfl | rfl⟩
  · rw [nearestInt_natCast, Int.natAbs_natCast, Int.natAbs_natCast]
  · rw [nearestInt_neg, nearestInt_natCast, Int.natAbs_neg, Int.natAbs_neg, Int.natAbs_natCast,
      Int.natAbs_natCast]

/-- A mantissa of at most 53 bits that is not at one of the two ends of the gap around a number is
beyond one of them. -/
theorem gap_clear {n i m k : Nat} (hn : 2 ^ 52 ≤ n / 2 ^ (i + 1)) (hm : m < 2 ^ 53) :
    m * 2 ^ k ≤ n / 2 ^ (i + 1) * 2 ^ (i + 1) ∨
      (n / 2 ^ (i + 1) + 1) * 2 ^ (i + 1) ≤ m * 2 ^ k := by
  rcases Nat.lt_or_ge i k with hlt | hle
  · -- both are multiples of the distance
    obtain ⟨j, rfl⟩ := Nat.exists_eq_add_of_le (Nat.succ_le_of_lt hlt)
    rw [Nat.pow_add, Nat.mul_comm (2 ^ (i + 1)) (2 ^ j), ← Nat.mul_assoc]
    rcases Nat.lt_or_ge (n / 2 ^ (i + 1)) (m * 2 ^ j) with h | h
    · exact .inr (Nat.mul_le_mul_right _ h)
    · exact .inl (Nat.mul_le_mul_right _ h)
  · left
    calc m * 2 ^ k ≤ 2 ^ 53 * 2 ^ i := Nat.mul_le_mul hm.le (Nat.pow_le_pow_right (by decide) hle)
      _ = 2 ^ 52 * 2 ^ (i + 1) := by ring
      _ ≤ n / 2 ^ (i + 1) * 2 ^ (i + 1) := Nat.mul_le_mul_right _ hn

theorem nearestNat_nearest (n : Nat) {m k : Nat} (hm : m < 2 ^ 53) :
    ((n : Int) - nearestNat n).natAbs ≤ ((n : Int) - (m * 2 ^ k : Nat)).natAbs := by
  by_cases hsmall : n < 2 ^ 53
  · rw [nearestNat_of_lt hsmall]
    omega
  · have hlarge : 53 ≤ n.log2 := (Nat.le_log2 (by omega)).2 (by omega)
    obtain ⟨i, hi⟩ := Nat.exists_eq_add_of_le hlarge
    have hunit : n.log2 - 52 = i + 1 := by omega
    have hgap := gap_clear (k := k) (div_range (by omega) (by omega : n.log2 = 52 + (i + 1))).1 hm
    have hrest := Nat.mod_lt n (Nat.two_pow_pos (i + 1))
    have hn := Nat.div_add_mod n (2 ^ (i + 1))
    rw [Nat.mul_comm] at hn
    rw [nearestNat, spacing, hunit, nearestCount]
    rw [Nat.succ_mul] at hgap
    split
    · omega
    · split
      · rcases Nat.mod_two_eq_zero_or_one (n / 2 ^ (i + 1)) with heven | hodd
        · rw [heven, Nat.add_zero]
          omega
        · rw [hodd, Nat.succ_mul]
          omega
      · rw [Nat.succ_mul]
        omega

/-- No value of binary64 is nearer to a number. -/
theorem nearestInt_nearest (z : Int) :
    IsHeld (nearestInt z) ∧
      ∀ w, IsHeld w → (z - nearestInt z).natAbs ≤ (z - w).natAbs := by
  constructor
  · unfold IsHeld
    rw [natAbs_nearestInt]
    rcases Nat.eq_zero_or_pos z.natAbs with hzero | hpos
    · exact ⟨0, 0, by decide, by rw [hzero]; rfl⟩
    · by_cases hsmall : z.natAbs < 2 ^ 53
      · exact ⟨z.natAbs, 0, hsmall, by rw [nearestNat_of_lt hsmall, Nat.pow_zero, Nat.mul_one]⟩
      · have hlarge : 53 ≤ z.natAbs.log2 := (Nat.le_log2 hpos.ne').2 (by omega)
        have hbounds := nearestCount_bounds z.natAbs (spacing z.natAbs)
        have hrange := div_range (k := z.natAbs.log2 - 52) hpos (by omega)
        by_cases hcarry : nearestCount z.natAbs (spacing z.natAbs) = 2 ^ 53
        · refine ⟨2 ^ 52, z.natAbs.log2 - 52 + 1, by decide, ?_⟩
          rw [nearestNat, hcarry, spacing]
          ring
        · refine ⟨_, z.natAbs.log2 - 52, ?_, rfl⟩
          unfold spacing at hbounds hcarry ⊢
          omega
  · rintro w ⟨m, k, hm, hw⟩
    have hnearest := nearestNat_nearest z.natAbs (k := k) hm
    rw [← hw] at hnearest
    rcases Int.eq_nat_or_neg z with ⟨n, rfl | rfl⟩
    · rw [nearestInt_natCast]
      rw [Int.natAbs_natCast] at hnearest
      omega
    · rw [nearestInt_neg, nearestInt_natCast]
      rw [Int.natAbs_neg, Int.natAbs_natCast] at hnearest
      omega

/-! ### Rounding a mantissa -/

/-- After `k` shifts the two residual bits say whether what was shifted out is at least half of a
unit, and whether it is anything but nothing or half. -/
theorem repeat_shiftRightOne (m k : Nat) :
    k.repeat ExtendedMantissa.shiftRightOne ⟨m, false, false⟩ =
      ⟨m / 2 ^ k, decide (2 ^ k ≤ 2 * (m % 2 ^ k)), decide (2 * (m % 2 ^ k) % 2 ^ k ≠ 0)⟩ := by
  induction k with
  | zero => simp [Nat.repeat, Nat.mod_one]
  | succ k ih =>
    have hsplit : m % 2 ^ (k + 1) = 2 ^ k * (m / 2 ^ k % 2) + m % 2 ^ k := by
      rw [Nat.pow_succ, Nat.mod_mul]
      omega
    have hlow : 2 * (m % 2 ^ (k + 1)) % 2 ^ (k + 1) = 2 * (m % 2 ^ k) := by
      rw [Nat.pow_succ', Nat.mul_mod_mul_left, Nat.mod_mul_left_mod]
    have hlt : m % 2 ^ k < 2 ^ k := Nat.mod_lt m (Nat.two_pow_pos k)
    rw [Nat.repeat, ih, ExtendedMantissa.shiftRightOne, ExtendedMantissa.mk.injEq]
    refine ⟨by rw [Nat.div_div_eq_div_mul, Nat.pow_succ], ?_, ?_⟩
    · rw [hsplit, Nat.pow_succ]
      rcases Nat.mod_two_eq_zero_or_one (m / 2 ^ k) with hbit | hbit
      · rw [hbit]
        simp
        omega
      · rw [hbit]
        simp
        omega
    · dsimp only
      rw [hlow, Bool.eq_iff_iff, Bool.or_eq_true, decide_eq_true_iff, decide_eq_true_iff,
        decide_eq_true_iff]
      by_cases hhalf : 2 ^ k ≤ 2 * (m % 2 ^ k)
      · omega
      · have hmod : 2 * (m % 2 ^ k) % 2 ^ k = 2 * (m % 2 ^ k) := Nat.mod_eq_of_lt (by omega)
        omega

/-- What the residual bits say is enough to find the nearest count. -/
theorem roundedMantissa_eq (m k : Nat) :
    (k.repeat ExtendedMantissa.shiftRightOne ⟨m, false, false⟩).roundedMantissa =
      nearestCount m (2 ^ k) := by
  have hlt : m % 2 ^ k < 2 ^ k := Nat.mod_lt m (Nat.two_pow_pos k)
  rw [repeat_shiftRightOne]
  unfold ExtendedMantissa.roundedMantissa nearestCount
  by_cases hless : 2 * (m % 2 ^ k) < 2 ^ k
  · rw [if_pos hless, decide_eq_false (by omega)]
    cases decide (2 * (m % 2 ^ k) % 2 ^ k ≠ 0) <;> rfl
  · rw [if_neg hless, decide_eq_true (by omega)]
    by_cases hhalf : 2 * (m % 2 ^ k) = 2 ^ k
    · rw [if_pos hhalf, hhalf, Nat.mod_self]
      rfl
    · have hrest : 2 * (m % 2 ^ k) % 2 ^ k ≠ 0 := by
        rw [Nat.mod_eq_sub_mod (by omega), Nat.mod_eq_of_lt (by omega)]
        omega
      rw [if_neg hhalf, decide_eq_true hrest]
      rfl

theorem targetExponent_eq {m : Nat} {e : Int} (h : -1074 ≤ (m.log2 : Int) + e - 52) :
    Format.binary64.targetExponent (totalExponent m e) = (m.log2 : Int) + e - 52 := by
  simp [Format.targetExponent, totalExponent, Format.mantissaBits, Format.minExponent]
  omega

/-- A mantissa of at least 53 bits is shifted down to 53. -/
theorem shiftToTargetExponent_eq {m k : Nat} {e : Int} (hlog : m.log2 = 52 + k)
    (he : -1074 ≤ e + k) :
    shiftToTargetExponent Format.binary64 m e .exact =
      (k.repeat ExtendedMantissa.shiftRightOne ⟨m, false, false⟩, e + k) := by
  have hshift : ((m.log2 : Int) + e - 52 - e).toNat = k := by omega
  rw [shiftToTargetExponent, targetExponent_eq (by omega),
    Float.Model.UnpackedFloat.shiftToExponent, hshift]
  rfl

/-- A mantissa of at least 53 bits is rounded to 53, and where that makes it longer by a bit, its
exponent is greater by one. -/
theorem roundWithAccuracy_eq (s : Sign) {m k : Nat} {e : Int} (hm : 0 < m)
    (hlog : m.log2 = 52 + k) (he : -1074 ≤ e + k) :
    ∃ (m' j : Nat) (h : 0 < m'), roundWithAccuracy Format.binary64 s m e .exact =
        .finite s m' (e + j) h ∧ 2 ^ 52 ≤ m' ∧ m' < 2 ^ 53 ∧ k ≤ j ∧ j ≤ k + 1 ∧
        m' * 2 ^ j = nearestCount m (2 ^ k) * 2 ^ k := by
  have hbounds := nearestCount_bounds m (2 ^ k)
  have hrange := div_range hm hlog
  unfold roundWithAccuracy
  rw [shiftToTargetExponent_eq hlog he]
  dsimp only
  rw [roundedMantissa_eq]
  by_cases hcarry : nearestCount m (2 ^ k) = 2 ^ 53
  · have hagain : shiftToTargetExponent Format.binary64 (2 ^ 53) (e + k) .exact =
        (⟨2 ^ 52, false, false⟩, e + k + (1 : Nat)) := by
      rw [shiftToTargetExponent_eq (k := 1) Nat.log2_two_pow (by omega), repeat_shiftRightOne]
      rfl
    rw [hcarry, hagain]
    refine ⟨2 ^ 52, k + 1, Nat.two_pow_pos 52, ?_, le_rfl, by decide, by omega, le_rfl, by ring⟩
    rw [dif_neg (Nat.two_pow_pos 52).ne']
    simp only [Nat.cast_add, Nat.cast_one, add_assoc]
  · have hpos : 0 < nearestCount m (2 ^ k) := by omega
    have hlog' : (nearestCount m (2 ^ k)).log2 = 52 + 0 :=
      (Nat.log2_eq_iff hpos.ne').2 ⟨by omega, by omega⟩
    have hagain : shiftToTargetExponent Format.binary64 (nearestCount m (2 ^ k)) (e + k) .exact =
        (⟨nearestCount m (2 ^ k), false, false⟩, e + k + (0 : Nat)) :=
      shiftToTargetExponent_eq hlog' (by omega)
    rw [hagain]
    refine ⟨_, k, hpos, ?_, by omega, by omega, le_rfl, by omega, rfl⟩
    rw [dif_neg hpos.ne']
    simp only [Nat.cast_zero, add_zero]

/-- A number that is written with enough places is rounded to the nearest value. -/
theorem roundWithAccuracy_nearest (s : Sign) {n c : Nat} (hn : 0 < n) (hc : 52 ≤ n.log2 + c) :
    IsWhole (roundWithAccuracy Format.binary64 s (n * 2 ^ c) (-c) .exact)
      (s.apply (nearestNat n)) := by
  have hpos : 0 < n * 2 ^ c := Nat.mul_pos hn (Nat.two_pow_pos c)
  obtain ⟨i, hi⟩ := Nat.exists_eq_add_of_le hc
  have hlog : (n * 2 ^ c).log2 = 52 + i := by
    rw [log2_mul_two_pow hn.ne', hi]
  obtain ⟨m, j, h, hround, hlow, hhigh, hij, -, hvalue⟩ :=
    roundWithAccuracy_eq s (e := -(c : Int)) hpos hlog (by omega)
  obtain ⟨k, hk⟩ : ∃ k, j + 52 = k + c := ⟨j + 52 - c, by omega⟩
  have hexponent : -(c : Int) + j = (k : Int) - 52 := by omega
  rw [hround]
  simp only [hexponent]
  refine .finite s h hlow hhigh (Nat.eq_of_mul_eq_mul_right (Nat.two_pow_pos c) ?_)
  rw [nearestCount_scaled hi] at hvalue
  rw [Nat.mul_assoc, ← Nat.pow_add, ← hk, Nat.pow_add, ← Nat.mul_assoc, hvalue]
  ring

/-! ### Packing -/

theorem unpackSign_packComponents {spec : Format} {s : Sign} {exponent : BitVec spec.exponentBits}
    {mantissa : BitVec spec.mantissaBitsWithoutImplicit} :
    unpackSign (packComponents spec s exponent mantissa) = s.toBitVec := by
  ext i hi
  obtain rfl : i = 0 := by omega
  simp [unpackSign, packComponents, BitVec.getLsbD_append, BitVec.getElem_append]

theorem ofBitVec_toBitVec (s : Sign) : Sign.ofBitVec s.toBitVec = s := by
  cases s <;> rfl

/-- The highest bit of a mantissa is left out and put back. -/
theorem toNat_implicit {m : Nat} (hlow : 2 ^ 52 ≤ m) (hhigh : m < 2 ^ 53) :
    (1#1 ++ BitVec.ofNat 52 m).toNat = m := by
  rw [BitVec.toNat_append, ← Nat.shiftLeft_add_eq_or_of_lt (BitVec.ofNat 52 m).isLt,
    BitVec.toNat_ofNat, BitVec.toNat_ofNat, Nat.shiftLeft_eq]
  omega

theorem field_ne {n k : Nat} (hn : n < 2 ^ 11) (hk : k < 2 ^ 11) (h : n ≠ k) :
    BitVec.ofNat 11 n ≠ BitVec.ofNat 11 k := by
  intro heq
  have := congrArg BitVec.toNat heq
  rw [BitVec.toNat_ofNat, BitVec.toNat_ofNat, Nat.mod_eq_of_lt hn, Nat.mod_eq_of_lt hk] at this
  exact h this

theorem pack_finite (s : Sign) {m n : Nat} (h : 0 < m) (hlow : 2 ^ 52 ≤ m) (hhigh : m < 2 ^ 53)
    (hn : n < 2047) :
    UnpackedFloat.pack Format.binary64 (.finite s m ((n : Int) - 1075) h) =
      packComponents Format.binary64 s (BitVec.ofNat 11 n) (BitVec.ofNat 52 m) := by
  have hlog : m.log2 + 1 = Format.binary64.mantissaBits :=
    congrArg (· + 1) ((Nat.log2_eq_iff h.ne').2 ⟨hlow, hhigh⟩)
  have hexponent : ((n : Int) - 1075 + (Format.binary64.exponentBias : Int) +
      (Format.binary64.mantissaBitsWithoutImplicit : Int)).toNat = n := by
    have hbias : Format.binary64.exponentBias = 1023 := rfl
    have hwidth : Format.binary64.mantissaBitsWithoutImplicit = 52 := rfl
    omega
  unfold UnpackedFloat.pack
  dsimp only
  rw [hexponent, if_neg (by omega), if_pos hlog]

/-- A normal value is read off its fields. -/
theorem unpack_packComponents {s : Sign} {exponent : BitVec 11} {mantissa : BitVec 52}
    (hmax : exponent ≠ -1#11) (hzero : exponent ≠ 0#11) (h : 0 < (1#1 ++ mantissa).toNat) :
    UnpackedFloat.unpack Format.binary64 (packComponents Format.binary64 s exponent mantissa) =
      .finite s (1#1 ++ mantissa).toNat ((exponent.toNat : Int) - 1075) h := by
  have hmantissa : @unpackMantissa Format.binary64
      (packComponents Format.binary64 s exponent mantissa) = mantissa :=
    Float.Model.UnpackedFloat.unpackMantissa_packComponents
  have hexponent : @unpackExponent Format.binary64
      (packComponents Format.binary64 s exponent mantissa) = exponent :=
    Float.Model.UnpackedFloat.unpackExponent_packComponents
  have hsign : @unpackSign Format.binary64
      (packComponents Format.binary64 s exponent mantissa) = s.toBitVec :=
    unpackSign_packComponents
  generalize packComponents Format.binary64 s exponent mantissa = b at hmantissa hexponent hsign
  subst hmantissa hexponent
  unfold UnpackedFloat.unpack
  dsimp only
  rw [if_neg hmax, if_neg hzero, hsign, ofBitVec_toBitVec]
  rfl

/-- A mantissa of 53 bits and an exponent in its range are kept. -/
theorem unpack_pack (s : Sign) {m n : Nat} (h : 0 < m) (hlow : 2 ^ 52 ≤ m) (hhigh : m < 2 ^ 53)
    (hpos : 0 < n) (hn : n < 2047) :
    UnpackedFloat.unpack Format.binary64
        (UnpackedFloat.pack Format.binary64 (.finite s m ((n : Int) - 1075) h)) =
      .finite s m ((n : Int) - 1075) h := by
  have hmantissa := toNat_implicit hlow hhigh
  have hfield : (BitVec.ofNat 11 n).toNat = n := by
    rw [BitVec.toNat_ofNat, Nat.mod_eq_of_lt (by omega)]
  have hmax : BitVec.ofNat 11 n ≠ -1#11 := field_ne (k := 2047) (by omega) (by decide) (by omega)
  have hzero : BitVec.ofNat 11 n ≠ 0#11 := field_ne (by omega) (by decide) hpos.ne'
  rw [pack_finite s h hlow hhigh hn, unpack_packComponents hmax hzero (by omega)]
  simp only [hmantissa, hfield]

namespace IsWhole

variable {x y : UnpackedFloat} {v w : Int}

/-- A whole number is kept, if it is not too great. -/
theorem unpack_pack (h : IsWhole x v) (hv : v.natAbs ≤ 2 ^ 64) :
    UnpackedFloat.unpack Format.binary64 (UnpackedFloat.pack Format.binary64 x) = x := by
  cases h with
  | zero s => cases s <;> rfl
  | @finite s m k v h hlow hhigh hvalue =>
    have hk : 2 ^ k ≤ 2 ^ 64 := by
      have hsize : (s.apply (v : Int)).natAbs = v := by
        cases s
        · exact Int.natAbs_neg _
        · rfl
      have hle : 2 ^ k * 2 ^ 52 ≤ v * 2 ^ 52 := by
        rw [← hvalue, Nat.mul_comm]
        exact Nat.mul_le_mul_right _ hlow
      rw [hsize] at hv
      exact (Nat.le_of_mul_le_mul_right hle (by decide)).trans hv
    have hk' := (Nat.pow_le_pow_iff_right (by decide)).1 hk
    have hexponent : (k : Int) - 52 = ((k + 1023 : Nat) : Int) - 1075 := by omega
    rw [hexponent]
    exact Number.unpack_pack s h hlow hhigh (by omega) (by omega)

theorem packed (h : IsWhole x v) (hv : v.natAbs ≤ 2 ^ 64) :
    IsWhole (Float.Model.pack x).unpack v := by
  show IsWhole (UnpackedFloat.unpack Format.binary64 (UnpackedFloat.pack Format.binary64 x)) v
  rwa [h.unpack_pack hv]

/-- A whole number is itself times one. -/
theorem mul_one (h : IsWhole x v) :
    IsWhole (UnpackedFloat.mul Format.binary64 x (.finite .positive (2 ^ 52) (-52) (by decide)))
      v := by
  cases h with
  | zero s => cases s <;> exact .zero _
  | @finite s m k v h hlow hhigh hvalue =>
    have hlog : (m * 2 ^ 52).log2 = 52 + 52 := by
      rw [log2_mul_two_pow h.ne', (Nat.log2_eq_iff h.ne').2 ⟨hlow, hhigh⟩]
    obtain ⟨m', j, h', hround, hlow', hhigh', hj, -, hvalue'⟩ :=
      roundWithAccuracy_eq s (e := (k : Int) - 52 + -52) (Nat.mul_pos h (by decide)) hlog (by omega)
    have hsign : s * .positive = s := by cases s <;> rfl
    have hcount := nearestCount_mul m 1 (Nat.two_pow_pos 52)
    rw [Nat.one_mul, nearestCount_one] at hcount
    obtain ⟨i, rfl⟩ := Nat.exists_eq_add_of_le hj
    have hexponent : (k : Int) - 52 + -52 + (52 + i : Nat) = (k + i : Nat) - 52 := by omega
    show IsWhole (roundWithAccuracy Format.binary64 (s * .positive) (m * 2 ^ 52)
      ((k : Int) - 52 + -52) .exact) _
    rw [hsign, hround]
    simp only [hexponent]
    refine .finite s h' hlow' hhigh' (Nat.eq_of_mul_eq_mul_right (Nat.two_pow_pos 52) ?_)
    calc m' * 2 ^ (k + i) * 2 ^ 52 = m' * 2 ^ (52 + i) * 2 ^ k := by ring
      _ = m * 2 ^ k * 2 ^ 52 := by rw [hvalue', hcount]; ring
      _ = v * 2 ^ 52 * 2 ^ 52 := by rw [hvalue]

theorem neg (h : IsWhole x v) : IsWhole (UnpackedFloat.neg x) (-v) := by
  cases h with
  | zero s => exact .zero _
  | @finite s m k v h hlow hhigh hvalue =>
    have happly : -s.apply (v : Int) = (-s).apply (v : Int) := by
      cases s
      · exact Int.neg_neg _
      · rfl
    rw [happly]
    exact .finite (-s) h hlow hhigh hvalue

/-- Of two mantissas of 53 bits with exponents, the exponents are compared first. -/
theorem compare_mantissas {m m' k k' : Nat} (hlow : 2 ^ 52 ≤ m) (hhigh : m < 2 ^ 53)
    (hlow' : 2 ^ 52 ≤ m') (hhigh' : m' < 2 ^ 53) :
    (Ord.compare ((k : Int) - 52) ((k' : Int) - 52)).then (Ord.compare m m') =
      Ord.compare (m * 2 ^ k) (m' * 2 ^ k') := by
  have hless {m m' k k' : Nat} (hhigh : m < 2 ^ 53) (hlow' : 2 ^ 52 ≤ m') (hk : k < k') :
      m * 2 ^ k < m' * 2 ^ k' :=
    calc m * 2 ^ k < 2 ^ 53 * 2 ^ k := Nat.mul_lt_mul_of_pos_right hhigh (Nat.two_pow_pos k)
      _ = 2 ^ 52 * 2 ^ (k + 1) := by ring
      _ ≤ m' * 2 ^ k' := Nat.mul_le_mul hlow' (Nat.pow_le_pow_right (by decide) hk)
  rcases Nat.lt_trichotomy k k' with hlt | rfl | hgt
  · rw [compare_lt_iff_lt.2 (by omega), compare_lt_iff_lt.2 (hless hhigh hlow' hlt)]
    rfl
  · rw [compare_eq_iff_eq.2 rfl]
    have hpos := Nat.two_pow_pos k
    rcases Nat.lt_trichotomy m m' with hlt | rfl | hgt
    · rw [compare_lt_iff_lt.2 hlt, compare_lt_iff_lt.2 ((Nat.mul_lt_mul_right hpos).2 hlt)]
      rfl
    · rw [compare_eq_iff_eq.2 rfl, compare_eq_iff_eq.2 rfl]
      rfl
    · rw [compare_gt_iff_gt.2 hgt, compare_gt_iff_gt.2 ((Nat.mul_lt_mul_right hpos).2 hgt)]
      rfl
  · rw [compare_gt_iff_gt.2 (by omega), compare_gt_iff_gt.2 (hless hhigh' hlow hgt)]
    rfl

theorem compare_finite {m m' k k' v w : Nat} (hlow : 2 ^ 52 ≤ m) (hhigh : m < 2 ^ 53)
    (hvalue : m * 2 ^ k = v * 2 ^ 52) (hlow' : 2 ^ 52 ≤ m') (hhigh' : m' < 2 ^ 53)
    (hvalue' : m' * 2 ^ k' = w * 2 ^ 52) :
    (Ord.compare ((k : Int) - 52) ((k' : Int) - 52)).then (Ord.compare m m') =
      Ord.compare (v : Int) (w : Int) := by
  rw [compare_mantissas hlow hhigh hlow' hhigh', hvalue, hvalue', compare_natCast]
  rcases Nat.lt_trichotomy v w with hlt | rfl | hgt
  · rw [compare_lt_iff_lt.2 hlt, compare_lt_iff_lt.2 (by omega)]
  · rw [compare_eq_iff_eq.2 rfl, compare_eq_iff_eq.2 rfl]
  · rw [compare_gt_iff_gt.2 hgt, compare_gt_iff_gt.2 (by omega)]

theorem pos_of_finite {m k v : Nat} (h : 0 < m) (hvalue : m * 2 ^ k = v * 2 ^ 52) : 0 < v := by
  have := Nat.mul_pos h (Nat.two_pow_pos k)
  omega

/-- Whole numbers are compared as such. -/
theorem compare (hx : IsWhole x v) (hy : IsWhole y w) :
    x.compare y = some (Ord.compare v w) := by
  cases hx with
  | zero s =>
    cases hy with
    | zero s' => rfl
    | @finite s' m' k' w h' hlow' hhigh' hvalue' =>
      have hpos := pos_of_finite h' hvalue'
      cases s' with
      | negative =>
        have hgt : 0 > -(w : Int) := by omega
        exact congrArg some (compare_gt_iff_gt.2 hgt).symm
      | positive =>
        have hlt : 0 < (w : Int) := by omega
        exact congrArg some (compare_lt_iff_lt.2 hlt).symm
  | @finite s m k v h hlow hhigh hvalue =>
    have hpos := pos_of_finite h hvalue
    cases hy with
    | zero s' =>
      cases s with
      | negative =>
        have hlt : -(v : Int) < 0 := by omega
        exact congrArg some (compare_lt_iff_lt.2 hlt).symm
      | positive =>
        have hgt : (v : Int) > 0 := by omega
        exact congrArg some (compare_gt_iff_gt.2 hgt).symm
    | @finite s' m' k' w h' hlow' hhigh' hvalue' =>
      have hcompare := compare_finite hlow hhigh hvalue hlow' hhigh' hvalue'
      have hpos' := pos_of_finite h' hvalue'
      cases s with
      | negative =>
        cases s' with
        | negative =>
          show some ((Ord.compare ((k : Int) - 52) ((k' : Int) - 52)).then
            (Ord.compare m m')).swap = some (Ord.compare (-(v : Int)) (-(w : Int)))
          rw [hcompare, compare_neg]
        | positive =>
          have hlt : -(v : Int) < w := by omega
          exact congrArg some (compare_lt_iff_lt.2 hlt).symm
      | positive =>
        cases s' with
        | negative =>
          have hgt : (v : Int) > -(w : Int) := by omega
          exact congrArg some (compare_gt_iff_gt.2 hgt).symm
        | positive => exact congrArg some hcompare

end IsWhole

/-! ### Numbers as values -/

/-- From `2 ^ 53` on a number is rounded as it stands. -/
theorem toModel_ofNat_large {n : Nat} (hn : 2 ^ 53 ≤ n) : (Float.ofNat n).toModel =
    .pack (roundWithAccuracy Format.binary64 .positive (n * 2 ^ 53) (-(53 : Nat)) .exact) := by
  have hshift : (n <<< 53) * 10 ^ (0 : Int).toNat = n * 2 ^ 53 := by
    rw [Nat.shiftLeft_eq]
    exact Nat.mul_one _
  have hbound : ¬ (0 : Int) < -(2 ^ 11 + (n.log2 : Int)) := by omega
  have hscientific : Float.ofNat n = .ofModel (Float.Model.ofScientific n 0) := by
    show Float.ofScientific n false 0 = _
    rw [Float.ofScientific, dif_neg (by omega)]
    rfl
  rw [hscientific]
  show Float.Model.pack (UnpackedFloat.ofScientific Format.binary64 n 0) = _
  rw [UnpackedFloat.ofScientific, dif_neg (by omega), if_neg (by decide), if_neg hbound,
    if_pos le_rfl, UnpackedFloat.mul]
  exact congrArg (fun m => Float.Model.pack
    (roundWithAccuracy Format.binary64 .positive m (-(53 : Nat)) .exact)) hshift

/-- Below, it is a word that is converted and then multiplied by one. -/
theorem toModel_ofNat_small {n : Nat} (hn : n < 2 ^ 53) : (Float.ofNat n).toModel =
    .pack (UnpackedFloat.mul Format.binary64
      (UnpackedFloat.unpack Format.binary64 (UnpackedFloat.pack Format.binary64
        (UnpackedFloat.ofNat Format.binary64 n)))
      (.finite .positive (2 ^ 52) (-52) (by decide))) := by
  have hword : n.toUInt64.toNat = n := by
    simp
    omega
  have hscientific : Float.ofNat n = n.toUInt64.toFloat * Float.ofBits 0x3FF0000000000000 := by
    show Float.ofScientific n false 0 = _
    rw [Float.ofScientific, dif_pos (by omega)]
    rfl
  rw [hscientific]
  show Float.Model.pack (UnpackedFloat.mul Format.binary64
    (UnpackedFloat.unpack Format.binary64 (UnpackedFloat.pack Format.binary64
      (UnpackedFloat.ofNat Format.binary64 n.toUInt64.toNat))) _) = _
  rw [hword]
  rfl

/-- A word of at most 53 bits is kept. -/
theorem isWhole_word {n : Nat} (hn : n < 2 ^ 53) :
    IsWhole (UnpackedFloat.ofNat Format.binary64 n) n := by
  rcases Nat.eq_zero_or_pos n with rfl | hpos
  · exact .zero _
  · have hlog : n.log2 < 53 := (Nat.log2_lt hpos.ne').2 hn
    have hplaces : (0 - ((n.log2 : Int) + 0 - 52)).toNat = 52 - n.log2 := by omega
    have hround : UnpackedFloat.ofNat Format.binary64 n = roundWithAccuracy Format.binary64
        .positive (n * 2 ^ (52 - n.log2)) (-(52 - n.log2 : Nat)) .exact := by
      unfold UnpackedFloat.ofNat UnpackedFloat.ofInt UnpackedFloat.normalize
      rw [Int.compare_eq_gt.2 (by omega)]
      dsimp only
      rw [UnpackedFloat.round, Int.toNat_natCast, targetExponent_eq (by omega),
        Float.Model.UnpackedFloat.decreaseExponent]
      dsimp only
      rw [hplaces, Nat.shiftLeft_eq, Int.zero_sub]
    have hwhole := roundWithAccuracy_nearest .positive (c := 52 - n.log2) hpos (by omega)
    rw [hround]
    rwa [nearestNat_of_lt hn] at hwhole

theorem nearestNat_le {n : Nat} (hn : n < 2 ^ 64) : nearestNat n ≤ 2 ^ 64 := by
  rcases Nat.eq_zero_or_pos n with rfl | hpos
  · exact Nat.zero_le _
  · exact (nearestNat_range hpos).2.trans
      (Nat.pow_le_pow_right (by decide) ((Nat.log2_lt hpos.ne').2 hn))

theorem isWhole_ofNat {n : Nat} (hn : n < 2 ^ 64) :
    IsWhole (Float.ofNat n).toModel.unpack (nearestNat n) := by
  have hbound := nearestNat_le hn
  rw [← Int.natAbs_natCast (nearestNat n)] at hbound
  rcases Nat.lt_or_ge n (2 ^ 53) with hsmall | hlarge
  · have hword := isWhole_word hsmall
    rw [nearestNat_of_lt hsmall] at hbound ⊢
    rw [toModel_ofNat_small hsmall, hword.unpack_pack hbound]
    exact hword.mul_one.packed hbound
  · rw [toModel_ofNat_large hlarge]
    exact (roundWithAccuracy_nearest .positive (by omega) (by omega)).packed hbound

/-- A whole number becomes the value nearest to it. -/
theorem isWhole_ofInt {z : Int} (hz : z.natAbs < 2 ^ 64) :
    IsWhole (Float.ofInt z).toModel.unpack (nearestInt z) := by
  cases z with
  | ofNat n =>
    show IsWhole (Float.ofNat n).toModel.unpack (nearestInt n)
    rw [nearestInt_natCast]
    exact isWhole_ofNat hz
  | negSucc n =>
    have hvalue : nearestInt (.negSucc n) = -(nearestNat (n + 1) : Int) := by
      rw [Int.negSucc_eq, nearestInt_neg, ← Int.natCast_succ, nearestInt_natCast]
    rw [hvalue]
    refine (isWhole_ofNat hz).neg.packed ?_
    rw [Int.natAbs_neg, Int.natAbs_natCast]
    exact nearestNat_le hz

/-- Two numbers stand as values the way that the nearest values do. -/
theorem compareDecimals_ofInt {a b : Int} (ha : a.natAbs < 2 ^ 64) (hb : b.natAbs < 2 ^ 64) :
    Value.compareDecimals (.ofInt a) (.ofInt b) = some (compare (nearestInt a) (nearestInt b)) := by
  rw [← (isWhole_ofInt ha).compare (isWhole_ofInt hb), compare_unpacked,
    Value.compareDecimals_eq]
  rfl

/-! ### Reading digits -/

namespace Decimal

/-- Zeros in front make no difference. -/
theorem ofDigits_significant (ds : List Char) :
    ofDigits (ds.dropWhile (· == '0')) = ofDigits ds := by
  have hzeros : ds.takeWhile (· == '0') =
      List.replicate (ds.takeWhile (· == '0')).length '0' :=
    List.eq_replicate_iff.2
      ⟨rfl, fun c hc => beq_iff_eq.1 (List.mem_takeWhile_imp (p := (· == '0')) hc)⟩
  have hsplit := congrArg ofDigits (List.takeWhile_append_dropWhile (p := (· == '0')) (l := ds))
  rw [hzeros, ofDigits_append, ofDigits_zeros, Nat.mul_zero, Nat.zero_add] at hsplit
  exact hsplit

theorem nearest_toDigits {n : Nat} (hn : n < 2 ^ 64) : nearest (toDigits n) 0 = Float.ofNat n := by
  have hlength : (toDigits n).length ≤ 20 :=
    (Nat.length_toDigits_le_iff (by decide) (by decide)).2 (by omega)
  have hsignificant := ((toDigits n).dropWhile_sublist (· == '0')).length_le
  have hvalue := ofDigits_significant (toDigits n)
  rw [ofDigits_toDigits] at hvalue
  unfold nearest
  dsimp only
  by_cases hempty : (toDigits n).dropWhile (· == '0') = []
  · rw [hempty] at hvalue ⊢
    rw [← hvalue]
    decide
  · rw [if_neg (by simp [hempty]), if_neg (by omega), hvalue]
    rfl

/-- Digits alone are read as their number. -/
theorem read?_toDigits {n : Nat} (hn : n < 2 ^ 64) :
    (readWord? (toDigits n) <|> readUnsigned? (toDigits n)) = some (Float.ofNat n) := by
  have hdigits : ∀ c ∈ toDigits n, c.isDigit = true := fun c hc => isDigit_of_mem_toDigits hc
  obtain ⟨c, cs, hlist⟩ : ∃ c cs, toDigits n = c :: cs :=
    List.exists_cons_of_ne_nil Nat.toDigits_ne_nil
  have hword : readWord? (toDigits n) = none := by
    rw [hlist]
    exact readWord?_of_isDigit (hdigits c (hlist ▸ List.mem_cons_self)) cs
  have hunsigned : readUnsigned? (toDigits n) = some (nearest (toDigits n) 0) := by
    unfold readUnsigned?
    rw [List.takeWhile_eq_self_iff.2 hdigits, List.dropWhile_eq_nil_iff.2 hdigits]
    simp [readTail?, toDigits]
  rw [hword, hunsigned, nearest_toDigits hn]
  rfl

/-- The digits of a number are read as the value that the number becomes. -/
theorem read?_toString {z : Int} (hz : z.natAbs < 2 ^ 64) :
    read? (toString z).toList = some (Float.ofInt z) := by
  have hdigits {n : Nat} : ∀ c ∈ toDigits n, c.isDigit = true := fun c hc =>
    isDigit_of_mem_toDigits hc
  rw [toList_toString]
  cases z with
  | ofNat n =>
    rw [if_pos (by exact Int.natCast_nonneg n)]
    show read? (toDigits n) = some (Float.ofNat n)
    have hread : _ = some (Float.ofNat n) := read?_toDigits hz
    rw [← hread]
    unfold read?
    split
    · next heq => exact absurd (hdigits '+' (heq ▸ List.mem_cons_self)) (by decide)
    · next heq => exact absurd (hdigits '-' (heq ▸ List.mem_cons_self)) (by decide)
    · rfl
  | negSucc n =>
    rw [if_neg (by omega)]
    show ((readWord? (toDigits (n + 1)) <|> readUnsigned? (toDigits (n + 1))).map (- ·)) =
      some (Float.neg (Float.ofNat (n + 1)))
    have hread : _ = some (Float.ofNat (n + 1)) := read?_toDigits hz
    rw [hread]
    rfl

end Decimal

end Number

namespace Operand

/-- A number and its digits are read as the value that the number becomes, whichever side they are
on. -/
theorem number?_toString {o : Operand} {z : Int} (ho : o.text = toString z)
    (hz : z.natAbs < 2 ^ 64) : o.number? = some (Float.ofInt z) := by
  have hblank : ∀ c ∈ (toString z).toList, Text.isBlank c = false := by
    intro c hc
    rcases isDigit_of_mem_numeral hc with hdigit | rfl
    · have := Text.isDigit_bounds hdigit
      exact Text.isBlank_of_ascii (by omega) (by omega)
    · decide
  rw [number?, ho, Lexeme.trim_of_not_blank hblank, Number.Decimal.read?_toString hz]

/-- Two numbers, the second one by its digits, are compared as the values nearest to them. -/
theorem order?_toString {o o' : Operand} {a b : Int} (ho : o.text = toString a)
    (ho' : o'.text = toString b) (ha : a.natAbs < 2 ^ 64) (hb : b.natAbs < 2 ^ 64) :
    o.order? o' = some (compare (Number.nearestInt a) (Number.nearestInt b)) := by
  rw [order?, number?_toString ho ha, number?_toString ho' hb]
  exact Number.compareDecimals_ofInt ha hb

end Operand

/-- Rounding takes two numbers to one value, or leaves them as they stand. -/
theorem Number.compare_nearest (a b : Int) : compare (nearestInt a) (nearestInt b) =
    if nearestInt a = nearestInt b then .eq else compare a b := by
  split
  · next heq => exact compare_eq_iff_eq.2 heq
  · next hne =>
    rcases Int.lt_trichotomy a b with hlt | rfl | hgt
    · have := nearestInt_mono hlt.le
      rw [compare_lt_iff_lt.2 hlt, compare_lt_iff_lt.2 (by omega)]
    · exact absurd rfl hne
    · have := nearestInt_mono hgt.le
      rw [compare_gt_iff_gt.2 hgt, compare_gt_iff_gt.2 (by omega)]

theorem Number.nearestInt_of_le {z : Int} (h : z.natAbs ≤ 2 ^ 53) : nearestInt z = z := by
  have hnat : nearestNat z.natAbs = z.natAbs := by
    rcases Nat.lt_or_eq_of_le h with hlt | heq
    · exact nearestNat_of_lt hlt
    · rw [heq]
      decide
  rw [nearestInt, hnat, Int.sign_mul_natAbs]

/-! ## Main result -/

namespace Value

/-- How a whole number of 64 bits is compared with another one, by ORDER BY, and by the operators
with the digits of the other one: as the numbers stand, unless one binary64 value is nearest to both
of them, when neither is less.  The value nearest to a number is the number itself up to
`2 ^ 53`. -/
theorem integers_compared (now : String) (a b : Int64) :
    (integer a).compareForSort (.integer b) =
        (if Number.nearestInt a.toInt = Number.nearestInt b.toInt then .eq
          else compare a.toInt b.toInt) ∧
      (CompareOp.lt.holds (.value (.integer a)) (.numeral now b.toInt) = true ↔
        a.toInt < b.toInt ∧ Number.nearestInt a.toInt ≠ Number.nearestInt b.toInt) ∧
      (CompareOp.gt.holds (.value (.integer a)) (.numeral now b.toInt) = true ↔
        a.toInt > b.toInt ∧ Number.nearestInt a.toInt ≠ Number.nearestInt b.toInt) ∧
      (CompareOp.le.holds (.value (.integer a)) (.numeral now b.toInt) = true ↔
        a.toInt < b.toInt ∧ Number.nearestInt a.toInt ≠ Number.nearestInt b.toInt ∨ a = b) ∧
      (CompareOp.ge.holds (.value (.integer a)) (.numeral now b.toInt) = true ↔
        a.toInt > b.toInt ∧ Number.nearestInt a.toInt ≠ Number.nearestInt b.toInt ∨ a = b) ∧
      (a.toInt.natAbs ≤ 2 ^ 53 → Number.nearestInt a.toInt = a.toInt) ∧
      Number.IsHeld (Number.nearestInt a.toInt) ∧
      ∀ w, Number.IsHeld w →
        (a.toInt - Number.nearestInt a.toInt).natAbs ≤ (a.toInt - w).natAbs := by
  have hbound (n : Int64) : n.toInt.natAbs < 2 ^ 64 := by
    have := n.toInt_lt
    have := n.le_toInt
    omega
  have horder : (Operand.value (.integer a)).order? (.numeral now b.toInt) =
      some (if Number.nearestInt a.toInt = Number.nearestInt b.toInt then .eq
        else compare a.toInt b.toInt) := by
    rw [← Number.compare_nearest]
    exact Operand.order?_toString rfl rfl (hbound a) (hbound b)
  have hlt : (Operand.value (.integer a)).order? (.numeral now b.toInt) = some .lt ↔
      a.toInt < b.toInt ∧ Number.nearestInt a.toInt ≠ Number.nearestInt b.toInt := by
    rw [horder, Option.some_inj, ite_eq_iff, compare_lt_iff_lt]
    simp [and_comm]
  have hgt : (Operand.value (.integer a)).order? (.numeral now b.toInt) = some .gt ↔
      a.toInt > b.toInt ∧ Number.nearestInt a.toInt ≠ Number.nearestInt b.toInt := by
    rw [horder, Option.some_inj, ite_eq_iff, compare_gt_iff_gt]
    simp [and_comm]
  have hequal : (Operand.value (.integer a)).equals (.numeral now b.toInt) = true ↔ a = b := by
    rw [← Int64.toInt_inj]
    show (toString a.toInt == toString b.toInt) = true ↔ _
    rw [beq_iff_eq]
    exact ⟨toString_int_inj, congrArg toString⟩
  refine ⟨?_, ?_, ?_, ?_, ?_, Number.nearestInt_of_le, Number.nearestInt_nearest _⟩
  · rw [compareForSort_of_numbers rfl rfl, ← Number.compare_nearest,
      Number.compareDecimals_ofInt (hbound a) (hbound b)]
    rfl
  · rw [← hlt]
    exact beq_iff_eq
  · rw [← hgt]
    exact beq_iff_eq
  · rw [← hlt, ← hequal, CompareOp.holds, Bool.or_eq_true, beq_iff_eq]
  · rw [← hgt, ← hequal, CompareOp.holds, Bool.or_eq_true, beq_iff_eq]

/-- Two odd numbers, which are rounded away from each other. -/
theorem integers_compared_of_odd :
    Number.nearestInt (9007199254740993 : Int64).toInt = 9007199254740992 ∧
      Number.nearestInt (9007199254740995 : Int64).toInt = 9007199254740996 ∧
      (integer 9007199254740993).compareForSort (.integer 9007199254740995) = .lt ∧
      CompareOp.lt.holds (.value (.integer 9007199254740993))
        (.numeral "" (9007199254740995 : Int64).toInt) = true := by
  have ha : Number.nearestInt (9007199254740993 : Int64).toInt = 9007199254740992 := by
    decide +kernel
  have hb : Number.nearestInt (9007199254740995 : Int64).toInt = 9007199254740996 := by
    decide +kernel
  have hab : (9007199254740993 : Int64).toInt < (9007199254740995 : Int64).toInt := by
    decide +kernel
  obtain ⟨hsort, hlt, -⟩ := integers_compared "" 9007199254740993 9007199254740995
  rw [ha, hb] at hsort hlt
  refine ⟨ha, hb, hsort.trans ?_, hlt.2 ⟨hab, by decide⟩⟩
  rw [if_neg (by decide), compare_lt_iff_lt]
  exact hab

/-- Two numbers that are next to each other, and the same to ORDER BY and to the operators. -/
theorem integers_compared_alike :
    (9007199254740992 : Int64).toInt < (9007199254740993 : Int64).toInt ∧
      (integer 9007199254740992).compareForSort (.integer 9007199254740993) = .eq ∧
      CompareOp.lt.holds (.value (.integer 9007199254740992))
        (.numeral "" (9007199254740993 : Int64).toInt) = false := by
  decide +kernel

end Value

end Tabula
