import Mathlib.Algebra.Order.Field.Power
import Mathlib.Algebra.Order.Ring.Rat
import Mathlib.Tactic.Positivity
import Tabula.Number.Decimal
import Tabula.Proofs.Rounding

/-!
# Decimals are told apart by their text

`Decimal.text` writes different binary64 values differently.  The sign is its first character, and
what follows begins with a digit unless the value is infinite or no number.  A row of digits with at
most one point in it stands for one number, and that number is the one of the shortest decimal,
which belongs to one value only.

* `Decimal.Names.unique`, `Decimal.positional_names`: what a row of digits stands for.
* `ofBits_eq_nth`: the bits of a value count the values up to it.
* `Decimal.text_inj`: values of one text are one value.
-/

namespace Tabula.Number

open Float.Model (UnpackedFloat Format)
open Float.Model.UnpackedFloat (unpackExponent unpackMantissa)

namespace Decimal

/-! ## Algorithm -/

/-- A row of digits, perhaps with a point and more digits after it, stands for a number. -/
structure Names (cs whole fraction : List Char) (v : ℚ) : Prop where
  nonempty : whole ≠ []
  digits : ∀ c ∈ whole ++ fraction, c.isDigit = true
  layout : cs = whole ++ if fraction.isEmpty then [] else '.' :: fraction
  value : v * 10 ^ fraction.length = ofDigits (whole ++ fraction)

/-- What the text of a value begins with. -/
def sign (x : Float) : List Char :=
  if x.toBits >>> 63 = 1 then ['-'] else []

/-- The text of a value that is a number, without its sign. -/
def body (x : Float) : List Char :=
  if x.isInf then "inf".toList else positional (Binary.ofBits x.toBits).shortest

/-! ## Lemmas -/

/-! ### Rows of digits -/

theorem ofDigits_append (ds es : List Char) :
    ofDigits (ds ++ es) = 10 ^ es.length * ofDigits ds + ofDigits es := by
  show Nat.ofDigitChars 10 (ds ++ es) 0 = 10 ^ es.length * Nat.ofDigitChars 10 ds 0 +
    Nat.ofDigitChars 10 es 0
  rw [Nat.ofDigitChars_append, Nat.ofDigitChars_eq_ofDigitChars_zero]

theorem ofDigits_zeros (n : Nat) : ofDigits (List.replicate n '0') = 0 := by
  show Nat.ofDigitChars 10 (List.replicate n '0') 0 = 0
  rw [Nat.ofDigitChars_replicate_zero, Nat.mul_zero]

theorem ofDigits_toDigits (n : Nat) : ofDigits (toDigits n) = n :=
  Nat.ofDigitChars_toDigits (by decide) (by decide)

theorem toDigits_inj {m n : Nat} (h : toDigits m = toDigits n) : m = n := by
  rw [← ofDigits_toDigits m, h, ofDigits_toDigits]

theorem isDigit_of_mem_toDigits {n : Nat} {c : Char} (h : c ∈ toDigits n) : c.isDigit = true :=
  Nat.isDigit_of_mem_toDigits (by decide) (by decide) h

theorem isDigit_of_mem_zeros {n : Nat} {c : Char} (h : c ∈ List.replicate n '0') :
    c.isDigit = true := by
  rw [List.eq_of_mem_replicate h]
  rfl

namespace Names

variable {cs whole fraction whole' fraction' : List Char} {v w : ℚ}

/-- The digits before the point and those after it are found again. -/
theorem split (h : Names cs whole fraction v) :
    whole = cs.takeWhile Char.isDigit ∧ fraction = (cs.dropWhile Char.isDigit).drop 1 := by
  have hwhole : ∀ c ∈ whole, c.isDigit = true := fun c hc =>
    h.digits c (List.mem_append_left _ hc)
  rw [h.layout, List.takeWhile_append_of_pos hwhole, List.dropWhile_append_of_pos hwhole]
  cases fraction with
  | nil => simp
  | cons d rest => simp

/-- A row of digits stands for one number. -/
theorem unique (hv : Names cs whole fraction v) (hw : Names cs whole' fraction' w) : v = w := by
  obtain ⟨hwhole, hfraction⟩ := hv.split
  obtain ⟨rfl, rfl⟩ := hw.split
  subst hwhole hfraction
  have hpos : (10 : ℚ) ^ ((cs.dropWhile Char.isDigit).drop 1).length ≠ 0 := by positivity
  exact mul_right_cancel₀ hpos (hv.value.trans hw.value.symm)

/-- A row of digits begins with one. -/
theorem head (h : Names cs whole fraction v) : ∃ c rest, cs = c :: rest ∧ c.isDigit = true := by
  obtain ⟨c, rest, rfl⟩ := List.exists_cons_of_ne_nil h.nonempty
  exact ⟨c, _, h.layout, h.digits c (List.mem_append_left _ List.mem_cons_self)⟩

/-- Nothing but digits and a point is in a row of digits. -/
theorem blank_not_mem (h : Names cs whole fraction v) : ' ' ∉ cs := by
  have hdigits : ' ' ∉ whole ++ fraction := fun hmem => absurd (h.digits ' ' hmem) (by decide)
  rw [List.mem_append, not_or] at hdigits
  rw [h.layout, List.mem_append, not_or]
  refine ⟨hdigits.1, ?_⟩
  split
  · exact List.not_mem_nil
  · rw [List.mem_cons, not_or]
    exact ⟨by decide, hdigits.2⟩

end Names

/-- Zeros at the end are taken off. -/
theorem eq_append_zeros (cs : List Char) :
    ∃ n, cs = (cs.reverse.dropWhile (· == '0')).reverse ++ List.replicate n '0' := by
  refine ⟨(cs.reverse.takeWhile (· == '0')).length, ?_⟩
  have hzeros : (cs.reverse.takeWhile (· == '0')).reverse =
      List.replicate (cs.reverse.takeWhile (· == '0')).length '0' := by
    rw [List.eq_replicate_iff, List.length_reverse]
    refine ⟨rfl, fun c hc => ?_⟩
    have hall := List.all_eq_true.1 (List.all_takeWhile (p := (· == '0')) (l := cs.reverse))
    exact beq_iff_eq.1 (hall c (List.mem_reverse.1 hc))
  rw [← hzeros, ← List.reverse_append, List.takeWhile_append_dropWhile, List.reverse_reverse]

/-- The digits of a number, with zeros before them. -/
theorem ofDigits_padded (k n : Nat) : ofDigits (List.replicate k '0' ++ toDigits n) = n := by
  rw [ofDigits_append, ofDigits_zeros, Nat.mul_zero, Nat.zero_add, ofDigits_toDigits]

theorem isDigit_of_mem_padded {k n : Nat} {c : Char} (h : c ∈ List.replicate k '0' ++ toDigits n) :
    c.isDigit = true := by
  rcases List.mem_append.1 h with h | h
  · exact isDigit_of_mem_zeros h
  · exact isDigit_of_mem_toDigits h

/-- A number is named by digits of which the last come after the point, less the zeros at their
end. -/
theorem names_of_point {ds whole fraction : List Char} {places : Nat} {v : ℚ}
    (hdigits : ∀ c ∈ ds, c.isDigit = true) (hplaces : places < ds.length)
    (hvalue : v * 10 ^ places = ofDigits ds) (hwhole : whole = ds.take (ds.length - places))
    (hfraction : fraction =
      ((ds.drop (ds.length - places)).reverse.dropWhile (· == '0')).reverse) :
    Names (if fraction.isEmpty then whole else whole ++ '.' :: fraction) whole fraction v := by
  obtain ⟨k, htail⟩ := eq_append_zeros (ds.drop (ds.length - places))
  rw [← hfraction] at htail
  have hall : ds = whole ++ fraction ++ List.replicate k '0' := by
    rw [List.append_assoc, ← htail, hwhole, List.take_append_drop]
  have hlength : places = fraction.length + k := by
    have := congrArg List.length htail
    rw [List.length_drop, List.length_append, List.length_replicate] at this
    omega
  refine ⟨?_, ?_, ?_, ?_⟩
  · rw [← List.length_pos_iff, hwhole, List.length_take]
    omega
  · exact fun c hc => hdigits c (hall ▸ List.mem_append_left _ hc)
  · split <;> simp
  · -- both sides are ten times greater for each zero that is left out
    rw [hall, ofDigits_append, ofDigits_zeros, List.length_replicate, hlength, pow_add] at hvalue
    push_cast at hvalue
    have hpos : (10 : ℚ) ^ k ≠ 0 := by positivity
    refine mul_right_cancel₀ hpos ?_
    rw [mul_assoc, hvalue, add_zero, mul_comm]

/-- A decimal is written as a row of digits that stands for it. -/
theorem positional_names (d : Scaled) :
    ∃ whole fraction, Names (positional d) whole fraction d.value := by
  unfold positional
  dsimp only
  split
  · next hexponent =>
    have hpower : (10 : ℚ) ^ d.exponent = 10 ^ d.exponent.toNat := by
      rw [← zpow_natCast, Int.toNat_of_nonneg hexponent]
    refine ⟨toDigits d.coefficient ++ List.replicate d.exponent.toNat '0', [], ?_, ?_, ?_, ?_⟩
    · exact List.append_ne_nil_of_left_ne_nil Nat.toDigits_ne_nil _
    · intro c hc
      rw [List.append_nil] at hc
      rcases List.mem_append.1 hc with hc | hc
      · exact isDigit_of_mem_toDigits hc
      · exact isDigit_of_mem_zeros hc
    · simp
    · rw [List.append_nil, ofDigits_append, ofDigits_zeros, ofDigits_toDigits,
        List.length_replicate, Scaled.value, hpower, List.length_nil, pow_zero, mul_one]
      push_cast
      ring
  · next hexponent =>
    have hpower : (10 : ℚ) ^ d.exponent * 10 ^ d.exponent.natAbs = 1 := by
      have hzero : d.exponent + (d.exponent.natAbs : Int) = 0 := by omega
      rw [← zpow_natCast, ← zpow_add₀ (by norm_num), hzero, zpow_zero]
    refine ⟨_, _, names_of_point (fun c hc => isDigit_of_mem_padded hc) ?_ ?_ rfl rfl⟩
    · rw [List.length_append, List.length_replicate]
      omega
    · rw [ofDigits_padded, Scaled.value, mul_assoc, hpower, mul_one]

end Decimal

/-! ### Bits -/

theorem unpackExponent_toNat (b : BitVec 64) :
    (@unpackExponent Format.binary64 b).toNat = b.toNat / 2 ^ 52 % 2 ^ 11 := by
  unfold unpackExponent
  rw [BitVec.toNat_cast, BitVec.extractLsb_toNat, Nat.shiftRight_eq_div_pow]
  rfl

theorem unpackMantissa_toNat (b : BitVec 64) :
    (@unpackMantissa Format.binary64 b).toNat = b.toNat % 2 ^ 52 := by
  unfold unpackMantissa
  rw [BitVec.toNat_cast, BitVec.extractLsb_toNat, Nat.shiftRight_zero]
  rfl

/-- Where the exponent is the greatest, the bits stand for infinity or for no number, and nowhere
else. -/
theorem unpack_cases (b : BitVec 64) :
    (@unpackExponent Format.binary64 b = -1#_ ∧ @unpackMantissa Format.binary64 b = 0#_ ∧
        (UnpackedFloat.unpack Format.binary64 b).isNaN = false) ∨
      (@unpackExponent Format.binary64 b = -1#_ ∧ @unpackMantissa Format.binary64 b ≠ 0#_ ∧
        (UnpackedFloat.unpack Format.binary64 b).isInf = false) ∨
      (UnpackedFloat.unpack Format.binary64 b).isNaN = false ∧
        (UnpackedFloat.unpack Format.binary64 b).isInf = false := by
  unfold UnpackedFloat.unpack
  dsimp only
  by_cases hexponent : @unpackExponent Format.binary64 b = -1#_
  · by_cases hmantissa : @unpackMantissa Format.binary64 b = 0#_
    · rw [if_pos hexponent, if_pos hmantissa]
      exact .inl ⟨hexponent, hmantissa, rfl⟩
    · rw [if_pos hexponent, if_neg hmantissa]
      exact .inr (.inl ⟨hexponent, hmantissa, rfl⟩)
  · rw [if_neg hexponent]
    by_cases hzero : @unpackExponent Format.binary64 b = 0#_
    · rw [if_pos hzero]
      by_cases hmantissa : @unpackMantissa Format.binary64 b = 0#_
      · rw [dif_pos hmantissa]
        exact .inr (.inr ⟨rfl, rfl⟩)
      · rw [dif_neg hmantissa]
        exact .inr (.inr ⟨rfl, rfl⟩)
    · rw [if_neg hzero]
      exact .inr (.inr ⟨rfl, rfl⟩)

/-- The bits of what is no number. -/
theorem unpack_of_isNaN {x : Float} (h : x.isNaN = true) :
    @unpackExponent Format.binary64 x.toBits.toBitVec = -1#_ ∧
      @unpackMantissa Format.binary64 x.toBits.toBitVec ≠ 0#_ := by
  replace h : (UnpackedFloat.unpack Format.binary64 x.toBits.toBitVec).isNaN = true := h
  rcases unpack_cases x.toBits.toBitVec with
    ⟨-, -, hnan⟩ | ⟨hexponent, hmantissa, -⟩ | ⟨hnan, -⟩
  · exact absurd (hnan.symm.trans h) Bool.false_ne_true
  · exact ⟨hexponent, hmantissa⟩
  · exact absurd (hnan.symm.trans h) Bool.false_ne_true

/-- The bits of what is infinite. -/
theorem unpack_of_isInf {x : Float} (h : x.isInf = true) :
    @unpackExponent Format.binary64 x.toBits.toBitVec = -1#_ ∧
      @unpackMantissa Format.binary64 x.toBits.toBitVec = 0#_ := by
  replace h : (UnpackedFloat.unpack Format.binary64 x.toBits.toBitVec).isInf = true := h
  rcases unpack_cases x.toBits.toBitVec with
    ⟨hexponent, hmantissa, -⟩ | ⟨-, -, hinf⟩ | ⟨-, hinf⟩
  · exact ⟨hexponent, hmantissa⟩
  · exact absurd (hinf.symm.trans h) Bool.false_ne_true
  · exact absurd (hinf.symm.trans h) Bool.false_ne_true

/-- Infinity comes after all finite values. -/
theorem magnitude_of_isInf {x : Float} (h : x.isInf = true) :
    x.toBits.toNat % 2 ^ 63 = 2047 * 2 ^ 52 := by
  obtain ⟨hexponent, hmantissa⟩ := unpack_of_isInf h
  have hexponent := congrArg BitVec.toNat hexponent
  have hmantissa := congrArg BitVec.toNat hmantissa
  rw [unpackExponent_toNat] at hexponent
  rw [unpackMantissa_toNat] at hmantissa
  replace hexponent : x.toBits.toNat / 2 ^ 52 % 2 ^ 11 = 2047 := hexponent
  replace hmantissa : x.toBits.toNat % 2 ^ 52 = 0 := hmantissa
  omega

theorem toBits_inj {x y : Float} (h : x.toBits.toNat = y.toBits.toNat) : x = y := by
  obtain ⟨⟨bits, valid⟩⟩ := x
  obtain ⟨⟨bits', valid'⟩⟩ := y
  obtain rfl : bits = bits' := UInt64.toNat_inj.1 h
  rfl

/-- There is one value that is no number. -/
theorem isNaN_unique {x y : Float} (hx : x.isNaN = true) (hy : y.isNaN = true) : x = y := by
  obtain ⟨hexponent, hmantissa⟩ := unpack_of_isNaN hx
  obtain ⟨hexponent', hmantissa'⟩ := unpack_of_isNaN hy
  have hbits : x.toBits.toBitVec = y.toBits.toBitVec :=
    (x.toModel.valid.eq_packedNaN hexponent hmantissa).trans
      (y.toModel.valid.eq_packedNaN hexponent' hmantissa').symm
  exact toBits_inj (congrArg BitVec.toNat hbits)

/-- Without their sign the bits of a value count the values up to it. -/
theorem ofBits_eq_nth (bits : UInt64) : Binary.ofBits bits = Binary.nth (bits.toNat % 2 ^ 63) := by
  have hfield : ((bits >>> 52) &&& 0x7FF).toNat = bits.toNat % 2 ^ 63 / 2 ^ 52 := by
    rw [UInt64.toNat_and, UInt64.toNat_shiftRight, Nat.shiftRight_eq_div_pow]
    have hmask := Nat.and_two_pow_sub_one_eq_mod (bits.toNat / 2 ^ 52) 11
    show bits.toNat / 2 ^ 52 &&& (2 ^ 11 - 1) = _
    rw [hmask]
    omega
  have hfraction : (bits &&& 0xFFFFFFFFFFFFF).toNat = bits.toNat % 2 ^ 63 % 2 ^ 52 := by
    rw [UInt64.toNat_and]
    show bits.toNat &&& (2 ^ 52 - 1) = _
    rw [Nat.and_two_pow_sub_one_eq_mod]
    omega
  unfold Binary.ofBits Binary.nth
  rw [hfield, hfraction]
  rfl

namespace Decimal

/-! ### Texts -/

theorem sign_iff (bits : UInt64) : bits >>> 63 = 1 ↔ bits.toNat / 2 ^ 63 = 1 := by
  rw [← UInt64.toNat_inj, UInt64.toNat_shiftRight, Nat.shiftRight_eq_div_pow]
  exact Iff.rfl

theorem text_of_isNaN {x : Float} (h : x.isNaN = true) : (text x).toList = "NaN".toList := by
  rw [text, if_pos h]

theorem text_of_not_isNaN {x : Float} (h : x.isNaN = false) :
    (text x).toList = sign x ++ body x := by
  rw [text, if_neg (Bool.eq_false_iff.1 h), String.toList_ofList]
  rfl

theorem body_of_isInf {x : Float} (h : x.isInf = true) : body x = "inf".toList := by
  rw [body, if_pos h]

/-- Without its sign a finite value is named by its shortest decimal. -/
theorem body_names {x : Float} (h : x.isInf = false) :
    ∃ whole fraction, Names (body x) whole fraction
      (Binary.nth (x.toBits.toNat % 2 ^ 63)).shortest.value := by
  rw [body, if_neg (Bool.eq_false_iff.1 h), ofBits_eq_nth]
  exact positional_names _

/-- What follows the sign does not begin with one. -/
theorem body_head (x : Float) : ∃ c rest, body x = c :: rest ∧ (c.isDigit = true ∨ c = 'i') := by
  cases hinf : x.isInf with
  | true => exact ⟨'i', ['n', 'f'], body_of_isInf hinf, .inr rfl⟩
  | false =>
    obtain ⟨whole, fraction, hnames⟩ := body_names hinf
    obtain ⟨c, rest, hcs, hdigit⟩ := hnames.head
    exact ⟨c, rest, hcs, .inl hdigit⟩

/-- What follows the sign tells values apart but for their sign. -/
theorem body_inj {x y : Float} (h : body x = body y) :
    x.toBits.toNat % 2 ^ 63 = y.toBits.toNat % 2 ^ 63 := by
  cases hx : x.isInf with
  | true =>
    cases hy : y.isInf with
    | true => rw [magnitude_of_isInf hx, magnitude_of_isInf hy]
    | false =>
      obtain ⟨whole, fraction, hnames⟩ := body_names hy
      obtain ⟨c, rest, hcs, hdigit⟩ := hnames.head
      rw [body_of_isInf hx, hcs] at h
      obtain ⟨rfl, -⟩ := List.cons.inj h
      cases hdigit
  | false =>
    obtain ⟨whole, fraction, hnames⟩ := body_names hx
    cases hy : y.isInf with
    | true =>
      obtain ⟨c, rest, hcs, hdigit⟩ := hnames.head
      rw [body_of_isInf hy, hcs] at h
      obtain ⟨rfl, -⟩ := List.cons.inj h
      cases hdigit
    | false =>
      obtain ⟨whole', fraction', hnames'⟩ := body_names hy
      rw [h] at hnames
      exact Binary.nth_inj (hnames.unique hnames')

/-- The text of a number begins with a sign, a digit, or the first letter of a word. -/
theorem signed_head (x : Float) : ∃ c rest, sign x ++ body x = c :: rest ∧
    (c.isDigit = true ∨ c = 'i' ∨ c = '-') := by
  obtain ⟨c, rest, hbody, hc⟩ := body_head x
  rw [hbody]
  unfold sign
  split
  · exact ⟨'-', c :: rest, rfl, .inr (.inr rfl)⟩
  · exact ⟨c, rest, rfl, hc.imp_right .inl⟩

theorem text_head (x : Float) : ∃ c rest, (text x).toList = c :: rest ∧
    (c.isDigit = true ∨ c = 'i' ∨ c = '-' ∨ c = 'N') := by
  cases hnan : x.isNaN with
  | true => exact ⟨'N', ['a', 'N'], text_of_isNaN hnan, .inr (.inr (.inr rfl))⟩
  | false =>
    obtain ⟨c, rest, hsigned, hc⟩ := signed_head x
    exact ⟨c, rest, (text_of_not_isNaN hnan).trans hsigned, hc.imp_right (·.imp_right .inl)⟩

theorem blank_not_mem_text (x : Float) : ' ' ∉ (text x).toList := by
  cases hnan : x.isNaN with
  | true =>
    rw [text_of_isNaN hnan]
    decide
  | false =>
    rw [text_of_not_isNaN hnan, List.mem_append, not_or]
    constructor
    · unfold sign
      split <;> decide
    · cases hinf : x.isInf with
      | true =>
        rw [body_of_isInf hinf]
        decide
      | false =>
        obtain ⟨whole, fraction, hnames⟩ := body_names hinf
        exact hnames.blank_not_mem

/-- The text of what is no number is that of no other value. -/
theorem signed_ne_NaN (x : Float) : sign x ++ body x ≠ "NaN".toList := by
  intro h
  obtain ⟨c, rest, hsigned, hc⟩ := signed_head x
  rw [hsigned] at h
  obtain ⟨rfl, -⟩ := List.cons.inj h
  rcases hc with hc | hc | hc <;> cases hc

/-- The sign ends where a digit or a word begins. -/
theorem sign_eq (x : Float) : sign x = (sign x ++ body x).takeWhile (· == '-') := by
  obtain ⟨c, rest, hbody, hc⟩ := body_head x
  have hne : (c == '-') = false := by
    rw [beq_eq_false_iff_ne]
    rintro rfl
    rcases hc with hc | hc <;> cases hc
  have hsign : ∀ d ∈ sign x, (d == '-') = true := by
    unfold sign
    split <;> simp
  rw [List.takeWhile_append_of_pos hsign, hbody, List.takeWhile_cons_of_neg (by simp [hne]),
    List.append_nil]

/-- The sign is the first bit. -/
theorem eq_of_sign_of_body {x y : Float} (hsign : sign x = sign y) (hbody : body x = body y) :
    x = y := by
  have hmagnitude := body_inj hbody
  have htop : x.toBits.toNat / 2 ^ 63 = 1 ↔ y.toBits.toNat / 2 ^ 63 = 1 := by
    rw [← sign_iff, ← sign_iff]
    unfold sign at hsign
    split at hsign <;> split at hsign <;> simp_all
  have hx := x.toBits.toNat_lt
  have hy := y.toBits.toNat_lt
  exact toBits_inj (by omega)

end Decimal

/-! ## Top theorem -/

/-- Values of one text are one value. -/
theorem Decimal.text_inj {x y : Float} (h : text x = text y) : x = y := by
  have hlist := congrArg String.toList h
  cases hx : x.isNaN with
  | true =>
    rw [text_of_isNaN hx] at hlist
    cases hy : y.isNaN with
    | true => exact isNaN_unique hx hy
    | false => exact absurd (hlist.trans (text_of_not_isNaN hy)).symm (signed_ne_NaN y)
  | false =>
    rw [text_of_not_isNaN hx] at hlist
    cases hy : y.isNaN with
    | true => exact absurd (hlist.trans (text_of_isNaN hy)) (signed_ne_NaN x)
    | false =>
      rw [text_of_not_isNaN hy] at hlist
      have hsign : sign x = sign y := by rw [sign_eq x, hlist, ← sign_eq y]
      rw [hsign] at hlist
      exact eq_of_sign_of_body hsign (List.append_cancel_left hlist)

end Tabula.Number
