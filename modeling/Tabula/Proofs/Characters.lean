import Tabula.Text.Blank
import Tabula.Text.Letter

/-!
# Sorts of characters

How the sorts of characters that the lexer asks for lie to each other on ASCII: digits and letters
are no blanks and belong to words, and lower case moves capital letters only.
-/

namespace Tabula.Text

/-! ## Lower case -/

/-- The lower case of a character of ASCII: a capital letter is moved, everything else stays. -/
theorem toLower_cases (c : Char) :
    c.toLower = c ∨ (65 ≤ c.toNat ∧ c.toNat ≤ 90) ∧ c.toLower.toNat = c.toNat + 32 := by
  by_cases h : c.val ≥ 'A'.val ∧ c.val ≤ 'Z'.val
  · have h1 : 65 ≤ c.toNat := UInt32.le_iff_toNat_le.1 h.1
    have h2 : c.toNat ≤ 90 := UInt32.le_iff_toNat_le.1 h.2
    refine .inr ⟨⟨h1, h2⟩, ?_⟩
    unfold Char.toLower
    rw [dif_pos h]
    show (c.val + 32).toNat = c.val.toNat + 32
    have h3 : c.val.toNat ≤ 90 := h2
    rw [UInt32.toNat_add]
    show (c.val.toNat + 32) % 4294967296 = c.val.toNat + 32
    omega
  · left
    unfold Char.toLower
    rw [dif_neg h]

theorem eq_of_toLower {c d : Char} (hd : d.toNat < 97) (h : c.toLower = d) : c = d := by
  rcases toLower_cases c with heq | ⟨⟨hlow, -⟩, hnat⟩
  · rw [← heq, h]
  · rw [h] at hnat
    omega

theorem isAlpha_of_toLower {c d : Char} (hd : d.isLower = true) (h : c.toLower = d) :
    c.isAlpha = true := by
  rcases toLower_cases c with heq | ⟨⟨hlow, hhigh⟩, -⟩
  · rw [← heq, h]
    unfold Char.isAlpha
    rw [hd, Bool.or_true]
  · unfold Char.isAlpha Char.isUpper
    simp only [Bool.or_eq_true, decide_eq_true_eq]
    exact .inl ⟨UInt32.le_iff_toNat_le.2 hlow, UInt32.le_iff_toNat_le.2 hhigh⟩

/-! ## Digits, letters and blanks -/

theorem isWordChar_of_isDigit {c : Char} (h : c.isDigit = true) : isWordChar c = true := by
  rw [isWordChar, isNumeral_of_isDigit h, Bool.or_true, Bool.true_or]

theorem isBlank_of_ascii {c : Char} (hlow : 32 < c.toNat) (hhigh : c.toNat < 128) :
    isBlank c = false := by
  simp [isBlank, inRanges, blankRanges]
  omega

/-- No word goes on with a blank. -/
theorem isWordChar_of_isBlank {c : Char} (h : isBlank c = true) : isWordChar c = false := by
  have hall : ([0x09, 0x0A, 0x0B, 0x0C, 0x0D, 0x20, 0x85, 0xA0, 0x1680, 0x2000, 0x2001, 0x2002,
      0x2003, 0x2004, 0x2005, 0x2006, 0x2007, 0x2008, 0x2009, 0x200A, 0x2028, 0x2029, 0x202F,
      0x205F, 0x3000].all fun n => !isWordChar (Char.ofNat n)) = true := by
    decide +kernel
  have hblank := List.all_eq_true.1 hall c.toNat (by
    simp [isBlank, inRanges, blankRanges] at h
    simp only [List.mem_cons, List.not_mem_nil, or_false]
    omega)
  simpa using hblank

theorem isDigit_bounds {c : Char} (h : c.isDigit = true) : 48 ≤ c.toNat ∧ c.toNat ≤ 57 := by
  simp only [Char.isDigit, Bool.and_eq_true, decide_eq_true_eq] at h
  exact ⟨UInt32.le_iff_toNat_le.1 h.1, UInt32.le_iff_toNat_le.1 h.2⟩

/-- A digit has no other lower case. -/
theorem toLower_of_isDigit {c : Char} (h : c.isDigit = true) : c.toLower = c := by
  have hbounds := isDigit_bounds h
  rcases toLower_cases c with heq | ⟨⟨hupper, -⟩, -⟩
  · exact heq
  · omega

theorem isAlpha_bounds {c : Char} (h : c.isAlpha = true) : 65 ≤ c.toNat ∧ c.toNat ≤ 122 := by
  unfold Char.isAlpha Char.isUpper Char.isLower at h
  simp only [Bool.or_eq_true, Bool.and_eq_true, decide_eq_true_eq] at h
  rcases h with h | h
  · have h65 : 65 ≤ c.toNat := UInt32.le_iff_toNat_le.1 h.1
    have h90 : c.toNat ≤ 90 := UInt32.le_iff_toNat_le.1 h.2
    omega
  · have h97 : 97 ≤ c.toNat := UInt32.le_iff_toNat_le.1 h.1
    have h122 : c.toNat ≤ 122 := UInt32.le_iff_toNat_le.1 h.2
    omega

theorem isLetter_of_isAlpha {c : Char} (h : c.isAlpha = true) : isLetter c = true := by
  rw [isLetter, if_pos (by have := isAlpha_bounds h; omega), h]

theorem isWordStart_of_isLetter {c : Char} (h : isLetter c = true) : isWordStart c = true := by
  rw [isWordStart, h, Bool.true_or, Bool.true_or]

theorem isWordStart_of_toLower {c d : Char} (hd : d.isLower = true) (h : c.toLower = d) :
    isWordStart c = true :=
  isWordStart_of_isLetter (isLetter_of_isAlpha (isAlpha_of_toLower hd h))

end Tabula.Text
