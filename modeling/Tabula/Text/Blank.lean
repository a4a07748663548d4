import Tabula.Text.Ranges

/-!
# Blanks

`isBlank` is the Unicode property White_Space (Unicode 17).  `trim` takes blanks off both ends of a
text, `trimStart` off its beginning.

Main statements: what core calls whitespace is blank (`isBlank_of_isWhitespace`); a trimmed text
begins with no blank (`trimStart_head`).
-/

namespace Tabula.Text

/-- The 25 characters of the property White_Space. -/
def blankRanges : Ranges :=
  [(0x09, 0x0D), (0x20, 0x20), (0x85, 0x85), (0xA0, 0xA0), (0x1680, 0x1680), (0x2000, 0x200A),
   (0x2028, 0x2029), (0x202F, 0x202F), (0x205F, 0x205F), (0x3000, 0x3000)]

/-- White space in the sense of Unicode. -/
def isBlank (c : Char) : Bool :=
  inRanges blankRanges c.toNat

/-- The text without the blanks it begins with. -/
def trimStart (cs : List Char) : List Char :=
  cs.dropWhile isBlank

/-- The text without the blanks it begins and ends with. -/
def trim (cs : List Char) : List Char :=
  (trimStart (trimStart cs).reverse).reverse

/-! ## Lemmas -/

theorem ascending_blankRanges : ascending blankRanges = true := by decide

theorem size_blankRanges : size blankRanges = 25 := by decide

theorem isBlank_of_isWhitespace (c : Char) (h : c.isWhitespace = true) : isBlank c = true := by
  simp [Char.isWhitespace] at h
  rcases h with ((h | h) | h) | h <;> subst h <;> decide

theorem trimStart_head {cs : List Char} {c : Char} (h : (trimStart cs).head? = some c) :
    isBlank c = false := by
  induction cs with
  | nil => simp [trimStart] at h
  | cons d ds ih =>
    unfold trimStart at h
    cases hd : isBlank d with
    | true =>
      rw [List.dropWhile_cons_of_pos (by simpa using hd)] at h
      exact ih h
    | false =>
      rw [List.dropWhile_cons_of_neg (by simp [hd])] at h
      simp only [List.head?_cons, Option.some.injEq] at h
      rw [← h, hd]

end Tabula.Text
