/-!
# Classes of characters as ranges of code points

A class of characters is a list of closed ranges.  `inRanges` is membership, `ascending` says that
the ranges are in order and apart, `size` counts the characters.
-/

namespace Tabula.Text

/-- Closed ranges of code points. -/
abbrev Ranges := List (Nat × Nat)

/-- Whether a code point lies in one of the ranges. -/
def inRanges (rs : Ranges) (n : Nat) : Bool :=
  rs.any fun r => r.1 ≤ n && n ≤ r.2

/-- Ranges in ascending order, none empty and none touching the next. -/
def ascending : Ranges → Bool
  | [] => true
  | [r] => r.1 ≤ r.2
  | r :: s :: t => r.1 ≤ r.2 && r.2 + 1 < s.1 && ascending (s :: t)

/-- The number of code points in the ranges. -/
def size (rs : Ranges) : Nat :=
  rs.foldl (fun n r => n + (r.2 + 1 - r.1)) 0

end Tabula.Text
