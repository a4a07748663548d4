/-!
# Quoted text

A text between two quotes, in which every quote is written twice.
-/

namespace Tabula.Text

/-- The characters with every quote written twice. -/
def doubled (quote : Char) (cs : List Char) : List Char :=
  cs.flatMap fun c => if c = quote then [quote, quote] else [c]

/-- A text between quotes. -/
def quoted (quote : Char) (s : String) : String :=
  String.ofList (quote :: doubled quote s.toList ++ [quote])

/-! ## Lemmas -/

theorem doubled_cons (quote c : Char) (cs : List Char) :
    doubled quote (c :: cs) =
      if c = quote then quote :: quote :: doubled quote cs else c :: doubled quote cs := by
  unfold doubled
  rw [List.flatMap_cons]
  split <;> rfl

/-- A quote is written twice and everything else once. -/
theorem count_doubled (quote x : Char) (cs : List Char) :
    (doubled quote cs).count x = (if x = quote then 2 else 1) * cs.count x := by
  induction cs with
  | nil => simp [doubled]
  | cons c rest ih =>
    rw [doubled_cons]
    by_cases hq : c = quote
    · subst hq
      by_cases hx : x = c
      · subst hx
        simp [ih]
        omega
      · simp [ih, hx, Ne.symm hx]
    · rw [if_neg hq]
      by_cases hx : x = c
      · subst hx
        simp [ih, hq]
      · simp [ih, Ne.symm hx]

end Tabula.Text
