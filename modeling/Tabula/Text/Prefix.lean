/-!
# Beginnings of texts

What is left of a text after another text that it begins with.
-/

namespace Tabula.Text

/-- The rest of a text after another text that it begins with. -/
def rest? (start text : String) : Option String :=
  if start.toList.isPrefixOf text.toList then
    some (String.ofList (text.toList.drop start.toList.length))
  else none

/-! ## Lemmas -/

/-- A text begins with another one and goes on with the rest. -/
theorem rest?_eq_some {start text rest : String} :
    rest? start text = some rest ↔ text = start ++ rest := by
  unfold rest?
  rw [← String.toList_inj, String.toList_append]
  split
  · next hprefix =>
    obtain ⟨tail, htail⟩ := List.isPrefixOf_iff_prefix.1 hprefix
    rw [← htail, List.drop_left, Option.some.injEq, List.append_cancel_left_eq,
      ← String.toList_inj, String.toList_ofList]
  · next hprefix =>
    refine ⟨fun h => (by cases h), fun h => absurd ?_ hprefix⟩
    exact List.isPrefixOf_iff_prefix.2 ⟨rest.toList, h.symm⟩

end Tabula.Text
