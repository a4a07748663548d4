import Tabula.Literal
import Tabula.Proofs.Dates
import Tabula.Proofs.Layout
import Tabula.Proofs.Quotation

/-!
# Literals shown in messages

A string is shown between quotes with its characters as they are: a quote in it is not written
twice, as it is in a statement.

* `Text.doubled_eq_self_iff`: writing quotes twice changes a text just if it has one.
* `Token.scan_quoted`, `Token.scan_between_quotes`: what stands between two quotes is one token just
  if its quotes stand in pairs.
* `Literal.text_read_back`: which strings are read back as they were shown.
-/

namespace Tabula

open Text

/-! ## Lemmas -/

theorem Text.doubled_eq_self_iff (quote : Char) (cs : List Char) :
    doubled quote cs = cs ↔ quote ∉ cs := by
  constructor
  · intro hsame hmem
    have hcount := count_doubled quote quote cs
    rw [hsame, if_pos rfl] at hcount
    have := List.count_pos_iff.2 hmem
    omega
  · intro hmem
    induction cs with
    | nil => rfl
    | cons c rest ih =>
      rw [List.mem_cons, not_or] at hmem
      rw [doubled_cons, if_neg (Ne.symm hmem.1), ih hmem.2]

namespace Token

/-- A text between quotes, with every quote in it written twice, is one token. -/
theorem scan_quoted (s : String) : scan (quoted '\x27' s) = .ok [⟨.string, s, 0⟩] := by
  have hfinds : Lexeme.Finds (Lexeme.first? ((quoted '\x27' s).toList ++ [])) .string s.toList
      (quoted '\x27' s).toList.length := by
    rw [List.append_nil]
    exact finds_quoted s
  have hscan := scanFrom_of_finds hfinds 0
  rw [List.append_nil, scanFrom, ok_bind, String.ofList_toList] at hscan
  exact hscan

/-- Two quotes with a text between them are one token only if the quotes of the text stand in
pairs. -/
theorem scan_between_quotes {cs : List Char} {t : Token}
    (h : scanFrom 0 ('\x27' :: (cs ++ ['\x27'])) = .ok [t]) :
    ∃ u : String, cs = doubled '\x27' u.toList ∧ t = ⟨.string, u, 0⟩ := by
  obtain ⟨l, hfirst, rfl, hrest⟩ := scanFrom_cons h
  have hquote : ('\x27', TokenKind.string) ∈ Lexeme.quotes := by decide
  rw [Lexeme.first?_quote hquote, Lexeme.quoted?, if_pos rfl] at hfirst
  obtain ⟨⟨text, n⟩, hfound, rfl⟩ := Option.map_eq_some_iff.1 hfirst
  obtain ⟨rest, hsplit, rfl, -⟩ := Lexeme.quotedText?_eq_some.1 hfound
  -- the token reaches the end of the text
  have hend := congrArg List.length (scanFrom_eq_nil hrest)
  have hlength := congrArg List.length hsplit
  simp only [List.length_drop, List.length_cons, List.length_append, List.length_nil] at hend hlength
  obtain rfl : rest = [] := List.eq_nil_of_length_eq_zero (by omega)
  refine ⟨String.ofList text, ?_, rfl⟩
  rw [String.toList_ofList]
  exact List.append_inj_left' hsplit rfl

end Token

/-! ## Top theorem -/

/-- A string is shown as one token just if its quotes stand in pairs, and each pair is read as one
quote; so it is read back as it was just if it has no quote.  With every quote written twice, as in
a statement, every string is read back. -/
theorem Literal.text_read_back (s : String) :
    (∀ t, Token.scan (text ⟨.string, s⟩) = .ok [t] ↔
      ∃ u : String, s.toList = doubled '\x27' u.toList ∧ t = ⟨.string, u, 0⟩) ∧
    (Token.scan (text ⟨.string, s⟩) = .ok [⟨.string, s, 0⟩] ↔ '\x27' ∉ s.toList) ∧
    Token.scan (quoted '\x27' s) = .ok [⟨.string, s, 0⟩] := by
  have hshown : (text ⟨.string, s⟩).toList = '\x27' :: (s.toList ++ ['\x27']) := by
    simp [text]
  have hone : ∀ t, Token.scan (text ⟨.string, s⟩) = .ok [t] ↔
      ∃ u : String, s.toList = doubled '\x27' u.toList ∧ t = ⟨.string, u, 0⟩ := by
    intro t
    constructor
    · intro h
      rw [Token.scan, hshown] at h
      exact Token.scan_between_quotes h
    · rintro ⟨u, hu, rfl⟩
      have hsame : text ⟨.string, s⟩ = quoted '\x27' u := by
        rw [← String.toList_inj, hshown, Piece.quoted_toList, hu]
      rw [hsame, Token.scan_quoted]
  refine ⟨hone, ?_, Token.scan_quoted s⟩
  rw [hone, ← doubled_eq_self_iff]
  constructor
  · rintro ⟨u, hu, ht⟩
    obtain rfl : s = u := congrArg Token.lexeme ht
    exact hu.symm
  · intro h
    exact ⟨s, h.symm, rfl⟩

/-- A string with a quote in it is not read back. -/
theorem Literal.text_not_read_back :
    ¬∀ s : String, Token.scan (text ⟨.string, s⟩) = .ok [⟨.string, s, 0⟩] := by
  intro hback
  have hstuck : Token.scan (text ⟨.string, "it's"⟩) = .error (.unlexable 5 "'") := by
    decide +kernel
  have hread := hback "it's"
  rw [hstuck] at hread
  cases hread

end Tabula
