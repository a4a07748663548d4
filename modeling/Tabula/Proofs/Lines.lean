import Tabula.Proofs.Layout

/-!
# Texts in two at the end of a line

A text that is lexed may be cut at the end of a line, in the middle of a token or between two.

* `Lexeme.first?_line`: the first token of a text ends in its first line, whatever comes after that
  line, or goes on behind it.
* `Token.words?_newline`: a text that ends its line and is lexed alone is lexed alike before any
  other text.
* `Token.scanFrom_across`: if it is not lexed alone, a token goes on behind it.
* `Statement.parse_parted`: where a statement may end between two texts, both together are read as
  the one and then the other.
-/

namespace Tabula

open Text

/-! ## Algorithm -/

/-- What is said before and after a place where a statement may end: at a semicolon, or where nothing
else is said. -/
def Token.Parted (before after : List (TokenKind × String)) : Prop :=
  (∀ w ∈ before.getLast?, w.1 = .semicolon) ∨ ∀ w ∈ after.head?, w.1 = .semicolon

/-- Two texts that say together what each says alone. -/
structure Token.Said (a b : String) (before after : List (TokenKind × String)) : Prop where
  left : words? a.toList = some before
  right : words? b.toList = some after
  whole : words? (a ++ b).toList = some (before ++ after)

/-- A token that is no space goes on at a place of a text. -/
def Token.Across (text : String) (n : Nat) : Prop :=
  ∃ before t after, scan text = .ok (before ++ t :: after) ∧ t.kind ≠ .space ∧ t.position < n ∧
    n < start after text.length

/-- The statements that are said. -/
def Statement.ofWords? (words : List (TokenKind × String)) : Option (List Statement) :=
  (ofTokens (words.map fun w => ⟨w.1, w.2, 0⟩)).toOption

/-! ## Lemmas -/

/-! ### One line -/

namespace Lexeme

variable {a b : List Char} {l : Lexeme}

/-- A token that begins like none of blanks, quotes and dollars is found in its line alone. -/
theorem first?_bare (h : first? (a ++ '\n' :: b) = some l) (hkind : l.kind ≠ .space)
    (hbare : Bare (a ++ '\n' :: b)) : first? a = some l := by
  have hcloses : Closes a ('\n' :: b) := .of_blank (by decide) a b
  obtain ⟨c, rest, hcs, hblank, hmarks⟩ := hbare
  obtain ⟨cs, rfl⟩ : ∃ cs, a = c :: cs := by
    cases a with
    | nil =>
      obtain ⟨rfl, -⟩ := List.cons.inj hcs
      cases hblank
    | cons d cs => exact ⟨cs, congrArg (· :: cs) (List.cons.inj hcs).1⟩
  have ha : c :: cs ≠ [] := List.cons_ne_nil c cs
  have hnumber := number?_append ha hcloses.apart
  rw [List.cons_append] at h hnumber
  rcases sort_cases c with hc | rfl | hmark | ⟨kind, hquote⟩ | rfl | hordinary
  · rw [hblank] at hc
    cases hc
  · rw [first?_hyphen] at h ⊢
    have hnone : comment? ('-' :: (cs ++ '\n' :: b)) = none := by
      cases hcomment : comment? ('-' :: (cs ++ '\n' :: b)) with
      | none => rfl
      | some l' =>
        rw [hcomment, Option.some_or] at h
        exact absurd ((Option.some.inj h) ▸ (comment?_eq_some hcomment).1) hkind
    have hnone' : comment? ('-' :: cs) = none := by
      refine comment?_eq_none.2 fun hhead => comment?_eq_none.1 hnone ?_
      rw [List.head?_append, hhead]
      rfl
    rw [hnone, Option.none_or, hnumber] at h
    rw [hnone', Option.none_or, h]
  · rw [first?_mark hmark] at h ⊢
    rw [← h, ← List.cons_append, mark?_append ha hcloses.apart]
  · simp only [quotes, List.mem_cons, List.not_mem_nil, or_false, Prod.mk.injEq] at hquote hmarks
    rcases hquote with ⟨rfl, -⟩ | ⟨rfl, -⟩ | ⟨rfl, -⟩ <;> simp at hmarks
  · simp at hmarks
  · have hword := word?_append ha hcloses.apart
    have hnow := now?_append_of_closes hcloses
    have hdate := date?_append_of_closes hcloses
    rw [List.cons_append] at hword hnow hdate
    rw [first?_ordinary hordinary] at h ⊢
    rw [← hnow, ← hdate, ← hnumber, ← hword, h]

/-- No token but a space ends with a line break. -/
theorem first?_width_ne (h : first? (a ++ '\n' :: b) = some l) (hkind : l.kind ≠ .space) :
    l.width ≠ a.length + 1 := by
  intro hwidth
  have hcovers := (first?_exact h).covers
  have hslice : (a ++ '\n' :: b).take l.width = a ++ ['\n'] := by
    rw [hwidth, List.take_append, List.take_of_length_le (Nat.le_succ _), Nat.add_sub_cancel_left]
    rfl
  have hlast : ∀ w c, a ++ ['\n'] = w ++ [c] → c = '\n' := fun w c hcs =>
    (List.singleton_inj.1 (List.append_inj_right' hcs rfl)).symm
  rw [hslice] at hcovers
  generalize hcs : a ++ ['\n'] = cs at hcovers
  generalize hkind' : l.kind = kind at hcovers
  generalize l.text = text at hcovers
  cases hcovers with
  | blanks => exact hkind hkind'
  | comment => exact hkind hkind'
  | quoted hquote =>
    obtain rfl := hlast _ _ hcs
    simp [quotes] at hquote
  | dollar =>
    exact absurd (hlast ('$' :: '$' :: text ++ ['$']) '$' (by simpa using hcs)) (by decide)
  | plain _ hbare =>
    obtain ⟨c, rest, hcs', hc⟩ := hbare
    have hwhole : Bare (a ++ '\n' :: b) := ⟨c, rest ++ b, by
      rw [List.append_cons, hcs, hcs', List.cons_append], hc⟩
    have hfits := (first?_exact (first?_bare h hkind hwhole)).fits
    omega

/-- A space that reaches the end of its line leaves nothing else there. -/
theorem first?_filler (h : first? (a ++ '\n' :: b) = some l) (hkind : l.kind = .space)
    (hlong : a.length ≤ l.width) : Filler (a ++ ['\n']) := by
  have hslice : (a ++ '\n' :: b).take l.width = a ++ ('\n' :: b).take (l.width - a.length) := by
    rw [List.take_append, List.take_of_length_le hlong]
  have hcovers := (first?_exact h).covers
  rw [hkind, hslice] at hcovers
  rcases hcovers.space with ⟨-, hblank⟩ | ⟨line, hline, hcomment⟩
  · refine .of_blanks fun c hc => ?_
    rcases List.mem_append.1 hc with hc | hc
    · exact hblank c (List.mem_append_left _ hc)
    · obtain rfl := List.mem_singleton.1 hc
      decide
  · -- the comment ends before the line break
    cases hreach : l.width - a.length with
    | zero =>
      rw [hreach, List.take_zero, List.append_nil] at hcomment
      rw [hcomment]
      exact .comment hline .nil
    | succ n =>
      exfalso
      have hinside : '\n' ∈ '-' :: '-' :: line := by
        rw [← hcomment, hreach, List.take_succ_cons]
        simp
      simp [hline] at hinside

/-- A line begins with a space up to its end, or with a token that goes on in the next line, or with
a token that is found there whatever the next line is. -/
theorem first?_line (h : first? (a ++ '\n' :: b) = some l) :
    Filler (a ++ ['\n']) ∨ (l.kind ≠ .space ∧ a.length + 1 < l.width) ∨
      (l.width ≤ a.length ∧ ∀ b', first? (a ++ '\n' :: b') = some l) := by
  by_cases hlong : l.kind = .space ∧ a.length ≤ l.width
  · exact .inl (first?_filler h hlong.1 hlong.2)
  · have hspace : l.kind = .space → l.width < a.length := fun hkind =>
      Nat.lt_of_not_le fun hle => hlong ⟨hkind, hle⟩
    by_cases hle : l.width ≤ a.length
    · have hcut : Closes a ('\n' :: b) := .of_blank (by decide) a b
      have halone := first?_restrict hcut.apart h hle
      exact .inr (.inr ⟨hle, fun b' => first?_append (by decide) (fun h => absurd h (by decide))
        halone hspace b'⟩)
    · have hkind : l.kind ≠ .space := fun hkind => hle (Nat.le_of_lt (hspace hkind))
      have hne := first?_width_ne h hkind
      exact .inr (.inl ⟨hkind, by omega⟩)

end Lexeme

/-! ### A text up to the end of a line -/

namespace Token

theorem words?_nil : words? [] = some [] := by
  rw [words?, scanFrom]
  rfl

theorem words?_of_scan {text : String} {tokens : List Token} (h : scan text = .ok tokens) :
    words? text.toList = some (words tokens) := by
  rw [words?, show scanFrom 0 text.toList = _ from h]
  rfl

/-- Every text that is lexed begins with a token. -/
theorem first?_of_words? {cs : List Char} (hne : cs ≠ []) {said : List (TokenKind × String)}
    (h : words? cs = some said) : ∃ l, Lexeme.first? cs = some l := by
  obtain ⟨c, rest, rfl⟩ := List.exists_cons_of_ne_nil hne
  cases hfirst : Lexeme.first? (c :: rest) with
  | some l => exact ⟨l, rfl⟩
  | none =>
    rw [words?, scanFrom, hfirst] at h
    cases h

/-- What is left of a line behind its first token. -/
theorem words?_line {a b : List Char} {l : Lexeme} (h : Lexeme.first? (a ++ '\n' :: b) = some l)
    (hle : l.width ≤ a.length) :
    words? (a ++ '\n' :: b) = (words? (a.drop l.width ++ '\n' :: b)).map fun others =>
      if l.kind = .space then others else (l.kind, String.ofList l.text) :: others := by
  rw [words?_of_first? h, List.drop_append_of_le_length hle]

/-- A text that ends its line and is lexed alone is lexed alike before any other text. -/
theorem words?_newline (a b : List Char) : ∀ {said : List (TokenKind × String)},
    words? (a ++ ['\n']) = some said →
      words? (a ++ '\n' :: b) = (words? b).map (said ++ ·) := by
  induction hn : a.length using Nat.strongRecOn generalizing a with
  | ind n ih =>
    subst hn
    intro said h
    obtain ⟨l, hfirst⟩ := first?_of_words? (by simp) h
    rcases Lexeme.first?_line hfirst with hfiller | ⟨-, hlong⟩ | ⟨hle, hsame⟩
    · have hnothing := words?_filler hfiller []
      rw [List.append_nil, h, words?_nil] at hnothing
      obtain rfl : said = [] := Option.some.inj hnothing
      rw [List.append_cons, words?_filler hfiller]
      exact Option.map_id'.symm
    · have hfits := (Lexeme.first?_exact hfirst).fits
      rw [List.length_append, List.length_singleton] at hfits
      omega
    · have hshorter : (a.drop l.width).length < a.length := by
        have := l.width_pos
        rw [List.length_drop]
        omega
      rw [words?_line hfirst hle] at h
      obtain ⟨later, hlater, rfl⟩ := Option.map_eq_some_iff.1 h
      rw [words?_line (hsame b) hle, ih _ hshorter _ rfl hlater, Option.map_map]
      refine congrArg (Option.map · _) (funext fun others => ?_)
      rw [Function.comp_apply]
      split <;> rfl

/-- Where a line is not lexed that a text begins with, a token goes on behind it. -/
theorem scanFrom_across (a b : List Char) : ∀ {position : Nat} {tokens : List Token},
    scanFrom position (a ++ '\n' :: b) = .ok tokens → words? (a ++ ['\n']) = none →
      ∃ before t after, tokens = before ++ t :: after ∧ t.kind ≠ .space ∧
        t.position < position + a.length + 1 ∧
        position + a.length + 1 < start after (position + (a ++ '\n' :: b).length) := by
  induction hn : a.length using Nat.strongRecOn generalizing a with
  | ind n ih =>
    subst hn
    intro position tokens hscan hnone
    have hsaid : words? (a ++ '\n' :: b) = some (words tokens) := by
      rw [← words?_at position, hscan]
      rfl
    obtain ⟨l, hfirst⟩ := first?_of_words? (by simp) hsaid
    have hexact := Lexeme.first?_exact hfirst
    rw [scanFrom_of_first? hfirst] at hscan
    obtain ⟨others, hothers, heq⟩ := bind_eq_ok.1 hscan
    obtain rfl := Except.ok.inj heq
    rcases Lexeme.first?_line hfirst with hfiller | ⟨hkind, hlong⟩ | ⟨hle, hsame⟩
    · have hnothing := words?_filler hfiller []
      rw [List.append_nil, hnone, words?_nil] at hnothing
      cases hnothing
    · have hstart := start_of_scanFrom hothers
      have hlen : position + l.width + ((a ++ '\n' :: b).drop l.width).length =
          position + (a ++ '\n' :: b).length := by
        have := hexact.fits
        rw [List.length_drop]
        omega
      rw [hlen] at hstart
      refine ⟨[], _, others, rfl, hkind, ?_, ?_⟩
      · show position < position + a.length + 1
        omega
      · rw [hstart]
        omega
    · have hshorter : (a.drop l.width).length < a.length := by
        have := l.width_pos
        rw [List.length_drop]
        omega
      have hlater : words? (a.drop l.width ++ ['\n']) = none := by
        rw [words?_line (hsame []) hle] at hnone
        exact Option.map_eq_none_iff.1 hnone
      rw [List.drop_append_of_le_length hle] at hothers
      obtain ⟨before, t, after, rfl, hkind, hbegins, hends⟩ := ih _ hshorter _ rfl hothers hlater
      have hlen : (a.drop l.width).length = a.length - l.width := List.length_drop
      refine ⟨_ :: before, t, after, rfl, hkind, ?_, ?_⟩
      · omega
      · have htotal : position + l.width + (a.drop l.width ++ '\n' :: b).length =
            position + (a ++ '\n' :: b).length := by
          rw [List.length_append, List.length_append]
          omega
        rw [htotal] at hends
        omega

end Token

/-! ### Where statements end -/

namespace Statement

theorem ofWords?_nil : ofWords? [] = some [] := by
  rw [ofWords?, List.map_nil, ofTokens_toOption, Reader.many]
  rfl

/-- What a text is read as depends on what it says. -/
theorem parse_words (text : String) :
    (parse text).toOption = (Token.words? text.toList).bind ofWords? := by
  have hwords (tokens : List Token) : (Token.withoutSpaces tokens).map (Token.moved fun _ => 0) =
      (Token.words tokens).map fun w => ⟨w.1, w.2, 0⟩ := by
    rw [Token.words, List.map_map]
    rfl
  rw [Token.words?]
  show ((Token.scanFrom 0 text.toList) >>= fun tokens =>
    ofTokens (Token.withoutSpaces tokens)).toOption = _
  cases Token.scanFrom 0 text.toList with
  | error fault => rfl
  | ok tokens =>
    show (ofTokens (Token.withoutSpaces tokens)).toOption = ofWords? (Token.words tokens)
    rw [ofWords?, ← hwords, ofTokens_moved]

/-- What is said around a semicolon is read apart. -/
theorem ofWords?_divided (before after : List (TokenKind × String)) {w : TokenKind × String}
    (hw : w.1 = .semicolon) :
    ofWords? (before ++ w :: after) =
      (ofWords? before).bind fun a => (ofWords? after).map (a ++ ·) := by
  have hkind : (⟨w.1, w.2, 0⟩ : Token).kind = .semicolon := hw
  have hdivided := ofTokens_divided (before.map fun w => ⟨w.1, w.2, 0⟩) hkind id
    (after.map fun w => ⟨w.1, w.2, 0⟩)
  rw [show Token.moved id = id from rfl, List.map_id] at hdivided
  rw [ofWords?, List.map_append, List.map_cons]
  exact hdivided

/-- What is said before and after the end of a statement is read apart. -/
theorem ofWords?_parted {before after : List (TokenKind × String)}
    (h : Token.Parted before after) :
    ofWords? (before ++ after) =
      (ofWords? before).bind fun a => (ofWords? after).map (a ++ ·) := by
  rcases h with hbefore | hafter
  · rcases List.eq_nil_or_concat before with rfl | ⟨front, w, rfl⟩
    · rw [ofWords?_nil]
      exact Option.map_id'.symm
    · rw [List.concat_eq_append] at hbefore ⊢
      have hw : w.1 = .semicolon := hbefore w (by simp)
      rw [List.append_assoc, List.singleton_append, ofWords?_divided _ _ hw,
        ofWords?_divided _ _ hw, ofWords?_nil]
      simp
  · cases after with
    | nil =>
      rw [List.append_nil, ofWords?_nil]
      simp
    | cons w rest =>
      have hw : w.1 = .semicolon := hafter w rfl
      have halone := ofWords?_divided [] rest hw
      rw [List.nil_append, ofWords?_nil] at halone
      rw [ofWords?_divided _ _ hw, halone]
      simp

/-- Where a statement may end between two texts, both together are read as the one and then the
other. -/
theorem parse_parted {a b : String} {before after : List (TokenKind × String)}
    (hsaid : Token.Said a b before after) (hparted : Token.Parted before after)
    {statements : List Statement} (hread : parse (a ++ b) = .ok statements) :
    ∃ x y, parse a = .ok x ∧ parse b = .ok y ∧ statements = x ++ y := by
  have hboth : (parse (a ++ b)).toOption =
      (parse a).toOption.bind fun x => (parse b).toOption.map (x ++ ·) := by
    rw [parse_words, parse_words, parse_words, hsaid.left, hsaid.right, hsaid.whole]
    exact ofWords?_parted hparted
  rw [hread] at hboth
  cases hx : parse a with
  | error f =>
    rw [hx] at hboth
    cases hboth
  | ok x =>
    cases hy : parse b with
    | error f =>
      rw [hx, hy] at hboth
      cases hboth
    | ok y =>
      rw [hx, hy] at hboth
      exact ⟨x, y, rfl, rfl, Option.some.inj hboth⟩

end Statement

end Tabula
