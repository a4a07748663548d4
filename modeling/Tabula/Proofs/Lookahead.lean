import Tabula.Proofs.Tokens

/-!
# How far a rule looks

A rule may look at characters beyond its token.  Here a text is cut in two, `a ++ b`, and the
first token of the whole is compared with the first token of `a`.

* `Lexeme.first?_restrict`: a token that lies in `a` is found in `a` alone, if the cut divides
  neither a word nor a number nor a mark (`Apart`).
* `Lexeme.first?_append_of_closes`: what is found in `a` is found in the whole, if `b` goes on with
  no token of `a` (`Closes`) and a space does not reach the cut.
* `Lexeme.first?_append`: so it is if `b` begins with a separator.
-/

namespace Tabula

open Text

/-! ## Runs at a cut -/

section Runs

variable {α : Type} {p : α → Bool} {b : List α}

/-- A run ends before the cut if it does not go on there. -/
theorem takeWhile_append_of_head (hb : ∀ x ∈ b.head?, p x = false) (a : List α) :
    (a ++ b).takeWhile p = a.takeWhile p := by
  have hnil : b.takeWhile p = [] := by
    cases b with
    | nil => rfl
    | cons x rest =>
      exact List.takeWhile_cons_of_neg (by rw [hb x rfl]; exact Bool.false_ne_true)
  rw [List.takeWhile_append, hnil, List.append_nil]
  split
  · next hlen => rw [(List.takeWhile_prefix p).eq_of_length hlen]
  · rfl

theorem dropWhile_append_of_head (hb : ∀ x ∈ b.head?, p x = false) (a : List α) :
    (a ++ b).dropWhile p = a.dropWhile p ++ b := by
  have hall : b.dropWhile p = b := by
    cases b with
    | nil => rfl
    | cons x rest =>
      exact List.dropWhile_cons_of_neg (by rw [hb x rfl]; exact Bool.false_ne_true)
  rw [List.dropWhile_append, hall]
  split
  · next hnil => rw [List.isEmpty_iff.1 hnil, List.nil_append]
  · rfl

theorem takeWhile_append_of_le {a : List α} (h : ((a ++ b).takeWhile p).length ≤ a.length) :
    (a ++ b).takeWhile p = a.takeWhile p := by
  rw [List.takeWhile_append] at h ⊢
  split at h
  · next hlen =>
    rw [List.length_append] at h
    have hnil : b.takeWhile p = [] := List.eq_nil_of_length_eq_zero (by omega)
    rw [if_pos hlen, hnil, List.append_nil, (List.takeWhile_prefix p).eq_of_length hlen]
  · next hlen => rw [if_neg hlen]

theorem takeWhile_append_of_lt {a : List α} (h : (a.takeWhile p).length < a.length)
    (b : List α) : (a ++ b).takeWhile p = a.takeWhile p := by
  rw [List.takeWhile_append, if_neg (by omega)]

/-- What ends before the cut leaves a rest before it. -/
theorem split_of_le {a w rest : List α} (h : a ++ b = w ++ rest) (hlen : w.length ≤ a.length) :
    ∃ y, a = w ++ y ∧ rest = y ++ b := by
  have hprefix : w <+: a := List.prefix_of_prefix_length_le ⟨rest, h.symm⟩ ⟨b, rfl⟩ hlen
  obtain ⟨y, rfl⟩ := hprefix
  rw [List.append_assoc] at h
  exact ⟨y, rfl, (List.append_cancel_left h).symm⟩

end Runs

namespace Lexeme

/-! ## Algorithm -/

/-- A cut that divides neither a number nor a mark nor a word. -/
structure Apart (a b : List Char) : Prop where
  head : ∀ c ∈ b.head?, c.isDigit = false ∧ c ∉ ['.', '=', '>']
  word : startsInWord b = true → ∀ c ∈ a.getLast?, isWordChar c = false

theorem signed_width_pos (sign ds : List Char) : 0 < sign.length + ds.length + 1 :=
  Nat.succ_pos _

/-- What the rule for numbers finds after a sign. -/
def unsigned? (sign rest : List Char) : Option Lexeme :=
  match numeral rest with
  | [] => none
  | d :: ds =>
    if d.isDigit && !startsInWord (rest.drop (ds.length + 1)) then
      some ⟨.number, sign ++ d :: ds, sign.length + ds.length + 1, signed_width_pos sign ds⟩
    else none

/-- Characters that end every token but a space or `NOW(`. -/
def separators : List Char := [' ', '\n', ')']

/-- A cut after which no token goes on: at a blank, at a mark that stands alone or at a comment. -/
structure Closes (a b : List Char) : Prop where
  head : ∀ c ∈ b.head?, isWordChar c = false ∧ c ∉ ['.', '=', '>', '(', '\x27', '"', '\x60']
  /-- The parenthesis that would complete `NOW()`. -/
  paren : b.head? = some ')' → a.getLast? ≠ some '('
  /-- One hyphen would go on in a date, two begin a comment. -/
  hyphen : b.head? = some '-' → b.tail.head? = some '-'

/-! ## Lemmas -/

/-! ### The first character decides -/

/-- Where every other rule fails, the one that is left decides. -/
theorem first?_only {rule : Rule} {cs : List Char} (hrule : rule ∈ rules)
    (hothers : ∀ r ∈ rules, r = rule ∨ r cs = none) : first? cs = rule cs := by
  unfold first?
  cases hl : rule cs with
  | none =>
    refine List.findSome?_eq_none_iff.2 fun r hr => ?_
    rcases hothers r hr with rfl | hnone
    · exact hl
    · exact hnone
  | some l =>
    obtain ⟨l', hl'⟩ := Option.isSome_iff_exists.1
      (List.findSome?_isSome_iff.2 ⟨rule, hrule, by rw [hl]; rfl⟩ :
        (rules.findSome? (· cs)).isSome = true)
    obtain ⟨r, hr, hfound⟩ := List.exists_of_findSome?_eq_some hl'
    rcases hothers r hr with rfl | hnone
    · rw [hl', ← hfound, hl]
    · rw [hnone] at hfound
      cases hfound

theorem first?_blank {c : Char} (h : isBlank c = true) (cs : List Char) :
    first? (c :: cs) = space? (c :: cs) := by
  rw [first?, rules, List.findSome?_cons, space?, if_pos h]

theorem date?_of_not_digit {c : Char} (h : c.isDigit = false) (cs : List Char) :
    date? (c :: cs) = none := by
  have hshape : hasDateShape ((c :: cs).take 10) = false := by
    cases hshape : hasDateShape ((c :: cs).take 10) with
    | false => rfl
    | true =>
      obtain ⟨a, _, _, _, _, _, _, _, htake, hdigits⟩ := hasDateShape_eq hshape
      have ha := hdigits a List.mem_cons_self
      rw [← (List.cons.inj htake).1, h] at ha
      cases ha
  unfold date?
  simp only [hshape, Bool.false_and]
  rfl

theorem first?_hyphen (cs : List Char) :
    first? ('-' :: cs) = (comment? ('-' :: cs)).or (number? ('-' :: cs)) := by
  have hmark : mark? ('-' :: cs) = none := rfl
  have hdate : date? ('-' :: cs) = none := date?_of_not_digit (by decide) cs
  simp only [first?, rules, List.findSome?_cons, List.findSome?_nil, hmark, hdate]
  cases comment? ('-' :: cs) <;> cases number? ('-' :: cs) <;> rfl

/-- The rule for marks finds something at every mark but the exclamation mark. -/
theorem mark?_isSome {c : Char} (h : c ∈ [';', ',', '(', ')', '*', '.', '=', '<', '>'])
    (cs : List Char) : (mark? (c :: cs)).isSome = true := by
  simp only [List.mem_cons, List.not_mem_nil, or_false] at h
  unfold mark?
  split
  case h_5 =>
    next heq =>
    obtain ⟨rfl, rfl⟩ := List.cons.inj heq
    rcases h with rfl | rfl | rfl | rfl | rfl | rfl | rfl | rfl | rfl <;> rfl
  case h_6 heq => cases heq
  all_goals rfl

/-- Only the rule for marks finds something at a mark. -/
theorem first?_mark {c : Char} (h : c ∈ [';', ',', '(', ')', '*', '.', '=', '<', '>', '!'])
    (cs : List Char) : first? (c :: cs) = mark? (c :: cs) := by
  simp only [List.mem_cons, List.not_mem_nil, or_false] at h
  by_cases hc : c = '!'
  · subst hc
    refine first?_only (by simp [rules]) fun r hr => ?_
    simp only [rules, List.mem_cons, List.not_mem_nil, or_false] at hr
    rcases hr with rfl | rfl | rfl | rfl | rfl | rfl | rfl | rfl | rfl | rfl | rfl
    all_goals first
      | exact .inl rfl
      | exact .inr rfl
      | exact .inr (date?_of_not_digit (by decide) cs)
  · -- the rule for marks is tried third, and finds something at every other mark
    have hspace : space? (c :: cs) = none := by
      rcases h with rfl | rfl | rfl | rfl | rfl | rfl | rfl | rfl | rfl | rfl <;> rfl
    have hcomment : comment? (c :: cs) = none := by
      rcases h with rfl | rfl | rfl | rfl | rfl | rfl | rfl | rfl | rfl | rfl <;> rfl
    have hmark : c ∈ [';', ',', '(', ')', '*', '.', '=', '<', '>'] := by
      simpa [hc] using h
    obtain ⟨l, hl⟩ := Option.isSome_iff_exists.1 (mark?_isSome hmark cs)
    simp only [first?, rules, List.findSome?_cons, hspace, hcomment, hl]

/-- The quotes, each with the kind of its tokens. -/
def quotes : List (Char × TokenKind) :=
  [('\x27', .string), ('"', .quotedIdent), ('\x60', .quotedIdent)]

theorem first?_quote {quote : Char} {kind : TokenKind} (h : (quote, kind) ∈ quotes)
    (cs : List Char) : first? (quote :: cs) = quoted? quote kind (quote :: cs) := by
  simp only [quotes, List.mem_cons, List.not_mem_nil, or_false, Prod.mk.injEq] at h
  refine first?_only (by rcases h with ⟨rfl, rfl⟩ | ⟨rfl, rfl⟩ | ⟨rfl, rfl⟩ <;> simp [rules])
    fun r hr => ?_
  simp only [rules, List.mem_cons, List.not_mem_nil, or_false] at hr
  rcases h with ⟨rfl, rfl⟩ | ⟨rfl, rfl⟩ | ⟨rfl, rfl⟩
  all_goals
    rcases hr with rfl | rfl | rfl | rfl | rfl | rfl | rfl | rfl | rfl | rfl | rfl
    all_goals first
      | exact .inl rfl
      | exact .inr rfl
      | exact .inr (date?_of_not_digit (by decide) cs)

theorem first?_dollar (cs : List Char) : first? ('$' :: cs) = dollar? ('$' :: cs) := by
  refine first?_only (by simp [rules]) fun r hr => ?_
  simp only [rules, List.mem_cons, List.not_mem_nil, or_false] at hr
  rcases hr with rfl | rfl | rfl | rfl | rfl | rfl | rfl | rfl | rfl | rfl | rfl
  all_goals first
    | exact .inl rfl
    | exact .inr rfl
    | exact .inr (date?_of_not_digit (by decide) cs)

theorem first?_ordinary {c : Char} (h : Ordinary c) (cs : List Char) :
    first? (c :: cs) = (now? (c :: cs)).or
      ((date? (c :: cs)).or ((number? (c :: cs)).or (word? (c :: cs)))) := by
  have hrules : rules = rules.take 7 ++ [now?, date?, number?, word?] := rfl
  rw [first?, hrules, List.findSome?_append,
    List.findSome?_eq_none_iff.2 (rules_ordinary h cs)]
  simp only [List.findSome?_cons, List.findSome?_nil, Option.none_or]
  cases now? (c :: cs) <;> cases date? (c :: cs) <;> cases number? (c :: cs) <;>
    cases word? (c :: cs) <;> rfl

/-- Every character is of one of six sorts. -/
theorem sort_cases (c : Char) :
    isBlank c = true ∨ c = '-' ∨ c ∈ [';', ',', '(', ')', '*', '.', '=', '<', '>', '!'] ∨
      (∃ kind, (c, kind) ∈ quotes) ∨ c = '$' ∨ Ordinary c := by
  cases hblank : isBlank c with
  | true => exact .inl rfl
  | false =>
    by_cases hmark : c ∈ ['-', ';', ',', '(', ')', '*', '.', '=', '<', '>', '!', '\x27', '"',
      '\x60', '$']
    · refine .inr ?_
      simp only [List.mem_cons, List.not_mem_nil, or_false, quotes, Prod.mk.injEq] at hmark ⊢
      rcases hmark with h | h | h | h | h | h | h | h | h | h | h | h | h | h | h
      all_goals simp [h]
    · exact .inr (.inr (.inr (.inr (.inr ⟨hblank, hmark⟩))))

/-! ### What stands at the cut -/

theorem Apart.of_append {w a b : List Char} (ha : a ≠ []) (h : Apart (w ++ a) b) : Apart a b := by
  refine ⟨h.head, fun hb => ?_⟩
  rw [← List.getLast?_append_of_ne_nil w ha]
  exact h.word hb

/-- Nothing goes on at a separator. -/
theorem Closes.of_separator {a : List Char} {d : Char} (hd : d ∈ separators)
    (hparen : d = ')' → a.getLast? ≠ some '(') (rest : List Char) : Closes a (d :: rest) := by
  simp only [separators, List.mem_cons, List.not_mem_nil, or_false] at hd
  refine ⟨fun c hc => ?_, fun hhead => hparen (Option.some.inj hhead), fun hhead => ?_⟩
  · obtain rfl := Option.some.inj hc
    rcases hd with rfl | rfl | rfl <;> decide
  · obtain rfl := Option.some.inj hhead
    simp at hd

/-- Where no token goes on, the cut divides none. -/
theorem Closes.apart {a b : List Char} (h : Closes a b) : Apart a b := by
  refine ⟨fun c hc => ⟨?_, fun hmark => (h.head c hc).2 ?_⟩, fun hword => ?_⟩
  · cases hdigit : c.isDigit with
    | false => rfl
    | true =>
      rw [← (h.head c hc).1, isWordChar_of_isDigit hdigit]
  · simp only [List.mem_cons, List.not_mem_nil, or_false] at hmark ⊢
    rcases hmark with h | h | h <;> simp [h]
  · cases b with
    | nil => cases hword
    | cons d rest =>
      rw [startsInWord, (h.head d rfl).1] at hword
      cases hword

/-- After characters of a word, a word goes on beyond the cut only if it does before it. -/
theorem Apart.startsInWord_append {x y b : List Char} {c : Char}
    (h : Apart (x ++ c :: y) b) (hc : isWordChar c = true) :
    startsInWord (y ++ b) = startsInWord y := by
  cases y with
  | cons d y => rfl
  | nil =>
    cases hb : startsInWord b with
    | false => rw [List.nil_append, hb]; rfl
    | true =>
      have hlast := h.word hb c (by rw [List.getLast?_append_of_ne_nil x (by simp)]; rfl)
      rw [hc] at hlast
      cases hlast

/-! ### Numbers, dates and words -/

theorem numeral_of_point {cs rest : List Char} {d : Char}
    (h : cs.dropWhile Char.isDigit = '.' :: d :: rest) (hd : d.isDigit = true) :
    numeral cs = cs.takeWhile Char.isDigit ++ '.' :: (d :: rest).takeWhile Char.isDigit := by
  simp only [numeral, h]
  rw [if_pos hd]

theorem numeral_of_no_point {cs : List Char}
    (h : ∀ d rest, cs.dropWhile Char.isDigit = '.' :: d :: rest → d.isDigit = false) :
    numeral cs = cs.takeWhile Char.isDigit := by
  unfold numeral
  dsimp only
  split
  · next d rest heq => rw [if_neg (by rw [h d rest heq]; exact Bool.false_ne_true)]
  · rfl

theorem numeral_cases (cs : List Char) :
    (∃ d rest, cs.dropWhile Char.isDigit = '.' :: d :: rest ∧ d.isDigit = true) ∨
      ∀ d rest, cs.dropWhile Char.isDigit = '.' :: d :: rest → d.isDigit = false := by
  by_cases h : ∃ d rest, cs.dropWhile Char.isDigit = '.' :: d :: rest ∧ d.isDigit = true
  · exact .inl h
  · refine .inr fun d rest heq => ?_
    cases hd : d.isDigit with
    | false => rfl
    | true => exact absurd ⟨d, rest, heq, hd⟩ h

/-- A numeral ends before the cut. -/
theorem numeral_append {b : List Char} (hb : ∀ c ∈ b.head?, c.isDigit = false ∧ c ≠ '.')
    (a : List Char) : numeral (a ++ b) = numeral a := by
  have hdigit : ∀ c ∈ b.head?, c.isDigit = false := fun c hc => (hb c hc).1
  have hdrop := dropWhile_append_of_head hdigit a
  rcases numeral_cases a with ⟨d, rest, heq, hd⟩ | hno
  · rw [heq] at hdrop
    have hfraction := takeWhile_append_of_head hdigit (d :: rest)
    rw [numeral_of_point heq hd, numeral_of_point hdrop hd, takeWhile_append_of_head hdigit]
    exact congrArg (a.takeWhile Char.isDigit ++ '.' :: ·) hfraction
  · rw [numeral_of_no_point hno, numeral_of_no_point, takeWhile_append_of_head hdigit]
    intro d rest heq
    rw [hdrop, List.append_eq_cons_iff] at heq
    rcases heq with ⟨-, heq⟩ | ⟨tail, heq, htail⟩
    · exact absurd rfl (hb '.' (by rw [heq]; rfl)).2
    · cases tail with
      | nil => exact hdigit d (by rw [List.nil_append] at htail; rw [← htail]; rfl)
      | cons e tail =>
        obtain ⟨rfl, -⟩ := List.cons.inj htail
        exact hno d tail heq

/-- A row of digits ends with a digit. -/
theorem takeWhile_isDigit_last {cs : List Char} (h : cs.takeWhile Char.isDigit ≠ []) :
    ∃ before last, cs.takeWhile Char.isDigit = before ++ [last] ∧ last.isDigit = true :=
  ⟨_, _, (List.dropLast_concat_getLast h).symm, List.mem_takeWhile_imp (List.getLast_mem h)⟩

/-- A numeral that is not empty ends with a digit. -/
theorem numeral_last {cs : List Char} (h : numeral cs ≠ []) :
    ∃ before last, numeral cs = before ++ [last] ∧ last.isDigit = true := by
  rcases numeral_cases cs with ⟨d, rest, heq, hd⟩ | hno
  · have hne : (d :: rest).takeWhile Char.isDigit ≠ [] := by
      rw [List.takeWhile_cons_of_pos hd]
      exact List.cons_ne_nil _ _
    obtain ⟨before, last, hfraction, hlast⟩ := takeWhile_isDigit_last hne
    refine ⟨cs.takeWhile Char.isDigit ++ '.' :: before, last, ?_, hlast⟩
    rw [numeral_of_point heq hd, hfraction, List.append_assoc, List.cons_append]
  · rw [numeral_of_no_point hno] at h ⊢
    exact takeWhile_isDigit_last h

/-- A text begins with its numeral. -/
theorem numeral_begins (cs : List Char) : numeral cs <+: cs := by
  have hwhole : cs.takeWhile Char.isDigit ++ cs.dropWhile Char.isDigit = cs :=
    List.takeWhile_append_dropWhile
  rcases numeral_cases cs with ⟨d, rest, heq, hd⟩ | hno
  · rw [numeral_of_point heq hd]
    rw [heq] at hwhole
    conv => rhs; rw [← hwhole]
    rw [List.prefix_append_right_inj, List.cons_prefix_cons]
    exact ⟨rfl, List.takeWhile_prefix _⟩
  · rw [numeral_of_no_point hno]
    exact List.takeWhile_prefix _

theorem number?_signed (rest : List Char) : number? ('-' :: rest) = unsigned? ['-'] rest := rfl

theorem number?_unsigned {cs : List Char} (h : cs.head? ≠ some '-') :
    number? cs = unsigned? [] cs := by
  unfold number?
  split
  next sign rest heq =>
  split at heq
  · exact absurd rfl h
  · obtain ⟨rfl, rfl⟩ := Prod.mk.inj heq
    rfl

theorem unsigned?_append (sign : List Char) {rest b : List Char} (h : Apart rest b) :
    unsigned? sign (rest ++ b) = unsigned? sign rest := by
  have hnumeral := numeral_append (fun c hc => ⟨(h.head c hc).1, fun hpoint =>
    (h.head c hc).2 (by simp [hpoint])⟩) rest
  unfold unsigned?
  rw [hnumeral]
  cases hlist : numeral rest with
  | nil => rfl
  | cons d ds =>
    dsimp only
    -- the numeral ends with a digit, so that no word begins after it at the cut
    have hne : numeral rest ≠ [] := by
      rw [hlist]
      exact List.cons_ne_nil d ds
    obtain ⟨before, last, hlast, hdigit⟩ := numeral_last hne
    obtain ⟨tail, htail⟩ := numeral_begins rest
    rw [hlast, List.append_assoc, List.singleton_append] at htail
    have hlen : ds.length + 1 = (before ++ [last]).length := by
      rw [← hlast, hlist, List.length_cons]
    have hdrop : rest.drop (ds.length + 1) = tail := by
      rw [hlen, ← htail, List.append_cons before last tail, List.drop_left]
    have hle : ds.length + 1 ≤ rest.length := by
      rw [hlen, ← htail]
      simp
    rw [← htail] at h
    rw [List.drop_append_of_le_length hle, hdrop,
      h.startsInWord_append (isWordChar_of_isDigit hdigit)]

theorem number?_append {a b : List Char} (ha : a ≠ []) (h : Apart a b) :
    number? (a ++ b) = number? a := by
  obtain ⟨c, cs, rfl⟩ := List.exists_cons_of_ne_nil ha
  by_cases hc : c = '-'
  · subst hc
    cases cs with
    | nil =>
      -- a hyphen at the cut begins no number, since no digit follows
      have hnumeral := numeral_append (fun c hc => ⟨(h.head c hc).1, fun hpoint =>
        (h.head c hc).2 (by simp [hpoint])⟩) []
      rw [List.singleton_append, number?_signed, number?_signed, unsigned?, unsigned?]
      rw [List.nil_append] at hnumeral
      rw [hnumeral]
      rfl
    | cons d rest =>
      have hrest : Apart (d :: rest) b := h.of_append (w := ['-']) (List.cons_ne_nil _ _)
      rw [List.cons_append, number?_signed, number?_signed, unsigned?_append _ hrest]
  · have hhead : some c ≠ some '-' := fun heq => hc (Option.some.inj heq)
    rw [number?_unsigned (by exact hhead), number?_unsigned (by exact hhead), unsigned?_append _ h]

/-- A date is found before the cut if there is room for it. -/
theorem date?_append {a b : List Char} (hlen : 10 ≤ a.length) (h : Apart a b) :
    date? (a ++ b) = date? a := by
  unfold date?
  rw [List.take_append_of_le_length hlen, List.drop_append_of_le_length hlen]
  dsimp only
  cases hshape : hasDateShape (a.take 10) with
  | false => rfl
  | true =>
    obtain ⟨c₁, c₂, c₃, c₄, c₅, c₆, c₇, c₈, htake, hdigits⟩ := hasDateShape_eq hshape
    have hsplit : [c₁, c₂, c₃, c₄, '-', c₅, c₆, '-', c₇] ++ c₈ :: a.drop 10 = a := by
      conv => rhs; rw [← List.take_append_drop 10 a, htake]
      rfl
    rw [← hsplit] at h
    rw [h.startsInWord_append (isWordChar_of_isDigit (hdigits c₈ (by simp)))]

theorem word?_append {a b : List Char} (ha : a ≠ []) (h : Apart a b) :
    word? (a ++ b) = word? a := by
  obtain ⟨c, cs, rfl⟩ := List.exists_cons_of_ne_nil ha
  rw [List.cons_append, word?, word?]
  split
  · next hc =>
    have hrun : (cs ++ b).takeWhile isWordChar = cs.takeWhile isWordChar := by
      rw [List.takeWhile_append]
      split
      · next hlen =>
        -- all is one word up to the cut, so that no word goes on beyond it
        have hcs := (List.takeWhile_prefix isWordChar).eq_of_length hlen
        obtain ⟨before, last, hlast⟩ := (List.eq_nil_or_concat' (c :: cs)).resolve_left ha
        have hword : isWordChar last = true := by
          have hmem : last ∈ c :: cs := by simp [hlast]
          rcases List.mem_cons.1 hmem with rfl | hmem
          · exact isWordChar_of_isWordStart hc
          · exact List.mem_takeWhile_imp (hcs ▸ hmem)
        have hb : startsInWord b = false := by
          rw [hlast] at h
          exact h.startsInWord_append (y := []) hword
        cases b with
        | nil => rw [hcs]; simp
        | cons d rest =>
          rw [List.takeWhile_cons_of_neg (by rw [startsInWord] at hb; simp [hb]), hcs]
          simp
      · rfl
    simp only [hrun]
  · rfl

/-! ### Marks -/

/-- The marks of two characters. -/
def longMarks : List (Char × Char) := [('<', '='), ('<', '>'), ('>', '='), ('!', '=')]

theorem mark?_short {c d : Char} (h : (c, d) ∉ longMarks) (rest : List Char) :
    mark? (c :: d :: rest) = mark? [c] := by
  unfold mark?
  split
  all_goals simp_all [longMarks]

/-- The rule for marks looks at two characters at most. -/
theorem mark?_append {a b : List Char} (ha : a ≠ []) (h : Apart a b) :
    mark? (a ++ b) = mark? a := by
  obtain ⟨c, cs, rfl⟩ := List.exists_cons_of_ne_nil ha
  cases cs with
  | nil =>
    cases b with
    | nil => rfl
    | cons d rest =>
      have hd := (h.head d rfl).2
      refine mark?_short (fun hmem => hd ?_) rest
      simp only [longMarks, List.mem_cons, List.not_mem_nil, or_false, Prod.mk.injEq] at hmem ⊢
      rcases hmem with ⟨-, h⟩ | ⟨-, h⟩ | ⟨-, h⟩ | ⟨-, h⟩ <;> simp [h]
  | cons d cs =>
    by_cases hmem : (c, d) ∈ longMarks
    · simp only [longMarks, List.mem_cons, List.not_mem_nil, or_false, Prod.mk.injEq] at hmem
      rcases hmem with ⟨rfl, rfl⟩ | ⟨rfl, rfl⟩ | ⟨rfl, rfl⟩ | ⟨rfl, rfl⟩ <;> rfl
    · rw [List.cons_append, List.cons_append, mark?_short hmem, mark?_short hmem]

/-! ### Quotations -/

/-- What stands between quotes, and that the text does not go on with the quote. -/
theorem quotedText?_eq_some {quote : Char} {cs text : List Char} {n : Nat} :
    quotedText? quote cs = some (text, n) ↔
      ∃ rest, cs = doubled quote text ++ quote :: rest ∧ n = (doubled quote text).length + 1 ∧
        rest.head? ≠ some quote := by
  constructor
  · intro h
    fun_induction quotedText? quote cs generalizing text n with
    | case1 => cases h
    | case2 =>
      obtain ⟨rfl, rfl⟩ := Prod.mk.inj (Option.some.inj h)
      exact ⟨[], rfl, rfl, by simp⟩
    | case3 => cases h
    | case4 rest ih =>
      obtain ⟨⟨text', n'⟩, hfound, heq⟩ := Option.map_eq_some_iff.1 h
      obtain ⟨rfl, rfl⟩ := Prod.mk.inj heq
      obtain ⟨tail, rfl, rfl, htail⟩ := ih hfound
      refine ⟨tail, ?_, ?_, htail⟩ <;> rw [doubled_cons, if_pos rfl] <;> rfl
    | case5 d rest hd =>
      obtain ⟨rfl, rfl⟩ := Prod.mk.inj (Option.some.inj h)
      exact ⟨d :: rest, rfl, rfl, fun heq => hd (Option.some.inj heq)⟩
    | case6 c d rest hc ih =>
      obtain ⟨⟨text', n'⟩, hfound, heq⟩ := Option.map_eq_some_iff.1 h
      obtain ⟨rfl, rfl⟩ := Prod.mk.inj heq
      obtain ⟨tail, hsplit, rfl, htail⟩ := ih hfound
      refine ⟨tail, ?_, ?_, htail⟩ <;> rw [doubled_cons, if_neg hc]
      · rw [hsplit]
        rfl
      · rfl
  · rintro ⟨rest, rfl, rfl, hrest⟩
    exact quotedText?_doubled text hrest

/-- A quotation that is closed before the cut is closed there without what follows. -/
theorem quotedText?_restrict {quote : Char} {a b text : List Char} {n : Nat}
    (h : quotedText? quote (a ++ b) = some (text, n)) (hn : n ≤ a.length) :
    quotedText? quote a = some (text, n) := by
  obtain ⟨rest, hsplit, rfl, hrest⟩ := quotedText?_eq_some.1 h
  rw [List.append_cons] at hsplit
  obtain ⟨y, rfl, rfl⟩ := split_of_le hsplit (by simpa using hn)
  refine quotedText?_eq_some.2 ⟨y, (List.append_cons _ _ _).symm, rfl, fun hy => hrest ?_⟩
  rw [List.head?_append, hy]
  rfl

theorem quotedText?_append {quote : Char} {a b text : List Char} {n : Nat}
    (h : quotedText? quote a = some (text, n)) (hb : b.head? ≠ some quote) :
    quotedText? quote (a ++ b) = some (text, n) := by
  obtain ⟨rest, rfl, rfl, hrest⟩ := quotedText?_eq_some.1 h
  refine quotedText?_eq_some.2 ⟨rest ++ b, by simp, rfl, ?_⟩
  rw [List.head?_append]
  cases rest with
  | nil => exact hb
  | cons c rest => exact hrest

/-- What stands between dollars. -/
theorem dollarText?_eq_some {cs text : List Char} :
    dollarText? cs = some text ↔ Dollarless text ∧ ∃ rest, cs = text ++ '$' :: '$' :: rest := by
  constructor
  · intro h
    refine ⟨dollarless_of_dollarText? cs h, ?_⟩
    fun_induction dollarText? cs generalizing text with
    | case1 => cases h
    | case2 c rest hc =>
      obtain rfl := Option.some.inj h
      simp only [Bool.and_eq_true, decide_eq_true_eq] at hc
      obtain ⟨rfl, hhead⟩ := hc
      obtain ⟨tail, rfl⟩ := List.head?_eq_some_iff.1 hhead
      exact ⟨tail, rfl⟩
    | case3 c rest hc ih =>
      obtain ⟨text', htext', rfl⟩ := Option.map_eq_some_iff.1 h
      obtain ⟨tail, rfl⟩ := ih htext'
      exact ⟨tail, rfl⟩
  · rintro ⟨htext, rest, rfl⟩
    exact htext rest

theorem dollarText?_restrict {a b text : List Char} (h : dollarText? (a ++ b) = some text)
    (hn : text.length + 2 ≤ a.length) : dollarText? a = some text := by
  obtain ⟨htext, rest, hsplit⟩ := dollarText?_eq_some.1 h
  have hdollars : text ++ '$' :: '$' :: rest = text ++ ['$', '$'] ++ rest := by simp
  rw [hdollars] at hsplit
  obtain ⟨y, rfl, -⟩ := split_of_le hsplit (by simpa using hn)
  exact dollarText?_eq_some.2 ⟨htext, y, by simp⟩

theorem dollarText?_append {a text : List Char} (h : dollarText? a = some text) (b : List Char) :
    dollarText? (a ++ b) = some text := by
  obtain ⟨htext, rest, rfl⟩ := dollarText?_eq_some.1 h
  exact dollarText?_eq_some.2 ⟨htext, rest ++ b, by simp⟩

/-! ### `NOW()` -/

theorem now?_eq_some {cs : List Char} {l : Lexeme} (h : now? cs = some l) :
    l.width = 5 ∧ 5 ≤ cs.length := by
  unfold now? at h
  split at h
  · next heq =>
    obtain rfl := Option.some.inj h
    have hlen := congrArg List.length heq
    simp only [List.length_map, List.length_take, List.length_cons, List.length_nil] at hlen
    exact ⟨rfl, by omega⟩
  · cases h

theorem now?_append {a : List Char} (hlen : 5 ≤ a.length) (b : List Char) :
    now? (a ++ b) = now? a := by
  unfold now?
  simp only [List.take_append_of_le_length hlen]

theorem date?_eq_some {cs : List Char} {l : Lexeme} (h : date? cs = some l) :
    l.width = 10 ∧ hasDateShape (cs.take 10) = true ∧ 10 ≤ cs.length := by
  unfold date? at h
  dsimp only at h
  split at h
  · next hdate =>
    obtain rfl := Option.some.inj h
    simp only [Bool.and_eq_true] at hdate
    obtain ⟨_, _, _, _, _, _, _, _, htake, -⟩ := hasDateShape_eq hdate.1.1
    have hlen := congrArg List.length htake
    simp only [List.length_take, List.length_cons, List.length_nil] at hlen
    exact ⟨rfl, hdate.1.1, by omega⟩
  · cases h

/-- A rule of a fixed width may be tried before the cut, where the rules after it may. -/
theorem or_restrict {rule : Rule} {width : Nat} {a b : List Char} {found found' : Option Lexeme}
    {l : Lexeme} (hrule : ∀ cs l', rule cs = some l' → l'.width = width ∧ width ≤ cs.length)
    (happend : width ≤ a.length → rule (a ++ b) = rule a) (hl : l.width ≤ a.length)
    (hfound : found' = some l → found = some l) (h : (rule (a ++ b)).or found' = some l) :
    (rule a).or found = some l := by
  cases hwhole : rule (a ++ b) with
  | some l' =>
    rw [hwhole, Option.some_or] at h
    obtain rfl := Option.some.inj h
    have hlen := (hrule _ _ hwhole).1 ▸ hl
    rw [← happend hlen, hwhole, Option.some_or]
  | none =>
    rw [hwhole, Option.none_or] at h
    cases hsome : rule a with
    | none => rw [Option.none_or, hfound h]
    | some l' =>
      rw [happend (hrule a l' hsome).2, hsome] at hwhole
      cases hwhole

/-- Where no token goes on, `NOW()` does not. -/
theorem now?_append_of_closes {a b : List Char} (h : Closes a b) : now? (a ++ b) = now? a := by
  by_cases hlen : 5 ≤ a.length
  · exact now?_append hlen _
  cases b with
  | nil => rw [List.append_nil]
  | cons d rest =>
    have hnone : now? a = none := by
      cases hsome : now? a with
      | none => rfl
      | some l => exact absurd (now?_eq_some hsome).2 hlen
    rw [hnone, now?, if_neg]
    intro hnow
    obtain ⟨hword, hmark⟩ := h.head d rfl
    have hletter : ∀ c : Char, c.isLower = true → d.toLower ≠ c := fun c hc heq => by
      rw [isWordChar_of_isWordStart (isWordStart_of_toLower hc heq)] at hword
      cases hword
    -- the character at the cut is one of the five, so that it is the last of them
    have hget := congrArg (·[a.length]?) hnow
    have hcut : ((a ++ d :: rest).take 5)[a.length]? = some d := by
      rw [List.getElem?_take_of_lt (by omega), List.getElem?_append_right (Nat.le_refl _)]
      simp
    simp only [List.getElem?_map, hcut, Option.map_some] at hget
    have hfour : a.length = 4 ∧ d = ')' := by
      have hcases : a.length = 0 ∨ a.length = 1 ∨ a.length = 2 ∨ a.length = 3 ∨ a.length = 4 := by
        omega
      rcases hcases with hn | hn | hn | hn | hn <;> rw [hn] at hget <;>
        have heq := Option.some.inj hget
      · exact absurd heq (hletter 'n' (by decide))
      · exact absurd heq (hletter 'o' (by decide))
      · exact absurd heq (hletter 'w' (by decide))
      · exact absurd (by simp [eq_of_toLower (by decide) heq]) hmark
      · exact ⟨hn, eq_of_toLower (by decide) heq⟩
    -- and the one before it is the opening parenthesis
    have hthree := congrArg (·[3]?) hnow
    simp only [List.getElem?_map] at hthree
    obtain ⟨e, he, hlower⟩ := Option.map_eq_some_iff.1 hthree
    obtain rfl := eq_of_toLower (by decide) hlower
    rw [List.getElem?_take_of_lt (by omega), List.getElem?_append_left (by omega)] at he
    refine h.paren (by rw [hfour.2]; rfl) ?_
    rw [List.getLast?_eq_getElem?, hfour.1, he]

/-- No date has two hyphens in a row. -/
theorem hasDateShape_hyphens {cs : List Char} (h : hasDateShape cs = true) {i : Nat}
    (hi : cs[i]? = some '-') : ∃ d, cs[i + 1]? = some d ∧ d.isDigit = true := by
  obtain ⟨a, b, c, d, e, f, g, j, rfl, hdigits⟩ := hasDateShape_eq h
  have hdigit : ∀ x ∈ [a, b, c, d, e, f, g, j], x ≠ '-' := by
    rintro x hx rfl
    exact absurd (hdigits _ hx) (by decide)
  have hlen := (List.getElem?_eq_some_iff.1 hi).1
  simp only [List.length_cons, List.length_nil] at hlen
  have hcases : i = 4 ∨ i = 7 ∨ i ∈ [0, 1, 2, 3, 5, 6, 8, 9] := by
    simp only [List.mem_cons, List.not_mem_nil, or_false]
    omega
  rcases hcases with rfl | rfl | hi'
  · exact ⟨e, rfl, hdigits e (by simp)⟩
  · exact ⟨g, rfl, hdigits g (by simp)⟩
  · simp only [List.mem_cons, List.not_mem_nil, or_false] at hi'
    rcases hi' with rfl | rfl | rfl | rfl | rfl | rfl | rfl | rfl <;>
      exact absurd (Option.some.inj hi) (hdigit _ (by simp))

/-- Where no token goes on, no date does. -/
theorem date?_append_of_closes {a b : List Char} (h : Closes a b) : date? (a ++ b) = date? a := by
  by_cases hlen : 10 ≤ a.length
  · exact date?_append hlen h.apart
  cases b with
  | nil => rw [List.append_nil]
  | cons d rest =>
    have hnone : date? a = none := by
      cases hsome : date? a with
      | none => rfl
      | some l => exact absurd (date?_eq_some hsome).2.2 hlen
    rw [hnone]
    cases hsome : date? (a ++ d :: rest) with
    | none => rfl
    | some l =>
      exfalso
      have hshape := (date?_eq_some hsome).2.1
      have hcut : ((a ++ d :: rest).take 10)[a.length]? = some d := by
        rw [List.getElem?_take_of_lt (by omega), List.getElem?_append_right (Nat.le_refl _)]
        simp
      by_cases hhyphen : d = '-'
      · -- the next character would be a digit, but the comment goes on with a hyphen
        subst hhyphen
        obtain ⟨e, he, hdigit⟩ := hasDateShape_hyphens hshape hcut
        obtain ⟨rest', rfl⟩ := List.head?_eq_some_iff.1 (h.hyphen rfl)
        have hten := (List.getElem?_eq_some_iff.1 he).1
        rw [List.length_take] at hten
        rw [List.getElem?_take_of_lt (by omega),
          List.getElem?_append_right (Nat.le_succ _)] at he
        have heq : '-' = e := by simpa using he
        subst heq
        exact absurd hdigit (by decide)
      · obtain ⟨c₁, c₂, c₃, c₄, c₅, c₆, c₇, c₈, htake, hdigits⟩ := hasDateShape_eq hshape
        have hmem := List.mem_of_getElem? hcut
        rw [htake] at hmem
        have hdigit := hdigits d (by simpa [hhyphen] using hmem)
        have hword := (h.head d rfl).1
        rw [isWordChar_of_isDigit hdigit] at hword
        cases hword

/-! ### Comments and texts between dollars -/

theorem comment_width_pos (cs : List Char) : 0 < (cs.takeWhile (· != '\n')).length + 2 :=
  Nat.succ_pos _

theorem comment?_hyphens (cs : List Char) :
    comment? ('-' :: '-' :: cs) =
      some ⟨.space, [' '], (cs.takeWhile (· != '\n')).length + 2, comment_width_pos cs⟩ := rfl

/-- A comment ends before its line does. -/
theorem first?_comment {line : List Char} (hline : '\n' ∉ line) (cs : List Char) :
    first? ('-' :: '-' :: line ++ '\n' :: cs) =
      some ⟨.space, [' '], line.length + 2, Nat.succ_pos _⟩ := by
  have hall : ∀ c ∈ line, (c != '\n') = true := by
    intro c hc
    rw [bne_iff_ne]
    rintro rfl
    exact hline hc
  have hwhile : (line ++ '\n' :: cs).takeWhile (· != '\n') = line := by
    rw [List.takeWhile_append_of_pos hall, List.takeWhile_cons_of_neg (by decide),
      List.append_nil]
  rw [List.cons_append, List.cons_append, first?_hyphen, comment?_hyphens]
  simp only [hwhile, Option.some_or]

theorem comment?_eq_some {cs : List Char} {l : Lexeme} (h : comment? cs = some l) :
    l.kind = .space ∧ ∃ rest, cs = '-' :: '-' :: rest := by
  unfold comment? at h
  split at h
  · next rest =>
    obtain rfl := Option.some.inj h
    exact ⟨rfl, rest, rfl⟩
  · cases h

theorem comment?_eq_none {cs : List Char} : comment? ('-' :: cs) = none ↔ cs.head? ≠ some '-' := by
  cases cs with
  | nil => simp [comment?]
  | cons d cs =>
    by_cases hd : d = '-'
    · subst hd
      simp [comment?]
    · simp [comment?, hd]

theorem dollar?_eq_some {cs : List Char} {l : Lexeme} (h : dollar? cs = some l) :
    ∃ rest text hwidth, cs = '$' :: '$' :: rest ∧ dollarText? rest = some text ∧
      l = ⟨dollarKind text, text, text.length + 4, hwidth⟩ := by
  unfold dollar? at h
  split at h
  · next rest =>
    obtain ⟨text, htext, rfl⟩ := Option.map_eq_some_iff.1 h
    exact ⟨rest, text, Nat.succ_pos _, rfl, htext, rfl⟩
  · cases h

theorem comment?_restrict {a b : List Char} {l : Lexeme} (h : comment? (a ++ b) = some l)
    (hl : l.width ≤ a.length) : comment? a = some l := by
  obtain ⟨-, rest, hrest⟩ := comment?_eq_some h
  rw [hrest] at h
  obtain rfl := Option.some.inj h
  rcases a with _ | ⟨c, _ | ⟨d, cs⟩⟩
  · simp at hl
  · simp at hl
  · obtain ⟨rfl, rfl, rfl⟩ : c = '-' ∧ d = '-' ∧ cs ++ b = rest := by simpa using hrest
    rw [comment?_hyphens]
    simp only [takeWhile_append_of_le (Nat.le_of_succ_le_succ (Nat.le_of_succ_le_succ hl))]

/-- A comment that ends before the cut does not go on after it. -/
theorem comment?_append {a : List Char} {l : Lexeme} (h : comment? a = some l)
    (hl : l.width < a.length) (b : List Char) : comment? (a ++ b) = some l := by
  obtain ⟨-, rest, rfl⟩ := comment?_eq_some h
  obtain rfl := Option.some.inj h
  rw [List.cons_append, List.cons_append, comment?_hyphens]
  simp only [takeWhile_append_of_lt (Nat.lt_of_succ_lt_succ (Nat.lt_of_succ_lt_succ hl))]

theorem dollar?_restrict {a b : List Char} {l : Lexeme} (h : dollar? (a ++ b) = some l)
    (hl : l.width ≤ a.length) : dollar? a = some l := by
  obtain ⟨rest, text, hwidth, hrest, htext, rfl⟩ := dollar?_eq_some h
  rcases a with _ | ⟨c, _ | ⟨d, cs⟩⟩
  · simp at hl
  · simp at hl
  · obtain ⟨rfl, rfl, rfl⟩ : c = '$' ∧ d = '$' ∧ cs ++ b = rest := by simpa using hrest
    have hlen : text.length + 2 ≤ cs.length := by
      simpa using hl
    rw [dollar?, dollarText?_restrict htext hlen]
    rfl

theorem dollar?_append {a : List Char} {l : Lexeme} (h : dollar? a = some l) (b : List Char) :
    dollar? (a ++ b) = some l := by
  obtain ⟨rest, text, hwidth, rfl, htext, rfl⟩ := dollar?_eq_some h
  rw [List.cons_append, List.cons_append, dollar?, dollarText?_append htext]
  rfl

/-! ## Top theorems -/

/-- A token that lies before the cut is found without what follows. -/
theorem first?_restrict {a b : List Char} (hcut : Apart a b) {l : Lexeme}
    (h : first? (a ++ b) = some l) (hl : l.width ≤ a.length) : first? a = some l := by
  have ha : a ≠ [] := by
    rintro rfl
    exact absurd l.width_pos (by simpa using hl)
  obtain ⟨c, cs, rfl⟩ := List.exists_cons_of_ne_nil ha
  have hnumber := number?_append ha hcut
  rw [List.cons_append] at h hnumber
  rcases sort_cases c with hblank | rfl | hmark | ⟨kind, hquote⟩ | rfl | hordinary
  · rw [first?_blank hblank, space?, if_pos hblank] at h ⊢
    obtain rfl := Option.some.inj h
    simp only [takeWhile_append_of_le (Nat.le_of_succ_le_succ hl)]
  · rw [first?_hyphen] at h ⊢
    cases hcomment : comment? ('-' :: (cs ++ b)) with
    | some l' =>
      rw [hcomment, Option.some_or] at h
      obtain rfl := Option.some.inj h
      rw [comment?_restrict hcomment hl, Option.some_or]
    | none =>
      rw [hcomment, Option.none_or] at h
      have hnone : comment? ('-' :: cs) = none := by
        refine comment?_eq_none.2 fun hhead => comment?_eq_none.1 hcomment ?_
        rw [List.head?_append, hhead]
        rfl
      rw [hnone, Option.none_or, ← hnumber, h]
  · rw [first?_mark hmark] at h ⊢
    rw [← h, ← List.cons_append, mark?_append ha hcut]
  · rw [first?_quote hquote, quoted?, if_pos rfl] at h ⊢
    obtain ⟨⟨text, n⟩, hfound, rfl⟩ := Option.map_eq_some_iff.1 h
    rw [quotedText?_restrict hfound (Nat.le_of_succ_le_succ hl)]
    rfl
  · rw [first?_dollar] at h ⊢
    exact dollar?_restrict h hl
  · rw [first?_ordinary hordinary] at h ⊢
    have hword := word?_append ha hcut
    rw [List.cons_append] at hword
    rw [hnumber, hword] at h
    refine or_restrict (fun _ _ h => now?_eq_some h)
      (fun hlen => now?_append hlen b) hl ?_ h
    refine or_restrict (fun _ _ h => ⟨(date?_eq_some h).1, (date?_eq_some h).2.2⟩)
      (fun hlen => date?_append hlen hcut) hl id

/-- What is found before the cut is found with what follows, if no token goes on there. -/
theorem first?_append_of_closes {a b : List Char} (hcloses : Closes a b) {l : Lexeme}
    (h : first? a = some l) (hspace : l.kind = .space → l.width < a.length) :
    first? (a ++ b) = some l := by
  have ha : a ≠ [] := by
    rintro rfl
    cases h
  have hcut := hcloses.apart
  obtain ⟨c, cs, rfl⟩ := List.exists_cons_of_ne_nil ha
  have hnumber := number?_append ha hcut
  rw [List.cons_append] at hnumber ⊢
  rcases sort_cases c with hblank | rfl | hmark | ⟨kind, hquote⟩ | rfl | hordinary
  · rw [first?_blank hblank, space?, if_pos hblank] at h ⊢
    obtain rfl := Option.some.inj h
    simp only [takeWhile_append_of_lt (Nat.lt_of_succ_lt_succ (hspace rfl))]
  · rw [first?_hyphen] at h ⊢
    cases hcomment : comment? ('-' :: cs) with
    | some l' =>
      rw [hcomment, Option.some_or] at h
      obtain rfl := Option.some.inj h
      have hlonger := comment?_append hcomment (hspace (comment?_eq_some hcomment).1) b
      rw [List.cons_append] at hlonger
      rw [hlonger, Option.some_or]
    | none =>
      rw [hcomment, Option.none_or] at h
      have hnone : comment? ('-' :: (cs ++ b)) = none := by
        refine comment?_eq_none.2 fun hhead => ?_
        cases cs with
        | nil => cases h
        | cons e cs => exact comment?_eq_none.1 hcomment hhead
      rw [hnone, Option.none_or, hnumber, h]
  · rw [first?_mark hmark] at h ⊢
    rw [← List.cons_append, mark?_append ha hcut, h]
  · rw [first?_quote hquote, quoted?, if_pos rfl] at h ⊢
    obtain ⟨⟨text, n⟩, hfound, rfl⟩ := Option.map_eq_some_iff.1 h
    have hhead : b.head? ≠ some c := by
      intro heq
      refine (hcloses.head c heq).2 ?_
      simp only [quotes, List.mem_cons, List.not_mem_nil, or_false, Prod.mk.injEq] at hquote ⊢
      rcases hquote with ⟨h, -⟩ | ⟨h, -⟩ | ⟨h, -⟩ <;> simp [h]
    rw [quotedText?_append hfound hhead]
    rfl
  · rw [first?_dollar] at h ⊢
    exact dollar?_append h _
  · rw [first?_ordinary hordinary] at h ⊢
    have hword := word?_append ha hcut
    have hnow := now?_append_of_closes hcloses
    have hdate := date?_append_of_closes hcloses
    rw [List.cons_append] at hword hnow hdate
    rw [hnow, hdate, hnumber, hword, h]

/-- What is found before the cut is found with what follows, if that begins with a separator. -/
theorem first?_append {a : List Char} {d : Char} (hd : d ∈ separators)
    (hparen : d = ')' → a.getLast? ≠ some '(') {l : Lexeme} (h : first? a = some l)
    (hspace : l.kind = .space → l.width < a.length) (rest : List Char) :
    first? (a ++ d :: rest) = some l :=
  first?_append_of_closes (.of_separator hd hparen rest) h hspace

end Lexeme

/-- The token that is found comes before those of the rest. -/
theorem Token.scanFrom_of_first? {cs : List Char} {l : Lexeme} (h : Lexeme.first? cs = some l)
    (position : Nat) :
    scanFrom position cs =
      (scanFrom (position + l.width) (cs.drop l.width) >>= fun tokens =>
        .ok (⟨l.kind, String.ofList l.text, position⟩ :: tokens)) := by
  cases cs with
  | nil => cases h
  | cons c rest =>
    rw [scanFrom, h]
    rfl

end Tabula
