import Mathlib.Data.List.Forall2
import Tabula.Proofs.Attempt
import Tabula.Proofs.Characters
import Tabula.Statement.Printer
import Tabula.Token.Lexer

/-!
# Pieces are read as single tokens

A printed piece stands between two blanks.  `Piece.kind` and `Piece.lexeme` say which token it is
meant to be, and `Piece.Clear` that the lexer takes exactly its characters for that token, whatever
follows after a blank.

* `Piece.clear_name`, `Piece.clear_string`, `Piece.clear_dollar`: whatever is quoted is clear.
* `Piece.clear_word`, `Piece.clear_mark`, `Piece.clear_numeral`, `Piece.clear_now`: what stands as
  it is is clear.
* `Token.scan_chars`: clear pieces with blanks between them are scanned to their tokens.
-/

namespace Tabula

/-! ## Algorithm -/

namespace Piece

/-- The kind of the token that a piece is meant to be. -/
def kind : Piece → TokenKind
  | .plain text =>
    match Lexeme.first? text.toList with
    | some l => l.kind
    | none => .space
  | .name _ => .quotedIdent
  | .string _ => .string
  | .dollar s => Lexeme.dollarKind s.toList

/-- What the token of a piece stands for. -/
def lexeme : Piece → String
  | .plain text => text
  | .name s => s
  | .string s => s
  | .dollar s => s

/-- A text that is at its end or goes on with a blank. -/
def Ended (rest : List Char) : Prop :=
  ∀ c ∈ rest.head?, c = ' '

end Piece

/-- What was found is a token of a kind, with its text and width. -/
def Lexeme.Finds (found : Option Lexeme) (kind : TokenKind) (text : List Char) (width : Nat) :
    Prop :=
  ∃ l, found = some l ∧ l.kind = kind ∧ l.text = text ∧ l.width = width

/-- A piece that is read as its token, whatever follows after a blank. -/
structure Piece.Clear (p : Piece) : Prop where
  solid : p.kind ≠ .space
  head : ∃ c cs, p.text.toList = c :: cs ∧ Text.isBlank c = false
  first : ∀ rest, Piece.Ended rest → Lexeme.Finds (Lexeme.first? (p.text.toList ++ rest)) p.kind
    p.lexeme.toList p.text.toList.length

/-- A word that is read as a keyword. -/
def Keyword.isSpelled (k : Keyword) (text : String) : Bool :=
  Keyword.ofWord? text == some k &&
    match text.toList with
    | [] => false
    | c :: cs => !Text.isBlank c && Text.isWordStart c && !c.isDigit && cs.all Text.isWordChar

/-- The keyword in capital letters, as it is printed. -/
def Keyword.capitals : Keyword → String
  | .create => "CREATE"
  | .select => "SELECT"
  | .insert => "INSERT"
  | .update => "UPDATE"
  | .delete => "DELETE"
  | .truncate => "TRUNCATE"
  | .drop => "DROP"
  | .grant => "GRANT"
  | .distinct => "DISTINCT"
  | .fromWord => "FROM"
  | .whereWord => "WHERE"
  | .table => "TABLE"
  | .into => "INTO"
  | .values => "VALUES"
  | .join => "JOIN"
  | .on => "ON"
  | .ifWord => "IF"
  | .not => "NOT"
  | .existsWord => "EXISTS"
  | .null => "NULL"
  | .autoIncrement => "AUTOINCREMENT"
  | .count => "COUNT"
  | .set => "SET"
  | .order => "ORDER"
  | .byWord => "BY"
  | .withWord => "WITH"
  | .time => "TIME"
  | .zone => "ZONE"
  | .returning => "RETURNING"
  | .inWord => "IN"
  | .and => "AND"
  | .or => "OR"
  | .asc => "ASC"
  | .desc => "DESC"
  | .limit => "LIMIT"
  | .offset => "OFFSET"
  | .is => "IS"
  | .forWord => "FOR"
  | .default => "DEFAULT"
  | .localTimestamp => "LOCALTIMESTAMP"
  | .trueWord => "TRUE"
  | .falseWord => "FALSE"
  | .unique => "UNIQUE"
  | .index => "INDEX"
  | .collate => "COLLATE"
  | .nocase => "NOCASE"
  | .primary => "PRIMARY"
  | .key => "KEY"

/-- A text that ends at the next two dollars. -/
def Lexeme.Dollarless (text : List Char) : Prop :=
  ∀ rest, dollarText? (text ++ '$' :: '$' :: rest) = some text

/-- The characters of pieces with blanks between them. -/
def Piece.chars : List Piece → List Char
  | [] => []
  | [p] => p.text.toList
  | p :: rest => p.text.toList ++ ' ' :: chars rest

/-- Tokens that pieces are meant to be, wherever they stand. -/
def Piece.Spell (ps : List Piece) (tokens : List Token) : Prop :=
  List.Forall₂ (fun p t => t.kind = p.kind ∧ t.lexeme = p.lexeme) ps tokens

/-! ## Lemmas -/

namespace Piece

theorem Ended.nil : Ended [] := by
  intro c hc
  cases hc

theorem Ended.blank (rest : List Char) : Ended (' ' :: rest) := by
  intro c hc
  exact (Option.some.inj hc).symm

theorem Ended.cases {rest : List Char} (h : Ended rest) : rest = [] ∨ ∃ r, rest = ' ' :: r := by
  cases rest with
  | nil => exact .inl rfl
  | cons c r =>
    obtain rfl := h c rfl
    exact .inr ⟨r, rfl⟩

/-- A plain piece is clear if its own characters are taken for a token. -/
theorem clear_plain {text : String} {k : TokenKind} (hsolid : k ≠ .space)
    (hhead : ∃ c cs, text.toList = c :: cs ∧ Text.isBlank c = false)
    (h : ∀ rest, Ended rest →
      Lexeme.Finds (Lexeme.first? (text.toList ++ rest)) k text.toList text.toList.length) :
    (plain text).Clear ∧ (plain text).kind = k := by
  have hkind : (plain text).kind = k := by
    obtain ⟨l, hfirst, hl, -⟩ := h [] Ended.nil
    rw [List.append_nil] at hfirst
    rw [kind, hfirst]
    exact hl
  refine ⟨⟨by rwa [hkind], hhead, fun rest hrest => ?_⟩, hkind⟩
  rw [hkind]
  exact h rest hrest

end Piece

/-- The first rule that finds something decides. -/
theorem Lexeme.finds_first? (before : List Rule) {after : List Rule} {rule : Rule} {cs : List Char}
    {kind : TokenKind} {text : List Char} {width : Nat}
    (hrules : rules = before ++ rule :: after) (hbefore : ∀ r ∈ before, r cs = none)
    (h : Finds (rule cs) kind text width) : Finds (first? cs) kind text width := by
  obtain ⟨l, hl, hfound⟩ := h
  refine ⟨l, ?_, hfound⟩
  rw [first?, hrules, List.findSome?_append, List.findSome?_eq_none_iff.2 hbefore,
    List.findSome?_cons, hl]
  rfl

/-! ### Quoted pieces -/

namespace Lexeme

/-- The text between quotes is read back, if no quote follows the closing one. -/
theorem quotedText?_doubled {quote : Char} (cs : List Char) {rest : List Char}
    (hrest : rest.head? ≠ some quote) :
    quotedText? quote (Text.doubled quote cs ++ quote :: rest) =
      some (cs, (Text.doubled quote cs).length + 1) := by
  induction cs with
  | nil =>
    cases rest with
    | nil => simp [Text.doubled, quotedText?]
    | cons d rest =>
      have hd : d ≠ quote := fun heq => hrest (congrArg some heq)
      simp [Text.doubled, quotedText?, hd]
  | cons c rest' ih =>
    rw [Text.doubled_cons]
    split
    · next heq =>
      subst heq
      simp [quotedText?, ih]
    · next hne =>
      obtain ⟨d, tail, hd⟩ : ∃ d tail, Text.doubled quote rest' ++ quote :: rest = d :: tail :=
        List.exists_cons_of_ne_nil (by simp)
      rw [hd] at ih
      rw [List.cons_append, hd, quotedText?, if_neg hne, ih]
      rfl

theorem quoted?_quoted {quote : Char} (hquote : quote ≠ ' ') (k : TokenKind) (s : String)
    {rest : List Char} (hrest : Piece.Ended rest) :
    Finds (quoted? quote k ((Text.quoted quote s).toList ++ rest)) k s.toList
      (Text.quoted quote s).toList.length := by
  have hlist : (Text.quoted quote s).toList ++ rest =
      quote :: (Text.doubled quote s.toList ++ quote :: rest) := by
    simp [Text.quoted]
  have hhead : rest.head? ≠ some quote := fun h => hquote (hrest quote h)
  rw [hlist, quoted?, if_pos rfl, quotedText?_doubled s.toList hhead]
  exact ⟨_, rfl, rfl, rfl, by simp [Text.quoted]⟩

end Lexeme

theorem Lexeme.dollarKind_ne_space (text : List Char) : dollarKind text ≠ .space := by
  unfold dollarKind
  split
  · simp
  · split <;> simp

namespace Piece

/-- A quoted text begins with its quote. -/
theorem quoted_toList (quote : Char) (s : String) :
    (Text.quoted quote s).toList = quote :: (Text.doubled quote s.toList ++ [quote]) := by
  simp [Text.quoted]

theorem clear_name (s : String) : (name s).Clear := by
  refine ⟨(fun h => by cases h), ⟨_, _, quoted_toList '"' s, by decide⟩, fun rest hrest => ?_⟩
  have hfound := Lexeme.quoted?_quoted (by decide : '"' ≠ ' ') .quotedIdent s hrest
  refine Lexeme.finds_first? [_, _, _, _] rfl ?_ hfound
  rw [text, quoted_toList]
  intro r hr
  simp only [List.mem_cons, List.not_mem_nil, or_false] at hr
  rcases hr with rfl | rfl | rfl | rfl <;> rfl

theorem clear_string (s : String) : (string s).Clear := by
  refine ⟨(fun h => by cases h), ⟨_, _, quoted_toList '\x27' s, by decide⟩, fun rest hrest => ?_⟩
  have hfound := Lexeme.quoted?_quoted (by decide : '\x27' ≠ ' ') .string s hrest
  refine Lexeme.finds_first? [_, _, _] rfl ?_ hfound
  rw [text, quoted_toList]
  intro r hr
  simp only [List.mem_cons, List.not_mem_nil, or_false] at hr
  rcases hr with rfl | rfl | rfl <;> rfl

theorem clear_dollar {s : String} (hs : Lexeme.Dollarless s.toList) : (dollar s).Clear := by
  have hlist (rest : List Char) :
      (dollar s).text.toList ++ rest = '$' :: '$' :: (s.toList ++ '$' :: '$' :: rest) := by
    simp [text]
  refine ⟨Lexeme.dollarKind_ne_space _,
    ⟨'$', '$' :: (s.toList ++ ['$', '$']), by simp [text], by decide⟩, fun rest _ => ?_⟩
  have hfound : Lexeme.Finds (Lexeme.dollar? ((dollar s).text.toList ++ rest)) (dollar s).kind
      s.toList (dollar s).text.toList.length := by
    rw [hlist, Lexeme.dollar?, hs rest]
    exact ⟨_, rfl, rfl, rfl, by simp [text]⟩
  refine Lexeme.finds_first? [_, _, _, _, _, _] rfl ?_ hfound
  rw [hlist]
  intro r hr
  simp only [List.mem_cons, List.not_mem_nil, or_false] at hr
  rcases hr with rfl | rfl | rfl | rfl | rfl | rfl <;> rfl

end Piece

/-! ### Words and numerals -/

namespace Lexeme

open Text

/-- A character with which no blank, comment, mark or quotation begins. -/
structure Ordinary (c : Char) : Prop where
  blank : Text.isBlank c = false
  mark : c ∉ ['-', ';', ',', '(', ')', '*', '.', '=', '<', '>', '!', '\x27', '"', '\x60', '$']

theorem mark?_ordinary {c : Char} (h : Ordinary c) (cs : List Char) : mark? (c :: cs) = none := by
  have hmark := h.mark
  simp only [List.mem_cons, List.not_mem_nil, or_false, not_or] at hmark
  unfold mark?
  split
  · next heq => exact absurd (List.cons.inj heq).1 hmark.2.2.2.2.2.2.2.2.1
  · next heq => exact absurd (List.cons.inj heq).1 hmark.2.2.2.2.2.2.2.2.1
  · next heq => simp_all
  · next heq => simp_all
  · next heq =>
    obtain ⟨rfl, rfl⟩ := List.cons.inj heq
    split <;> simp_all
  · rfl

theorem rules_ordinary {c : Char} (h : Ordinary c) (cs : List Char) :
    ∀ r ∈ rules.take 7, r (c :: cs) = none := by
  have hmark := h.mark
  simp only [List.mem_cons, List.not_mem_nil, or_false, not_or] at hmark
  intro r hr
  simp only [rules, List.take_succ_cons, List.take_zero, List.mem_cons, List.not_mem_nil,
    or_false] at hr
  rcases hr with rfl | rfl | rfl | rfl | rfl | rfl | rfl
  · rw [space?, if_neg (by rw [h.blank]; exact Bool.false_ne_true)]
  · unfold comment?
    split
    · simp_all
    · rfl
  · exact mark?_ordinary h cs
  · rw [quoted?, if_neg (by simp_all)]
  · rw [quoted?, if_neg (by simp_all)]
  · rw [quoted?, if_neg (by simp_all)]
  · unfold dollar?
    split
    · simp_all
    · rfl

theorem ordinary_of_isWordStart {c : Char} (hblank : isBlank c = false)
    (h : isWordStart c = true) : Ordinary c := by
  refine ⟨hblank, fun hmem => ?_⟩
  simp only [List.mem_cons, List.not_mem_nil, or_false] at hmem
  have hmarks : (['-', ';', ',', '(', ')', '*', '.', '=', '<', '>', '!', '\x27', '"', '\x60',
      '$'].all fun d => !isWordStart d) = true := by decide +kernel
  have hc := List.all_eq_true.1 hmarks c (by simpa using hmem)
  rw [h] at hc
  cases hc

/-- Where the characters of a word end, a blank stands. -/
theorem blank_of_append_eq {ws rest before tail : List Char} {d : Char}
    (hws : ∀ c ∈ ws, isWordChar c = true) (hrest : Piece.Ended rest)
    (h : ws ++ rest = before ++ d :: tail) (hbefore : ∀ c ∈ before, isWordChar c = true)
    (hd : isWordChar d = false) : d = ' ' := by
  have hstop : rest.takeWhile isWordChar = [] := by
    rcases hrest.cases with rfl | ⟨r, rfl⟩
    · rfl
    · exact List.takeWhile_cons_of_neg (by decide)
  have hsame : ws = before := by
    have := congrArg (List.takeWhile isWordChar) h
    rw [List.takeWhile_append_of_pos hws, List.takeWhile_append_of_pos hbefore, hstop,
      List.takeWhile_cons_of_neg (by rw [hd]; exact Bool.false_ne_true)] at this
    simpa using this
  subst hsame
  rw [List.append_cancel_left h] at hrest
  exact hrest d rfl

/-- `NOW()` is not found where a word ends with a blank. -/
theorem now?_word {ws rest : List Char} (hws : ∀ c ∈ ws, isWordChar c = true)
    (hrest : Piece.Ended rest) : now? (ws ++ rest) = none := by
  rw [now?, if_neg]
  intro h
  obtain ⟨a, l₁, htake, ha, h⟩ := List.map_eq_cons_iff.1 h
  obtain ⟨b, l₂, rfl, hb, h⟩ := List.map_eq_cons_iff.1 h
  obtain ⟨c, l₃, rfl, hc, h⟩ := List.map_eq_cons_iff.1 h
  obtain ⟨d, l₄, rfl, hd, -⟩ := List.map_eq_cons_iff.1 h
  have hsplit : ws ++ rest = [a, b, c] ++ d :: (l₄ ++ (ws ++ rest).drop 5) := by
    conv => lhs; rw [← List.take_append_drop 5 (ws ++ rest), htake]
    simp
  have hletters : ∀ x ∈ [a, b, c], isWordChar x = true := by
    intro x hx
    simp only [List.mem_cons, List.not_mem_nil, or_false] at hx
    apply isWordChar_of_isWordStart
    rcases hx with rfl | rfl | rfl
    · exact isWordStart_of_toLower (by decide) ha
    · exact isWordStart_of_toLower (by decide) hb
    · exact isWordStart_of_toLower (by decide) hc
  have hparen : d = '(' := eq_of_toLower (by decide) hd
  have := blank_of_append_eq hws hrest hsplit hletters (by rw [hparen]; decide)
  rw [hparen] at this
  exact absurd this (by decide)

theorem hasDateShape_eq {cs : List Char} (h : hasDateShape cs = true) :
    ∃ a b c d e f g i, cs = [a, b, c, d, '-', e, f, '-', g, i] ∧
      ∀ x ∈ [a, b, c, d, e, f, g, i], x.isDigit = true := by
  unfold hasDateShape at h
  split at h
  · exact ⟨_, _, _, _, _, _, _, _, rfl, List.all_eq_true.1 h⟩
  · cases h

/-- A date is not found where a word ends with a blank. -/
theorem date?_word {ws rest : List Char} (hws : ∀ c ∈ ws, isWordChar c = true)
    (hrest : Piece.Ended rest) : date? (ws ++ rest) = none := by
  have hshape : hasDateShape ((ws ++ rest).take 10) = false := by
    cases hshape : hasDateShape ((ws ++ rest).take 10) with
    | false => rfl
    | true =>
      obtain ⟨a, b, c, d, e, f, g, i, htake, hdigits⟩ := hasDateShape_eq hshape
      have hsplit : ws ++ rest =
          [a, b, c, d] ++ '-' :: ([e, f, '-', g, i] ++ (ws ++ rest).drop 10) := by
        conv => lhs; rw [← List.take_append_drop 10 (ws ++ rest), htake]
        simp
      have hyear : ∀ x ∈ [a, b, c, d], isWordChar x = true := fun x hx =>
        isWordChar_of_isDigit (hdigits x (List.mem_append_left [e, f, g, i] hx))
      have := blank_of_append_eq hws hrest hsplit hyear (by decide)
      exact absurd this (by decide)
  unfold date?
  simp only [hshape, Bool.false_and]
  rfl

/-- A number is not found where a word begins with no digit. -/
theorem number?_word {c : Char} {cs : List Char} (h : Ordinary c) (hdigit : c.isDigit = false) :
    number? (c :: cs) = none := by
  have hmark := h.mark
  simp only [List.mem_cons, List.not_mem_nil, or_false, not_or] at hmark
  have hnumeral : numeral (c :: cs) = [] := by
    unfold numeral
    rw [List.takeWhile_cons_of_neg (by rw [hdigit]; exact Bool.false_ne_true),
      List.dropWhile_cons_of_neg (by rw [hdigit]; exact Bool.false_ne_true)]
    split
    · simp_all
    · rfl
  unfold number?
  split
  · next heq =>
    split at heq
    · simp_all
    · obtain ⟨-, rfl⟩ := Prod.mk.inj heq
      rw [hnumeral]

theorem word?_word {c : Char} {cs rest : List Char} (hstart : isWordStart c = true)
    (hcs : ∀ d ∈ cs, isWordChar d = true) (hrest : Piece.Ended rest) {k : Keyword}
    (hk : Keyword.ofWord? (String.ofList (c :: cs)) = some k) :
    Finds (word? (c :: cs ++ rest)) (.keyword k) (c :: cs) (c :: cs).length := by
  have hrun : (cs ++ rest).takeWhile isWordChar = cs := by
    rw [List.takeWhile_append_of_pos hcs]
    rcases hrest.cases with rfl | ⟨r, rfl⟩
    · simp
    · rw [List.takeWhile_cons_of_neg (by decide), List.append_nil]
  rw [List.cons_append, word?, if_pos hstart]
  refine ⟨_, rfl, ?_, ?_, ?_⟩
  · simp only [hrun, hk]
  · simp only [hrun]
  · simp only [hrun, List.length_cons]

theorem ordinary_of_isDigit {c : Char} (h : c.isDigit = true) : Ordinary c := by
  have hbounds := isDigit_bounds h
  refine ordinary_of_isWordStart (isBlank_of_ascii (by omega) (by omega)) ?_
  rw [isWordStart, h, Bool.or_true]

/-- A row of digits is found as a number where a blank follows. -/
theorem number?_digits {d : Char} {ds rest : List Char}
    (hdigits : ∀ c ∈ d :: ds, c.isDigit = true) (hrest : Piece.Ended rest) :
    Finds (number? (d :: ds ++ rest)) .number (d :: ds) (d :: ds).length := by
  have hmark := (ordinary_of_isDigit (hdigits d List.mem_cons_self)).mark
  simp only [List.mem_cons, List.not_mem_nil, or_false, not_or] at hmark
  have hnumeral : numeral (d :: ds ++ rest) = d :: ds := by
    unfold numeral
    rw [List.takeWhile_append_of_pos hdigits, List.dropWhile_append_of_pos hdigits]
    rcases hrest.cases with rfl | ⟨r, rfl⟩
    · simp
    · rw [List.takeWhile_cons_of_neg (by decide), List.dropWhile_cons_of_neg (by decide)]
      simp
  have hend : startsInWord rest = false := by
    rcases hrest.cases with rfl | ⟨r, rfl⟩
    · rfl
    · exact (by decide : isWordChar ' ' = false)
  have hcondition :
      (d.isDigit && !startsInWord ((d :: ds ++ rest).drop (ds.length + 1))) = true := by
    rw [hdigits d List.mem_cons_self, List.cons_append, List.drop_succ_cons, List.drop_left, hend]
    rfl
  unfold number?
  split
  · next heq =>
    split at heq
    · simp_all
    · obtain ⟨rfl, rfl⟩ := Prod.mk.inj heq
      simp only [hnumeral]
      rw [if_pos hcondition]
      exact ⟨_, rfl, rfl, rfl, by simp⟩

end Lexeme

namespace Piece

/-- A keyword is clear. -/
theorem clear_word {k : Keyword} {text : String} (h : k.isSpelled text = true) :
    (plain text).Clear ∧ (plain text).kind = .keyword k := by
  simp only [Keyword.isSpelled, Bool.and_eq_true, beq_iff_eq] at h
  obtain ⟨hk, h⟩ := h
  split at h
  · cases h
  · next c cs hlist =>
    simp only [Bool.and_eq_true, Bool.not_eq_true', List.all_eq_true] at h
    obtain ⟨⟨⟨hblank, hstart⟩, hdigit⟩, hcs⟩ := h
    have hordinary := Lexeme.ordinary_of_isWordStart hblank hstart
    have hword : ∀ d ∈ c :: cs, Text.isWordChar d = true := by
      intro d hd
      rcases List.mem_cons.1 hd with rfl | hd
      · exact Text.isWordChar_of_isWordStart hstart
      · exact hcs d hd
    refine clear_plain (by simp) ⟨c, cs, hlist, hblank⟩ fun rest hrest => ?_
    rw [hlist]
    refine Lexeme.finds_first?
      (Lexeme.rules.take 7 ++ [Lexeme.now?, Lexeme.date?, Lexeme.number?]) rfl ?_
      (Lexeme.word?_word hstart hcs hrest (by rwa [← hlist, String.ofList_toList]))
    intro r hr
    rcases List.mem_append.1 hr with hr | hr
    · exact Lexeme.rules_ordinary hordinary _ r hr
    · simp only [List.mem_cons, List.not_mem_nil, or_false] at hr
      rcases hr with rfl | rfl | rfl
      · exact Lexeme.now?_word hword hrest
      · exact Lexeme.date?_word hword hrest
      · exact Lexeme.number?_word hordinary hdigit

/-- Every keyword is clear in capital letters. -/
theorem clear_keyword (k : Keyword) :
    (plain k.capitals).Clear ∧ (plain k.capitals).kind = .keyword k :=
  clear_word (by cases k <;> decide +kernel)

theorem keyword_ne {k : Keyword} {kind : TokenKind} (h : kind ≠ .keyword k) :
    some (plain k.capitals).kind ≠ some kind := by
  rw [(clear_keyword k).2]
  exact fun heq => h (Option.some.inj heq).symm

/-- A numeral is clear. -/
theorem clear_numeral (n : Nat) :
    (plain (toString n)).Clear ∧ (plain (toString n)).kind = .number := by
  obtain ⟨d, ds, hlist⟩ := List.exists_cons_of_ne_nil (Nat.toDigits_ne_nil (b := 10) (n := n))
  have hdigits : ∀ c ∈ d :: ds, c.isDigit = true := by
    rw [← hlist]
    exact fun c hc => Nat.isDigit_of_mem_toDigits (by decide) (by decide) hc
  have hordinary := Lexeme.ordinary_of_isDigit (hdigits d List.mem_cons_self)
  have hword : ∀ c ∈ d :: ds, Text.isWordChar c = true := fun c hc =>
    Text.isWordChar_of_isDigit (hdigits c hc)
  have htext : (toString n).toList = d :: ds := by
    rw [Nat.toString_eq_repr, Nat.toList_repr, hlist]
  refine clear_plain (by decide) ⟨d, ds, htext, hordinary.blank⟩ fun rest hrest => ?_
  rw [htext]
  refine Lexeme.finds_first? (Lexeme.rules.take 7 ++ [Lexeme.now?, Lexeme.date?]) rfl ?_
    (Lexeme.number?_digits hdigits hrest)
  intro r hr
  rcases List.mem_append.1 hr with hr | hr
  · exact Lexeme.rules_ordinary hordinary _ r hr
  · simp only [List.mem_cons, List.not_mem_nil, or_false] at hr
    rcases hr with rfl | rfl
    · exact Lexeme.now?_word hword hrest
    · exact Lexeme.date?_word hword hrest

/-! ### Marks and `NOW()` -/

/-- The marks that are printed, with their kinds. -/
def marks : List (String × TokenKind) :=
  [(";", .semicolon), (",", .comma), ("(", .lparen), (")", .rparen), ("*", .star), (".", .period),
   ("=", .eq), ("<>", .ne), ("<", .lt), (">", .gt), ("<=", .le), (">=", .ge)]

theorem mark_found : ∀ m ∈ marks, ∀ rest, Ended rest →
    m.2 ≠ .space ∧ (∃ c cs, m.1.toList = c :: cs ∧ Text.isBlank c = false) ∧
      (∀ r ∈ Lexeme.rules.take 2, r (m.1.toList ++ rest) = none) ∧
      Lexeme.Finds (Lexeme.mark? (m.1.toList ++ rest)) m.2 m.1.toList m.1.toList.length := by
  intro m hm rest hrest
  simp only [marks, List.mem_cons, List.not_mem_nil, or_false] at hm
  rcases hm with rfl | rfl | rfl | rfl | rfl | rfl | rfl | rfl | rfl | rfl | rfl | rfl
  all_goals
    refine ⟨by decide, ⟨_, _, rfl, by decide⟩, fun r hr => ?_, ?_⟩
    · simp only [Lexeme.rules, List.take_succ_cons, List.take_zero, List.mem_cons,
        List.not_mem_nil, or_false] at hr
      rcases hr with rfl | rfl <;> rfl
    · rcases hrest.cases with rfl | ⟨r, rfl⟩ <;> exact ⟨_, rfl, rfl, rfl, rfl⟩

/-- A mark is clear. -/
theorem clear_mark {text : String} {k : TokenKind} (h : (text, k) ∈ marks) :
    (plain text).Clear ∧ (plain text).kind = k := by
  obtain ⟨hsolid, hhead, -⟩ := mark_found _ h [] Ended.nil
  refine clear_plain hsolid hhead fun rest hrest => ?_
  obtain ⟨-, -, hbefore, hfound⟩ := mark_found _ h rest hrest
  exact Lexeme.finds_first? (Lexeme.rules.take 2) rfl hbefore hfound

/-- `NOW()` in any case is clear. -/
theorem clear_now {text : String}
    (h : text.toList.map Char.toLower = ['n', 'o', 'w', '(', ')']) :
    (plain text).Clear ∧ (plain text).kind = .now := by
  obtain ⟨c, cs, hlist, hc, htail⟩ := List.map_eq_cons_iff.1 h
  have halpha := Text.isAlpha_of_toLower (by decide) hc
  have hbounds := Text.isAlpha_bounds halpha
  have hordinary : Lexeme.Ordinary c := Lexeme.ordinary_of_isWordStart
    (Text.isBlank_of_ascii (by omega) (by omega))
    (Text.isWordStart_of_isLetter (Text.isLetter_of_isAlpha halpha))
  refine clear_plain (by decide) ⟨c, cs, hlist, hordinary.blank⟩ fun rest _ => ?_
  have hlen : text.toList.length = 5 := by
    have := congrArg List.length h
    rwa [List.length_map] at this
  have htake : (text.toList ++ rest).take 5 = text.toList := by
    rw [← hlen, List.take_left]
  refine Lexeme.finds_first? (Lexeme.rules.take 7) rfl ?_ ?_
  · rw [hlist]
    exact Lexeme.rules_ordinary hordinary _
  · rw [Lexeme.now?, htake, if_pos h]
    exact ⟨_, rfl, rfl, rfl, hlen.symm⟩

end Piece

/-! ### Scanning pieces -/

namespace Token

open Piece

/-- A clear piece is the next token. -/
theorem scanFrom_clear {p : Piece} (h : p.Clear) {rest : List Char} (hrest : Ended rest)
    (position : Nat) :
    scanFrom position (p.text.toList ++ rest) =
      (scanFrom (position + p.text.toList.length) rest >>= fun tokens =>
        .ok (⟨p.kind, p.lexeme, position⟩ :: tokens)) := by
  obtain ⟨c, cs, hlist, -⟩ := h.head
  obtain ⟨l, hfirst, hkind, htext, hwidth⟩ := h.first rest hrest
  rw [hlist, List.cons_append] at hfirst ⊢
  rw [scanFrom, hfirst]
  dsimp only
  rw [hwidth, htext, hkind, String.ofList_toList, ← List.cons_append, ← hlist, List.drop_left]
  rfl

/-- One blank before what is not blank is a space. -/
theorem scanFrom_blank {c : Char} {cs : List Char} (hc : Text.isBlank c = false) (position : Nat) :
    scanFrom position (' ' :: c :: cs) =
      (scanFrom (position + 1) (c :: cs) >>= fun tokens =>
        .ok (⟨.space, " ", position⟩ :: tokens)) := by
  have hfirst : Lexeme.first? (' ' :: c :: cs) = Lexeme.space? (' ' :: c :: cs) := rfl
  have hspace : Lexeme.space? (' ' :: c :: cs) = some ⟨.space, [' '], 1, by omega⟩ := by
    rw [Lexeme.space?, if_pos (by decide)]
    simp only [List.takeWhile_cons_of_neg (by rw [hc]; exact Bool.false_ne_true : ¬ Text.isBlank c)]
    rfl
  rw [scanFrom, hfirst, hspace]
  rfl

theorem chars_cons_cons (p q : Piece) (rest : List Piece) :
    chars (p :: q :: rest) = p.text.toList ++ ' ' :: chars (q :: rest) := rfl

/-- Clear pieces with blanks between them are scanned to their tokens. -/
theorem scan_chars (ps : List Piece) :
    ∀ (position : Nat), (∀ p ∈ ps, p.Clear) →
      ∃ tokens, scanFrom position (chars ps) = .ok tokens ∧ Spell ps (withoutSpaces tokens) := by
  induction ps with
  | nil => intro position _; exact ⟨[], by rw [chars, scanFrom], .nil⟩
  | cons p rest ih =>
    intro position hclear
    have hp := hclear p List.mem_cons_self
    have hkept (tokens : List Token) :
        withoutSpaces (⟨p.kind, p.lexeme, position⟩ :: tokens) =
          ⟨p.kind, p.lexeme, position⟩ :: withoutSpaces tokens := by
      rw [withoutSpaces, List.filter_cons_of_pos (by simpa using hp.solid)]
      rfl
    cases rest with
    | nil =>
      have hend : scanFrom (position + p.text.toList.length) [] = .ok [] := by rw [scanFrom]
      have hscan := scanFrom_clear hp Ended.nil position
      rw [List.append_nil, hend, ok_bind] at hscan
      refine ⟨_, hscan, ?_⟩
      rw [hkept]
      exact .cons ⟨rfl, rfl⟩ .nil
    | cons q rest =>
      obtain ⟨c, cs, hlist, hblank⟩ := (hclear q (by simp)).head
      obtain ⟨tail, htail⟩ : ∃ tail, chars (q :: rest) = c :: tail := by
        cases rest with
        | nil => exact ⟨cs, hlist⟩
        | cons r rest =>
          exact ⟨cs ++ ' ' :: chars (r :: rest), congrArg (· ++ ' ' :: chars (r :: rest)) hlist⟩
      obtain ⟨tokens, htokens, hspell⟩ := ih (position + p.text.toList.length + 1)
        fun q hq => hclear q (List.mem_cons_of_mem _ hq)
      refine ⟨⟨p.kind, p.lexeme, position⟩ ::
        ⟨.space, " ", position + p.text.toList.length⟩ :: tokens, ?_, ?_⟩
      · rw [chars_cons_cons, scanFrom_clear hp (Ended.blank _), htail,
          scanFrom_blank hblank, ← htail, htokens]
        rfl
      · rw [hkept, withoutSpaces, List.filter_cons_of_neg (by simp)]
        exact .cons ⟨rfl, rfl⟩ hspell

end Token

end Tabula
