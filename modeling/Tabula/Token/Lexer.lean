import Tabula.Calendar.Notation
import Tabula.Fault
import Tabula.Text.Letter
import Tabula.Token

/-!
# From text to tokens

At each character the rules of `Lexeme.rules` are tried in order, and the first that applies gives
the next token and its width.  `Token.scan` repeats this to the end of the text; where no rule
applies, the text is refused with the place and what is left of it.

Main statement: a rule that applies reads at least one character (the field `width_pos`), so the
scan ends.
-/

namespace Tabula

/-- What a rule found at the beginning of a text: a kind, the characters the token stands for, and
how many characters it takes up. -/
structure Lexeme where
  kind : TokenKind
  text : List Char
  width : Nat
  width_pos : 0 < width

namespace Lexeme

/-- Recognises one kind of token at the beginning of a text. -/
abbrev Rule := List Char → Option Lexeme

/-- Whether a text goes on with a character of a word. -/
def startsInWord : List Char → Bool
  | [] => false
  | c :: _ => Text.isWordChar c

/-- Blanks in a row. -/
def space? : Rule
  | [] => none
  | c :: rest =>
    if Text.isBlank c then
      some ⟨.space, [' '], (rest.takeWhile Text.isBlank).length + 1, by omega⟩
    else none

/-- Two hyphens and the rest of the line. -/
def comment? : Rule
  | '-' :: '-' :: rest => some ⟨.space, [' '], (rest.takeWhile (· != '\n')).length + 2, by omega⟩
  | _ => none

/-- A mark of one or two characters. -/
def mark? : Rule
  | '<' :: '=' :: _ => some ⟨.le, ['<', '='], 2, by omega⟩
  | '<' :: '>' :: _ => some ⟨.ne, ['<', '>'], 2, by omega⟩
  | '>' :: '=' :: _ => some ⟨.ge, ['>', '='], 2, by omega⟩
  | '!' :: '=' :: _ => some ⟨.ne, ['!', '='], 2, by omega⟩
  | c :: _ =>
    let kind : Option TokenKind := match c with
      | ';' => some .semicolon
      | ',' => some .comma
      | '(' => some .lparen
      | ')' => some .rparen
      | '*' => some .star
      | '.' => some .period
      | '=' => some .eq
      | '<' => some .lt
      | '>' => some .gt
      | _ => none
    kind.map fun k => ⟨k, [c], 1, by omega⟩
  | [] => none

/-- The text up to a closing quote, and how many characters that is with the closing quote.  A quote
written twice stands for itself. -/
def quotedText? (quote : Char) : List Char → Option (List Char × Nat)
  | [] => none
  | [c] => if c = quote then some ([], 1) else none
  | c :: d :: rest =>
    if c = quote then
      if d = quote then (quotedText? quote rest).map fun (text, n) => (quote :: text, n + 2)
      else some ([], 1)
    else (quotedText? quote (d :: rest)).map fun (text, n) => (c :: text, n + 1)

/-- A text between quotes. -/
def quoted? (quote : Char) (kind : TokenKind) : Rule
  | [] => none
  | c :: rest =>
    if c = quote then
      (quotedText? quote rest).map fun (text, n) => ⟨kind, text, n + 1, by omega⟩
    else none

/-- The text up to two dollars. -/
def dollarText? : List Char → Option (List Char)
  | [] => none
  | c :: rest =>
    if c = '$' && rest.head? = some '$' then some []
    else (dollarText? rest).map (c :: ·)

/-- What a text between dollars stands for: a number or a date if it reads as one. -/
def dollarKind (text : List Char) : TokenKind :=
  if (Number.Decimal.read? (Text.trim text)).isSome then .number
  else if (Calendar.Moment.read? text).isSome then .date
  else .string

/-- A text between doubled dollars. -/
def dollar? : Rule
  | '$' :: '$' :: rest =>
    (dollarText? rest).map fun text => ⟨dollarKind text, text, text.length + 4, by omega⟩
  | _ => none

/-- `NOW()` in any case. -/
def now? (cs : List Char) : Option Lexeme :=
  if (cs.take 5).map Char.toLower = ['n', 'o', 'w', '(', ')'] then
    some ⟨.now, cs.take 5, 5, by omega⟩
  else none

/-- Whether a text is four digits, two digits and two digits with hyphens between. -/
def hasDateShape : List Char → Bool
  | [a, b, c, d, '-', e, f, '-', g, h] => [a, b, c, d, e, f, g, h].all Char.isDigit
  | _ => false

/-- A day of the calendar, if no word goes on from it. -/
def date? (cs : List Char) : Option Lexeme :=
  let text := cs.take 10
  if hasDateShape text && !startsInWord (cs.drop 10) && (Calendar.Moment.read? text).isSome then
    some ⟨.date, text, 10, by omega⟩
  else none

/-- Digits with at most one point between them. -/
def numeral (cs : List Char) : List Char :=
  let whole := cs.takeWhile Char.isDigit
  match cs.dropWhile Char.isDigit with
  | '.' :: d :: rest =>
    if d.isDigit then whole ++ '.' :: (d :: rest).takeWhile Char.isDigit else whole
  | _ => whole

/-- A number that begins with a digit or a hyphen and a digit, if no word goes on from it. -/
def number? (cs : List Char) : Option Lexeme :=
  let (sign, rest) := match cs with
    | '-' :: r => (['-'], r)
    | r => ([], r)
  match numeral rest with
  | [] => none
  | d :: ds =>
    if d.isDigit && !startsInWord (rest.drop (ds.length + 1)) then
      some ⟨.number, sign ++ d :: ds, sign.length + ds.length + 1, Nat.succ_pos _⟩
    else none

/-- A keyword or a name.  A word that begins with a digit is a name too. -/
def word? : Rule
  | [] => none
  | c :: rest =>
    if Text.isWordStart c then
      let text := c :: rest.takeWhile Text.isWordChar
      let kind := match Keyword.ofWord? (String.ofList text) with
        | some k => .keyword k
        | none => .identifier
      some ⟨kind, text, (rest.takeWhile Text.isWordChar).length + 1, by omega⟩
    else none

/-- The rules in the order in which they are tried. -/
def rules : List Rule :=
  [space?, comment?, mark?, quoted? '\x27' .string, quoted? '"' .quotedIdent,
   quoted? '\x60' .quotedIdent, dollar?, now?, date?, number?, word?]

/-- What the first rule that applies finds at the beginning of a text. -/
def first? (cs : List Char) : Option Lexeme :=
  rules.findSome? (· cs)

end Lexeme

namespace Token

/-- The tokens of a text that begins at a position. -/
def scanFrom (position : Nat) (cs : List Char) : Except Fault (List Token) :=
  match cs with
  | [] => .ok []
  | c :: rest =>
    match Lexeme.first? (c :: rest) with
    | none => .error (.unlexable position (String.ofList (c :: rest)))
    | some l => do
      let tokens ← scanFrom (position + l.width) ((c :: rest).drop l.width)
      return ⟨l.kind, String.ofList l.text, position⟩ :: tokens
termination_by cs.length
decreasing_by
  have := l.width_pos
  simp only [List.length_drop, List.length_cons]
  omega

/-- The tokens of a text, spaces included. -/
def scan (text : String) : Except Fault (List Token) :=
  scanFrom 0 text.toList

end Token

end Tabula
