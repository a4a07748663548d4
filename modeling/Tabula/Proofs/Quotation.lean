import Mathlib
import Tabula.Proofs.Atomicity
import Tabula.Proofs.Concatenation
import Tabula.Proofs.Filtering
import Tabula.Proofs.Insertion
import Tabula.Proofs.Typing

/-!
# Quoted texts are data

A text between quotes, with every quote in it written twice, is one token whatever its characters
are, and what a column of texts holds for it is the text itself.

* `Token.Reads`: characters that are read as tokens of given kinds and texts, one lemma for each way
  to go on.
* `Statement.parse_insertText`, `Statement.parse_selectText`, `Statement.parse_deleteText`: what
  three statements are read as, whatever the names and the text.
* `Catalog.Reachable.keeps_text`: the text that was inserted is selected, and deleted by itself.
-/

namespace Tabula

/-! ## Algorithm -/

/-- A word that is one token, and that a name. -/
def PlainName (name : String) : Prop :=
  Token.scan name = .ok [⟨.identifier, name, 0⟩]

instance (name : String) : Decidable (PlainName name) :=
  inferInstanceAs (Decidable (Token.scan name = .ok [⟨.identifier, name, 0⟩]))

/-- Inserts into one column what a value is written as. -/
def insertInto (table column value : String) : String :=
  "INSERT INTO " ++ table ++ " (" ++ column ++ ") VALUES (" ++ value ++ ")"

/-- Inserts a text into one column. -/
def insertText (table column s : String) : String :=
  insertInto table column (Text.quoted '\x27' s)

/-- Selects one column of all rows. -/
def selectText (table column : String) : String :=
  "SELECT " ++ column ++ " FROM " ++ table

/-- Deletes the rows that have a text in one column. -/
def deleteText (table column s : String) : String :=
  "DELETE FROM " ++ table ++ " WHERE " ++ column ++ " = " ++ Text.quoted '\x27' s

/-- What the reader of statements looks at in a token. -/
def Token.part (t : Token) : TokenKind × String :=
  (t.kind, t.lexeme)

/-- Tokens of given kinds and texts, numbered. -/
def Token.numbered (parts : List (TokenKind × String)) : List Token :=
  parts.zipIdx.map fun ((kind, lexeme), i) => ⟨kind, lexeme, i⟩

/-- Characters that are scanned to tokens of given kinds and texts, spaces left out, wherever they
stand. -/
def Token.Reads (cs : List Char) (parts : List (TokenKind × String)) : Prop :=
  ∀ position, ∃ tokens, scanFrom position cs = .ok tokens ∧
    (withoutSpaces tokens).map part = parts

/-- A column that takes whatever its type stores. -/
structure Column.Free (a : Column) : Prop where
  unnumbered : a.autoIncrement = false
  repeatable : a.unique = false
  nullable : a.notNull = false
  default : a.default = none

/-- All columns are free, and the one of a name and place stores texts. -/
structure Table.HasText (t : Table) (k : Nat) (column : String) : Prop where
  free : ∀ a ∈ t.columns, a.Free
  column : ∃ a, t.columns[k]? = some a ∧ a.name = column ∧ a.columnType = .text

/-- The row with a value in one column, and nothing in the others. -/
def Table.soleRow (t : Table) (column : String) (v : Value) : Row :=
  t.columns.map fun a => if a.name = column then v else .null

/-- The row with a text in one column. -/
def Table.textRow (t : Table) (column s : String) : Row :=
  t.soleRow column (.text s)

/-! ## Lemmas -/

/-! ### Names -/

namespace Lexeme

theorem dollarKind_ne_identifier (text : List Char) : dollarKind text ≠ .identifier := by
  unfold dollarKind
  split
  · simp
  · split <;> simp

theorem unsigned?_kind {sign rest : List Char} {l : Lexeme} (h : unsigned? sign rest = some l) :
    l.kind = .number := by
  unfold unsigned? at h
  split at h
  · cases h
  · split at h <;> cases h
    rfl

/-- A name without quotes is found by the rule of words. -/
theorem word?_of_identifier {cs : List Char} {l : Lexeme} (h : first? cs = some l)
    (hkind : l.kind = .identifier) : word? cs = some l := by
  obtain ⟨rule, hrule, hl⟩ := List.exists_of_findSome?_eq_some h
  simp only [rules, List.mem_cons, List.not_mem_nil, or_false] at hrule
  rcases hrule with rfl | rfl | rfl | rfl | rfl | rfl | rfl | rfl | rfl | rfl | rfl
  · unfold space? at hl
    split at hl
    · cases hl
    · split at hl <;> cases hl
      cases hkind
  · obtain ⟨-, rest, rfl⟩ := comment?_eq_some hl
    rw [comment?_hyphens] at hl
    obtain rfl := Option.some.inj hl
    cases hkind
  · unfold mark? at hl
    split at hl
    case h_5 =>
      obtain ⟨kind, hkind', rfl⟩ := Option.map_eq_some_iff.1 hl
      split at hkind' <;> cases hkind' <;> cases hkind
    case h_6 => cases hl
    all_goals
      obtain rfl := Option.some.inj hl
      cases hkind
  iterate 3
    · unfold quoted? at hl
      split at hl
      · cases hl
      · split at hl
        · obtain ⟨p, -, rfl⟩ := Option.map_eq_some_iff.1 hl
          cases hkind
        · cases hl
  · obtain ⟨rest, text, hwidth, -, -, rfl⟩ := dollar?_eq_some hl
    exact absurd hkind (dollarKind_ne_identifier text)
  · unfold now? at hl
    split at hl <;> cases hl
    cases hkind
  · unfold date? at hl
    dsimp only at hl
    split at hl <;> cases hl
    cases hkind
  · by_cases hhead : cs.head? = some '-'
    · obtain ⟨rest, rfl⟩ := List.head?_eq_some_iff.1 hhead
      exact absurd (hkind.symm.trans (unsigned?_kind hl)) (by decide)
    · rw [number?_unsigned hhead] at hl
      exact absurd (hkind.symm.trans (unsigned?_kind hl)) (by decide)
  · exact hl

theorem word?_chars {cs : List Char} {l : Lexeme} (h : word? cs = some l)
    (hwidth : l.width = cs.length) : l.text = cs ∧ ∀ c ∈ cs, Text.isWordChar c = true := by
  cases cs with
  | nil => cases h
  | cons c rest =>
    unfold word? at h
    dsimp only at h
    split at h
    · next hc =>
      obtain rfl := Option.some.inj h
      have hall : rest.takeWhile Text.isWordChar = rest := by
        refine (List.takeWhile_prefix _).eq_of_length ?_
        simpa using hwidth
      refine ⟨congrArg (c :: ·) hall, fun d hd => ?_⟩
      rcases List.mem_cons.1 hd with rfl | hd
      · exact Text.isWordChar_of_isWordStart hc
      · exact List.takeWhile_eq_self_iff.1 hall d hd
    · cases h

end Lexeme

open Lexeme

theorem Token.scanFrom_eq_nil {position : Nat} {cs : List Char}
    (h : scanFrom position cs = .ok []) : cs = [] := by
  cases scanFrom_tiles position cs h
  rfl

/-- The characters of a name are found as a name, and are characters of words. -/
theorem PlainName.finds {name : String} (h : PlainName name) :
    Finds (first? name.toList) .identifier name.toList name.toList.length ∧
      ∀ c ∈ name.toList, Text.isWordChar c = true := by
  have hscan : Token.scanFrom 0 name.toList = .ok [⟨.identifier, name, 0⟩] := h
  obtain ⟨l, hfirst⟩ : ∃ l, first? name.toList = some l := by
    cases hcs : name.toList with
    | nil =>
      rw [hcs, Token.scanFrom] at hscan
      cases hscan
    | cons c rest =>
      cases hfirst : first? (c :: rest) with
      | some l => exact ⟨l, rfl⟩
      | none =>
        rw [hcs, Token.scanFrom, hfirst] at hscan
        cases hscan
  rw [Token.scanFrom_of_first? hfirst] at hscan
  obtain ⟨later, hlater, heq⟩ := bind_eq_ok.1 hscan
  obtain ⟨htoken, rfl⟩ := List.cons.inj (Except.ok.inj heq)
  have hkind : l.kind = .identifier := congrArg Token.kind htoken
  have hwidth : l.width = name.toList.length := by
    have hleft := List.drop_eq_nil_iff.1 (Token.scanFrom_eq_nil hlater)
    have hfits := (first?_exact hfirst).fits
    omega
  obtain ⟨htext, hchars⟩ := word?_chars (word?_of_identifier hfirst hkind) hwidth
  exact ⟨⟨l, hfirst, hkind, htext, hwidth⟩, hchars⟩

/-! ### Reading token by token -/

/-- What a text alone is found to be, it is before a blank or a closing parenthesis. -/
theorem Lexeme.Finds.append {w : List Char} {kind : TokenKind} {text : List Char} {d : Char}
    (h : Finds (first? w) kind text w.length) (hkind : kind ≠ .space) (hd : d ∈ separators)
    (hparen : d = ')' → w.getLast? ≠ some '(') (rest : List Char) :
    Finds (first? (w ++ d :: rest)) kind text w.length := by
  obtain ⟨l, hl, rfl, rfl, hwidth⟩ := h
  exact ⟨l, first?_append hd hparen hl (fun hspace => absurd hspace hkind) rest, rfl, rfl, hwidth⟩

theorem Keyword.finds (k : Keyword) :
    Finds (first? k.capitals.toList) (.keyword k) k.capitals.toList k.capitals.toList.length := by
  obtain ⟨hclear, hkind⟩ := Piece.clear_keyword k
  have hfinds := hclear.first [] Piece.Ended.nil
  rw [List.append_nil, hkind] at hfinds
  exact hfinds

theorem Text.finds_quoted (s : String) :
    Finds (first? (quoted '\x27' s).toList) .string s.toList (quoted '\x27' s).toList.length := by
  have hfinds := (Piece.clear_string s).first [] Piece.Ended.nil
  rw [List.append_nil] at hfinds
  exact hfinds

namespace Token.Reads

variable {cs w rest : List Char} {parts : List (TokenKind × String)}

theorem nil : Reads [] [] :=
  fun _ => ⟨[], by rw [scanFrom], rfl⟩

/-- A token is read, then what comes after it. -/
theorem cons {kind : TokenKind} {text : String}
    (hw : Finds (first? (w ++ rest)) kind text.toList w.length) (hkind : kind ≠ .space)
    (h : Reads rest parts) : Reads (w ++ rest) ((kind, text) :: parts) := by
  intro position
  obtain ⟨l, hl, rfl, htext, hwidth⟩ := hw
  obtain ⟨tokens, htokens, hparts⟩ := h (position + l.width)
  refine ⟨⟨l.kind, text, position⟩ :: tokens, ?_, ?_⟩
  · rw [scanFrom_of_first? hl, hwidth, List.drop_left, ← hwidth, htokens, htext,
      String.ofList_toList]
    rfl
  · rw [withoutSpaces_cons, if_neg hkind, List.map_cons, hparts]
    rfl

/-- A blank is left out, whatever comes after it. -/
theorem blank (h : Reads rest parts) : Reads (' ' :: rest) parts := by
  have hrun (cs : List Char) {c : Char} (hc : Text.isBlank c = true) : first? (c :: cs) =
      some ⟨.space, [' '], (cs.takeWhile Text.isBlank).length + 1, by omega⟩ := by
    rw [first?_blank hc, space?, if_pos hc]
  intro position
  obtain ⟨tokens, htokens, hparts⟩ := h (position + 1)
  rw [scanFrom_of_first? (hrun rest (by decide))]
  dsimp only
  rw [List.drop_succ_cons]
  by_cases hblank : ∃ c cs, rest = c :: cs ∧ Text.isBlank c = true
  · -- the blank belongs to the space that comes after it
    obtain ⟨c, cs, rfl, hc⟩ := hblank
    rw [scanFrom_of_first? (hrun cs hc)] at htokens
    obtain ⟨others, hothers, heq⟩ := bind_eq_ok.1 htokens
    obtain rfl := Except.ok.inj heq
    dsimp only at hothers
    refine ⟨⟨.space, " ", position⟩ :: others, ?_, hparts⟩
    rw [List.takeWhile_cons_of_pos hc, List.length_cons, ← Nat.add_assoc, Nat.add_right_comm]
    rw [← Nat.add_assoc] at hothers
    exact bind_eq_ok.2 ⟨others, hothers, rfl⟩
  · have hnone : rest.takeWhile Text.isBlank = [] := by
      cases rest with
      | nil => rfl
      | cons c cs => exact List.takeWhile_cons_of_neg fun hc => hblank ⟨c, cs, rfl, hc⟩
    refine ⟨⟨.space, " ", position⟩ :: tokens, ?_, hparts⟩
    rw [hnone, List.length_nil, List.drop_zero, Nat.zero_add, htokens]
    rfl

/-- A token at the end. -/
theorem last {kind : TokenKind} {text : String}
    (hw : Finds (first? w) kind text.toList w.length) (hkind : kind ≠ .space) :
    Reads w [(kind, text)] := by
  rw [← List.append_nil w] at hw ⊢
  rw [List.append_nil w] at hw
  exact cons (by rwa [List.append_nil]) hkind nil

/-- A token before a blank. -/
theorem word {kind : TokenKind} {text : String}
    (hw : Finds (first? w) kind text.toList w.length) (hkind : kind ≠ .space)
    (h : Reads rest parts) : Reads (w ++ ' ' :: rest) ((kind, text) :: parts) :=
  cons (hw.append hkind (by decide) (fun heq => absurd heq (by decide)) rest) hkind h.blank

theorem keyword (k : Keyword) (h : Reads rest parts) :
    Reads (k.capitals.toList ++ ' ' :: rest) ((.keyword k, k.capitals) :: parts) :=
  word k.finds (by simp) h

theorem name {s : String} (hs : PlainName s) (h : Reads rest parts) :
    Reads (s.toList ++ ' ' :: rest) ((.identifier, s) :: parts) :=
  word hs.finds.1 (by simp) h

theorem lparen (h : Reads rest parts) : Reads ('(' :: rest) ((.lparen, "(") :: parts) :=
  cons (w := ['(']) ⟨⟨.lparen, ['('], 1, by omega⟩, rfl, rfl, rfl, rfl⟩ (by simp) h

theorem rparen (h : Reads rest parts) : Reads (')' :: rest) ((.rparen, ")") :: parts) :=
  cons (w := [')']) ⟨⟨.rparen, [')'], 1, by omega⟩, rfl, rfl, rfl, rfl⟩ (by simp) h

/-- A token before a closing parenthesis. -/
theorem closed {kind : TokenKind} {text : String}
    (hw : Finds (first? w) kind text.toList w.length) (hkind : kind ≠ .space)
    (hlast : w.getLast? ≠ some '(') (h : Reads rest parts) :
    Reads (w ++ ')' :: rest) ((kind, text) :: (.rparen, ")") :: parts) :=
  cons (hw.append hkind (by decide) (fun _ => hlast) rest) hkind h.rparen

end Token.Reads

/-! ### The three statements -/

namespace Statement

/-- Only the kinds and the texts of tokens count. -/
theorem ofTokens_of_part {parts : List (TokenKind × String)} {statements : List Statement}
    (h : ofTokens (Token.numbered parts) = .ok statements) {tokens : List Token}
    (hparts : tokens.map Token.part = parts) : ofTokens tokens = .ok statements := by
  let f (i : Nat) : Nat := (tokens[i]?.map (·.position)).getD 0
  have hmoved : (Token.numbered parts).map (Token.moved f) = tokens := by
    subst hparts
    apply List.ext_getElem?
    intro i
    simp only [Token.numbered, List.getElem?_map, List.getElem?_zipIdx]
    cases ht : tokens[i]? with
    | none => rfl
    | some t => simp [Token.moved, Token.part, f, ht]
  obtain ⟨rest, hmany⟩ := ofTokens_eq_ok h
  have hagain := Reader.many_moved hmany f
  rw [hmoved] at hagain
  rw [ofTokens, hagain]

theorem parse_of_reads {text : String} {parts : List (TokenKind × String)}
    {statements : List Statement} (h : Token.Reads text.toList parts)
    (hread : ofTokens (Token.numbered parts) = .ok statements) : parse text = .ok statements := by
  obtain ⟨tokens, htokens, hparts⟩ := h 0
  show (Token.scan text >>= fun tokens => ofTokens (Token.withoutSpaces tokens)) = _
  rw [Token.scan, htokens]
  exact ofTokens_of_part hread hparts

variable {table column : String} (htable : PlainName table) (hcolumn : PlainName column)
include htable hcolumn

/-- A value that is one token is read between the parentheses of its row. -/
theorem reads_insertInto {value text : String} {kind : TokenKind}
    (hvalue : Finds (first? value.toList) kind text.toList value.toList.length)
    (hkind : kind ≠ .space) (hlast : value.toList.getLast? ≠ some '(') :
    Token.Reads (insertInto table column value).toList
      [(.keyword .insert, Keyword.insert.capitals), (.keyword .into, Keyword.into.capitals),
        (.identifier, table), (.lparen, "("), (.identifier, column), (.rparen, ")"),
        (.keyword .values, Keyword.values.capitals), (.lparen, "("), (kind, text),
        (.rparen, ")")] := by
  have hname : column.toList.getLast? ≠ some '(' := fun hlast =>
    absurd (hcolumn.finds.2 _ (List.mem_of_getLast? hlast)) (by decide)
  have hchars : (insertInto table column value).toList =
      Keyword.insert.capitals.toList ++ ' ' :: (Keyword.into.capitals.toList ++ ' ' ::
        (table.toList ++ ' ' :: '(' :: (column.toList ++ ')' :: ' ' ::
          (Keyword.values.capitals.toList ++ ' ' :: '(' :: (value.toList ++ [')']))))) := by
    have hinto : "INSERT INTO ".toList = Keyword.insert.capitals.toList ++ ' ' ::
        (Keyword.into.capitals.toList ++ [' ']) := by decide
    have hopen : " (".toList = [' ', '('] := by decide
    have hvalues : ") VALUES (".toList = ')' :: ' ' ::
        (Keyword.values.capitals.toList ++ [' ', '(']) := by decide
    have hclose : ")".toList = [')'] := by decide
    delta insertInto
    simp only [String.toList_append, hinto, hopen, hvalues, hclose, List.append_assoc,
      List.cons_append, List.nil_append]
  have hrow := Token.Reads.closed hcolumn.finds.1 (by simp) hname
    (.blank (.keyword .values (.lparen (.closed hvalue hkind hlast .nil))))
  rw [hchars]
  exact .keyword .insert (.keyword .into (.name htable (.lparen hrow)))

/-- Whatever the text is, its statement inserts it. -/
theorem parse_insertText (s : String) : parse (insertText table column s) =
    .ok [.insert ⟨table, [column], [[⟨.string, s⟩]], none⟩] := by
  have hquoted : (Text.quoted '\x27' s).toList.getLast? ≠ some '(' := by
    rw [Piece.quoted_toList, ← List.cons_append, List.getLast?_concat]
    decide
  have hreads := reads_insertInto htable hcolumn (Text.finds_quoted s) (by simp) hquoted
  refine (parse_of_reads hreads ?_ : parse (insertInto table column (Text.quoted '\x27' s)) = _)
  cbv

theorem parse_selectText : parse (selectText table column) =
    .ok [.select (.ofTable table [.column ⟨none, column⟩] [.always])] := by
  have hchars : (selectText table column).toList =
      Keyword.select.capitals.toList ++ ' ' :: (column.toList ++ ' ' ::
        (Keyword.fromWord.capitals.toList ++ ' ' :: table.toList)) := by
    have hselect : "SELECT ".toList = Keyword.select.capitals.toList ++ [' '] := by decide
    have hfrom : " FROM ".toList = ' ' :: (Keyword.fromWord.capitals.toList ++ [' ']) := by decide
    delta selectText
    simp only [String.toList_append, hselect, hfrom, List.append_assoc,
      List.cons_append, List.nil_append]
  have hreads := Token.Reads.keyword .select (.name hcolumn
    (.keyword .fromWord (.last htable.finds.1 (by simp))))
  rw [← hchars] at hreads
  refine parse_of_reads hreads ?_
  cbv

theorem parse_deleteText (s : String) : parse (deleteText table column s) =
    .ok [.delete ⟨table, [.compare ⟨none, column⟩ .eq ⟨.string, s⟩]⟩] := by
  have hchars : (deleteText table column s).toList =
      Keyword.delete.capitals.toList ++ ' ' :: (Keyword.fromWord.capitals.toList ++ ' ' ::
        (table.toList ++ ' ' :: (Keyword.whereWord.capitals.toList ++ ' ' ::
          (column.toList ++ ' ' :: (['='] ++ ' ' :: (Text.quoted '\x27' s).toList))))) := by
    have hfrom : "DELETE FROM ".toList = Keyword.delete.capitals.toList ++ ' ' ::
        (Keyword.fromWord.capitals.toList ++ [' ']) := by decide
    have hwhere : " WHERE ".toList = ' ' :: (Keyword.whereWord.capitals.toList ++ [' ']) := by
      decide
    have hequals : " = ".toList = [' ', '=', ' '] := by decide
    delta deleteText
    simp only [String.toList_append, hfrom, hwhere, hequals, List.append_assoc,
      List.cons_append, List.nil_append]
  have heq : Finds (first? ['=']) .eq "=".toList 1 :=
    ⟨⟨.eq, ['='], 1, by omega⟩, rfl, rfl, rfl, rfl⟩
  have hcondition := Token.Reads.name hcolumn
    (.word heq (by simp) (.last (Text.finds_quoted s) (by simp)))
  have hreads := Token.Reads.keyword .delete (.keyword .fromWord (.name htable
    (.keyword .whereWord hcondition)))
  rw [← hchars] at hreads
  refine parse_of_reads hreads ?_
  cbv

end Statement

/-! ### Inserting -/

/-- A batch of one statement. -/
theorem Catalog.runBatch_sole {text : String} {s : Statement}
    (h : Statement.parse text = .ok [s]) (clock : Calendar.Clock) (c : Catalog) :
    c.runBatch clock text = s.execute (clock 0) c := by
  rw [runBatch_ok h, Statement.executeAll_cons]
  obtain ⟨next, frames, fault⟩ := s.execute (clock 0) c
  cases fault with
  | none =>
    rw [Outcome.andThen_of_none rfl]
    simp [Statement.executeAll]
  | some f => rfl

namespace Relation

section

variable {now column : String} {r : Relation} {l : Literal} {cs : List Column}

/-- A column without constraints and of another name stays empty. -/
theorem newValue_of_free {a : Column} (ha : a.Free) :
    r.newValue now a (supplied? [column] [l] a.name) =
      if a.name = column then a.coerce now l else .ok .null := by
  unfold newValue
  rw [if_neg (by simp [ha.unnumbered])]
  by_cases hname : a.name = column
  · simp [supplied?, hname]
  · simp [supplied?, hname, Ne.symm hname, Column.defaultValue, ha.default]

theorem newRow_cons_of_free {a : Column} (ha : a.Free) (position : Nat) :
    r.newRow now [column] [l] position (a :: cs) =
      ((if a.name = column then a.coerce now l else .ok .null) >>= fun v =>
        r.newRow now [column] [l] (position + 1) cs >>= fun vs => .ok (v :: vs)) := by
  simp only [newRow, newValue_of_free ha, checkNull, checkKey, ha.nullable, ha.repeatable,
    Bool.false_and, Bool.false_eq_true, if_false, ok_bind]
  rfl

/-- Columns without constraints take what the literal is stored as, and nothing else. -/
theorem newRow_of_free {v : Value} (hfree : ∀ a ∈ cs, a.Free)
    (hcoerce : ∀ a ∈ cs, a.name = column → a.coerce now l = .ok v) :
    ∀ position, r.newRow now [column] [l] position cs =
      .ok (cs.map fun a => if a.name = column then v else .null) := by
  induction cs with
  | nil => intro position; rfl
  | cons a rest ih =>
    intro position
    have hvalue : (if a.name = column then a.coerce now l else .ok .null) =
        .ok (if a.name = column then v else .null) := by
      split
      · next hname => exact hcoerce a List.mem_cons_self hname
      · rfl
    rw [newRow_cons_of_free (hfree a List.mem_cons_self), hvalue,
      ih (fun b hb => hfree b (List.mem_cons_of_mem _ hb))
        fun b hb => hcoerce b (List.mem_cons_of_mem _ hb)]
    rfl

/-- Columns without constraints refuse what the column of the name refuses. -/
theorem newRow_of_refusal {f : Fault} (hfree : ∀ a ∈ cs, a.Free)
    (hcoerce : ∀ a ∈ cs, a.name = column → a.coerce now l = .error f)
    (hmem : ∃ a ∈ cs, a.name = column) :
    ∀ position, r.newRow now [column] [l] position cs = .error f := by
  induction cs with
  | nil => obtain ⟨a, ha, -⟩ := hmem; cases ha
  | cons a rest ih =>
    intro position
    rw [newRow_cons_of_free (hfree a List.mem_cons_self)]
    by_cases hname : a.name = column
    · rw [if_pos hname, hcoerce a List.mem_cons_self hname, error_bind]
    · obtain ⟨b, hb, hb'⟩ := hmem
      have hrest : b ∈ rest := (List.mem_cons.1 hb).resolve_left fun heq => hname (heq ▸ hb')
      rw [if_neg hname, ok_bind, ih (fun b hb => hfree b (List.mem_cons_of_mem _ hb))
        (fun b hb => hcoerce b (List.mem_cons_of_mem _ hb)) ⟨b, hrest, hb'⟩, error_bind]

end

end Relation

/-- No two columns have one name. -/
theorem Table.eq_of_name {t : Table} (hnames : t.columnNames.Nodup) {k : Nat} {a b : Column}
    (ha : t.columns[k]? = some a) (hb : b ∈ t.columns) (hname : b.name = a.name) : b = a := by
  obtain ⟨j, hj⟩ := List.getElem?_of_mem hb
  have hplace := Table.position?_eq_of_nodup hnames hj
  rw [hname, Table.position?_eq_of_nodup hnames ha] at hplace
  obtain rfl := Option.some.inj hplace
  exact Option.some.inj (hj.symm.trans ha)

namespace Table.HasText

variable {t : Table} {k : Nat} {column : String} (h : t.HasText k column)
include h

theorem textRow_getElem? (s : String) : (t.textRow column s)[k]? = some (.text s) := by
  obtain ⟨a, ha, hname, -⟩ := h.column
  rw [Table.textRow, Table.soleRow, List.getElem?_map, ha, Option.map_some, if_pos hname]

variable (hnames : t.columnNames.Nodup)
include hnames

theorem position? : t.position? column = some k := by
  obtain ⟨a, ha, rfl, -⟩ := h.column
  exact Table.position?_eq_of_nodup hnames ha

theorem columnType {a : Column} (ha : a ∈ t.columns) (hname : a.name = column) :
    a.columnType = .text := by
  obtain ⟨b, hb, hb', htype⟩ := h.column
  rw [Table.eq_of_name hnames hb ha (hname.trans hb'.symm), htype]

end Table.HasText

section

variable {c : Catalog} {table column : String} {r : Relation} {k : Nat}

/-- The INSERT of a literal that its column stores appends the row that has the value. -/
theorem Insert.execute_free {times : Times} (hr : c.get? table = some r)
    (hfree : ∀ a ∈ r.table.columns, a.Free) (hk : r.table.position? column = some k)
    {l : Literal} {v : Value}
    (hcoerce : ∀ a ∈ r.table.columns, a.name = column → a.coerce (times 0) l = .ok v) :
    (Statement.insert ⟨table, [column], [[l]], none⟩).execute times c =
      ⟨c.set table { r with rows := r.rows ++ [r.table.soleRow column v] }, [.result 0 1],
        none⟩ := by
  have hrow := Relation.newRow_of_free (r := r) hfree hcoerce 0
  have hrequire : Relation.requireAll r.table [column] = .ok () := by
    rw [Relation.requireAll, Table.require_eq_ok.2 hk]
    rfl
  have hnumbered : r.table.columns.any (·.autoIncrement) = false := by
    rw [List.any_eq_false]
    intro a ha
    rw [(hfree a ha).unnumbered]
    exact Bool.false_ne_true
  have hinsert : r.insert (times 0) [column] [l] none =
      .ok ({ r with rows := r.rows ++ [r.table.soleRow column v] }, ⟨none, none⟩) := by
    rw [Relation.insert_eq, hrequire, ok_bind, hrow]
    simp [Relation.returnedValue, hnumbered, Table.soleRow]
  have hrun : (Insert.insertRows times ⟨table, [column], [[l]], none⟩ 0 [[l]]).run r =
      .ok [⟨none, none⟩] { r with rows := r.rows ++ [r.table.soleRow column v] } := by
    rw [insertRows_run, hinsert]
    rfl
  rw [execute_eq times hr, hrun]
  rfl

/-- The INSERT of a literal that its column refuses changes nothing. -/
theorem Insert.execute_refused {times : Times} (hr : c.get? table = some r)
    (hfree : ∀ a ∈ r.table.columns, a.Free) (hk : r.table.position? column = some k)
    {l : Literal} {f : Fault}
    (hcoerce : ∀ a ∈ r.table.columns, a.name = column → a.coerce (times 0) l = .error f) :
    (Statement.insert ⟨table, [column], [[l]], none⟩).execute times c = ⟨c, [], some f⟩ := by
  have hmem : ∃ a ∈ r.table.columns, a.name = column := by
    obtain ⟨hlt, hname, -⟩ := List.findIdx?_eq_some_iff_getElem.1 hk
    exact ⟨_, List.getElem_mem hlt, beq_iff_eq.1 hname⟩
  have hrow := Relation.newRow_of_refusal (r := r) hfree hcoerce hmem 0
  have hrequire : Relation.requireAll r.table [column] = .ok () := by
    rw [Relation.requireAll, Table.require_eq_ok.2 hk]
    rfl
  have hinsert : r.insert (times 0) [column] [l] none = .error f := by
    rw [Relation.insert_eq, hrequire, ok_bind, hrow, error_bind]
  have hrun : (Insert.insertRows times ⟨table, [column], [[l]], none⟩ 0 [[l]]).run r =
      .error f r := by
    rw [insertRows_run, hinsert]
  rw [execute_eq times hr, hrun]
  dsimp only
  rw [Catalog.set_get hr]

/-- The INSERT of a text appends the row that has the text. -/
theorem Insert.execute_text (times : Times) (hr : c.get? table = some r) (heven : r.Even)
    (h : r.table.HasText k column) (s : String) :
    (Statement.insert ⟨table, [column], [[⟨.string, s⟩]], none⟩).execute times c =
      ⟨c.set table { r with rows := r.rows ++ [r.table.textRow column s] }, [.result 0 1],
        none⟩ :=
  execute_free hr h.free (h.position? heven.names) fun a ha hname => by
    simp [Column.coerce, Literal.isGenerator, h.columnType heven.names ha hname,
      Column.readLexeme?]

/-! ### Selecting and deleting -/

/-- A reference to a column of the only table means the column. -/
theorem Table.place?_source {t : Table} (h : t.position? column = some k) :
    place? [t.source] ⟨none, column⟩ = some (0, k) := by
  have hfind : t.columnNames.findIdx? (· == column) = some k := by
    rw [← h, Table.position?, Table.columnNames, List.findIdx?_map]
    rfl
  have hoffers : t.source.offers ⟨none, column⟩ = true := by
    have hmem : column ∈ t.columnNames := by
      obtain ⟨hlt, hname, -⟩ := List.findIdx?_eq_some_iff_getElem.1 hfind
      rw [← beq_iff_eq.1 hname]
      exact List.getElem_mem hlt
    simp [Source.offers, source, hmem]
  have hsole : [t.source].filter (·.offers ⟨none, column⟩) = [t.source] :=
    List.filter_eq_self.2 fun source hsource => List.mem_singleton.1 hsource ▸ hoffers
  obtain ⟨⟨i, j⟩, hplace⟩ := place?_of_sole hsole
  obtain ⟨source, hsource, hj, -⟩ := place?_eq_some hplace
  rw [List.getElem?_singleton, Option.ite_none_right_eq_some] at hsource
  obtain ⟨rfl, hsame⟩ := hsource
  obtain rfl := Option.some.inj hsame
  rw [hplace, Option.some.inj (hj.symm.trans hfind)]

/-- SELECT of a column shows its values in the rows that meet the conditions. -/
theorem Select.execute_column {times : Times} {conditions : List Condition} {ps : List Predicate}
    (h : c.Finds (times 0) table conditions r ps) (hk : r.table.position? column = some k) :
    (Statement.select (ofTable table [.column ⟨none, column⟩] conditions)).execute times c =
      .ofRows c [column] ((r.rows.filter (r.table.meets (times 0) conditions)).map fun row =>
        row[k]?.toList.map (·.canonical)) := by
  obtain rfl : r.table.name = table := h.name
  have hplace := Table.place?_source hk
  have hnames : ([r.table.source].map (·.name)).Nodup := List.nodup_singleton _
  obtain ⟨found, hfound, hheader, hreads⟩ := Layout.allColumns_covers hnames
    [.column ⟨none, column⟩] (by simp [Answer.isCount]) (by simp [Projection.references, hplace])
  have hanswer : Answer.bind [.column ⟨none, column⟩] [] ⟨[(r.table.name, r.table.columnNames)]⟩ =
      .ok (.cells ⟨[column], found.map (·.1), []⟩) := by
    have hlisted : Source.listed [r.table.source] = [(r.table.name, r.table.columnNames)] := rfl
    have hcolumn : found.map (·.2) = [column] := hheader
    rw [hlisted] at hfound
    simp [Answer.bind, Answer.isCount, Layout.bind, Layout.sortColumns, hfound, hcolumn]
  obtain ⟨kept, hkept, hstands⟩ :=
    Query.records_ofTable h (.cells ⟨[column], found.map (·.1), []⟩) []
  have hproject : ∀ combination record, r.table.Stands combination record →
      Layout.project ⟨[column], found.map (·.1), []⟩ record =
        .ok ([], ((combination.value? [r.table.source] ⟨none, column⟩).toList).map
          (·.canonical)) := by
    intro combination record hrecord
    have hvalues := hreads combination record hrecord.1 hrecord.2
    rw [Layout.project, Layout.values_of_reads hvalues]
    simp [Projection.values]
    rfl
  rw [execute_ofTable h.lookUp hanswer]
  simp only [Query.frames, hkept, Answer.frames, Stage.passAll_nil,
    mapRecords_covers hproject hstands]
  simp [Outcome.ofRows, Function.comp_def, Combination.value?, hplace]

/-- A value of a column of texts equals a text if it is that text. -/
theorem ColumnType.equals_iff {v : Value} (hv : ColumnType.text.Stores v) (s : String) :
    (Operand.value v).equals (.lexeme s) = true ↔ v = .text s := by
  rcases stores_text hv with rfl | ⟨w, rfl⟩
  · simp [Operand.equals, Operand.isNull, Value.isNull]
  · simp [Operand.equals, Operand.isNull, Value.isNull, Operand.text, Value.canonical]

/-- A row meets the condition that a column equals a literal if its value there does. -/
theorem Table.meets_eq {t : Table} (hk : t.position? column = some k) {now : String} {l : Literal}
    (hl : l.isGenerator = false) {row : Row} {v : Value} (hv : row[k]? = some v) :
    t.meets now [.compare ⟨none, column⟩ .eq l] row =
      (Operand.value v).equals (.lexeme l.lexeme) := by
  simp [meets, Condition.meets, Combination.value?, place?_source hk, hv, CompareOp.holds,
    Operand.ofLiteral, Literal.lexemeAt, hl, Operator.holds]

/-- The condition that a column equals a literal is found in its table. -/
theorem Catalog.Reachable.lookUp_eq (hc : c.Reachable) (hr : c.get? table = some r)
    (hk : r.table.position? column = some k) (now : String) (l : Literal) :
    ∃ ps, c.lookUp now table [.compare ⟨none, column⟩ .eq l] = .ok (r, ps) := by
  have hplace := Table.place?_source hk
  have hnames : ([r.table.source].map (·.name)).Nodup := List.nodup_singleton _
  obtain ⟨ps, hps, -⟩ := Predicate.bindAll_covers hnames now
    [.compare ⟨none, column⟩ .eq l] (by simp [Condition.references, hplace])
  have hlisted : Source.listed [r.table.source] = [(table, r.table.columnNames)] := by
    rw [← hc.table_name hr]
    rfl
  refine ⟨ps, ?_⟩
  rw [hlisted] at hps
  rw [Catalog.lookUp, Catalog.get_eq_ok.2 hr, ok_bind, hps]
  rfl

/-- The rows of a table that meet the condition are those that have the text. -/
theorem Relation.Typed.meets_iff (htyped : r.Typed) (heven : r.Even) (h : r.table.HasText k column)
    (now s : String) {row : Row} (hrow : row ∈ r.rows) :
    r.table.meets now [.compare ⟨none, column⟩ .eq ⟨.string, s⟩] row =
      decide (row[k]? = some (.text s)) := by
  obtain ⟨a, ha, hname, htype⟩ := h.column
  have hk : k < row.length := by
    rw [heven.widths row hrow]
    exact (List.getElem?_eq_some_iff.1 ha).1
  have hv := List.getElem?_eq_getElem hk
  have hstores := htyped row hrow k a _ ha (h.free a (List.mem_of_getElem? ha)).unnumbered hv
  rw [htype] at hstores
  rw [Table.meets_eq (h.position? heven.names) rfl hv, hv, Bool.eq_iff_iff, decide_eq_true_eq,
    Option.some_inj, ColumnType.equals_iff hstores]

/-- A DELETE takes out the rows that have the text. -/
theorem Delete.execute_text (hc : c.Reachable) (hr : c.get? table = some r)
    (h : r.table.HasText k column) (times : Times) (s : String) :
    (Statement.delete ⟨table, [.compare ⟨none, column⟩ .eq ⟨.string, s⟩]⟩).execute times c =
      ⟨c.set table { r with rows := r.rows.filter fun row => row[k]? ≠ some (.text s) },
        [.result 0 (r.rows.filter fun row => row[k]? = some (.text s)).length], none⟩ := by
  have heven := hc.even table r hr
  obtain ⟨ps, hlookUp⟩ := hc.lookUp_eq hr (h.position? heven.names) (times 0) ⟨.string, s⟩
  have hmeets (row : Row) (hrow : row ∈ r.rows) :=
    (hc.typed table r hr).meets_iff heven h (times 0) s hrow
  have hkept : (r.rows.filter fun row => !r.table.meets (times 0)
      [.compare ⟨none, column⟩ .eq ⟨.string, s⟩] row) =
        r.rows.filter fun row => row[k]? ≠ some (.text s) := by
    apply List.filter_congr
    intro row hrow
    rw [hmeets row hrow, ← decide_not]
  rw [Statement.execute_delete, Delete.execute_eq hc (hc.finds hlookUp), hkept,
    List.filter_congr hmeets]
  rfl

end

/-! ## Main result -/

/-- Whatever the characters of a text are, it is data between quotes.  In a table whose columns have
no constraints, its INSERT is one statement and appends one row, which has the text in its column;
SELECT shows it unchanged; and its DELETE is one statement and takes out the rows that have the text
in the column, and no others. -/
theorem Catalog.Reachable.keeps_text {c : Catalog} (hc : c.Reachable) {table column : String}
    (htable : PlainName table) (hcolumn : PlainName column) {r : Relation}
    (hr : c.get? table = some r) {k : Nat} (h : r.table.HasText k column) (s : String) :
    let row := r.table.textRow column s
    let next := c.set table { r with rows := r.rows ++ [row] }
    Statement.parse (insertText table column s) =
      .ok [.insert ⟨table, [column], [[⟨.string, s⟩]], none⟩] ∧
    Statement.parse (deleteText table column s) =
      .ok [.delete ⟨table, [.compare ⟨none, column⟩ .eq ⟨.string, s⟩]⟩] ∧
    row[k]? = some (.text s) ∧
    (∀ clock, c.runBatch clock (insertText table column s) = ⟨next, [.result 0 1], none⟩) ∧
    (∀ clock, next.runBatch clock (selectText table column) =
      .ofRows next [column] ((r.rows.map fun row => row[k]?.toList.map (·.canonical)) ++ [[s]])) ∧
    ∀ clock, next.runBatch clock (deleteText table column s) =
      ⟨next.set table { r with rows := r.rows.filter fun row => row[k]? ≠ some (.text s) },
        [.result 0 ((r.rows.filter fun row => row[k]? = some (.text s)).length + 1)], none⟩ := by
  intro row next
  have hinsert := Statement.parse_insertText htable hcolumn s
  have hdelete := Statement.parse_deleteText htable hcolumn s
  have hselect := Statement.parse_selectText htable hcolumn
  have hrow : row[k]? = some (.text s) := h.textRow_getElem? s
  have heven := hc.even table r hr
  have hrun (times : Times) := Insert.execute_text times hr heven h s
  have hnext : next.Reachable := by
    have hstep := Catalog.Reachable.step (fun _ => "")
      (.insert ⟨table, [column], [[⟨.string, s⟩]], none⟩) hc
    rwa [hrun] at hstep
  have hget : next.get? table = some { r with rows := r.rows ++ [row] } := by
    rw [Catalog.get?_set, if_pos rfl]
  refine ⟨hinsert, hdelete, hrow, fun clock => ?_, fun clock => ?_, fun clock => ?_⟩
  · rw [Catalog.runBatch_sole hinsert, hrun]
  · have hlookUp : next.lookUp (clock 0 0) table [.always] =
        .ok ({ r with rows := r.rows ++ [row] }, [.always]) := by
      rw [Catalog.lookUp, Catalog.get_eq_ok.2 hget]
      rfl
    have hall : r.table.meets (clock 0 0) [.always] = fun _ => true := rfl
    have hcell : row[k]?.toList.map (·.canonical) = [s] := by
      rw [hrow]
      rfl
    rw [Catalog.runBatch_sole hselect,
      Select.execute_column (hnext.finds hlookUp) (h.position? heven.names)]
    dsimp only
    rw [hall, List.filter_eq_self.2 fun _ _ => rfl, List.map_append, List.map_singleton, hcell]
  · rw [Catalog.runBatch_sole hdelete, Delete.execute_text hnext hget h]
    simp [hrow]

/-- A text that looks like the end of its statement and another one. -/
theorem Catalog.keeps_text_of_injection :
    let c := Catalog.after [(fun _ => "",
      .createTable ⟨"t", false, [⟨"a", "TEXT", false, []⟩, ⟨"b", "int", false, []⟩], []⟩)]
    let s := "x'); DROP TABLE t; -- $$ NOW()"
    ∃ r, c.get? "t" = some r ∧ r.table.HasText 0 "a" ∧
      Statement.parse (insertText "t" "a" s) =
        .ok [.insert ⟨"t", ["a"], [[⟨.string, s⟩]], none⟩] ∧
      ∀ clock, c.runBatch clock (insertText "t" "a" s) =
        ⟨c.set "t" { r with rows := [[.text s, .null]] }, [.result 0 1], none⟩ := by
  intro c s
  have hr : c.get? "t" =
      some ⟨⟨"t", [⟨"a", "text", false, false, false, none⟩,
        ⟨"b", "int", false, false, false, none⟩]⟩, [], []⟩ := by decide +kernel
  have htext : Table.HasText ⟨"t", [⟨"a", "text", false, false, false, none⟩,
      ⟨"b", "int", false, false, false, none⟩]⟩ 0 "a" := by
    refine ⟨fun a ha => ?_, _, rfl, rfl, by decide⟩
    simp only [List.mem_cons, List.not_mem_nil, or_false] at ha
    rcases ha with rfl | rfl <;> exact ⟨rfl, rfl, rfl, rfl⟩
  obtain ⟨hparse, -, -, hinsert, -⟩ := (Catalog.Reachable.after _ : c.Reachable).keeps_text
    (by decide +kernel : PlainName "t") (by decide +kernel : PlainName "a") hr htext s
  exact ⟨_, hr, htext, hparse, hinsert⟩

end Tabula
