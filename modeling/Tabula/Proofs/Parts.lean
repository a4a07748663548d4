import Tabula.Proofs.Readable
import Tabula.Proofs.Taking

/-!
# The printed parts of statements are read back

For each part of a statement, the reader of that part takes exactly the pieces it is printed as and
gives the part again, if it is `Readable`.  What may stand after the pieces is what the reader does
not take for more of the same part.
-/

namespace Tabula

namespace Reader

/-! ## Words and numbers -/

theorem acceptWord_takes (k : Keyword) :
    Takes (acceptWord k) [.plain k.capitals] true fun _ => True :=
  accept_takes (Piece.clear_keyword k)

theorem acceptWord_skips (k : Keyword) :
    Takes (acceptWord k) [] false (· ≠ some (.keyword k)) :=
  accept_skips (.keyword k)

/-- A word that is written only if something holds says whether it does. -/
theorem acceptWord_whenever (k : Keyword) (condition : Bool) :
    Takes (acceptWord k) (Piece.whenever condition [k.capitals]) condition
      (· ≠ some (.keyword k)) := by
  cases condition with
  | false => exact acceptWord_skips k
  | true => exact (acceptWord_takes k).imp fun _ _ => trivial

theorem expectWord_takes (k : Keyword) :
    Takes (expectWord k) [.plain k.capitals] () fun _ => True :=
  expect_takes (Piece.clear_keyword k)

theorem advanceWord_takes (k : Keyword) :
    Takes advance [.plain k.capitals] () fun _ => True :=
  advance_takes (Piece.clear_keyword k).1

/-- A number of rows is read back from its decimal digits. -/
theorem readCount?_toString {n : Nat} (h : n < UInt64.size) :
    Number.Whole.readCount? (toString n).toList = some n := by
  have hlist : (toString n).toList = Nat.toDigits 10 n := by
    rw [Nat.toString_eq_repr, Nat.toList_repr]
  obtain ⟨d, ds, hds⟩ := List.exists_cons_of_ne_nil (Nat.toDigits_ne_nil (b := 10) (n := n))
  have hdigits : ∀ c ∈ d :: ds, c.isDigit = true := by
    rw [← hds]
    exact fun c hc => Nat.isDigit_of_mem_toDigits (by decide) (by decide) hc
  have hplus : d ≠ '+' := by
    rintro rfl
    exact absurd (hdigits '+' List.mem_cons_self) (by decide)
  have hvalue : Number.ofDigits (d :: ds) = n := by
    rw [← hds]
    exact Nat.ofDigitChars_toDigits (by decide) (by decide)
  have hmagnitude : Number.Whole.magnitude? (d :: ds) = some n := by
    rw [Number.Whole.magnitude?, hvalue, List.all_eq_true.2 hdigits]
    rfl
  rw [hlist, hds]
  unfold Number.Whole.readCount?
  split
  · next heq => exact absurd (List.cons.inj heq).1 hplus
  · dsimp only
    rw [hmagnitude]
    exact if_pos h

theorem rowCount_takes {n : Nat} (h : n < UInt64.size) :
    Takes rowCount [.plain (toString n)] n fun _ => True := by
  obtain ⟨hclear, hkind⟩ := Piece.clear_numeral n
  have hread : Number.Whole.readCount? (Piece.plain (toString n)).lexeme.toList = some n :=
    readCount?_toString h
  unfold rowCount
  refine .peek fun position => ?_
  dsimp only
  rw [if_pos hkind, hread]
  exact (advance_takes hclear).last rfl

theorem acceptOne_takes : Takes acceptOne [.plain (toString 1)] true fun _ => True := by
  obtain ⟨hclear, hkind⟩ := Piece.clear_numeral 1
  unfold acceptOne
  refine .peek fun position => ?_
  dsimp only
  rw [hkind]
  exact .ite_true ((advance_takes hclear).last rfl)

theorem acceptOne_skips : Takes acceptOne [] false (· ≠ some .number) where
  clear := by simp
  takes := by
    intro tokens rest hspell hrest
    obtain rfl := List.forall₂_nil_left_iff.1 hspell
    rw [List.nil_append]
    cases rest with
    | nil => rfl
    | cons t ts =>
      have hkind : t.kind ≠ .number := fun heq => hrest (congrArg some heq)
      show (if t.kind = .number && t.lexeme = "1" then (do advance; return true) else
        Pure.pure false : Reader Bool) (t :: ts) = _
      rw [if_neg (by simp [hkind])]
      rfl

/-! ## Names and literals -/

theorem names_takes {ss : List String} (h : ss ≠ []) :
    Takes (commaList name) (Piece.names ss) ss (· ≠ some .comma) :=
  (commaList_takes trivial h fun s _ => name_takes s).imp fun _ hk => ⟨trivial, hk⟩

/-- A reference to a column begins with a name. -/
theorem columnRef_next (c : ColumnRef) (ps : List Piece) (k : Option TokenKind) :
    Piece.next (c.pieces ++ ps) k = some .quotedIdent := by
  obtain ⟨table, column⟩ := c
  cases table <;> rfl

theorem columnRef_next_self (c : ColumnRef) (k : Option TokenKind) :
    Piece.next c.pieces k = some .quotedIdent := by
  have := columnRef_next c [] k
  rwa [List.append_nil] at this

theorem columnRef_takes (c : ColumnRef) : Takes columnRef c.pieces c (· ≠ some .period) := by
  unfold columnRef
  obtain ⟨table, column⟩ := c
  cases table with
  | none =>
    refine (name_takes column).step ((accept_skips .period).skip (.ite_false (.pure _)) ?_)
    exact fun k hk => hk
  | some table =>
    refine (name_takes table).step ?_
    refine (accept_takes (Piece.clear_mark (by decide))).step (.ite_true ?_)
    exact ((name_takes column).imp fun _ _ => trivial).last rfl

/-- A piece whose kind is known is read as the literal that tokens of that kind are. -/
theorem literal_of_kind {l : Literal} {kind : TokenKind}
    (hpiece : l.piece.Clear ∧ l.piece.kind = kind)
    (hread : ∀ position, literalOf? ⟨kind, l.piece.lexeme, position⟩ = some l) :
    l.piece.Clear ∧ ∀ position, literalOf? ⟨l.piece.kind, l.piece.lexeme, position⟩ = some l := by
  rw [hpiece.2]
  exact ⟨hpiece.1, hread⟩

/-- The piece of a literal is read as the literal. -/
theorem literal_piece {l : Literal} (h : l.Readable) (hraw : l.kind ≠ .raw) :
    l.piece.Clear ∧ ∀ position, literalOf? ⟨l.piece.kind, l.piece.lexeme, position⟩ = some l := by
  obtain ⟨kind, lexeme⟩ := l
  cases kind with
  | raw => exact absurd rfl hraw
  | string => exact literal_of_kind ⟨Piece.clear_string _, rfl⟩ fun _ => rfl
  | number => exact literal_of_kind ⟨Piece.clear_dollar h.2, h.1⟩ fun _ => rfl
  | date => exact literal_of_kind ⟨Piece.clear_dollar h.2, h.1⟩ fun _ => rfl
  | now => exact literal_of_kind (Piece.clear_now h) fun _ => rfl
  | bool =>
    -- the lexeme is read in lower case
    have htrue : Text.lowercase "true" = "true" := by decide +kernel
    have hfalse : Text.lowercase "false" = "false" := by decide +kernel
    rcases h with h | h
    · obtain rfl : lexeme = "true" := h
      refine literal_of_kind (Piece.clear_word (k := .trueWord) (by decide +kernel)) fun _ => ?_
      exact congrArg (fun text => some (Literal.mk .bool text)) htrue
    · obtain rfl : lexeme = "false" := h
      refine literal_of_kind (Piece.clear_word (k := .falseWord) (by decide +kernel)) fun _ => ?_
      exact congrArg (fun text => some (Literal.mk .bool text)) hfalse
  | null =>
    obtain rfl : lexeme = "null" := h
    exact literal_of_kind (Piece.clear_word (k := .null) (by decide +kernel)) fun _ => rfl
  | localTimestamp =>
    have hk : Keyword.localTimestamp.isSpelled (String.ofList lexeme.toList) = true := h
    rw [String.ofList_toList] at hk
    exact literal_of_kind (Piece.clear_word hk) fun _ => rfl

/-- Every literal may also stand where a bare word may. -/
theorem valueOf?_of_literalOf? {t : Token} {l : Literal} (h : literalOf? t = some l) :
    valueOf? t = some l := by
  unfold valueOf?
  split
  · next hkind =>
    rw [literalOf?, hkind] at h
    cases h
  · next hkind =>
    rw [literalOf?, hkind] at h
    cases h
  · exact h

theorem defaultLiteral_takes {l : Literal} (h : l.Readable) (hraw : l.kind ≠ .raw) :
    Takes defaultLiteral [l.piece] l fun _ => True :=
  literalBy_takes (literal_piece h hraw).1 (literal_piece h hraw).2

theorem value_takes {l : Literal} (h : l.Readable) : Takes value [l.piece] l fun _ => True := by
  by_cases hraw : l.kind = .raw
  · obtain ⟨kind, lexeme⟩ := l
    obtain rfl : kind = .raw := hraw
    exact literalBy_takes (Piece.clear_name lexeme) fun _ => rfl
  · obtain ⟨hclear, hread⟩ := literal_piece h hraw
    exact literalBy_takes hclear fun position => valueOf?_of_literalOf? (hread position)

/-- Literals between parentheses. -/
theorem literals_takes {ls : List Literal} (hne : ls ≠ []) (h : ∀ l ∈ ls, l.Readable) :
    Takes (parenthesised (commaList value)) (Piece.literals ls) ls fun _ => True :=
  parenthesised_takes (by simp) (commaList_takes trivial hne fun l hl => value_takes (h l hl))

/-! ## CREATE -/

theorem ifNotExists_takes (guarded : Bool) :
    Takes ifNotExists (Piece.whenever guarded ["IF", "NOT", "EXISTS"]) guarded
      (· ≠ some (.keyword .ifWord)) := by
  unfold ifNotExists
  cases guarded with
  | false => exact (acceptWord_skips .ifWord).skip (.ite_false (.pure false)) fun _ hk => hk
  | true =>
    refine (acceptWord_takes .ifWord).step (.ite_true ?_)
    refine (expectWord_takes .not).step ?_
    exact (expectWord_takes .existsWord).step (.pure true)

theorem typeName_takes (type : String) : Takes typeName [.name type] type (· ≠ some .lparen) := by
  unfold typeName
  refine (name_takes type).step ((accept_skips .lparen).skip (.ite_false (.pure type)) ?_)
  exact fun _ hk => hk

/-- How an option of a column is written. -/
def ColumnOption.pieces : ColumnOption → List Piece
  | .constraint c => c.pieces
  | .nullable => Piece.plains ["NULL"]
  | .timeZone => Piece.plains ["WITH", "TIME", "ZONE"]

theorem option_takes {type : String} {o : ColumnOption} (h : o.Readable type) :
    Takes (columnOption? type) o.pieces (some o) fun _ => True := by
  unfold columnOption?
  cases o with
  | nullable => exact look_advance .null rfl (.pure _)
  | timeZone =>
    refine look_word .withWord ?_
    dsimp only
    rw [if_neg (by simpa [ColumnOption.Readable] using h)]
    refine (advanceWord_takes .withWord).step ?_
    refine (expectWord_takes .time).step ?_
    exact (expectWord_takes .zone).step (.pure _)
  | constraint c =>
    cases c with
    | unique => exact look_advance .unique rfl (.pure _)
    | notNull =>
      refine look_advance .not rfl ?_
      exact (expectWord_takes .null).step (.pure _)
    | primaryKey =>
      refine look_advance .primary rfl ?_
      exact (expectWord_takes .key).step (.pure _)
    | autoIncrement => exact look_advance .autoIncrement rfl (.pure _)
    | default l =>
      refine look_advance .default rfl ?_
      exact (defaultLiteral_takes h.1 h.2).last rfl

/-- The options of a column end at a comma or a closing parenthesis. -/
theorem columnOption?_ends (type : String) :
    Takes (columnOption? type) [] none fun k => k = some .comma ∨ k = some .rparen := by
  unfold columnOption?
  refine .look_after fun k hk => ?_
  rcases hk with rfl | rfl
  · exact .pure none
  · exact .pure none

/-- Every option begins with a keyword. -/
theorem ColumnOption.head_pieces (o : ColumnOption) :
    ∃ (k : Keyword) (ps : List Piece), o.pieces = .plain k.capitals :: ps := by
  cases o with
  | nullable => exact ⟨.null, _, rfl⟩
  | timeZone => exact ⟨.withWord, _, rfl⟩
  | constraint c =>
    cases c with
    | unique => exact ⟨.unique, _, rfl⟩
    | notNull => exact ⟨.not, _, rfl⟩
    | primaryKey => exact ⟨.primary, _, rfl⟩
    | autoIncrement => exact ⟨.autoIncrement, _, rfl⟩
    | default l => exact ⟨.default, _, rfl⟩

/-- The options that a declaration is printed with: the time zone stands before the constraints. -/
def ColumnOption.ofDef (d : ColumnDef) : List ColumnOption :=
  (if d.withTimeZone then [.timeZone] else []) ++ d.constraints.map .constraint

theorem ColumnOption.ofDef_pieces (d : ColumnDef) :
    (ofDef d).flatMap pieces =
      Piece.whenever d.withTimeZone ["WITH", "TIME", "ZONE"] ++
        d.constraints.flatMap Constraint.pieces := by
  rw [ofDef, List.flatMap_append, List.flatMap_map]
  cases d.withTimeZone <;> rfl

theorem ColumnOption.contains_ofDef (d : ColumnDef) :
    (ofDef d).contains .timeZone = d.withTimeZone := by
  have hnone : ColumnOption.timeZone ∉ d.constraints.map ColumnOption.constraint := by simp
  rw [ofDef, Bool.eq_iff_iff, List.contains_iff_mem, List.mem_append, or_iff_left hnone]
  cases d.withTimeZone <;> simp

theorem ColumnOption.filterMap_ofDef (d : ColumnDef)
    {constraint? : ColumnOption → Option Constraint}
    (hconstraint : ∀ c, constraint? (.constraint c) = some c)
    (hzone : constraint? .timeZone = none) :
    (ofDef d).filterMap constraint? = d.constraints := by
  have hcomp : constraint? ∘ ColumnOption.constraint = some := funext hconstraint
  have hnone :
      (if d.withTimeZone then [ColumnOption.timeZone] else []).filterMap constraint? = [] := by
    cases d.withTimeZone with
    | false => rfl
    | true => exact List.filterMap_cons_none hzone
  rw [ofDef, List.filterMap_append, List.filterMap_map, hcomp, List.filterMap_some, hnone,
    List.nil_append]

theorem ColumnOption.readable_ofDef {d : ColumnDef} (h : d.Readable) :
    ∀ o ∈ ofDef d, o.Readable d.typeName := by
  intro o ho
  rcases List.mem_append.1 ho with ho | ho
  · cases hzone : d.withTimeZone with
    | false =>
      rw [hzone] at ho
      cases ho
    | true =>
      rw [hzone] at ho
      obtain rfl := List.mem_singleton.1 ho
      exact h.zone hzone
  · obtain ⟨c, hc, rfl⟩ := List.mem_map.1 ho
    exact h.constraints c hc

/-- What follows the type of a printed column is no size. -/
theorem ColumnOption.next_ofDef (d : ColumnDef) {k : Option TokenKind}
    (hk : k = some .comma ∨ k = some .rparen) :
    Piece.next ((ofDef d).flatMap pieces) k ≠ some .lparen := by
  cases ofDef d with
  | nil => rcases hk with rfl | rfl <;> decide
  | cons o rest =>
    obtain ⟨word, ps, hpieces⟩ := o.head_pieces
    rw [List.flatMap_cons, hpieces]
    exact Piece.keyword_ne (k := word) (by simp)

theorem columnDef_takes {d : ColumnDef} (h : d.Readable) :
    Takes columnDef d.pieces d fun k => k = some .comma ∨ k = some .rparen := by
  have hmany := many_each (columnOption?_ends d.typeName) (fun _ _ => trivial : ∀ k, _ → True)
    (ColumnOption.ofDef d) (fun o ho => by
      obtain ⟨word, ps, hpieces⟩ := o.head_pieces
      exact ⟨by simp [hpieces], option_takes (ColumnOption.readable_ofDef h o ho)⟩) fun _ _ _ => trivial
  have hnext := fun k => ColumnOption.next_ofDef d (k := k)
  rw [ColumnOption.ofDef_pieces] at hmany hnext
  unfold columnDef
  refine (name_takes d.name).step ((typeName_takes d.typeName).cons (hmany.last ?_) hnext)
  dsimp only
  rw [ColumnOption.contains_ofDef, ColumnOption.filterMap_ofDef d (fun _ => rfl) rfl]

/-- How what stands between the parentheses of CREATE TABLE is written. -/
def itemPieces : List String ⊕ ColumnDef → List Piece
  | .inl key => Piece.plains ["PRIMARY", "KEY"] ++ Piece.parenthesised (Piece.names key)
  | .inr d => d.pieces

theorem tableKey_takes {key : List String} (h : key ≠ []) :
    Takes tableItem (itemPieces (.inl key)) (.inl key) fun _ => True := by
  unfold tableItem
  refine (acceptWord_takes .primary).step (.ite_true ?_)
  refine (expectWord_takes .key).step ?_
  exact (parenthesised_takes (by simp) (names_takes h)).last rfl

theorem tableColumn_takes {d : ColumnDef} (h : d.Readable) :
    Takes tableItem (itemPieces (.inr d)) (.inr d) fun k => k = some .comma ∨ k = some .rparen := by
  unfold tableItem
  refine (acceptWord_skips .primary).skip (.ite_false ((columnDef_takes h).last rfl)) ?_
  intro k _ heq
  cases heq

theorem indexColumn_takes (c : IndexColumn) :
    Takes indexColumn c.pieces c (· ≠ some (.keyword .collate)) := by
  obtain ⟨column, nocase⟩ := c
  unfold indexColumn
  refine (name_takes column).step ?_
  cases nocase with
  | false => exact (acceptWord_skips .collate).skip (.ite_false (.pure _)) fun _ hk => hk
  | true =>
    refine (acceptWord_takes .collate).step (.ite_true ?_)
    exact (expectWord_takes .nocase).step (.pure _)

/-! ## INSERT -/

theorem valueRow_takes {row : List Literal} {width : Nat} (hwidth : row.length = width)
    (hne : row ≠ []) (h : ∀ l ∈ row, l.Readable) :
    Takes (valueRow width) (Piece.literals row) row fun _ => True := by
  have hvalues : Takes (commaList value) (Piece.commaList (row.map fun l => [l.piece])) row
      (· ≠ some .comma) :=
    (commaList_takes trivial hne fun l hl => value_takes (h l hl)).imp fun _ hk => ⟨trivial, hk⟩
  unfold valueRow
  refine (expect_takes clear_lparen).step (hvalues.bind ?_ ?_)
  · rw [hwidth, bne_self_eq_false]
    exact .ite_false ((expect_takes clear_rparen).step (.pure row))
  · intro k _
    simp [Piece.next, clear_rparen.2]

/-! ## Conditions -/

/-- The kind of the token that a comparison is written as. -/
def compareKind : CompareOp → TokenKind
  | .eq => .eq
  | .ne => .ne
  | .lt => .lt
  | .gt => .gt
  | .le => .le
  | .ge => .ge

theorem clear_compare (op : CompareOp) :
    (Piece.plain op.mark).Clear ∧ (Piece.plain op.mark).kind = compareKind op :=
  Piece.clear_mark (by cases op <;> decide)

theorem compareOp?_compareKind (op : CompareOp) : compareOp? (compareKind op) = some op := by
  cases op <;> rfl

/-- Nothing else in a condition begins with the mark of a comparison. -/
theorem compareKind_ne (op : CompareOp) :
    compareKind op ≠ .period ∧ ∀ k, compareKind op ≠ .keyword k := by
  cases op <;> simp [compareKind]

theorem compare_takes (column : ColumnRef) (op : CompareOp) {l : Literal} (h : l.Readable) :
    Takes columnCondition (Condition.compare column op l).pieces (.compare column op l)
      fun _ => True := by
  obtain ⟨hclear, hkind⟩ := clear_compare op
  obtain ⟨hperiod, hword⟩ := compareKind_ne op
  have hnext (kind : TokenKind) (hne : compareKind op ≠ kind) (k : Option TokenKind) :
      Piece.next [.plain op.mark, l.piece] k ≠ some kind := by
    rw [Piece.next, hkind]
    exact fun heq => hne (Option.some.inj heq)
  unfold columnCondition
  refine (columnRef_takes column).bind ?_ fun k _ => hnext _ hperiod k
  refine (acceptWord_skips .is).skip (.ite_false ?_) fun k _ => hnext _ (hword _) k
  refine (acceptWord_skips .not).skip ?_ fun k _ => hnext _ (hword _) k
  refine (acceptWord_skips .inWord).skip (.ite_false (.ite_false ?_)) fun k _ => hnext _ (hword _) k
  refine .look ?_
  rw [hkind, Option.bind_some, compareOp?_compareKind]
  exact (advance_takes hclear).step ((value_takes h).last rfl)

theorem oneOf_takes (column : ColumnRef) {ls : List Literal} (negated : Bool) (hne : ls ≠ [])
    (h : ∀ l ∈ ls, l.Readable) :
    Takes columnCondition (Condition.oneOf column ls negated).pieces (.oneOf column ls negated)
      fun _ => True := by
  have hpieces : (Condition.oneOf column ls negated).pieces =
      column.pieces ++ (Piece.whenever negated ["NOT"] ++ .plain "IN" :: Piece.literals ls) :=
    List.append_assoc _ _ _
  have hin : (Piece.plain "IN").kind = .keyword .inWord := (Piece.clear_keyword .inWord).2
  have hnot : (Piece.plain "NOT").kind = .keyword .not := (Piece.clear_keyword .not).2
  have hnext (kind : TokenKind) (hkin : kind ≠ .keyword .inWord) (hknot : kind ≠ .keyword .not)
      (k : Option TokenKind) :
      Piece.next (Piece.whenever negated ["NOT"] ++ .plain "IN" :: Piece.literals ls) k ≠
        some kind := by
    cases negated with
    | false => exact fun heq => hkin (Option.some.inj (hin ▸ heq)).symm
    | true => exact fun heq => hknot (Option.some.inj (hnot ▸ heq)).symm
  rw [hpieces]
  unfold columnCondition
  refine (columnRef_takes column).bind ?_ fun k _ => hnext _ (by simp) (by simp) k
  refine (acceptWord_skips .is).skip (.ite_false ?_) fun k _ => hnext _ (by simp) (by simp) k
  refine (acceptWord_whenever .not negated).bind ?_ fun k _ => ?_
  · refine (acceptWord_takes .inWord).step (.ite_true ?_)
    exact (literals_takes hne h).last rfl
  · simp [Piece.next, hin]

theorem nullTest_takes (column : ColumnRef) (negated : Bool) :
    Takes columnCondition (Condition.nullTest column negated).pieces (.nullTest column negated)
      fun _ => True := by
  have hpieces : (Condition.nullTest column negated).pieces =
      column.pieces ++ .plain "IS" :: (Piece.whenever negated ["NOT"] ++ [.plain "NULL"]) := by
    simp [Condition.pieces]
  rw [hpieces]
  unfold columnCondition
  refine (columnRef_takes column).bind ?_ fun k _ => ?_
  · refine (acceptWord_takes .is).step (.ite_true ?_)
    refine (acceptWord_whenever .not negated).bind ?_ fun k _ => ?_
    · exact (expectWord_takes .null).step (.pure _)
    · exact Piece.keyword_ne (k := .null) (by simp)
  · exact Piece.keyword_ne (k := .is) (by simp)

theorem columnCondition_takes {c : Condition} (hc : c ≠ .always) (h : c.Readable) :
    Takes columnCondition c.pieces c fun _ => True := by
  cases c with
  | always => exact absurd rfl hc
  | compare column op l => exact compare_takes column op h
  | oneOf column ls negated => exact oneOf_takes column negated h.1 h.2
  | nullTest column negated => exact nullTest_takes column negated

/-- A condition begins with a number or a name. -/
theorem condition_next (c : Condition) (k : Option TokenKind) :
    Piece.next c.pieces k = some .number ∨ Piece.next c.pieces k = some .quotedIdent := by
  cases c with
  | always => exact .inl (congrArg some (Piece.clear_numeral 1).2)
  | compare column _ _ => exact .inr (columnRef_next column _ k)
  | oneOf column ls negated =>
    right
    rw [Condition.pieces, List.append_assoc]
    exact columnRef_next column _ k
  | nullTest column negated =>
    right
    rw [Condition.pieces, List.append_assoc]
    exact columnRef_next column _ k

theorem bareCondition_takes {c : Condition} (h : c.Readable) :
    Takes bareCondition c.pieces c (· ≠ some .eq) := by
  unfold bareCondition
  by_cases hc : c = .always
  · subst hc
    refine acceptOne_takes.step (.ite_true ((accept_skips .eq).skip (.ite_false ?_) ?_))
    · exact .pure _
    · exact fun _ hk => hk
  · have hcolumn : Takes columnCondition c.pieces c (· ≠ some .eq) :=
      (columnCondition_takes hc h).imp fun _ _ => trivial
    refine acceptOne_skips.skip (.ite_false hcolumn) fun k _ => ?_
    cases c with
    | always => exact absurd rfl hc
    | compare column _ _ => simp [Condition.pieces, columnRef_next]
    | oneOf column _ _ => simp [Condition.pieces, columnRef_next]
    | nullTest column _ => simp [Condition.pieces, columnRef_next]

theorem condition_takes {c : Condition} (h : c.Readable) :
    Takes condition c.pieces c (· ≠ some .eq) := by
  unfold condition
  refine (skipAll_skips .lparen).skip ((bareCondition_takes h).last rfl) fun k _ => ?_
  rcases condition_next c k with hnext | hnext <;> simp [hnext]

theorem anotherCondition_takes : Takes anotherCondition [.plain "AND"] true fun _ => True := by
  unfold anotherCondition
  refine look_word .and ?_
  rw [if_neg (by decide)]
  exact acceptWord_takes .and

theorem anotherCondition_skips :
    Takes anotherCondition [] false fun k =>
      k ≠ some (.keyword .or) ∧ k ≠ some (.keyword .and) := by
  unfold anotherCondition
  refine .look_after fun k hk => ?_
  rw [if_neg hk.1]
  exact (acceptWord_skips .and).imp fun k' hk' => hk' ▸ hk.2

theorem conditions_takes {absent cs : List Condition} (hne : cs ≠ [])
    (h : ∀ c ∈ cs, c.Readable) :
    Takes (conditions absent) (Condition.wherePieces cs) cs fun k =>
      k ≠ some .eq ∧ k ≠ some (.keyword .or) ∧ k ≠ some (.keyword .and) := by
  obtain ⟨first, others, rfl⟩ := List.exists_cons_of_ne_nil hne
  unfold conditions
  refine (acceptWord_takes .whereWord).step (.ite_true ?_)
  refine separated_takes anotherCondition_takes (anotherCondition_skips.imp fun k hk => hk.2)
    (fun k hk => hk.1) ?_ first others fun c hc => condition_takes (h c hc)
  exact Piece.keyword_ne (k := .and) (by simp)

theorem conditions_skips (absent : List Condition) :
    Takes (conditions absent) [] absent (· ≠ some (.keyword .whereWord)) := by
  unfold conditions
  exact (acceptWord_skips .whereWord).skip (.ite_false (.pure absent)) fun _ hk => hk

/-! ## SELECT -/

theorem distinct_takes (d : Option Distinct)
    (h : ∀ columns, d = some (.on columns) → columns ≠ []) :
    Takes distinct ((d.map Distinct.pieces).getD []) d fun k =>
      k ≠ some (.keyword .distinct) ∧ k ≠ some (.keyword .on) := by
  unfold distinct
  cases d with
  | none => exact (acceptWord_skips .distinct).skip (.ite_false (.pure none)) fun _ hk => hk.1
  | some d =>
    cases d with
    | all =>
      refine (acceptWord_takes .distinct).step (.ite_true ?_)
      exact (acceptWord_skips .on).skip (.ite_false (.pure _)) fun _ hk => hk.2
    | on columns =>
      refine (acceptWord_takes .distinct).step (.ite_true ?_)
      refine (acceptWord_takes .on).step (.ite_true ?_)
      have hcolumns := commaList_takes (by simp) (h columns rfl) fun c _ => columnRef_takes c
      exact ((parenthesised_takes (by simp) hcolumns).imp fun _ _ => trivial).last rfl

theorem countArg_takes (arg : CountArg) :
    ∃ ps, (Projection.count arg).pieces = .plain "COUNT" :: Piece.parenthesised ps ∧
      Takes countArg ps arg (· ≠ some .period) := by
  unfold countArg
  cases arg with
  | star =>
    exact ⟨_, rfl, (accept_takes (Piece.clear_mark (by decide))).step (.ite_true (.pure _))⟩
  | column c =>
    refine ⟨c.pieces, rfl, ?_⟩
    refine (accept_skips .star).skip (.ite_false ((columnRef_takes c).last rfl)) fun k _ => ?_
    simp [columnRef_next_self]

theorem projection_takes (p : Projection) : Takes projection p.pieces p (· ≠ some .period) := by
  unfold projection
  cases p with
  | star => exact (accept_takes (Piece.clear_mark (by decide))).step (.ite_true (.pure _))
  | column c =>
    refine (accept_skips .star).skip (.ite_false ?_) fun k _ => by
      simp [Projection.pieces, columnRef_next_self]
    refine .observe (some .quotedIdent)
      (fun _ rest hspell _ => (firstKind_append hspell rest).trans (columnRef_next_self c _)) ?_
    exact .ignore fun _ => .ite_false ((columnRef_takes c).last rfl)
  | count arg =>
    obtain ⟨ps, hpieces, harg⟩ := countArg_takes arg
    rw [hpieces]
    refine (accept_skips .star).skip (.ite_false ?_) fun k _ => ?_
    · refine look_word .count (.look_second ?_)
      rw [clear_lparen.2]
      refine .ite_true ?_
      refine (advanceWord_takes .count).step ?_
      exact ((parenthesised_takes (by simp) harg).imp fun _ _ => trivial).last rfl
    · exact Piece.keyword_ne (k := .count) (by simp)

theorem join_takes (j : Join) :
    Takes (optional (acceptWord .join) join) j.pieces (some j) (· ≠ some .period) := by
  have hpieces : j.pieces = .plain "JOIN" :: .name j.table :: .plain "ON" ::
      (j.left.pieces ++ .plain "=" :: j.right.pieces) := rfl
  rw [hpieces]
  have hequals : (Piece.plain "=").Clear ∧ (Piece.plain "=").kind = .eq :=
    Piece.clear_mark (by decide)
  refine optional_takes (acceptWord_takes .join) ?_
  unfold join
  refine (name_takes j.table).step ((expectWord_takes .on).step ?_)
  refine (columnRef_takes j.left).bind ?_ fun k _ => ?_
  · exact (expect_takes hequals).step ((columnRef_takes j.right).last rfl)
  · simp [Piece.next, hequals.2]

theorem sortKey_takes (key : SortKey) :
    Takes sortKey key.pieces key fun k =>
      k ≠ some .period ∧ k ≠ some (.keyword .desc) ∧ k ≠ some (.keyword .asc) := by
  obtain ⟨column, descending⟩ := key
  unfold sortKey
  refine (columnRef_takes column).bind ?_ fun k hk => ?_
  · cases descending with
    | false =>
      refine (acceptWord_skips .desc).skip (.ite_false ?_) fun k hk => hk.2.1
      exact ((acceptWord_skips .asc).imp fun k hk => hk.2.2).last rfl
    | true => exact (acceptWord_takes .desc).step (.ite_true (.pure _))
  · cases descending with
    | false => exact hk.1
    | true => exact Piece.keyword_ne (k := .desc) (by simp)

/-- How an ORDER BY is written, if there is one. -/
def orderPieces (keys : List SortKey) : List Piece :=
  if keys.isEmpty then []
  else Piece.plains ["ORDER", "BY"] ++ Piece.commaList (keys.map SortKey.pieces)

theorem orderBy_takes (keys : List SortKey) :
    Takes orderBy (orderPieces keys) keys fun k =>
      k ∉ [some .period, some .comma, some (.keyword .order), some (.keyword .desc),
        some (.keyword .asc)] := by
  unfold orderBy
  by_cases hkeys : keys = []
  · subst hkeys
    refine (acceptWord_skips .order).skip (.ite_false (.pure [])) fun k hk heq => ?_
    simp [show k = _ from heq] at hk
  · have hpieces : orderPieces keys =
        .plain "ORDER" :: .plain "BY" :: Piece.commaList (keys.map SortKey.pieces) := by
      rw [orderPieces, if_neg (by simpa using hkeys)]
      rfl
    rw [hpieces]
    refine (acceptWord_takes .order).step (.ite_true ?_)
    refine (expectWord_takes .byWord).step ?_
    refine (commaList_takes (by simp) hkeys fun key _ => sortKey_takes key).imp fun k hk => ?_
    simp only [List.mem_cons, List.not_mem_nil, or_false, not_or] at hk
    obtain ⟨hperiod, hcomma, -, hdesc, hasc⟩ := hk
    exact ⟨⟨hperiod, hdesc, hasc⟩, hcomma⟩

/-- A count after a keyword, if there is one. -/
theorem count_takes (k : Keyword) {n? : Option Nat} (h : ∀ n ∈ n?, n < UInt64.size) :
    Takes (optional (acceptWord k) rowCount) (Piece.count k.capitals n?) n?
      (· ≠ some (.keyword k)) := by
  cases n? with
  | none => exact optional_skips (acceptWord_skips k)
  | some n =>
    exact (optional_takes (acceptWord_takes k) (rowCount_takes (h n rfl))).imp fun _ _ => trivial

theorem forUpdate_takes (locked : Bool) :
    Takes forUpdate (Piece.whenever locked ["FOR", "UPDATE"]) locked
      (· ≠ some (.keyword .forWord)) := by
  unfold forUpdate
  cases locked with
  | false => exact (acceptWord_skips .forWord).skip (.ite_false (.pure false)) fun _ hk => hk
  | true =>
    refine (acceptWord_takes .forWord).step (.ite_true ?_)
    exact (expectWord_takes .update).step (.pure true)

/-! ## The other statements -/

theorem assignment_takes {a : String × Literal} (h : a.2.Readable) :
    Takes assignment [.name a.1, .plain "=", a.2.piece] a fun _ => True := by
  unfold assignment
  refine (name_takes a.1).step ((expect_takes (Piece.clear_mark (by decide))).step ?_)
  exact (value_takes h).last rfl

end Reader

end Tabula
