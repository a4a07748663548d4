import Tabula.Proofs.Tokens
import Tabula.Statement.Reader

/-!
# What reading leaves no doubt about

Not every value of the types of statements is the reading of a text: lists that the grammar wants at
least one item of are not empty, rows are as wide as the list of columns, a bare word is no default.
`Readable` says this of each part of a statement.

* `Reader.Ensures`: what holds of everything that a reader gives on sound tokens.
* `Statement.parse_readable`: every statement that is read is readable.
-/

namespace Tabula

/-! ## Algorithm -/

/-- A literal that some token is. -/
def Literal.Readable (l : Literal) : Prop :=
  match l.kind with
  | .number => TokenKind.number.Admits l.lexeme.toList
  | .date => TokenKind.date.Admits l.lexeme.toList
  | .bool => l.lexeme = "true" ∨ l.lexeme = "false"
  | .null => l.lexeme = "null"
  | .now => TokenKind.now.Admits l.lexeme.toList
  | .localTimestamp => (TokenKind.keyword .localTimestamp).Admits l.lexeme.toList
  | _ => True

/-- A default is written as a literal, never as a bare word. -/
def Constraint.Readable : Constraint → Prop
  | .default l => l.Readable ∧ l.kind ≠ .raw
  | _ => True

/-- Only timestamps have a time zone. -/
structure ColumnDef.Readable (d : ColumnDef) : Prop where
  zone : d.withTimeZone = true → d.typeName.toList.map Char.toLower = "timestamp".toList
  constraints : ∀ c ∈ d.constraints, c.Readable

structure CreateTable.Readable (s : CreateTable) : Prop where
  columns : s.columns ≠ []
  readable : ∀ d ∈ s.columns, d.Readable

structure CreateIndex.Readable (s : CreateIndex) : Prop where
  columns : s.columns ≠ []

/-- Rows are as wide as the list of columns. -/
structure Insert.Readable (s : Insert) : Prop where
  columns : s.columns ≠ []
  rows : s.rows ≠ []
  widths : ∀ row ∈ s.rows, row.length = s.columns.length
  readable : ∀ row ∈ s.rows, ∀ l ∈ row, l.Readable

def Condition.Readable : Condition → Prop
  | .compare _ _ l => l.Readable
  | .oneOf _ ls _ => ls ≠ [] ∧ ∀ l ∈ ls, l.Readable
  | _ => True

/-- Where DISTINCT ON names columns, these are projected before the others. -/
structure Select.Readable (s : Select) : Prop where
  distinct : ∀ columns, s.distinct = some (.on columns) → columns ≠ [] ∧
    s.projections = columns.map .column ++ s.ownProjections
  projections : s.ownProjections ≠ []
  tables : s.tables ≠ []
  conditions : s.conditions ≠ []
  readable : ∀ c ∈ s.conditions, c.Readable
  limit : ∀ n ∈ s.limit, n < UInt64.size
  offset : ∀ n ∈ s.offset, n < UInt64.size

structure Update.Readable (s : Update) : Prop where
  assignments : s.assignments ≠ []
  literals : ∀ a ∈ s.assignments, a.2.Readable
  conditions : s.conditions ≠ []
  readable : ∀ c ∈ s.conditions, c.Readable

structure Delete.Readable (s : Delete) : Prop where
  readable : ∀ c ∈ s.conditions, c.Readable

/-- A statement that some text is read as. -/
def Statement.Readable : Statement → Prop
  | .createTable s => s.Readable
  | .createIndex s => s.Readable
  | .insert s => s.Readable
  | .select s => s.Readable
  | .update s => s.Readable
  | .delete s => s.Readable
  | .truncate _ => True
  | .dropTable _ _ => True
  | .grant => True

namespace Reader

/-- What a reader gives on sound tokens, and sound tokens after it. -/
def Ensures {α : Type} (r : Reader α) (P : α → Prop) : Prop :=
  ∀ (tokens rest : List Token) (x : α), (∀ t ∈ tokens, t.Sound) → r tokens = .ok (x, rest) →
    P x ∧ ∀ t ∈ rest, t.Sound

/-! ## Steps -/

namespace Ensures

variable {α β : Type} {P Q : α → Prop} {R : β → Prop} {r : Reader α}

theorem bind {f : α → Reader β} (hr : Ensures r P) (hf : ∀ x, P x → Ensures (f x) R) :
    Ensures (r >>= f) R := by
  intro tokens rest y hsound h
  obtain ⟨⟨x, middle⟩, hx, hy⟩ := bind_eq_ok.1 h
  obtain ⟨hP, hmiddle⟩ := hr tokens middle x hsound hx
  exact hf x hP middle rest y hmiddle hy

theorem pure {x : α} (h : P x) : Ensures (pure x) P := by
  intro tokens rest y hsound heq
  obtain ⟨rfl, rfl⟩ := Prod.mk.inj (Except.ok.inj heq)
  exact ⟨h, hsound⟩

theorem stop (message : String) : Ensures (stop message) P := by
  intro tokens rest x _ h
  cases h

theorem imp (hr : Ensures r P) (h : ∀ x, P x → Q x) : Ensures r Q := by
  intro tokens rest x hsound hx
  obtain ⟨hP, hrest⟩ := hr tokens rest x hsound hx
  exact ⟨h x hP, hrest⟩

/-- A reader that only leaves out tokens leaves sound ones. -/
theorem of_sublist {f : List Token → α} {g : List Token → List Token}
    (h : ∀ tokens, (g tokens).Sublist tokens) :
    Ensures (fun tokens => .ok (f tokens, g tokens)) fun _ => True := by
  intro tokens rest x hsound heq
  obtain ⟨-, rfl⟩ := Prod.mk.inj (Except.ok.inj heq)
  exact ⟨trivial, fun t ht => hsound t ((h tokens).subset ht)⟩

theorem ite {c : Prop} [Decidable c] {r' : Reader α} (ht : c → Ensures r P)
    (hf : ¬c → Ensures r' P) : Ensures (if c then r else r') P := by
  split
  · next hc => exact ht hc
  · next hc => exact hf hc

end Ensures

/-! ## Single tokens -/

theorem peek?_ensures : Ensures peek? fun t? => ∀ t ∈ t?, t.Sound := by
  intro tokens rest t? hsound h
  obtain ⟨rfl, rfl⟩ := Prod.mk.inj (Except.ok.inj h)
  exact ⟨fun t ht => hsound t (List.mem_of_head? ht), hsound⟩

theorem peekKind?_ensures : Ensures peekKind? fun _ => True :=
  .of_sublist fun _ => .refl _

theorem peekSecond?_ensures : Ensures peekSecond? fun _ => True :=
  .of_sublist fun _ => .refl _

theorem atEnd_ensures : Ensures atEnd fun _ => True :=
  .of_sublist fun _ => .refl _

theorem advance_ensures : Ensures advance fun _ => True :=
  .of_sublist List.tail_sublist

theorem skipUntil_ensures (kind : TokenKind) : Ensures (skipUntil kind) fun _ => True :=
  .of_sublist fun _ => List.dropWhile_sublist _

theorem skipAll_ensures (kind : TokenKind) : Ensures (skipAll kind) fun _ => True :=
  .of_sublist fun _ => List.drop_sublist _ _

theorem accept_ensures (kind : TokenKind) : Ensures (accept kind) fun _ => True := by
  intro tokens rest b hsound h
  refine ⟨trivial, ?_⟩
  unfold accept at h
  split at h
  · next t tail =>
    split at h
    · obtain ⟨-, rfl⟩ := Prod.mk.inj (Except.ok.inj h)
      exact fun t ht => hsound t (List.mem_cons_of_mem _ ht)
    · obtain ⟨-, rfl⟩ := Prod.mk.inj (Except.ok.inj h)
      exact hsound
  · obtain ⟨-, rfl⟩ := Prod.mk.inj (Except.ok.inj h)
    exact hsound

theorem expect_ensures (kind : TokenKind) : Ensures (expect kind) fun _ => True := by
  unfold expect
  exact (accept_ensures kind).bind fun b _ => .ite (fun _ => .stop _) fun _ => .pure trivial

/-! ## Repetition -/

theorem many_ensures {α : Type} {P : α → Prop} {item? : Reader (Option α)}
    (h : Ensures item? fun o => ∀ x ∈ o, P x) :
    Ensures (many item?) fun xs => ∀ x ∈ xs, P x := by
  intro tokens
  fun_induction many item? tokens with
  | case1 tokens e he => intro rest xs _ heq; cases heq
  | case2 tokens middle hnone =>
    intro rest xs hsound heq
    obtain ⟨rfl, rfl⟩ := Prod.mk.inj (Except.ok.inj heq)
    exact ⟨by simp, (h _ _ _ hsound hnone).2⟩
  | case3 tokens x middle hsome hlt e he ih => intro rest xs _ heq; cases heq
  | case4 tokens x middle hsome hlt xs tail hmany ih =>
    intro rest ys hsound heq
    obtain ⟨rfl, rfl⟩ := Prod.mk.inj (Except.ok.inj heq)
    obtain ⟨hx, hmiddle⟩ := h _ _ _ hsound hsome
    obtain ⟨hxs, htail⟩ := ih _ _ hmiddle hmany
    refine ⟨fun y hy => ?_, htail⟩
    rcases List.mem_cons.1 hy with rfl | hy
    · exact hx y rfl
    · exact hxs y hy
  | case5 tokens x middle hsome hlt =>
    intro rest ys hsound heq
    obtain ⟨rfl, rfl⟩ := Prod.mk.inj (Except.ok.inj heq)
    obtain ⟨hx, hmiddle⟩ := h _ _ _ hsound hsome
    refine ⟨fun y hy => ?_, hmiddle⟩
    obtain rfl := List.mem_singleton.1 hy
    exact hx y rfl

theorem optional_ensures {α : Type} {P : α → Prop} {Q : Bool → Prop} {present : Reader Bool}
    {item : Reader α} (hp : Ensures present Q) (hi : Ensures item P) :
    Ensures (optional present item) fun o => ∀ x ∈ o, P x := by
  unfold optional
  refine hp.bind fun b _ => .ite (fun _ => ?_) fun _ => .pure (by simp)
  exact hi.bind fun x hx => .pure fun y hy => Option.some.inj hy ▸ hx

theorem separated_ensures {α : Type} {P : α → Prop} {Q : Bool → Prop} {more : Reader Bool}
    {item : Reader α} (hm : Ensures more Q) (hi : Ensures item P) :
    Ensures (separated more item) fun xs => xs ≠ [] ∧ ∀ x ∈ xs, P x := by
  unfold separated
  refine hi.bind fun x hx => (many_ensures (optional_ensures hm hi)).bind fun xs hxs => ?_
  exact .pure ⟨List.cons_ne_nil _ _, List.forall_mem_cons.2 ⟨hx, hxs⟩⟩

theorem commaList_ensures {α : Type} {P : α → Prop} {item : Reader α} (hi : Ensures item P) :
    Ensures (commaList item) fun xs => xs ≠ [] ∧ ∀ x ∈ xs, P x :=
  separated_ensures (accept_ensures _) hi

theorem parenthesised_ensures {α : Type} {P : α → Prop} {inner : Reader α}
    (hi : Ensures inner P) : Ensures (parenthesised inner) P := by
  unfold parenthesised
  refine (expect_ensures _).bind fun _ _ => hi.bind fun x hx => ?_
  exact (expect_ensures _).bind fun _ _ => .pure hx

/-! ## Names and literals -/

theorem name_ensures : Ensures name fun _ => True := by
  intro tokens rest s hsound h
  refine ⟨trivial, ?_⟩
  unfold name at h
  split at h
  · split at h
    · obtain ⟨-, rfl⟩ := Prod.mk.inj (Except.ok.inj h)
      exact fun t ht => hsound t (List.mem_cons_of_mem _ ht)
    · cases h
  · cases h

theorem columnRef_ensures : Ensures columnRef fun _ => True := by
  unfold columnRef
  refine name_ensures.bind fun _ _ => (accept_ensures _).bind fun _ _ => ?_
  refine .ite (fun _ => ?_) fun _ => ?_
  · exact name_ensures.bind fun _ _ => .pure trivial
  · exact .pure trivial

theorem mem_spellings {k : Keyword} {text : String} (h : k.isSpelled text = true) :
    (Text.lowercase text, k) ∈ Keyword.spellings := by
  simp only [Keyword.isSpelled, Bool.and_eq_true, beq_iff_eq] at h
  exact mem_of_lookup h.1

/-- The literal that a sound token is can be read again. -/
theorem literalOf?_readable {t : Token} (ht : t.Sound) {l : Literal} (h : literalOf? t = some l) :
    l.Readable ∧ l.kind ≠ .raw := by
  obtain ⟨kind, lexeme, position⟩ := t
  have hspelled {k : Keyword} (hk : kind = .keyword k) : k.isSpelled lexeme = true := by
    subst hk
    simpa [Token.Sound, TokenKind.Admits] using ht
  unfold literalOf? at h
  split at h
  case h_1 | h_2 | h_3 | h_7 | h_8 =>
    rename_i hkind
    obtain rfl := Option.some.inj h
    obtain rfl : kind = _ := hkind
    exact ⟨ht, by simp⟩
  case h_6 =>
    obtain rfl := Option.some.inj h
    exact ⟨rfl, by simp⟩
  case h_4 hk =>
    obtain rfl := Option.some.inj h
    have := mem_spellings (hspelled hk)
    simp [Keyword.spellings] at this
    exact ⟨.inl this, by simp⟩
  case h_5 hk =>
    obtain rfl := Option.some.inj h
    have := mem_spellings (hspelled hk)
    simp [Keyword.spellings] at this
    exact ⟨.inr this, by simp⟩
  case h_9 => cases h

theorem valueOf?_readable {t : Token} (ht : t.Sound) {l : Literal} (h : valueOf? t = some l) :
    l.Readable := by
  unfold valueOf? at h
  split at h
  · obtain rfl := Option.some.inj h
    trivial
  · obtain rfl := Option.some.inj h
    trivial
  · exact (literalOf?_readable ht h).1

theorem literalBy_ensures {read? : Token → Option Literal} {P : Literal → Prop}
    (h : ∀ {t l}, Token.Sound t → read? t = some l → P l) : Ensures (literalBy read?) P := by
  unfold literalBy
  refine peek?_ensures.bind fun t? ht => ?_
  split
  · next l hl =>
    obtain ⟨t, rfl, hread⟩ := Option.bind_eq_some_iff.1 hl
    exact advance_ensures.bind fun _ _ => .pure (h (ht t rfl) hread)
  · exact .stop _

theorem value_ensures : Ensures value Literal.Readable :=
  literalBy_ensures fun ht hl => valueOf?_readable ht hl

theorem defaultLiteral_ensures : Ensures defaultLiteral fun l => l.Readable ∧ l.kind ≠ .raw :=
  literalBy_ensures fun ht hl => literalOf?_readable ht hl

/-! ## CREATE -/

theorem ifNotExists_ensures : Ensures ifNotExists fun _ => True := by
  unfold ifNotExists
  refine (accept_ensures _).bind fun _ _ => .ite (fun _ => ?_) fun _ => .pure trivial
  exact (expect_ensures _).bind fun _ _ => (expect_ensures _).bind fun _ _ => .pure trivial

theorem typeName_ensures : Ensures typeName fun _ => True := by
  unfold typeName
  refine name_ensures.bind fun type _ => (accept_ensures _).bind fun _ _ => ?_
  refine .ite (fun _ => ?_) fun _ => .pure trivial
  refine (expect_ensures _).bind fun _ _ => (accept_ensures _).bind fun _ _ => ?_
  refine .ite (fun _ => ?_) fun _ => ?_
  · exact (expect_ensures _).bind fun _ _ => (expect_ensures _).bind fun _ _ => .pure trivial
  · exact (expect_ensures _).bind fun _ _ => .pure trivial

/-- An option of a column of a type. -/
def ColumnOption.Readable (type : String) : ColumnOption → Prop
  | .constraint c => c.Readable
  | .nullable => True
  | .timeZone => type.toList.map Char.toLower = "timestamp".toList

theorem columnOption?_ensures (type : String) :
    Ensures (columnOption? type) fun o => ∀ x ∈ o, x.Readable type := by
  unfold columnOption?
  refine peekKind?_ensures.bind fun k _ => ?_
  split
  · refine advance_ensures.bind fun _ _ => ?_
    exact .pure (by simp [ColumnOption.Readable, Constraint.Readable])
  · refine advance_ensures.bind fun _ _ => (expect_ensures _).bind fun _ _ => ?_
    exact .pure (by simp [ColumnOption.Readable, Constraint.Readable])
  · exact advance_ensures.bind fun _ _ => .pure (by simp [ColumnOption.Readable])
  · refine advance_ensures.bind fun _ _ => (expect_ensures _).bind fun _ _ => ?_
    exact .pure (by simp [ColumnOption.Readable, Constraint.Readable])
  · refine advance_ensures.bind fun _ _ => ?_
    exact .pure (by simp [ColumnOption.Readable, Constraint.Readable])
  · refine advance_ensures.bind fun _ _ => defaultLiteral_ensures.bind fun l hl => ?_
    exact .pure (by simpa [ColumnOption.Readable, Constraint.Readable] using hl)
  · refine .ite (fun _ => .stop _) fun hzone => ?_
    refine advance_ensures.bind fun _ _ => (expect_ensures _).bind fun _ _ => ?_
    refine (expect_ensures _).bind fun _ _ => .pure ?_
    simpa [ColumnOption.Readable] using hzone
  · exact .pure (by simp)
  · exact .pure (by simp)
  · exact .stop _

theorem columnDef_ensures : Ensures columnDef ColumnDef.Readable := by
  unfold columnDef
  refine name_ensures.bind fun column _ => typeName_ensures.bind fun type _ => ?_
  refine (many_ensures (columnOption?_ensures type)).bind fun options hoptions => .pure ⟨?_, ?_⟩
  · intro hzone
    exact hoptions .timeZone (List.contains_iff_mem.1 hzone)
  · intro c hc
    obtain ⟨o, ho, heq⟩ := List.mem_filterMap.1 hc
    cases o with
    | constraint c' =>
      obtain rfl := Option.some.inj heq
      exact hoptions _ ho
    | nullable => cases heq
    | timeZone => cases heq

theorem tableItem_ensures :
    Ensures tableItem fun item => ∀ d, item = .inr d → d.Readable := by
  unfold tableItem
  refine (accept_ensures _).bind fun _ _ => .ite (fun _ => ?_) fun _ => ?_
  · refine (expect_ensures _).bind fun _ _ => ?_
    exact (parenthesised_ensures (commaList_ensures name_ensures)).bind fun _ _ => .pure (by simp)
  · exact columnDef_ensures.bind fun d hd => .pure fun d' h => Sum.inr.inj h ▸ hd

theorem createTable_ensures : Ensures createTable CreateTable.Readable := by
  unfold createTable
  refine (expect_ensures _).bind fun _ _ => ifNotExists_ensures.bind fun _ _ => ?_
  refine name_ensures.bind fun _ _ => ?_
  refine (parenthesised_ensures (commaList_ensures tableItem_ensures)).bind fun items hitems => ?_
  refine .ite (fun _ => (Ensures.stop _).bind fun _ h => h) fun hcolumns => .pure ⟨?_, ?_⟩
  · simpa using hcolumns
  · intro d hd
    obtain ⟨item, hitem, heq⟩ := List.mem_filterMap.1 hd
    exact hitems.2 item hitem d (Sum.getRight?_eq_some_iff.1 heq)

theorem indexColumn_ensures : Ensures indexColumn fun _ => True := by
  unfold indexColumn
  refine name_ensures.bind fun _ _ => (accept_ensures _).bind fun _ _ => ?_
  exact .ite (fun _ => (expect_ensures _).bind fun _ _ => .pure trivial) fun _ => .pure trivial

theorem createIndex_ensures : Ensures createIndex CreateIndex.Readable := by
  unfold createIndex
  refine (accept_ensures _).bind fun _ _ => (expect_ensures _).bind fun _ _ => ?_
  refine ifNotExists_ensures.bind fun _ _ => name_ensures.bind fun _ _ => ?_
  refine (expect_ensures _).bind fun _ _ => name_ensures.bind fun _ _ => ?_
  refine (parenthesised_ensures (commaList_ensures indexColumn_ensures)).bind fun _ h => ?_
  exact .pure ⟨h.1⟩

theorem create_ensures : Ensures create Statement.Readable := by
  unfold create
  refine advance_ensures.bind fun _ _ => peekKind?_ensures.bind fun k _ => ?_
  split
  · exact createTable_ensures.bind fun _ h => .pure h
  · exact createIndex_ensures.bind fun _ h => .pure h
  · exact createIndex_ensures.bind fun _ h => .pure h
  · exact .stop _

/-! ## INSERT -/

theorem valueRow_ensures (width : Nat) :
    Ensures (valueRow width) fun row => row.length = width ∧ ∀ l ∈ row, l.Readable := by
  unfold valueRow
  refine (expect_ensures _).bind fun _ _ => ?_
  refine (commaList_ensures value_ensures).bind fun row hrow => ?_
  refine .ite (fun _ => (Ensures.stop _).bind fun _ h => h) fun hwidth => ?_
  exact (expect_ensures _).bind fun _ _ => .pure ⟨by simpa using hwidth, hrow.2⟩

theorem insert_ensures : Ensures insert Insert.Readable := by
  unfold insert
  refine advance_ensures.bind fun _ _ => (expect_ensures _).bind fun _ _ => ?_
  refine name_ensures.bind fun _ _ => ?_
  refine (parenthesised_ensures (commaList_ensures name_ensures)).bind fun columns hcolumns => ?_
  refine (expect_ensures _).bind fun _ _ => ?_
  refine (commaList_ensures (valueRow_ensures columns.length)).bind fun rows hrows => ?_
  refine (optional_ensures (accept_ensures _) name_ensures).bind fun _ _ => .pure ?_
  exact ⟨hcolumns.1, hrows.1, fun row h => (hrows.2 row h).1, fun row h => (hrows.2 row h).2⟩

/-! ## Conditions -/

theorem acceptOne_ensures : Ensures acceptOne fun _ => True := by
  unfold acceptOne
  refine peek?_ensures.bind fun t? _ => ?_
  split
  · exact .ite (fun _ => advance_ensures.bind fun _ _ => .pure trivial) fun _ => .pure trivial
  · exact .pure trivial

theorem columnCondition_ensures : Ensures columnCondition Condition.Readable := by
  unfold columnCondition
  refine columnRef_ensures.bind fun _ _ => (accept_ensures _).bind fun _ _ => ?_
  refine .ite (fun _ => ?_) fun _ => ?_
  · refine (accept_ensures _).bind fun _ _ => (expect_ensures _).bind fun _ _ => ?_
    exact .pure trivial
  refine (accept_ensures _).bind fun _ _ => (accept_ensures _).bind fun _ _ => ?_
  refine .ite (fun _ => ?_) fun _ => ?_
  · exact (parenthesised_ensures (commaList_ensures value_ensures)).bind fun _ h => .pure h
  refine .ite (fun _ => (Ensures.stop _).bind fun _ h => h) fun _ => ?_
  refine peekKind?_ensures.bind fun _ _ => ?_
  split
  · exact advance_ensures.bind fun _ _ => value_ensures.bind fun _ h => .pure h
  · exact .stop _

theorem bareCondition_ensures : Ensures bareCondition Condition.Readable := by
  unfold bareCondition
  refine acceptOne_ensures.bind fun _ _ => .ite (fun _ => ?_) fun _ => columnCondition_ensures
  refine (accept_ensures _).bind fun _ _ => .ite (fun _ => ?_) fun _ => .pure trivial
  refine acceptOne_ensures.bind fun _ _ => ?_
  exact .ite (fun _ => (Ensures.stop _).bind fun _ h => h) fun _ => .pure trivial

theorem closeParentheses_ensures (n : Nat) : Ensures (closeParentheses n) fun _ => True := by
  induction n with
  | zero => exact .pure trivial
  | succ n ih => exact (expect_ensures _).bind fun _ _ => ih

theorem condition_ensures : Ensures condition Condition.Readable := by
  unfold condition
  refine (skipAll_ensures _).bind fun n _ => bareCondition_ensures.bind fun c hc => ?_
  exact (closeParentheses_ensures n).bind fun _ _ => .pure hc

theorem anotherCondition_ensures : Ensures anotherCondition fun _ => True := by
  unfold anotherCondition
  refine peekKind?_ensures.bind fun _ _ => ?_
  exact .ite (fun _ => .stop _) fun _ => accept_ensures _

theorem conditions_ensures {absent : List Condition} {P : List Condition → Prop}
    (habsent : P absent)
    (hpresent : ∀ cs, cs ≠ [] → (∀ c ∈ cs, c.Readable) → P cs) : Ensures (conditions absent) P := by
  unfold conditions
  refine (accept_ensures _).bind fun _ _ => .ite (fun _ => ?_) fun _ => .pure habsent
  exact (separated_ensures anotherCondition_ensures condition_ensures).imp fun cs h =>
    hpresent cs h.1 h.2

/-- Conditions of a statement that always has one. -/
theorem someConditions_ensures :
    Ensures (conditions [.always]) fun cs => cs ≠ [] ∧ ∀ c ∈ cs, c.Readable :=
  conditions_ensures ⟨by simp, by simp [Condition.Readable]⟩ fun _ h h' => ⟨h, h'⟩

/-! ## SELECT -/

theorem distinct_ensures :
    Ensures distinct fun d => ∀ columns, d = some (.on columns) → columns ≠ [] := by
  unfold distinct
  refine (accept_ensures _).bind fun _ _ => .ite (fun _ => ?_) fun _ => .pure (by simp)
  refine (accept_ensures _).bind fun _ _ => .ite (fun _ => ?_) fun _ => .pure (by simp)
  refine (parenthesised_ensures (commaList_ensures columnRef_ensures)).bind fun keys h => .pure ?_
  rintro columns heq
  obtain rfl := Distinct.on.inj (Option.some.inj heq)
  exact h.1

theorem projection_ensures : Ensures projection fun _ => True := by
  have hcolumn : Ensures (columnRef >>= fun c => pure (Projection.column c)) fun _ => True :=
    columnRef_ensures.bind fun _ _ => .pure trivial
  have harg : Ensures countArg fun _ => True := by
    unfold countArg
    refine (accept_ensures _).bind fun _ _ => .ite (fun _ => .pure trivial) fun _ => ?_
    exact columnRef_ensures.bind fun _ _ => .pure trivial
  unfold projection
  refine (accept_ensures _).bind fun _ _ => .ite (fun _ => .pure trivial) fun _ => ?_
  refine peekKind?_ensures.bind fun _ _ => peekSecond?_ensures.bind fun _ _ => ?_
  refine .ite (fun _ => ?_) fun _ => hcolumn
  refine advance_ensures.bind fun _ _ => (parenthesised_ensures harg).bind fun _ _ => .pure trivial

theorem join_ensures : Ensures join fun _ => True := by
  unfold join
  refine name_ensures.bind fun _ _ => (expect_ensures _).bind fun _ _ => ?_
  refine columnRef_ensures.bind fun _ _ => (expect_ensures _).bind fun _ _ => ?_
  exact columnRef_ensures.bind fun _ _ => .pure trivial

theorem sortKey_ensures : Ensures sortKey fun _ => True := by
  unfold sortKey
  refine columnRef_ensures.bind fun _ _ => (accept_ensures _).bind fun _ _ => ?_
  exact .ite (fun _ => .pure trivial) fun _ => (accept_ensures _).bind fun _ _ => .pure trivial

theorem orderBy_ensures : Ensures orderBy fun _ => True := by
  unfold orderBy
  refine (accept_ensures _).bind fun _ _ => .ite (fun _ => ?_) fun _ => .pure trivial
  refine (expect_ensures _).bind fun _ _ => ?_
  exact (commaList_ensures sortKey_ensures).imp fun _ _ => trivial

theorem readCount?_lt {cs : List Char} {n : Nat} (h : Number.Whole.readCount? cs = some n) :
    n < UInt64.size := by
  unfold Number.Whole.readCount? at h
  extract_lets digits at h
  split at h
  · split at h
    · next hlt => exact Option.some.inj h ▸ hlt
    · cases h
  · cases h

theorem rowCount_ensures : Ensures rowCount fun n => n < UInt64.size := by
  unfold rowCount
  refine peek?_ensures.bind fun _ _ => ?_
  split
  · refine .ite (fun _ => ?_) fun _ => .stop _
    split
    · next n hn =>
      exact advance_ensures.bind fun _ _ => .pure (readCount?_lt hn)
    · exact .stop _
  · exact .stop _

theorem forUpdate_ensures : Ensures forUpdate fun _ => True := by
  unfold forUpdate
  refine (accept_ensures _).bind fun _ _ => .ite (fun _ => ?_) fun _ => .pure trivial
  exact (expect_ensures _).bind fun _ _ => .pure trivial

theorem select_ensures : Ensures select Select.Readable := by
  unfold select
  refine advance_ensures.bind fun _ _ => distinct_ensures.bind fun d hd => ?_
  refine (commaList_ensures projection_ensures).bind fun own hown => ?_
  refine (expect_ensures _).bind fun _ _ => ?_
  refine (commaList_ensures name_ensures).bind fun tables ht => ?_
  refine (many_ensures (optional_ensures (accept_ensures _) join_ensures)).bind fun _ _ => ?_
  refine someConditions_ensures.bind fun cs hcs => orderBy_ensures.bind fun _ _ => ?_
  refine (optional_ensures (accept_ensures _) rowCount_ensures).bind fun limit hlimit => ?_
  refine (optional_ensures (accept_ensures _) rowCount_ensures).bind fun offset hoffset => ?_
  refine forUpdate_ensures.bind fun _ _ => .pure ?_
  obtain ⟨hcs, hreadable⟩ := hcs
  cases d with
  | none => exact ⟨by simp, hown.1, ht.1, hcs, hreadable, hlimit, hoffset⟩
  | some d =>
    cases d with
    | all => exact ⟨by simp, hown.1, ht.1, hcs, hreadable, hlimit, hoffset⟩
    | on columns =>
      have hdrop : (columns.map Projection.column ++ own).drop columns.length = own :=
        List.drop_left' (List.length_map _)
      refine ⟨?_, ?_, ht.1, hcs, hreadable, hlimit, hoffset⟩
      · rintro _ heq
        obtain rfl := Distinct.on.inj (Option.some.inj heq)
        refine ⟨hd _ rfl, ?_⟩
        rw [Select.ownProjections]
        dsimp only
        rw [hdrop]
      · rw [Select.ownProjections]
        dsimp only
        rw [hdrop]
        exact hown.1

/-! ## The other statements -/

theorem assignment_ensures : Ensures assignment fun a => a.2.Readable := by
  unfold assignment
  refine name_ensures.bind fun _ _ => (expect_ensures _).bind fun _ _ => ?_
  exact value_ensures.bind fun _ h => .pure h

theorem update_ensures : Ensures update Update.Readable := by
  unfold update
  refine advance_ensures.bind fun _ _ => name_ensures.bind fun _ _ => ?_
  refine (expect_ensures _).bind fun _ _ => ?_
  refine (commaList_ensures assignment_ensures).bind fun _ ha => ?_
  exact someConditions_ensures.bind fun _ hc => .pure ⟨ha.1, ha.2, hc.1, hc.2⟩

theorem delete_ensures : Ensures delete Delete.Readable := by
  unfold delete
  refine advance_ensures.bind fun _ _ => (expect_ensures _).bind fun _ _ => ?_
  refine name_ensures.bind fun _ _ => ?_
  have hconditions : Ensures (conditions []) fun cs => ∀ c ∈ cs, c.Readable :=
    conditions_ensures (by simp) fun _ _ h => h
  exact hconditions.bind fun _ h => .pure ⟨h⟩

theorem truncate_ensures : Ensures truncate fun _ => True := by
  unfold truncate
  exact advance_ensures.bind fun _ _ => (accept_ensures _).bind fun _ _ => name_ensures

theorem drop_ensures : Ensures drop Statement.Readable := by
  unfold drop
  refine advance_ensures.bind fun _ _ => (expect_ensures _).bind fun _ _ => ?_
  refine (accept_ensures _).bind fun guarded _ => .ite (fun _ => ?_) fun _ => ?_
  · refine (expect_ensures _).bind fun _ _ => ?_
    exact name_ensures.bind fun _ _ => .pure trivial
  · exact name_ensures.bind fun _ _ => .pure trivial

theorem statement_ensures : Ensures statement Statement.Readable := by
  unfold statement
  refine peekKind?_ensures.bind fun _ _ => ?_
  split
  · exact create_ensures
  · exact select_ensures.bind fun _ h => .pure h
  · exact insert_ensures.bind fun _ h => .pure h
  · exact update_ensures.bind fun _ h => .pure h
  · exact delete_ensures.bind fun _ h => .pure h
  · exact truncate_ensures.bind fun _ _ => .pure trivial
  · exact drop_ensures
  · exact (skipUntil_ensures _).bind fun _ _ => .pure trivial
  · exact .stop _

theorem nextStatement?_ensures : Ensures nextStatement? fun o => ∀ s ∈ o, s.Readable := by
  unfold nextStatement?
  refine (skipAll_ensures _).bind fun _ _ => atEnd_ensures.bind fun _ _ => ?_
  refine .ite (fun _ => .pure (by simp)) fun _ => ?_
  refine statement_ensures.bind fun s hs => peekKind?_ensures.bind fun _ _ => ?_
  have hsome : ∀ s' ∈ some s, s'.Readable := fun s' h => Option.some.inj h ▸ hs
  split
  · exact .pure hsome
  · exact .pure hsome
  · exact .stop _

end Reader

/-! ## Top theorem -/

/-- Every statement that is read from a text is readable. -/
theorem Statement.parse_readable {text : String} {statements : List Statement}
    (h : parse text = .ok statements) : ∀ s ∈ statements, s.Readable := by
  unfold parse at h
  obtain ⟨tokens, htokens, h⟩ := bind_eq_ok.1 h
  unfold ofTokens at h
  split at h
  · next read rest hmany =>
    obtain rfl := Except.ok.inj h
    exact (Reader.many_ensures Reader.nextStatement?_ensures _ _ _ (Token.scan_sound htokens)
      hmany).1
  · cases h

end Tabula
