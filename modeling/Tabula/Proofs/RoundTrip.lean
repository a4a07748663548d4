import Tabula.Proofs.Parts

/-!
# Printed statements are read back

Each statement is the reading of its printed form, and so are several with semicolons between them.

* `Reader.statement_takes`: a statement is taken off the pieces it is printed as.
* `Statement.parse_printAll`: what was read from a text is read again from its printed form.
-/

namespace Tabula

namespace Reader

/-- What may stand after a statement. -/
def ends : List (Option TokenKind) :=
  [none, some .semicolon]

theorem next_wherePieces {cs : List Condition} (h : cs ≠ []) (ps : List Piece)
    (k : Option TokenKind) :
    Piece.next (Condition.wherePieces cs ++ ps) k = some (.keyword .whereWord) := by
  obtain ⟨first, others, rfl⟩ := List.exists_cons_of_ne_nil h
  exact congrArg some (Piece.clear_keyword .whereWord).2

/-! ## CREATE -/

/-- What is printed between the parentheses of a CREATE TABLE. -/
def tableItems (s : CreateTable) : List (List String ⊕ ColumnDef) :=
  s.columns.map .inr ++ if s.primaryKey.isEmpty then [] else [.inl s.primaryKey]

theorem tableItems_pieces (s : CreateTable) :
    s.pieces = .plain "CREATE" :: .plain "TABLE" ::
      (Piece.whenever s.ifNotExists ["IF", "NOT", "EXISTS"] ++
        .name s.table ::
          Piece.parenthesised (Piece.commaList ((tableItems s).map itemPieces))) := by
  have hcolumns : (s.columns.map Sum.inr).map itemPieces = s.columns.map ColumnDef.pieces := by
    rw [List.map_map]
    rfl
  rw [tableItems, List.map_append, hcolumns]
  by_cases hkey : s.primaryKey.isEmpty
  · simp [CreateTable.pieces, Piece.plains, hkey]
  · simp [CreateTable.pieces, Piece.plains, hkey, itemPieces]

theorem tableItems_columns (s : CreateTable) :
    (tableItems s).filterMap Sum.getRight? = s.columns := by
  have hcolumns : (s.columns.map Sum.inr).filterMap (Sum.getRight? (α := List String)) =
      s.columns := by
    rw [List.filterMap_map]
    exact List.filterMap_some
  rw [tableItems, List.filterMap_append, hcolumns]
  by_cases hkey : s.primaryKey.isEmpty <;> simp [hkey]

theorem tableItems_primaryKey (s : CreateTable) :
    ((tableItems s).filterMap Sum.getLeft?).flatten = s.primaryKey := by
  have hcolumns : (s.columns.map Sum.inr).filterMap (Sum.getLeft? (α := List String)) = [] := by
    rw [List.filterMap_map]
    exact List.filterMap_eq_nil_iff.2 fun _ _ => rfl
  rw [tableItems, List.filterMap_append, hcolumns]
  by_cases hkey : s.primaryKey.isEmpty
  · rw [if_pos hkey, List.isEmpty_iff.1 hkey]
    rfl
  · rw [if_neg hkey]
    simp

theorem createTable_takes {s : CreateTable} (h : s.Readable) :
    Takes create s.pieces (.createTable s) fun _ => True := by
  have hitems : ∀ item ∈ tableItems s, Takes tableItem (itemPieces item) item fun k =>
      k = some .comma ∨ k = some .rparen := by
    intro item hitem
    rcases List.mem_append.1 hitem with hitem | hitem
    · obtain ⟨d, hd, rfl⟩ := List.mem_map.1 hitem
      exact tableColumn_takes (h.readable d hd)
    · by_cases hkey : s.primaryKey.isEmpty
      · simp [hkey] at hitem
      · rw [if_neg hkey, List.mem_singleton] at hitem
        rw [hitem]
        exact (tableKey_takes (by simpa using hkey)).imp fun _ _ => trivial
  have hne : tableItems s ≠ [] := by
    rw [tableItems]
    simp [h.columns]
  rw [tableItems_pieces]
  unfold create
  refine (advanceWord_takes .create).step ?_
  refine look_word .table (.last ?_ rfl)
  unfold createTable
  refine (expectWord_takes .table).step ?_
  refine (ifNotExists_takes s.ifNotExists).bind ?_ fun k _ => by simp [Piece.next, Piece.kind]
  refine (name_takes s.table).step ?_
  refine (parenthesised_takes (by simp) (commaList_takes (.inl rfl) hne hitems)).last ?_
  dsimp only
  rw [tableItems_columns, tableItems_primaryKey, if_neg (by simpa using h.columns)]

/-- What is printed after the CREATE of a CREATE INDEX. -/
def indexPieces (s : CreateIndex) : List Piece :=
  Piece.whenever s.unique ["UNIQUE"] ++ .plain "INDEX" ::
    (Piece.whenever s.ifNotExists ["IF", "NOT", "EXISTS"] ++
      .name s.name :: .plain "ON" :: .name s.table ::
        Piece.parenthesised (Piece.commaList (s.columns.map IndexColumn.pieces)))

theorem indexPieces_takes {s : CreateIndex} (h : s.Readable) :
    Takes createIndex (indexPieces s) s fun _ => True := by
  have hindex : (Piece.plain "INDEX").kind = .keyword .index := (Piece.clear_keyword .index).2
  have hcolumns := commaList_takes (by simp) h.columns fun c _ => indexColumn_takes c
  unfold createIndex
  refine (acceptWord_whenever .unique s.unique).bind ?_ fun k _ => by
    simp [Piece.next, hindex]
  refine (expectWord_takes .index).step ?_
  refine (ifNotExists_takes s.ifNotExists).bind ?_ fun k _ => by simp [Piece.next, Piece.kind]
  refine (name_takes s.name).step ((expectWord_takes .on).step ?_)
  exact (name_takes s.table).step ((parenthesised_takes (by simp) hcolumns).last rfl)

theorem createIndex_takes {s : CreateIndex} (h : s.Readable) :
    Takes create s.pieces (.createIndex s) fun _ => True := by
  have hpieces : s.pieces = .plain "CREATE" :: indexPieces s := by
    simp [CreateIndex.pieces, indexPieces]
  have hrest := indexPieces_takes h
  rw [hpieces]
  unfold create
  refine (advanceWord_takes .create).step ?_
  unfold indexPieces at hrest ⊢
  cases hunique : s.unique with
  | false =>
    rw [hunique] at hrest
    exact look_word .index (hrest.last rfl)
  | true =>
    rw [hunique] at hrest
    exact look_word .unique (hrest.last rfl)

/-! ## INSERT, UPDATE and DELETE -/

/-- How a RETURNING is written, if there is one. -/
def returningPieces : Option String → List Piece
  | some column => [.plain "RETURNING", .name column]
  | none => []

theorem returning_takes (returning : Option String) :
    Takes (optional (acceptWord .returning) name) (returningPieces returning) returning
      (· ≠ some (.keyword .returning)) := by
  cases returning with
  | none => exact optional_skips (acceptWord_skips .returning)
  | some column =>
    exact (optional_takes (acceptWord_takes .returning) (name_takes column)).imp
      fun _ _ => trivial

theorem begins_returning (returning : Option String) :
    Piece.Begins (returningPieces returning) (.keyword .returning) := by
  cases returning with
  | none => exact .nil _
  | some column => exact .keyword .returning _

theorem insert_takes {s : Insert} (h : s.Readable) : Takes insert s.pieces s (· ∈ ends) := by
  have hpieces : s.pieces = .plain "INSERT" :: .plain "INTO" :: .name s.table ::
      (Piece.parenthesised (Piece.names s.columns) ++ .plain "VALUES" ::
        (Piece.commaList (s.rows.map Piece.literals) ++ returningPieces s.returning)) := by
    obtain ⟨table, columns, rows, returning⟩ := s
    cases returning <;> simp [Insert.pieces, Piece.plains, returningPieces]
  have hrow : ∀ row ∈ s.rows,
      Takes (valueRow s.columns.length) (Piece.literals row) row fun _ => True := by
    intro row hrow
    have hwidth := h.widths row hrow
    have hne : row ≠ [] := by
      rintro rfl
      exact h.columns (List.length_eq_zero_iff.1 hwidth.symm)
    exact valueRow_takes hwidth hne (h.readable row hrow)
  rw [hpieces]
  unfold insert
  refine (advanceWord_takes .insert).step ?_
  refine (expectWord_takes .into).step ((name_takes s.table).step ?_)
  refine (parenthesised_takes (by simp) (names_takes h.columns)).bind ?_ fun _ _ => trivial
  refine (expectWord_takes .values).step ?_
  have hreturning : Takes (optional (acceptWord .returning) name) (returningPieces s.returning)
      s.returning (· ∈ ends) := (returning_takes s.returning).imp (by decide)
  exact (commaList_takes trivial h.rows hrow).bind_next (hreturning.last rfl)
    (fun k hk => (begins_returning s.returning).next_mem hk) (by decide)

theorem update_takes {s : Update} (h : s.Readable) : Takes update s.pieces s (· ∈ ends) := by
  have hpieces : s.pieces = .plain "UPDATE" :: .name s.table :: .plain "SET" ::
      (Piece.commaList (s.assignments.map fun a => [.name a.1, .plain "=", a.2.piece]) ++
        Condition.wherePieces s.conditions) := rfl
  rw [hpieces]
  unfold update
  refine (advanceWord_takes .update).step ?_
  refine (name_takes s.table).step ((expectWord_takes .set).step ?_)
  refine (commaList_takes trivial h.assignments fun a ha => assignment_takes (h.literals a ha)).bind
    (((conditions_takes h.conditions h.readable).imp (by decide)).last rfl) fun k _ => ?_
  rw [← List.append_nil (Condition.wherePieces _), next_wherePieces h.conditions]
  exact ⟨trivial, by simp⟩

theorem delete_takes {s : Delete} (h : s.Readable) : Takes delete s.pieces s (· ∈ ends) := by
  have hconditions : Takes (conditions []) (Condition.wherePieces s.conditions) s.conditions
      (· ∈ ends) := by
    by_cases hne : s.conditions = []
    · rw [hne]
      exact (conditions_skips []).imp (by decide)
    · exact (conditions_takes hne h.readable).imp (by decide)
  unfold delete
  refine (advanceWord_takes .delete).step ?_
  refine (expectWord_takes .fromWord).step ?_
  exact (name_takes s.table).step (hconditions.last rfl)

/-! ## SELECT -/

/-- The columns of an answer begin with a name, a star or COUNT. -/
theorem projection_next (p : Projection) (ps : List Piece) (k : Option TokenKind) :
    Piece.next (p.pieces ++ ps) k ∈
      [some .quotedIdent, some .star, some (.keyword .count)] := by
  cases p with
  | star =>
    have hstar : (Piece.plain "*").kind = .star := (Piece.clear_mark (by decide)).2
    simp [Projection.pieces, Piece.next, hstar]
  | column c => simp [Projection.pieces, columnRef_next]
  | count arg =>
    obtain ⟨qs, hpieces, -⟩ := countArg_takes arg
    have hcount : (Piece.plain "COUNT").kind = .keyword .count := (Piece.clear_keyword .count).2
    simp [hpieces, Piece.next, hcount]

/-- Lists of projections begin as their first one does. -/
theorem projections_next {projections : List Projection} (h : projections ≠ []) (ps : List Piece)
    (k : Option TokenKind) :
    Piece.next (Piece.commaList (projections.map Projection.pieces) ++ ps) k ∈
      [some .quotedIdent, some .star, some (.keyword .count)] := by
  obtain ⟨first, others, rfl⟩ := List.exists_cons_of_ne_nil h
  rw [commaList_pieces, List.append_assoc]
  exact projection_next first _ k

theorem begins_join (joins : List Join) :
    Piece.Begins (joins.flatMap Join.pieces) (.keyword .join) := by
  cases joins with
  | nil => exact .nil _
  | cons j rest => exact .keyword .join _

theorem begins_order (keys : List SortKey) : Piece.Begins (orderPieces keys) (.keyword .order) := by
  cases keys with
  | nil => exact .nil _
  | cons key rest => exact .keyword .order _

theorem begins_count (k : Keyword) (n? : Option Nat) :
    Piece.Begins (Piece.count k.capitals n?) (.keyword k) := by
  cases n? with
  | none => exact .nil _
  | some n => exact .keyword k _

theorem begins_whenever (k : Keyword) (condition : Bool) (texts : List String) :
    Piece.Begins (Piece.whenever condition (k.capitals :: texts)) (.keyword k) := by
  cases condition with
  | false => exact .nil _
  | true => exact .keyword k _

/-- The columns of DISTINCT ON before the projections that are written are all projections. -/
theorem projections_eq {s : Select} (h : s.Readable) :
    (match s.distinct with
      | some (.on columns) => columns.map Projection.column
      | _ => []) ++ s.ownProjections = s.projections := by
  cases hdistinct : s.distinct with
  | none => simp [Select.ownProjections, hdistinct]
  | some d =>
    cases d with
    | all => simp [Select.ownProjections, hdistinct]
    | on columns => exact (h.distinct columns hdistinct).2.symm

/-- Joins are read up to the WHERE that always follows. -/
theorem joins_takes (joins : List Join) :
    Takes (many (optional (acceptWord .join) join)) (joins.flatMap Join.pieces) joins
      (· = some (.keyword .whereWord)) := by
  have hend : Takes (optional (acceptWord .join) join) [] none
      (· = some (.keyword .whereWord)) :=
    (optional_skips (acceptWord_skips .join)).imp (by rintro _ rfl; decide)
  refine many_each hend (by rintro _ rfl; decide) joins
    (fun j _ => ⟨by simp [Join.pieces], join_takes j⟩) fun j _ k => ?_
  exact Piece.keyword_ne (k := .join) (by simp)

/-! ### The clauses of a SELECT, from the last one back -/

/-- The pieces of a SELECT from FOR UPDATE on. -/
def lockPieces (s : Select) : List Piece :=
  Piece.whenever s.forUpdate ["FOR", "UPDATE"]

/-- The pieces of a SELECT from OFFSET on. -/
def offsetPieces (s : Select) : List Piece :=
  Piece.count "OFFSET" s.offset ++ lockPieces s

/-- The pieces of a SELECT from LIMIT on. -/
def limitPieces (s : Select) : List Piece :=
  Piece.count "LIMIT" s.limit ++ offsetPieces s

/-- The pieces of a SELECT from ORDER BY on. -/
def sortPieces (s : Select) : List Piece :=
  orderPieces s.orderBy ++ limitPieces s

/-- The pieces of a SELECT from JOIN on. -/
def joinPieces (s : Select) : List Piece :=
  s.joins.flatMap Join.pieces ++ (Condition.wherePieces s.conditions ++ sortPieces s)

theorem select_pieces (s : Select) :
    s.pieces = .plain "SELECT" :: ((s.distinct.map Distinct.pieces).getD [] ++
      (Piece.commaList (s.ownProjections.map Projection.pieces) ++
        .plain "FROM" :: (Piece.names s.tables ++ joinPieces s))) := by
  simp [Select.pieces, joinPieces, sortPieces, orderPieces, limitPieces, offsetPieces, lockPieces]

section

variable (s : Select) {k : Option TokenKind} (hk : k ∈ ends)
include hk

theorem lockPieces_next : Piece.next (lockPieces s) k ∈ some (.keyword .forWord) :: ends :=
  (begins_whenever .forWord s.forUpdate ["UPDATE"]).next_mem hk

theorem offsetPieces_next :
    Piece.next (offsetPieces s) k ∈
      some (.keyword .offset) :: some (.keyword .forWord) :: ends := by
  rw [offsetPieces, Piece.next_append]
  exact (begins_count .offset s.offset).next_mem (lockPieces_next s hk)

theorem limitPieces_next :
    Piece.next (limitPieces s) k ∈
      some (.keyword .limit) :: some (.keyword .offset) :: some (.keyword .forWord) :: ends := by
  rw [limitPieces, Piece.next_append]
  exact (begins_count .limit s.limit).next_mem (offsetPieces_next s hk)

theorem sortPieces_next :
    Piece.next (sortPieces s) k ∈
      some (.keyword .order) :: some (.keyword .limit) :: some (.keyword .offset) ::
        some (.keyword .forWord) :: ends := by
  rw [sortPieces, Piece.next_append]
  exact (begins_order s.orderBy).next_mem (limitPieces_next s hk)

end

theorem joinPieces_next {s : Select} (h : s.Readable) (k : Option TokenKind) :
    Piece.next (joinPieces s) k ∈ [some (.keyword .join), some (.keyword .whereWord)] := by
  rw [joinPieces, Piece.next_append]
  exact (begins_join s.joins).next_mem (List.mem_singleton.2 (next_wherePieces h.conditions _ k))

theorem select_takes {s : Select} (h : s.Readable) : Takes select s.pieces s (· ∈ ends) := by
  have hfrom : (Piece.plain "FROM").kind = .keyword .fromWord := (Piece.clear_keyword .fromWord).2
  rw [select_pieces]
  unfold select
  refine (advanceWord_takes .select).step ?_
  refine (distinct_takes s.distinct fun columns hd => (h.distinct columns hd).1).bind_next ?_
    (fun k _ => projections_next h.projections _ k) (by decide)
  refine (commaList_takes (by simp) h.projections fun p _ => projection_takes p).bind ?_
    fun k _ => by simp [Piece.next, hfrom]
  refine (expectWord_takes .fromWord).step ?_
  refine (names_takes h.tables).bind_next ?_ (fun k _ => joinPieces_next h k) (by decide)
  refine (joins_takes s.joins).bind ?_ fun k _ => next_wherePieces h.conditions _ k
  refine (conditions_takes h.conditions h.readable).bind_next ?_
    (fun k hk => sortPieces_next s hk) (by decide)
  refine (orderBy_takes s.orderBy).bind_next ?_ (fun k hk => limitPieces_next s hk) (by decide)
  refine (count_takes .limit h.limit).bind_next ?_
    (fun k hk => offsetPieces_next s hk) (by decide)
  refine (count_takes .offset h.offset).bind_next ?_
    (fun k hk => lockPieces_next s hk) (by decide)
  refine ((forUpdate_takes s.forUpdate).imp (by decide)).last ?_
  exact congrArg (fun ps => (pure { s with projections := ps } : Reader Select)) (projections_eq h)

/-! ## Statements -/

theorem truncate_takes (table : String) :
    Takes truncate (Statement.truncate table).pieces table fun _ => True := by
  unfold truncate
  refine (advanceWord_takes .truncate).step ?_
  exact (acceptWord_takes .table).step (name_takes table)

theorem drop_takes (table : String) (guarded : Bool) :
    Takes drop (Statement.dropTable table guarded).pieces (.dropTable table guarded)
      fun _ => True := by
  unfold drop
  cases guarded with
  | false =>
    refine (advanceWord_takes .drop).step ?_
    refine (expectWord_takes .table).step ?_
    refine (acceptWord_skips .ifWord).skip (.ite_false ((name_takes table).last rfl)) ?_
    intro k _ heq
    cases heq
  | true =>
    refine (advanceWord_takes .drop).step ?_
    refine (expectWord_takes .table).step ?_
    refine (acceptWord_takes .ifWord).step (.ite_true ?_)
    exact (expectWord_takes .existsWord).step ((name_takes table).last rfl)

theorem grant_takes : Takes grant Statement.grant.pieces .grant (· ∈ ends) := by
  have hgrant : (Piece.plain "GRANT").Clear ∧ (Piece.plain "GRANT").kind = .keyword .grant :=
    Piece.clear_keyword .grant
  have hskip : Takes (skipUntil .semicolon) [.plain "GRANT"] () (· ∈ ends) := by
    refine (skipUntil_takes fun p hp => ?_).imp (by decide)
    rw [List.mem_singleton.1 hp, hgrant.2]
    exact ⟨hgrant.1, by simp⟩
  unfold grant
  exact hskip.last rfl

/-- A statement is taken off the pieces it is printed as. -/
theorem statement_takes {s : Statement} (h : s.Readable) :
    Takes statement s.pieces s (· ∈ ends) := by
  unfold statement
  cases s with
  | createTable s =>
    exact look_word .create ((createTable_takes h).imp (by simp))
  | createIndex s =>
    exact look_word .create ((createIndex_takes h).imp (by simp))
  | insert s => exact look_word .insert ((insert_takes h).last rfl)
  | select s => exact look_word .select ((select_takes h).last rfl)
  | update s => exact look_word .update ((update_takes h).last rfl)
  | delete s => exact look_word .delete ((delete_takes h).last rfl)
  | truncate table =>
    refine look_word .truncate ?_
    exact ((truncate_takes table).imp fun _ _ => trivial).last rfl
  | dropTable table guarded =>
    refine look_word .drop ?_
    exact (drop_takes table guarded).imp fun _ _ => trivial
  | grant => exact look_word .grant grant_takes

/-- Every statement begins with a keyword. -/
theorem statement_head (s : Statement) :
    ∃ (k : Keyword) (ps : List Piece), s.pieces = .plain k.capitals :: ps := by
  cases s with
  | createTable s => exact ⟨.create, _, rfl⟩
  | createIndex s => exact ⟨.create, _, rfl⟩
  | insert s => exact ⟨.insert, _, rfl⟩
  | select s => exact ⟨.select, _, rfl⟩
  | update s => exact ⟨.update, _, rfl⟩
  | delete s => exact ⟨.delete, _, rfl⟩
  | truncate table => exact ⟨.truncate, _, rfl⟩
  | dropTable table ifExists => exact ⟨.drop, _, rfl⟩
  | grant => exact ⟨.grant, _, rfl⟩

/-- The next statement is read after any semicolons. -/
theorem nextStatement_takes {separators : List Piece}
    (hseparators : ∀ p ∈ separators, p.Clear ∧ p.kind = .semicolon) {s : Statement}
    (h : s.Readable) :
    Takes nextStatement? (separators ++ s.pieces) (some s) (· ∈ ends) := by
  obtain ⟨word, ps, hpieces⟩ := statement_head s
  have hstatement := statement_takes h
  rw [hpieces] at hstatement ⊢
  unfold nextStatement?
  refine (skipAll_takes hseparators).bind (.before_end (.ite_false ?_)) fun k _ =>
    Piece.keyword_ne (k := word) (by simp)
  refine hstatement.bind_nil (.look_after fun k hk => ?_) fun _ hk => hk
  simp only [ends, List.mem_cons, List.not_mem_nil, or_false] at hk
  rcases hk with rfl | rfl
  · exact .pure _
  · exact .pure _

theorem nextStatement_ends : Takes nextStatement? [] none (· = none) := by
  unfold nextStatement?
  refine (skipAll_skips .semicolon).skip (.at_end (.ite_true (.pure none))) ?_
  rintro _ rfl
  simp [Piece.next]

end Reader

namespace Statement

/-- Statements with the pieces they are printed as: a semicolon stands before each but the first. -/
def printed : List Statement → List (List Piece × Statement)
  | [] => []
  | s :: rest => (s.pieces, s) :: rest.map fun t => (.plain ";" :: t.pieces, t)

theorem printed_statements (statements : List Statement) :
    (printed statements).map (·.2) = statements := by
  cases statements with
  | nil => rfl
  | cons s rest => simp [printed, Function.comp_def]

theorem printed_cons_cons (s t : Statement) (rest : List Statement) :
    (printed (s :: t :: rest)).flatMap (·.1) =
      s.pieces ++ .plain ";" :: (printed (t :: rest)).flatMap (·.1) := rfl

theorem pieces_ne_nil (s : Statement) : s.pieces ≠ [] := by
  obtain ⟨word, ps, hpieces⟩ := Reader.statement_head s
  simp [hpieces]

theorem printed_items {statements : List Statement} (h : ∀ s ∈ statements, s.Readable) :
    ∀ i ∈ printed statements, i.1 ≠ [] ∧
      Reader.Takes Reader.nextStatement? i.1 (some i.2) (· ∈ Reader.ends) := by
  intro i hi
  cases statements with
  | nil => cases hi
  | cons s rest =>
    rcases List.mem_cons.1 hi with rfl | hi
    · have hfirst := Reader.nextStatement_takes (by simp : ∀ p ∈ [], _) (h s List.mem_cons_self)
      exact ⟨s.pieces_ne_nil, hfirst⟩
    · obtain ⟨t, ht, rfl⟩ := List.mem_map.1 hi
      have hlater := Reader.nextStatement_takes (List.forall_mem_singleton.2 Reader.clear_semicolon)
        (h t (List.mem_cons_of_mem _ ht))
      exact ⟨List.cons_ne_nil _ _, hlater⟩

theorem printed_takes {statements : List Statement} (h : ∀ s ∈ statements, s.Readable) :
    Reader.Takes (Reader.many Reader.nextStatement?) ((printed statements).flatMap (·.1)) statements
      (· = none) := by
  have hnext : ∀ i ∈ (printed statements).tail, ∀ k, Piece.next i.1 k ∈ Reader.ends := by
    intro i hi k
    cases statements with
    | nil => cases hi
    | cons s rest =>
      obtain ⟨t, -, rfl⟩ := List.mem_map.1 hi
      simp [Piece.next, Reader.clear_semicolon.2, Reader.ends]
  have hmany := Reader.many_takes Reader.nextStatement_ends (by simp [Reader.ends])
    (printed statements) (printed_items h) hnext
  rwa [printed_statements] at hmany

end Statement

/-- Pieces are printed with blanks between them. -/
theorem Piece.chars_eq (ps : List Piece) :
    chars ps = (String.intercalate " " (ps.map text)).toList := by
  induction ps with
  | nil => rfl
  | cons p rest ih =>
    cases rest with
    | nil => simp [chars]
    | cons q rest =>
      rw [Token.chars_cons_cons, ih]
      simp

namespace Statement

/-- What is printed are the pieces of the statements with semicolons between them. -/
theorem printAll_eq (statements : List Statement) :
    printAll statements =
      String.intercalate " " (((printed statements).flatMap (·.1)).map Piece.text) := by
  cases statements with
  | nil => simp [printAll, printed]
  | cons s rest =>
    induction rest generalizing s with
    | nil => simp [printAll, printed, print]
    | cons t rest ih =>
      have htail : ((printed (t :: rest)).flatMap (·.1)).map Piece.text ≠ [] := by
        simp [printed, t.pieces_ne_nil]
      have hsemicolon : (Piece.plain ";").text = ";" := rfl
      rw [printed_cons_cons, List.map_append, List.map_cons,
        String.intercalate_append_of_ne_nil (by simp [s.pieces_ne_nil]) (List.cons_ne_nil _ _),
        String.intercalate_cons_of_ne_nil htail, ← ih t, hsemicolon]
      have hseparator : " ; " = " " ++ ";" ++ " " := by decide
      have hfirst : printAll (s :: t :: rest) = s.print ++ " ; " ++ printAll (t :: rest) := by
        simp [printAll]
      rw [hfirst, hseparator, print]
      simp only [String.append_assoc]

theorem parse_printAll_of_readable {statements : List Statement}
    (h : ∀ s ∈ statements, s.Readable) : parse (printAll statements) = .ok statements := by
  have htakes := printed_takes h
  obtain ⟨tokens, hscan, hspell⟩ :=
    Token.scan_chars ((printed statements).flatMap (·.1)) 0 htakes.clear
  have hread := htakes.takes _ [] hspell rfl
  rw [Piece.chars_eq, ← printAll_eq] at hscan
  rw [List.append_nil] at hread
  unfold parse
  rw [Token.scan, hscan, ok_bind, ofTokens, hread]

/-! ## Top theorem -/

/-- What was read from a text is read again from its printed form. -/
theorem parse_printAll {text : String} {statements : List Statement}
    (h : parse text = .ok statements) : parse (printAll statements) = .ok statements :=
  parse_printAll_of_readable (parse_readable h)

example : printAll
      [.dropTable "a\"b" true, .delete ⟨"t", [.compare ⟨none, "n"⟩ .le ⟨.number, "2"⟩]⟩] =
    "DROP TABLE IF EXISTS \"a\"\"b\" ; DELETE FROM \"t\" WHERE \"n\" <= $$2$$" := by
  decide +kernel

end Statement

/-- A name and a string with quotes in them, COUNT as a name, and an empty statement. -/
theorem parse_printAll_of_quotes :
    Statement.parse "DELETE FROM \"a\"\"b\" WHERE count IN ('it''s', $$2$$);;GRANT" =
      .ok [.delete ⟨"a\"b",
        [.oneOf ⟨none, "count"⟩ [⟨.string, "it's"⟩, ⟨.number, "2"⟩] false]⟩, .grant] ∧
    Statement.parse (Statement.printAll [.delete ⟨"a\"b",
        [.oneOf ⟨none, "count"⟩ [⟨.string, "it's"⟩, ⟨.number, "2"⟩] false]⟩, .grant]) =
      .ok [.delete ⟨"a\"b",
        [.oneOf ⟨none, "count"⟩ [⟨.string, "it's"⟩, ⟨.number, "2"⟩] false]⟩, .grant] := by
  have hparse :
      Statement.parse "DELETE FROM \"a\"\"b\" WHERE count IN ('it''s', $$2$$);;GRANT" =
        .ok [.delete ⟨"a\"b",
          [.oneOf ⟨none, "count"⟩ [⟨.string, "it's"⟩, ⟨.number, "2"⟩] false]⟩, .grant] := by
    decide +kernel
  exact ⟨hparse, Statement.parse_printAll hparse⟩

end Tabula
