import Tabula.Proofs.Confusion
import Tabula.Proofs.Quotation
import Tabula.Proofs.Stamping

/-!
# Whole numbers in statements

A whole number is written with its digits alone, after a hyphen if it is below zero.  Wherever it
stands it is one token, and a column of whole numbers stores it if it has 64 bits, and refuses it
otherwise.  What else stands in such a column are nulls and times, and no time is written as a
number.

* `Lexeme.finds_integer`: the token of a number.
* `Number.Whole.read?_toString`: what a number is read as, and which numbers are read at all.
* `Catalog.clocked_stamped`: columns hold values of their types, and moments.
* `Catalog.keeps_integers`: the number that was inserted is selected, by its column and by itself.
-/

namespace Tabula

open Lexeme

/-! ## Algorithm -/

/-- Inserts a whole number into one column. -/
def insertInteger (table column : String) (z : Int) : String :=
  insertInto table column (toString z)

/-- Selects one column of the rows that have a whole number in it. -/
def selectInteger (table column : String) (z : Int) : String :=
  selectText table column ++ " WHERE " ++ column ++ " = " ++ toString z

/-- What a script leaves whose statements read the time from a clock. -/
def Catalog.clocked (script : List ((Nat → Calendar.Moment) × Statement)) : Catalog :=
  after (script.map fun step => (fun i => (step.1 i).text, step.2))

/-! ## Lemmas -/

/-! ### Tokens -/

namespace Lexeme

/-- Digits are a number up to what is no digit, no point and no part of a word. -/
theorem unsigned?_digits (sign : List Char) {ds rest : List Char} (hne : ds ≠ [])
    (hdigits : ∀ c ∈ ds, c.isDigit = true)
    (hrest : ∀ c ∈ rest.head?, Text.isWordChar c = false ∧ c ≠ '.') :
    Finds (unsigned? sign (ds ++ rest)) .number (sign ++ ds) (sign.length + ds.length) := by
  have hnumeral : numeral (ds ++ rest) = ds := by
    rw [numeral_append fun c hc => ⟨?_, (hrest c hc).2⟩, numeral_of_no_point,
      List.takeWhile_eq_self_iff.2 hdigits]
    · intro d rest heq
      rw [List.dropWhile_eq_nil_iff.2 hdigits] at heq
      cases heq
    · rw [Bool.eq_false_iff]
      exact fun hdigit => absurd (Text.isWordChar_of_isDigit hdigit) (by simp [(hrest c hc).1])
  obtain ⟨d, digits, rfl⟩ := List.exists_cons_of_ne_nil hne
  have hend : startsInWord ((d :: digits ++ rest).drop (digits.length + 1)) = false := by
    rw [← List.length_cons (a := d), List.drop_left]
    cases rest with
    | nil => rfl
    | cons c rest => exact (hrest c rfl).1
  refine ⟨⟨.number, sign ++ d :: digits, sign.length + digits.length + 1,
    signed_width_pos sign digits⟩, ?_, rfl, rfl, rfl⟩
  rw [unsigned?, hnumeral]
  dsimp only
  rw [hdigits d List.mem_cons_self, hend]
  rfl

/-- A hyphen before digits is their sign. -/
theorem finds_signed {ds rest : List Char} (hne : ds ≠ []) (hdigits : ∀ c ∈ ds, c.isDigit = true)
    (hrest : ∀ c ∈ rest.head?, Text.isWordChar c = false ∧ c ≠ '.') :
    Finds (first? ('-' :: ds ++ rest)) .number ('-' :: ds) ('-' :: ds).length := by
  have hcomment : comment? ('-' :: (ds ++ rest)) = none := by
    obtain ⟨d, digits, rfl⟩ := List.exists_cons_of_ne_nil hne
    refine comment?_eq_none.2 fun hhead => ?_
    obtain rfl := Option.some.inj hhead
    exact absurd (hdigits '-' List.mem_cons_self) (by decide)
  have hfinds := unsigned?_digits ['-'] hne hdigits hrest
  rw [← number?_signed] at hfinds
  rw [List.cons_append, first?_hyphen, hcomment, Option.none_or, List.length_cons, Nat.add_comm]
  exact hfinds

/-- A whole number is one token. -/
theorem finds_integer (z : Int) :
    Finds (first? (toString z).toList) .number (toString z).toList (toString z).toList.length := by
  rw [toList_toString]
  split
  · have hfinds := (Piece.clear_numeral z.toNat).1.first [] Piece.Ended.nil
    rw [(Piece.clear_numeral z.toNat).2, List.append_nil] at hfinds
    have htext : (toString z.toNat).toList = Number.toDigits z.toNat := by
      rw [Nat.toString_eq_repr, Nat.toList_repr]
      rfl
    rw [← htext]
    exact hfinds
  · have hfinds : Finds (first? ('-' :: Number.toDigits (-z).toNat ++ [])) .number _ _ :=
      finds_signed Nat.toDigits_ne_nil (fun c hc => Number.Decimal.isDigit_of_mem_toDigits hc)
        fun c hc => by cases hc
    rw [List.append_nil] at hfinds
    exact hfinds

end Lexeme

/-! ### Reading and writing -/

namespace Number.Whole

theorem magnitude?_toDigits (n : Nat) : magnitude? (toDigits n) = some n := by
  have hne : toDigits n ≠ [] := Nat.toDigits_ne_nil
  rw [magnitude?, if_pos, Decimal.ofDigits_toDigits]
  simpa [hne] using fun c hc => Decimal.isDigit_of_mem_toDigits (n := n) hc

theorem signed?_toString (z : Int) : signed? (toString z).toList = some z := by
  rw [toList_toString]
  by_cases hz : 0 ≤ z
  · have hdigits : ∀ c ∈ toDigits z.toNat, c.isDigit = true := fun c hc =>
      Decimal.isDigit_of_mem_toDigits hc
    rw [if_pos hz]
    unfold signed?
    split
    · next heq => exact absurd (hdigits '+' (heq ▸ List.mem_cons_self)) (by decide)
    · next heq => exact absurd (hdigits '-' (heq ▸ List.mem_cons_self)) (by decide)
    · rw [magnitude?_toDigits, Option.map_some]
      exact congrArg some (Int.toNat_of_nonneg hz)
  · rw [if_neg hz, signed?, magnitude?_toDigits]
    show some (-((-z).toNat : Int)) = some z
    exact congrArg some (by omega)

/-- A whole number is read back if it has 64 bits. -/
theorem read?_toString (z : Int) : read? (toString z).toList =
    if -2 ^ 63 ≤ z ∧ z < 2 ^ 63 then some (Int64.ofInt z) else none := by
  rw [read?, signed?_toString]
  rfl

end Number.Whole

/-- What a column of whole numbers makes of the digits of one. -/
theorem Column.coerce_integer (now : String) {a : Column} (h : a.columnType = .integer) (z : Int) :
    a.coerce now ⟨.number, toString z⟩ =
      if -2 ^ 63 ≤ z ∧ z < 2 ^ 63 then .ok (.integer (.ofInt z))
      else .error (.notCoercible (toString z) a.typeName) := by
  unfold coerce
  rw [if_neg (by simp [Literal.isGenerator]), if_neg (by simp), h]
  rw [readLexeme?, Number.Whole.read?_toString]
  by_cases hz : -2 ^ 63 ≤ z ∧ z < 2 ^ 63
  · rw [if_pos hz, if_pos hz]
    rfl
  · rw [if_neg hz, if_neg hz]
    rfl

/-! ### Times -/

theorem Statement.Stamps.time {times : Times} {column : Column} {s : Statement} {text : String}
    (h : s.Stamps times column text) : ∃ i, text = times i := by
  cases h with
  | insert => exact ⟨_, rfl⟩
  | update => exact ⟨0, rfl⟩

/-- Where the time is read from a clock, columns hold values of their types, and moments. -/
theorem Catalog.clocked_stamped {script : List ((Nat → Calendar.Moment) × Statement)}
    {name : String} {r : Relation} (hr : (clocked script).get? name = some r) :
    r.Stamped fun _ text => ∃ m : Calendar.Moment, text = m.text := by
  obtain ⟨before, times, d, rest, hscript, -, hstamped⟩ :=
    after_since (P := fun _ rest r => r.Stamped (Statement.StampedBy name rest))
      (fun _ => Relation.Stamped.new)
      (fun hstamped hold hr => Statement.execute_stamped hold hr hstamped) _ hr
  refine hstamped.mono ?_
  rintro column text ⟨step, hstep, -, hstamps⟩
  have hmem := List.mem_append_right before (List.mem_cons_of_mem (times, .createTable d) hstep)
  rw [← hscript] at hmem
  obtain ⟨clocked, -, rfl⟩ := List.mem_map.1 hmem
  obtain ⟨i, rfl⟩ := hstamps.time
  exact ⟨clocked.1 i, rfl⟩

/-- A null, a whole number or a moment equals the digits of a number only if it is the number. -/
theorem ColumnType.equals_integer {v : Value}
    (hv : ColumnType.integer.Holds v ∨ ∃ m : Calendar.Moment, v = .text m.text) (n : Int64) :
    (Operand.value v).equals (.lexeme (toString n.toInt)) = decide (v = .integer n) := by
  have hcompare {w : Value} (hw : w.isNull = false) :
      (Operand.value w).equals (.lexeme (toString n.toInt)) = true ↔
        w.canonical = (Value.integer n).canonical := by
    simp [Operand.equals, Operand.isNull, hw, Operand.text, Value.canonical]
  rw [Bool.eq_iff_iff, decide_eq_true_eq]
  rcases hv with hv | ⟨m, rfl⟩
  · cases v with
    | null => simp [Operand.equals, Operand.isNull, Value.isNull]
    | integer m =>
      rw [hcompare rfl, Value.integer.injEq, ← Int64.toInt_inj]
      exact ⟨toString_int_inj, congrArg toString⟩
    | decimal x => cases hv
    | bool b => cases hv
    | text s => cases hv
  · have hne : m.text ≠ (Value.integer n).canonical := fun heq =>
      Value.not_blank_mem_canonical rfl (heq ▸ m.blank_mem_text)
    rw [hcompare rfl]
    exact iff_of_false hne (by simp)

/-! ### The two statements -/

namespace Statement

variable {table column : String} (htable : PlainName table) (hcolumn : PlainName column) (z : Int)
include htable hcolumn

theorem parse_insertInteger : parse (insertInteger table column z) =
    .ok [.insert ⟨table, [column], [[⟨.number, toString z⟩]], none⟩] := by
  have hlast : (toString z).toList.getLast? ≠ some '(' := by
    intro hlast
    rcases isDigit_of_mem_numeral (List.mem_of_getLast? hlast) with hc | hc <;>
      exact absurd hc (by decide)
  have hreads := reads_insertInto htable hcolumn (finds_integer z) (by simp) hlast
  refine (parse_of_reads hreads ?_ : parse (insertInto table column (toString z)) = _)
  cbv

theorem parse_selectInteger : parse (selectInteger table column z) =
    .ok [.select (.ofTable table [.column ⟨none, column⟩]
      [.compare ⟨none, column⟩ .eq ⟨.number, toString z⟩])] := by
  have hchars : (selectInteger table column z).toList =
      Keyword.select.capitals.toList ++ ' ' :: (column.toList ++ ' ' ::
        (Keyword.fromWord.capitals.toList ++ ' ' :: (table.toList ++ ' ' ::
          (Keyword.whereWord.capitals.toList ++ ' ' ::
            (column.toList ++ ' ' :: (['='] ++ ' ' :: (toString z).toList)))))) := by
    have hselect : "SELECT ".toList = Keyword.select.capitals.toList ++ [' '] := by decide
    have hfrom : " FROM ".toList = ' ' :: (Keyword.fromWord.capitals.toList ++ [' ']) := by decide
    have hwhere : " WHERE ".toList = ' ' :: (Keyword.whereWord.capitals.toList ++ [' ']) := by
      decide
    have hequals : " = ".toList = [' ', '=', ' '] := by decide
    delta selectInteger selectText
    simp only [String.toList_append, hselect, hfrom, hwhere, hequals, List.append_assoc,
      List.cons_append, List.nil_append]
  have heq : Finds (first? ['=']) .eq "=".toList 1 :=
    ⟨⟨.eq, ['='], 1, by omega⟩, rfl, rfl, rfl, rfl⟩
  have hcondition := Token.Reads.name hcolumn
    (.word heq (by simp) (.last (finds_integer z) (by simp)))
  have hreads := Token.Reads.keyword .select (.name hcolumn
    (.keyword .fromWord (.name htable (.keyword .whereWord hcondition))))
  rw [← hchars] at hreads
  refine parse_of_reads hreads ?_
  cbv

end Statement

/-! ### Selecting -/

namespace Catalog

variable {c : Catalog} {table : String} {r : Relation} {k : Nat} {a : Column}

/-- SELECT of a column shows its values in all rows. -/
theorem Reachable.runBatch_selectText (hc : c.Reachable) (htable : PlainName table)
    (hcolumn : PlainName a.name) (hr : c.get? table = some r)
    (ha : r.table.columns[k]? = some a) (clock : Calendar.Clock) :
    c.runBatch clock (selectText table a.name) =
      .ofRows c [a.name] (r.rows.map fun row => row[k]?.toList.map (·.canonical)) := by
  have hlookUp : c.lookUp (clock 0 0) table [.always] = .ok (r, [.always]) := by
    rw [lookUp, get_eq_ok.2 hr]
    rfl
  have hall : r.table.meets (clock 0 0) [.always] = fun _ => true := rfl
  have hk := Table.position?_eq_of_nodup (hc.even table r hr).names ha
  rw [runBatch_sole (Statement.parse_selectText htable hcolumn),
    Select.execute_column (hc.finds hlookUp) hk, hall, List.filter_eq_self.2 fun _ _ => rfl]

/-- SELECT by a whole number shows the column in the rows that have the number. -/
theorem Reachable.runBatch_selectInteger (hc : c.Reachable) (htable : PlainName table)
    (hcolumn : PlainName a.name) (hr : c.get? table = some r)
    (ha : r.table.columns[k]? = some a) (clock : Calendar.Clock)
    (hcells : ∀ row ∈ r.rows, ∃ v, row[k]? = some v ∧
      (ColumnType.integer.Holds v ∨ ∃ m : Calendar.Moment, v = .text m.text)) (n : Int64) :
    c.runBatch clock (selectInteger table a.name n.toInt) =
      .ofRows c [a.name] ((r.rows.filter fun row => row[k]? = some (.integer n)).map
        fun row => row[k]?.toList.map (·.canonical)) := by
  have hk := Table.position?_eq_of_nodup (hc.even table r hr).names ha
  obtain ⟨ps, hlookUp⟩ := hc.lookUp_eq hr hk (clock 0 0) ⟨.number, toString n.toInt⟩
  rw [runBatch_sole (Statement.parse_selectInteger htable hcolumn n.toInt),
    Select.execute_column (hc.finds hlookUp) hk]
  congr 2
  refine List.filter_congr fun row hrow => ?_
  obtain ⟨v, hv, hholds⟩ := hcells row hrow
  rw [Table.meets_eq hk rfl hv, ColumnType.equals_integer hholds, hv]
  exact decide_eq_decide.2 (Option.some_inj).symm

/-- Where the time is read from a clock, a column of whole numbers holds nulls, whole numbers and
moments. -/
theorem clocked_cells {script : List ((Nat → Calendar.Moment) × Statement)}
    (hr : (clocked script).get? table = some r) (ha : r.table.columns[k]? = some a)
    (hcounts : a.autoIncrement = false) (hinteger : a.columnType = .integer) :
    ∀ row ∈ r.rows, ∃ v, row[k]? = some v ∧
      (ColumnType.integer.Holds v ∨ ∃ m : Calendar.Moment, v = .text m.text) := by
  intro row hrow
  have hk : k < row.length := by
    rw [((Reachable.after _).even table r hr).widths row hrow]
    exact (List.getElem?_eq_some_iff.1 ha).1
  have hv := List.getElem?_eq_getElem hk
  refine ⟨row[k], hv, ?_⟩
  rcases clocked_stamped hr row hrow k a _ ha hcounts hv with hholds | ⟨text, htext, m, rfl⟩
  · exact .inl (hinteger ▸ hholds)
  · exact .inr ⟨m, htext⟩

end Catalog

/-! ## Main result -/

namespace Catalog

/-- A number that has 64 bits is stored in a column of whole numbers, shown with the digits that it
was written with, and found by them in the rows that have it, and no others.  Any other number is
refused.  The columns have no constraints, and the statements before read the time from a clock. -/
theorem keeps_integers (script : List ((Nat → Calendar.Moment) × Statement)) {table : String}
    (htable : PlainName table) {r : Relation} (hr : (clocked script).get? table = some r)
    (hfree : ∀ a ∈ r.table.columns, a.Free) {k : Nat} {a : Column}
    (ha : r.table.columns[k]? = some a) (hcolumn : PlainName a.name)
    (hinteger : a.columnType = .integer) (z : Int) :
    let n := Int64.ofInt z
    let row := r.table.soleRow a.name (.integer n)
    let c := clocked script
    let next := c.set table { r with rows := r.rows ++ [row] }
    Statement.parse (insertInteger table a.name z) =
      .ok [.insert ⟨table, [a.name], [[⟨.number, toString z⟩]], none⟩] ∧
    (-2 ^ 63 ≤ z ∧ z < 2 ^ 63 →
      n.toInt = z ∧ row[k]? = some (.integer n) ∧
      (∀ clock, c.runBatch clock (insertInteger table a.name z) = ⟨next, [.result 0 1], none⟩) ∧
      (∀ clock, next.runBatch clock (selectText table a.name) =
        .ofRows next [a.name]
          ((r.rows.map fun row => row[k]?.toList.map (·.canonical)) ++ [[toString z]])) ∧
      ∀ clock, next.runBatch clock (selectInteger table a.name z) =
        .ofRows next [a.name] (((r.rows ++ [row]).filter fun row => row[k]? = some (.integer n)).map
          fun row => row[k]?.toList.map (·.canonical))) ∧
    (¬(-2 ^ 63 ≤ z ∧ z < 2 ^ 63) →
      ∀ clock, c.runBatch clock (insertInteger table a.name z) =
        ⟨c, [], some (.notCoercible (toString z) a.typeName)⟩) := by
  intro n row c next
  have hc : c.Reachable := .after _
  have heven := hc.even table r hr
  have hk := Table.position?_eq_of_nodup heven.names ha
  have hinsert := Statement.parse_insertInteger htable hcolumn z
  refine ⟨hinsert, fun hz => ?_, fun hz clock => ?_⟩
  · have hstored (now : String) : ∀ b ∈ r.table.columns, b.name = a.name →
        b.coerce now ⟨.number, toString z⟩ = .ok (.integer n) := by
      intro b hb hname
      rw [Table.eq_of_name heven.names ha hb hname, Column.coerce_integer _ hinteger, if_pos hz]
    have hrun (times : Times) := Insert.execute_free hr hfree hk (hstored (times 0))
    have hnext : next.Reachable := by
      have hstep := Catalog.Reachable.step (fun _ => "")
        (.insert ⟨table, [a.name], [[⟨.number, toString z⟩]], none⟩) hc
      rwa [hrun] at hstep
    have hget : next.get? table = some { r with rows := r.rows ++ [row] } := by
      rw [Catalog.get?_set, if_pos rfl]
    have hn : n.toInt = z := Int64.toInt_ofInt_of_le hz.1 hz.2
    have hrow : row[k]? = some (.integer n) := by
      simp [row, Table.soleRow, ha]
    have hcells := clocked_cells hr ha (hfree a (List.mem_of_getElem? ha)).unnumbered hinteger
    refine ⟨hn, hrow, fun clock => ?_, fun clock => ?_, fun clock => ?_⟩
    · rw [runBatch_sole hinsert, hrun]
    · have hcell : row[k]?.toList.map (·.canonical) = [toString z] := by
        rw [hrow, ← hn]
        rfl
      rw [hnext.runBatch_selectText htable hcolumn hget ha]
      dsimp only
      rw [List.map_append, List.map_singleton, hcell]
    · rw [← hn]
      refine hnext.runBatch_selectInteger htable hcolumn hget ha clock (fun other hother => ?_) n
      rcases List.mem_append.1 hother with hother | hother
      · exact hcells other hother
      · obtain rfl := List.mem_singleton.1 hother
        exact ⟨_, hrow, .inl trivial⟩
  · have hrefused : ∀ b ∈ r.table.columns, b.name = a.name →
        b.coerce (clock 0 0) ⟨.number, toString z⟩ =
          .error (.notCoercible (toString z) a.typeName) := by
      intro b hb hname
      rw [Table.eq_of_name heven.names ha hb hname, Column.coerce_integer _ hinteger, if_neg hz]
    rw [runBatch_sole hinsert]
    exact Insert.execute_refused hr hfree hk hrefused

/-- The least number that has 64 bits, and the first that is too great. -/
theorem keeps_integers_of_limits :
    let c := clocked [(fun _ => ⟨0, 0, 0⟩,
      .createTable ⟨"t", false, [⟨"a", "INT", false, []⟩, ⟨"b", "text", false, []⟩], []⟩)]
    ∃ r, c.get? "t" = some r ∧
      (∀ clock, c.runBatch clock (insertInteger "t" "a" (-9223372036854775808)) =
        ⟨c.set "t" { r with rows := [[.integer (-9223372036854775808), .null]] }, [.result 0 1],
          none⟩) ∧
      ∀ clock, c.runBatch clock (insertInteger "t" "a" 9223372036854775808) =
        ⟨c, [], some (.notCoercible "9223372036854775808" "int")⟩ := by
  intro c
  let a : Column := ⟨"a", "int", false, false, false, none⟩
  let b : Column := ⟨"b", "text", false, false, false, none⟩
  have hr : c.get? "t" = some ⟨⟨"t", [a, b]⟩, [], []⟩ := by decide +kernel
  have hfree : ∀ x ∈ [a, b], x.Free := by
    intro x hx
    simp only [List.mem_cons, List.not_mem_nil, or_false] at hx
    rcases hx with rfl | rfl <;> exact ⟨rfl, rfl, rfl, rfl⟩
  have htable : PlainName "t" := by decide +kernel
  have hcolumn : PlainName a.name := by decide +kernel
  have hinteger : a.columnType = .integer := by decide +kernel
  obtain ⟨-, hleast, -⟩ := keeps_integers _ htable hr hfree (k := 0) rfl hcolumn hinteger
    (-9223372036854775808)
  obtain ⟨-, -, hgreater⟩ := keeps_integers _ htable hr hfree (k := 0) rfl hcolumn hinteger
    9223372036854775808
  obtain ⟨-, -, hinsert, -⟩ := hleast ⟨by decide, by decide⟩
  exact ⟨_, hr, hinsert, hgreater (by decide)⟩

end Catalog

end Tabula
