import Tabula.Condition
import Tabula.Reply

/-!
# Answers

What a SELECT makes of the records that it found: the cells of some columns, perhaps sorted, or
their number.  `Answer.bind` looks up the columns; `Answer.frames` writes the answer.  A record
without one of the columns ends the answer: the frames before it stand.
-/

namespace Tabula

/-- A column to sort by, looked up. -/
structure SortColumn where
  key : String
  descending : Bool
deriving DecidableEq, Repr

/-- The columns of an answer: their names, and where their cells come from. -/
structure Layout where
  header : List String
  keys : List String
  sort : List SortColumn
deriving DecidableEq, Repr

/-- A counted column, or all records. -/
structure Tally where
  header : String
  key : Option String
deriving DecidableEq, Repr

/-- What is made of records. -/
inductive Answer where
  | cells (l : Layout)
  | count (t : Tally)
deriving DecidableEq, Repr

namespace Layout

/-- The key and the name of each column of a projection. -/
def columns (s : Scope) : Projection → Except Fault (List (String × String))
  | .star => .ok s.allColumns
  | .column c => do return [(← s.resolve c, c.name)]
  | .count _ => .error (.malformed "unexpected COUNT")

/-- The keys and the names of the columns of projections, in order. -/
def allColumns (s : Scope) : List Projection → Except Fault (List (String × String))
  | [] => .ok []
  | p :: rest => do
    let found ← columns s p
    let others ← allColumns s rest
    return found ++ others

/-- Looks up the columns to sort by. -/
def sortColumns (s : Scope) : List SortKey → Except Fault (List SortColumn)
  | [] => .ok []
  | k :: rest => do
    let key ← s.resolve k.column
    let others ← sortColumns s rest
    return ⟨key, k.descending⟩ :: others

/-- Looks up all columns, those to sort by last. -/
def bind (projections : List Projection) (orderBy : List SortKey) (s : Scope) :
    Except Fault Layout := do
  let found ← allColumns s projections
  let sort ← sortColumns s orderBy
  return ⟨found.map (·.2), found.map (·.1), sort⟩

/-- The values of a record under keys. -/
def values (r : Record) : List String → Except Fault (List Value)
  | [] => .ok []
  | key :: rest => do
    let v ← r.get key
    let vs ← values r rest
    return v :: vs

/-- The values to sort a record by, and its cells. -/
def project (l : Layout) (r : Record) : Except Fault (List Value × List String) := do
  let cells ← values r l.keys
  let sortValues ← values r (l.sort.map (·.key))
  return (sortValues, cells.map (·.canonical))

/-- Compares values column by column, the first difference counting. -/
def compareValues : List SortColumn → List Value → List Value → Ordering
  | c :: columns, a :: as, b :: bs =>
    let o := a.compareForSort b
    (if c.descending then o.swap else o).then (compareValues columns as bs)
  | _, _, _ => .eq

/-- Whether one record may stand before another. -/
def precedes (l : Layout) (a b : List Value × List String) : Bool :=
  compareValues l.sort a.1 b.1 != .gt

/-- Sorted rows; rows that compare equal keep their order.  Where the values of three rows stand in
no order (`Value.Crossed`), a sort by comparisons may arrange the rows in any way, or give up.  A
stable merge sort is taken for it, which gives one of these arrangements. -/
def sorted (l : Layout) (rows : List (List Value × List String)) : List (List String) :=
  (rows.mergeSort l.precedes).map (·.2)

end Layout

/-- Applies a function to records up to the first fault; `ended` is the fault that ended the
records themselves. -/
def mapRecords {α : Type} (f : Record → Except Fault α) (ended : Option Fault) :
    List Record → List α × Option Fault
  | [] => ([], ended)
  | r :: rest =>
    match f r with
    | .error fault => ([], some fault)
    | .ok x =>
      let (xs, fault) := mapRecords f ended rest
      (x :: xs, fault)

namespace Tally

/-- Looks up the column that is counted. -/
def bind (arg : CountArg) (s : Scope) : Except Fault Tally :=
  match arg with
  | .star => .ok ⟨"COUNT(*)", none⟩
  | .column c => do
    let key ← s.resolve c
    return ⟨"COUNT(" ++ c.text ++ ")", some key⟩

/-- Whether a record counts: a null does not. -/
def counts (t : Tally) (r : Record) : Except Fault Bool :=
  match t.key with
  | none => .ok true
  | some key => do
    let v ← r.get key
    return !v.isNull

end Tally

namespace Answer

/-- Whether a projection is a COUNT. -/
def isCount : Projection → Bool
  | .count _ => true
  | _ => false

/-- Looks up the columns of an answer.  COUNT stands alone or not at all. -/
def bind (projections : List Projection) (orderBy : List SortKey) (s : Scope) :
    Except Fault Answer :=
  match projections with
  | [.count arg] => do return .count (← Tally.bind arg s)
  | _ =>
    if projections.any isCount then
      .error (.malformed "COUNT cannot be combined with other columns")
    else do return .cells (← Layout.bind projections orderBy s)

/-- The frames of an answer to records, and the fault that ended it.  Sorted rows and counts are
written only after the last record. -/
def frames (a : Answer) (records : List Record) (ended : Option Fault) :
    List Frame × Option Fault :=
  match a with
  | .cells l =>
    let (rows, fault) := mapRecords l.project ended records
    let body :=
      if l.sort.isEmpty then rows.map fun r => Frame.row r.2
      else if fault.isSome then []
      else (l.sorted rows).map .row
    (.header l.header :: body ++ (if fault.isSome then [] else [.done]), fault)
  | .count t =>
    let (counted, fault) := mapRecords t.counts ended records
    let body := if fault.isSome then [] else [.row [toString (counted.count true)], .done]
    (.header [t.header] :: body, fault)

end Answer

end Tabula
