import Tabula.Calendar.Clock
import Tabula.Definition
import Tabula.Query
import Tabula.Statement.Reader

/-!
# Executing statements

Each clause has a handler, which executes the statements of that clause and refuses all others.  The
handlers that change a catalog are actions, which give the frames of the answer.  What becomes of a
statement is an `Outcome`: the catalog that is reached, the frames, and the fault that ended the
statement, if one did.

A batch is read as a whole before its first statement is executed, and ends with its first fault.
-/

namespace Tabula

/-- What execution leaves behind. -/
structure Outcome where
  catalog : Catalog
  frames : List Frame
  fault : Option Fault
deriving DecidableEq

namespace Outcome

/-- The outcome of an action on a catalog.  One that fails answers nothing, and leaves what it wrote
before. -/
def ofAction (a : Action Catalog (List Frame)) (c : Catalog) : Outcome :=
  match a.run c with
  | .ok frames next => ⟨next, frames, none⟩
  | .error fault next => ⟨next, [], some fault⟩

/-- The outcome with a result that changed nothing in the place of the fault. -/
def swallow (o : Outcome) : Outcome :=
  { o with frames := o.frames ++ [.result 0 0], fault := none }

end Outcome

/-- The times that one statement reads, by the row that it inserts. -/
abbrev Times := Nat → String

/-! ## Handlers -/

open Tabula.Action (check)

namespace CreateTable

/-- Adds a table without rows. -/
def execute (s : CreateTable) : Action Catalog (List Frame) := do
  let t ← check s.define
  Catalog.addTable t
  return [.result 0 1]

end CreateTable

namespace CreateIndex

/-- Adds an index to a table. -/
def execute (s : CreateIndex) : Action Catalog (List Frame) := do
  Catalog.within s.table (Relation.addIndex s.define)
  return [.result 0 1]

end CreateIndex

namespace Insert

/-- Inserts rows one after the other, the first of them at place `i`, up to the first that is
refused. -/
def insertRows (times : Times) (s : Insert) :
    Nat → List (List Literal) → Action Relation (List Inserted)
  | _, [] => return []
  | i, values :: rest => do
    let inserted ← Relation.insertRow (times i) s.columns values s.returning
    let others ← insertRows times s (i + 1) rest
    return inserted :: others

/-- The answer to rows that were inserted: the values that were asked for, or the number of the last
row and how many rows there are. -/
def answer (s : Insert) (inserted : List Inserted) : List Frame :=
  match s.returning with
  | some column =>
    .header [column] :: (inserted.filterMap (·.returned)).map (fun v => .row [v.canonical]) ++
      [.done]
  | none =>
    let lastId := ((inserted.filterMap (·.autoId)).getLast?.map (·.toInt)).getD 0
    [.result lastId s.rows.length]

/-- Inserts all rows, or those before the first that is refused. -/
def execute (times : Times) (s : Insert) : Action Catalog (List Frame) := do
  let inserted ← Catalog.within s.table (s.insertRows times 0 s.rows)
  return s.answer inserted

end Insert

/-- Tests the rows of a table by conditions, whose columns are looked up first. -/
def Table.rowTest (now : String) (t : Table) (conditions : List Condition) :
    Except Fault RowTest := do
  let ps ← Predicate.bindAll now (.ofList [(t.name, t.columnNames)]) conditions
  return fun _ row => Predicate.all (.ofRow t row) ps

namespace Update

/-- Assigns to the rows that meet the conditions. -/
def execute (now : String) (s : Update) : Action Catalog (List Frame) := do
  let n ← Catalog.within s.table do
    let r ← get
    let test ← check (r.table.rowTest now s.conditions)
    Relation.updateRows now s.assignments test
  return [.result 0 n]

end Update

/-- Takes out all rows of a table. -/
def Catalog.truncate (table : String) : Action Catalog (List Frame) := do
  let n ← Catalog.within table Relation.clear
  return [.result 0 n]

namespace Delete

/-- Takes out the rows that meet the conditions, or all rows where there are none. -/
def execute (now : String) (s : Delete) : Action Catalog (List Frame) :=
  if s.conditions.isEmpty then Catalog.truncate s.table
  else do
    let n ← Catalog.within s.table do
      let r ← get
      let test ← check (r.table.rowTest now s.conditions)
      Relation.deleteRows test
    return [.result 0 n]

end Delete

namespace Select

/-- Answers a query. -/
def execute (now : String) (s : Select) (c : Catalog) : Outcome :=
  match s.bind now c with
  | .error fault => ⟨c, [], some fault⟩
  | .ok q =>
    let (frames, fault) := q.frames
    ⟨c, frames, fault⟩

end Select

/-- Takes out a table. -/
def Catalog.dropTable (table : String) : Action Catalog (List Frame) := do
  let _ ← Catalog.removeTable table
  return [.result 0 1]

/-! ## From a clause to its handler -/

namespace Statement

/-- The refusal of a statement by the handler of another clause. -/
def unrouted (clause : Clause) (s : Statement) : Fault :=
  .unrouted (clause.text ++ " handler cannot execute " ++ s.clause.text ++ " statement")

/-- What the handler of a clause other than IF does with a statement. -/
def executeUnguarded (times : Times) (clause : Clause) (s : Statement) (c : Catalog) : Outcome :=
  match clause, s with
  | .create, .createTable d => .ofAction d.execute c
  | .create, .createIndex d => .ofAction d.execute c
  | .insert, .insert i => .ofAction (i.execute times) c
  | .select, .select q => q.execute (times 0) c
  | .update, .update u => .ofAction (u.execute (times 0)) c
  | .delete, .delete d => .ofAction (d.execute (times 0)) c
  | .truncate, .truncate table => .ofAction (Catalog.truncate table) c
  | .drop, .dropTable table _ => .ofAction (Catalog.dropTable table) c
  | .grant, _ => ⟨c, [.result 0 0], none⟩
  | _, _ => ⟨c, [], some (s.unrouted clause)⟩

/-- Whether a guard makes up for a fault: a DROP is excused from the table, everything else from the
lack of a table or index. -/
def isExcused (s : Statement) : Fault → Bool
  | .noTable _ => s.unguardedClause == .drop
  | .tableExists _ => s.unguardedClause != .drop
  | .indexExists _ => s.unguardedClause != .drop
  | _ => false

/-- What the handler of a clause does with a statement.  The handler of IF does what the handler of
the unguarded clause does, and answers an excused fault by a result. -/
def executeBy (times : Times) (clause : Clause) (s : Statement) (c : Catalog) : Outcome :=
  match clause with
  | .guard =>
    let o := s.executeUnguarded times s.unguardedClause c
    if o.fault.any s.isExcused then o.swallow else o
  | clause => s.executeUnguarded times clause c

/-- Executes a statement by the handler of its clause. -/
def execute (times : Times) (s : Statement) (c : Catalog) : Outcome :=
  s.executeBy times s.clause c

/-- Executes statements in order up to the first fault, the first of them at place `i`. -/
def executeAll (clock : Calendar.Clock) : Nat → List Statement → Catalog → Outcome
  | _, [], c => ⟨c, [], none⟩
  | i, s :: rest, c =>
    let first := s.execute (clock i) c
    match first.fault with
    | some _ => first
    | none =>
      let others := executeAll clock (i + 1) rest first.catalog
      { others with frames := first.frames ++ others.frames }

end Statement

/-- Reads a batch and executes its statements. -/
def Catalog.runBatch (clock : Calendar.Clock) (text : String) (c : Catalog) : Outcome :=
  match Statement.parse text with
  | .error fault => ⟨c, [], some fault⟩
  | .ok statements => Statement.executeAll clock 0 statements c

end Tabula
