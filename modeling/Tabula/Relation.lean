import Tabula.Action
import Tabula.Schema

/-!
# Relations

A relation is a table with its rows and indexes.  Rows are kept in the order in which they were
inserted.  The operations on a relation are actions; `Relation.insert` and its siblings are what
they reach.

Two values have the same key when neither is null and their canonical strings are equal, in lower
case if a unique index of that one column asks for it.  No unique column may hold the same key
twice.
-/

namespace Tabula

/-- One row: a value for each column of the table. -/
abbrev Row := List Value

/-- A table with its rows and what is known of its indexes. -/
structure Relation where
  table : Table
  rows : List Row := []
  indexes : List Index := []
deriving DecidableEq

/-- What an insertion reports of its row. -/
structure Inserted where
  /-- The number that was given to the columns that number their rows. -/
  autoId : Option Int64
  /-- The value of the column that was asked for. -/
  returned : Option Value
deriving DecidableEq

/-- Which rows a change is meant for, by place and content. -/
abbrev RowTest := Nat → Row → Except Fault Bool

/-- The column of a unique index that has only one. -/
def Index.soleUnique? (index : Index) : Option IndexColumn :=
  match index.unique, index.columns with
  | true, [column] => some column
  | _, _ => none

/-- Whether a stored value has the key of another value. -/
def Value.sameKey (nocase : Bool) (stored candidate : Value) : Bool :=
  !stored.isNull &&
    if nocase then Text.lowercase stored.canonical == Text.lowercase candidate.canonical
    else stored.canonical == candidate.canonical

namespace Relation

open Tabula.Action (check)

/-- Whether the keys of a column are compared in lower case. -/
def isNocase (r : Relation) (column : String) : Bool :=
  r.indexes.any fun index =>
    match index.soleUnique? with
    | some c => c.name == column && c.nocase
    | none => false

/-- Whether a row holds the key of a value in a column. -/
def holdsKey (nocase : Bool) (position : Nat) (v : Value) (row : Row) : Bool :=
  row[position]?.any fun stored => stored.sameKey nocase v

/-- The refusal of a value whose key the column holds already. -/
def notUnique (r : Relation) (column : Column) (v : Value) : Fault :=
  .notUnique r.table.name column.name v.canonical

/-! ## Inserting -/

/-- The literal supplied for a column: the one at the first mention of the column. -/
def supplied? (columns : List String) (values : List Literal) (name : String) : Option Literal :=
  (columns.findIdx? (· == name)).bind fun i => values[i]?

/-- The number of the next row, counted from 1. -/
def nextId (r : Relation) : Int64 :=
  Int64.ofNat (r.rows.length + 1)

/-- The value of a new row in a column.  A column that numbers its rows takes no other value. -/
def newValue (now : String) (r : Relation) (column : Column) (supplied : Option Literal) :
    Except Fault Value :=
  if column.autoIncrement then .ok (.integer r.nextId)
  else
    match supplied with
    | some l => column.coerce now l
    | none => column.defaultValue now

/-- Refuses null where it is forbidden. -/
def checkNull (column : Column) (v : Value) : Except Fault Unit :=
  if column.notNull && v.isNull then .error (.nullForbidden column.name) else .ok ()

/-- Refuses a value whose key a unique column holds already. -/
def checkKey (r : Relation) (position : Nat) (column : Column) (v : Value) : Except Fault Unit :=
  if column.unique && !v.isNull &&
      r.rows.any (holdsKey (r.isNocase column.name) position v) then
    .error (r.notUnique column v)
  else .ok ()

/-- The values of a new row from the column at `position` on. -/
def newRow (now : String) (r : Relation) (columns : List String) (values : List Literal) :
    Nat → List Column → Except Fault Row
  | _, [] => .ok []
  | position, column :: rest => do
    let v ← r.newValue now column (supplied? columns values column.name)
    checkNull column v
    r.checkKey position column v
    let vs ← r.newRow now columns values (position + 1) rest
    return v :: vs

/-- Every name is that of a column. -/
def requireAll (t : Table) : List String → Except Fault Unit
  | [] => .ok ()
  | name :: rest => do
    let _ ← t.require name
    requireAll t rest

/-- The value that is asked for, if one is. -/
def returnedValue (t : Table) (row : Row) : Option String → Except Fault (Option Value)
  | none => .ok none
  | some name => do
    let position ← t.require name
    return row[position]?

/-- Appends a row made of the supplied values, the numbers of the columns that count, and the
defaults. -/
def insertRow (now : String) (columns : List String) (values : List Literal)
    (returning : Option String) : Action Relation Inserted := do
  let r ← get
  check (requireAll r.table columns)
  let row ← check (r.newRow now columns values 0 r.table.columns)
  let returned ← check (returnedValue r.table row returning)
  let autoId := if r.table.columns.any (·.autoIncrement) then some r.nextId else none
  set { r with rows := r.rows ++ [row] }
  return ⟨autoId, returned⟩

/-- The relation with one row more. -/
def insert (now : String) (r : Relation) (columns : List String) (values : List Literal)
    (returning : Option String) : Except Fault (Relation × Inserted) :=
  (insertRow now columns values returning).reach r

/-! ## Deleting -/

/-- Tests the rows in order, the first of them at place `i`. -/
def testRows (test : RowTest) : Nat → List Row → Except Fault (List Bool)
  | _, [] => .ok []
  | i, row :: rest => do
    let hit ← test i row
    let hits ← testRows test (i + 1) rest
    return hit :: hits

/-- Takes out the rows that a test holds for, and says how many there were. -/
def deleteRows (test : RowTest) : Action Relation Nat := do
  let r ← get
  let hits ← check (testRows test 0 r.rows)
  let kept := (r.rows.zip hits).filterMap fun (row, hit) => if hit then none else some row
  set { r with rows := kept }
  return hits.count true

/-- The relation without the rows that a test holds for. -/
def deleteWhere (r : Relation) (test : RowTest) : Except Fault (Relation × Nat) :=
  (deleteRows test).reach r

/-- The relation without rows, and how many there were. -/
def truncate (r : Relation) : Relation × Nat :=
  ({ r with rows := [] }, r.rows.length)

/-- Takes out all rows, and says how many there were. -/
def clear : Action Relation Nat := do
  let r ← get
  let (next, n) := r.truncate
  set next
  return n

/-! ## Updating -/

/-- The place and the value of each assignment. -/
def resolveAssignments (now : String) (t : Table) :
    List (String × Literal) → Except Fault (List (Nat × Value))
  | [] => .ok []
  | (name, l) :: rest => do
    let position ← t.require name
    match t.columns[position]? with
    | none => .error (.noColumn t.name name)
    | some column =>
      let v ← column.coerce now l
      checkNull column v
      let vs ← resolveAssignments now t rest
      return (position, v) :: vs

/-- A row after assignments, the last to a column counting. -/
def assign (assignments : List (Nat × Value)) (row : Row) : Row :=
  assignments.foldl (fun row (position, v) => row.set position v) row

/-- Whether a row that was hit would hold a key that another row holds too. -/
def clashes (nocase : Bool) (position : Nat) (v : Value) (hits : List Bool) (rows : List Row) :
    Bool :=
  hits.zipIdx.any fun (hit, i) =>
    hit && rows.zipIdx.any fun (row, j) => j != i && holdsKey nocase position v row

/-- The first assignment that would make a unique column hold a key twice. -/
def checkAssignments (r : Relation) (hits : List Bool) (rows : List Row) :
    List (Nat × Value) → Except Fault Unit
  | [] => .ok ()
  | (position, v) :: rest =>
    match r.table.columns[position]? with
    | some column =>
      if column.unique && !v.isNull &&
          clashes (r.isNocase column.name) position v hits rows then
        .error (r.notUnique column v)
      else r.checkAssignments hits rows rest
    | none => r.checkAssignments hits rows rest

/-- Assigns to every row that a test holds for, or to none, and says how many there were. -/
def updateRows (now : String) (assignments : List (String × Literal)) (test : RowTest) :
    Action Relation Nat := do
  let r ← get
  let resolved ← check (resolveAssignments now r.table assignments)
  let hits ← check (testRows test 0 r.rows)
  let next := (r.rows.zip hits).map fun (row, hit) => if hit then assign resolved row else row
  check (r.checkAssignments hits next resolved)
  set { r with rows := next }
  return hits.count true

/-- The relation after assignments to the rows that a test holds for. -/
def updateWhere (now : String) (r : Relation) (assignments : List (String × Literal))
    (test : RowTest) : Except Fault (Relation × Nat) :=
  (updateRows now assignments test).reach r

/-! ## Indexes -/

/-- The first value in a column whose key an earlier row holds. -/
def firstDuplicate? (nocase : Bool) (position : Nat) (earlier : List Row) :
    List Row → Option Value
  | [] => none
  | row :: rest =>
    match row[position]? with
    | some v =>
      if !v.isNull && earlier.any (holdsKey nocase position v) then some v
      else firstDuplicate? nocase position (row :: earlier) rest
    | none => firstDuplicate? nocase position (row :: earlier) rest

/-- Refuses the name of an index that is there. -/
def checkIndexName (r : Relation) (name : String) : Except Fault Unit :=
  if r.indexes.any (·.name == name) then .error (.indexExists name) else .ok ()

/-- Refuses a column in which two rows hold the same key. -/
def checkDistinct (r : Relation) (nocase : Bool) (position : Nat) : Except Fault Unit :=
  match firstDuplicate? nocase position [] r.rows, r.table.columns[position]? with
  | some v, some column => .error (r.notUnique column v)
  | _, _ => .ok ()

/-- The table with one column made unique. -/
def setUnique (t : Table) (position : Nat) : Table :=
  { t with columns := t.columns.modify position fun c => { c with unique := true } }

/-- Makes the column of an index unique, if the rows allow it. -/
def makeUnique (indexed : IndexColumn) : Action Relation Unit := do
  let r ← get
  let position ← check (r.table.require indexed.name)
  check (r.checkDistinct indexed.nocase position)
  set { r with table := setUnique r.table position }

/-- Notes an index.  A unique index of one column makes the column unique first. -/
def addIndex (index : Index) : Action Relation Unit := do
  let r ← get
  check (r.checkIndexName index.name)
  check (requireAll r.table (index.columns.map (·.name)))
  index.soleUnique?.forM makeUnique
  modify fun r => { r with indexes := r.indexes ++ [index] }

/-- The relation with one index more. -/
def createIndex (r : Relation) (index : Index) : Except Fault Relation :=
  ((addIndex index).reach r).map (·.1)

end Relation

end Tabula
