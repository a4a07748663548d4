import Tabula.Record
import Tabula.Text.Prefix

/-!
# Joining tables row by row

A scan puts one row of each table together to a record: for every row of the first table, for every
row of the next that meets its ON equality, and so on.  The record is carried along, so that the
values of a level stay in it until the next row of that level overwrites them.

`Scan.records` says in which order the records arise; a fault ends the scan after the records that
were complete before it.
-/

namespace Tabula

/-- An ON equality, seen from the table whose rows are tried. -/
structure OnEquality where
  /-- The place of the column in the rows that are tried. -/
  position : Nat
  /-- The key of the other column in the record. -/
  key : String
deriving DecidableEq, Repr

namespace OnEquality

/-- Turns an ON equality so that the column of the joined table comes from the rows that are tried.
If both columns are of that table, the left one does. -/
def orient (j : Join) (t : Table) (s : Scope) : Except Fault OnEquality := do
  let left ← s.resolve j.left
  let right ← s.resolve j.right
  match Text.rest? (columnKey j.table "") left, Text.rest? (columnKey j.table "") right with
  | some column, _ => return ⟨← t.require column, right⟩
  | none, some column => return ⟨← t.require column, left⟩
  | none, none =>
    .error (.malformed ("join condition " ++ j.left.text ++ " = " ++ j.right.text ++
      " does not reference table " ++ j.table))

/-- Whether a row can be joined to a record: both values are there, neither is null, and their
canonical strings are equal. -/
def holds (e : OnEquality) (r : Record) (row : Row) : Except Fault Bool := do
  let bound ← r.get e.key
  match row[e.position]? with
  | some v => return !v.isNull && !bound.isNull && v.canonical == bound.canonical
  | none => return false

end OnEquality

/-- A table whose rows are joined; every row is, where there is no equality. -/
structure Level where
  table : String
  relation : Relation
  on : Option OnEquality
deriving DecidableEq

/-- The record with the values of a row of the level. -/
def Level.merge (l : Level) (r : Record) (row : Row) : Record :=
  r.merge l.table l.relation.table.columnNames row

/-- Whether a row of the level can be joined to a record. -/
def Level.admits (l : Level) (r : Record) (row : Row) : Except Fault Bool :=
  match l.on with
  | some e => e.holds r row
  | none => .ok true

/-- Records in order, the fault that ended them, and the record as it was left. -/
structure Scan where
  records : List Record
  fault : Option Fault
  left : Record

namespace Scan

/-- Tries rows of a level one after the other, and goes on with those that can be joined. -/
def tryRows (l : Level) (inner : Record → Scan) : List Row → Record → Scan
  | [], r => ⟨[], none, r⟩
  | row :: rest, r =>
    match l.admits r row with
    | .error f => ⟨[], some f, r⟩
    | .ok false => tryRows l inner rest r
    | .ok true =>
      let first := inner (l.merge r row)
      match first.fault with
      | some f => ⟨first.records, some f, first.left⟩
      | none =>
        let others := tryRows l inner rest first.left
        ⟨first.records ++ others.records, others.fault, others.left⟩

/-- Joins the rows of levels to a record, level by level. -/
def descend : List Level → Record → Scan
  | [], r => ⟨[r], none, r⟩
  | l :: levels, r => tryRows l (descend levels) l.relation.rows r

/-- The records that begin with rows of a table, each beginning afresh, and the fault that ended
them. -/
def run (base : Level) (levels : List Level) : List Row → List Record × Option Fault
  | [] => ([], none)
  | row :: rest =>
    let first := descend levels (base.merge {} row)
    match first.fault with
    | some f => (first.records, some f)
    | none =>
      let (records, fault) := run base levels rest
      (first.records ++ records, fault)

end Scan

end Tabula
