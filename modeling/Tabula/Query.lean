import Tabula.Answer
import Tabula.Catalog
import Tabula.Scan
import Tabula.Sink

/-!
# Queries

A query is a SELECT whose tables and columns have been found: a table whose rows come first, the
levels that are joined to them, the predicates that a record has to meet, what is made of the
records, and the stages that the answer passes.

* `Select.bind` finds tables and columns; everything that can be found wrong without a look at the
  rows is found wrong here.
* `Query.frames` writes the answer.
-/

namespace Tabula

/-- A SELECT whose names have been found. -/
structure Query where
  base : Level
  levels : List Level
  predicates : List Predicate
  answer : Answer
  stages : List Stage
deriving DecidableEq

namespace Select

/-- The tables in the order in which they are named, each once. -/
def tableNames (s : Select) : List String :=
  (s.tables ++ s.joins.map (·.table)).eraseDups

/-- The tables after the first that are crossed with it, each once. -/
def crossedNames (s : Select) : List String :=
  s.tables.eraseDups.drop 1

/-- The columns of tables that have to be there, under the names of the tables. -/
def tableColumns (c : Catalog) : List String → Except Fault (List (String × List String))
  | [] => .ok []
  | name :: rest => do
    let r ← c.get name
    let others ← tableColumns c rest
    return (name, r.table.columnNames) :: others

/-- The levels of tables all of whose rows are joined. -/
def crossedLevels (c : Catalog) : List String → Except Fault (List Level)
  | [] => .ok []
  | name :: rest => do
    let r ← c.get name
    let levels ← crossedLevels c rest
    return ⟨name, r, none⟩ :: levels

/-- The levels of tables that are joined by an equality. -/
def joinedLevels (c : Catalog) (s : Scope) : List Join → Except Fault (List Level)
  | [] => .ok []
  | j :: rest => do
    let r ← c.get j.table
    let e ← OnEquality.orient j r.table s
    let levels ← joinedLevels c s rest
    return ⟨j.table, r, some e⟩ :: levels

/-- The stages in the order in which rows pass them. -/
def stages (s : Select) : List Stage :=
  (match s.distinct with
    | none => []
    | some .all => [.distinct none {}]
    | some (.on keys) => [.distinct (some keys.length) {}]) ++
  s.offset.toList.map (.offset · 0) ++ s.limit.toList.map (.limit · 0)

/-- Finds the tables, then the columns of conditions, of joins and of the answer. -/
def bind (now : String) (c : Catalog) (s : Select) : Except Fault Query :=
  match s.tableNames with
  | [] => .error (.malformed "SELECT without FROM")
  | first :: _ => do
    let scope := Scope.ofList (← tableColumns c s.tableNames)
    let predicates ← Predicate.bindAll now scope s.conditions
    let base ← c.get first
    let crossed ← crossedLevels c s.crossedNames
    let joined ← joinedLevels c scope s.joins
    let answer ← Answer.bind s.projections s.orderBy scope
    return ⟨⟨first, base, none⟩, crossed ++ joined, predicates, answer, s.stages⟩

end Select

namespace Query

/-- The records that meet predicates, up to the first that cannot be tested; `ended` is the fault
that ended the records themselves. -/
def keep (ps : List Predicate) (ended : Option Fault) : List Record → List Record × Option Fault
  | [] => ([], ended)
  | r :: rest =>
    match Predicate.all r ps with
    | .error fault => ([], some fault)
    | .ok hit =>
      let (records, fault) := keep ps ended rest
      (if hit then r :: records else records, fault)

/-- The records that the query selects, and the fault that ended them. -/
def records (q : Query) : List Record × Option Fault :=
  let (records, ended) := Scan.run q.base q.levels q.base.relation.rows
  keep q.predicates ended records

/-- The frames of the answer, and the fault that ended it. -/
def frames (q : Query) : List Frame × Option Fault :=
  let (records, ended) := q.records
  let (frames, fault) := q.answer.frames records ended
  (Stage.passAll q.stages frames, fault)

end Query

end Tabula
