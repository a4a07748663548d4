import Tabula.Fault

/-!
# Frames and replies

The engine answers in frames: a result, a fault, or a header with rows up to an end.  A `Collector`
puts frames together to replies, one for each statement.  A row that no header precedes is refused.
-/

namespace Tabula

/-- A piece of an answer. -/
inductive Frame where
  | result (lastId rowsAffected : Int)
  /-- A fault, as it is worded. -/
  | fault (message : String)
  | header (names : List String)
  | row (cells : List String)
  /-- The end of the rows. -/
  | done
deriving DecidableEq, Repr

/-- The answer to one statement. -/
inductive Reply where
  | result (lastId rowsAffected : Int)
  | rows (header : List String) (rows : List (List String))
  | fault (message : String)
deriving DecidableEq, Repr

namespace Reply

/-- The number of rows that a statement changed. -/
def rowsAffected? : Reply → Option Int
  | .result _ n => some n
  | _ => none

/-- The rows that a statement selected. -/
def rows? : Reply → Option (List (List String))
  | .rows _ cells => some cells
  | _ => none

/-- Whether a statement failed. -/
def isFault : Reply → Bool
  | .fault _ => true
  | _ => false

end Reply

/-- Replies that are complete, and rows whose end has not come. -/
structure Collector where
  complete : List Reply := []
  pending : Option (List String × List (List String)) := none
deriving DecidableEq, Repr

namespace Collector

/-- Ends the rows that have no end yet. -/
def flush (c : Collector) : Collector :=
  match c.pending with
  | some (header, rows) => ⟨c.complete ++ [.rows header rows], none⟩
  | none => c

/-- Ends the rows that have no end yet, and adds a reply. -/
def add (c : Collector) (r : Reply) : Collector :=
  ⟨c.flush.complete ++ [r], none⟩

/-- Takes a frame. -/
def push (c : Collector) : Frame → Except Fault Collector
  | .result lastId rowsAffected => .ok (c.add (.result lastId rowsAffected))
  | .fault message => .ok (c.add (.fault message))
  | .header names => .ok { c.flush with pending := some (names, []) }
  | .row cells =>
    match c.pending with
    | some (header, rows) => .ok { c with pending := some (header, rows ++ [cells]) }
    | none => .error (.connection "row written before header")
  | .done => .ok c.flush

/-- Takes a frame; one that is refused changes nothing. -/
def take (c : Collector) (f : Frame) : Collector :=
  match c.push f with
  | .ok next => next
  | .error _ => c

/-- The replies so far.  Rows without an end are one of them. -/
def replies (c : Collector) : List Reply :=
  c.flush.complete

/-- The replies that frames make up. -/
def collect (frames : List Frame) : List Reply :=
  (frames.foldl take {}).replies

end Collector

end Tabula
