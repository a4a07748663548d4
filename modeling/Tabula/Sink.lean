import Tabula.Reply

/-!
# Stages between a query and its reader

A stage sees the frames of an answer one by one and lets each pass, changes it or holds it back:
`distinct` holds back rows that were met before, `offset` the first rows and `limit` all rows after
the first.  Only rows are counted and compared, and only `distinct` on leading columns changes a
header.  A `Sink` is a row of stages before a collector.
-/

namespace Tabula

/-- Key lists that were met. -/
structure Seen where
  lists : List (List String) := []
deriving DecidableEq, Repr

namespace Seen

/-- Whether a key list counts as met: it is empty, or one that was met begins with it. -/
def contains (s : Seen) (keys : List String) : Bool :=
  keys.isEmpty || s.lists.any keys.isPrefixOf

/-- Meets a key list, and says whether it was new. -/
def insert (s : Seen) (keys : List String) : Seen × Bool :=
  if s.contains keys then (s, false) else (⟨keys :: s.lists⟩, true)

end Seen

/-- A stage with what it remembers. -/
inductive Stage where
  /-- Rows are compared in all columns, or in the first `on`, which are then left out. -/
  | distinct (on : Option Nat) (seen : Seen)
  | offset (skip dropped : Nat)
  | limit (most passed : Nat)
deriving DecidableEq, Repr

namespace Stage

/-- The columns of a row that `distinct` lets pass. -/
def visible (on : Option Nat) (cells : List String) : List String :=
  cells.drop (on.getD 0)

/-- The columns of a row that `distinct` compares. -/
def compared (on : Option Nat) (cells : List String) : List String :=
  cells.take (on.getD cells.length)

/-- What becomes of a frame, and the stage after it. -/
def pass : Stage → Frame → Stage × Option Frame
  | .distinct on seen, .header names => (.distinct on seen, some (.header (visible on names)))
  | .distinct on seen, .row cells =>
    let (seen, fresh) := seen.insert (compared on cells)
    (.distinct on seen, if fresh then some (.row (visible on cells)) else none)
  | .offset skip dropped, .row cells =>
    if dropped < skip then (.offset skip (dropped + 1), none)
    else (.offset skip dropped, some (.row cells))
  | .limit most passed, .row cells =>
    if passed < most then (.limit most (passed + 1), some (.row cells))
    else (.limit most passed, none)
  | stage, frame => (stage, some frame)

/-- What becomes of a frame on its way through stages, the first of them first. -/
def passThrough : List Stage → Frame → List Stage × Option Frame
  | [], frame => ([], some frame)
  | stage :: rest, frame =>
    match stage.pass frame with
    | (stage, none) => (stage :: rest, none)
    | (stage, some frame) =>
      let (rest, out) := passThrough rest frame
      (stage :: rest, out)

/-- The frames that come through stages. -/
def passAll (stages : List Stage) : List Frame → List Frame
  | [] => []
  | frame :: frames =>
    let (stages, out) := passThrough stages frame
    out.toList ++ passAll stages frames

end Stage

/-- Stages before a collector. -/
structure Sink where
  stages : List Stage
  collector : Collector := {}
deriving DecidableEq, Repr

/-- Writes a frame, and says why the collector refused what came through, if it did. -/
def Sink.write (s : Sink) (f : Frame) : Sink × Option Fault :=
  let (stages, out) := Stage.passThrough s.stages f
  match out with
  | none => (⟨stages, s.collector⟩, none)
  | some frame =>
    match s.collector.push frame with
    | .ok collector => (⟨stages, collector⟩, none)
    | .error fault => (⟨stages, s.collector⟩, some fault)

end Tabula
