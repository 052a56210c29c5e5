import Replica.Error.Server
import Replica.Log.Entry
import Replica.Time.Schedule

/-!
# The cursor over the applied log

The cursor stands at the last applied position and only moves to later positions. Reads that need
an index which is not applied yet wait at the cursor. All reads of one index share one entry, and
entries are kept in the order of their indices.

Every accepted update completes the entries at or below the cursor's index, in the same step. An
entry stays where it is when the reads waiting in it are given up.
-/

namespace Replica

/-- The reads that wait for one index. -/
structure PendingRead where
  index : Int64
  /-- The waiting reads, oldest first. -/
  readers : List TaskId
  deriving DecidableEq, Inhabited

/-- The last applied position, and the reads that wait for later ones. -/
structure Cursor where
  applied : LogPosition := .initial
  pending : List PendingRead := []
  deriving DecidableEq, Inhabited

namespace Cursor

/-- The index after `index`, if there is one. -/
def nextIndex? (index : Int64) : Option Int64 :=
  if index = Int64.maxValue then none else some (index + 1)

/-- The entries at or below the cursor's index, and the entries above it. -/
def split (c : Cursor) : List PendingRead × List PendingRead :=
  match nextIndex? c.applied.index with
  | some next => (c.pending.takeWhile (·.index < next), c.pending.dropWhile (·.index < next))
  | none => (c.pending, [])

/-- The cursor with the entries it has reached taken out, and the reads that waited in them. -/
def complete (c : Cursor) : Cursor × List TaskId :=
  ({ c with pending := c.split.2 }, c.split.1.flatMap (·.readers))

/-- Moves the cursor to `next`. Answers whether it moved, and which reads are released; a position
behind the cursor is refused. -/
def update (next : LogPosition) (c : Cursor) : Except ServerError (Bool × Cursor × List TaskId) :=
  match next.cmp c.applied with
  | .lt =>
    .error (.invariantViolation
      ("applied index moved backward: " ++ c.applied.display ++ " -> " ++ next.display))
  | .eq => .ok (false, c.complete)
  | .gt => .ok (true, { c with applied := next }.complete)

def hasReached (index : Int64) (c : Cursor) : Bool := index ≤ c.applied.index

/-- The entries with `reader` added to the one for `index`, which is made if it is missing. -/
def join (index : Int64) (reader : TaskId) : List PendingRead → List PendingRead
  | [] => [⟨index, [reader]⟩]
  | entry :: rest =>
    if entry.index = index then { entry with readers := entry.readers ++ [reader] } :: rest
    else if index < entry.index then ⟨index, [reader]⟩ :: entry :: rest
    else entry :: join index reader rest

def wait (index : Int64) (reader : TaskId) (c : Cursor) : Cursor :=
  { c with pending := join index reader c.pending }

/-- Takes `reader` out of the entry that it waits in. The entry stays. -/
def abandon (reader : TaskId) (c : Cursor) : Cursor :=
  { c with
    pending := c.pending.map fun entry => { entry with readers := entry.readers.erase reader } }

/-- The number of indices that reads wait for. -/
def pendingReads (c : Cursor) : Nat := c.pending.length

def describe (c : Cursor) : String :=
  Text.structured "AppliedIndexTracker"
    [("applied", c.applied.describe), ("pending", toString c.pendingReads)] false

end Cursor

end Replica
