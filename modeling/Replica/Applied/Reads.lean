import Replica.Applied.Cursor

/-!
# Reads that wait at the cursor

A read carries a request and the index that it needs. It is answered at once if the cursor is there
already. Otherwise it waits; the update that reaches its index releases it, and it is answered when
it gets its turn. A read that is given up is never answered.

The answer is computed from the request by whoever owns the cursor, at the time of the turn.
-/

namespace Replica

/-- Where a read stands. -/
inductive ReadStage (α : Type) where
  /-- The cursor has not reached its index. -/
  | waiting
  /-- The cursor has reached its index, and the read has not had its turn. -/
  | released
  | answered (answer : α)
  | cancelled
  deriving DecidableEq, Inhabited

def ReadStage.isOpen : ReadStage α → Bool
  | .waiting | .released => true
  | _ => false

/-- A read with its request, the index it needs, and where it stands. -/
structure Read (ρ α : Type) where
  index : Int64
  request : ρ
  stage : ReadStage α
  deriving DecidableEq, Inhabited

/-- A cursor and the reads that were begun on it, in that order. -/
structure Reads (ρ α : Type) where
  cursor : Cursor := {}
  reads : List (Read ρ α) := []
  deriving DecidableEq, Inhabited

namespace Reads

variable {ρ α : Type}

/-- The read with the stage changed, if it is still waiting. -/
def release (r : Read ρ α) : Read ρ α :=
  match r.stage with
  | .waiting => { r with stage := .released }
  | _ => r

/-- Moves the cursor, and releases the reads that it has reached. -/
def update (next : LogPosition) (rs : Reads ρ α) : Reads ρ α × Except ServerError Bool :=
  match rs.cursor.update next with
  | .error e => (rs, .error e)
  | .ok (changed, cursor, readers) =>
    ({ cursor, reads := readers.foldl (fun reads t => reads.modify t release) rs.reads },
      .ok changed)

/-- Begins a read that needs `index`. -/
def begin (answer : ρ → α) (index : Int64) (request : ρ) (rs : Reads ρ α) : Reads ρ α :=
  if rs.cursor.hasReached index then
    { rs with reads := rs.reads ++ [⟨index, request, .answered (answer request)⟩] }
  else
    { cursor := rs.cursor.wait index rs.reads.length
      reads := rs.reads ++ [⟨index, request, .waiting⟩] }

/-- Gives a released read its turn. -/
def turn (answer : ρ → α) (t : TaskId) (rs : Reads ρ α) : Reads ρ α :=
  { rs with
    reads := rs.reads.modify t fun r =>
      match r.stage with
      | .released => { r with stage := .answered (answer r.request) }
      | _ => r }

/-- Gives up a read, unless it has ended. Answers whether it was under way. -/
def cancel (t : TaskId) (rs : Reads ρ α) : Reads ρ α × Bool :=
  match rs.reads[t]? with
  | some r =>
    if r.stage.isOpen then
      ({ cursor := rs.cursor.abandon t
         reads := rs.reads.modify t fun r => { r with stage := .cancelled } }, true)
    else (rs, false)
  | none => (rs, false)

/-- The answer to a read, once it has been given. -/
def answer? (t : TaskId) (rs : Reads ρ α) : Option α :=
  match rs.reads[t]? with
  | some ⟨_, _, .answered a⟩ => some a
  | _ => none

/-- Whether the read has been released and not had its turn. -/
def isReleased (t : TaskId) (rs : Reads ρ α) : Bool :=
  match rs.reads[t]? with
  | some ⟨_, _, .released⟩ => true
  | _ => false

/-- How reads get their turns: the released ones, each of which needs one turn and is answered from
the state at that time. -/
def schedule (answer : Reads ρ α → ρ → α) : Schedule (Reads ρ α) where
  size rs := rs.reads.length
  isReady _ t rs := rs.isReleased t
  turn _ t rs := rs.turn (answer rs) t
  alarm? _ := none
  effort rs := rs.reads.length

end Reads

/-! ### Waiting for a position

A read that asks for nothing is answered with the position of the cursor. -/

/-- Reads that are answered with the position at the time of their turn. -/
abbrev Waits := Reads Unit LogPosition

namespace Waits

def waitFor (index : Int64) (ws : Waits) : Waits :=
  Reads.begin (fun _ => ws.cursor.applied) index () ws

def schedule : Schedule Waits := Reads.schedule fun ws _ => ws.cursor.applied

end Waits

end Replica
