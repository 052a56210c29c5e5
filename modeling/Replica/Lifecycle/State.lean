/-!
# Lifecycle states

The states that a long-lived component goes through, and the moves between them:

    NEW ──► STARTING ──► RUNNING ──► PAUSING ──► PAUSED ──► STARTING
                │                                   
                └──► NEW, after a start that failed

`EXCEPTION` is reached from the states between `STARTING` and `PAUSING`, `CLOSING` from every state
but the last two, and `CLOSED` from `CLOSING` alone.
-/

namespace Replica.Lifecycle

/-- A state of a lifecycle. -/
inductive State where
  /-- Created and never started. -/
  | new
  | starting
  /-- Started and serving. -/
  | running
  | pausing
  /-- Paused, and free to start again. -/
  | paused
  | exception
  | closing
  /-- Closed for good. -/
  | closed
  deriving DecidableEq, Inhabited, Repr

namespace State

def all : List State := [new, starting, running, pausing, paused, exception, closing, closed]

def name : State → String
  | new => "NEW"
  | starting => "STARTING"
  | running => "RUNNING"
  | pausing => "PAUSING"
  | paused => "PAUSED"
  | exception => "EXCEPTION"
  | closing => "CLOSING"
  | closed => "CLOSED"

def ofName? (text : String) : Option State := all.find? (·.name == text)

/-- Whether the state is one of the last two. -/
def isClosingOrClosed : State → Bool
  | closing | closed => true
  | _ => false

def isPausingOrPaused : State → Bool
  | pausing | paused => true
  | _ => false

/-- Whether a lifecycle may move from the first state to the second. -/
def mayMoveTo : State → State → Bool
  | new, starting | new, closing => true
  | starting, new | starting, running | starting, closing | starting, exception => true
  | running, closing | running, pausing | running, exception => true
  | pausing, paused | pausing, closing | pausing, exception => true
  | paused, starting | paused, closing => true
  | exception, closing => true
  | closing, closed => true
  | _, _ => false

end State

end Replica.Lifecycle
