import Replica.Error.Peer

/-!
# Lifecycles

A named lifecycle and the four operations on it. A move is checked against the table of states, so
that a closed component can never be started again.

Closing runs in two halves, `beginClose?` and `finishClose`, with the owner's own work between them.
-/

namespace Replica

/-- A lifecycle: the name of its owner and the current state. -/
structure Lifecycle where
  name : String
  state : Lifecycle.State := .new
  deriving DecidableEq, Inhabited

namespace Lifecycle

def display (l : Lifecycle) : String := l.name ++ ":" ++ l.state.name

def withState (l : Lifecycle) (target : State) : Lifecycle := { l with state := target }

/-- The lifecycle moved to `target`, if the table allows it. -/
def transition (target : State) (l : Lifecycle) : Except PeerError Lifecycle :=
  if l.state.mayMoveTo target then .ok (l.withState target)
  else .error (.invalidTransition l.name l.state target)

/-- The lifecycle moved from `source` to `target`, if it is in `source` and the table allows it. -/
def compareAndTransition? (source target : State) (l : Lifecycle) : Option Lifecycle :=
  if l.state = source ∧ source.mayMoveTo target then some (l.withState target) else none

/-- Fails if the lifecycle is closing or closed. -/
def assertNotClosed (l : Lifecycle) : Except PeerError Unit :=
  if l.state.isClosingOrClosed then .error (.alreadyClosed l.name l.state) else .ok ()

/-- The first half of a close, unless one has begun already. -/
def beginClose? (l : Lifecycle) : Option Lifecycle :=
  if l.state.isClosingOrClosed then none else some (l.withState .closing)

/-- The second half of a close. -/
def finishClose (l : Lifecycle) : Lifecycle := l.withState .closed

end Lifecycle

end Replica
