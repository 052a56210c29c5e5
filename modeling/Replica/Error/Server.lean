import Replica.Error.Exit
import Replica.Error.Peer

/-!
# Errors of a server

What goes wrong while a server applies its log or exchanges requests. Errors of peer bookkeeping
pass through unchanged. A broken invariant is always a defect: whoever finds one also reports it.
-/

namespace Replica

inductive ServerError where
  | core (error : PeerError)
  | nodeNotFound (id : PeerId)
  /-- `what` had no reply in time. -/
  | timeout (what : String) (ms : UInt64)
  /-- The node's mailbox is shut down. -/
  | shutdown (id : PeerId)
  | invariantViolation (what : String)
  | invalidArgument (what : String)
  | stateMachine (what : String)
  | io (error : IoError)
  | internal (what : String)
  deriving DecidableEq, Inhabited

namespace ServerError

def kind : ServerError → String
  | core error => "Core." ++ error.kind
  | nodeNotFound _ => "NodeNotFound"
  | timeout .. => "Timeout"
  | shutdown _ => "Shutdown"
  | invariantViolation _ => "InvariantViolation"
  | invalidArgument _ => "InvalidArgument"
  | stateMachine _ => "StateMachine"
  | io _ => "Io"
  | internal _ => "Internal"

def message : ServerError → String
  | core error => error.message
  | nodeNotFound id => "Node " ++ id.name ++ " not found"
  | timeout what ms => what ++ " timed out after " ++ toString ms.toNat ++ "ms"
  | shutdown id => "Node " ++ id.name ++ " is shut down"
  | invariantViolation what => "Invariant violation: " ++ what
  | invalidArgument what => "Invalid argument: " ++ what
  | stateMachine what => "State machine error: " ++ what
  | io error => "IO error: " ++ error.message
  | internal what => "Internal error: " ++ what

/-- The text of the failure behind the error, if there is one. -/
def source? : ServerError → Option String
  | core error => error.source?
  | io error => some error.message
  | _ => none

/-- Whether the error is a defect, which is neither retried nor given to a caller. -/
def isFatal : ServerError → Bool
  | invariantViolation _ | internal _ => true
  | _ => false

/-- Whether the error means that the local node is going away. -/
def isShutdown : ServerError → Bool
  | shutdown _ => true
  | core error => error.isInterrupted
  | _ => false

def isTimeout : ServerError → Bool
  | timeout .. | core (.timeout _) => true
  | _ => false

/-- Whether the error is a look-up of an unknown node or peer. -/
def isNotFound : ServerError → Bool
  | nodeNotFound _ | core (.notFound ..) => true
  | _ => false

/-- What is reported when the error is first made: a broken invariant is, nothing else. -/
def diagnostics : ServerError → List Diagnostic
  | e@(invariantViolation _) => [{ severity := .error, message := e.message }]
  | _ => []

end ServerError

end Replica
