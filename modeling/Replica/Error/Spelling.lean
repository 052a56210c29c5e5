import Replica.Error.Server

/-!
# Errors spelled in JSON

An error can be written down as an object that names its cause under `kind` and holds the parts of
the cause beside it. `ofJson?` reads that form.
-/

namespace Replica

namespace Json

def read? (α : Type) [Wire α] (name : String) (j : Json) : Option α :=
  (j.get? name).bind Wire.decode?

end Json

namespace IoError

/-- The failure that an object spells under `io` and `message`. -/
def ofJson? (j : Json) : Option IoError := do
  return ⟨← IoKind.ofName? (← j.read? String "io"), ← j.read? String "message"⟩

end IoError

namespace PeerError

/-- The error that an object spells. -/
def ofJson? (j : Json) : Option PeerError := do
  match ← j.read? String "kind" with
  | "NotFound" =>
    return .notFound (← j.read? String "name") (← j.read? PeerId "id")
      (← j.read? (List PeerId) "peers")
  | "AlreadyClosed" =>
    return .alreadyClosed (← j.read? String "name")
      (← Lifecycle.State.ofName? (← j.read? String "state"))
  | "Connection" => return .connection (← j.read? PeerId "peer") (← j.read? String "cause")
  | "Io" => return .io (← IoError.ofJson? j)
  | "InvalidTransition" =>
    return .invalidTransition (← j.read? String "name")
      (← Lifecycle.State.ofName? (← j.read? String "from"))
      (← Lifecycle.State.ofName? (← j.read? String "to"))
  | "Timeout" => return .timeout (← j.read? UInt64 "ms")
  | "Interrupted" => return .interrupted (← j.read? String "message")
  | _ => none

end PeerError

namespace ServerError

def ofJson? (j : Json) : Option ServerError := do
  match ← j.read? String "kind" with
  | "Core" => return .core (← PeerError.ofJson? (← j.get? "error"))
  | "NodeNotFound" => return .nodeNotFound (← j.read? PeerId "id")
  | "Timeout" => return .timeout (← j.read? String "what") (← j.read? UInt64 "ms")
  | "Shutdown" => return .shutdown (← j.read? PeerId "id")
  | "InvariantViolation" => return .invariantViolation (← j.read? String "message")
  | "InvalidArgument" => return .invalidArgument (← j.read? String "message")
  | "StateMachine" => return .stateMachine (← j.read? String "message")
  | "Internal" => return .internal (← j.read? String "message")
  | "Io" => return .io (← IoError.ofJson? j)
  | _ => none

end ServerError

end Replica
