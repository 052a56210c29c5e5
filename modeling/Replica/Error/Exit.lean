/-!
# Diagnostics, and requests to end the process

What is reported to whoever watches the process: warnings and errors, each with a message and named
details.

A defect that no caller can act on asks for the end of the process. Every request is reported; the
first since the last clearing is kept.
-/

namespace Replica

/-- How serious a diagnostic is. -/
inductive Severity where
  | warning
  | error
  deriving DecidableEq, Inhabited, Repr

def Severity.name : Severity → String
  | .warning => "WARN"
  | .error => "ERROR"

/-- A reported event. -/
structure Diagnostic where
  severity : Severity
  message : String
  /-- Further details by name. -/
  details : List (String × String) := []
  deriving DecidableEq, Inhabited

/-- A request to end the process. -/
structure ExitRecord where
  status : Int
  message : String
  deriving DecidableEq, Inhabited

namespace ExitRecord

def diagnostic (r : ExitRecord) (cause : String) : Diagnostic :=
  { severity := .error, message := r.message
    details := [("status", toString r.status), ("error", cause)] }

/-- The record kept after a request: the first one stays. -/
def keepFirst (kept : Option ExitRecord) (request : ExitRecord) : Option ExitRecord :=
  some (kept.getD request)

end ExitRecord

end Replica
