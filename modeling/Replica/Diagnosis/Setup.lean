/-!
# Setting up the reports

Whoever owns the process decides once how diagnostics are written: the form of a line, the filter
that selects events, and the destination. The variables of the environment override the defaults;
one whose value is not text counts as unset.
-/

namespace Replica.Diagnosis

/-- The form of a written event. -/
inductive LineFormat where
  | json
  | pretty
  | compact
  deriving DecidableEq, Inhabited, Repr

namespace LineFormat

/-- The form that stands in for an unknown or missing name. -/
def fallback : LineFormat := .compact

def name : LineFormat → String
  | json => "Json"
  | pretty => "Pretty"
  | compact => "Compact"

/-- The form called `text`, whatever its case. No character outside ASCII has a letter of these
names as its lower case, so only ASCII letters are folded. -/
def ofName (text : String) : LineFormat :=
  match text.toLower with
  | "json" => json
  | "pretty" => pretty
  | _ => fallback

end LineFormat

/-- What is set up. -/
structure Setup where
  format : LineFormat := .fallback
  /-- The directives that select events. -/
  filter : String := "info"
  /-- Whether events go to the capture of a test instead of the error stream. -/
  captured : Bool := false
  deriving DecidableEq, Inhabited

namespace Setup

def forTests (filter : String) : Setup := { filter, captured := true }

/-- The set-up that the environment asks for. The variable of the library itself wins over the
general one. -/
def ofEnvironment (lookup : String → Option String) : Setup :=
  { format := ((lookup "QUORUM_LOG_FORMAT").map LineFormat.ofName).getD .fallback
    filter := ((lookup "QUORUM_LOG").or (lookup "RUST_LOG")).getD "info" }

end Setup

/-- Why a set-up fails: there is one already. Events can be directed only once. -/
inductive SetupError where
  | alreadyInstalled
  deriving DecidableEq, Inhabited

def SetupError.message : SetupError → String
  | .alreadyInstalled => "Failed to initialize tracing subscriber"

/-- Installs `setup` unless there is one already. -/
def install (installed : Option Setup) (setup : Setup) : Except SetupError Setup :=
  match installed with
  | some _ => .error .alreadyInstalled
  | none => .ok setup

end Replica.Diagnosis
