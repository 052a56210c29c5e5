import Replica.Network.Request

/-!
# Services

What a server does with requests. A service takes a request together with its own state, changes the
state at once, and says how long it works on the request and how that ends. It can also say, at any
time, whether it is alive.

A service can break down in two ways. A panic is the end of work that somebody waits for, who learns of it
as of an error. A crash comes before that, when the service is given the request and has not yet said what
work there is: nobody learns of it.

A statement about all services is one about servers that answer, stay silent or fail, after any time, and
that panic or crash.
-/

namespace Replica

/-- How work on a request ends. -/
inductive Ending where
  | reply (reply : Reply)
  /-- No reply is sent. -/
  | silence
  | failure (error : ServerError)
  /-- The work breaks down, with a message if it left one. -/
  | panic (message : Option String)
  /-- The service breaks down before there is any work. -/
  | crash
  deriving DecidableEq, Inhabited

/-- Work on a request. -/
structure Work where
  duration : Nat := 0
  ending : Ending
  /-- The errors that are made, and reported, as the work begins. -/
  raised : List ServerError := []
  crash_at_once : ending = .crash → duration = 0 := by nofun
  deriving DecidableEq

/-- A service with states `σ`. -/
structure Service (σ : Type) where
  isAlive : σ → Bool
  /-- Begins to work on a request. -/
  serve : Request → σ → σ × Work

/-- The error that a panic with the given message amounts to. -/
def panicError : Option String → ServerError
  | some message => .internal ("handler panicked: " ++ message)
  | none => .internal "handler panicked"

end Replica
