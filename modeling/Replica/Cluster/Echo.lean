import Replica.Cluster.Service
import Replica.Error.Spelling
import Replica.Json.Reader
import Replica.Text.Digits
import Replica.Time.Polling

/-!
# The echo service

A service that is told what to do by the body of the request. The part of the body before the first
colon is a command, and the rest its argument. A body that is no command is echoed.
-/

namespace Replica

structure Echo where
  alive : Bool := true
  /-- How many requests it has begun to work on. -/
  served : Nat := 0
  deriving DecidableEq, Inhabited

namespace Echo

/-- The command and the argument in a body. -/
def split (body : String) : String × String :=
  let (command, rest) := body.toList.span (· ≠ ':')
  (String.ofList command, String.ofList (rest.drop 1))

/-- How long a slow command sleeps. An argument that is no number means no time. -/
def sleep (argument : String) : Nat :=
  Sleep.span ((Text.Integer.uint64OfString? argument).getD 0).toNat

/-- The reply that echoes the request. -/
def echo (r : Request) : Ending := .reply (r.answer ("echo:" ++ r.body))

/-- Work that ends at once in an error which is spelled in JSON. -/
def fail (argument : String) : Work :=
  match (Json.parse? argument).bind ServerError.ofJson? with
  | some e => { ending := .failure e, raised := [e] }
  | none => { ending := .panic none }

def serve (r : Request) (s : Echo) : Echo × Work :=
  let s := { s with served := s.served + 1 }
  let (command, argument) := split r.body
  match command with
  | "error" => (s, fail argument)
  | "ignore" => (s, { ending := .silence })
  | "panic" => (s, { ending := .panic (some "boom") })
  | "panic-string" => (s, { ending := .panic (some argument) })
  | "panic-any" => (s, { ending := .panic none })
  | "stop" => ({ s with alive := false }, { ending := echo r })
  | "stop-and-break" =>
    ({ s with alive := false },
      { ending := .failure (.invariantViolation "broken while stopping") })
  | "wrong-requestor" =>
    (s, { ending := .reply { r.answer "wrong" with requestor := "elsewhere" } })
  | "wrong-replier" => (s, { ending := .reply { r.answer "wrong" with replier := "elsewhere" } })
  | "wrong-call" =>
    (s, { ending := .reply { r.answer "other call" with callId := r.callId + 1 } })
  | "slow" => (s, { duration := sleep argument, ending := echo r })
  | "slow-ignore" => (s, { duration := sleep argument, ending := .silence })
  | "slow-break" =>
    (s, { duration := sleep argument, ending := .failure (.internal "late failure") })
  | _ => (s, { ending := echo r })

def service : Service Echo where
  isAlive s := s.alive
  serve := serve

end Echo

end Replica
