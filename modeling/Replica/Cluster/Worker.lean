import Replica.Cluster.Service
import Replica.Network.Replying
import Replica.Network.Taking

/-!
# Workers

A server runs workers, each of which goes round: it looks whether the service is alive, takes a
request addressed to its node, has the service work on it, and sends the reply.

* Errors of the service that are no defects are sent to the caller, and the worker goes round again.
* A defect ends the worker: a broken invariant, an internal error, a panic, or a reply that does not
  answer its request. If the service is still alive, the worker asks for the end of the process.
* A crash takes the worker along, and nobody is told.
* A worker whose mailbox is shut down leaves without a word.

The worker takes requests for as long as it need not wait. In one turn it goes round at most as
often as there are requests to take, so their number bounds the recursion.
-/

namespace Replica

/-- Where a worker stands. -/
inductive Working where
  /-- It is about to go round. -/
  | idle
  | taking (stage : Taking)
  /-- The service works on the request, until the time `wake`. -/
  | handling (request : Request) (ending : Ending) (wake : Nat)
  | replying (stage : Replying)
  deriving DecidableEq, Inhabited

/-- Why a worker has left. -/
inductive Departure where
  /-- The service was not alive when the worker went round. -/
  | stopped
  /-- Its mailbox was shut down. -/
  | interrupted (error : ServerError)
  /-- A defect of a service that was not alive any more. -/
  | silent (error : ServerError)
  /-- A defect, for which it asked for the end of the process. -/
  | terminated (error : ServerError)
  /-- The service crashed when the worker gave it a request. -/
  | crashed
  deriving DecidableEq, Inhabited

/-- What a worker does next. -/
inductive Pace where
  | waits (stage : Working)
  | again
  | leaves (why : Departure)
  deriving DecidableEq, Inhabited

/-- Who a worker is. -/
structure Badge where
  /-- The node that it works for. -/
  node : PeerId
  /-- The name of its server. -/
  server : String
  /-- Its place among the workers that were started with it. -/
  place : Nat
  /-- The task that it is. -/
  task : TaskId
  deriving DecidableEq, Inhabited

def Badge.display (b : Badge) : String := b.node.name ++ "." ++ b.server ++ toString b.place

/-- What a worker acts on: the network, the state of its service, and the request to end the process
that has been kept. -/
structure Desk (σ : Type) where
  network : Network
  state : σ
  exit : Option ExitRecord

namespace Working

def alarm? : Working → Option Nat
  | idle => none
  | taking stage => stage.alarm?
  | handling _ _ wake => some wake
  | replying stage => some stage.wake

def divert (owner : TaskId) (other : PeerId) : Working → Working
  | idle => idle
  | taking stage => taking (stage.divert owner other)
  | handling request ending wake => handling (request.divert owner other) ending wake
  | replying stage => replying (stage.divert owner other)

end Working

namespace Desk

variable {σ : Type} (service : Service σ)

def terminate (now : Nat) (badge : Badge) (e : ServerError) (desk : Desk σ) : Desk σ :=
  let record : ExitRecord := { status := 1, message := badge.display ++ " is terminating" }
  { desk with
    exit := ExitRecord.keepFirst desk.exit record
    network := desk.network.note now (.terminated badge.task record e) }

/-- The worker has met an error that it cannot send to anybody. -/
def leave (now : Nat) (badge : Badge) (e : ServerError) (desk : Desk σ) : Desk σ × Pace :=
  if e.isShutdown then (desk, .leaves (.interrupted e))
  else if !service.isAlive desk.state then (desk, .leaves (.silent e))
  else (desk.terminate now badge e, .leaves (.terminated e))

/-- The worker goes on with the reply. -/
def afterReply (now : Nat) (badge : Badge) (result : Network × Network.ReplyProgress)
    (desk : Desk σ) : Desk σ × Pace :=
  let desk := { desk with network := result.1 }
  match result.2 with
  | .waiting stage => (desk, .waits (.replying stage))
  | .ended (.ok ()) => (desk, .again)
  | .ended (.error e) => desk.leave service now badge e

/-- The work on a request has ended. -/
def conclude (now : Nat) (badge : Badge) (r : Request) (ending : Ending) (desk : Desk σ) :
    Desk σ × Pace :=
  match ending with
  | .reply reply => desk.afterReply service now badge (desk.network.beginReply now r (.ok reply))
  | .silence => (desk, .again)
  | .failure e =>
    if e.isFatal then desk.leave service now badge e
    else desk.afterReply service now badge (desk.network.beginReply now r (.error e))
  | .panic message => desk.leave service now badge (panicError message)
  | .crash => (desk, .leaves .crashed)

def handle (now : Nat) (badge : Badge) (r : Request) (desk : Desk σ) : Desk σ × Pace :=
  let (state, work) := service.serve r desk.state
  let network := work.raised.foldl (fun net e => net.note now (.raised e))
    (desk.network.note now (.handled badge.task r))
  let desk := { desk with network, state }
  if work.duration = 0 then desk.conclude service now badge r work.ending
  else (desk, .waits (.handling r work.ending (now + work.duration)))

/-- The worker goes on with taking a request. -/
def afterTake (now : Nat) (badge : Badge) (result : Network × Network.TakeProgress)
    (desk : Desk σ) : Desk σ × Pace :=
  let desk := { desk with network := result.1 }
  match result.2 with
  | .waiting stage => (desk, .waits (.taking stage))
  | .ended (.ok r) => desk.handle service now badge r
  | .ended (.error e) => desk.leave service now badge e

/-- The worker goes on from where it stands, until it waits, leaves, or goes round again. -/
def advance (now : Nat) (badge : Badge) (stage : Working) (desk : Desk σ) : Desk σ × Pace :=
  match stage with
  | .idle =>
    if service.isAlive desk.state then
      desk.afterTake service now badge (desk.network.beginTake now badge.task badge.node)
    else (desk, .leaves .stopped)
  | .taking stage => desk.afterTake service now badge (desk.network.turnTake now badge.task stage)
  | .handling r ending wake =>
    if wake ≤ now then desk.conclude service now badge r ending else (desk, .waits stage)
  | .replying stage => desk.afterReply service now badge (desk.network.turnReply now stage)

/-- Goes round at most `fuel` times more, as long as the worker need not wait. -/
def goRound (now : Nat) (badge : Badge) :
    (fuel : Nat) → Working → Desk σ → Desk σ × Progress Working Departure
  | fuel, stage, desk =>
    match desk.advance service now badge stage with
    | (desk, .waits stage) => (desk, .waiting stage)
    | (desk, .leaves why) => (desk, .ended why)
    | (desk, .again) =>
      match fuel with
      | 0 => (desk, .waiting .idle)
      | fuel + 1 => goRound now badge fuel .idle desk

end Desk

namespace Network

/-- The number of requests that can be taken. -/
def backlog (net : Network) : Nat := net.mailboxes.foldr (fun b waiting => b.requests.length + waiting) 0

/-- Whether a worker can go on. -/
def workReady (now : Nat) (t : TaskId) (net : Network) : Working → Bool
  | .idle => true
  | .taking stage => net.takeReady now t stage
  | .handling _ _ wake => wake ≤ now
  | .replying stage => stage.wake ≤ now

/-- Cancels a worker where it stands. A request that it deals with has no reply. -/
def cancelWork (t : TaskId) (stage : Working) (net : Network) : Network :=
  match stage with
  | .taking stage => net.cancelTake t stage
  | _ => net

end Network

def Desk.turn {σ : Type} (service : Service σ) (now : Nat) (badge : Badge) (stage : Working)
    (desk : Desk σ) : Desk σ × Progress Working Departure :=
  desk.goRound service now badge (desk.network.backlog + 1) stage

end Replica
