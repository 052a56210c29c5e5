import Replica.Cluster.Link
import Replica.Cluster.Worker

/-!
# Tasks of a cluster

A call begins a task. A job is a task under way, with all that it needs to go on; an answer is how
it ends.
-/

namespace Replica

/-- A server, by the order of its making. -/
abbrev ServerId := Nat

/-- A call that begins a task. -/
inductive Call where
  | send (request : Request)
  /-- Take a request that is addressed to the node. -/
  | take (id : PeerId)
  /-- Send the outcome of a request back. -/
  | reply (request : Request) (outcome : Outcome)
  /-- Be one of the workers of a server. -/
  | work (server : ServerId) (place : Nat)
  | linkSend (link : Link) (request : Request)
  /-- Call on the map of a directory. -/
  | consult (directory : DirectoryId) (call : ProxyCall)
  /-- Look up the link to a peer and send a request over it. If that fails with an error of peer
  bookkeeping, have the directory repair the link. -/
  | relay (directory : DirectoryId) (via : PeerId) (request : Request)
  deriving DecidableEq, Inhabited

/-- Where a relay stands. -/
inductive Relay where
  /-- It looks the link up, by a call on the map. -/
  | connecting (call : TaskId) (request : Request)
  | sending (stage : Sending)
  /-- The request has ended, and a call on the map repairs the link. -/
  | repairing (call : TaskId) (sent : Outcome)
  deriving DecidableEq, Inhabited

/-- A task under way. -/
inductive Job where
  | send (stage : Sending)
  | take (stage : Taking)
  | reply (stage : Replying)
  | work (server : ServerId) (place : Nat) (stage : Working)
  | linkSend (stage : Sending)
  | consult (directory : DirectoryId) (call : TaskId)
  | relay (directory : DirectoryId) (via : PeerId) (stage : Relay)
  deriving DecidableEq, Inhabited

/-- How a task ends. -/
inductive Answer where
  | outcome (outcome : Outcome)
  | request (result : Except ServerError Request)
  | replied (result : Except ServerError Unit)
  | departed (why : Departure)
  | consulted (directory : DirectoryId) (answer : ProxyAnswer)
  /-- A relay found no link. -/
  | unconnected (error : PeerError)
  /-- A relay sent its request; `reset` says whether a repair of the link, if there was one, reset
  it. -/
  | relayed (sent : Outcome) (reset : Option Bool)
  deriving DecidableEq, Inhabited

/-- What has become of a task. -/
inductive TaskState where
  | running (job : Job)
  | finished (time : Nat) (answer : Answer)
  | cancelled
  deriving DecidableEq, Inhabited

/-- How far a task has come in one turn. -/
abbrev JobProgress := Progress Job Answer

namespace TaskState

/-- What has become of a task after a turn at the given time. -/
def ofProgress (now : Nat) : JobProgress → TaskState
  | .waiting job => running job
  | .ended answer => finished now answer

def isRunning : TaskState → Bool
  | running _ => true
  | _ => false

end TaskState

/-! ### Detours -/

namespace Relay

def divert (owner : TaskId) (other : PeerId) : Relay → Relay
  | connecting call request => connecting call (request.divert owner other)
  | sending stage => sending (stage.divert owner other)
  | stage => stage

end Relay

namespace Job

def divert (owner : TaskId) (other : PeerId) : Job → Job
  | send stage => send (stage.divert owner other)
  | take stage => take (stage.divert owner other)
  | reply stage => reply (stage.divert owner other)
  | work server place stage => work server place (stage.divert owner other)
  | linkSend stage => linkSend (stage.divert owner other)
  | relay directory via stage => relay directory via (stage.divert owner other)
  | job => job

end Job

/-- The task, if the request that it deals with is given a detour. -/
def TaskState.divert (owner : TaskId) (other : PeerId) : TaskState → TaskState
  | running job => running (job.divert owner other)
  | state => state

end Replica
