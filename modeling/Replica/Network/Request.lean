import Replica.Error.Server
import Replica.Time.Schedule

/-!
# Requests and replies

A request goes from its requestor to its target. The one who is to reply is the target, unless the
request is given a detour while it is under way. Requestor and call number are the key by which the
reply finds its way back.
-/

namespace Replica

/-- Who sent a request, and under which number. -/
structure RequestKey where
  requestor : PeerId
  callId : UInt64
  deriving DecidableEq, Inhabited

def RequestKey.display (k : RequestKey) : String :=
  k.requestor.name ++ "#" ++ toString k.callId.toNat

/-- A request between nodes. -/
structure Request where
  requestor : PeerId
  /-- The node that the request was addressed to. -/
  target : PeerId
  callId : UInt64
  body : String := ""
  /-- The task that the request was made for: one that sends it or replies to it. -/
  owner : Option TaskId := none
  /-- The node that is to reply in place of the target. -/
  detour : Option PeerId := none
  deriving DecidableEq, Inhabited

namespace Request

/-- The node that is to reply. -/
def replier (r : Request) : PeerId := r.detour.getD r.target

/-- What the reply is found by. -/
def key (r : Request) : RequestKey := ⟨r.requestor, r.callId⟩

/-- The request with a detour, if it was made for the task. -/
def divert (owner : TaskId) (other : PeerId) (r : Request) : Request :=
  if r.owner = some owner then { r with detour := some other } else r

end Request

/-- A reply to a request. -/
structure Reply where
  requestor : PeerId
  replier : PeerId
  callId : UInt64
  body : String
  deriving DecidableEq, Inhabited

/-- The reply to the request, as it was addressed, with the given body. -/
def Request.answer (r : Request) (body : String) : Reply :=
  ⟨r.requestor, r.target, r.callId, body⟩

/-- How a request ends for the one who sent it. -/
abbrev Outcome := Except ServerError Reply

end Replica
