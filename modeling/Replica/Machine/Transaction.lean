import Replica.Log.Entry
import Replica.Log.Group
import Replica.Peer

/-!
# Transactions

What is carried along from the submission of a client's request to its application: the request,
the log entry that it became, the application's own data, and a failure to report in place of
applying it.
-/

namespace Replica

/-- A request that a client submits to a server of a group. -/
structure ClientRequest where
  client : PeerId
  server : PeerId
  group : GroupId
  /-- The client's own number for the call. -/
  callId : UInt64
  message : Payload
  deriving DecidableEq, Inhabited

namespace ClientRequest

instance : Wire ClientRequest where
  encode r :=
    .obj [("client_id", Wire.encode r.client), ("server_id", Wire.encode r.server),
      ("group_id", Wire.encode r.group), ("call_id", Wire.encode r.callId),
      ("message", Wire.encode r.message)]
  decode? j := do
    match ← j.record? ["client_id", "server_id", "group_id", "call_id", "message"] with
    | [client, server, group, callId, message] =>
      return ⟨← Wire.decode? client, ← Wire.decode? server, ← Wire.decode? group,
        ← Wire.decode? callId, ← Wire.decode? message⟩
    | _ => none

end ClientRequest

/-- The context of one transaction. -/
structure Transaction where
  request : Option ClientRequest := none
  entry : Option LogEntry := none
  /-- The application's own data. -/
  context : Option Payload := none
  /-- A failure to report in place of applying the transaction. -/
  failure : Option String := none
  deriving DecidableEq, Inhabited

namespace Transaction

/-- The transaction of a client's request. -/
def ofRequest (request : ClientRequest) : Transaction := { request := some request }

/-- The transaction of a committed entry. -/
def ofEntry (entry : LogEntry) : Transaction := { entry := some entry }

/-- A part that is attached to a transaction. -/
inductive Part where
  | request (request : ClientRequest)
  | entry (entry : LogEntry)
  | context (data : Payload)
  | failure (text : String)
  /-- Not a part: the whole transaction is replaced by that of the entry. -/
  | restart (entry : LogEntry)

/-- The transaction with a part attached. -/
def attach (t : Transaction) : Part → Transaction
  | .request request => { t with request := some request }
  | .entry entry => { t with entry := some entry }
  | .context data => { t with context := some data }
  | .failure text => { t with failure := some text }
  | .restart entry => ofEntry entry

def ofParts (parts : List Part) : Transaction := parts.foldl attach {}

end Transaction

end Replica
