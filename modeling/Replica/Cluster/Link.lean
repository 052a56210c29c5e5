import Replica.Network.Sending
import Replica.Proxy.Calls

/-!
# Links

A link joins a node to one peer over the simulated network. It carries requests of that node to that
peer, and nothing else, until it is closed for good.

The links of one node are made by a directory, which is a proxy map over the network: a peer can be
linked to while it is registered. A link is closed by its directory, or directly by whoever holds
it.

A request that finds no node is answered over a link as a lost connection, so that the directory
makes a new link.
-/

namespace Replica

/-- A directory, by the order of its making. -/
abbrev DirectoryId := Nat

/-- How a network makes and closes links: at once, and to registered nodes only. -/
def Network.factory (net : Network) : Factory := fun _ peer =>
  if (net.registry.get? peer.id).isSome then {}
  else { failure := some (.connection peer.id "not registered with the simulated network") }

/-- A directory of links. -/
structure Directory where
  /-- The node at the near end of all its links. -/
  home : PeerId
  map : ProxyMap
  /-- The links that were closed directly. -/
  shut : List Handle := []
  deriving DecidableEq, Inhabited

/-- A link: its two ends, and what it is known by. -/
structure Link where
  home : PeerId
  peer : Peer
  directory : DirectoryId
  handle : Handle
  deriving DecidableEq, Inhabited

namespace Directory

/-- Whether the link has been closed, by the directory or directly. -/
def isShut (h : Handle) (d : Directory) : Bool :=
  d.shut.contains h || d.map.creations[h]?.any fun c => !c.closeCalls.isEmpty

/-- The link that the factory made in the given call. -/
def link? (id : DirectoryId) (h : Handle) (d : Directory) : Option Link :=
  d.map.creations[h]?.map fun c => { home := d.home, peer := c.peer, directory := id, handle := h }

def shutLink (h : Handle) (d : Directory) : Directory := { d with shut := d.shut ++ [h] }

end Directory

namespace Link

def same (a b : Link) : Bool := a.directory == b.directory && a.handle == b.handle

def ends (l : Link) : String := l.home.name ++ "->" ++ l.peer.id.name

/-- Whether the request goes from the near end to the far end. -/
def carries (r : Request) (l : Link) : Bool := r.requestor == l.home && r.replier == l.peer.id

/-- Why the link does not take the request, if it does not. -/
def refusal? (closed : Bool) (r : Request) (l : Link) : Option ServerError :=
  if closed then some (.core (.alreadyClosed l.ends .closed))
  else if l.carries r then none
  else
    let request := "request " ++ r.requestor.name ++ "->" ++ r.replier.name
    some (.invalidArgument (request ++ " sent through proxy " ++ l.ends))

/-- The outcome of a request as it is answered over a link. -/
def outcome : Outcome → Outcome
  | .error (.nodeNotFound id) => .error (.core (.connection id "peer is not alive"))
  | outcome => outcome

def describe (closed : Bool) (l : Link) : String :=
  Text.structured "SimulatedProxy"
    [("local_id", l.home.describe), ("peer", l.peer.describe), ("closed", toString closed)] false

end Link

namespace Network

/-- The first turn of a sender over a link. -/
def beginLinkSend (now : Nat) (l : Link) (closed : Bool) (r : Request) (net : Network) :
    Network × SendProgress :=
  match l.refusal? closed r with
  | some e => (net, .ended (.error e))
  | none => (net.beginSend now r).map id (Progress.map id Link.outcome)

def turnLinkSend (now : Nat) (stage : Sending) (net : Network) : Network × SendProgress :=
  (net.turnSend now stage).map id (Progress.map id Link.outcome)

end Network

end Replica
