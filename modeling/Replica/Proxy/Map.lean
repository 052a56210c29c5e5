import Replica.Error.Exit
import Replica.Proxy.Task

/-!
# Proxy maps

A proxy map has one entry for each registered peer. This module holds the map, what can be seen of
it, and the registration of peers; the calls on it are in `Replica.Proxy.Calls`.

Entries, creations and calls are never removed, so that each is known by its place.
-/

namespace Replica

/-- A proxy map, with all that was ever made in it. -/
structure ProxyMap where
  name : String
  closed : Bool := false
  /-- The entry of each registered peer. -/
  registry : Registry EntryId := []
  /-- All entries, from the first to the last made. -/
  entries : List ProxyEntry := []
  /-- All calls of the factory, in order. -/
  creations : List Creation := []
  /-- All calls on the map, in order. -/
  tasks : List ProxyTask := []
  /-- What has been reported, oldest first. -/
  log : List Diagnostic := []
  deriving DecidableEq, Inhabited

namespace ProxyMap

/-! ### Views -/

def entry? (id : PeerId) (m : ProxyMap) : Option ProxyEntry :=
  (m.registry.get? id).bind fun e => m.entries[e]?

def ids (m : ProxyMap) : List PeerId := m.registry.ids

def peer? (id : PeerId) (m : ProxyMap) : Option Peer := (m.entry? id).map (·.peer)

def state? (id : PeerId) (m : ProxyMap) : Option Lifecycle.State :=
  (m.entry? id).map (·.lifecycle.state)

def contains (id : PeerId) (m : ProxyMap) : Bool := (m.registry.get? id).isSome

def size (m : ProxyMap) : Nat := m.registry.length

def owns (e : EntryId) (t : TaskId) (m : ProxyMap) : Bool :=
  (m.entries[e]?.bind (·.owner)) == some t

/-- Where a call stands. -/
def stage? (t : TaskId) (m : ProxyMap) : Option ProxyStage := m.tasks[t]?.map ProxyTask.stage

/-- When and how a call has ended, once it has. -/
def ended? (t : TaskId) (m : ProxyMap) : Option (Nat × ProxyAnswer) :=
  match m.stage? t with
  | some (.finished time answer) => some (time, answer)
  | _ => none

def describe (m : ProxyMap) : String :=
  Text.structured "PeerProxyMap"
    [("name", Text.quoted m.name), ("peers", Text.listed (m.ids.map PeerId.describe)),
      ("closed", toString m.closed)] true

/-! ### Changes of one place -/

def modifyEntry (e : EntryId) (f : ProxyEntry → ProxyEntry) (m : ProxyMap) : ProxyMap :=
  { m with entries := m.entries.modify e f }

def modifyCreation (h : Handle) (f : Creation → Creation) (m : ProxyMap) : ProxyMap :=
  { m with creations := m.creations.modify h f }

def setStage (t : TaskId) (stage : ProxyStage) (m : ProxyMap) : ProxyMap :=
  { m with tasks := m.tasks.modify t fun task => { task with stage } }

def finish (now : Nat) (t : TaskId) (answer : ProxyAnswer) (m : ProxyMap) : ProxyMap :=
  m.setStage t (.finished now answer)

/-! ### Registration -/

/-- Registers a peer, unless its id is registered already. -/
def register (peer : Peer) (m : ProxyMap) : ProxyMap :=
  if m.contains peer.id then m
  else
    { m with
      registry := m.registry.set peer.id m.entries.length
      entries := m.entries ++ [.fresh peer] }

def registerAll (peers : List Peer) (m : ProxyMap) : ProxyMap :=
  peers.foldl (fun m p => m.register p) m

end ProxyMap

end Replica
