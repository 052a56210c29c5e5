import Replica.Cluster.Task

/-!
# Clusters

A cluster is everything that happens on one simulated network under one clock: the network, the
servers of its nodes, the directories of links, and the tasks. This module holds the cluster, what
can be seen of it, and what changes it at once; calls that take time are in `Replica.Cluster.Calls`.

Servers, directories and tasks are never removed, so that each is known by its place.
-/

namespace Replica

/-- A server of a node. -/
structure Server (σ : Type) where
  node : PeerId
  name : String
  state : σ
  /-- The workers that it has to account for. -/
  crew : List TaskId := []

/-- A cluster whose servers have states `σ`. -/
structure Cluster (σ : Type) where
  network : Network := {}
  servers : List (Server σ) := []
  directories : List Directory := []
  tasks : List TaskState := []
  exit : Option ExitRecord := none

namespace Cluster

variable {σ : Type}

/-! ### Views -/

def isRunning (t : TaskId) (c : Cluster σ) : Bool := c.tasks[t]?.any TaskState.isRunning

/-- When and how a task has ended, once it has. -/
def ended? (t : TaskId) (c : Cluster σ) : Option (Nat × Answer) :=
  match c.tasks[t]? with
  | some (.finished time answer) => some (time, answer)
  | _ => none

/-- The number of a server's workers that are under way. -/
def running (server : Server σ) (c : Cluster σ) : Nat := (server.crew.filter (c.isRunning ·)).length

/-- The link that a directory's factory made in the given call. -/
def link? (directory : DirectoryId) (h : Handle) (c : Cluster σ) : Option Link :=
  c.directories[directory]?.bind (·.link? directory h)

def isShut (l : Link) (c : Cluster σ) : Bool := c.directories[l.directory]?.any (·.isShut l.handle)

/-- All that has been reported, oldest first. Links never fail to close, so nothing is reported by
directories. -/
def diagnostics (c : Cluster σ) : List Diagnostic := c.network.journal.flatMap (·.what.diagnostics)

/-! ### Changes at once -/

def onNetwork (f : Network → Network) (c : Cluster σ) : Cluster σ :=
  { c with network := f c.network }

def modifyServer (s : ServerId) (f : Server σ → Server σ) (c : Cluster σ) : Cluster σ :=
  { c with servers := c.servers.modify s f }

def modifyState (s : ServerId) (f : σ → σ) (c : Cluster σ) : Cluster σ :=
  c.modifyServer s fun server => { server with state := f server.state }

/-- Adds a server for a node. It has no workers yet. -/
def serve (node : PeerId) (name : String) (state : σ) (c : Cluster σ) : Cluster σ :=
  { c with servers := c.servers ++ [{ node, name, state }] }

/-- Removes a server's node from the network. -/
def shutdown (now : Nat) (s : ServerId) (c : Cluster σ) : Cluster σ :=
  match c.servers[s]? with
  | some server => c.onNetwork (·.shutdown now server.node)
  | none => c

/-- Adds a directory of links of a node to the given peers. -/
def addDirectory (home : PeerId) (name : String) (peers : List Peer) (c : Cluster σ) : Cluster σ :=
  let map : ProxyMap := { name }
  { c with directories := c.directories ++ [{ home, map := map.registerAll peers }] }

/-- Closes a link directly. -/
def shutLink (l : Link) (c : Cluster σ) : Cluster σ :=
  { c with directories := c.directories.modify l.directory (·.shutLink l.handle) }

/-- Gives a detour to the request that was made for a task, wherever it is. -/
def divert (owner : TaskId) (other : PeerId) (c : Cluster σ) : Cluster σ :=
  { c with
    network := c.network.divert owner other
    tasks := c.tasks.map (TaskState.divert owner other) }

def clearExit (c : Cluster σ) : Cluster σ := { c with exit := none }

end Cluster

end Replica
