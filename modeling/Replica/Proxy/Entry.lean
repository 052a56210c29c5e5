import Replica.Lifecycle.Basic
import Replica.Proxy.Creation

/-!
# Entries of a proxy map

An entry is one generation of a peer's proxy: it is made when the peer is registered, or when a
reset installs it, and it is never used again once another reset has replaced it. It holds the
cached proxy, a lifecycle, and a create lock.

The lock serves those who want it in the order in which they came. Giving it up hands it over to the
one who has waited longest, who owns it from then on, before getting a turn. Whoever gives up
waiting leaves the line.
-/

namespace Replica

/-- One generation of a peer's proxy. -/
structure ProxyEntry where
  peer : Peer
  /-- The cached proxy. -/
  slot : Option Handle := none
  lifecycle : Lifecycle
  /-- Who holds the create lock. -/
  owner : Option TaskId := none
  /-- Who waits for the create lock, longest first. -/
  line : List TaskId := []
  deriving DecidableEq, Inhabited

namespace ProxyEntry

def fresh (peer : Peer) : ProxyEntry := { peer, lifecycle := { name := peer.display } }

/-! ### The create lock -/

/-- `t` takes the lock if it is free, and joins the line otherwise. -/
def lock (t : TaskId) (e : ProxyEntry) : ProxyEntry :=
  match e.owner with
  | none => { e with owner := some t }
  | some _ => { e with line := e.line ++ [t] }

/-- The lock goes to the first in line. -/
def unlock (e : ProxyEntry) : ProxyEntry :=
  match e.line with
  | [] => { e with owner := none }
  | t :: rest => { e with owner := some t, line := rest }

/-- `t` wants the lock no more. -/
def leave (t : TaskId) (e : ProxyEntry) : ProxyEntry :=
  if e.owner = some t then e.unlock else { e with line := e.line.erase t }

/-! ### The proxy -/

/-- The entry with a creation under way. An attempt that was given up has left the lifecycle in
`STARTING`, and the next one goes on from there. -/
def prepare (e : ProxyEntry) : Except PeerError ProxyEntry :=
  if e.lifecycle.state = .starting then .ok e
  else (e.lifecycle.transition .starting).map fun lifecycle => { e with lifecycle }

/-- The entry after a creation that succeeded. The proxy is cached even if the lifecycle refuses to
move. -/
def install (h : Handle) (e : ProxyEntry) : ProxyEntry × Except PeerError Handle :=
  let e := { e with slot := some h }
  match e.lifecycle.transition .running with
  | .ok lifecycle => ({ e with lifecycle }, .ok h)
  | .error err => (e, .error err)

/-- The entry after a creation that failed: free for another attempt. -/
def giveUp (e : ProxyEntry) : ProxyEntry :=
  { e with lifecycle := (e.lifecycle.compareAndTransition? .starting .new).getD e.lifecycle }

/-- The entry closed, and the proxy that it held. An entry that is closing or closed already is left
as it is. -/
def retire (e : ProxyEntry) : ProxyEntry × Option Handle :=
  match e.lifecycle.beginClose? with
  | none => (e, none)
  | some lifecycle => ({ e with slot := none, lifecycle := lifecycle.finishClose }, e.slot)

end ProxyEntry

end Replica
