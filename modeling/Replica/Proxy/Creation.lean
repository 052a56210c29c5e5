import Replica.Error.Peer
import Replica.Time.Polling
import Replica.Time.Schedule

/-!
# Making and closing proxies

A proxy is made by a call of the factory. Which call it was is all that a proxy map knows of it.

The factory is a function from the earlier creations and the peer to a script, which says how long
the creation takes, how it ends, and how its proxy closes. A statement about all factories is
therefore one about proxies that are made and closed in any time and with any outcome.
-/

namespace Replica

/-- A proxy, by the number of the factory call that made it. -/
abbrev Handle := Nat

/-- An entry of a proxy map, by the order of its making. -/
abbrev EntryId := Nat

/-- How a creation goes, and how the proxy that it makes is closed. -/
structure Script where
  /-- How long the creation takes. -/
  delay : Nat := 0
  /-- How the creation fails, if it does. -/
  failure : Option PeerError := none
  /-- How long closing the proxy takes. -/
  closeDelay : Nat := 0
  /-- How closing the proxy fails, if it does. -/
  closeFailure : Option PeerError := none
  deriving DecidableEq, Inhabited

/-- A script in which the creation and the closing sleep for the given times. -/
def Script.sleeping (delay : UInt64) (failure : Option PeerError) (closeDelay : UInt64)
    (closeFailure : Option PeerError) : Script :=
  { delay := Sleep.span delay.toNat, failure
    closeDelay := Sleep.span closeDelay.toNat, closeFailure }

inductive CreationOutcome where
  | created
  | failed
  deriving DecidableEq, Inhabited, Repr

def CreationOutcome.name : CreationOutcome → String
  | created => "created"
  | failed => "failed"

/-- A call of the factory. -/
structure Creation where
  peer : Peer
  /-- The entry that the proxy is made for. -/
  entry : EntryId
  script : Script
  calledAt : Nat
  /-- How the creation ended; a creation that was cancelled never ends. -/
  outcome : Option CreationOutcome := none
  /-- When the proxy was asked to close. -/
  closeCalls : List Nat := []
  /-- When the proxy was done closing. -/
  closedAt : Option Nat := none
  deriving DecidableEq, Inhabited

/-- What the factory does when it is called for a peer, after the given creations. -/
abbrev Factory := List Creation → Peer → Script

/-- The factory that goes through a list of scripts for each peer and repeats the last one. Without
a script everything succeeds at once. -/
def Factory.ofScripts (scripts : List (String × List Script)) : Factory := fun creations peer =>
  let own := (scripts.lookup peer.id.name).getD []
  let earlier := (creations.filter fun c => c.peer.id = peer.id).length
  (own[earlier]?.or own.getLast?).getD {}

end Replica
