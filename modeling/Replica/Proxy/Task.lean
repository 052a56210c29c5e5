import Replica.Proxy.Creation
import Replica.Proxy.Entry

/-!
# Calls on a proxy map

A call is a task. Its stage says where it stands: what it waits for, or how it has ended.
-/

namespace Replica

/-- A call on a proxy map. -/
inductive ProxyCall where
  | lookUp (id : PeerId)
  | reset (id : PeerId)
  /-- Reset if the error, or the caller, asks for a new connection. -/
  | repair (id : PeerId) (error : PeerError) (reconnect : Bool)
  | close
  deriving DecidableEq, Inhabited

/-- Where the closing of one entry stands. -/
inductive Retirement where
  /-- It waits for the entry's lock, or owns it and waits for its turn. -/
  | locking (entry : EntryId)
  /-- It waits for the proxy to close. -/
  | closing (entry : EntryId) (handle : Handle) (wake : Nat)
  | finished (entry : EntryId)
  deriving DecidableEq, Inhabited

inductive ProxyAnswer where
  | proxy (result : Except PeerError Handle)
  | done
  /-- Whether the proxy was reset. -/
  | repaired (reset : Bool)
  deriving DecidableEq, Inhabited

inductive ProxyStage where
  /-- A look-up that waits for the entry's lock, or owns it and waits for its turn. -/
  | locking (entry : EntryId)
  /-- A look-up that holds the lock and waits for the factory. -/
  | creating (entry : EntryId) (handle : Handle) (wake : Nat)
  /-- A reset or a close, with what it retires, and the answer it ends with. -/
  | retiring (jobs : List Retirement) (answer : ProxyAnswer)
  | finished (time : Nat) (answer : ProxyAnswer)
  | cancelled
  deriving DecidableEq, Inhabited

structure ProxyTask where
  call : ProxyCall
  stage : ProxyStage
  deriving DecidableEq, Inhabited

/-! ### What a stage waits for -/

namespace Retirement

def isFinished : Retirement → Bool
  | .finished _ => true
  | _ => false

/-- When a retirement wakes, if it sleeps. -/
def alarm? : Retirement → Option Nat
  | .closing _ _ wake => some wake
  | _ => none

/-- The turns that a retirement can still take. -/
def effort : Retirement → Nat
  | .locking _ => 2
  | .closing .. => 1
  | .finished _ => 0

end Retirement

namespace ProxyStage

def alarm? : ProxyStage → Option Nat
  | .creating _ _ wake => some wake
  | .retiring jobs _ => (jobs.filterMap Retirement.alarm?).min?
  | _ => none

/-- The turns that a call can still take. -/
def effort : ProxyStage → Nat
  | .locking _ => 2
  | .creating .. => 1
  | .retiring jobs _ => jobs.foldr (fun job turns => job.effort + turns) 0
  | _ => 0

end ProxyStage

end Replica
