import Replica.Network.Request

/-!
# Mailboxes

A node's mailbox holds the requests that nobody has taken yet, first come first served, the takers
that wait for one, the table of callers that wait for a reply from the node, and the node's fault
switches.

Adding a request wakes the taker that has waited longest. If nobody waits, one wake-up is kept: the
next taker uses it up when it comes, whether or not there is a request for it. A taker that was
woken and gives up before its turn passes its wake-up on.
-/

namespace Replica

/-- A mailbox, by the order of its making. -/
abbrev MailboxId := Nat

/-- A slip, on which one outcome can be handed over, by the order of its making. -/
abbrev SlipId := Nat

/-- The fault switches of a node. -/
structure Switches where
  /-- Block those who send to the node. -/
  blockTo : Bool := false
  /-- Drop the requests that the node sent when they are taken. -/
  dropFrom : Bool := false
  /-- How long the node waits before it takes a request. -/
  delayTo : UInt64 := 0
  /-- How long the requests that the node sent are held back when they are taken. -/
  delayFrom : UInt64 := 0
  deriving DecidableEq, Inhabited

/-- The mailbox of a node. -/
structure Mailbox where
  id : PeerId
  /-- The requests that nobody has taken, oldest first. -/
  requests : List Request := []
  /-- The tasks that wait for a request and have not been woken, longest first. -/
  takers : List TaskId := []
  /-- Whether a wake-up is kept for the next taker. -/
  wakeUp : Bool := false
  /-- The slip of each caller that waits for a reply. -/
  replies : List (RequestKey × SlipId) := []
  closed : Bool := false
  switches : Switches := {}
  deriving DecidableEq, Inhabited

namespace Mailbox

/-- Whether senders have to wait until the switch is off. A closed mailbox blocks nobody. -/
def isBlocked (b : Mailbox) : Bool := b.switches.blockTo && !b.closed

/-- Wakes the taker that has waited longest, or keeps the wake-up. -/
def wakeOne (b : Mailbox) : Mailbox :=
  match b.takers with
  | [] => { b with wakeUp := true }
  | _ :: rest => { b with takers := rest }

/-- Adds a request, unless the mailbox is closed. -/
def push? (r : Request) (b : Mailbox) : Option Mailbox :=
  if b.closed then none else some { b with requests := b.requests ++ [r] }.wakeOne

/-- Lets a task wait for a request. -/
def join (t : TaskId) (b : Mailbox) : Mailbox := { b with takers := b.takers ++ [t] }

/-- Lets a task wait no more. -/
def leave (t : TaskId) (b : Mailbox) : Mailbox :=
  if t ∈ b.takers then { b with takers := b.takers.erase t } else b.wakeOne

/-- The slip of the caller that waits under the key. -/
def slip? (key : RequestKey) (b : Mailbox) : Option SlipId := b.replies.lookup key

/-- The slips of the callers that wait for a reply. -/
def slips (b : Mailbox) : List SlipId := b.replies.map (·.2)

/-- Enters a caller's slip under its key. -/
def enter (key : RequestKey) (slip : SlipId) (b : Mailbox) : Mailbox :=
  { b with replies := b.replies ++ [(key, slip)] }

def strike (key : RequestKey) (b : Mailbox) : Mailbox :=
  { b with replies := b.replies.filter (·.1 ≠ key) }

/-- Closes the mailbox: nothing is queued any more, nobody waits, and no caller is found. -/
def close (b : Mailbox) : Mailbox :=
  { b with requests := [], takers := [], replies := [], closed := true }

def describe (b : Mailbox) : String :=
  Text.structured "EventQueue"
    [("id", b.id.describe), ("requests", toString b.requests.length),
      ("pending_replies", toString b.replies.length), ("closed", toString b.closed)] true

end Mailbox

end Replica
