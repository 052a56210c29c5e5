import Replica.Network.Basic

/-!
# Sending a request

A sender looks its target up once, and keeps to the mailbox that it finds. While the target's switch
blocks it, it looks again at every interval. If the interval is zero it looks all the time, so that
it goes on at the instant at which the switch is off. Then it enters a slip under the request's key,
puts the request into the mailbox, and waits for the slip until the reply is overdue.

A sender that is cancelled looks at its slip no more. Its entry in the table stays.
-/

namespace Replica

/-- Where a sender stands. -/
inductive Sending where
  /-- The target's switch is on; it looks again at the time `wake`. -/
  | blocked (box : MailboxId) (request : Request) (wake : Nat)
  /-- The request is in the mailbox; the reply is overdue at the deadline. -/
  | waiting (box : MailboxId) (request : Request) (slip : SlipId) (deadline : Nat)
  deriving DecidableEq, Inhabited

namespace Sending

def divert (owner : TaskId) (other : PeerId) : Sending → Sending
  | blocked box request wake => blocked box (request.divert owner other) wake
  | waiting box request slip deadline => waiting box (request.divert owner other) slip deadline

end Sending

namespace Network

abbrev SendProgress := Progress Sending Outcome

/-- The error of a caller whose target is not there. -/
def notFoundAt (b : Mailbox) : ServerError := .nodeNotFound b.id

/-- The error of a caller whose key is in use. -/
def inFlight (key : RequestKey) (b : Mailbox) : ServerError :=
  .invalidArgument ("request " ++ key.display ++ " is already in flight to " ++ b.id.name)

/-- The error of a caller whose reply is overdue. -/
def overdue (net : Network) (key : RequestKey) (b : Mailbox) : ServerError :=
  .timeout ("request " ++ key.display ++ " to " ++ b.id.name) net.settings.replyTimeout

/-- A sender looks at its slip, and at the clock if the slip is blank. -/
def checkSlip (now : Nat) (box : MailboxId) (request : Request) (slip : SlipId) (deadline : Nat)
    (net : Network) : Network × SendProgress :=
  match net.slips[slip]?, net.mailboxes[box]? with
  | some (.filled outcome), _ => (net, .ended outcome)
  | some .void, some b => (net, .ended (.error (notFoundAt b)))
  | some .blank, some b =>
    if deadline ≤ now then
      (net.modifyMailbox box (·.strike request.key), .ended (.error (net.overdue request.key b)))
    else (net, .waiting (.waiting box request slip deadline))
  | _, _ => (net, .waiting (.waiting box request slip deadline))

/-- A sender that is not blocked enters its slip and puts the request into the mailbox. -/
def enqueue (now : Nat) (box : MailboxId) (b : Mailbox) (request : Request) (net : Network) :
    Network × SendProgress :=
  match b.slip? request.key with
  | some _ => (net, .ended (.error (inFlight request.key b)))
  | none =>
    let slip := net.slips.length
    match (b.enter request.key slip).push? request with
    | none => (net, .ended (.error (notFoundAt b)))
    | some b =>
      { net with mailboxes := net.mailboxes.set box b, slips := net.slips ++ [Slip.blank] }
        |>.note now (.sent box request)
        |>.checkSlip now box request slip (now + net.settings.replyTimeout.toNat)

/-- A sender looks whether it is blocked. -/
def trySend (now : Nat) (box : MailboxId) (request : Request) (net : Network) :
    Network × SendProgress :=
  match net.mailboxes[box]? with
  | none => (net, .ended (.error (.nodeNotFound request.replier)))
  | some b =>
    if b.isBlocked then
      (net, .waiting (.blocked box request (Sleep.wake now net.settings.pollInterval.toNat)))
    else net.enqueue now box b request

/-- The first turn of a sender. -/
def beginSend (now : Nat) (request : Request) (net : Network) : Network × SendProgress :=
  match net.registry.get? request.replier with
  | none => (net, .ended (.error (.nodeNotFound request.replier)))
  | some box => net.trySend now box request

/-- A later turn of a sender. -/
def turnSend (now : Nat) (stage : Sending) (net : Network) : Network × SendProgress :=
  match stage with
  | .blocked box request wake =>
    if wake ≤ now then net.trySend now box request else (net, .waiting stage)
  | .waiting box request slip deadline => net.checkSlip now box request slip deadline

/-- Whether blocked senders look at the switch all the time: their interval is zero. -/
def looksAlways (net : Network) : Bool := net.settings.pollInterval == 0

/-- Whether a sender can go on. Looking at a switch that is still on is going on, unless the sender
looks all the time. -/
def sendReady (now : Nat) (net : Network) : Sending → Bool
  | .blocked box _ wake =>
    wake ≤ now && !(net.looksAlways && net.mailboxes[box]?.any Mailbox.isBlocked)
  | .waiting _ _ slip deadline => net.slips[slip]? ≠ some Slip.blank || deadline ≤ now

/-- When a sender wakes by itself. -/
def sendAlarm? (net : Network) : Sending → Option Nat
  | .blocked _ _ wake => if net.looksAlways then none else some wake
  | .waiting _ _ _ deadline => some deadline

/-- Cancels a sender where it stands. -/
def cancelSend (stage : Sending) (net : Network) : Network :=
  match stage with
  | .blocked .. => net
  | .waiting _ _ slip _ => net.modifySlip slip .abandon

end Network

end Replica
