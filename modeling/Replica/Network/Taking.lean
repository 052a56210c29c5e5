import Replica.Network.Basic

/-!
# Taking a request

A taker looks its own node up once, and keeps to the mailbox that it finds. It first waits out the
node's delay, as it was when the taker began. Then it goes through the mailbox: requests of
requestors whose switch says so are dropped, and the first other one is held back by its requestor's
delay and handed over. If nothing is left the taker waits until it is woken, and looks again.

A mailbox that is closed gives nothing away. A request that is already held back is still handed
over.
-/

namespace Replica

/-- Where a taker stands. -/
inductive Taking where
  /-- It waits out the delay of its own node. -/
  | delayed (box : MailboxId) (wake : Nat)
  /-- It waits for a request, or has been woken and waits for its turn. -/
  | looking (box : MailboxId)
  /-- It holds a request back. -/
  | holding (box : MailboxId) (request : Request) (wake : Nat)
  deriving DecidableEq, Inhabited

namespace Taking

def alarm? : Taking → Option Nat
  | delayed _ wake | holding _ _ wake => some wake
  | looking _ => none

def divert (owner : TaskId) (other : PeerId) : Taking → Taking
  | holding box request wake => holding box (request.divert owner other) wake
  | stage => stage

end Taking

namespace Network

abbrev TakeProgress := Progress Taking (Except ServerError Request)

/-- Whether a taker of the node drops the request. -/
def drops (id : PeerId) (net : Network) (r : Request) : Bool :=
  r.replier == id && (net.switchesOf r.requestor).dropFrom

/-- The error of a taker that finds a request for another node. -/
def misrouted (id : PeerId) (r : Request) : ServerError :=
  .invariantViolation
    (id.name ++ " took request " ++ r.key.display ++ " addressed to " ++ r.replier.name)

/-- A taker has a request in hand. -/
def receive (now : Nat) (box : MailboxId) (b : Mailbox) (r : Request) (net : Network) :
    Network × TakeProgress :=
  if r.replier ≠ b.id then
    (net.note now (.raised (misrouted b.id r)), .ended (.error (misrouted b.id r)))
  else
    let delay := (net.switchesOf r.requestor).delayFrom
    if delay = 0 then (net, .ended (.ok r))
    else (net, .waiting (.holding box r (Sleep.wake now delay.toNat)))

/-- A taker goes through the mailbox. -/
def takeFrom (now : Nat) (t : TaskId) (box : MailboxId) (net : Network) : Network × TakeProgress :=
  match net.mailboxes[box]? with
  | none => (net, .waiting (.looking box))
  | some b =>
    let b := { b with wakeUp := false }
    if b.closed then
      ({ net with mailboxes := net.mailboxes.set box b }, .ended (.error (.shutdown b.id)))
    else
      let dropped := b.requests.takeWhile (net.drops b.id)
      let noted := dropped.foldl (fun net r => net.note now (.dropped box t r)) net
      match b.requests.dropWhile (net.drops b.id) with
      | [] =>
        let b := { b with requests := [] }.join t
        ({ noted with mailboxes := net.mailboxes.set box b }, .waiting (.looking box))
      | r :: rest =>
        let b := { b with requests := rest }
        { noted with mailboxes := net.mailboxes.set box b }
          |>.note now (.taken box t r)
          |>.receive now box b r

/-- The first turn of a taker. -/
def beginTake (now : Nat) (t : TaskId) (id : PeerId) (net : Network) : Network × TakeProgress :=
  match net.registry.get? id with
  | none => (net, .ended (.error (.shutdown id)))
  | some box =>
    let delay := (net.switchesOf id).delayTo
    if delay = 0 then net.takeFrom now t box
    else (net, .waiting (.delayed box (Sleep.wake now delay.toNat)))

/-- Whether a taker has been woken, that is, waits in the mailbox no more. -/
def isWoken (t : TaskId) (box : MailboxId) (net : Network) : Bool :=
  match net.mailboxes[box]? with
  | some b => t ∉ b.takers
  | none => false

/-- A later turn of a taker. -/
def turnTake (now : Nat) (t : TaskId) (stage : Taking) (net : Network) : Network × TakeProgress :=
  match stage with
  | .delayed box wake => if wake ≤ now then net.takeFrom now t box else (net, .waiting stage)
  | .looking box => if net.isWoken t box then net.takeFrom now t box else (net, .waiting stage)
  | .holding _ request wake =>
    if wake ≤ now then (net, .ended (.ok request)) else (net, .waiting stage)

/-- Whether a taker can go on. -/
def takeReady (now : Nat) (t : TaskId) (net : Network) : Taking → Bool
  | .delayed _ wake | .holding _ _ wake => wake ≤ now
  | .looking box => net.isWoken t box

/-- Cancels a taker where it stands. A request that it holds is lost. -/
def cancelTake (t : TaskId) (stage : Taking) (net : Network) : Network :=
  match stage with
  | .looking box => net.modifyMailbox box (·.leave t)
  | _ => net

end Network

end Replica
