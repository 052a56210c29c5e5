import Replica.Network.Basic

/-!
# Sending a reply

A reply has to name the requestor and the replier of its request; errors are sent back unchecked.
After the latency the outcome is handed over to the caller that waits under the request's key in the
mailbox which the replier has by then. If nobody waits the outcome is thrown away.
-/

namespace Replica

/-- Where somebody who replies stands: waiting out the latency. -/
structure Replying where
  request : Request
  outcome : Outcome
  wake : Nat
  deriving DecidableEq, Inhabited

namespace Replying

def divert (owner : TaskId) (other : PeerId) (stage : Replying) : Replying :=
  { stage with request := stage.request.divert owner other }

end Replying

namespace Network

abbrev ReplyProgress := Progress Replying (Except ServerError Unit)

/-- Whether the outcome may be sent for the request. -/
def answers (r : Request) : Outcome → Bool
  | .ok reply => reply.requestor == r.requestor && reply.replier == r.replier
  | .error _ => true

/-- The error of somebody whose reply does not answer the request. -/
def mismatched (r : Request) (reply : Reply) : ServerError :=
  .invariantViolation
    ("reply " ++ reply.replier.name ++ "->" ++ reply.requestor.name ++ " does not match request " ++
      r.requestor.name ++ "->" ++ r.replier.name)

/-- Hands the outcome over to the caller that waits for it, if one does. -/
def deliver (now : Nat) (r : Request) (outcome : Outcome) (net : Network) : Network :=
  match net.registry.get? r.replier with
  | none => net
  | some box =>
    match net.mailboxes[box]?.bind (·.slip? r.key) with
    | none => net
    | some slip =>
      net.modifyMailbox box (·.strike r.key)
        |>.modifySlip slip (·.fill outcome)
        |>.note now (.answered box r outcome slip)

/-- The first turn of somebody who replies. -/
def beginReply (now : Nat) (r : Request) (outcome : Outcome) (net : Network) :
    Network × ReplyProgress :=
  match outcome with
  | .ok reply =>
    if answers r outcome then delay net
    else (net.note now (.raised (mismatched r reply)), .ended (.error (mismatched r reply)))
  | .error _ => delay net
where
  /-- Draws the latency, and delivers at once if there is none. -/
  delay (net : Network) : Network × ReplyProgress :=
    let (number, net) := net.roll
    let latency := Latency.sampleAny net.settings.latency number
    if latency = 0 then (net.deliver now r outcome, .ended (.ok ()))
    else (net, .waiting ⟨r, outcome, Sleep.wake now latency.toNat⟩)

/-- A later turn of somebody who replies. -/
def turnReply (now : Nat) (stage : Replying) (net : Network) : Network × ReplyProgress :=
  if stage.wake ≤ now then (net.deliver now stage.request stage.outcome, .ended (.ok ()))
  else (net, .waiting stage)

end Network

end Replica
