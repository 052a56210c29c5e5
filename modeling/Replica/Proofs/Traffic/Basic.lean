import Replica.Proofs.Network.Turns

/-!
# Traffic on a network

A network together with all calls that were ever made on it: the requests that were sent, the
attempts to take a request, and the replies, each with how far it has come. Calls begin, get their
turns and are cancelled in any order and at any time; between their turns nodes are registered, shut
down and cleared, switches are set, and requests are given detours.

The calls are kept so that one can say whose outcome a caller has received; what happens on the
network is what `Replica.Network` says. Whoever takes requests and replies to them is a worker; that
the tasks of a cluster, workers included, do nothing else is `Replica.Cluster.reached_mirrors`.
-/

namespace Replica

/-- How far a call has come. -/
inductive CallState (σ α : Type) where
  /-- It has had no turn yet. -/
  | fresh
  | underWay (stage : σ)
  | ended (result : α)
  | cancelled

namespace CallState

variable {σ α β : Type}

/-- The state after a turn. -/
def ofProgress (result : α → β) : Progress σ α → CallState σ β
  | .waiting stage => underWay stage
  | .ended a => ended (result a)

/-- Where the call stands, if it is under way. -/
def stage? : CallState σ α → Option σ
  | underWay stage => some stage
  | _ => none

/-- The state with the stage changed, if the call is under way. -/
def mapStage (f : σ → σ) : CallState σ α → CallState σ α
  | underWay stage => underWay (f stage)
  | state => state

theorem eq_underWay_of_stage? {state : CallState σ α} {stage : σ}
    (h : state.stage? = some stage) : state = underWay stage := by
  cases state with
  | underWay s =>
    cases h
    rfl
  | fresh => cases h
  | ended a => cases h
  | cancelled => cases h

end CallState

/-- How a call that sends a request ends. -/
inductive SendEnd where
  /-- An outcome was on its slip. -/
  | received (outcome : Outcome)
  /-- No outcome was on its slip. -/
  | failed (outcome : Outcome)
  deriving DecidableEq

/-- How a call ends with a result, when `read` was on its slip. -/
def SendEnd.of (read : Option Outcome) (outcome : Outcome) : SendEnd :=
  match read with
  | some _ => received outcome
  | none => failed outcome

/-- A call that sends a request. -/
structure SendCall where
  task : TaskId
  request : Request
  /-- The slip that was entered for it in a table. -/
  slip? : Option SlipId := none
  state : CallState Sending SendEnd := .fresh

/-- The call after a turn that began on the network `before`, when `read` was on its slip. A turn
that makes a slip makes it for the call. -/
def SendCall.after (before : Network) (read : Option Outcome)
    (result : Network × Network.SendProgress) (call : SendCall) : SendCall :=
  { call with
    slip? :=
      if before.slips.length < result.1.slips.length then some before.slips.length else call.slip?
    state := .ofProgress (SendEnd.of read) result.2 }

/-- A call that takes a request. -/
structure TakeCall where
  task : TaskId
  state : CallState Taking (Except ServerError Request) := .fresh

/-- How a call that replies ends. -/
inductive ReplyEnd where
  /-- It has reached the caller with the slip. -/
  | reached (slip : SlipId)
  /-- It has reached nobody. -/
  | missed
  | refused (error : ServerError)
  deriving DecidableEq

/-- How a call that replies ends with a result, when the caller with the slip was waiting for it. -/
def ReplyEnd.of (caller : Option SlipId) : Except ServerError Unit → ReplyEnd
  | .error e => refused e
  | .ok () =>
    match caller with
    | some slip => reached slip
    | none => missed

/-- A call that replies to a request with an outcome. -/
structure ReplyCall where
  task : TaskId
  request : Request
  outcome : Outcome
  state : CallState Replying ReplyEnd := .fresh

/-- The call, if its request is given a detour. -/
def ReplyCall.divert (owner : TaskId) (other : PeerId) (call : ReplyCall) : ReplyCall :=
  match call.state with
  | .underWay stage =>
    { call with
      request := call.request.divert owner other
      state := .underWay (stage.divert owner other) }
  | _ => call

/-- A network with the calls that were made on it, from the first to the last of each sort. -/
structure Traffic where
  network : Network
  sends : List SendCall := []
  takes : List TakeCall := []
  replies : List ReplyCall := []

namespace Traffic

/-! ## Calls -/

/-- Sends a request. -/
def beginSend (now : Nat) (t : TaskId) (r : Request) (x : Traffic) : Traffic :=
  let result := x.network.beginSend now r
  { x with
    network := result.1
    sends := x.sends ++ [({ task := t, request := r } : SendCall).after x.network none result] }

/-- A later turn of a call that sends. -/
def turnSend (now : Nat) (i : Nat) (x : Traffic) : Traffic :=
  match x.sends[i]?.bind (·.state.stage?) with
  | some stage =>
    let result := x.network.turnSend now stage
    { x with
      network := result.1
      sends := x.sends.modify i (·.after x.network (stage.read? x.network) result) }
  | none => x

/-- Cancels a call that sends. -/
def cancelSend (i : Nat) (x : Traffic) : Traffic :=
  match x.sends[i]?.bind (·.state.stage?) with
  | some stage =>
    { x with
      network := x.network.cancelSend stage
      sends := x.sends.modify i fun call => { call with state := .cancelled } }
  | none => x

/-- Takes a request that is addressed to the node. -/
def beginTake (now : Nat) (t : TaskId) (node : PeerId) (x : Traffic) : Traffic :=
  let result := x.network.beginTake now t node
  { x with
    network := result.1
    takes := x.takes ++ [{ task := t, state := .ofProgress id result.2 }] }

/-- A later turn of a call that takes. -/
def turnTake (now : Nat) (i : Nat) (x : Traffic) : Traffic :=
  match x.takes[i]? with
  | some ⟨t, .underWay stage⟩ =>
    let result := x.network.turnTake now t stage
    { x with
      network := result.1
      takes := x.takes.modify i fun call => { call with state := .ofProgress id result.2 } }
  | _ => x

/-- Cancels a call that takes. -/
def cancelTake (i : Nat) (x : Traffic) : Traffic :=
  match x.takes[i]? with
  | some ⟨t, .underWay stage⟩ =>
    { x with
      network := x.network.cancelTake t stage
      takes := x.takes.modify i fun call => { call with state := .cancelled } }
  | _ => x

/-- Replies to a request with an outcome. -/
def beginReply (now : Nat) (t : TaskId) (r : Request) (outcome : Outcome) (x : Traffic) : Traffic :=
  let result := x.network.beginReply now r outcome
  { x with
    network := result.1
    replies := x.replies ++
      [{ task := t, request := r, outcome,
         state := .ofProgress (ReplyEnd.of (x.network.caller? r)) result.2 }] }

/-- A later turn of a call that replies. -/
def turnReply (now : Nat) (j : Nat) (x : Traffic) : Traffic :=
  match x.replies[j]?.bind (·.state.stage?) with
  | some stage =>
    let result := x.network.turnReply now stage
    { x with
      network := result.1
      replies := x.replies.modify j fun call =>
        { call with
          state := .ofProgress (ReplyEnd.of (x.network.caller? stage.request)) result.2 } }
  | none => x

/-- Cancels a call that replies, if it is under way. -/
def cancelReply (j : Nat) (x : Traffic) : Traffic :=
  match x.replies[j]?.bind (·.state.stage?) with
  | some _ => { x with replies := x.replies.modify j fun call => { call with state := .cancelled } }
  | none => x

/-- Gives a detour to the requests that were made for the task, wherever they are. -/
def divert (owner : TaskId) (other : PeerId) (x : Traffic) : Traffic where
  network := x.network.divert owner other
  sends := x.sends.map fun call =>
    { call with state := call.state.mapStage (·.divert owner other) }
  takes := x.takes.map fun call =>
    { call with state := call.state.mapStage (·.divert owner other) }
  replies := x.replies.map (·.divert owner other)

/-! ## Runs -/

/-- What happens on a network. Calls of one sort are known by the order in which they began. -/
inductive Event where
  | register (now : Nat) (node : PeerId)
  | shutdown (now : Nat) (node : PeerId)
  | clear (now : Nat)
  | setSwitches (box : MailboxId) (f : Switches → Switches)
  | divert (owner : TaskId) (other : PeerId)
  | note (now : Nat) (what : Occurrence)
  | beginSend (now : Nat) (t : TaskId) (r : Request)
  | turnSend (now : Nat) (i : Nat)
  | cancelSend (i : Nat)
  | beginTake (now : Nat) (t : TaskId) (node : PeerId)
  | turnTake (now : Nat) (i : Nat)
  | cancelTake (i : Nat)
  | beginReply (now : Nat) (t : TaskId) (r : Request) (outcome : Outcome)
  | turnReply (now : Nat) (j : Nat)
  | cancelReply (j : Nat)

/-- The traffic after an event. -/
def step (x : Traffic) : Event → Traffic
  | .register now node => { x with network := x.network.register now node }
  | .shutdown now node => { x with network := x.network.shutdown now node }
  | .clear now => { x with network := x.network.clear now }
  | .setSwitches box f => { x with network := x.network.setSwitches box f }
  | .divert owner other => x.divert owner other
  | .note now what => { x with network := x.network.note now what }
  | .beginSend now t r => x.beginSend now t r
  | .turnSend now i => x.turnSend now i
  | .cancelSend i => x.cancelSend i
  | .beginTake now t node => x.beginTake now t node
  | .turnTake now i => x.turnTake now i
  | .cancelTake i => x.cancelTake i
  | .beginReply now t r outcome => x.beginReply now t r outcome
  | .turnReply now j => x.turnReply now j
  | .cancelReply j => x.cancelReply j

/-- The traffic after a sequence of events. -/
def run (x : Traffic) (events : List Event) : Traffic := events.foldl step x

@[simp] theorem run_nil (x : Traffic) : x.run [] = x := rfl

theorem run_append (x : Traffic) (before after : List Event) :
    x.run (before ++ after) = (x.run before).run after :=
  List.foldl_append

@[simp] theorem run_concat (x : Traffic) (events : List Event) (event : Event) :
    x.run (events ++ [event]) = (x.run events).step event := by
  rw [run_append]
  rfl

/-- The traffic that the events lead to on a new network. -/
def reached (settings : Settings) (dice : Nat → UInt64) (events : List Event) : Traffic :=
  run { network := { settings, dice } } events

theorem reached_concat (settings : Settings) (dice : Nat → UInt64) (events : List Event)
    (event : Event) :
    reached settings dice (events ++ [event]) = (reached settings dice events).step event :=
  run_concat _ events event

end Traffic

end Replica
