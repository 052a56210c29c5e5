import Replica.Proofs.Cluster.Events

/-!
# Sessions with a server

One worker serves a node, and callers send requests to it, at any time and in any number: a session
(`Session`). Tasks have their turns in any order, and time passes only when nobody can go on. The network
is transparent if this comes to the same as running the service over the requests one after the other
(`Transparent`).
-/

namespace Replica

/-- The outcome that a caller gets when work ends. -/
def Ending.outcome? : Ending → Option Outcome
  | .reply answer => some (.ok answer)
  | .failure e => some (.error e)
  | _ => none

/-- The ending has a caller of the request get the outcome: a reply of the right nodes, or an error that is
no defect. -/
inductive Ending.Answers (r : Request) : Ending → Outcome → Prop where
  | reply (answer : Reply) (requestor : answer.requestor = r.requestor)
    (replier : answer.replier = r.replier) : Answers r (.reply answer) (.ok answer)
  | failure (e : ServerError) (harmless : e.isFatal = false) : Answers r (.failure e) (.error e)

theorem Ending.Answers.outcome?_eq {r : Request} {ending : Ending} {outcome : Outcome}
    (h : ending.Answers r outcome) : ending.outcome? = some outcome := by
  cases h <;> rfl

namespace Service

variable {σ : Type} (service : Service σ)

/-- The state of the service after some requests. -/
def after (s : σ) (requests : List Request) : σ := requests.foldl (fun s r => (service.serve r s).1) s

/-- What comes of requests when the service runs over them one after the other. -/
def outcomes : σ → List Request → List (Option Outcome)
  | _, [] => []
  | s, r :: requests =>
    (service.serve r s).2.ending.outcome? :: outcomes (service.serve r s).1 requests

/-- From the state on, the service stays alive and answers every request without taking time. -/
structure Prompt (s : σ) : Prop where
  alive : ∀ served, service.isAlive (service.after s served) = true
  prompt : ∀ served r, (service.serve r (service.after s served)).2.duration = 0
  answers : ∀ served r, ∃ outcome, (service.serve r (service.after s served)).2.ending.Answers r outcome

theorem after_append (s : σ) (requests requests' : List Request) :
    service.after s (requests ++ requests') = service.after (service.after s requests) requests' :=
  List.foldl_append

theorem outcomes_append (s : σ) (requests requests' : List Request) :
    service.outcomes s (requests ++ requests') =
      service.outcomes s requests ++ service.outcomes (service.after s requests) requests' := by
  induction requests generalizing s with
  | nil => rfl
  | cons r requests ih => exact congrArg (_ :: ·) (ih (service.serve r s).1)

end Service

/-- A request that was sent, the task that sent it, and when it did. -/
structure Errand where
  task : TaskId
  time : Nat
  request : Request

namespace Cluster

variable {σ : Type}

/-- Some nodes without a server, and one with a server of one worker that has begun. -/
def opened (service : Service σ) (settings : Settings) (dice : Nat → UInt64) (others : List PeerId)
    (node : PeerId) (name : String) (s : σ) : Cluster σ :=
  reached service settings dice (others.map (Event.register 0) ++
    [.register 0 node, .serve node name s, .startWorkers 0 0])

/-- What may have become of a cluster at a time, when the errands have begun. -/
inductive Session (service : Service σ) (node : PeerId) (start : Cluster σ) :
    (now : Nat) → Cluster σ → (sent : List Errand) → Prop where
  | opens : Session service node start 0 start []
  /-- Somebody sends a request to the node, under a key that nobody has used. -/
  | call {now : Nat} {c : Cluster σ} {sent : List Errand} (r : Request) (hreplier : r.replier = node)
    (hkey : ∀ e ∈ sent, e.request.key ≠ r.key) (h : Session service node start now c sent) :
    Session service node start now (c.begin service now (.send r))
      (sent ++ [⟨c.tasks.length, now, { r with owner := some c.tasks.length }⟩])
  | turn {now : Nat} {c : Cluster σ} {sent : List Errand} (t : TaskId)
    (h : Session service node start now c sent) :
    Session service node start now (c.turn service now t) sent
  | pass {now later : Nat} {c : Cluster σ} {sent : List Errand} (hlater : now ≤ later)
    (hquiet : (schedule service).IsQuiet now c) (h : Session service node start now c sent) :
    Session service node start later c sent

/-- Callers get what they would get if the service, from state `s`, ran over their requests in the order
in which they were sent, each at the time of its call. -/
structure Transparent (service : Service σ) (node : PeerId) (start : Cluster σ) (s : σ) : Prop where
  sequential : ∀ now c sent, Session service node start now c sent → ∀ (i : Nat) (e : Errand),
    sent[i]? = some e → ∀ time answer, c.ended? e.task = some (time, answer) →
      time = e.time ∧ ∃ outcome, answer = .outcome outcome ∧
        (service.outcomes s (sent.map (·.request)))[i]? = some (some outcome)
  /-- When nobody can go on, every caller has ended, and nothing is left in the node's mailbox. -/
  complete : ∀ now c sent, Session service node start now c sent → (schedule service).IsQuiet now c →
    (∀ e ∈ sent, (c.ended? e.task).isSome = true) ∧
      ∃ b, c.network.mailbox? node = some b ∧ b.requests = [] ∧ b.replies = []
  /-- And that comes about in no time. -/
  settles : ∀ now c sent line, Session service node start now c sent →
    (∀ t < c.tasks.length, t ∈ line) →
      Session service node start now ((schedule service).settle { now, state := c, line }).state sent ∧
        (schedule service).IsQuiet now ((schedule service).settle { now, state := c, line }).state

end Cluster

end Replica
