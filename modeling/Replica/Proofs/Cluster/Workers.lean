import Replica.Cluster.Worker
import Replica.Proofs.Traffic.Tasks

/-!
# Workers on a network

A worker takes requests and replies to them, and does nothing else to the network than to note what
happens: whatever comes of its turn, calls of its own task have led to it (`goRound_leads`).
-/

namespace Replica

variable {t : TaskId} {now : Nat}

namespace Traffic

/-- The task has the call that a worker at the stage is in. -/
def Works (x : Traffic) (t : TaskId) : Working → Prop
  | .idle => True
  | .taking stage => x.TakesAt t stage
  | .handling .. => True
  | .replying stage => x.RepliesAt t stage

/-- The task has the call that a worker is in which goes on at the pace. -/
def Paces (x : Traffic) (t : TaskId) : Pace → Prop
  | .waits stage => x.Works t stage
  | .again => True
  | .leaves _ => True

end Traffic

namespace Desk

open Traffic

variable {σ : Type} (service : Service σ) {badge : Badge} {desk : Desk σ} {x : Traffic}

/-- What the worker does leads to what is on its desk then. -/
abbrev Paced (t : TaskId) (x : Traffic) (result : Desk σ × Pace) : Prop :=
  Leads t x result.1.network (·.Paces t result.2)

theorem leave_paced (e : ServerError) (hnet : x.network = desk.network) :
    Paced t x (desk.leave service now badge e) := by
  unfold leave
  split
  · exact .refl hnet trivial
  · split
    · exact .refl hnet trivial
    · show Leads t x (desk.network.note now _) _
      rw [← hnet]
      exact leads_note now _

theorem afterReply_paced {result : Network × Network.ReplyProgress}
    (h : Leads t x result.1 fun y => result.2.Waits (y.RepliesAt t)) :
    Paced t x (desk.afterReply service now badge result) := by
  unfold afterReply
  dsimp only
  split
  · next stage heq => exact h.mono fun y hy => by rwa [heq] at hy
  · exact h.mono fun _ _ => trivial
  · exact h.bind fun y hnet _ => leave_paced service _ hnet

theorem conclude_paced (r : Request) (ending : Ending) (hnet : x.network = desk.network) :
    Paced t x (desk.conclude service now badge r ending) := by
  cases ending with
  | reply reply => exact afterReply_paced service (hnet ▸ leads_beginReply now t r (.ok reply) x)
  | silence => exact .refl hnet trivial
  | failure e =>
    rw [conclude]
    split
    · exact leave_paced service e hnet
    · exact afterReply_paced service (hnet ▸ leads_beginReply now t r (.error e) x)
  | panic message => exact leave_paced service _ hnet
  | crash => exact .refl hnet trivial

theorem handle_paced (r : Request) (hnet : x.network = desk.network) :
    Paced t x (desk.handle service now badge r) := by
  have hnoted : Leads t x ((service.serve r desk.state).2.raised.foldl
      (fun net e => net.note now (.raised e)) (desk.network.note now (.handled badge.task r)))
      fun _ => True := by
    rw [← hnet]
    refine (leads_note now (.handled badge.task r)).bind fun y hy _ => ?_
    rw [← hy]
    exact leads_notes now .raised _ y
  unfold handle
  dsimp only
  split
  · exact hnoted.bind fun y hy _ => conclude_paced service r _ hy
  · exact hnoted.mono fun _ _ => trivial

theorem afterTake_paced {result : Network × Network.TakeProgress}
    (h : Leads t x result.1 fun y => result.2.Waits (y.TakesAt t)) :
    Paced t x (desk.afterTake service now badge result) := by
  unfold afterTake
  dsimp only
  split
  · next stage heq => exact h.mono fun y hy => by rwa [heq] at hy
  · exact h.bind fun y hnet _ => handle_paced service _ hnet
  · exact h.bind fun y hnet _ => leave_paced service _ hnet

theorem advance_paced (now : Nat) (badge : Badge) {stage : Working}
    (hnet : x.network = desk.network) (hstage : x.Works badge.task stage) :
    Paced badge.task x (desk.advance service now badge stage) := by
  cases stage with
  | idle =>
    rw [advance]
    split
    · exact afterTake_paced service (hnet ▸ leads_beginTake now badge.task badge.node x)
    · exact .refl hnet trivial
  | taking stage => exact afterTake_paced service (hnet ▸ leads_turnTake now hstage)
  | handling r ending wake =>
    rw [advance]
    split
    · exact conclude_paced service r ending hnet
    · exact .refl hnet trivial
  | replying stage => exact afterReply_paced service (hnet ▸ leads_turnReply now hstage)

theorem goRound_leads (now : Nat) (badge : Badge) (fuel : Nat) {stage : Working} {desk : Desk σ}
    {x : Traffic} (hnet : x.network = desk.network) (hstage : x.Works badge.task stage) :
    Leads badge.task x (desk.goRound service now badge fuel stage).1.network
      fun y => (desk.goRound service now badge fuel stage).2.Waits (y.Works badge.task) := by
  -- every further round begins idle, without a call, so nothing is carried from round to round
  have hadvance := advance_paced service now badge hnet hstage
  fun_induction goRound service now badge fuel stage desk generalizing x with
  | case1 fuel stage desk desk' stage' waits =>
    rw [waits] at hadvance
    exact hadvance
  | case2 fuel stage desk desk' why leaves =>
    rw [leaves] at hadvance
    exact hadvance.mono fun _ _ => trivial
  | case3 stage desk desk' again =>
    rw [again] at hadvance
    exact hadvance.mono fun _ _ => trivial
  | case4 stage desk desk' again fuel ih =>
    rw [again] at hadvance
    refine hadvance.bind fun y hy _ => ?_
    exact ih hy trivial (advance_paced service now badge hy trivial)

end Desk

end Replica
