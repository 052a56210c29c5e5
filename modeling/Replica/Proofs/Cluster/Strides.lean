import Mathlib.Logic.Relation
import Replica.Cluster.Worker

/-!
# Workers, one stride after the other

In one turn a worker may go round many times. Its turn is a sequence of strides (`turn_strides`): it
takes a request, has the service work on it, replies, or meets an error and leaves. A stride goes from
one poise to the next, and what each stride keeps, turns keep.
-/

namespace Replica

/-- Where a worker is in the middle of a turn. -/
inductive Poise where
  | stands (stage : Working)
  /-- It has been handed a request. -/
  | holds (r : Request)
  /-- The work on a request has ended. -/
  | ends (r : Request) (ending : Ending)
  /-- It has met an error that it cannot send to anybody. -/
  | meets (e : ServerError)
  | leaves (why : Departure)

namespace Poise

def ofTake : Network.TakeProgress → Poise
  | .waiting stage => stands (.taking stage)
  | .ended (.ok r) => holds r
  | .ended (.error e) => meets e

def ofReply : Network.ReplyProgress → Poise
  | .waiting stage => stands (.replying stage)
  | .ended (.ok ()) => stands .idle
  | .ended (.error e) => meets e

/-- The poise after work on a request has begun. -/
def ofWork (now : Nat) (r : Request) (work : Work) : Poise :=
  if work.duration = 0 then ends r work.ending else stands (.handling r work.ending (now + work.duration))

def ofPace : Pace → Poise
  | .waits stage => stands stage
  | .again => stands .idle
  | .leaves why => leaves why

def ofProgress : Progress Working Departure → Poise
  | .waiting stage => stands stage
  | .ended why => leaves why

end Poise

namespace Desk

variable {σ : Type} (service : Service σ) {now : Nat} {badge : Badge} {desk desk' : Desk σ}
variable {stage : Working}

/-- The desk with another network on it. -/
def withNetwork (network : Network) (desk : Desk σ) : Desk σ := { desk with network }

/-- The desk after the service has begun to work on a request. -/
def engage (now : Nat) (badge : Badge) (r : Request) (desk : Desk σ) : Desk σ :=
  { desk with
    network := (service.serve r desk.state).2.raised.foldl (fun net e => net.note now (.raised e))
      (desk.network.note now (.handled badge.task r))
    state := (service.serve r desk.state).1 }

/-- One stride of a worker. -/
inductive Stride (now : Nat) (badge : Badge) : Poise × Desk σ → Poise × Desk σ → Prop where
  | begin {desk : Desk σ} (alive : service.isAlive desk.state = true) :
    Stride now badge (.stands .idle, desk)
      (.ofTake (desk.network.beginTake now badge.task badge.node).2,
        desk.withNetwork (desk.network.beginTake now badge.task badge.node).1)
  | stop {desk : Desk σ} (dead : service.isAlive desk.state = false) :
    Stride now badge (.stands .idle, desk) (.leaves .stopped, desk)
  | take {desk : Desk σ} (stage : Taking) :
    Stride now badge (.stands (.taking stage), desk)
      (.ofTake (desk.network.turnTake now badge.task stage).2,
        desk.withNetwork (desk.network.turnTake now badge.task stage).1)
  | engage {desk : Desk σ} (r : Request) :
    Stride now badge (.holds r, desk)
      (.ofWork now r (service.serve r desk.state).2, desk.engage service now badge r)
  | wake {desk : Desk σ} {r : Request} {ending : Ending} {wake : Nat} (time : wake ≤ now) :
    Stride now badge (.stands (.handling r ending wake), desk) (.ends r ending, desk)
  | reply {desk : Desk σ} (r : Request) (reply : Reply) :
    Stride now badge (.ends r (.reply reply), desk)
      (.ofReply (desk.network.beginReply now r (.ok reply)).2,
        desk.withNetwork (desk.network.beginReply now r (.ok reply)).1)
  | silence {desk : Desk σ} (r : Request) :
    Stride now badge (.ends r .silence, desk) (.stands .idle, desk)
  /-- An error that is no defect is sent to the caller. -/
  | fail {desk : Desk σ} (r : Request) {e : ServerError} (harmless : e.isFatal = false) :
    Stride now badge (.ends r (.failure e), desk)
      (.ofReply (desk.network.beginReply now r (.error e)).2,
        desk.withNetwork (desk.network.beginReply now r (.error e)).1)
  | falter {desk : Desk σ} (r : Request) {e : ServerError} (fatal : e.isFatal = true) :
    Stride now badge (.ends r (.failure e), desk) (.meets e, desk)
  | panic {desk : Desk σ} (r : Request) (message : Option String) :
    Stride now badge (.ends r (.panic message), desk) (.meets (panicError message), desk)
  | crash {desk : Desk σ} (r : Request) :
    Stride now badge (.ends r .crash, desk) (.leaves .crashed, desk)
  | answer {desk : Desk σ} (stage : Replying) :
    Stride now badge (.stands (.replying stage), desk)
      (.ofReply (desk.network.turnReply now stage).2,
        desk.withNetwork (desk.network.turnReply now stage).1)
  | interrupt {desk : Desk σ} {e : ServerError} (shutdown : e.isShutdown = true) :
    Stride now badge (.meets e, desk) (.leaves (.interrupted e), desk)
  | hush {desk : Desk σ} {e : ServerError} (inside : e.isShutdown = false)
    (dead : service.isAlive desk.state = false) :
    Stride now badge (.meets e, desk) (.leaves (.silent e), desk)
  | terminate {desk : Desk σ} {e : ServerError} (inside : e.isShutdown = false)
    (alive : service.isAlive desk.state = true) :
    Stride now badge (.meets e, desk) (.leaves (.terminated e), desk.terminate now badge e)

/-- Some strides, one after the other. -/
abbrev Strides (now : Nat) (badge : Badge) : Poise × Desk σ → Poise × Desk σ → Prop :=
  Relation.ReflTransGen (Stride service now badge)

theorem leave_strides (e : ServerError) (desk : Desk σ) :
    Strides service now badge (.meets e, desk)
      (.ofPace (desk.leave service now badge e).2, (desk.leave service now badge e).1) := by
  unfold leave
  by_cases hshutdown : e.isShutdown = true
  · rw [if_pos hshutdown]
    exact .single (.interrupt hshutdown)
  · rw [if_neg hshutdown]
    have hinside := Bool.eq_false_iff.mpr hshutdown
    by_cases halive : service.isAlive desk.state = true
    · rw [if_neg (by simp [halive])]
      exact .single (.terminate hinside halive)
    · have hdead := Bool.eq_false_iff.mpr halive
      rw [if_pos (by simp [hdead])]
      exact .single (.hush hinside hdead)

theorem afterReply_strides (result : Network × Network.ReplyProgress) (desk : Desk σ) :
    Strides service now badge (.ofReply result.2, desk.withNetwork result.1)
      (.ofPace (desk.afterReply service now badge result).2,
        (desk.afterReply service now badge result).1) := by
  obtain ⟨net, progress⟩ := result
  match progress with
  | .waiting stage => exact .refl
  | .ended (.ok ()) => exact .refl
  | .ended (.error e) => exact leave_strides service e (desk.withNetwork net)

theorem conclude_strides (r : Request) (ending : Ending) (desk : Desk σ) :
    Strides service now badge (.ends r ending, desk)
      (.ofPace (desk.conclude service now badge r ending).2,
        (desk.conclude service now badge r ending).1) := by
  cases ending with
  | reply reply => exact .head (.reply r reply) (afterReply_strides service _ desk)
  | silence => exact .single (.silence r)
  | failure e =>
    rw [conclude]
    by_cases hfatal : e.isFatal = true
    · rw [if_pos hfatal]
      exact .head (.falter r hfatal) (leave_strides service e desk)
    · rw [if_neg hfatal]
      exact .head (.fail r (Bool.eq_false_iff.mpr hfatal)) (afterReply_strides service _ desk)
  | panic message => exact .head (.panic r message) (leave_strides service _ desk)
  | crash => exact .single (.crash r)

theorem handle_strides (r : Request) (desk : Desk σ) :
    Strides service now badge (.holds r, desk)
      (.ofPace (desk.handle service now badge r).2, (desk.handle service now badge r).1) := by
  refine .head (.engage r) ?_
  unfold handle Poise.ofWork
  dsimp only
  split
  · exact conclude_strides service r _ (desk.engage service now badge r)
  · exact .refl

theorem afterTake_strides (result : Network × Network.TakeProgress) (desk : Desk σ) :
    Strides service now badge (.ofTake result.2, desk.withNetwork result.1)
      (.ofPace (desk.afterTake service now badge result).2,
        (desk.afterTake service now badge result).1) := by
  obtain ⟨net, progress⟩ := result
  match progress with
  | .waiting stage => exact .refl
  | .ended (.ok r) => exact handle_strides service r (desk.withNetwork net)
  | .ended (.error e) => exact leave_strides service e (desk.withNetwork net)

theorem advance_strides (now : Nat) (badge : Badge) (stage : Working) (desk : Desk σ) :
    Strides service now badge (.stands stage, desk)
      (.ofPace (desk.advance service now badge stage).2,
        (desk.advance service now badge stage).1) := by
  cases stage with
  | idle =>
    rw [advance]
    split
    · next halive => exact .head (.begin halive) (afterTake_strides service _ desk)
    · next hdead => exact .single (.stop (Bool.eq_false_iff.mpr hdead))
  | taking stage => exact .head (.take stage) (afterTake_strides service _ desk)
  | handling r ending wake =>
    rw [advance]
    split
    · next htime => exact .head (.wake htime) (conclude_strides service r ending desk)
    · exact .refl
  | replying stage => exact .head (.answer stage) (afterReply_strides service _ desk)

theorem goRound_strides (now : Nat) (badge : Badge) (fuel : Nat) (stage : Working)
    (desk : Desk σ) :
    Strides service now badge (.stands stage, desk)
      (.ofProgress (desk.goRound service now badge fuel stage).2,
        (desk.goRound service now badge fuel stage).1) := by
  have hadvance := advance_strides service now badge stage desk
  fun_induction goRound service now badge fuel stage desk with
  | case1 fuel stage desk desk' stage' waits =>
    rw [waits] at hadvance
    exact hadvance
  | case2 fuel stage desk desk' why leaves =>
    rw [leaves] at hadvance
    exact hadvance
  | case3 stage desk desk' again =>
    rw [again] at hadvance
    exact hadvance
  | case4 stage desk desk' again fuel ih =>
    rw [again] at hadvance
    exact hadvance.trans (ih (advance_strides service now badge .idle desk'))

theorem turn_strides (now : Nat) (badge : Badge) (stage : Working) (desk : Desk σ) :
    Strides service now badge (.stands stage, desk)
      (.ofProgress (desk.turn service now badge stage).2, (desk.turn service now badge stage).1) :=
  goRound_strides service now badge _ stage desk

end Desk

end Replica
