import Mathlib.Data.List.Induction
import Replica.Proofs.Cluster.Senders
import Replica.Proofs.Network.Loads

/-!
# What the tasks of a cluster have to deal with

Each task has its load, and every turn of a task is a dispatch of it: a worker that goes round receives
requests, replies to them, or has its work on them spoilt by a defect, as its verdicts say. What one task
dispatches is dispatched by the cluster (`Dispatch.frame`), and so by a whole run (`run_dispatch`): no task
sends its request twice (`sent_once`), each request that is received is replied to or spoilt once at most
(`dealt_once`), and nobody is told of a defect unless a task was begun to tell of it
(`outcomes_harmless`).
-/

namespace Replica

open Network

/-! ## Loads of tasks -/

def Working.load : Working → Load
  | .idle => {}
  | .taking stage => { incoming := stage.inHand }
  | .handling r _ _ => { incoming := [r] }
  | .replying stage => stage.load

def Pace.load : Pace → Load
  | .waits stage => stage.load
  | _ => {}

def Job.load : Job → Load
  | .send stage | .linkSend stage | .relay _ _ (.sending stage) => { outgoing := stage.outgoing }
  | .relay _ _ (.connecting _ r) => { outgoing := [r] }
  | .take stage => { incoming := stage.inHand }
  | .reply stage => stage.load
  | .work _ _ stage => stage.load
  | .relay _ _ (.repairing ..) | .consult .. => {}

def TaskState.load : TaskState → Load
  | .running job => job.load
  | _ => {}

/-- A detour of a task's request is a detour of the task's load. -/
theorem TaskState.load_divert (owner : TaskId) (other : PeerId) (state : TaskState) :
    (state.divert owner other).load = state.load.divert owner other := by
  cases state with
  | running job =>
    cases job with
    | send stage => cases stage <;> rfl
    | take stage => cases stage <;> rfl
    | reply stage => rfl
    | work s place stage =>
      cases stage with
      | taking stage => cases stage <;> rfl
      | _ => rfl
    | linkSend stage => cases stage <;> rfl
    | consult d k => rfl
    | relay d via stage =>
      cases stage with
      | sending stage => cases stage <;> rfl
      | _ => rfl
  | _ => rfl

/-- Whoever has heard how its request has ended has nothing to send. -/
theorem TaskState.outgoing_of_heard? {state : TaskState} {o : Outcome} (h : state.heard? = some o) :
    state.load.outgoing = [] := by
  cases state with
  | running job =>
    cases job with
    | relay d via stage =>
      cases stage with
      | repairing k sent => rfl
      | _ => cases h
    | _ => cases h
  | _ => rfl

/-- What the task gets to deal with when it begins. -/
def Call.load (t : TaskId) : Call → Load
  | .send r | .linkSend _ r | .relay _ _ r => { outgoing := [{ r with owner := some t }] }
  | .reply r outcome => { incoming := [{ r with owner := some t }], outcomes := [outcome] }
  | _ => {}

/-- The requests on which work ended in a defect or a crash. -/
def spoils {σ : Type} (vs : List (Verdict σ)) : List Request :=
  (vs.filter fun v => v.ending.spoils v.request).map (·.request)

/-- What is spoilt in two lists of verdicts is spoilt list by list. -/
@[simp] theorem spoils_append {σ : Type} (vs vs' : List (Verdict σ)) :
    spoils (vs ++ vs') = spoils vs ++ spoils vs' := by
  simp [spoils]

/-! ## Workers -/

namespace Desk

variable {σ : Type} (service : Service σ) {now : Nat} {badge : Badge} {net : Network} {load : Load}
variable {spoilt spoilt' : List Request} {result : Desk σ × Pace}

/-- On the network and with the load that it had, a worker comes to where it is now. -/
def Discharges (net : Network) (load : Load) (spoilt : List Request) (result : Desk σ × Pace) : Prop :=
  ∃ written, Dispatch written spoilt net load result.1.network result.2.load

variable {service}

/-- What was dispatched before is dispatched with what a worker discharges afterwards. -/
theorem Discharges.after {written : List Occurrence} {net' : Network} {load' : Load}
    (h : Dispatch written spoilt net load net' load') (h' : Discharges net' load' spoilt' result) :
    Discharges net load (spoilt ++ spoilt') result := by
  obtain ⟨written', h'⟩ := h'
  exact ⟨_, h.trans h'⟩

variable (service)

/-- A worker that leaves its post has nothing to deal with any more. -/
theorem leave_discharges (now : Nat) (badge : Badge) (e : ServerError) (desk : Desk σ) :
    Discharges desk.network {} [] (desk.leave service now badge e) := by
  unfold leave
  split
  · exact ⟨[], .refl desk.network {}⟩
  · split
    · exact ⟨[], .refl desk.network {}⟩
    · exact ⟨_, .note desk.network now ⟨rfl, rfl⟩ (fun _ => ⟨rfl, rfl⟩) {}⟩

/-- A worker that is back from its reply has dealt with what the reply had to deal with. -/
theorem afterReply_discharges (now : Nat) (badge : Badge) (desk : Desk σ) {reply : Network × ReplyProgress}
    {written : List Occurrence} (h : Dispatch written spoilt net load reply.1 (replyLoad reply.2)) :
    Discharges net load spoilt (desk.afterReply service now badge reply) := by
  obtain ⟨net', progress⟩ := reply
  match progress with
  | .waiting stage => exact ⟨written, h⟩
  | .ended (.ok ()) => exact ⟨written, h⟩
  | .ended (.error e) =>
    rw [← List.append_nil spoilt]
    exact .after h (leave_discharges service now badge e (desk.withNetwork net'))

/-- An outcome that may be handed over is replied with. -/
theorem reply_discharges (now : Nat) (badge : Badge) (r : Request) {outcome : Outcome}
    (h : Harmless outcome) (desk : Desk σ) : Discharges desk.network { incoming := [r] } []
      (desk.afterReply service now badge (desk.network.beginReply now r outcome)) := by
  obtain ⟨written, hreply⟩ := beginReply_dispatch now r outcome desk.network
  exact afterReply_discharges service now badge desk ((Dispatch.resolve desk.network r h).trans hreply)

/-- After a defect or a crash the worker has nothing to deal with any more, and nobody hears of it. -/
theorem conclude_discharges (now : Nat) (badge : Badge) (r : Request) (ending : Ending) (desk : Desk σ) :
    Discharges desk.network { incoming := [r] } (spoils [⟨badge, r, ending, desk⟩])
      (desk.conclude service now badge r ending) := by
  have hleaves (e : ServerError) :
      Discharges desk.network { incoming := [r] } [r] (desk.leave service now badge e) :=
    .after (.spoil desk.network r) (leave_discharges service now badge e desk)
  cases ending with
  | reply answer =>
    by_cases hanswers : answers r (.ok answer) = true
    · have hnone : spoils [⟨badge, r, .reply answer, desk⟩] = [] := by
        have hboth : answer.requestor = r.requestor ∧ answer.replier = r.replier := by
          simpa [answers] using hanswers
        simp [spoils, Ending.spoils, Ending.defect?, hboth]
      rw [hnone]
      exact reply_discharges service now badge r (harmless_ok answer) desk
    · have hall : spoils [⟨badge, r, .reply answer, desk⟩] = [r] := by
        have hboth : ¬ (answer.requestor = r.requestor ∧ answer.replier = r.replier) := by
          simpa [answers] using hanswers
        simp [spoils, Ending.spoils, Ending.defect?, hboth]
      rw [hall, conclude, beginReply, if_neg hanswers]
      have hnote : Dispatch [.raised (mismatched r answer)] [] desk.network {}
          (desk.network.note now (.raised (mismatched r answer))) {} :=
        .note desk.network now ⟨rfl, rfl⟩ (fun _ => ⟨rfl, rfl⟩) {}
      exact .after ((Dispatch.spoil desk.network r).trans hnote) (leave_discharges service now badge _
        (desk.withNetwork (desk.network.note now (.raised (mismatched r answer)))))
  | silence => exact ⟨[], (Dispatch.refl desk.network _).shedAll⟩
  | failure e =>
    have hspoils : spoils [⟨badge, r, .failure e, desk⟩] = if e.isFatal then [r] else [] := by
      simp only [spoils, List.filter_singleton, spoils_failure]
      cases e.isFatal <;> rfl
    rw [hspoils, conclude]
    split
    · exact hleaves e
    · next hfatal =>
      exact reply_discharges service now badge r (harmless_error (Bool.eq_false_iff.mpr hfatal)) desk
  | panic message => exact hleaves (panicError message)
  | crash => exact ⟨[], .spoil desk.network r⟩

/-- A service begins to work on a request. -/
theorem engage_dispatch (now : Nat) (badge : Badge) (r : Request) (desk : Desk σ) (load : Load) :
    ∃ written, Dispatch written [] desk.network load (desk.engage service now badge r).network load := by
  have hraised (errors : List ServerError) (net : Network) : ∃ written, Dispatch written [] net load
      (errors.foldl (fun net e => net.note now (.raised e)) net) load := by
    induction errors generalizing net with
    | nil => exact ⟨[], .refl net load⟩
    | cons e errors ih =>
      obtain ⟨written, hrest⟩ := ih (net.note now (.raised e))
      exact ⟨_, (Dispatch.note net now ⟨rfl, rfl⟩ (fun _ => ⟨rfl, rfl⟩) load).trans hrest⟩
  obtain ⟨written, hrest⟩ := hraised (service.serve r desk.state).2.raised
    (desk.network.note now (.handled badge.task r))
  exact ⟨_, (Dispatch.note desk.network now ⟨rfl, rfl⟩ (fun _ => ⟨rfl, rfl⟩) load).trans hrest⟩

/-- A worker that handles a request deals with it: it replies, works on it, or spoils it. -/
theorem handle_discharges (now : Nat) (badge : Badge) (r : Request) (desk : Desk σ) :
    Discharges desk.network { incoming := [r] } (spoils (desk.judge? service now badge r).toList)
      (desk.handle service now badge r) := by
  obtain ⟨written, hengage⟩ := engage_dispatch service now badge r desk { incoming := [r] }
  unfold judge? handle
  dsimp only
  split
  · exact .after hengage (conclude_discharges service now badge r _ (desk.engage service now badge r))
  · exact ⟨written, hengage⟩

/-- A worker that comes back from its mailbox deals with what it has taken there. -/
theorem afterTake_discharges (now : Nat) (badge : Badge) (desk : Desk σ) {taken : Network × TakeProgress}
    {written : List Occurrence} (h : Dispatch written [] net load taken.1 { incoming := inHand taken.2 }) :
    Discharges net load (spoils (desk.verdictOnTaken? service now badge taken).toList)
      (desk.afterTake service now badge taken) := by
  obtain ⟨net', progress⟩ := taken
  match progress with
  | .waiting stage => exact ⟨written, h⟩
  | .ended (.ok r) => exact .after h (handle_discharges service now badge r (desk.withNetwork net'))
  | .ended (.error e) => exact .after h (leave_discharges service now badge e (desk.withNetwork net'))

/-- A worker that advances deals with what it has at its stage, and spoils what the verdict says. -/
theorem advance_discharges (now : Nat) (badge : Badge) (stage : Working) (desk : Desk σ) :
    Discharges desk.network stage.load (spoils (desk.verdict? service now badge stage).toList)
      (desk.advance service now badge stage) := by
  cases stage with
  | idle =>
    rw [verdict?, advance]
    split
    · obtain ⟨written, htake⟩ := beginTake_dispatch now badge.task badge.node desk.network
      exact afterTake_discharges service now badge desk htake
    · exact ⟨[], .refl desk.network {}⟩
  | taking stage =>
    obtain ⟨written, htake⟩ := turnTake_dispatch now badge.task stage desk.network
    exact afterTake_discharges service now badge desk htake
  | handling r ending wake =>
    rw [verdict?, advance]
    split
    · exact conclude_discharges service now badge r ending desk
    · exact ⟨[], .refl desk.network _⟩
  | replying stage =>
    obtain ⟨written, hreply⟩ := turnReply_dispatch now stage desk.network
    exact afterReply_discharges service now badge desk hreply

/-- A worker goes round, and deals with one request after the other. -/
theorem goRound_discharges (now : Nat) (badge : Badge) (fuel : Nat) (stage : Working) (desk : Desk σ) :
    Discharges desk.network stage.load (spoils (desk.verdicts service now badge fuel stage))
      ((desk.goRound service now badge fuel stage).1,
        .ofProgress (desk.goRound service now badge fuel stage).2) := by
  have hadvance := advance_discharges service now badge stage desk
  fun_induction goRound service now badge fuel stage desk with
  | case1 fuel stage desk desk' stage' waits =>
    rw [waits] at hadvance
    rw [verdicts, spoils_append, waits]
    exact (List.append_nil _).symm ▸ hadvance
  | case2 fuel stage desk desk' why leaves =>
    rw [leaves] at hadvance
    rw [verdicts, spoils_append, leaves]
    exact (List.append_nil _).symm ▸ hadvance
  | case3 stage desk desk' again =>
    rw [again] at hadvance
    rw [verdicts, spoils_append, again]
    exact (List.append_nil _).symm ▸ hadvance
  | case4 stage desk desk' again fuel ih =>
    rw [again] at hadvance
    obtain ⟨written, hadvance⟩ := hadvance
    rw [verdicts, spoils_append, again]
    exact .after hadvance (ih (advance_discharges service now badge .idle desk'))

end Desk

/-! ## Tasks -/

namespace Cluster

section

variable {σ : Type} (service : Service σ) {now : Nat} {t : TaskId} {c : Cluster σ} {net : Network}
variable {load : Load} {spoilt : List Request} {written : List Occurrence}
variable {result : Cluster σ × JobProgress}

/-- On the network and with the load that it had, a task comes to where it is after its turn. -/
def Discharges (now : Nat) (net : Network) (load : Load) (spoilt : List Request)
    (result : Cluster σ × JobProgress) : Prop :=
  ∃ written, Dispatch written spoilt net load result.1.network (TaskState.ofProgress now result.2).load

variable {service}

/-- The task is not about requests. -/
theorem Discharges.of_same (hnetwork : result.1.network = net)
    (hload : (TaskState.ofProgress now result.2).load = load) : Discharges now net load [] result := by
  subst hnetwork hload
  exact ⟨[], .refl _ _⟩

variable (service)

/-- A worker that has a turn deals with what it has, and what is spoilt is in its shift. -/
theorem work_discharges (now : Nat) (t : TaskId) (s : ServerId) (place : Nat) (stage : Working)
    (c : Cluster σ) : Discharges now c.network stage.load
      (spoils (verdictsOf service (c.shift? now t s place stage).toList))
      (c.work service now t s place stage) := by
  unfold shift? work
  cases c.servers[s]? with
  | none => exact ⟨[], .refl c.network _⟩
  | some server =>
    let badge : Badge := { node := server.node, server := server.name, place, task := t }
    let desk : Desk σ := { network := c.network, state := server.state, exit := c.exit }
    have hround : Desk.Discharges c.network stage.load (spoils (desk.verdicts service now badge
        (c.network.backlog + 1) stage)) _ := Desk.goRound_discharges service now badge _ stage desk
    have hverdicts : verdictsOf service [(⟨now, s, badge, stage, desk⟩ : Shift σ)] =
        desk.verdicts service now badge (c.network.backlog + 1) stage := List.append_nil _
    obtain ⟨written, hround⟩ := hround
    show Discharges now c.network stage.load (spoils (verdictsOf service [⟨now, s, badge, stage, desk⟩])) _
    refine ⟨written, ?_⟩
    rw [hverdicts]
    change Dispatch _ _ _ _ _ (TaskState.ofProgress now
      ((desk.turn service now badge stage).2.map (Job.work s place) Answer.departed)).load
    change Dispatch _ _ _ _ _ (Pace.ofProgress (desk.turn service now badge stage).2).load at hround
    revert hround
    cases (desk.turn service now badge stage).2 <;> exact id

/-- A task that sends goes on with what it has still to send. -/
theorem sends_discharges {stage : Sending → Job} {answer : Outcome → Answer}
    {sent : Network × SendProgress}
    (h : Dispatch written [] c.network load sent.1 { outgoing := outgoing sent.2 })
    (hstage : ∀ s, (stage s).load = { outgoing := s.outgoing }) :
    Discharges now c.network load [] (c.afterNetwork stage answer sent) := by
  obtain ⟨net, progress⟩ := sent
  refine ⟨written, ?_⟩
  cases progress with
  | waiting s =>
    show Dispatch written [] c.network load net (stage s).load
    rw [hstage]
    cases s <;> exact h
  | ended outcome => exact h

/-- A request over a link is sent like any other, or refused at once because the link is closed. -/
theorem beginLinkSend_dispatch (now : Nat) (l : Link) (closed : Bool) (r : Request) (net : Network) :
    ∃ written, Dispatch written [] net { outgoing := [r] } (net.beginLinkSend now l closed r).1
      { outgoing := outgoing (net.beginLinkSend now l closed r).2 } := by
  unfold beginLinkSend
  split
  · exact ⟨[], (Dispatch.refl net _).shedAll⟩
  · obtain ⟨written, hsend⟩ := beginSend_dispatch now r net
    refine ⟨written, ?_⟩
    revert hsend
    obtain ⟨net', progress⟩ := net.beginSend now r
    cases progress <;> exact id

/-- A request that is under way over a link is dealt with like any other. -/
theorem turnLinkSend_dispatch (now : Nat) (stage : Sending) (net : Network) :
    ∃ written, Dispatch written [] net { outgoing := stage.outgoing } (net.turnLinkSend now stage).1
      { outgoing := outgoing (net.turnLinkSend now stage).2 } := by
  obtain ⟨written, hsend⟩ := turnSend_dispatch now stage net
  refine ⟨written, ?_⟩
  unfold turnLinkSend
  revert hsend
  obtain ⟨net', progress⟩ := net.turnSend now stage
  cases progress <;> exact id

/-- Whoever waits for a call on a map has no request. -/
theorem waitForProxyCall_discharges (now : Nat) (d : DirectoryId) (k : TaskId) (c : Cluster σ) :
    Discharges now c.network {} [] (c.waitForProxyCall d k) := by
  unfold waitForProxyCall
  split <;> exact .of_same rfl rfl

/-- Nor has a relay that waits for a repair. -/
theorem waitForRepair_discharges (now : Nat) (d : DirectoryId) (via : PeerId) (k : TaskId) (sent : Outcome)
    (c : Cluster σ) : Discharges now c.network {} [] (c.waitForRepair d via k sent) := by
  unfold waitForRepair
  split <;> exact .of_same rfl rfl

/-- A relay that has heard of its request has nothing more to send. -/
theorem afterRelay_discharges (now : Nat) (d : DirectoryId) (via : PeerId) {sent : Network × SendProgress}
    (h : Dispatch written [] c.network load sent.1 { outgoing := outgoing sent.2 }) :
    Discharges now c.network load [] (c.afterRelay now d via sent) := by
  obtain ⟨net, progress⟩ := sent
  unfold afterRelay
  dsimp only
  split
  · next stage => cases stage <;> exact ⟨written, h⟩
  · -- the repair is no business of the network's
    unfold waitForRepair
    split <;> exact ⟨written, h⟩
  · exact ⟨written, h⟩

/-- A relay that gets its link sends the request that it was made for. -/
theorem waitForLink_discharges (now : Nat) (d : DirectoryId) (via : PeerId) (k : TaskId) (r : Request)
    (c : Cluster σ) : Discharges now c.network { outgoing := [r] } [] (c.waitForLink now d via k r) := by
  unfold waitForLink
  dsimp only
  split
  · exact ⟨[], (Dispatch.refl c.network _).shedAll⟩
  · split
    · next l _ =>
      obtain ⟨written, hsend⟩ := beginLinkSend_dispatch now l (c.isShut l) r c.network
      exact afterRelay_discharges now d via hsend
    · exact .of_same rfl rfl
  · exact .of_same rfl rfl

/-- A task that takes has what it has taken. -/
theorem takes_discharges {taken : Network × TakeProgress}
    (h : Dispatch written [] c.network load taken.1 { incoming := Network.inHand taken.2 }) :
    Discharges now c.network load [] (c.afterNetwork .take .request taken) := by
  obtain ⟨net, progress⟩ := taken
  cases progress with
  | waiting stage => exact ⟨written, h⟩
  | ended answer => exact ⟨written, h.shedAll⟩

/-- A task that replies deals with the request and the outcome that it was given. -/
theorem replies_discharges {reply : Network × ReplyProgress}
    (h : Dispatch written [] c.network load reply.1 (replyLoad reply.2)) :
    Discharges now c.network load [] (c.afterNetwork .reply .replied reply) := by
  obtain ⟨net, progress⟩ := reply
  cases progress <;> exact ⟨written, h⟩

/-- A task that begins with a call deals with the load of the call. -/
theorem undertake_discharges (now : Nat) (t : TaskId) (call : Call) (c : Cluster σ) :
    Discharges now c.network (call.load t) (spoils (verdictsOf service (c.shiftsOnCall now t call)))
      (c.undertake service now t call) := by
  cases call with
  | send r =>
    obtain ⟨written, hsend⟩ := beginSend_dispatch now { r with owner := some t } c.network
    exact sends_discharges hsend fun _ => rfl
  | take node =>
    obtain ⟨written, htake⟩ := beginTake_dispatch now t node c.network
    exact takes_discharges htake
  | reply r outcome =>
    obtain ⟨written, hreply⟩ := beginReply_dispatch now { r with owner := some t } outcome c.network
    exact replies_discharges hreply
  | work s place => exact work_discharges service now t s place .idle c
  | linkSend l r =>
    obtain ⟨written, hsend⟩ :=
      beginLinkSend_dispatch now l (c.isShut l) { r with owner := some t } c.network
    exact sends_discharges hsend fun _ => rfl
  | consult d call => exact waitForProxyCall_discharges now d _ (c.beginProxyCall now d call).1
  | relay d via r =>
    exact waitForLink_discharges now d via _ _ (c.beginProxyCall now d (.lookUp via)).1

/-- A task that goes on deals with the load of its job. -/
theorem resume_discharges (now : Nat) (t : TaskId) (job : Job) (c : Cluster σ) :
    Discharges now c.network job.load (spoils (verdictsOf service (c.shiftsOnJob now t job)))
      (c.resume service now t job) := by
  cases job with
  | send stage =>
    obtain ⟨written, hsend⟩ := turnSend_dispatch now stage c.network
    exact sends_discharges hsend fun _ => rfl
  | take stage =>
    obtain ⟨written, htake⟩ := turnTake_dispatch now t stage c.network
    exact takes_discharges htake
  | reply stage =>
    obtain ⟨written, hreply⟩ := turnReply_dispatch now stage c.network
    exact replies_discharges hreply
  | work s place stage => exact work_discharges service now t s place stage c
  | linkSend stage =>
    obtain ⟨written, hsend⟩ := turnLinkSend_dispatch now stage c.network
    exact sends_discharges hsend fun _ => rfl
  | consult d k => exact waitForProxyCall_discharges now d k (c.turnProxyCall now d k)
  | relay d via stage =>
    cases stage with
    | connecting k r => exact waitForLink_discharges now d via k r (c.turnProxyCall now d k)
    | sending stage =>
      obtain ⟨written, hsend⟩ := turnLinkSend_dispatch now stage c.network
      exact afterRelay_discharges now d via hsend
    | repairing k sent => exact waitForRepair_discharges now d via k sent (c.turnProxyCall now d k)

end

/-! ## Events -/

variable {σ : Type} (service : Service σ) {now : Nat} {t : TaskId} {c : Cluster σ}
variable {spoilt : List Request} {written : List Occurrence}
variable {event : Event σ} {events : List (Event σ)} {state : TaskState} {job : Job}

def load (c : Cluster σ) : Load := .all (c.tasks.map TaskState.load)

/-- What the event brings to deal with. -/
def Event.load (c : Cluster σ) : Event σ → Load
  | .begin _ call => call.load c.tasks.length
  | _ => {}

/-- The cluster deals with what its tasks have, and with `brought`. -/
def Handles (c : Cluster σ) (brought : Load) (spoilt : List Request) (c' : Cluster σ) : Prop :=
  ∃ written, Dispatch written spoilt c.network (.all (c.tasks.map TaskState.load ++ [brought]))
    c'.network c'.load

/-- Nothing is brought. -/
theorem Handles.of_dispatch {c' : Cluster σ}
    (h : Dispatch written spoilt c.network c.load c'.network c'.load) : c.Handles {} spoilt c' := by
  refine ⟨written, ?_⟩
  rw [Load.all_append_none]
  exact h

/-- What is handled in two steps is handled altogether, and so is what was spoilt in them. -/
theorem Handles.trans {c' c'' : Cluster σ} {spoilt' : List Request} (h : c.Handles {} spoilt c')
    (h' : c'.Handles {} spoilt' c'') : c.Handles {} (spoilt ++ spoilt') c'' := by
  obtain ⟨written, h⟩ := h
  obtain ⟨written', h'⟩ := h'
  rw [Load.all_append_none] at h h'
  exact .of_dispatch (h.trans h')

/-- A task is changed, and the others are not. -/
theorem loads_of_modify {c' : Cluster σ} {state' : TaskState} (found : c.tasks[t]? = some state)
    (htasks : c'.tasks = c.tasks.modify t fun _ => state') :
    ∃ before after, c.load = .all (before ++ [state.load] ++ after) ∧
      c'.load = .all (before ++ [state'.load] ++ after) := by
  obtain ⟨hlt, rfl⟩ := List.getElem?_eq_some_iff.mp found
  refine ⟨(c.tasks.take t).map TaskState.load, (c.tasks.drop (t + 1)).map TaskState.load, ?_, ?_⟩
  · rw [← List.map_singleton, ← List.map_append, ← List.map_append]
    simp [load]
  · rw [load, htasks, List.modify_eq_take_cons_drop hlt]
    simp

/-- A cluster handles what its one task handles that has changed. -/
theorem handles_of_modify {c' : Cluster σ} {state' : TaskState} (found : c.tasks[t]? = some state)
    (htasks : c'.tasks = c.tasks.modify t fun _ => state')
    (h : Dispatch written spoilt c.network state.load c'.network state'.load) : c.Handles {} spoilt c' := by
  obtain ⟨before, after, hload, hload'⟩ := loads_of_modify found htasks
  rw [← Load.all_singleton (TaskState.load _), ← Load.all_singleton state'.load] at h
  have hframe := h.frame before after
  rw [← hload, ← hload'] at hframe
  exact .of_dispatch hframe

/-- A new task brings the load of its call. -/
theorem begin_handles (now : Nat) (call : Call) (c : Cluster σ) :
    c.Handles (call.load c.tasks.length)
      (spoils (verdictsOf service (c.shiftsOnCall now c.tasks.length call))) (c.begin service now call) := by
  obtain ⟨written, hdischarges⟩ := undertake_discharges service now c.tasks.length call c
  rw [← Load.all_singleton (Call.load _ _), ← Load.all_singleton (TaskState.load _)] at hdischarges
  have hframe := hdischarges.frame (c.tasks.map TaskState.load) []
  rw [List.append_nil, List.append_nil] at hframe
  refine ⟨written, ?_⟩
  rw [load, tasks_begin, List.map_append]
  exact hframe

/-- A turn of a task deals with the load of the task, and with nobody else's. -/
theorem turn_handles (now : Nat) (t : TaskId) (c : Cluster σ) :
    c.Handles {} (spoils (verdictsOf service (c.shiftsOnTurn now t))) (c.turn service now t) := by
  by_cases running : ∃ job, c.tasks[t]? = some (.running job)
  · obtain ⟨job, found⟩ := running
    obtain ⟨written, hdischarges⟩ := resume_discharges service now t job c
    rw [← network_turn service found] at hdischarges
    rw [shiftsOnTurn_of_running found]
    exact handles_of_modify found (tasks_turn service found) hdischarges
  · rw [turn_of_not_running service running, shiftsOnTurn_of_not_running running]
    exact .of_dispatch (.refl c.network c.load)

/-- A task that is cancelled gives up its load. -/
theorem abandon_dispatch (t : TaskId) (job : Job) (c : Cluster σ) :
    ∃ written, Dispatch written [] c.network job.load (c.abandon t job).network {} := by
  cases job with
  | send stage => exact ⟨_, cancelSend_dispatch stage c.network⟩
  | take stage => exact ⟨_, cancelTake_dispatch t stage c.network⟩
  | reply stage => exact ⟨_, (Dispatch.refl c.network _).shedAll⟩
  | work s place stage =>
    cases stage with
    | taking stage => exact ⟨_, cancelTake_dispatch t stage c.network⟩
    | _ => exact ⟨_, (Dispatch.refl c.network _).shedAll⟩
  | linkSend stage => exact ⟨_, cancelSend_dispatch stage c.network⟩
  | consult d k => exact ⟨_, .refl c.network {}⟩
  | relay d via stage =>
    cases stage with
    | connecting k r => exact ⟨_, (Dispatch.refl c.network _).shedAll⟩
    | sending stage => exact ⟨_, cancelSend_dispatch stage c.network⟩
    | repairing k sent => exact ⟨_, .refl c.network {}⟩

/-- The others keep theirs then. -/
theorem cancel_handles (t : TaskId) (c : Cluster σ) : c.Handles {} [] (c.cancel t).1 := by
  by_cases running : ∃ job, c.tasks[t]? = some (.running job)
  · obtain ⟨job, found⟩ := running
    obtain ⟨written, habandon⟩ := abandon_dispatch t job c
    rw [← network_cancel found] at habandon
    exact handles_of_modify found (tasks_cancel found) habandon
  · rw [cancel_of_not_running running]
    exact .of_dispatch (.refl c.network c.load)

/-- Workers that are dismissed give up what they have. -/
theorem dismissWorkers_handles (s : ServerId) (c : Cluster σ) :
    c.Handles {} [] (c.dismissWorkers s) := by
  refine dismissWorkers_induct (P := c.Handles {} []) (.of_dispatch (.refl c.network c.load)) ?_ fun _ => id
  exact fun _ _ t _ c' hc' => hc'.trans (cancel_handles t c')

/-- Workers that are hired bring nothing, and deal with what they find. -/
theorem hirings_handle (now : Nat) (s : ServerId) (places : List Nat) (c : Cluster σ) :
    c.Handles {} (spoils (verdictsOf service (hirings service now s places c)))
      (places.foldl (hire service now s) c) := by
  induction places generalizing c with
  | nil => exact .of_dispatch (.refl c.network c.load)
  | cons place places ih =>
    have hhired : c.Handles {} _ (c.hire service now s place) := begin_handles service now (.work s place) c
    have hspoils : spoils (verdictsOf service (hirings service now s (place :: places) c)) =
        spoils (verdictsOf service (c.shiftsOnCall now c.tasks.length (.work s place))) ++
          spoils (verdictsOf service (hirings service now s places (c.hire service now s place))) := by
      rw [← spoils_append]
      exact congrArg spoils List.flatMap_append
    rw [hspoils]
    exact hhired.trans (ih (c.hire service now s place))

/-- A detour of the requests of a task is a detour of everybody's load. -/
theorem divert_handles (owner : TaskId) (other : PeerId) (c : Cluster σ) :
    c.Handles {} [] (c.divert owner other) := by
  have hload : (c.divert owner other).load = c.load.divert owner other := by
    rw [load, load, ← Load.all_map_divert, Cluster.divert, List.map_map, List.map_map]
    simp only [Function.comp_def, TaskState.load_divert]
  have hkeeps := divert_keepsReplies owner other c.network
  have hdispatch : Dispatch [] [] c.network c.load (c.divert owner other).network
      (c.divert owner other).load := by
    rw [hload]
    exact .divert (divert_recorded owner other c.network) rfl hkeeps.serves owner other c.load
  exact .of_dispatch hdispatch

/-- Upkeep of the network is recorded. -/
theorem Upkeep.recorded {net net' : Network} (h : Upkeep net net') : Recorded net net' := by
  cases h with
  | same => exact .refl net
  | register now node => exact register_recorded now node net
  | shutdown now node => exact shutdown_recorded now node net
  | clear now => exact clear_recorded now net
  | setSwitches box f => exact setSwitches_recorded box f net

/-- What happens to nodes is no task's. -/
theorem upkeep_handles {event : Event σ} (h : event.IsUpkeep) (c : Cluster σ) :
    c.Handles {} [] (c.step service event) := by
  have hnetwork := step_upkeep service h c
  obtain ⟨written, hresets⟩ := hnetwork.resets
  have hload : (c.step service event).load = c.load := by
    unfold load
    rw [tasks_upkeep service h c]
  have hdispatch : Dispatch written [] c.network c.load (c.step service event).network
      (c.step service event).load := by
    rw [hload]
    exact hresets.dispatch hnetwork.recorded c.load
  exact .of_dispatch hdispatch

/-- Every event deals with the loads of the tasks and with what it brings, and spoils what the verdicts
of its shifts say. -/
theorem step_handles (event : Event σ) (c : Cluster σ) :
    c.Handles (event.load c) (spoils (verdictsOf service (c.shiftsOn service event)))
      (c.step service event) := by
  have hupkeep (h : event.IsUpkeep) : c.Handles {} [] (c.step service event) :=
    upkeep_handles service h c
  cases event with
  | divert owner other => exact divert_handles owner other c
  | startWorkers now s => exact hirings_handle service now s _ c
  | dismissWorkers s => exact dismissWorkers_handles s c
  | begin now call => exact begin_handles service now call c
  | turn now t => exact turn_handles service now t c
  | cancel t => exact cancel_handles t c
  | _ => exact hupkeep trivial

/-! ## Runs -/

/-- What a sequence of events brings to deal with. -/
def demands : List (Event σ) → Cluster σ → List Load
  | [], _ => []
  | event :: events, c => event.load c :: demands events (c.step service event)

/-- What two sequences of events bring is brought by one after the other. -/
theorem demands_append (before after : List (Event σ)) (c : Cluster σ) :
    demands service (before ++ after) c =
      demands service before c ++ demands service after (c.run service before) := by
  induction before generalizing c with
  | nil => rfl
  | cons event before ih => exact congrArg (_ :: ·) (ih (c.step service event))

/-- A run deals with what there is at first, and with what is brought. -/
theorem run_dispatch (events : List (Event σ)) (c : Cluster σ) :
    ∃ written, Dispatch written (spoils (verdictsOf service (shifts service events c))) c.network
      (.all (c.tasks.map TaskState.load ++ demands service events c)) (c.run service events).network
      (c.run service events).load := by
  induction events generalizing c with
  | nil =>
    rw [demands, List.append_nil]
    exact ⟨[], .refl c.network c.load⟩
  | cons event events ih =>
    obtain ⟨written, hfirst⟩ := step_handles service event c
    obtain ⟨written', hrest⟩ := ih (c.step service event)
    have hframe := hfirst.frame [] (demands service events (c.step service event))
    rw [List.nil_append, List.nil_append, List.append_assoc] at hframe
    have hspoils : spoils (verdictsOf service (shifts service (event :: events) c)) =
        spoils (verdictsOf service (c.shiftsOn service event)) ++
          spoils (verdictsOf service (shifts service events (c.step service event))) := by
      rw [← spoils_append]
      exact congrArg spoils List.flatMap_append
    rw [hspoils]
    exact ⟨_, hframe.trans hrest⟩

/-- A call brings at most one request of its own task, and none of any other. -/
theorem tally_call (t u : TaskId) (call : Call) :
    Request.tally (some t) (call.load u).outgoing ≤ if t = u then 1 else 0 := by
  cases call <;> simp [Call.load, eq_comm]

/-- An event brings a request for a task only if the task is new. -/
theorem tally_event (t : TaskId) (event : Event σ) (c : Cluster σ) :
    Request.tally (some t) (event.load c).outgoing + (if t < c.tasks.length then 1 else 0) ≤
      if t < (c.step service event).tasks.length then 1 else 0 := by
  have hmono : t < c.tasks.length → t < (c.step service event).tasks.length := by
    intro hlt
    obtain ⟨state', found', -⟩ := step_taskChange service (List.getElem?_eq_getElem hlt) event
    exact lt_length_of_getElem? found'
  cases event with
  | begin now call =>
    have hlength : (c.step service (.begin now call)).tasks.length = c.tasks.length + 1 := by
      show (c.begin service now call).tasks.length = _
      rw [tasks_begin, List.length_append]
      rfl
    have hcall := tally_call t c.tasks.length call
    rw [hlength, Event.load]
    rcases Nat.lt_trichotomy t c.tasks.length with hlt | rfl | hgt
    · rw [if_neg (Nat.ne_of_lt hlt)] at hcall
      rw [if_pos hlt, if_pos (Nat.lt_succ_of_lt hlt)]
      omega
    · rw [if_pos rfl] at hcall
      rw [if_neg (Nat.lt_irrefl _), if_pos (Nat.lt_succ_self _)]
      exact hcall
    · rw [if_neg (Nat.ne_of_gt hgt)] at hcall
      rw [if_neg (Nat.lt_asymm hgt), if_neg (Nat.not_lt.mpr hgt)]
      exact hcall
  | _ =>
    show 0 + _ ≤ _
    split
    · next hlt => rw [if_pos (hmono hlt)]
    · exact Nat.zero_le _

/-- Each task gets its request once. -/
theorem tally_demands (t : TaskId) (events : List (Event σ)) (c : Cluster σ) :
    Request.tally (some t) (Load.all (demands service events c)).outgoing +
      (if t < c.tasks.length then 1 else 0) ≤ 1 := by
  induction events generalizing c with
  | nil =>
    show 0 + _ ≤ 1
    split <;> omega
  | cons event events ih =>
    have hevent := tally_event service t event c
    have hrest := ih (c.step service event)
    have hsplit : Request.tally (some t) (Load.all (demands service (event :: events) c)).outgoing =
        Request.tally (some t) (event.load c).outgoing +
          Request.tally (some t) (Load.all (demands service events (c.step service event))).outgoing :=
      Request.tally_append
    omega

/-- Every request that is brought is brought for a task. -/
theorem tally_none_demands (events : List (Event σ)) (c : Cluster σ) :
    Request.tally none (Load.all (demands service events c)).outgoing = 0 := by
  induction events generalizing c with
  | nil => rfl
  | cons event events ih =>
    have hevent : Request.tally none (event.load c).outgoing = 0 := by
      cases event with
      | begin now call => cases call <;> simp [Event.load, Call.load]
      | _ => rfl
    have hsplit : Request.tally none (Load.all (demands service (event :: events) c)).outgoing =
        Request.tally none (event.load c).outgoing +
          Request.tally none (Load.all (demands service events (c.step service event))).outgoing :=
      Request.tally_append
    rw [hsplit, hevent, ih]

/-- Nobody begins to reply but workers. -/
def OnlyWorkersReply (events : List (Event σ)) : Prop :=
  ∀ now r outcome, Event.begin now (.reply r outcome) ∉ events

/-- If nobody begins to reply but workers, no event brings a request or an outcome. -/
theorem demands_of_onlyWorkersReply (h : OnlyWorkersReply events) (c : Cluster σ) :
    (Load.all (demands service events c)).incoming = [] ∧
      (Load.all (demands service events c)).outcomes = [] := by
  induction events generalizing c with
  | nil => exact ⟨rfl, rfl⟩
  | cons event events ih =>
    obtain ⟨hincoming, houtcomes⟩ :=
      ih (fun now r outcome hmem => h now r outcome (List.mem_cons_of_mem _ hmem)) (c.step service event)
    have hevent : (event.load c).incoming = [] ∧ (event.load c).outcomes = [] := by
      cases event with
      | begin now call =>
        cases call with
        | reply r outcome => exact absurd List.mem_cons_self (h now r outcome)
        | _ => exact ⟨rfl, rfl⟩
      | _ => exact ⟨rfl, rfl⟩
    constructor
    · show (event.load c).incoming ++ (Load.all (demands service events (c.step service event))).incoming = []
      rw [hevent.1, hincoming]
      rfl
    · show (event.load c).outcomes ++ (Load.all (demands service events (c.step service event))).outcomes = []
      rw [hevent.2, houtcomes]
      rfl

/-! ## Books -/

variable {settings : Settings} {dice : Nat → UInt64} {before after : List (Event σ)}

/-- A run on a new network, as far as it concerns requests. -/
theorem reached_dispatch (settings : Settings) (dice : Nat → UInt64) (events : List (Event σ)) :
    Dispatch (storyOf service settings dice events)
      (spoils (verdictsOf service (shiftsAlong service settings dice events))) { settings, dice }
      (.all (demands service events { network := { settings, dice } }))
      (reached service settings dice events).network (reached service settings dice events).load := by
  obtain ⟨written, hrun⟩ := run_dispatch service events { network := { settings, dice } }
  obtain rfl : storyOf service settings dice events = written := hrun.story
  exact hrun

/-- Requests that are sent were to be sent before, or are new. -/
theorem sent_le (owner : Option TaskId) (events : List (Event σ)) (c : Cluster σ) :
    Request.tally owner (posted (c.run service events).network.story) +
        Request.tally owner (c.run service events).load.outgoing ≤
      Request.tally owner (posted c.network.story) + Request.tally owner c.load.outgoing +
        Request.tally owner (Load.all (demands service events c)).outgoing := by
  obtain ⟨written, hrun⟩ := run_dispatch service events c
  have hsends := hrun.sends owner
  have hsplit : Request.tally owner (Load.all (c.tasks.map TaskState.load ++
      demands service events c)).outgoing = Request.tally owner c.load.outgoing +
        Request.tally owner (Load.all (demands service events c)).outgoing := by
    simp [load, Load.all]
  rw [hrun.story, posted_append, Request.tally_append]
  omega

/-- A request is sent once at most. -/
theorem sent_once (settings : Settings) (dice : Nat → UInt64) (events : List (Event σ)) (t : TaskId) :
    Request.tally (some t) (posted (storyOf service settings dice events)) ≤ 1 := by
  have hsent := sent_le service (some t) events { network := { settings, dice } }
  have hdemands := tally_demands service t events { network := { settings, dice } }
  have hnone : Request.tally (some t)
      (posted ({ network := { settings, dice } } : Cluster σ).network.story) = 0 := rfl
  have hidle : Request.tally (some t)
      (({ network := { settings, dice } } : Cluster σ).load).outgoing = 0 := rfl
  show Request.tally (some t)
    (posted (run service { network := { settings, dice } } events).network.story) ≤ 1
  omega

/-- A request that is given up before it is sent is never sent. -/
theorem never_sent {event : Event σ}
    (hstory : storyOf service settings dice (before ++ [event]) = storyOf service settings dice before)
    (hless : Request.tally (some t) (reached service settings dice (before ++ [event])).load.outgoing <
      Request.tally (some t) (reached service settings dice before).load.outgoing +
        Request.tally (some t) (event.load (reached service settings dice before)).outgoing) :
    Request.tally (some t) (posted (storyOf service settings dice (before ++ event :: after))) = 0 := by
  let fresh : Cluster σ := { network := { settings, dice } }
  let c := reached service settings dice before
  let c' := reached service settings dice (before ++ [event])
  have hbefore : Request.tally (some t) (posted c.network.story) +
      Request.tally (some t) c.load.outgoing ≤
        0 + 0 + Request.tally (some t) (Load.all (demands service before fresh)).outgoing :=
    sent_le service (some t) before fresh
  have hafter := sent_le service (some t) after c'
  have hstep : c.step service event = c' := (reached_concat service before event).symm
  have hdemands : Request.tally (some t) (Load.all (demands service before fresh)).outgoing +
      (Request.tally (some t) (event.load c).outgoing +
        Request.tally (some t) (Load.all (demands service after c')).outgoing) ≤ 1 := by
    have hall := tally_demands service t (before ++ event :: after) fresh
    rw [demands_append, demands, ← List.singleton_append] at hall
    change Request.tally (some t) (Load.all (_ ++ ([event.load c] ++ demands service after
      (c.step service event)))).outgoing + 0 ≤ 1 at hall
    rw [hstep] at hall
    simpa [Load.all] using hall
  have hposted : Request.tally (some t) (posted c'.network.story) =
      Request.tally (some t) (posted c.network.story) :=
    congrArg (fun story => Request.tally (some t) (posted story)) hstory
  have hreached : reached service settings dice (before ++ event :: after) = c'.run service after := by
    rw [List.append_cons, reached_append]
  change Request.tally (some t) c'.load.outgoing < Request.tally (some t) c.load.outgoing +
    Request.tally (some t) (event.load c).outgoing at hless
  rw [storyOf, hreached]
  omega

/-- Senders have the requests to send that were made for them. -/
theorem owned_reached (found : (reached service settings dice events).tasks[t]? = some state) :
    ∀ r ∈ state.load.outgoing, r.owner = some t := by
  induction events using List.reverseRecOn generalizing t state with
  | nil => cases found
  | append_singleton events event ih =>
    rw [reached_concat] at found
    cases hbefore : (reached service settings dice events).tasks[t]? with
    | none =>
      cases step_taskBegins service hbefore found with
      | called now call ht =>
        obtain ⟨written, hcall⟩ :=
          undertake_discharges service now t call (reached service settings dice events)
        apply hcall.owned
        cases call <;> simp [Call.load]
      | hired event c' now s place =>
        obtain ⟨written, hwork⟩ := work_discharges service now t s place .idle c'
        exact hwork.owned (List.forall_mem_nil _)
    | some state' =>
      obtain ⟨after, hafter, htaskChange⟩ := step_taskChange service hbefore event
      cases hafter.symm.trans found
      have howned := ih hbefore
      cases htaskChange with
      | same event state => exact howned
      | diverted owner other state =>
        rw [TaskState.load_divert]
        intro r hmem
        obtain ⟨r', hmem', rfl⟩ := List.mem_map.mp hmem
        rw [Request.owner_divert]
        exact howned r' hmem'
      | turned now job hnetwork =>
        obtain ⟨written, hturn⟩ :=
          resume_discharges service now t job (reached service settings dice events)
        exact hturn.owned howned
      | cancelled event job => exact List.forall_mem_nil _

/-- What a task is to send is among what the cluster is to send. -/
theorem mem_outgoing {r : Request} (found : c.tasks[t]? = some state) (hmem : r ∈ state.load.outgoing) :
    r ∈ c.load.outgoing :=
  List.mem_flatMap.mpr ⟨state.load, List.mem_map.mpr ⟨state, List.mem_of_getElem? found, rfl⟩, hmem⟩

/-- When a task has heard how its request has ended, nobody is to send the request any more. -/
theorem tally_outgoing_of_heard {o : Outcome}
    (h : (reached service settings dice events).heard? t = some o) :
    Request.tally (some t) (reached service settings dice events).load.outgoing = 0 := by
  refine Request.tally_eq_zero fun r hmem howner => ?_
  obtain ⟨load, hload, hr⟩ := List.mem_flatMap.mp hmem
  obtain ⟨state, hstate, rfl⟩ := List.mem_map.mp hload
  obtain ⟨u, found⟩ := List.mem_iff_getElem?.mp hstate
  obtain rfl : u = t := Option.some.inj ((owned_reached service found r hr).symm.trans howner)
  rw [TaskState.outgoing_of_heard? ((heard?_of_found found).symm.trans h)] at hr
  cases hr

/-- No more is taken out of mailboxes than was put into them. -/
theorem tally_grasped_le (settings : Settings) (dice : Nat → UInt64) (events : List (Event σ))
    (owner : Option TaskId) : Request.tally owner (grasped (storyOf service settings dice events)) ≤
      Request.tally owner (posted (storyOf service settings dice events)) := by
  have hmoves := (reached_dispatch service settings dice events).moves
  refine Request.tally_le_of_subperm (grasped_subperm_posted fun box => ?_)
  have hprefix : removals box _ <+: pushes box _ := hmoves.removals_prefix_pushes rfl
  exact ((pops_sublist_removals box _).trans hprefix.sublist).subperm

/-- Nobody hears of a defect in a reply. -/
theorem outcomes_harmless (settings : Settings) (dice : Nat → UInt64) (h : OnlyWorkersReply events) :
    ∀ outcome ∈ outcomes (storyOf service settings dice events), Harmless outcome := by
  refine ((reached_dispatch service settings dice events).harmless ?_).1
  intro outcome hmem
  rw [(demands_of_onlyWorkersReply service h _).2] at hmem
  cases hmem

/-- Each request that was received is replied to, or work on it is spoilt, once at most. -/
theorem dealt_once (settings : Settings) (dice : Nat → UInt64) (h : OnlyWorkersReply events)
    (owner : Option TaskId) :
    Request.tally owner (answered (storyOf service settings dice events)) +
        Request.tally owner (spoils (verdictsOf service (shiftsAlong service settings dice events))) ≤
      Request.tally owner (received (reached service settings dice events).network
        (storyOf service settings dice events)) := by
  have hdeals := (reached_dispatch service settings dice events).deals owner
  rw [(demands_of_onlyWorkersReply service h _).1, Request.tally_nil] at hdeals
  omega

/-- Whatever is handed over is so for a request that some task has sent. -/
theorem answered_owned (settings : Settings) (dice : Nat → UInt64) (h : OnlyWorkersReply events)
    {r : Request} (hmem : r ∈ answered (storyOf service settings dice events)) :
    ∃ t, r.owner = some t := by
  cases howner : r.owner with
  | some t => exact ⟨t, rfl⟩
  | none =>
    have hsome := Request.tally_pos hmem howner
    have hsent : Request.tally none (posted (storyOf service settings dice events)) +
        Request.tally none (reached service settings dice events).load.outgoing ≤
          0 + 0 + Request.tally none (Load.all (demands service events _)).outgoing :=
      sent_le service none events { network := { settings, dice } }
    rw [tally_none_demands] at hsent
    have hgrasped := tally_grasped_le service settings dice events none
    have hdealt := dealt_once service settings dice h none
    have hreceived := tally_received_le none (reached service settings dice events).network
      (storyOf service settings dice events)
    omega

end Cluster

end Replica
