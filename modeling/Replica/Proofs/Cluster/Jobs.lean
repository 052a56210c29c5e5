import Replica.Proofs.Cluster.Events
import Replica.Proofs.Cluster.Workers

/-!
# Jobs on a network

What a task of a cluster does in its turn, from the job that it has: it sends, directly or over a
link, takes, replies or works, and when it goes on to wait, it has the call that it waits for
(`undertake_led`, `resume_led`).
-/

namespace Replica

variable {t u : TaskId}

namespace Traffic

variable {x y : Traffic}

/-- The task has the call that its job is in. -/
def Carries (x : Traffic) (t : TaskId) : Job → Prop
  | .send stage => x.SendsAt t stage
  | .take stage => x.TakesAt t stage
  | .reply stage => x.RepliesAt t stage
  | .work _ _ stage => x.Works t stage
  | .linkSend stage => x.SendsAt t stage
  | .consult .. => True
  | .relay _ _ (.sending stage) => x.SendsAt t stage
  | .relay _ _ (.connecting ..) => True
  | .relay _ _ (.repairing ..) => True

/-- What a task does leaves the others in their calls. -/
theorem Does.carries (h : Does t x y) (hne : u ≠ t) {job : Job} (hjob : x.Carries u job) :
    y.Carries u job := by
  cases job with
  | send stage => exact h.sends u stage hne hjob
  | take stage => exact h.takes u stage hne hjob
  | reply stage => exact h.replies u stage hne hjob
  | work s place stage =>
    cases stage with
    | idle => trivial
    | taking stage => exact h.takes u stage hne hjob
    | handling r ending wake => trivial
    | replying stage => exact h.replies u stage hne hjob
  | linkSend stage => exact h.sends u stage hne hjob
  | consult d call => trivial
  | relay d via stage =>
    cases stage with
    | connecting call r => trivial
    | sending stage => exact h.sends u stage hne hjob
    | repairing call sent => trivial

section

variable {owner : TaskId} {other : PeerId}

theorem SendsAt.divert {stage : Sending} (h : x.SendsAt t stage) :
    (x.divert owner other).SendsAt t (stage.divert owner other) :=
  HasStage.map h (fun _ => rfl) fun _ hcall =>
    congrArg (CallState.mapStage (Sending.divert owner other)) hcall

theorem TakesAt.divert {stage : Taking} (h : x.TakesAt t stage) :
    (x.divert owner other).TakesAt t (stage.divert owner other) :=
  HasStage.map h (fun _ => rfl) fun _ hcall =>
    congrArg (CallState.mapStage (Taking.divert owner other)) hcall

theorem RepliesAt.divert {stage : Replying} (h : x.RepliesAt t stage) :
    (x.divert owner other).RepliesAt t (stage.divert owner other) := by
  refine HasStage.map h (fun call => ?_) fun call hcall => ?_
  · unfold ReplyCall.divert
    split <;> rfl
  · simp only [ReplyCall.divert, hcall]

theorem Carries.divert {job : Job} (h : x.Carries t job) :
    (x.divert owner other).Carries t (job.divert owner other) := by
  cases job with
  | send stage => exact SendsAt.divert h
  | take stage => exact TakesAt.divert h
  | reply stage => exact RepliesAt.divert h
  | work s place stage =>
    cases stage with
    | idle => trivial
    | taking stage => exact TakesAt.divert h
    | handling r ending wake => trivial
    | replying stage => exact RepliesAt.divert h
  | linkSend stage => exact SendsAt.divert h
  | consult d call => trivial
  | relay d via stage =>
    cases stage with
    | connecting call r => trivial
    | sending stage => exact SendsAt.divert h
    | repairing call sent => trivial

end

theorem leads_beginLinkSend (now : Nat) (l : Link) (closed : Bool) (r : Request) (x : Traffic) :
    Leads t x (x.network.beginLinkSend now l closed r).1
      fun y => (x.network.beginLinkSend now l closed r).2.Waits (y.SendsAt t) := by
  unfold Network.beginLinkSend
  split
  · exact .refl rfl trivial
  · exact (leads_beginSend now t r x).mono fun y hy => hy.map id Link.outcome

theorem leads_turnLinkSend (now : Nat) {stage : Sending} (h : x.SendsAt t stage) :
    Leads t x (x.network.turnLinkSend now stage).1
      fun y => (x.network.turnLinkSend now stage).2.Waits (y.SendsAt t) :=
  (leads_turnSend now h).mono fun _ hy => hy.map id Link.outcome

end Traffic

namespace Cluster

open Traffic

variable {σ : Type} (service : Service σ) {c : Cluster σ} {x y : Traffic}

/-- What a task does in its turn leads to the cluster then. -/
abbrev Led (t : TaskId) (x : Traffic) (result : Cluster σ × JobProgress) : Prop :=
  Leads t x result.1.network fun y => result.2.Waits (y.Carries t)

theorem afterNetwork_led {τ α : Type} {stage : τ → Job} {result : Network × Progress τ α}
    (answer : α → Answer)
    (h : Leads t x result.1 fun y => result.2.Waits fun s => y.Carries t (stage s)) :
    Led t x (c.afterNetwork stage answer result) :=
  h.mono fun _ hy => hy.map stage answer

theorem work_led (now : Nat) (s : ServerId) (place : Nat) {stage : Working}
    (hnet : x.network = c.network) (hstage : x.Works t stage) :
    Led t x (c.work service now t s place stage) := by
  unfold work
  split
  · exact .refl hnet hstage
  · next server _ =>
    let badge : Badge := { node := server.node, server := server.name, place, task := t }
    let desk : Desk σ := { network := c.network, state := server.state, exit := c.exit }
    have hround := desk.goRound_leads service now badge (c.network.backlog + 1) hnet hstage
    exact hround.mono fun y hy => Progress.Waits.map (P := y.Carries t) (.work s place) Answer.departed hy

theorem waitForProxyCall_led (d : DirectoryId) (call : TaskId) (hnet : x.network = c.network) :
    Led t x (c.waitForProxyCall d call) := by
  unfold waitForProxyCall
  split <;> exact .refl hnet trivial

theorem waitForRepair_led (d : DirectoryId) (via : PeerId) (call : TaskId) (sent : Outcome)
    (hnet : x.network = c.network) : Led t x (c.waitForRepair d via call sent) := by
  unfold waitForRepair
  split <;> exact .refl hnet trivial

theorem afterRelay_led (now : Nat) (d : DirectoryId) (via : PeerId)
    {result : Network × Network.SendProgress}
    (h : Leads t x result.1 fun y => result.2.Waits (y.SendsAt t)) :
    Led t x (c.afterRelay now d via result) := by
  unfold afterRelay
  dsimp only
  split
  · next stage heq => exact h.mono fun y hy => by rwa [heq] at hy
  · exact h.bind fun y hy _ => waitForRepair_led d via _ _ hy
  · exact h.mono fun _ _ => trivial

theorem waitForLink_led (now : Nat) (d : DirectoryId) (via : PeerId) (call : TaskId) (r : Request)
    (hnet : x.network = c.network) : Led t x (c.waitForLink now d via call r) := by
  unfold waitForLink
  dsimp only
  split
  · exact .refl hnet trivial
  · split
    · next l _ =>
      exact afterRelay_led now d via (hnet ▸ leads_beginLinkSend now l (c.isShut l) r x)
    · exact .refl hnet trivial
  · exact .refl hnet trivial

theorem undertake_led (now : Nat) (call : Call) (hnet : x.network = c.network) :
    Led t x (c.undertake service now t call) := by
  cases call with
  | send r => exact afterNetwork_led .outcome (hnet ▸ leads_beginSend now t _ x)
  | take node => exact afterNetwork_led .request (hnet ▸ leads_beginTake now t node x)
  | reply r outcome => exact afterNetwork_led .replied (hnet ▸ leads_beginReply now t _ outcome x)
  | work s place => exact work_led service now s place hnet trivial
  | linkSend l r => exact afterNetwork_led .outcome (hnet ▸ leads_beginLinkSend now l _ _ x)
  | consult d call => exact waitForProxyCall_led d _ hnet
  | relay d via r => exact waitForLink_led now d via _ _ hnet

theorem resume_led (now : Nat) {job : Job} (hnet : x.network = c.network)
    (hjob : x.Carries t job) : Led t x (c.resume service now t job) := by
  cases job with
  | send stage => exact afterNetwork_led .outcome (hnet ▸ leads_turnSend now hjob)
  | take stage => exact afterNetwork_led .request (hnet ▸ leads_turnTake now hjob)
  | reply stage => exact afterNetwork_led .replied (hnet ▸ leads_turnReply now hjob)
  | work s place stage => exact work_led service now s place hnet hjob
  | linkSend stage => exact afterNetwork_led .outcome (hnet ▸ leads_turnLinkSend now hjob)
  | consult d call => exact waitForProxyCall_led d call hnet
  | relay d via stage =>
    cases stage with
    | connecting call r => exact waitForLink_led now d via call r hnet
    | sending stage => exact afterRelay_led now d via (hnet ▸ leads_turnLinkSend now hjob)
    | repairing call sent => exact waitForRepair_led d via call sent hnet

theorem abandon_leads {job : Job} (hnet : x.network = c.network) (hjob : x.Carries t job) :
    Leads t x (c.abandon t job).network fun _ => True := by
  have hsend {stage : Sending} (h : x.SendsAt t stage) :
      Leads t x (c.network.cancelSend stage) fun _ => True := hnet ▸ leads_cancelSend h
  have htake {stage : Taking} (h : x.TakesAt t stage) :
      Leads t x (c.network.cancelTake t stage) fun _ => True := hnet ▸ leads_cancelTake h
  cases job with
  | send stage => exact hsend hjob
  | take stage => exact htake hjob
  | reply stage => exact .refl hnet trivial
  | work s place stage =>
    cases stage with
    | idle => exact .refl hnet trivial
    | taking stage => exact htake hjob
    | handling r ending wake => exact .refl hnet trivial
    | replying stage => exact .refl hnet trivial
  | linkSend stage => exact hsend hjob
  | consult d call => exact .refl hnet trivial
  | relay d via stage =>
    cases stage with
    | connecting call r => exact .refl hnet trivial
    | sending stage => exact hsend hjob
    | repairing call sent => exact .refl hnet trivial

end Cluster

end Replica
