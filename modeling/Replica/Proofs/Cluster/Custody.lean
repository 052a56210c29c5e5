import Replica.Proofs.Cluster.Events
import Replica.Proofs.Cluster.Strides
import Replica.Proofs.Network.Balance
import Replica.Proofs.Traffic.Tasks

/-!
# What tasks have in hand

A task that takes, and a worker while it takes, may have one request in hand; no other task ever has. In
its turn a task may take requests, and a worker gives those that it has taken to its server, one after
the other (`undertake_goes`, `resume_goes`). A task that is cancelled gives nothing away.

A sender that is blocked sticks to the mailbox of the node that its request is addressed to (`Aimed`).
-/

namespace Replica

open Network

variable {now : Nat} {t : TaskId} {net net' : Network}

/-! ## Workers -/

namespace Poise

/-- What the worker has in hand. -/
def inHand : Poise → List Request
  | .stands (.taking stage) => stage.inHand
  | .holds r => [r]
  | _ => []

/-- A worker has in hand what its taker has. -/
theorem inHand_ofTake (progress : TakeProgress) : (ofTake progress).inHand = Network.inHand progress := by
  match progress with
  | .waiting stage => rfl
  | .ended (.ok r) => rfl
  | .ended (.error e) => rfl

/-- A worker that replies has nothing more in hand: the request has been given to its server. -/
theorem inHand_ofReply (progress : ReplyProgress) : (ofReply progress).inHand = [] := by
  match progress with
  | .waiting stage => rfl
  | .ended (.ok ()) => rfl
  | .ended (.error e) => rfl

/-- Neither has one that works. -/
theorem inHand_ofWork (r : Request) (work : Work) : (ofWork now r work).inHand = [] := by
  unfold ofWork
  split <;> rfl

end Poise

/-- What a worker at the stage has in hand. -/
def Working.inHand (stage : Working) : List Request := (Poise.stands stage).inHand

namespace Desk

variable {σ : Type} (service : Service σ) {badge : Badge} {start finish : Poise × Desk σ}

/-- When a worker engages its service, the request goes from its hand to its server. -/
theorem engage_passes (now : Nat) (badge : Badge) (r : Request) (desk : Desk σ) :
    Passes badge.task desk.network (desk.engage service now badge r).network [r] [] := by
  have hraised (errors : List ServerError) (net : Network) :
      Effects (fun _ _ => False) net
        (errors.foldl (fun net e => net.note now (.raised e)) net) := by
    induction errors generalizing net with
    | nil => exact .refl
    | cons e errors ih => exact .head (.remark now (.raised e)) (ih (net.note now (.raised e)))
  exact (Passes.hand desk.network badge.task now r).trans
    ((hraised _ _).passes (fun _ _ => False.elim) badge.task [])

/-- One stride keeps count of what the worker has in hand. -/
theorem Stride.passes (h : Stride service now badge start finish) :
    Passes badge.task start.2.network finish.2.network start.1.inHand finish.1.inHand := by
  cases h with
  | @begin desk alive =>
    rw [Poise.inHand_ofTake]
    exact beginTake_passes now badge.task badge.node desk.network
  | @take desk stage =>
    rw [Poise.inHand_ofTake]
    exact turnTake_passes now badge.task stage desk.network
  | @engage desk r =>
    rw [Poise.inHand_ofWork]
    exact engage_passes service now badge r desk
  | @reply desk r reply =>
    rw [Poise.inHand_ofReply]
    exact (beginReply_effects now r (.ok reply) desk.network).passes (fun _ _ => False.elim) _ []
  | @fail desk r e harmless =>
    rw [Poise.inHand_ofReply]
    exact (beginReply_effects now r (.error e) desk.network).passes (fun _ _ => False.elim) _ []
  | @answer desk stage =>
    rw [Poise.inHand_ofReply]
    exact (turnReply_effects now stage desk.network).passes (fun _ _ => False.elim) _ []
  | @terminate desk e inside alive =>
    exact .note desk.network badge.task now (.terminated _ _ e) (fun _ => ⟨rfl, rfl⟩) []
  | stop dead => exact .refl _ _ _
  | wake time => exact .refl _ _ _
  | silence r => exact .refl _ _ _
  | falter r fatal => exact .refl _ _ _
  | panic r message => exact .refl _ _ _
  | crash r => exact .refl _ _ _
  | interrupt shutdown => exact .refl _ _ _
  | hush inside dead => exact .refl _ _ _

/-- So do many strides. -/
theorem Strides.passes (h : Strides service now badge start finish) :
    Passes badge.task start.2.network finish.2.network start.1.inHand finish.1.inHand := by
  induction h with
  | refl => exact .refl _ _ _
  | tail _ hlast ih => exact ih.trans (hlast.passes service)

end Desk

/-! ## Senders -/

/-- What holds of all stages holds of the one at which a task waits. -/
theorem Progress.waits_of_forall {τ α : Type} {P : τ → Prop} (h : ∀ s, P s) (p : Progress τ α) :
    p.Waits P := by
  cases p with
  | waiting s => exact h s
  | ended a => trivial

/-- A sender that is blocked waits at the mailbox of the node that its request is addressed to. -/
def Sending.Aimed (net : Network) : Sending → Prop
  | .blocked box r _ => net.Serves box r.replier
  | .waiting .. => True

namespace Network

variable {box : MailboxId} {r : Request}

/-- A sender that is turned away waits at the mailbox of the node that its request is addressed to. -/
theorem trySend_aimed (now : Nat) (h : net.Serves box r.replier) :
    (net.trySend now box r).2.Waits (·.Aimed (net.trySend now box r).1) := by
  have hadmission := trySend_admission now box r net
  generalize net.trySend now box r = result at hadmission ⊢
  cases hadmission with
  | blocked wake => exact h
  | refused e => trivial
  | entered deadline h => trivial
  | overdue e h => trivial

/-- A sender that begins waits at such a mailbox, if it waits. -/
theorem beginSend_aimed (now : Nat) (r : Request) (hnet : net.Routed) :
    (net.beginSend now r).2.Waits (·.Aimed (net.beginSend now r).1) := by
  unfold beginSend
  split
  · trivial
  · next box hbox =>
    exact trySend_aimed now (hnet.registered _ _ (Registry.mem_of_get? hbox))

/-- A sender that goes on waits there still. -/
theorem turnSend_aimed (now : Nat) {stage : Sending} (h : stage.Aimed net) :
    (net.turnSend now stage).2.Waits (·.Aimed (net.turnSend now stage).1) := by
  cases stage with
  | blocked box r wake =>
    rw [turnSend]
    split
    · exact trySend_aimed now h
    · exact h
  | waiting box r slip deadline =>
    have hlook := checkSlip_look now box r slip deadline net
    rw [turnSend]
    generalize net.checkSlip now box r slip deadline = result at hlook ⊢
    cases hlook <;> trivial

/-- Whoever sends has nothing in hand, before and afterwards. -/
theorem beginSend_passes (now : Nat) (r : Request) (hnet : net.Routed) (t : TaskId) :
    Passes t net (net.beginSend now r).1 [] [] := by
  have heffects : Effects (fun box r => net.Serves box r.replier) net (net.beginSend now r).1 :=
    beginSend_effects now fun box hbox => hnet.registered _ _ (Registry.mem_of_get? hbox)
  exact heffects.passes (fun _ _ => id) t []

/-- And so it is when a sender goes on. -/
theorem turnSend_passes (now : Nat) {stage : Sending} (h : stage.Aimed net) (t : TaskId) :
    Passes t net (net.turnSend now stage).1 [] [] := by
  have heffects : Effects (fun box r => net.Serves box r.replier) net (net.turnSend now stage).1 := by
    refine turnSend_effects now fun box r wake heq => ?_
    rw [heq] at h
    exact h
  exact heffects.passes (fun _ _ => id) t []

end Network

/-! ## Jobs -/

/-- What a task with the job has in hand. -/
def Job.inHand : Job → List Request
  | .take stage => stage.inHand
  | .work _ _ stage => stage.inHand
  | _ => []

/-- What a task has in hand. A request that it has returned stays there, and one that was lost when
the task was cancelled does not. -/
def TaskState.inHand : TaskState → List Request
  | .running job => job.inHand
  | .finished _ (.request (.ok r)) => [r]
  | .finished _ _ => []
  | .cancelled => []

/-- If the task sends, it sticks to the mailbox of the node that its request is addressed to. -/
def Job.Aimed (net : Network) : Job → Prop
  | .send stage | .linkSend stage | .relay _ _ (.sending stage) => stage.Aimed net
  | _ => True

/-- A sender sticks to its mailbox as long as this serves the same node. -/
theorem Sending.Aimed.mono {stage : Sending} (h : stage.Aimed net)
    (hserves : ∀ box node, net.Serves box node → net'.Serves box node) : stage.Aimed net' := by
  cases stage with
  | blocked box r wake => exact hserves _ _ h
  | waiting box r slip deadline => trivial

/-- So does any task that sends. -/
theorem Job.Aimed.mono {job : Job} (h : job.Aimed net)
    (hserves : ∀ box node, net.Serves box node → net'.Serves box node) : job.Aimed net' := by
  cases job with
  | send stage => exact Sending.Aimed.mono h hserves
  | linkSend stage => exact Sending.Aimed.mono h hserves
  | relay d via stage =>
    cases stage with
    | sending stage => exact Sending.Aimed.mono h hserves
    | connecting call r => trivial
    | repairing call sent => trivial
  | take stage => trivial
  | reply stage => trivial
  | work s place stage => trivial
  | consult d call => trivial

namespace Cluster

variable {σ : Type} (service : Service σ) {c : Cluster σ}

/-- What comes of a turn of the task, which had `held` in hand before. -/
structure Goes (now : Nat) (t : TaskId) (net : Network) (held : List Request)
    (result : Cluster σ × JobProgress) : Prop where
  passes : Passes t net result.1.network held (TaskState.ofProgress now result.2).inHand
  aimed : result.2.Waits (·.Aimed result.1.network)

/-- A turn on the network goes as the call there does, as long as the stage has in hand what the call
has. -/
theorem afterNetwork_goes {τ α : Type} {stage : τ → Job} {answer : α → Answer}
    {result : Network × Progress τ α} {held held' : List Request}
    (hpasses : Passes t c.network result.1 held held')
    (hinHand : (TaskState.ofProgress now (result.2.map stage answer)).inHand = held')
    (haimed : result.2.Waits fun s => (stage s).Aimed result.1) :
    Goes now t c.network held (c.afterNetwork stage answer result) where
  passes := hinHand ▸ hpasses
  aimed := haimed.map stage answer

/-- Whoever sends has nothing in hand. -/
theorem inHand_sends {stage : Sending → Job} {answer : Outcome → Answer}
    (hstage : ∀ s, (stage s).inHand = [])
    (hanswer : ∀ outcome, (TaskState.finished now (answer outcome)).inHand = [])
    (progress : SendProgress) :
    (TaskState.ofProgress now (progress.map stage answer)).inHand = [] := by
  cases progress with
  | waiting s => exact hstage s
  | ended outcome => exact hanswer outcome

/-- A task that takes has in hand what its call has. -/
theorem inHand_takes (progress : TakeProgress) :
    (TaskState.ofProgress now (progress.map .take .request)).inHand = Network.inHand progress := by
  match progress with
  | .waiting s => rfl
  | .ended (.ok r) => rfl
  | .ended (.error e) => rfl

/-- A task that replies has nothing in hand. -/
theorem inHand_replies (progress : ReplyProgress) :
    (TaskState.ofProgress now (progress.map .reply .replied)).inHand = [] := by
  cases progress <;> rfl

/-- A task that works has in hand what its worker has. -/
theorem inHand_works (s : ServerId) (place : Nat) (progress : Progress Working Departure) :
    (TaskState.ofProgress now (progress.map (.work s place) .departed)).inHand =
      (Poise.ofProgress progress).inHand := by
  cases progress <;> rfl

/-- A task that neither takes nor works does nothing but what happens at once. -/
theorem Goes.of_same {result : Cluster σ × JobProgress} (hnetwork : result.1.network = net)
    (hinHand : (TaskState.ofProgress now result.2).inHand = [])
    (haimed : result.2.Waits (·.Aimed net)) : Goes now t net [] result where
  passes := by
    rw [hnetwork, hinHand]
    exact .refl t net []
  aimed := hnetwork ▸ haimed

/-- A worker's turn takes, hands over and keeps requests as its strides do. -/
theorem work_goes (now : Nat) (t : TaskId) (s : ServerId) (place : Nat) (stage : Working)
    (c : Cluster σ) : Goes now t c.network stage.inHand (c.work service now t s place stage) := by
  unfold work
  split
  · exact ⟨.refl t c.network _, trivial⟩
  · next server _ =>
    dsimp only
    have hstrides := Desk.turn_strides service now
      { node := server.node, server := server.name, place, task := t } stage
      { network := c.network, state := server.state, exit := c.exit }
    refine ⟨?_, ?_⟩
    · rw [inHand_works]
      exact hstrides.passes service
    · generalize Desk.turn service now _ _ _ = result
      obtain ⟨desk, progress⟩ := result
      cases progress <;> trivial

/-- A task that waits for a call on a map has nothing in hand. -/
theorem waitForProxyCall_goes (now : Nat) (d : DirectoryId) (call : TaskId) (c : Cluster σ) :
    Goes now t c.network [] (c.waitForProxyCall d call) := by
  unfold waitForProxyCall
  split <;> exact .of_same rfl rfl trivial

/-- Neither has a relay that waits for its link to be repaired. -/
theorem waitForRepair_goes (now : Nat) (d : DirectoryId) (via : PeerId) (call : TaskId)
    (sent : Outcome) (c : Cluster σ) : Goes now t c.network [] (c.waitForRepair d via call sent) := by
  unfold waitForRepair
  split <;> exact .of_same rfl rfl trivial

/-- Neither has a relay that has just heard of its request. -/
theorem afterRelay_goes (now : Nat) (d : DirectoryId) (via : PeerId)
    {result : Network × SendProgress} (hpasses : Passes t c.network result.1 [] [])
    (haimed : result.2.Waits (·.Aimed result.1)) :
    Goes now t c.network [] (c.afterRelay now d via result) := by
  obtain ⟨net, progress⟩ := result
  unfold afterRelay
  dsimp only
  split
  · exact ⟨hpasses, haimed⟩
  · -- the repair is no business of the network's
    unfold waitForRepair
    split <;> exact ⟨hpasses, trivial⟩
  · exact ⟨hpasses, trivial⟩

/-- Sending over a link takes nothing out of a mailbox. -/
theorem beginLinkSend_passes (now : Nat) (l : Link) (closed : Bool) (r : Request) (hnet : net.Routed)
    (t : TaskId) : Passes t net (net.beginLinkSend now l closed r).1 [] [] := by
  unfold beginLinkSend
  split
  · exact .refl t net []
  · exact beginSend_passes now r hnet t

/-- A sender over a link waits where its request is addressed to, if it waits. -/
theorem beginLinkSend_aimed (now : Nat) (l : Link) (closed : Bool) (r : Request) (hnet : net.Routed) :
    (net.beginLinkSend now l closed r).2.Waits (·.Aimed (net.beginLinkSend now l closed r).1) := by
  unfold beginLinkSend
  split
  · trivial
  · exact (beginSend_aimed now r hnet).map id Link.outcome

/-- And so it is when it goes on. -/
theorem turnLinkSend_aimed (now : Nat) {stage : Sending} (h : stage.Aimed net) :
    (net.turnLinkSend now stage).2.Waits (·.Aimed (net.turnLinkSend now stage).1) :=
  (turnSend_aimed now h).map id Link.outcome

/-- A relay that gets its link sends its request to the node that this is addressed to. -/
theorem waitForLink_goes (now : Nat) (d : DirectoryId) (via : PeerId) (call : TaskId) (r : Request)
    (c : Cluster σ) (hnet : c.network.Routed) : Goes now t c.network [] (c.waitForLink now d via call r) := by
  unfold waitForLink
  dsimp only
  split
  · exact .of_same rfl rfl trivial
  · split
    · next l _ =>
      exact afterRelay_goes now d via (beginLinkSend_passes now l (c.isShut l) r hnet t)
        (beginLinkSend_aimed now l (c.isShut l) r hnet)
    · exact .of_same rfl rfl trivial
  · exact .of_same rfl rfl trivial

/-- A task that takes keeps what its call has taken. -/
theorem takes_goes (now : Nat) {result : Network × TakeProgress} {held : List Request}
    (h : Passes t c.network result.1 held (Network.inHand result.2)) :
    Goes now t c.network held (c.afterNetwork .take .request result) :=
  afterNetwork_goes h (inHand_takes _) (Progress.waits_of_forall (fun _ => trivial) _)

/-- A reply takes nothing, and puts nothing anywhere. -/
theorem replies_goes (now : Nat) {result : Network × ReplyProgress}
    (h : Effects (fun _ _ => False) c.network result.1) :
    Goes now t c.network [] (c.afterNetwork .reply .replied result) :=
  afterNetwork_goes (h.passes (fun _ _ => False.elim) t []) (inHand_replies _)
    (Progress.waits_of_forall (fun _ => trivial) _)

/-- A task has nothing in hand when it begins. -/
theorem undertake_goes (now : Nat) (t : TaskId) (call : Call) (hnet : c.network.Routed) :
    Goes now t c.network [] (c.undertake service now t call) := by
  cases call with
  | send r =>
    exact afterNetwork_goes (beginSend_passes now _ hnet t)
      (inHand_sends (fun _ => rfl) (fun _ => rfl) _) (beginSend_aimed now _ hnet)
  | take node => exact takes_goes now (beginTake_passes now t node c.network)
  | reply r outcome => exact replies_goes now (beginReply_effects now _ outcome c.network)
  | work s place => exact work_goes service now t s place .idle c
  | linkSend l r =>
    exact afterNetwork_goes (beginLinkSend_passes now l _ _ hnet t)
      (inHand_sends (fun _ => rfl) (fun _ => rfl) _) (beginLinkSend_aimed now l _ _ hnet)
  | consult d call => exact waitForProxyCall_goes now d _ (c.beginProxyCall now d call).1
  | relay d via r => exact waitForLink_goes now d via _ _ (c.beginProxyCall now d (.lookUp via)).1 hnet

/-- A task that goes on accounts for what it had in hand. -/
theorem resume_goes (now : Nat) (t : TaskId) {job : Job} (hjob : job.Aimed c.network)
    (hnet : c.network.Routed) : Goes now t c.network job.inHand (c.resume service now t job) := by
  cases job with
  | send stage =>
    exact afterNetwork_goes (turnSend_passes now hjob t)
      (inHand_sends (fun _ => rfl) (fun _ => rfl) _) (turnSend_aimed now hjob)
  | take stage => exact takes_goes now (turnTake_passes now t stage c.network)
  | reply stage => exact replies_goes now (turnReply_effects now stage c.network)
  | work s place stage => exact work_goes service now t s place stage c
  | linkSend stage =>
    exact afterNetwork_goes (turnSend_passes now hjob t)
      (inHand_sends (fun _ => rfl) (fun _ => rfl) _) (turnLinkSend_aimed now hjob)
  | consult d call => exact waitForProxyCall_goes now d call (c.turnProxyCall now d call)
  | relay d via stage =>
    cases stage with
    | connecting call r => exact waitForLink_goes now d via call r (c.turnProxyCall now d call) hnet
    | sending stage =>
      exact afterRelay_goes now d via (turnSend_passes now hjob t) (turnLinkSend_aimed now hjob)
    | repairing call sent => exact waitForRepair_goes now d via call sent (c.turnProxyCall now d call)

/-- A task that is cancelled leaves the network as it would be after it had given up waiting. -/
theorem abandon_effects (t : TaskId) (job : Job) (c : Cluster σ) :
    Effects (fun _ _ => False) c.network (c.abandon t job).network := by
  cases job with
  | send stage => exact cancelSend_effects stage c.network
  | take stage => exact cancelTake_effects t stage c.network
  | reply stage => exact .refl
  | work s place stage =>
    cases stage with
    | taking stage => exact cancelTake_effects t stage c.network
    | idle => exact .refl
    | handling r ending wake => exact .refl
    | replying stage => exact .refl
  | linkSend stage => exact cancelSend_effects stage c.network
  | consult d call => exact .refl
  | relay d via stage =>
    cases stage with
    | sending stage => exact cancelSend_effects stage c.network
    | connecting call r => exact .refl
    | repairing call sent => exact .refl

end Cluster

end Replica
