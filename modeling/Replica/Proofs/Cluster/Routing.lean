import Replica.Proofs.Cluster.Links
import Replica.Proofs.Network.Addresses

/-!
# Requests are routed

A worker takes only what is addressed to the node of its server, and has its service work on nothing else
(`Strides.keeps`, `verdicts_keep`). So it is never brought down by requests of other nodes: it leaves because
its service has stopped, because its mailbox is shut down, or with a defect that its own service has shown.

This holds of every turn of every worker, and what takers and workers hold between their turns is as it
should be, for as long as no request is given a detour (`KeepsNodes`, `run_keepsNodes`).
-/

namespace Replica

open Network

variable {now : Nat} {net net' : Network} {node : PeerId}

/-! ## Workers -/

section

variable {σ : Type} (service : Service σ)

/-- Work on the request may end like this: the service has said so in some state. -/
def Service.Gives (r : Request) (ending : Ending) : Prop :=
  ∃ state, (service.serve r state).2.ending = ending

/-- The worker acts for the node: what it takes, works on and replies to is addressed to the node, and its
service says how work ends. -/
def Working.Keeps (net : Network) (node : PeerId) : Working → Prop
  | .idle => True
  | .taking stage => stage.Keeps net node
  | .handling r ending _ => r.replier = node ∧ service.Gives r ending
  | .replying stage => stage.request.replier = node

/-- The worker acts for the node in the middle of a turn. -/
def Poise.Keeps (net : Network) (node : PeerId) : Poise → Prop
  | .stands stage => stage.Keeps service net node
  | .holds r => r.replier = node
  | .ends r ending => r.replier = node ∧ service.Gives r ending
  | .meets _ | .leaves _ => True

variable {service}

/-- A worker keeps to its node while mailboxes stay with theirs. -/
theorem Working.Keeps.mono {stage : Working} (h : stage.Keeps service net node)
    (hserves : ∀ box node, net.Serves box node → net'.Serves box node) :
    stage.Keeps service net' node := by
  cases stage with
  | idle => trivial
  | taking stage => exact Taking.Keeps.mono h hserves
  | handling r ending wake => exact h
  | replying stage => exact h

/-- A worker that takes for its node stands, after the turn of the taker, where it acts for the node. -/
theorem Poise.Keeps.ofTake {progress : TakeProgress} (h : IsFor net node progress) :
    (Poise.ofTake progress).Keeps service net node := by
  match progress, h with
  | .waiting stage, h => exact h
  | .ended (.ok r), h => exact h
  | .ended (.error e), _ => trivial

/-- A worker that replies to a request for its node does so until the reply is over. -/
theorem Poise.Keeps.ofReply {progress : ReplyProgress} (h : progress.Waits (·.request.replier = node)) :
    (Poise.ofReply progress).Keeps service net node := by
  match progress, h with
  | .waiting stage, h => exact h
  | .ended (.ok ()), _ => trivial
  | .ended (.error e), _ => trivial

end

/-- A reply that has begun is to the request that it began with. -/
theorem beginReply_request (now : Nat) {r : Request} (outcome : Outcome) (h : r.replier = node) :
    (net.beginReply now r outcome).2.Waits (·.request.replier = node) := by
  have hdelay (net : Network) :
      (beginReply.delay now r outcome net).2.Waits (·.request.replier = node) := by
    unfold beginReply.delay
    dsimp only
    split
    · trivial
    · exact h
  cases outcome with
  | ok reply =>
    rw [beginReply]
    split
    · exact hdelay net
    · trivial
  | error e => exact hdelay net

/-- And so it is when it goes on. -/
theorem turnReply_request (now : Nat) {stage : Replying} (h : stage.request.replier = node) :
    (net.turnReply now stage).2.Waits (·.request.replier = node) := by
  unfold turnReply
  split
  · trivial
  · exact h

/-- The verdict is on a request for the node, and the service has given it. -/
def Verdict.IsOf {σ : Type} (service : Service σ) (node : PeerId) (v : Verdict σ) : Prop :=
  v.request.replier = node ∧ service.Gives v.request v.ending

namespace Desk

variable {σ : Type} {service : Service σ} {badge : Badge} {desk : Desk σ} {start finish : Poise × Desk σ}

/-- What a worker gives to its server it gives in its own name, and for its own node. -/
def Acts (badge : Badge) (t : TaskId) (node : PeerId) : Prop := t = badge.task ∧ node = badge.node

/-- When a worker engages its service, the note of it is in the worker's own name and for its own node.
-/
theorem engage_notes (now : Nat) {r : Request} (desk : Desk σ) (h : r.replier = badge.node) :
    Notes (Acts badge) desk.network (desk.engage service now badge r).network := by
  refine ⟨.handled badge.task r :: (service.serve r desk.state).2.raised.map .raised, ?_, ?_⟩
  · simp only [engage, foldl_note]
    simp [story, note]
  · refine List.forall_mem_cons.mpr ⟨⟨rfl, h⟩, List.forall_mem_map.mpr fun _ _ => trivial⟩

/-- A stride keeps the worker with its node. -/
theorem Stride.keeps (h : Stride service now badge start finish) (hnet : start.2.network.Routed)
    (hstart : start.1.Keeps service start.2.network badge.node) :
    Notes (Acts badge) start.2.network finish.2.network ∧
      finish.1.Keeps service finish.2.network badge.node := by
  cases h with
  | begin alive => exact ⟨beginTake_notes now _ _ hnet, .ofTake (beginTake_isFor now _ _ hnet)⟩
  | take stage =>
    exact ⟨turnTake_notes now _ stage hnet, .ofTake (turnTake_isFor now _ hnet hstart)⟩
  | @engage desk r =>
    refine ⟨engage_notes now desk hstart, ?_⟩
    unfold Poise.ofWork
    split <;> exact ⟨hstart, desk.state, rfl⟩
  | wake time => exact ⟨.of_eq rfl, hstart⟩
  | @reply desk r reply =>
    have heffects : Effects (fun _ _ => False) desk.network (desk.network.beginReply now r (.ok reply)).1 :=
      beginReply_effects now r _ _
    exact ⟨heffects.notes, .ofReply (beginReply_request now _ hstart.1)⟩
  | @fail desk r e harmless =>
    have heffects : Effects (fun _ _ => False) desk.network (desk.network.beginReply now r (.error e)).1 :=
      beginReply_effects now r _ _
    exact ⟨heffects.notes, .ofReply (beginReply_request now _ hstart.1)⟩
  | @answer desk stage =>
    have heffects : Effects (fun _ _ => False) desk.network (desk.network.turnReply now stage).1 :=
      turnReply_effects now stage _
    exact ⟨heffects.notes, .ofReply (turnReply_request now hstart)⟩
  | terminate inside alive =>
    exact ⟨.of_outward (story_note _ _ _) (List.forall_mem_singleton.mpr (.terminated _ _ _)), trivial⟩
  | stop | silence | falter | panic | crash | interrupt | hush => exact ⟨.of_eq rfl, trivial⟩

/-- Along its strides, a worker acts for its node and leaves others their requests. -/
theorem Strides.keeps (h : Strides service now badge start finish) (hnet : start.2.network.Routed)
    (hstart : start.1.Keeps service start.2.network badge.node) :
    Notes (Acts badge) start.2.network finish.2.network ∧
      finish.1.Keeps service finish.2.network badge.node := by
  induction h with
  | refl => exact ⟨.of_eq rfl, hstart⟩
  | tail hinit hlast ih =>
    have hmid := (Strides.passes service hinit).routed hnet
    obtain ⟨hnotes, hkeeps⟩ := hlast.keeps hmid ih.2
    exact ⟨ih.1.trans hnotes fun _ _ => (hlast.passes service).steady.serves, hkeeps⟩

/-! ## Verdicts -/

/-- A verdict on a request for the node is of the node. -/
theorem judge_keeps {r : Request} {v : Verdict σ} (h : r.replier = badge.node)
    (hv : desk.judge? service now badge r = some v) : v.IsOf service badge.node := by
  rw [judge?] at hv
  split at hv
  · cases hv
    exact ⟨h, desk.state, rfl⟩
  · cases hv

/-- So is one on a request that was just taken for the node. -/
theorem verdictOnTaken_keeps {result : Network × TakeProgress} {v : Verdict σ}
    (h : IsFor result.1 badge.node result.2)
    (hv : desk.verdictOnTaken? service now badge result = some v) : v.IsOf service badge.node := by
  unfold verdictOnTaken? at hv
  split at hv
  · next r hr =>
    rw [hr] at h
    exact judge_keeps h hv
  · cases hv

/-- So is any verdict of a worker who acts for the node. -/
theorem verdict_keeps {stage : Working} {v : Verdict σ} (hnet : desk.network.Routed)
    (hstage : stage.Keeps service desk.network badge.node)
    (hv : desk.verdict? service now badge stage = some v) : v.IsOf service badge.node := by
  cases stage with
  | idle =>
    rw [verdict?] at hv
    split at hv
    · exact verdictOnTaken_keeps (beginTake_isFor now _ _ hnet) hv
    · cases hv
  | taking stage => exact verdictOnTaken_keeps (turnTake_isFor now _ hnet hstage) hv
  | handling r ending wake =>
    rw [verdict?] at hv
    split at hv
    · cases hv
      exact hstage
    · cases hv
  | replying stage => cases hv

/-- All verdicts of a turn are on requests for the node of the worker, and of its own service. -/
theorem verdicts_keep (now : Nat) (fuel : Nat) {stage : Working} (hnet : desk.network.Routed)
    (hstage : stage.Keeps service desk.network badge.node) :
    ∀ v ∈ desk.verdicts service now badge fuel stage, v.IsOf service badge.node := by
  have hfirst : ∀ v ∈ (desk.verdict? service now badge stage).toList, v.IsOf service badge.node :=
    fun v hv => verdict_keeps hnet hstage (Option.mem_toList.mp hv)
  have hadvance := advance_strides service now badge stage desk
  induction fuel generalizing stage desk with
  | zero =>
    rw [verdicts]
    refine List.forall_mem_append.mpr ⟨hfirst, ?_⟩
    split <;> exact List.forall_mem_nil _
  | succ fuel ih =>
    rw [verdicts]
    refine List.forall_mem_append.mpr ⟨hfirst, ?_⟩
    have hnet' := (hadvance.passes service).routed hnet
    generalize desk.advance service now badge stage = result at hnet' ⊢
    obtain ⟨desk', pace⟩ := result
    cases pace with
    | waits stage | leaves why => exact List.forall_mem_nil _
    | again =>
      -- whoever goes round again has nothing in hand
      have hidle : Working.idle.Keeps service desk'.network badge.node := trivial
      refine ih hnet' hidle (fun v hv => ?_) (advance_strides service now badge .idle desk')
      exact verdict_keeps hnet' hidle (Option.mem_toList.mp hv)

end Desk

/-- The result, if the task has ended, is as required. -/
def Progress.Ends {τ α : Type} (P : α → Prop) : Progress τ α → Prop
  | waiting _ => True
  | ended result => P result

def Answer.isDeparture : Answer → Bool
  | .departed _ => true
  | _ => false

/-- The task neither takes nor works. -/
def Job.isOther : Job → Bool
  | .take _ | .work .. => false
  | _ => true

namespace Cluster

variable {σ : Type} (service : Service σ) {c c' c'' : Cluster σ} {now : Nat} {t : TaskId} {call : Call}
variable {shifts shifts' : List (Shift σ)} {result : Cluster σ × JobProgress} {job : Job}

/-! ## One task has its turn -/

/-- A taker keeps to a node, and a worker to the node of its server. -/
def Attached (c : Cluster σ) : Job → Prop
  | .take stage => ∃ node, stage.Keeps c.network node
  | .work s _ stage => stage = .idle ∨
    ∃ server, c.servers[s]? = some server ∧ stage.Keeps service c.network server.node
  | _ => True

/-- All tasks that are under way are attached. -/
def Attending (c : Cluster σ) : Prop :=
  ∀ (t : TaskId) (job : Job), c.tasks[t]? = some (.running job) → Attached service c job

/-- Servers stay with their nodes. -/
def KeepsServers (c c' : Cluster σ) : Prop :=
  ∀ (s : ServerId) (server : Server σ), c.servers[s]? = some server →
    ∃ server', c'.servers[s]? = some server' ∧ server'.node = server.node

/-- The task acts for the node in one of the shifts. -/
def ActsIn (shifts : List (Shift σ)) (t : TaskId) (node : PeerId) : Prop :=
  ∃ s ∈ shifts, s.badge.task = t ∧ s.badge.node = node

/-- The worker acts for its node when its shift begins. -/
def Shift.Fit (s : Shift σ) : Prop :=
  s.desk.network.Routed ∧ s.stage.Keeps service s.desk.network s.badge.node

/-- If the servers are the same, they are where they were. -/
theorem KeepsServers.of_eq (h : c'.servers = c.servers) : KeepsServers c c' :=
  fun _ server hs => ⟨server, h ▸ hs, rfl⟩

/-- Servers that stay in both steps stay altogether. -/
theorem KeepsServers.trans (h : KeepsServers c c') (h' : KeepsServers c' c'') : KeepsServers c c'' := by
  intro s server hs
  obtain ⟨server', hs', hnode⟩ := h s server hs
  obtain ⟨server'', hs'', hnode'⟩ := h' s server' hs'
  exact ⟨server'', hs'', hnode'.trans hnode⟩

/-- A server may change in anything but its node. -/
theorem KeepsServers.modify (s : ServerId) {f : Server σ → Server σ} (hf : ∀ server, (f server).node = server.node)
    (c : Cluster σ) : KeepsServers c (c.modifyServer s f) := by
  intro k server hk
  refine ⟨_, getElem?_modify_eq_some_iff.mpr ⟨server, hk, rfl⟩, ?_⟩
  split
  · exact hf server
  · rfl

variable {service}

/-- A task stays attached while mailboxes and servers stay with their nodes. -/
theorem Attached.mono (h : Attached service c job)
    (hserves : ∀ box node, c.network.Serves box node → c'.network.Serves box node)
    (hservers : KeepsServers c c') : Attached service c' job := by
  cases job with
  | take stage =>
    obtain ⟨node, hkeeps⟩ := h
    exact ⟨node, hkeeps.mono hserves⟩
  | work s place stage =>
    rcases h with rfl | ⟨server, hs, hkeeps⟩
    · exact .inl rfl
    · obtain ⟨server', hs', hnode⟩ := hservers s server hs
      exact .inr ⟨server', hs', hnode ▸ hkeeps.mono hserves⟩
  | _ => trivial

/-- Who acted in some shifts did so in more of them. -/
theorem ActsIn.mono {node : PeerId} (h : ActsIn shifts t node) (hsub : ∀ s ∈ shifts, s ∈ shifts') :
    ActsIn shifts' t node := by
  obtain ⟨s, hs, hacts⟩ := h
  exact ⟨s, hsub s hs, hacts⟩

variable (service)

/-- What comes of the turn of a task, and of the shift that it is, if it is one. -/
structure Behaves (now : Nat) (t : TaskId) (c : Cluster σ) (shifts : List (Shift σ))
    (result : Cluster σ × JobProgress) : Prop where
  servers : KeepsServers c result.1
  notes : Notes (ActsIn shifts) c.network result.1.network
  attached : result.2.Waits (Attached service result.1)
  fit : ∀ s ∈ shifts, Shift.Fit service s
  departed : ∀ why, result.2 = .ended (.departed why) →
    ∃ s ∈ shifts, s.badge.task = t ∧ s.state service = .finished now (.departed why)

/-- A turn of a task that neither takes nor works concerns no node. -/
theorem Behaves.of_other (hservers : result.1.servers = c.servers)
    (hnotes : Notes (fun _ _ => False) c.network result.1.network)
    (hwaits : result.2.Waits (·.isOther = true)) (hended : result.2.Ends (·.isDeparture = false)) :
    Behaves service now t c [] result where
  servers := .of_eq hservers
  notes := hnotes.mono fun _ _ => False.elim
  attached := by
    obtain ⟨c', progress⟩ := result
    cases progress with
    | ended answer => trivial
    | waiting job =>
      cases job with
      | take stage | work s place stage => cases hwaits
      | _ => trivial
  fit := List.forall_mem_nil _
  departed why h := by
    rw [h] at hended
    cases hended

/-- A turn that a network call makes for such a task concerns no node. -/
theorem afterNetwork_behaves {τ α : Type} {stage : τ → Job} {answer : α → Answer}
    {result : Network × Progress τ α} (hnotes : Notes (fun _ _ => False) c.network result.1)
    (hstage : ∀ x, (stage x).isOther = true) (hanswer : ∀ a, (answer a).isDeparture = false) :
    Behaves service now t c [] (c.afterNetwork stage answer result) := by
  refine .of_other service rfl hnotes (Progress.Waits.map stage answer ?_) ?_
  · exact Progress.waits_of_forall hstage result.2
  · obtain ⟨net, progress⟩ := result
    cases progress with
    | waiting x => trivial
    | ended a => exact hanswer a

/-- Whoever waits for a call on a map acts for no node. -/
theorem waitForProxyCall_behaves {d : DirectoryId} {call : TaskId} (c' : Cluster σ)
    (hservers : c'.servers = c.servers) (hnetwork : c'.network = c.network) :
    Behaves service now t c [] (c'.waitForProxyCall d call) := by
  have hnotes : Notes (fun _ _ => False) c.network c'.network := .of_eq (congrArg _ hnetwork)
  unfold waitForProxyCall
  split
  · exact .of_other service hservers hnotes trivial rfl
  · exact .of_other service hservers hnotes rfl trivial

/-- Neither does a relay that waits for its link to be repaired. -/
theorem waitForRepair_behaves {d : DirectoryId} {via : PeerId} {call : TaskId} {sent : Outcome}
    (c' : Cluster σ) (hservers : c'.servers = c.servers)
    (hnotes : Notes (fun _ _ => False) c.network c'.network) :
    Behaves service now t c [] (c'.waitForRepair d via call sent) := by
  unfold waitForRepair
  split
  · exact .of_other service hservers hnotes trivial rfl
  · exact .of_other service hservers hnotes rfl trivial

/-- Nor one whose request has just been heard of. -/
theorem afterRelay_behaves {d : DirectoryId} {via : PeerId} {result : Network × SendProgress}
    (c' : Cluster σ) (hservers : c'.servers = c.servers)
    (hnotes : Notes (fun _ _ => False) c.network result.1) :
    Behaves service now t c [] (c'.afterRelay now d via result) := by
  obtain ⟨net, progress⟩ := result
  unfold afterRelay
  dsimp only
  split
  · exact .of_other service hservers hnotes rfl trivial
  · exact waitForRepair_behaves service _ hservers hnotes
  · exact .of_other service hservers hnotes trivial rfl

/-- Senders take nothing out of mailboxes when they begin. -/
theorem beginSend_notes (now : Nat) (r : Request) (net : Network) {acts : TaskId → PeerId → Prop} :
    Notes acts net (net.beginSend now r).1 := by
  have heffects : Effects (fun _ _ => True) net (net.beginSend now r).1 := beginSend_effects now fun _ _ => trivial
  exact heffects.notes

/-- Nor when they go on. -/
theorem turnSend_notes (now : Nat) (stage : Sending) (net : Network) {acts : TaskId → PeerId → Prop} :
    Notes acts net (net.turnSend now stage).1 := by
  have heffects : Effects (fun _ _ => True) net (net.turnSend now stage).1 :=
    turnSend_effects now fun _ _ _ _ => trivial
  exact heffects.notes

/-- Nor over links. -/
theorem beginLinkSend_notes (now : Nat) (l : Link) (closed : Bool) (r : Request) (net : Network)
    {acts : TaskId → PeerId → Prop} : Notes acts net (net.beginLinkSend now l closed r).1 := by
  unfold beginLinkSend
  split
  · exact .of_eq rfl
  · exact beginSend_notes now r net

/-- A relay that waits for its link acts for no node, and may send as soon as it has it. -/
theorem waitForLink_behaves {d : DirectoryId} {via : PeerId} {call : TaskId} {r : Request}
    (c' : Cluster σ) (hservers : c'.servers = c.servers) (hnetwork : c'.network = c.network) :
    Behaves service now t c [] (c'.waitForLink now d via call r) := by
  have hnotes : Notes (fun _ _ => False) c.network c'.network := .of_eq (congrArg _ hnetwork)
  unfold waitForLink
  dsimp only
  split
  · exact .of_other service hservers hnotes trivial rfl
  · split
    · exact afterRelay_behaves service c' hservers (hnetwork ▸ beginLinkSend_notes now _ _ r c'.network)
    · exact .of_other service hservers hnotes rfl trivial
  · exact .of_other service hservers hnotes rfl trivial

/-- A taker takes for the node that it was begun with. -/
theorem takes_behaves {taken : Network × TakeProgress} {node : PeerId}
    (hnotes : Notes (fun _ _ => False) c.network taken.1) (h : IsFor taken.1 node taken.2) :
    Behaves service now t c [] (c.afterNetwork .take .request taken) := by
  obtain ⟨net, progress⟩ := taken
  refine ⟨.of_eq rfl, hnotes.mono fun _ _ => False.elim, ?_, List.forall_mem_nil _, fun why heq => ?_⟩
  · cases progress with
    | waiting stage => exact ⟨node, h⟩
    | ended result => trivial
  · cases progress <;> cases heq

/-- A worker that goes on acts for the node of its server, and its departure is noted there. -/
theorem work_behaves (now : Nat) (t : TaskId) (s : ServerId) (place : Nat) {stage : Working}
    (hnet : c.network.Routed) (hstage : Attached service c (.work s place stage)) :
    Behaves service now t c (c.shift? now t s place stage).toList
      (c.work service now t s place stage) := by
  unfold shift? work
  cases hserver : c.servers[s]? with
  | none => exact ⟨.of_eq rfl, .of_eq rfl, hstage, List.forall_mem_nil _, fun why heq => by cases heq⟩
  | some server =>
    let shift : Shift σ :=
      { now
        server := s
        badge := { node := server.node, server := server.name, place, task := t }
        stage
        desk := { network := c.network, state := server.state, exit := c.exit } }
    have hkeeps : stage.Keeps service c.network server.node := by
      rcases hstage with rfl | ⟨server', hserver', hkeeps⟩
      · trivial
      · cases hserver.symm.trans hserver'
        exact hkeeps
    have hstrides := Desk.turn_strides service now shift.badge stage shift.desk
    obtain ⟨hnotes, hfinish⟩ := hstrides.keeps hnet hkeeps
    show Behaves service now t c [shift] _
    refine ⟨fun k other hk => ?_, hnotes.mono fun u node hacts => ?_, ?_, ?_, fun why heq => ?_⟩
    · by_cases hks : s = k
      · subst hks
        cases hserver.symm.trans hk
        exact ⟨_, List.getElem?_set_self (lt_length_of_getElem? hk), rfl⟩
      · exact ⟨other, (List.getElem?_set_ne hks).trans hk, rfl⟩
    · exact ⟨shift, List.mem_singleton_self _, hacts.1.symm, hacts.2.symm⟩
    · show ((shift.result service).2.map (Job.work s place) Answer.departed).Waits _
      change (Poise.ofProgress (shift.result service).2).Keeps service (shift.result service).1.network _
        at hfinish
      cases hprogress : (shift.result service).2 with
      | waiting stage' =>
        rw [hprogress] at hfinish
        exact .inr ⟨_, List.getElem?_set_self (lt_length_of_getElem? hserver), hfinish⟩
      | ended why => trivial
    · exact List.forall_mem_singleton.mpr ⟨hnet, hkeeps⟩
    · exact ⟨shift, List.mem_singleton_self _, rfl, congrArg (TaskState.ofProgress now) heq⟩

/-- A call that begins a task attaches it to its node, if it takes or works. -/
theorem undertake_behaves (now : Nat) (t : TaskId) (call : Call) (hnet : c.network.Routed) :
    Behaves service now t c (c.shiftsOnCall now t call) (c.undertake service now t call) := by
  cases call with
  | send r => exact afterNetwork_behaves service (beginSend_notes now _ _) (fun _ => rfl) fun _ => rfl
  | take node => exact takes_behaves service (beginTake_notes now t node hnet) (beginTake_isFor now t node hnet)
  | reply r outcome =>
    have heffects : Effects (fun _ _ => False) c.network
        (c.network.beginReply now { r with owner := some t } outcome).1 := beginReply_effects now _ _ _
    exact afterNetwork_behaves service heffects.notes (fun _ => rfl) fun _ => rfl
  | work s place => exact work_behaves service now t s place hnet (.inl rfl)
  | linkSend l r =>
    exact afterNetwork_behaves service (beginLinkSend_notes now l _ _ _) (fun _ => rfl) fun _ => rfl
  | consult d call => exact waitForProxyCall_behaves service (c.beginProxyCall now d call).1 rfl rfl
  | relay d via r => exact waitForLink_behaves service (c.beginProxyCall now d (.lookUp via)).1 rfl rfl

/-- A task that goes on stays attached to its node. -/
theorem resume_behaves (now : Nat) (t : TaskId) (hnet : c.network.Routed) (hjob : Attached service c job) :
    Behaves service now t c (c.shiftsOnJob now t job) (c.resume service now t job) := by
  cases job with
  | send stage => exact afterNetwork_behaves service (turnSend_notes now stage _) (fun _ => rfl) fun _ => rfl
  | take stage =>
    obtain ⟨node, hkeeps⟩ := hjob
    exact takes_behaves service (turnTake_notes now t stage hnet) (turnTake_isFor now t hnet hkeeps)
  | reply stage =>
    have heffects : Effects (fun _ _ => False) c.network (c.network.turnReply now stage).1 :=
      turnReply_effects now stage _
    exact afterNetwork_behaves service heffects.notes (fun _ => rfl) fun _ => rfl
  | work s place stage => exact work_behaves service now t s place hnet hjob
  | linkSend stage =>
    exact afterNetwork_behaves service (turnSend_notes now stage _) (fun _ => rfl) fun _ => rfl
  | consult d call => exact waitForProxyCall_behaves service (c.turnProxyCall now d call) rfl rfl
  | relay d via stage =>
    cases stage with
    | connecting call r => exact waitForLink_behaves service (c.turnProxyCall now d call) rfl rfl
    | sending stage => exact afterRelay_behaves service c rfl (turnSend_notes now stage _)
    | repairing call sent => exact waitForRepair_behaves service (c.turnProxyCall now d call) rfl (.of_eq rfl)

/-! ## Events -/

/-- What happens to a cluster keeps everybody with their nodes, and only the shifts bring workers down. -/
structure KeepsNodes (c : Cluster σ) (shifts : List (Shift σ)) (c' : Cluster σ) : Prop where
  serves : ∀ box node, c.network.Serves box node → c'.network.Serves box node
  servers : KeepsServers c c'
  notes : Notes (ActsIn shifts) c.network c'.network
  attending : Attending service c'
  fit : ∀ s ∈ shifts, Shift.Fit service s
  departed : ∀ (t : TaskId) (time : Nat) (why : Departure),
    c'.tasks[t]? = some (.finished time (.departed why)) →
      c.tasks[t]? = some (.finished time (.departed why)) ∨
        ∃ s ∈ shifts, s.badge.task = t ∧ s.state service = .finished time (.departed why)

variable {service}

/-- What keeps everybody with their nodes in two steps does so altogether, with the shifts of both. -/
theorem KeepsNodes.trans (h : KeepsNodes service c shifts c') (h' : KeepsNodes service c' shifts' c'') :
    KeepsNodes service c (shifts ++ shifts') c'' where
  serves box node hs := h'.serves box node (h.serves box node hs)
  servers := h.servers.trans h'.servers
  notes := by
    have hfirst : Notes (ActsIn (shifts ++ shifts')) c.network c'.network :=
      h.notes.mono fun t node hacts => hacts.mono fun s => List.mem_append_left _
    exact hfirst.trans (h'.notes.mono fun t node hacts => hacts.mono fun s => List.mem_append_right _)
      h'.serves
  attending := h'.attending
  fit := List.forall_mem_append.mpr ⟨h.fit, h'.fit⟩
  departed t time why hdeparted := by
    rcases h'.departed t time why hdeparted with hdeparted | ⟨s, hs, hstate⟩
    · rcases h.departed t time why hdeparted with hold | ⟨s, hs, hstate⟩
      · exact .inl hold
      · exact .inr ⟨s, List.mem_append_left _ hs, hstate⟩
    · exact .inr ⟨s, List.mem_append_right _ hs, hstate⟩

variable (service)

/-- A task has had its turn. -/
theorem Behaves.keepsNodes (h : Behaves service now t c shifts result)
    (hserves : ∀ box node, c.network.Serves box node → c'.network.Serves box node)
    (hnetwork : c'.network = result.1.network) (hservers : c'.servers = result.1.servers)
    (htask : c'.tasks[t]? = some (.ofProgress now result.2))
    (hothers : ∀ u : TaskId, u ≠ t → c'.tasks[u]? = c.tasks[u]?)
    (hc : Attending service c) : KeepsNodes service c shifts c' := by
  have hkeeps : KeepsServers c c' := h.servers.trans (.of_eq hservers)
  refine ⟨hserves, hkeeps, hnetwork ▸ h.notes, fun u job hjob => ?_, h.fit, fun u time why hdeparted => ?_⟩
  · by_cases hu : u = t
    · subst hu
      have hattached := h.attached
      cases hprogress : result.2 with
      | waiting job' =>
        rw [hprogress] at htask hattached
        cases htask.symm.trans hjob
        exact hattached.mono (fun _ _ hs => hnetwork ▸ hs) (.of_eq hservers)
      | ended answer =>
        rw [hprogress] at htask
        cases htask.symm.trans hjob
    · exact (hc u job (hothers u hu ▸ hjob)).mono hserves hkeeps
  · by_cases hu : u = t
    · subst hu
      cases hprogress : result.2 with
      | waiting job =>
        rw [hprogress] at htask
        cases htask.symm.trans hdeparted
      | ended answer =>
        rw [hprogress] at htask
        cases htask.symm.trans hdeparted
        exact .inr (h.departed why hprogress)
    · exact .inl (hothers u hu ▸ hdeparted)

/-- Nothing happens to anybody's node if nothing happens. -/
theorem KeepsNodes.refl (hc : Attending service c) : KeepsNodes service c [] c :=
  ⟨fun _ _ => id, .of_eq rfl, .of_eq rfl, hc, List.forall_mem_nil _, fun _ _ _ => .inl⟩

/-- A new task is attached to its node, and everybody else keeps theirs. -/
theorem begin_keepsNodes (now : Nat) (call : Call) (hsound : c.Sound) (hc : Attending service c) :
    KeepsNodes service c (c.shiftsOnCall now c.tasks.length call) (c.begin service now call) := by
  refine (undertake_behaves service now c.tasks.length call hsound.routed).keepsNodes service ?_ rfl rfl
    (task_begun service) (fun u hu => task_begin_of_ne service hu) hc
  have hstays (owner : TaskId) (other : PeerId) : Event.begin (σ := σ) now call ≠ .divert owner other := nofun
  exact step_serves service hsound hstays

/-- So it is when a task has a turn. -/
theorem turn_keepsNodes (now : Nat) (t : TaskId) (hsound : c.Sound) (hc : Attending service c) :
    KeepsNodes service c (c.shiftsOnTurn now t) (c.turn service now t) := by
  by_cases running : ∃ job, c.tasks[t]? = some (.running job)
  · obtain ⟨job, found⟩ := running
    rw [shiftsOnTurn_of_running found]
    refine (resume_behaves service now t hsound.routed (hc t job found)).keepsNodes service ?_
      (network_turn service found) ?_ (task_turned service found)
      (fun u hu => task_turn_of_ne service found hu) hc
    · have hstays (owner : TaskId) (other : PeerId) : Event.turn (σ := σ) now t ≠ .divert owner other :=
        nofun
      exact step_serves service hsound hstays
    · rw [Cluster.turn, found]
  · rw [turn_of_not_running service running, shiftsOnTurn_of_not_running running]
    exact .refl service hc

/-- A server gets a larger or smaller crew. -/
theorem KeepsNodes.recrew (h : KeepsNodes service c shifts c') (s : ServerId) {f : Server σ → Server σ}
    (hf : ∀ server, (f server).node = server.node) : KeepsNodes service c shifts (c'.modifyServer s f) where
  serves := h.serves
  servers := h.servers.trans (.modify s hf c')
  notes := h.notes
  attending t job hjob := (h.attending t job hjob).mono (fun _ _ => id) (.modify s hf c')
  fit := h.fit
  departed := h.departed

/-- A worker that is hired is attached to the node of its server. -/
theorem hire_keepsNodes (now : Nat) (s : ServerId) (place : Nat) (hsound : c.Sound) (hc : Attending service c) :
    KeepsNodes service c (c.shiftsOnCall now c.tasks.length (.work s place)) (c.hire service now s place) :=
  (begin_keepsNodes service now (.work s place) hsound hc).recrew service s fun _ => rfl

/-- So are several that are hired one after the other. -/
theorem hirings_keepsNodes (now : Nat) (s : ServerId) (places : List Nat) (hsound : c.Sound)
    (hc : Attending service c) :
    KeepsNodes service c (hirings service now s places c) (places.foldl (hire service now s) c) := by
  induction places generalizing c with
  | nil => exact .refl service hc
  | cons place places ih =>
    have hfirst := hire_keepsNodes service now s place hsound hc
    exact hfirst.trans (ih (hire_sound service now s place hsound) hfirst.attending)

/-- Some tasks are cancelled. -/
theorem KeepsNodes.of_cancels {written : List Occurrence} (h : Cancels written c c') (hservers : KeepsServers c c')
    (hc : Attending service c) : KeepsNodes service c [] c' where
  serves _ _ := h.turn.steady.serves
  servers := hservers
  notes := .of_outward h.turn.story h.outward
  attending t job hjob := by
    rcases h.tasks t with hsame | ⟨-, hcancelled⟩
    · exact (hc t job (hsame ▸ hjob)).mono (fun _ _ => h.turn.steady.serves) hservers
    · cases hcancelled.symm.trans hjob
  fit := List.forall_mem_nil _
  departed t time why hdeparted := by
    rcases h.tasks t with hsame | ⟨-, hcancelled⟩
    · exact .inl (hsame ▸ hdeparted)
    · cases hcancelled.symm.trans hdeparted

/-- Cancelling a task leaves the servers alone. -/
theorem servers_cancel (t : TaskId) (c : Cluster σ) : (c.cancel t).1.servers = c.servers := by
  unfold Cluster.cancel
  split
  · show (c.abandon t _).servers = c.servers
    unfold abandon
    split <;> rfl
  · rfl

/-- Dismissing workers leaves the server with its node. -/
theorem dismissWorkers_servers (s : ServerId) (c : Cluster σ) : KeepsServers c (c.dismissWorkers s) := by
  refine dismissWorkers_induct (P := KeepsServers c) (.of_eq rfl) ?_ ?_
  · exact fun _ _ t _ c' h => h.trans (.of_eq (servers_cancel t c'))
  · exact fun c' h => h.trans (.modify s (f := fun server => { server with crew := [] }) (fun _ => rfl) c')

/-- Upkeep leaves every server with its node. -/
theorem upkeep_servers {event : Event σ} (h : event.IsUpkeep) (c : Cluster σ) :
    KeepsServers c (c.step service event) := by
  cases event with
  | serve node name state =>
    exact fun s server hs => ⟨server, getElem?_concat_of_some _ hs, rfl⟩
  | modifyState s f =>
    exact .modify s (f := fun server => { server with state := f server.state }) (fun _ => rfl) c
  | retire now s => exact shutdown_induct (P := KeepsServers c) (.of_eq rfl) fun _ _ => .of_eq rfl
  | divert | startWorkers | dismissWorkers | begin | turn | cancel => exact h.elim
  | _ => exact .of_eq rfl

/-- Nodes and servers come and go, and tasks stay where they are. -/
theorem KeepsNodes.of_resets {written : List Occurrence} (h : Resets written c.network c'.network)
    (htasks : c'.tasks = c.tasks) (hservers : KeepsServers c c') (hc : Attending service c) :
    KeepsNodes service c [] c' where
  serves := h.serves
  servers := hservers
  notes := h.notes
  attending t job hjob := (hc t job (htasks ▸ hjob)).mono h.serves hservers
  fit := List.forall_mem_nil _
  departed _ _ _ hdeparted := .inl (htasks ▸ hdeparted)

/-- Every event but a detour keeps everybody with their nodes, and shifts bring requests only to those
who worked in them. -/
theorem step_keepsNodes {event : Event σ} (hsound : c.Sound) (hc : Attending service c)
    (hstays : ∀ owner other, event ≠ .divert owner other) :
    KeepsNodes service c (c.shiftsOn service event) (c.step service event) := by
  have hupkeep (h : event.IsUpkeep) : KeepsNodes service c [] (c.step service event) := by
    obtain ⟨written, hresets⟩ := (step_upkeep service h c).resets
    exact .of_resets service hresets (tasks_upkeep service h c) (upkeep_servers service h c) hc
  cases event with
  | divert owner other => exact absurd rfl (hstays owner other)
  | startWorkers now s => exact hirings_keepsNodes service now s _ hsound hc
  | dismissWorkers s =>
    obtain ⟨written, hcancels⟩ := dismissWorkers_cancels s c
    exact .of_cancels service hcancels (dismissWorkers_servers s c) hc
  | begin now call => exact begin_keepsNodes service now call hsound hc
  | turn now t => exact turn_keepsNodes service now t hsound hc
  | cancel t =>
    obtain ⟨written, hcancels⟩ := cancel_cancels t c
    exact .of_cancels service hcancels (.of_eq (servers_cancel t c)) hc
  | _ => exact hupkeep trivial

/-! ## Runs -/

variable {settings : Settings} {dice : Nat → UInt64} {events : List (Event σ)}

/-- What steps keep, runs keep. -/
theorem run_keepsNodes (hsound : c.Sound) (hc : Attending service c)
    (hstays : ∀ owner other, Event.divert owner other ∉ events) :
    KeepsNodes service c (Cluster.shifts service events c) (c.run service events) := by
  induction events generalizing c with
  | nil => exact .refl service hc
  | cons event events ih =>
    obtain ⟨hfirst, hrest⟩ := stays_cons.mp hstays
    have hstep := step_keepsNodes service hsound hc hfirst
    exact hstep.trans (ih (step_sound service hsound hfirst) hstep.attending hrest)

end Cluster

end Replica
