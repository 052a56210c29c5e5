import Replica.Proofs.Cluster.Supervision
import Replica.Proofs.Cluster.Traffic
import Replica.Proofs.Traffic.Facing

/-!
# What senders hear

A task that sends a request sets out (`SetsOut`), by itself or over a link, and either hears at once how its
request ends or is under way from then on (`Job.Sends`). As long as it is, every event leaves it where it is,
gives it a turn, or cancels it (`step_sends`); a turn that ends the request is the last one, and the task
hears the outcome then, as it is told by itself or over its link. What a task has heard it has heard for good
(`heard_run`).

So whatever a task hears of a request that it has under way it hears in one last turn, and what was settled
before about its request holds in that turn (`last_turn`).
-/

namespace Replica

open Network

/-- The job has a request under way; `hear` is what it makes of the outcome. -/
inductive Job.Sends : Job → Sending → (Outcome → Outcome) → Prop where
  | direct (stage : Sending) : Job.Sends (.send stage) stage id
  | link (stage : Sending) : Job.Sends (.linkSend stage) stage Link.outcome
  | relay (d : DirectoryId) (via : PeerId) (stage : Sending) :
    Job.Sends (.relay d via (.sending stage)) stage Link.outcome

/-- How the task's request has ended, as far as the task has heard. -/
def TaskState.heard? : TaskState → Option Outcome
  | .running (.relay _ _ (.repairing _ sent)) => some sent
  | .finished _ (.outcome outcome) => some outcome
  | .finished _ (.relayed sent _) => some sent
  | _ => none

/-- The first turn of a sender, which may send over a link. -/
def Network.setOut (now : Nat) (way : Option (Link × Bool)) (r : Request) (net : Network) :
    Network × SendProgress :=
  match way with
  | none => net.beginSend now r
  | some (l, closed) => net.beginLinkSend now l closed r

/-- What a sender makes of an outcome. -/
def Link.hear : Option (Link × Bool) → Outcome → Outcome
  | none => id
  | some _ => Link.outcome

/-- A task whose request gets a detour goes on sending it. -/
theorem Job.Sends.divert {job : Job} {stage : Sending} {hear : Outcome → Outcome}
    (h : job.Sends stage hear) (owner : TaskId) (other : PeerId) :
    (job.divert owner other).Sends (stage.divert owner other) hear := by
  cases h with
  | direct stage => exact .direct _
  | link stage => exact .link _
  | relay d via stage => exact .relay d via _

/-- A detour does not change what a task has heard. -/
theorem TaskState.heard?_divert (state : TaskState) (owner : TaskId) (other : PeerId) :
    (state.divert owner other).heard? = state.heard? := by
  cases state with
  | running job =>
    cases job with
    | relay d via stage => cases stage <;> rfl
    | _ => rfl
  | _ => rfl

/-- A task that is sending has heard nothing yet. -/
theorem Job.Sends.heard?_eq_none {job : Job} {stage : Sending} {hear : Outcome → Outcome}
    (h : job.Sends stage hear) : (TaskState.running job).heard? = none := by
  cases h <;> rfl

namespace Cluster

variable {σ : Type} (service : Service σ) {c : Cluster σ} {now : Nat} {t : TaskId} {event : Event σ}
variable {state : TaskState} {job job' : Job} {stage stage' : Sending} {hear : Outcome → Outcome}
variable {o o' raw : Outcome} {r : Request}

/-- The task has a request under way. -/
def SendsAt (c : Cluster σ) (t : TaskId) (stage : Sending) (hear : Outcome → Outcome) : Prop :=
  ∃ job, c.tasks[t]? = some (.running job) ∧ job.Sends stage hear

/-- How the task's request has ended, as far as the task has heard. -/
def heard? (t : TaskId) (c : Cluster σ) : Option Outcome := c.tasks[t]?.bind TaskState.heard?

/-- What a task has heard is read off its state. -/
theorem heard?_of_found (found : c.tasks[t]? = some state) : c.heard? t = state.heard? := by
  rw [heard?, found]
  rfl

/-! ## Requests under way -/

variable {d : DirectoryId} {via : PeerId} {result : Network × SendProgress}

/-- A relay waits while its request does. -/
theorem afterRelay_waits (h : result.2 = .waiting stage) :
    (c.afterRelay now d via result).2 = .waiting (.relay d via (.sending stage)) := by
  obtain ⟨net, progress⟩ := result
  cases h
  rfl

/-- A relay has heard how its request has ended even if it goes on with a repair. -/
theorem afterRelay_ended (h : result.2 = .ended o) :
    (TaskState.ofProgress now (c.afterRelay now d via result).2).heard? = some o := by
  obtain ⟨net, progress⟩ := result
  cases h
  cases o with
  | ok reply => rfl
  | error e =>
    cases e with
    | core e =>
      simp only [afterRelay, waitForRepair]
      split <;> rfl
    | _ => rfl

/-- A task that sends changes the network as its sender does. -/
theorem resume_network (h : job.Sends stage hear) :
    (c.resume service now t job).1.network = (c.network.turnSend now stage).1 := by
  cases h with
  | direct stage => rfl
  | link stage => rfl
  | relay d via stage => exact network_afterRelay

/-- It waits as long as its sender does. -/
theorem resume_waits (h : job.Sends stage hear)
    (hwaits : (c.network.turnSend now stage).2 = .waiting stage') :
    ∃ job', (c.resume service now t job).2 = .waiting job' ∧ job'.Sends stage' hear := by
  cases h with
  | direct stage =>
    refine ⟨.send stage', ?_, .direct stage'⟩
    simp only [resume, afterNetwork, hwaits, Progress.map]
  | link stage =>
    refine ⟨.linkSend stage', ?_, .link stage'⟩
    simp only [resume, afterNetwork, turnLinkSend, Prod.map, hwaits, Progress.map, id]
  | relay d via stage =>
    refine ⟨.relay d via (.sending stage'), afterRelay_waits ?_, .relay d via stage'⟩
    simp only [turnLinkSend, Prod.map, hwaits, Progress.map, id]

/-- It has heard the outcome as soon as its sender has ended. -/
theorem resume_ended (h : job.Sends stage hear)
    (hended : (c.network.turnSend now stage).2 = .ended raw) :
    (TaskState.ofProgress now (c.resume service now t job).2).heard? = some (hear raw) := by
  cases h with
  | direct stage =>
    simp only [resume, afterNetwork, hended, Progress.map]
    rfl
  | link stage =>
    simp only [resume, afterNetwork, turnLinkSend, Prod.map, hended, Progress.map]
    rfl
  | relay d via stage =>
    refine afterRelay_ended ?_
    simp only [turnLinkSend, Prod.map, hended, Progress.map]

/-- In its last turn a sender hears how its request has ended. -/
theorem turn_ended (found : c.tasks[t]? = some (.running job)) (h : job.Sends stage hear)
    (hended : (c.network.turnSend now stage).2 = .ended raw) :
    (c.step service (.turn now t)).heard? t = some (hear raw) ∧
      (c.step service (.turn now t)).network = (c.network.turnSend now stage).1 := by
  have found' : (c.step service (.turn now t)).tasks[t]? =
      some (.ofProgress now (c.resume service now t job).2) := task_turned service found
  have hnetwork : (c.step service (.turn now t)).network = (c.resume service now t job).1.network :=
    network_turn service found
  exact ⟨(heard?_of_found found').trans (resume_ended service h hended),
    hnetwork.trans (resume_network service h)⟩

/-- What becomes of a request that is under way. -/
inductive Pursues (c : Cluster σ) (t : TaskId) (stage : Sending) (hear : Outcome → Outcome)
    (event : Event σ) (c' : Cluster σ) : Prop where
  | stays (h : c'.SendsAt t stage hear)
  | diverted (owner : TaskId) (other : PeerId) (h : c'.SendsAt t (stage.divert owner other) hear)
  /-- It has a turn and waits. -/
  | waits (now : Nat) (stage' : Sending) (hevent : event = .turn now t)
    (hwaits : (c.network.turnSend now stage).2 = .waiting stage') (h : c'.SendsAt t stage' hear)
  /-- It has its last turn. -/
  | ends (now : Nat) (raw : Outcome) (hevent : event = .turn now t)
    (hended : (c.network.turnSend now stage).2 = .ended raw)
    (hnetwork : c'.network = (c.network.turnSend now stage).1) (h : c'.heard? t = some (hear raw))
  | cancelled (h : c'.tasks[t]? = some .cancelled)

/-- In every event a task that sends goes on with its request, has heard how it ended, or is cancelled.
-/
theorem step_sends (h : c.SendsAt t stage hear) (event : Event σ) :
    Pursues c t stage hear event (c.step service event) := by
  obtain ⟨job, found, hjob⟩ := h
  obtain ⟨state', found', htaskChange⟩ := step_taskChange service found event
  cases htaskChange with
  | same event state => exact .stays ⟨job, found', hjob⟩
  | diverted owner other state =>
    exact .diverted owner other ⟨_, found', hjob.divert owner other⟩
  | turned now job hnetwork =>
    cases hprogress : (c.network.turnSend now stage).2 with
    | waiting stage' =>
      obtain ⟨job', hwaits, hjob'⟩ := resume_waits service hjob hprogress
      rw [hwaits] at found'
      exact .waits now stage' rfl hprogress ⟨job', found', hjob'⟩
    | ended raw =>
      have hheard := resume_ended service (t := t) hjob hprogress
      exact .ends now raw rfl hprogress (hnetwork.trans (resume_network service hjob))
        ((heard?_of_found found').trans hheard)
  | cancelled event job => exact .cancelled found'

/-! ## What has been heard -/

/-- A task that was cancelled stays so. -/
theorem step_cancelled (h : c.tasks[t]? = some .cancelled) (event : Event σ) :
    (c.step service event).tasks[t]? = some .cancelled := by
  obtain ⟨state', found', htaskChange⟩ := step_taskChange service h event
  cases htaskChange with
  | same event state => exact found'
  | diverted owner other state => exact found'

/-- A relay that waits for a repair has heard how its request has ended. -/
theorem step_heard (h : c.heard? t = some o) (event : Event σ) :
    (c.step service event).heard? t = some o ∨ (c.step service event).tasks[t]? = some .cancelled := by
  obtain ⟨state, found, hstate⟩ := Option.bind_eq_some_iff.mp h
  obtain ⟨state', found', htaskChange⟩ := step_taskChange service found event
  cases htaskChange with
  | same event state => exact .inl ((heard?_of_found found').trans hstate)
  | diverted owner other state =>
    exact .inl ((heard?_of_found found').trans ((state.heard?_divert owner other).trans hstate))
  | turned now job hnetwork =>
    refine .inl ((heard?_of_found found').trans ?_)
    cases job with
    | relay d via stage =>
      cases stage with
      | repairing k sent =>
        simp only [resume, resumeRelay, waitForRepair]
        split <;> exact hstate
      | _ => cases hstate
    | _ => cases hstate
  | cancelled event job => exact .inr found'

/-- It stays so along every run. -/
theorem cancelled_run (h : c.tasks[t]? = some .cancelled) (events : List (Event σ)) :
    (c.run service events).tasks[t]? = some .cancelled := by
  induction events generalizing c with
  | nil => exact h
  | cons event events ih => exact ih (step_cancelled service h event)

/-- A task hears of its request once. -/
theorem heard_run (h : c.heard? t = some o) (events : List (Event σ))
    (h' : (c.run service events).heard? t = some o') : o' = o := by
  induction events generalizing c with
  | nil => exact Option.some.inj (h'.symm.trans h)
  | cons event events ih =>
    rcases step_heard service h event with hheard | hcancelled
    · exact ih hheard h'
    · have hgone : (c.run service (event :: events)).tasks[t]? = some .cancelled :=
        cancelled_run service hcancelled events
      rw [heard?_of_found hgone] at h'
      cases h'

/-! ## Setting out -/

/-- The link that a call on the map has answered with. -/
def linkOf? (d : DirectoryId) (k : TaskId) (c : Cluster σ) : Option Link :=
  match c.proxyAnswer? d k with
  | some (.proxy (.ok h)) => c.link? d h
  | _ => none

/-- In the event the task sets out with the request, over the link if there is one. The link comes with
whether it is closed. -/
inductive SetsOut (c : Cluster σ) (t : TaskId) (now : Nat) :
    Event σ → Option (Link × Bool) → Request → Prop where
  | direct (r : Request) (ht : t = c.tasks.length) :
    SetsOut c t now (.begin now (.send r)) none { r with owner := some t }
  | link (l : Link) (r : Request) (ht : t = c.tasks.length) :
    SetsOut c t now (.begin now (.linkSend l r)) (some (l, c.isShut l)) { r with owner := some t }
  /-- A relay has its link at once. -/
  | relay (d : DirectoryId) (via : PeerId) (r : Request) (l : Link) (ht : t = c.tasks.length)
    (hl : (c.beginProxyCall now d (.lookUp via)).1.linkOf? d
      (c.beginProxyCall now d (.lookUp via)).2 = some l) :
    SetsOut c t now (.begin now (.relay d via r))
      (some (l, (c.beginProxyCall now d (.lookUp via)).1.isShut l)) { r with owner := some t }
  | connected (d : DirectoryId) (via : PeerId) (k : TaskId) (r : Request) (l : Link)
    (found : c.tasks[t]? = some (.running (.relay d via (.connecting k r))))
    (hl : (c.turnProxyCall now d k).linkOf? d k = some l) :
    SetsOut c t now (.turn now t) (some (l, (c.turnProxyCall now d k).isShut l)) r

variable {way : Option (Link × Bool)} {k : TaskId} {l : Link}

/-- A relay that has its link sends over it as if it were begun with the link. -/
theorem waitForLink_eq (via : PeerId) (h : c.linkOf? d k = some l) :
    c.waitForLink now d via k r =
      c.afterRelay now d via (c.network.beginLinkSend now l (c.isShut l) r) := by
  unfold linkOf? at h
  split at h
  · next h' hanswer => simp only [waitForLink, hanswer, h]
  · cases h

/-- A task that has set out is under way, or has heard how its request ends. -/
structure Departs (t : TaskId) (way : Option (Link × Bool)) (result : Network × SendProgress)
    (c : Cluster σ) : Prop where
  network : c.network = result.1
  waits : ∀ stage, result.2 = .waiting stage → c.SendsAt t stage (Link.hear way)
  ends : ∀ o, result.2 = .ended o → c.heard? t = some o

/-- A task departs with its request as soon as its first turn has sent it. -/
theorem departs_of_undertake {call : Call} {result : Network × SendProgress}
    (hnetwork : (c.undertake service now c.tasks.length call).1.network = result.1)
    (hwaits : ∀ stage, result.2 = .waiting stage →
      ∃ job, (c.undertake service now c.tasks.length call).2 = .waiting job ∧
        job.Sends stage (Link.hear way))
    (hends : ∀ o, result.2 = .ended o →
      (TaskState.ofProgress now (c.undertake service now c.tasks.length call).2).heard? = some o) :
    Departs c.tasks.length way result (c.begin service now call) := by
  have found : (c.begin service now call).tasks[c.tasks.length]? =
      some (.ofProgress now (c.undertake service now c.tasks.length call).2) := task_begun service
  refine ⟨hnetwork, fun stage hstage => ?_, fun o ho => (heard?_of_found found).trans (hends o ho)⟩
  obtain ⟨job, hwaits, hjob⟩ := hwaits stage hstage
  rw [hwaits] at found
  exact ⟨job, found, hjob⟩

/-- A sender that is not a relay goes on with what has come of its first turn. -/
theorem departs_of_afterNetwork {call : Call} {result : Network × SendProgress}
    {stage : Sending → Job} (hjob : ∀ s, (stage s).Sends s (Link.hear way))
    (hcall : c.undertake service now c.tasks.length call = c.afterNetwork stage .outcome result) :
    Departs c.tasks.length way result (c.begin service now call) := by
  apply departs_of_undertake service
  · rw [hcall]
    rfl
  · intro s hs
    exact ⟨stage s, by simp only [hcall, afterNetwork, hs, Progress.map], hjob s⟩
  · intro o ho
    simp only [hcall, afterNetwork, ho, Progress.map]
    rfl

/-- A task that sets out with a request departs with it, over the link if there is one. -/
theorem SetsOut.departs (h : SetsOut c t now event way r) :
    Departs t way (c.network.setOut now way r) (c.step service event) := by
  cases h with
  | direct r ht =>
    subst ht
    show Departs c.tasks.length _ _ (c.begin service now (.send r))
    exact departs_of_afterNetwork service (fun s => .direct s) rfl
  | link l r ht =>
    subst ht
    show Departs c.tasks.length _ _ (c.begin service now (.linkSend l r))
    exact departs_of_afterNetwork service (fun s => .link s) rfl
  | relay d via r l ht hl =>
    subst ht
    have hcall : c.undertake service now c.tasks.length (.relay d via r) = _ := waitForLink_eq via hl
    show Departs c.tasks.length _ _ (c.begin service now (.relay d via r))
    apply departs_of_undertake service
    · rw [hcall]
      exact network_afterRelay
    · intro s hs
      exact ⟨_, hcall ▸ afterRelay_waits hs, .relay d via s⟩
    · intro o ho
      rw [hcall]
      exact afterRelay_ended ho
  | connected d via k r l found hl =>
    have hturn : c.resume service now t (.relay d via (.connecting k r)) = _ := waitForLink_eq via hl
    have found' : (c.turn service now t).tasks[t]? =
        some (.ofProgress now (c.resume service now t (.relay d via (.connecting k r))).2) :=
      task_turned service found
    have hnetwork : (c.turn service now t).network =
        (c.resume service now t (.relay d via (.connecting k r))).1.network := network_turn service found
    rw [hturn] at found' hnetwork
    refine ⟨hnetwork.trans network_afterRelay, fun s hs => ?_,
      fun o ho => (heard?_of_found found').trans (afterRelay_ended ho)⟩
    exact ⟨_, found'.trans (congrArg (fun p => some (TaskState.ofProgress now p)) (afterRelay_waits hs)),
      .relay d via s⟩

/-! ## Runs -/

variable {settings : Settings} {dice : Nat → UInt64} {events before after : List (Event σ)}
variable {P : Sending → Network → Prop}

/-- A sender has before it what its network says. -/
theorem faces_reached (h : (reached service settings dice events).SendsAt t stage hear) :
    stage.Faces (reached service settings dice events).network := by
  obtain ⟨history, hmirrors⟩ := reached_mirrors service settings dice events
  obtain ⟨job, found, hjob⟩ := h
  have hcarries := hmirrors.tasks t job found
  have hsends : (Traffic.reached settings dice history).SendsAt t stage := by
    cases hjob <;> exact hcarries
  rw [← hmirrors.network]
  exact hsends.faces (Traffic.lawful_reached settings dice history)
    (Traffic.warned_reached settings dice history)

/-- The network of a cluster is sealed, its slips are unique, and it lists the nodes that are open. -/
theorem lawful_network (settings : Settings) (dice : Nat → UInt64) (events : List (Event σ)) :
    (reached service settings dice events).network.Sealed ∧
      (reached service settings dice events).network.SlipsUnique ∧
      (reached service settings dice events).network.ListedOpen := by
  obtain ⟨history, hmirrors⟩ := reached_mirrors service settings dice events
  have hx := Traffic.lawful_reached settings dice history
  rw [← hmirrors.network]
  exact ⟨hx.closings, hx.accounted.slipsUnique, hx.listedOpen⟩

/-- In an event, slips that are settled stay so, and mailboxes that are closed stay closed. -/
theorem settles_reached (settings : Settings) (dice : Nat → UInt64) (events : List (Event σ))
    (event : Event σ) :
    Settles (reached service settings dice events).network
      (reached service settings dice (events ++ [event])).network := by
  obtain ⟨history, hmirrors⟩ := reached_mirrors service settings dice events
  obtain ⟨more, hmirrors'⟩ := hmirrors.step service event
  rw [reached_concat, ← hmirrors.network, ← hmirrors'.network]
  exact (Traffic.lawful_reached settings dice history).settles more

/-- So they do along a run. -/
theorem settles_run (settings : Settings) (dice : Nat → UInt64) (before after : List (Event σ)) :
    Settles (reached service settings dice before).network
      (reached service settings dice (before ++ after)).network := by
  induction after using List.reverseRecOn with
  | nil =>
    rw [List.append_nil]
    exact .refl _
  | append_singleton after event ih =>
    rw [← List.append_assoc]
    exact ih.trans (settles_reached service settings dice _ event)

/-- What holds of a sender lasts as long as it is under way. -/
structure Lasts (P : Sending → Network → Prop) : Prop where
  settles : ∀ stage net net', P stage net → stage.Faces net → net.Sealed → Settles net net' → P stage net'
  divert : ∀ stage net owner other, P stage net → P (stage.divert owner other) net
  turn : ∀ stage stage' net net' now, P stage net → stage.Faces net → net.Sealed →
    (net.turnSend now stage).2 = .waiting stage' → Settles net net' → P stage' net'

/-- What was handed over to a sender lasts until the sender has read it. -/
theorem lasts_handed (raw : Outcome) : Lasts fun stage net => stage.Handed net raw where
  settles _ _ _ h _ _ := h.settles
  divert _ _ owner other h := h.divert owner other
  turn _ _ _ _ now h _ _ hwaits _ := nomatch (h.turn now).symm.trans hwaits

/-- A sender that is cut off stays cut off. -/
theorem lasts_cutOff : Lasts fun stage net => stage.CutOff net where
  settles _ _ _ := Sending.CutOff.settles
  divert _ _ owner other h := h.divert owner other
  turn _ _ _ _ _ h hfaces hsealed hwaits hsettles := by
    rw [hfaces.turn_cutOff hsealed h hwaits]
    exact h.settles hfaces hsealed hsettles

/-- After `before`, the events have one in which the task hears the outcome of the request that it has
under way, and until then `P` holds. -/
inductive LastTurn (service : Service σ) (settings : Settings) (dice : Nat → UInt64)
    (before : List (Event σ)) (t : TaskId) (hear : Outcome → Outcome) (P : Sending → Network → Prop)
    (o : Outcome) : List (Event σ) → Prop where
  | intro {stage : Sending} {raw : Outcome} (mid rest : List (Event σ)) (now : Nat)
    (hsends : (reached service settings dice (before ++ mid)).SendsAt t stage hear)
    (hstage : P stage (reached service settings dice (before ++ mid)).network)
    (hended : ((reached service settings dice (before ++ mid)).network.turnSend now stage).2 = .ended raw)
    (ho : o = hear raw) : LastTurn service settings dice before t hear P o (mid ++ .turn now t :: rest)

/-- A last turn is still the last one when there was another event before it. -/
theorem LastTurn.cons (h : LastTurn service settings dice (before ++ [event]) t hear P o after) :
    LastTurn service settings dice before t hear P o (event :: after) := by
  cases h with
  | intro mid rest now hsends hstage hended ho =>
    rw [List.append_assoc, List.singleton_append] at hsends hstage hended
    exact .intro (event :: mid) rest now hsends hstage hended ho

/-- A task that has heard of its request has had a last turn, in which it heard of it. -/
theorem last_turn (hP : Lasts P) (hsends : (reached service settings dice before).SendsAt t stage hear)
    (hstage : P stage (reached service settings dice before).network)
    (hheard : (reached service settings dice (before ++ after)).heard? t = some o) :
    LastTurn service settings dice before t hear P o after := by
  induction after generalizing before stage with
  | nil =>
    obtain ⟨job, found, hjob⟩ := hsends
    rw [List.append_nil, heard?_of_found found, hjob.heard?_eq_none] at hheard
    cases hheard
  | cons event after ih =>
    have hfaces := faces_reached service hsends
    have hsealed := (lawful_network service settings dice before).1
    have hsettles := settles_reached service settings dice before event
    have hsplit : before ++ event :: after = (before ++ [event]) ++ after := by
      rw [List.append_assoc]
      rfl
    rw [hsplit] at hheard
    have hpursues := step_sends service hsends event
    rw [← reached_concat] at hpursues
    cases hpursues with
    | stays h => exact (ih h (hP.settles _ _ _ hstage hfaces hsealed hsettles) hheard).cons
    | diverted owner other h =>
      have hlasts := hP.settles _ _ _ hstage hfaces hsealed hsettles
      exact (ih h (hP.divert _ _ owner other hlasts) hheard).cons
    | waits now stage' hevent hwaits h =>
      exact (ih h (hP.turn _ _ _ _ now hstage hfaces hsealed hwaits hsettles) hheard).cons
    | ends now raw hevent hended hnetwork h =>
      subst hevent
      rw [reached_append] at hheard
      have hhere : reached service settings dice (before ++ []) = reached service settings dice before := by
        rw [List.append_nil]
      rw [← hhere] at hsends hstage hended
      exact .intro [] after now hsends hstage hended (heard_run service h after hheard)
    | cancelled h =>
      rw [reached_append, heard?_of_found (cancelled_run service h after)] at hheard
      cases hheard

end Cluster

end Replica
