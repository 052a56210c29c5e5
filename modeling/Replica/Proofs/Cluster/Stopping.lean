import Replica.Proofs.Cluster.Supervision

/-!
# Servers that stop

A worker looks whether its service is alive when it goes round, and not between being handed a request and
giving it to the service. So when a service has stopped, whoever waits for a request then may still be
handed one, and the service gets it; after that, and for all other workers, there are no more
(`stopped_servers_wind_down`). How many requests a worker can still give to its service without looking is
its allowance (`Poise.awaited`): no stride of a worker whose service is not alive adds to it.
-/

namespace Replica

open Network

variable {σ : Type} (service : Service σ)

/-! ## Strides -/

/-- How many requests a worker may give to its service before it looks again whether that is alive. -/
def Poise.awaited : Poise → Nat
  | .stands (.taking _) | .holds _ => 1
  | _ => 0

/-- After a turn of its taker, a worker may give at most one request to its service before it looks
again. -/
theorem Poise.awaited_ofTake (progress : TakeProgress) : (ofTake progress).awaited ≤ 1 := by
  match progress with
  | .waiting stage => exact Nat.le_refl 1
  | .ended (.ok r) => exact Nat.le_refl 1
  | .ended (.error e) => exact Nat.zero_le 1

/-- A worker that replies gives nothing to its service until it has looked again. -/
theorem Poise.awaited_ofReply (progress : ReplyProgress) : (ofReply progress).awaited = 0 := by
  match progress with
  | .waiting stage => rfl
  | .ended (.ok ()) => rfl
  | .ended (.error e) => rfl

/-- A worker that works has given its request away already. -/
theorem Poise.awaited_ofWork (now : Nat) (r : Request) (work : Work) : (ofWork now r work).awaited = 0 := by
  unfold ofWork
  split <;> rfl

/-- The task gives requests to its service, and what it may give then is what it might before, less these. -/
def Network.Spends (t : TaskId) (net : Network) (before : Nat) (net' : Network) (after : Nat) : Prop :=
  ∃ given, hands t net'.story = hands t net.story ++ given ∧ given.length + after ≤ before

namespace Network.Spends

variable {t : TaskId} {net net' net'' : Network} {before after later : Nat}

/-- Traffic gives nothing to a service, so the allowance may only shrink. -/
theorem of_writesTraffic (h : WritesTraffic net net') (hle : after ≤ before) : Spends t net before net' after :=
  ⟨[], by rw [h.hands, List.append_nil], by rwa [List.length_nil, Nat.zero_add]⟩

theorem refl (t : TaskId) (net : Network) (before : Nat) : Spends t net before net before :=
  .of_writesTraffic (.refl net) (Nat.le_refl before)

/-- What is given in two steps is taken from the one allowance. -/
theorem trans (h : Spends t net before net' after) (h' : Spends t net' after net'' later) :
    Spends t net before net'' later := by
  obtain ⟨given, hgiven, hle⟩ := h
  obtain ⟨given', hgiven', hle'⟩ := h'
  refine ⟨given ++ given', by rw [hgiven', hgiven, List.append_assoc], ?_⟩
  rw [List.length_append]
  omega

end Network.Spends

namespace Desk

variable {now : Nat} {badge : Badge} {start finish : Poise × Desk σ}

/-- As a worker engages its service, it gives it the one request, and writes only traffic after that. -/
theorem engage_writesTraffic (now : Nat) (badge : Badge) (r : Request) (desk : Desk σ) :
    WritesTraffic (desk.network.note now (.handled badge.task r)) (desk.engage service now badge r).network := by
  have hraised (errors : List ServerError) (net : Network) :
      WritesTraffic net (errors.foldl (fun net e => net.note now (.raised e)) net) := by
    induction errors generalizing net with
    | nil => exact .refl net
    | cons e errors ih => exact (WritesTraffic.note net now (.raised e)).trans (ih _)
  exact hraised (service.serve r desk.state).2.raised _

/-- A stride of a worker whose service is not alive takes from its allowance what the service gets. -/
theorem Stride.spends (h : Stride service now badge start finish)
    (hdead : service.isAlive start.2.state = false) :
    Spends badge.task start.2.network start.1.awaited finish.2.network finish.1.awaited := by
  cases h with
  | begin alive => cases hdead.symm.trans alive
  | @take desk stage =>
    exact .of_writesTraffic (turnTake_writesTraffic now badge.task stage desk.network) (Poise.awaited_ofTake _)
  | @engage desk r =>
    refine ⟨[r.plain], ?_, ?_⟩
    · rw [(engage_writesTraffic service now badge r desk).hands, story_note, hands_append]
      simp [hands, Occurrence.handed?]
    · rw [Poise.awaited_ofWork]
      exact Nat.le_refl 1
  | @reply desk r reply =>
    rw [Poise.awaited_ofReply]
    exact .of_writesTraffic (beginReply_writesTraffic now r (.ok reply) desk.network) (Nat.le_refl 0)
  | @fail desk r e harmless =>
    rw [Poise.awaited_ofReply]
    exact .of_writesTraffic (beginReply_writesTraffic now r (.error e) desk.network) (Nat.le_refl 0)
  | @answer desk stage =>
    rw [Poise.awaited_ofReply]
    exact .of_writesTraffic (turnReply_writesTraffic now stage desk.network) (Nat.le_refl 0)
  | terminate inside alive => cases hdead.symm.trans alive
  | stop | wake | silence | falter | panic | crash | interrupt | hush => exact .refl _ _ _

/-- So do several strides, if the service is not alive on the way. -/
theorem Strides.spends (h : Strides service now badge start finish)
    (hdead : ∀ x, Strides service now badge start x → Strides service now badge x finish →
      service.isAlive x.2.state = false) :
    Spends badge.task start.2.network start.1.awaited finish.2.network finish.1.awaited := by
  induction h with
  | refl => exact .refl _ _ _
  | tail hinit hlast ih =>
    refine (ih fun x hx hx' => hdead x hx (hx'.tail hlast)).trans ?_
    exact hlast.spends service (hdead _ hinit (.single hlast))

/-- If no request brings the service back, strides do not. -/
theorem Strides.dead (hlasting : ∀ r state, service.isAlive state = false →
      service.isAlive (service.serve r state).1 = false)
    (h : Strides service now badge start finish) (hdead : service.isAlive start.2.state = false) :
    service.isAlive finish.2.state = false := by
  induction h with
  | refl => exact hdead
  | tail _ hlast ih =>
    cases hlast with
    | engage r => exact hlasting r _ ih
    | _ => exact ih

end Desk

/-! ## Turns of tasks -/

/-- At no time in the turn is the service alive. -/
def Shift.IsHalted (s : Shift σ) : Prop :=
  ∀ x, Desk.Strides service s.now s.badge (.stands s.stage, s.desk) x →
    Desk.Strides service s.now s.badge x (.ofProgress (s.result service).2, (s.result service).1) →
      service.isAlive x.2.state = false

/-- A shift is a run of strides of its worker. -/
theorem Shift.strides (s : Shift σ) : Desk.Strides service s.now s.badge (.stands s.stage, s.desk)
    (.ofProgress (s.result service).2, (s.result service).1) :=
  Desk.turn_strides service s.now s.badge s.stage s.desk

/-- A worker that goes round while its service is not alive leaves at once. -/
theorem Shift.IsHalted.finish_of_idle {s : Shift σ} (h : s.IsHalted service) (hidle : s.stage = .idle) :
    s.finish service = (s.desk, .leaves .stopped) := by
  have hdead : service.isAlive s.desk.state = false := h _ .refl (s.strides service)
  unfold Shift.finish Shift.result Desk.turn Desk.goRound
  simp only [hidle, Desk.advance, hdead, Bool.false_eq_true, if_false]
  rfl

/-- How many requests a task may give to its service before it looks whether that is alive: one if it is a
worker that waits for a request. -/
def TaskState.awaited : TaskState → Nat
  | .running (.work _ _ (.taking _)) => 1
  | _ => 0

/-- A task that does not work has no allowance. -/
theorem Job.awaited_of_not_isWork {job : Job} (h : job.isWork = false) :
    (TaskState.running job).awaited = 0 := by
  cases job with
  | work s place stage => cases h
  | _ => rfl

/-- A detour does not change how much a task may give to its service. -/
theorem TaskState.awaited_divert (owner : TaskId) (other : PeerId) (state : TaskState) :
    (state.divert owner other).awaited = state.awaited := by
  cases state with
  | running job =>
    cases job with
    | work s place stage => cases stage <;> rfl
    | _ => rfl
  | _ => rfl

namespace Cluster

variable {c c' c'' : Cluster σ} {now : Nat} {t u : TaskId} {shifts : List (Shift σ)}
variable {result : Cluster σ × JobProgress} {before : Nat} {event : Event σ} {s : ServerId}

/-- How many requests the task may give to its service before it looks whether that is alive. -/
def awaited (t : TaskId) (c : Cluster σ) : Nat := (c.tasks[t]?.map TaskState.awaited).getD 0

/-- The allowance of a task is read off its state. -/
theorem awaited_of_found {state : TaskState} (found : c.tasks[t]? = some state) :
    c.awaited t = state.awaited := by
  rw [awaited, found]
  rfl

/-- A turn of a task that may give `before` requests to its service, and the shift that it is, if it is one. -/
structure Gives (now : Nat) (t : TaskId) (net : Network) (before : Nat) (shifts : List (Shift σ))
    (result : Cluster σ × JobProgress) : Prop where
  own : (∀ s ∈ shifts, s.IsHalted service) →
    Spends t net before result.1.network (TaskState.ofProgress now result.2).awaited
  badges : ∀ s ∈ shifts, s.badge.task = t
  others : ∀ u, u ≠ t → hands u result.1.network.story = hands u net.story

/-- A turn of a task that does not work gives nothing to any service. -/
theorem Idles.gives (h : Idles c result) : Gives service now t c.network 0 [] result where
  own _ := by
    refine .of_writesTraffic h.writesTraffic (Nat.le_of_eq ?_)
    obtain ⟨c', progress⟩ := result
    cases progress with
    | waiting job => exact job.awaited_of_not_isWork h.rests
    | ended a => rfl
  badges := List.forall_mem_nil _
  others u _ := h.writesTraffic.hands u

/-- A worker that goes on gives to its service at most what it was allowed, if the service is not alive.
-/
theorem work_gives (now : Nat) (t : TaskId) (s : ServerId) (place : Nat) (stage : Working)
    (c : Cluster σ) : Gives service now t c.network (TaskState.running (.work s place stage)).awaited
      (c.shift? now t s place stage).toList (c.work service now t s place stage) := by
  unfold shift? work
  cases c.servers[s]? with
  | none => exact ⟨fun _ => .refl _ _ _, List.forall_mem_nil _, fun _ _ => rfl⟩
  | some server =>
    let shift : Shift σ :=
      { now
        server := s
        badge := { node := server.node, server := server.name, place, task := t }
        stage
        desk := { network := c.network, state := server.state, exit := c.exit } }
    have hstrides := shift.strides service
    show Gives service now t c.network _ [shift] _
    refine ⟨fun hdead => ?_, List.forall_mem_singleton.mpr rfl, fun u hu => ?_⟩
    · have hspends := Desk.Strides.spends service hstrides (hdead shift List.mem_cons_self)
      have hbefore : (Poise.stands stage).awaited = (TaskState.running (.work s place stage)).awaited := by
        cases stage <;> rfl
      have hafter : (Poise.ofProgress (shift.result service).2).awaited =
          (shift.state service).awaited := by
        unfold Shift.state
        cases (shift.result service).2 with
        | waiting stage => cases stage <;> rfl
        | ended why => rfl
      rw [hafter] at hspends
      exact hbefore ▸ hspends
    · obtain ⟨written, hcustody⟩ := hstrides.passes service
      show hands u (shift.result service).1.network.story = _
      exact (congrArg (hands u) hcustody.story).trans
        (by rw [hands_append, (hcustody.apart u hu).2, List.append_nil])

/-- A task that begins has given nothing, and may give what its shifts say. -/
theorem undertake_gives (now : Nat) (t : TaskId) (call : Call) (c : Cluster σ) :
    Gives service now t c.network 0 (c.shiftsOnCall now t call) (c.undertake service now t call) := by
  cases call with
  | work s place => exact work_gives service now t s place .idle c
  | _ => exact (undertake_idles service now t c rfl).gives service

/-- A task that goes on gives what its shift says. -/
theorem resume_gives (now : Nat) (t : TaskId) (job : Job) (c : Cluster σ) :
    Gives service now t c.network (TaskState.running job).awaited (c.shiftsOnJob now t job)
      (c.resume service now t job) := by
  cases job with
  | work s place stage => exact work_gives service now t s place stage c
  | _ => exact (resume_idles service now t c rfl).gives service

/-! ## Events -/

/-- What the task gives to its service from one cluster to the next is taken from its allowance. -/
def SpendsAllowance (t : TaskId) (c c' : Cluster σ) : Prop :=
  Spends t c.network (c.awaited t) c'.network (c'.awaited t)

theorem SpendsAllowance.refl (t : TaskId) (c : Cluster σ) : SpendsAllowance t c c := Spends.refl _ _ _

/-- An allowance that is spent in two steps is spent altogether. -/
theorem SpendsAllowance.trans (h : SpendsAllowance t c c') (h' : SpendsAllowance t c' c'') :
    SpendsAllowance t c c'' :=
  Spends.trans h h'

/-- Nothing is given, and the task has no more to take. -/
theorem SpendsAllowance.of_hands (hhands : hands t c'.network.story = hands t c.network.story)
    (hle : c'.awaited t ≤ c.awaited t) : SpendsAllowance t c c' :=
  ⟨[], by rw [hhands, List.append_nil], by rwa [List.length_nil, Nat.zero_add]⟩

/-- Whatever only resets nodes gives nothing to a service. -/
theorem SpendsAllowance.of_resets {written : List Occurrence} (h : Resets written c.network c'.network)
    (htasks : c'.tasks = c.tasks) : SpendsAllowance t c c' := by
  refine .of_hands ?_ (Nat.le_of_eq (by rw [awaited, htasks, awaited]))
  rw [h.story, hands_append, h.hands, List.append_nil]

/-- A task has had its turn. -/
theorem Gives.spendsAllowance (h : Gives service now u c.network (c.awaited u) shifts result)
    (hdead : ∀ s ∈ shifts, s.badge.task = t → s.IsHalted service) (hnetwork : c'.network = result.1.network)
    (htask : c'.tasks[u]? = some (.ofProgress now result.2))
    (hothers : ∀ v : TaskId, v ≠ u → c'.tasks[v]? = c.tasks[v]?) : SpendsAllowance t c c' := by
  by_cases ht : t = u
  · subst ht
    unfold SpendsAllowance
    rw [hnetwork, awaited_of_found htask]
    exact h.own fun s hs => hdead s hs (h.badges s hs)
  · refine .of_hands (hnetwork ▸ h.others t ht) (Nat.le_of_eq ?_)
    rw [awaited, hothers t ht, awaited]

/-- A call that begins gives a halted service nothing beyond the allowance. -/
theorem begin_spendsAllowance (now : Nat) (call : Call)
    (hdead : ∀ s ∈ c.shiftsOnCall now c.tasks.length call, s.badge.task = t → s.IsHalted service) :
    SpendsAllowance t c (c.begin service now call) := by
  have hnew : c.tasks[c.tasks.length]? = none := List.getElem?_eq_none (Nat.le_refl _)
  have hnone : c.awaited c.tasks.length = 0 := by rw [awaited, hnew]; rfl
  have hgives := undertake_gives service now c.tasks.length call c
  rw [← hnone] at hgives
  exact hgives.spendsAllowance service hdead rfl (task_begun service) fun v hv => task_begin_of_ne service hv

/-- A turn of a task gives a halted service nothing beyond the allowance. -/
theorem turn_spendsAllowance (now : Nat) (u : TaskId)
    (hdead : ∀ s ∈ c.shiftsOnTurn now u, s.badge.task = t → s.IsHalted service) :
    SpendsAllowance t c (c.turn service now u) := by
  by_cases running : ∃ job, c.tasks[u]? = some (.running job)
  · obtain ⟨job, found⟩ := running
    have hgives := resume_gives service now u job c
    rw [← awaited_of_found found] at hgives
    rw [shiftsOnTurn_of_running found] at hdead
    exact hgives.spendsAllowance service hdead (network_turn service found) (task_turned service found)
      fun v hv => task_turn_of_ne service found hv
  · rw [turn_of_not_running service running]
    exact .refl t c

/-- Neither do workers that are hired. -/
theorem hirings_spendsAllowance (now : Nat) (s : ServerId) (places : List Nat)
    (hdead : ∀ shift ∈ hirings service now s places c, shift.badge.task = t → shift.IsHalted service) :
    SpendsAllowance t c (places.foldl (hire service now s) c) := by
  induction places generalizing c with
  | nil => exact .refl t c
  | cons place places ih =>
    obtain ⟨hfirst, hrest⟩ := List.forall_mem_append.mp hdead
    have hhired : SpendsAllowance t c (c.hire service now s place) :=
      begin_spendsAllowance service now (.work s place) hfirst
    exact hhired.trans (ih hrest)

/-- A task that is cancelled gives nothing to its service. -/
theorem cancel_spendsAllowance (u : TaskId) (c : Cluster σ) : SpendsAllowance t c (c.cancel u).1 := by
  obtain ⟨written, hcancels⟩ := cancel_cancels u c
  have htraffic : WritesTraffic c.network (c.cancel u).1.network := by
    unfold Cluster.cancel
    split
    · exact (abandon_effects u _ c).writesTraffic
    · exact .refl c.network
  refine .of_hands (htraffic.hands t) ?_
  rcases hcancels.tasks t with hsame | ⟨-, hcancelled⟩
  · rw [awaited, hsame, awaited]
  · rw [awaited_of_found hcancelled]
    exact Nat.zero_le _

/-- Neither do workers that are dismissed. -/
theorem dismissWorkers_spendsAllowance (s : ServerId) (c : Cluster σ) :
    SpendsAllowance t c (c.dismissWorkers s) := by
  refine dismissWorkers_induct (P := SpendsAllowance t c) (.refl t c) ?_ fun _ => id
  exact fun _ _ u _ c' hc' => hc'.trans (cancel_spendsAllowance u c')

/-- Whatever happens takes from the allowance of a task, as long as the service is not alive in the turns
that the task has. -/
theorem step_spendsAllowance (hdead : ∀ s ∈ c.shiftsOn service event, s.badge.task = t → s.IsHalted service) :
    SpendsAllowance t c (c.step service event) := by
  have hupkeep (h : event.IsUpkeep) : SpendsAllowance t c (c.step service event) := by
    obtain ⟨written, hresets⟩ := (step_upkeep service h c).resets
    exact .of_resets hresets (tasks_upkeep service h c)
  cases event with
  | divert owner other =>
    refine .of_hands rfl (Nat.le_of_eq ?_)
    show ((c.tasks.map (TaskState.divert owner other))[t]?.map TaskState.awaited).getD 0 = c.awaited t
    rw [List.getElem?_map, Option.map_map, awaited]
    simp only [Function.comp_def, TaskState.awaited_divert]
  | startWorkers now s => exact hirings_spendsAllowance service now s _ hdead
  | dismissWorkers s => exact dismissWorkers_spendsAllowance s c
  | begin now call => exact begin_spendsAllowance service now call hdead
  | turn now u => exact turn_spendsAllowance service now u hdead
  | cancel u => exact cancel_spendsAllowance u c
  | _ => exact hupkeep trivial

/-- Along a run in which the service of the task is halted, the task gives it no more than it was
allowed at first. -/
theorem run_spendsAllowance {events : List (Event σ)}
    (hdead : ∀ s ∈ Cluster.shifts service events c, s.badge.task = t → s.IsHalted service) :
    SpendsAllowance t c (c.run service events) := by
  induction events generalizing c with
  | nil => exact .refl t c
  | cons event events ih =>
    obtain ⟨hfirst, hrest⟩ := List.forall_mem_append.mp hdead
    exact (step_spendsAllowance service hfirst).trans (ih hrest)

/-! ## Stopped servers -/

/-- Along the events the service of the server is not alive, at no time in any turn of a worker. -/
def Stopped (s : ServerId) (events : List (Event σ)) (c : Cluster σ) : Prop :=
  ∀ shift ∈ Cluster.shifts service events c, shift.server = s → shift.IsHalted service

/-- The service of the server is not alive. -/
def IsHalted (s : ServerId) (c : Cluster σ) : Prop :=
  ∀ server, c.servers[s]? = some server → service.isAlive server.state = false

section

variable {service} (hlasting : ∀ r state, service.isAlive state = false →
  service.isAlive (service.serve r state).1 = false)
include hlasting

/-- If the service is not alive as a shift begins, it is not during the shift. -/
theorem Shift.isHalted {shift : Shift σ} (hdead : service.isAlive shift.desk.state = false) :
    shift.IsHalted service :=
  fun _ hx _ => hx.dead service hlasting hdead

/-- A server stays halted as others are hired. -/
theorem isHalted_hire (now : Nat) (place : Nat) (hdead : c.IsHalted service s) :
    (c.hire service now s place).IsHalted service s := by
  intro server' hserver'
  obtain ⟨server, hserver, rfl⟩ := getElem?_modify_eq_some_iff.mp hserver'
  rw [if_pos rfl]
  change (c.work service now c.tasks.length s place .idle).1.servers[s]? = some server at hserver
  unfold Cluster.work at hserver
  cases found : c.servers[s]? with
  | none =>
    rw [found] at hserver
    exact hdead server hserver
  | some old =>
    rw [found] at hserver
    dsimp only at hserver
    rw [List.getElem?_set_self (lt_length_of_getElem? found)] at hserver
    cases hserver
    let shift : Shift σ :=
      { now
        server := s
        badge := { node := old.node, server := old.name, place, task := c.tasks.length }
        stage := .idle
        desk := { network := c.network, state := old.state, exit := c.exit } }
    exact (shift.strides service).dead service hlasting (hdead old found)

/-- A shift at a halted server is halted. -/
theorem isHalted_of_shift? {place : Nat} {stage : Working} (hdead : c.IsHalted service s) {s' : ServerId}
    {shift : Shift σ} (hshift : shift ∈ (c.shift? now t s' place stage).toList) (hserver : shift.server = s) :
    shift.IsHalted service := by
  obtain ⟨server, found, rfl⟩ := Option.map_eq_some_iff.mp (Option.mem_toList.mp hshift)
  cases hserver
  exact Shift.isHalted hlasting (hdead server found)

/-- So is the first shift of any worker that is hired there. -/
theorem isHalted_of_mem_hirings (now : Nat) {s' : ServerId} (places : List Nat)
    (hdead : s' = s → c.IsHalted service s) {shift : Shift σ}
    (hshift : shift ∈ hirings service now s' places c) (hserver : shift.server = s) :
    shift.IsHalted service := by
  induction places generalizing c with
  | nil => cases hshift
  | cons place places ih =>
    rcases List.mem_append.mp hshift with hshift | hshift
    · obtain ⟨server, -, rfl⟩ := Option.map_eq_some_iff.mp (Option.mem_toList.mp hshift)
      exact isHalted_of_shift? hlasting (hdead hserver) hshift hserver
    · exact ih (fun heq => heq ▸ isHalted_hire hlasting now place (heq ▸ hdead heq)) hshift

/-- So are the shifts of every event. -/
theorem isHalted_of_mem_shiftsOn (hdead : c.IsHalted service s) {shift : Shift σ}
    (hshift : shift ∈ c.shiftsOn service event) (hserver : shift.server = s) : shift.IsHalted service := by
  cases event with
  | begin now call =>
    cases call with
    | work s' place => exact isHalted_of_shift? hlasting hdead hshift hserver
    | _ => cases hshift
  | turn now t =>
    obtain ⟨job, -, hshift⟩ := exists_running_of_mem_shiftsOnTurn hshift
    cases job with
    | work s' place stage => exact isHalted_of_shift? hlasting hdead hshift hserver
    | _ => cases hshift
  | startWorkers now s' => exact isHalted_of_mem_hirings hlasting now _ (fun _ => hdead) hshift hserver
  | _ => cases hshift

/-- If no request brings the service back, it is enough that it is not alive between the events. -/
theorem stopped_of_lasting {events : List (Event σ)}
    (hdead : ∀ before after, events = before ++ after → (c.run service before).IsHalted service s) :
    Stopped service s events c := by
  intro shift hshift hserver
  obtain ⟨before, event, after, heq, hshift⟩ := exists_event_of_mem_shifts service hshift
  exact isHalted_of_mem_shiftsOn hlasting (hdead before _ heq) hshift hserver

end

/-- Once the service of a server is not alive any more, each worker that waits for a request then may still
give one to the service, and no other worker gives any, however many there are, whatever happens, and
whenever they have their turns. A worker that goes round leaves. -/
theorem stopped_servers_wind_down (c : Cluster σ) (s : ServerId) (events : List (Event σ))
    (stopped : Stopped service s events c) :
    (∀ t, (∀ shift ∈ Cluster.shifts service events c, shift.badge.task = t → shift.server = s) →
      ∃ given, hands t (c.run service events).network.story = hands t c.network.story ++ given ∧
        given.length + (c.run service events).awaited t ≤ c.awaited t) ∧
    ∀ shift ∈ Cluster.shifts service events c, shift.server = s → shift.stage = .idle →
      shift.finish service = (shift.desk, .leaves .stopped) := by
  refine ⟨fun t hworks => ?_, fun shift hshift hserver => ?_⟩
  · exact run_spendsAllowance service fun shift hshift ht => stopped shift hshift (hworks shift hshift ht)
  · exact (stopped shift hshift hserver).finish_of_idle service

section

/-- Nothing that the echo service is told makes it alive again. -/
private theorem echo_lasting (r : Request) (state : Echo) (hdead : Echo.service.isAlive state = false) :
    Echo.service.isAlive (Echo.service.serve r state).1 = false := by
  change state.alive = false at hdead
  show (Echo.serve r state).1.alive = false
  unfold Echo.serve
  dsimp only
  split <;> first | exact hdead | rfl

/-- What the client asks of the node. -/
private def plead (number : UInt64) (body : String) : Request where
  requestor := "c"
  target := "s"
  callId := number
  body := body

/-- The first worker is at work for a while, the second waits, and the server is stopped. -/
private def halt : List (Event Echo) :=
  [.register 0 "s", .serve "s" "w" {}, .startWorkers 0 0, .begin 0 (.send (plead 0 "slow:5")), .turn 0 0,
    .modifyState 0 fun state => { state with alive := false }]

/-- Two more requests come. The second worker deals with the first of them, the first worker ends its work,
and others begin. -/
private def afterHalt : List (Event Echo) :=
  [.begin 1 (.send (plead 1 "hello")), .begin 1 (.send (plead 2 "more")), .turn 1 1, .turn 5 0,
    .startWorkers 6 0, .turn 6 3]

/-- The two workers of the example work for a server that stays halted. -/
private theorem halted (before after : List (Event Echo)) (heq : afterHalt = before ++ after) :
    ((reached Echo.service { workers := 2 } (fun _ => 0) halt).run Echo.service before).IsHalted
      Echo.service 0 := by
  have hall : (List.range 7).all (fun n =>
      (((reached Echo.service { workers := 2 } (fun _ => 0) halt).run Echo.service
        (afterHalt.take n)).servers[0]?).all fun server => !server.state.alive) = true := by decide +kernel
  have hlength : before.length < 7 := by
    have hle : before.length ≤ afterHalt.length := by rw [heq, List.length_append]; exact Nat.le_add_right _ _
    exact Nat.lt_succ_of_le hle
  have hbefore := List.all_eq_true.mp hall before.length (List.mem_range.mpr hlength)
  rw [heq, List.take_left] at hbefore
  intro server hserver
  rw [hserver, Option.all_some, Bool.not_eq_true'] at hbefore
  exact hbefore

theorem stopped_servers_wind_down_after_halt :
    let c := reached Echo.service { workers := 2 } (fun _ => 0) halt
    let c' := c.run Echo.service afterHalt
    Stopped Echo.service 0 afterHalt c ∧ c.awaited 0 = 0 ∧ c.awaited 1 = 1 ∧
      (∃ given, hands 1 c'.network.story = hands 1 c.network.story ++ given ∧
        given.length + c'.awaited 1 ≤ c.awaited 1) ∧
      (hands 0 c'.network.story).map (·.body) = ["slow:5"] ∧
      (hands 1 c'.network.story).map (·.body) = ["hello"] ∧
      c'.tasks[0]? = some (.finished 5 (.departed .stopped)) ∧
      c'.tasks[5]? = some (.finished 6 (.departed .stopped)) := by
  intro c c'
  have hstopped : Stopped Echo.service 0 afterHalt c := stopped_of_lasting echo_lasting halted
  have hserver : (Cluster.shifts Echo.service afterHalt c).all (fun shift => shift.server = 0) = true := by
    decide +kernel
  have htheorem := (stopped_servers_wind_down Echo.service c 0 afterHalt hstopped).1 1 fun shift hshift _ =>
    of_decide_eq_true (List.all_eq_true.mp hserver shift hshift)
  exact ⟨hstopped, by decide +kernel, by decide +kernel, htheorem, by decide +kernel, by decide +kernel,
    by decide +kernel, by decide +kernel⟩

/-- The second worker gives a request to the service although that is not alive any more. -/
theorem request_served_after_halt :
    let c := reached Echo.service { workers := 2 } (fun _ => 0) halt
    Stopped Echo.service 0 afterHalt c ∧
      (∀ before after, afterHalt = before ++ after → (c.run Echo.service before).IsHalted Echo.service 0) ∧
      ¬ ∀ t, hands t (c.run Echo.service afterHalt).network.story = hands t c.network.story := by
  intro c
  refine ⟨stopped_of_lasting echo_lasting halted, halted, fun hall => ?_⟩
  have hone := congrArg List.length (hall 1)
  revert hone
  decide +kernel

end

end Cluster

end Replica
