import Replica.Proofs.Cluster.Routing
import Replica.Proofs.Cluster.Senders

/-!
# Who acts for which node

A worker stays with its server, and the server with its node, so that all shifts of one worker are for one
node (`Assigns`). A task that was begun to take a request for a node takes one for that node, or finds the
node's mailbox shut down (`Seeks`).

Along every run in which no request is given a detour, requests come to the nodes that they are addressed
to, and to no others (`Routes`). Nodes may be registered, replaced and removed at any time, also while
senders are blocked and takers hold requests back, and every task may be cancelled. So no taker ever finds a
request that it has to refuse, and what brings a worker down is what its service did with a request for its
own node.
-/

namespace Replica

open Network

variable {net net' : Network} {node : PeerId} {now : Nat}

/-- The task, if it is under way, is the worker at the place of the server. -/
def TaskState.WorksAt (s : ServerId) (place : Nat) : TaskState → Prop
  | .running job => ∃ stage, job = .work s place stage
  | _ => True

/-- The task takes a request for the node, or has taken one, or has found the node shut down. -/
def TaskState.Seeks (net : Network) (node : PeerId) : TaskState → Prop
  | .running job => ∃ stage, job = .take stage ∧ stage.Keeps net node
  | .finished _ answer => ∃ result, answer = .request result ∧ IsFor net node (.ended result)
  | .cancelled => True

/-- The task has taken the request out of the mailbox, and holds it back. -/
inductive Job.HoldsBack : Job → MailboxId → Request → Prop where
  | take (box : MailboxId) (r : Request) (wake : Nat) : Job.HoldsBack (.take (.holding box r wake)) box r
  | work (s : ServerId) (place : Nat) (box : MailboxId) (r : Request) (wake : Nat) :
    Job.HoldsBack (.work s place (.taking (.holding box r wake))) box r

/-- A task that seeks requests for a node goes on doing so while mailboxes stay with their nodes. -/
theorem TaskState.Seeks.mono {state : TaskState} (h : state.Seeks net node)
    (hserves : ∀ box node, net.Serves box node → net'.Serves box node) : state.Seeks net' node := by
  cases state with
  | running job =>
    obtain ⟨stage, rfl, hkeeps⟩ := h
    exact ⟨stage, rfl, hkeeps.mono hserves⟩
  | finished time answer =>
    obtain ⟨result, rfl, hresult⟩ := h
    exact ⟨result, rfl, by cases result <;> exact hresult⟩
  | cancelled => trivial

/-- A task that takes for a node seeks its requests. -/
theorem TaskState.Seeks.of_progress (now : Nat) {progress : TakeProgress} (h : IsFor net node progress) :
    (TaskState.ofProgress now (progress.map Job.take Answer.request)).Seeks net node := by
  cases progress with
  | waiting stage => exact ⟨stage, rfl, h⟩
  | ended result => exact ⟨result, rfl, h⟩

namespace Cluster

variable {σ : Type} (service : Service σ) {c c' c'' : Cluster σ} {t : TaskId} {event : Event σ} {call : Call}
variable {shifts shifts' : List (Shift σ)} {state : TaskState} {s : ServerId} {place : Nat}

/-! ## Workers stay with their nodes -/

/-- The worker who has had the shift is where it belongs: its server is one of its node, and as long as it is
under way it works for this server. -/
def Posted (c : Cluster σ) (shift : Shift σ) : Prop :=
  (∃ server, c.servers[shift.server]? = some server ∧ server.node = shift.badge.node) ∧
    ∃ state, c.tasks[shift.badge.task]? = some state ∧ state.WorksAt shift.server shift.badge.place

/-- What happens to a cluster leaves workers with their nodes, those who have had shifts before and those
who have some now. -/
structure Assigns (c : Cluster σ) (shifts : List (Shift σ)) (c' : Cluster σ) : Prop where
  keeps : ∀ s, Posted c s → Posted c' s
  posted : ∀ s ∈ shifts, Posted c' s
  own : ∀ s ∈ shifts, ∀ s', Posted c s' → s'.badge.task = s.badge.task → s'.badge.node = s.badge.node
  alike : ∀ s ∈ shifts, ∀ s' ∈ shifts, s'.badge.task = s.badge.task → s'.badge.node = s.badge.node

/-- Where nobody has a shift, it is enough that those who have had one stay where they are. -/
theorem Assigns.quiet (hkeeps : ∀ s, Posted c s → Posted c' s) : Assigns c [] c' :=
  ⟨hkeeps, List.forall_mem_nil _, List.forall_mem_nil _, List.forall_mem_nil _⟩

/-- Two steps leave workers with their nodes altogether, with the shifts of both. -/
theorem Assigns.trans (h : Assigns c shifts c') (h' : Assigns c' shifts' c'') :
    Assigns c (shifts ++ shifts') c'' where
  keeps s hs := h'.keeps s (h.keeps s hs)
  posted := List.forall_mem_append.mpr ⟨fun s hs => h'.keeps s (h.posted s hs), h'.posted⟩
  own := List.forall_mem_append.mpr ⟨h.own, fun s hs s' hs' => h'.own s hs s' (h.keeps s' hs')⟩
  alike := by
    intro s hs s' hs' heq
    rcases List.mem_append.mp hs with hs | hs <;> rcases List.mem_append.mp hs' with hs' | hs'
    · exact h.alike s hs s' hs' heq
    · exact (h'.own s' hs' s (h.posted s hs) heq.symm).symm
    · exact h'.own s hs s' (h.posted s' hs') heq
    · exact h'.alike s hs s' hs' heq

/-- A worker goes on at its place. -/
theorem work_worksAt (now : Nat) (t : TaskId) (s : ServerId) (place : Nat) (stage : Working)
    (c : Cluster σ) :
    (TaskState.ofProgress now (c.work service now t s place stage).2).WorksAt s place := by
  unfold work
  split
  · exact ⟨stage, rfl⟩
  · dsimp only
    generalize Desk.turn service now _ stage _ = result
    obtain ⟨desk, progress⟩ := result
    cases progress with
    | waiting stage => exact ⟨stage, rfl⟩
    | ended why => trivial

/-- A worker that has had a shift works at its place, unless it has departed. -/
theorem state_worksAt (shift : Shift σ) :
    (shift.state service).WorksAt shift.server shift.badge.place := by
  unfold Shift.state
  cases (shift.result service).2 with
  | waiting stage => exact ⟨stage, rfl⟩
  | ended why => trivial

/-- A worker that has had a shift stays at its place in every event that gives no request a detour. -/
theorem Posted.step {shift : Shift σ} (h : Posted c shift) (hservers : KeepsServers c (c.step service event))
    (hstays : ∀ owner other, event ≠ .divert owner other) : Posted (c.step service event) shift := by
  obtain ⟨⟨server, hserver, hnode⟩, state, found, hworks⟩ := h
  obtain ⟨server', hserver', hsame⟩ := hservers _ server hserver
  obtain ⟨state', found', htaskChange⟩ := step_taskChange service found event
  refine ⟨⟨server', hserver', hsame.trans hnode⟩, state', found', ?_⟩
  cases htaskChange with
  | same event state => exact hworks
  | diverted owner other state => exact absurd rfl (hstays owner other)
  | turned now job hnetwork =>
    obtain ⟨stage, rfl⟩ := hworks
    exact work_worksAt service now _ _ _ stage c
  | cancelled event job => trivial

/-- A shift is one of the task whose turn it is, at the server of its node. -/
theorem mem_shift? {now : Nat} {stage : Working} {shift : Shift σ}
    (h : shift ∈ (c.shift? now t s place stage).toList) :
    shift.badge.task = t ∧ shift.server = s ∧
      ∃ server, c.servers[s]? = some server ∧ server.node = shift.badge.node := by
  obtain ⟨server, hserver, rfl⟩ := Option.map_eq_some_iff.mp (Option.mem_toList.mp h)
  exact ⟨rfl, rfl, server, hserver, rfl⟩

/-- The shift of a task that begins is at the server of the worker's node. -/
theorem mem_shiftsOnCall {now : Nat} {shift : Shift σ} (h : shift ∈ c.shiftsOnCall now t call) :
    shift.badge.task = t ∧
      ∃ server, c.servers[shift.server]? = some server ∧ server.node = shift.badge.node := by
  cases call with
  | work s place =>
    obtain ⟨htask, rfl, hserver⟩ := mem_shift? h
    exact ⟨htask, hserver⟩
  | _ => cases h

/-- The shift of a task that goes on is at the server where the task works. -/
theorem mem_shiftsOnTurn {now : Nat} {shift : Shift σ} (h : shift ∈ c.shiftsOnTurn now t) :
    shift.badge.task = t ∧ (∃ place stage, c.tasks[t]? = some (.running (.work shift.server place stage))) ∧
      ∃ server, c.servers[shift.server]? = some server ∧ server.node = shift.badge.node := by
  obtain ⟨job, found, h⟩ := exists_running_of_mem_shiftsOnTurn h
  cases job with
  | work s place stage =>
    obtain ⟨htask, rfl, hserver⟩ := mem_shift? h
    exact ⟨htask, ⟨place, stage, found⟩, hserver⟩
  | _ => cases h

/-- A shift that an event leaves its worker with. -/
theorem Posted.of_shift {shift : Shift σ} (hsound : c.Sound) (h : shift ∈ c.shiftsOn service event)
    (hservers : KeepsServers c (c.step service event))
    (hserver : ∃ server, c.servers[shift.server]? = some server ∧ server.node = shift.badge.node) :
    Posted (c.step service event) shift := by
  obtain ⟨server, hserver, hnode⟩ := hserver
  obtain ⟨server', hserver', hsame⟩ := hservers _ server hserver
  exact ⟨⟨server', hserver', hsame.trans hnode⟩, _, step_posted service hsound shift h,
    state_worksAt service shift⟩

/-- A task that begins leaves everybody with their nodes. -/
theorem begin_assigns (now : Nat) (call : Call) (hsound : c.Sound) (hc : Attending service c) :
    Assigns c (c.shiftsOnCall now c.tasks.length call) (c.begin service now call) := by
  have hservers : KeepsServers c (c.step service (.begin now call)) :=
    (begin_keepsNodes service now call hsound hc).servers
  have hstays (owner : TaskId) (other : PeerId) : Event.begin (σ := σ) now call ≠ .divert owner other := nofun
  have hkeeps (s : Shift σ) (hs : Posted c s) : Posted (c.step service (.begin now call)) s :=
    hs.step service hservers hstays
  have hposted (s : Shift σ) (hs : s ∈ c.shiftsOn service (.begin now call)) :
      Posted (c.step service (.begin now call)) s :=
    .of_shift service hsound hs hservers (mem_shiftsOnCall hs).2
  refine ⟨hkeeps, hposted, fun s hs s' hs' heq => ?_, fun s hs s' hs' _ => ?_⟩
  · -- the task of the shift is a new one
    obtain ⟨-, state, found, -⟩ := hs'
    rw [heq, (mem_shiftsOnCall hs).1] at found
    exact absurd (lt_length_of_getElem? found) (Nat.lt_irrefl _)
  · cases call with
    | work k place =>
      rw [Option.mem_toList.mp hs |>.symm.trans (Option.mem_toList.mp hs') |> Option.some.inj]
    | _ => cases hs

/-- So does a task that has a turn. -/
theorem turn_assigns (now : Nat) (t : TaskId) (hsound : c.Sound) (hc : Attending service c) :
    Assigns c (c.shiftsOnTurn now t) (c.turn service now t) := by
  have hservers : KeepsServers c (c.step service (.turn now t)) :=
    (turn_keepsNodes service now t hsound hc).servers
  have hstays (owner : TaskId) (other : PeerId) : Event.turn (σ := σ) now t ≠ .divert owner other := nofun
  -- whoever has the turn works for the server of the shift
  have hown : ∀ s ∈ c.shiftsOnTurn now t, ∀ s', Posted c s' → s'.badge.task = s.badge.task →
      s'.badge.node = s.badge.node := by
    intro s hs s' hs' heq
    obtain ⟨htask, ⟨place, stage, found⟩, server, hserver, hnode⟩ := mem_shiftsOnTurn hs
    obtain ⟨⟨server', hserver', hnode'⟩, state, found', hworks⟩ := hs'
    rw [heq, htask] at found'
    cases found.symm.trans found'
    obtain ⟨stage', hjob⟩ := hworks
    obtain ⟨hsame, -⟩ := Job.work.inj hjob
    rw [hsame] at hserver
    cases hserver.symm.trans hserver'
    exact hnode'.symm.trans hnode
  have hkeeps (s : Shift σ) (hs : Posted c s) : Posted (c.step service (.turn now t)) s :=
    hs.step service hservers hstays
  have hposted (s : Shift σ) (hs : s ∈ c.shiftsOn service (.turn now t)) :
      Posted (c.step service (.turn now t)) s :=
    .of_shift service hsound hs hservers (mem_shiftsOnTurn hs).2.2
  refine ⟨hkeeps, hposted, hown, fun s hs s' hs' _ => ?_⟩
  obtain ⟨-, ⟨place, stage, found⟩, server, hserver, hnode⟩ := mem_shiftsOnTurn hs
  obtain ⟨-, ⟨place', stage', found'⟩, server', hserver', hnode'⟩ := mem_shiftsOnTurn hs'
  have hjob := TaskState.running.inj (Option.some.inj (found.symm.trans found'))
  obtain ⟨hsame, -⟩ := Job.work.inj hjob
  rw [hsame] at hserver
  cases hserver.symm.trans hserver'
  exact hnode'.symm.trans hnode

/-- So do workers that are hired. -/
theorem hirings_assigns (now : Nat) (s : ServerId) (places : List Nat) (hsound : c.Sound)
    (hc : Attending service c) :
    Assigns c (hirings service now s places c) (places.foldl (hire service now s) c) := by
  induction places generalizing c with
  | nil => exact .quiet fun _ => id
  | cons place places ih =>
    have hbegin := begin_assigns service now (.work s place) hsound hc
    have hcrew : KeepsServers (c.begin service now (.work s place)) (c.hire service now s place) :=
      .modify s (f := fun server => { server with crew := server.crew ++ [c.tasks.length] })
        (fun _ => rfl) _
    have hhire : Assigns (c.begin service now (.work s place)) [] (c.hire service now s place) := by
      refine .quiet fun shift h => ⟨?_, h.2⟩
      obtain ⟨server, hserver, hnode⟩ := h.1
      obtain ⟨server', hserver', hsame⟩ := hcrew _ server hserver
      exact ⟨server', hserver', hsame.trans hnode⟩
    have hfirst := hbegin.trans hhire
    rw [List.append_nil] at hfirst
    exact hfirst.trans (ih (hire_sound service now s place hsound)
      (hire_keepsNodes service now s place hsound hc).attending)

/-- Every event but a detour leaves everybody with their nodes. -/
theorem step_assigns (hsound : c.Sound) (hc : Attending service c)
    (hstays : ∀ owner other, event ≠ .divert owner other) :
    Assigns c (c.shiftsOn service event) (c.step service event) := by
  have hservers := (step_keepsNodes service hsound hc hstays).servers
  cases event with
  | startWorkers now s => exact hirings_assigns service now s _ hsound hc
  | begin now call => exact begin_assigns service now call hsound hc
  | turn now t => exact turn_assigns service now t hsound hc
  | _ => exact .quiet fun s hs => hs.step service hservers hstays

variable {events : List (Event σ)}

/-- So does every run without detours. -/
theorem run_assigns (hsound : c.Sound) (hc : Attending service c)
    (hstays : ∀ owner other, Event.divert owner other ∉ events) :
    Assigns c (Cluster.shifts service events c) (c.run service events) := by
  induction events generalizing c with
  | nil => exact .quiet fun _ => id
  | cons event events ih =>
    obtain ⟨hfirst, hrest⟩ := stays_cons.mp hstays
    exact (step_assigns service hsound hc hfirst).trans (ih (step_sound service hsound hfirst)
      (step_keepsNodes service hsound hc hfirst).attending hrest)

/-! ## Takers stay with their nodes -/

/-- Whatever happens, a taker keeps to its node. -/
theorem step_seeks (hsound : c.Sound) (hstays : ∀ owner other, event ≠ .divert owner other)
    (found : c.tasks[t]? = some state) (h : state.Seeks c.network node) :
    ∃ state', (c.step service event).tasks[t]? = some state' ∧
      state'.Seeks (c.step service event).network node := by
  obtain ⟨state', found', htaskChange⟩ := step_taskChange service found event
  refine ⟨state', found', ?_⟩
  cases htaskChange with
  | same event state => exact h.mono (step_serves service hsound hstays)
  | diverted owner other state => exact absurd rfl (hstays owner other)
  | turned now job hnetwork =>
    obtain ⟨stage, rfl, hkeeps⟩ := h
    have hfor := turnTake_isFor now t hsound.routed hkeeps
    show TaskState.Seeks (c.turn service now t).network node _
    rw [hnetwork]
    exact .of_progress now hfor
  | cancelled event job => trivial

variable {settings : Settings} {dice : Nat → UInt64}

/-- A task that was begun to take for a node seeks the node's requests in every run. -/
theorem seeks_reached (hstays : ∀ owner other, Event.divert owner other ∉ events)
    (h : BegunWith service settings dice events t (.take node)) :
    ∃ state, (reached service settings dice events).tasks[t]? = some state ∧
      state.Seeks (reached service settings dice events).network node := by
  induction events using List.reverseRecOn with
  | nil =>
    obtain ⟨before, now, after, heq, -⟩ := h
    exact absurd heq (by simp)
  | append_singleton events event ih =>
    obtain ⟨hearlier, hlast⟩ := stays_concat.mp hstays
    have hsound : (reached service settings dice events).Sound := (kept_reached service hearlier).sound
    rw [reached_concat]
    rcases h.concat_cases with h | ⟨⟨now, rfl⟩, rfl⟩
    · obtain ⟨state, found, hseeks⟩ := ih hearlier h
      exact step_seeks service hsound hlast found hseeks
    · exact ⟨_, task_begun service, .of_progress now (beginTake_isFor now _ node hsound.routed)⟩

/-! ## Everything comes to its node -/

/-- A worker that has departed did so at the end of a shift. -/
theorem departure_of_state {shift : Shift σ} {why : Departure} {time : Nat}
    (h : shift.state service = .finished time (.departed why)) :
    (shift.finish service).2.departure? = some why := by
  unfold Shift.state at h
  show (Pace.ofProgress (shift.result service).2).departure? = some why
  generalize (shift.result service).2 = progress at h
  cases progress with
  | waiting stage => cases h
  | ended why' =>
    cases h
    rfl

/-- A request that somebody of the cluster holds back was taken out of a mailbox of its own node. -/
theorem Attending.holdsBack (hc : Attending service c) {job : Job} {box : MailboxId} {r : Request}
    (found : c.tasks[t]? = some (.running job)) (h : job.HoldsBack box r) :
    c.network.Serves box r.replier := by
  have hattached := hc t job found
  cases h with
  | take box r wake =>
    obtain ⟨node, hserves, rfl⟩ := hattached
    exact hserves
  | work s place box r wake =>
    obtain hidle | ⟨server, -, hserves, haddress⟩ := hattached
    · cases hidle
    · exact haddress ▸ hserves

/-- Along the events, requests come to the nodes that they are addressed to. -/
structure Routes (service : Service σ) (settings : Settings) (dice : Nat → UInt64)
    (events : List (Event σ)) : Prop where
  /-- The mailbox that is registered for a node has only requests for the node. -/
  queued : ∀ node b, (reached service settings dice events).network.mailbox? node = some b →
    b.id = node ∧ ∀ r ∈ b.requests, r.replier = node
  /-- So has every other mailbox, and whoever takes a request from one does not refuse it: takers fail only
  because the mailbox is shut down. -/
  accepted : ∀ now t box b, (reached service settings dice events).network.mailboxes[box]? = some b →
    (∀ r ∈ b.requests, r.replier = b.id) ∧
      ∀ e, ((reached service settings dice events).network.takeFrom now t box).2 = .ended (.error e) →
        e = .shutdown b.id
  /-- All requests that have been taken were in mailboxes of their own nodes. -/
  taken : ∀ box t r, .taken box t r ∈ storyOf service settings dice events →
    (reached service settings dice events).network.Serves box r.replier
  /-- So were those that are still held back. -/
  held : ∀ (t : TaskId) job box r,
    (reached service settings dice events).tasks[t]? = some (.running job) → job.HoldsBack box r →
      (reached service settings dice events).network.Serves box r.replier
  /-- Whoever takes a request for a node gets one that is addressed to the node. -/
  sought : ∀ t node, BegunWith service settings dice events t (.take node) →
    ∃ state, (reached service settings dice events).tasks[t]? = some state ∧
      state.Seeks (reached service settings dice events).network node
  /-- A worker belongs to one server for good, and to the node of the server. -/
  posted : ∀ s ∈ shiftsAlong service settings dice events, Posted (reached service settings dice events) s
  single : ∀ s ∈ shiftsAlong service settings dice events, ∀ s' ∈ shiftsAlong service settings dice events,
    s'.badge.task = s.badge.task → s'.badge.node = s.badge.node
  /-- Services are given requests by their workers, and all of them are addressed to the worker's node. -/
  handled : ∀ t r, .handled t r ∈ storyOf service settings dice events →
    (∃ s ∈ shiftsAlong service settings dice events, s.badge.task = t) ∧
      ∀ s ∈ shiftsAlong service settings dice events, s.badge.task = t → r.replier = s.badge.node
  /-- And so is every request on which work ends, as the service has said. -/
  judged : ∀ s ∈ shiftsAlong service settings dice events, ∀ v ∈ s.verdicts service,
    v.IsOf service s.badge.node
  /-- A worker has left in one of its shifts, and the verdicts of the shift say why, unless its service had
  stopped or its mailbox was shut down. -/
  departed : ∀ (t : TaskId) time why,
    (reached service settings dice events).tasks[t]? = some (.finished time (.departed why)) →
      ∃ s ∈ shiftsAlong service settings dice events, s.badge.task = t ∧
        why.ExplainedBy service (s.verdicts service) (s.finish service).1
  /-- Whoever asked for the end of the process did so after a verdict. -/
  terminated : ∀ plea ∈ Network.pleas (storyOf service settings dice events),
    ∃ s ∈ shiftsAlong service settings dice events, ∃ v ∈ s.verdicts service, v.plea? service = some plea

/-- On a new network, with any settings, any numbers from the random source, any services, any tasks and any
changes of nodes, servers and services: as long as no request is given a detour, requests come to the nodes
that they are addressed to. -/
theorem requests_reach_their_nodes (service : Service σ) (settings : Settings) (dice : Nat → UInt64)
    (events : List (Event σ)) (hstays : ∀ owner other, Event.divert owner other ∉ events) :
    Routes service settings dice events := by
  have hfresh : Sound ({ network := { settings, dice } } : Cluster σ) := (Kept.nil service).sound
  have hnobody : Attending service ({ network := { settings, dice } } : Cluster σ) := by
    intro t job found
    cases List.getElem?_nil.symm.trans found
  have hsound : (reached service settings dice events).Sound := (kept_reached service hstays).sound
  have hnodes := run_keepsNodes service hfresh hnobody hstays
  have hassigns := run_assigns service hfresh hnobody hstays
  have hnotes : ∀ what ∈ storyOf service settings dice events,
      what.Addressed (reached service settings dice events).network
        (ActsIn (shiftsAlong service settings dice events)) := by
    obtain ⟨written, hstory, hwritten⟩ := hnodes.notes
    rw [storyOf, reached, hstory]
    exact hwritten
  constructor
  · intro node b hb
    obtain ⟨box, hbox, found⟩ := Option.bind_eq_some_iff.mp hb
    obtain ⟨b', found', rfl⟩ := hsound.routed.registered node box (Registry.mem_of_get? hbox)
    cases found.symm.trans found'
    exact ⟨rfl, hsound.routed.queued box b found⟩
  · intro now t box b found
    refine ⟨hsound.routed.queued box b found, fun e he => ?_⟩
    have hfor := takeFrom_isFor now t hsound.routed ⟨b, found, rfl⟩
    rw [he] at hfor
    exact hfor
  · exact fun box t r hmem => hnotes _ hmem
  · exact fun t job box r found hholds => hnodes.attending.holdsBack service found hholds
  · exact fun t node => seeks_reached service hstays
  · exact hassigns.posted
  · exact hassigns.alike
  · intro t r hmem
    obtain ⟨s, hs, htask, hnode⟩ := hnotes _ hmem
    refine ⟨⟨s, hs, htask⟩, fun s' hs' htask' => ?_⟩
    exact hnode.symm.trans (hassigns.alike s' hs' s hs (htask.trans htask'.symm))
  · intro s hs
    obtain ⟨hnet, hkeeps⟩ := hnodes.fit s hs
    exact Desk.verdicts_keep s.now _ hnet hkeeps
  · intro t time why hdeparted
    obtain hnone | ⟨s, hs, htask, hstate⟩ := hnodes.departed t time why hdeparted
    · cases hnone
    · refine ⟨s, hs, htask, (s.judged service (hnodes.fit s hs).1).explained why ?_⟩
      exact departure_of_state service hstate
  · intro plea hplea
    have hpleas : Network.pleas (storyOf service settings dice events) =
        pleasOf service (shiftsAlong service settings dice events) :=
      (reached_worksInShifts service hstays).pleas
    rw [hpleas] at hplea
    obtain ⟨v, hv, hsome⟩ := List.mem_filterMap.mp hplea
    obtain ⟨s, hs, hmem⟩ := List.mem_flatMap.mp hv
    exact ⟨s, hs, v, hmem, hsome⟩

section

/-- What the client asks of the node. -/
private def letter (number : UInt64) (body : String) : Request where
  requestor := "c"
  target := "s"
  callId := number
  body := body

/-- The node is registered anew while its worker holds a request back. The worker works on the request all
the same, and breaks down at the next one, which is in the new mailbox. Somebody else takes the third. -/
private def anew : List (Event Echo) :=
  [.register 0 "c", .register 0 "s", .serve "s" "w" {}, .startWorkers 0 0,
    .setSwitches 0 fun w => { w with delayFrom := 5 }, .begin 0 (.send (letter 0 "hello")), .turn 0 0,
    .register 1 "s", .setSwitches 0 fun w => { w with delayFrom := 0 }, .turn 5 0,
    .begin 6 (.send (letter 1 "panic")), .turn 6 0, .begin 7 (.take "s"),
    .begin 7 (.send (letter 2 "hello")), .turn 7 3]

theorem requests_reach_nodes_anew :
    (∀ owner other, Event.divert owner other ∉ anew) ∧
      (storyOf Echo.service {} (fun _ => 0) anew).filterMap
        (fun what => match what with
          | .taken box _ r => some (box, r.callId)
          | _ => none) = [(1, 0), (2, 1), (2, 2)] ∧
      (reached Echo.service {} (fun _ => 0) anew).tasks[0]? =
        some (.finished 6 (.departed (.terminated (panicError (some "boom"))))) ∧
      (reached Echo.service {} (fun _ => 0) anew).tasks[3]? =
        some (.finished 7 (.request (.ok { letter 2 "hello" with owner := some 4 }))) ∧
      Routes Echo.service {} (fun _ => 0) anew :=
  ⟨by simp [anew], by rfl, by rfl, by rfl,
    requests_reach_their_nodes Echo.service {} (fun _ => 0) anew (by simp [anew])⟩

end

end Cluster

end Replica
