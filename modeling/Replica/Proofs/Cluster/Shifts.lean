import Replica.Proofs.Cluster.Conservation
import Replica.Proofs.Cluster.Rounds
import Replica.Proofs.Cluster.Verdicts

/-!
# Shifts of workers

A shift is a turn of a worker, with what was on its desk when the turn began. Whatever happens to a
cluster, only shifts ask for the end of the process and have requests worked on (`WorksInShifts`,
`KeepsExit`): no other task does, nor does anybody who changes nodes, servers or directories.
-/

namespace Replica

open Network

variable {σ : Type} (service : Service σ)

/-- A turn of a worker. -/
structure Shift (σ : Type) where
  now : Nat
  server : ServerId
  badge : Badge
  stage : Working
  desk : Desk σ

namespace Shift

/-- The verdicts on the requests on which work ends in the turn. -/
def verdicts (s : Shift σ) : List (Verdict σ) :=
  s.desk.verdicts service s.now s.badge (s.desk.network.backlog + 1) s.stage

def result (s : Shift σ) : Desk σ × Progress Working Departure :=
  s.desk.turn service s.now s.badge s.stage

/-- What is on the worker's desk after the turn, and what it does then. -/
def finish (s : Shift σ) : Desk σ × Pace := ((s.result service).1, .ofProgress (s.result service).2)

/-- What has become of the worker after the turn. -/
def state (s : Shift σ) : TaskState :=
  .ofProgress s.now ((s.result service).2.map (.work s.server s.badge.place) .departed)

/-- A shift is judged as the strides of its worker are. -/
theorem judged {s : Shift σ} (hnet : s.desk.network.Routed) :
    Judged service s.badge s.stage.atWork s.desk (s.verdicts service) (s.finish service) :=
  goRound_judged s.now s.badge (s.desk.network.backlog + 1) s.stage s.desk hnet

/-- No worker ends a shift before it has begun to take. -/
theorem finish_ne_idle (s : Shift σ) : (s.finish service).2 ≠ .waits .idle := by
  have hidle : (s.result service).2 ≠ .waiting .idle :=
    Desk.turn_ne_idle service s.now s.badge s.stage s.desk
  unfold finish
  generalize s.result service = result at hidle ⊢
  obtain ⟨desk, progress⟩ := result
  cases progress with
  | waiting stage =>
    intro heq
    cases heq
    exact hidle rfl
  | ended why => nofun

end Shift

/-- All verdicts of some shifts. -/
def verdictsOf (shifts : List (Shift σ)) : List (Verdict σ) := shifts.flatMap (·.verdicts service)

/-- What the verdicts of some shifts ask for. -/
def pleasOf (shifts : List (Shift σ)) : List Plea :=
  (verdictsOf service shifts).filterMap (·.plea? service)

/-- The verdicts on the work of one task. -/
def verdictsBy (t : TaskId) (shifts : List (Shift σ)) : List (Verdict σ) :=
  (verdictsOf service shifts).filter (·.badge.task = t)

section

variable {service} {shifts shifts' : List (Shift σ)} {t : TaskId}

/-- What is asked for in two lists of shifts is asked for shift by shift. -/
theorem pleasOf_append :
    pleasOf service (shifts ++ shifts') = pleasOf service shifts ++ pleasOf service shifts' := by
  simp [pleasOf, verdictsOf]

/-- A task's verdicts in two lists of shifts come shift by shift. -/
theorem verdictsBy_append :
    verdictsBy service t (shifts ++ shifts') =
      verdictsBy service t shifts ++ verdictsBy service t shifts' := by
  simp [verdictsBy, verdictsOf]

end

/-- The request that a task has a service work on. -/
def TaskState.atWork : TaskState → List Request
  | .running (.work _ _ stage) => stage.atWork
  | _ => []

/-- Whether the task is a worker. -/
def Job.isWork : Job → Bool
  | .work .. => true
  | _ => false

def Call.isWork : Call → Bool
  | .work .. => true
  | _ => false

/-- A task that does not work has no request at work. -/
theorem Job.atWork_of_not_isWork {job : Job} (h : job.isWork = false) :
    (TaskState.running job).atWork = [] := by
  cases job with
  | work s place stage => cases h
  | _ => rfl

/-- A worker has at most one request at work. -/
theorem TaskState.atWork_length (state : TaskState) : state.atWork.length ≤ 1 := by
  unfold atWork
  split
  · unfold Working.atWork
    split <;> simp
  · simp

namespace Cluster

/-! ## The shifts of an event -/

/-- The turn of a worker of a server, if there is such a server. -/
def shift? (now : Nat) (t : TaskId) (s : ServerId) (place : Nat) (stage : Working) (c : Cluster σ) :
    Option (Shift σ) :=
  c.servers[s]?.map fun server =>
    { now
      server := s
      badge := { node := server.node, server := server.name, place, task := t }
      stage
      desk := { network := c.network, state := server.state, exit := c.exit } }

def shiftsOnCall (now : Nat) (t : TaskId) (c : Cluster σ) : Call → List (Shift σ)
  | .work s place => (c.shift? now t s place .idle).toList
  | _ => []

def shiftsOnJob (now : Nat) (t : TaskId) (c : Cluster σ) : Job → List (Shift σ)
  | .work s place stage => (c.shift? now t s place stage).toList
  | _ => []

def shiftsOnTurn (now : Nat) (t : TaskId) (c : Cluster σ) : List (Shift σ) :=
  match c.tasks[t]? with
  | some (.running job) => c.shiftsOnJob now t job
  | _ => []

/-- A task under way has the shifts of its job. -/
theorem shiftsOnTurn_of_running {c : Cluster σ} {now : Nat} {t : TaskId} {job : Job}
    (found : c.tasks[t]? = some (.running job)) : c.shiftsOnTurn now t = c.shiftsOnJob now t job := by
  rw [shiftsOnTurn, found]

/-- A task that is not under way has no shift. -/
theorem shiftsOnTurn_of_not_running {c : Cluster σ} {now : Nat} {t : TaskId}
    (h : ¬ ∃ job, c.tasks[t]? = some (.running job)) : c.shiftsOnTurn now t = [] := by
  unfold shiftsOnTurn
  split
  · next job found => exact absurd ⟨job, found⟩ h
  · rfl

/-- Only a task under way has shifts. -/
theorem exists_running_of_mem_shiftsOnTurn {c : Cluster σ} {now : Nat} {t : TaskId} {shift : Shift σ}
    (h : shift ∈ c.shiftsOnTurn now t) :
    ∃ job, c.tasks[t]? = some (.running job) ∧ shift ∈ c.shiftsOnJob now t job := by
  by_cases running : ∃ job, c.tasks[t]? = some (.running job)
  · obtain ⟨job, found⟩ := running
    exact ⟨job, found, shiftsOnTurn_of_running found ▸ h⟩
  · rw [shiftsOnTurn_of_not_running running] at h
    cases h

/-- A new worker begins at a place, and belongs to its server's crew. -/
def hire (now : Nat) (s : ServerId) (c : Cluster σ) (place : Nat) : Cluster σ :=
  (c.begin service now (.work s place)).modifyServer s fun server =>
    { server with crew := server.crew ++ [c.tasks.length] }

/-- The first turns of workers that begin one after the other. -/
def hirings (now : Nat) (s : ServerId) : List Nat → Cluster σ → List (Shift σ)
  | [], _ => []
  | place :: places, c =>
    c.shiftsOnCall now c.tasks.length (.work s place) ++ hirings now s places (c.hire service now s place)

/-- The turns that workers have in an event. -/
def shiftsOn (c : Cluster σ) : Event σ → List (Shift σ)
  | .begin now call => c.shiftsOnCall now c.tasks.length call
  | .turn now t => c.shiftsOnTurn now t
  | .startWorkers now s => hirings service now s (List.range c.network.settings.workers.toNat) c
  | _ => []

/-- The turns that workers have in a sequence of events. -/
def shifts : List (Event σ) → Cluster σ → List (Shift σ)
  | [], _ => []
  | event :: events, c => c.shiftsOn service event ++ shifts events (c.step service event)

/-! ## One task has its turn -/

/-- The request that a task has a service work on. -/
def atWork (t : TaskId) (c : Cluster σ) : List Request := (c.tasks[t]?.map TaskState.atWork).getD []

variable {c c' c'' : Cluster σ} {now : Nat} {t : TaskId} {call : Call} {job : Job}
variable {shifts shifts' : List (Shift σ)} {result : Cluster σ × JobProgress} {start : List Request}

/-- A turn of a task that had a service work on `start`, and the shift that it is, if it is one. -/
structure Attends (now : Nat) (t : TaskId) (c : Cluster σ) (start : List Request)
    (shifts : List (Shift σ)) (result : Cluster σ × JobProgress) : Prop where
  pleas : pleas result.1.network.story = pleas c.network.story ++ pleasOf service shifts
  exit : result.1.exit = c.exit.or ((pleasOf service shifts).head?.map (·.record))
  routed : ∀ s ∈ shifts, s.desk.network.Routed
  own : ∀ s ∈ shifts, s.badge.task = t ∧ s.state service = .ofProgress now result.2
  work : ∃ given, hands t result.1.network.story = hands t c.network.story ++ given ∧
    start.map Request.plain ++ given = (verdictsOf service shifts).map (·.request.plain) ++
      (TaskState.ofProgress now result.2).atWork.map Request.plain
  others : ∀ u, u ≠ t → hands u result.1.network.story = hands u c.network.story

/-- A turn of a task that is no worker. -/
structure Idles (c : Cluster σ) (result : Cluster σ × JobProgress) : Prop where
  writesTraffic : WritesTraffic c.network result.1.network
  exit : result.1.exit = c.exit
  rests : result.2.Waits fun job => job.isWork = false

/-- A turn of a task that does not work asks for nothing, and works on nothing. -/
theorem Idles.attends (h : Idles c result) : Attends service now t c [] [] result where
  pleas := h.writesTraffic.pleas.trans (List.append_nil _).symm
  exit := h.exit.trans Option.or_none.symm
  routed := List.forall_mem_nil _
  own := List.forall_mem_nil _
  work := by
    have hwork : (TaskState.ofProgress now result.2).atWork = [] := by
      obtain ⟨c', progress⟩ := result
      cases progress with
      | waiting job => exact job.atWork_of_not_isWork h.rests
      | ended a => rfl
    exact ⟨[], by rw [h.writesTraffic.hands, List.append_nil], by rw [hwork]; rfl⟩
  others u _ := h.writesTraffic.hands u

/-- A worker's turn is one shift: what it asks for, gives away and works on is in there. -/
theorem work_attends (now : Nat) (t : TaskId) (s : ServerId) (place : Nat) (stage : Working)
    (hnet : c.network.Routed) :
    Attends service now t c stage.atWork (c.shift? now t s place stage).toList
      (c.work service now t s place stage) := by
  unfold shift? work
  cases c.servers[s]? with
  | none =>
    refine ⟨(List.append_nil _).symm, Option.or_none.symm, List.forall_mem_nil _, List.forall_mem_nil _,
      ⟨[], (List.append_nil _).symm, List.append_nil _⟩, fun u _ => rfl⟩
  | some server =>
    let shift : Shift σ :=
      { now
        server := s
        badge := { node := server.node, server := server.name, place, task := t }
        stage
        desk := { network := c.network, state := server.state, exit := c.exit } }
    have hjudged : Judged service shift.badge stage.atWork shift.desk (shift.verdicts service)
        (shift.finish service) := shift.judged service hnet
    have hverdicts : verdictsOf service [shift] = shift.verdicts service := List.append_nil _
    have hstrides := Desk.turn_strides service now shift.badge stage shift.desk
    show Attends service now t c stage.atWork [shift] _
    constructor
    · rw [pleasOf, hverdicts]
      exact hjudged.pleas
    · rw [pleasOf, hverdicts]
      exact hjudged.exit
    · exact List.forall_mem_singleton.mpr hnet
    · exact List.forall_mem_singleton.mpr ⟨rfl, rfl⟩
    · obtain ⟨given, hgiven, hwork⟩ := hjudged.work
      refine ⟨given, hgiven, hwork.trans ?_⟩
      rw [hverdicts]
      congr 2
      show (Pace.ofProgress (shift.result service).2).atWork = (shift.state service).atWork
      unfold Shift.state
      cases (shift.result service).2 <;> rfl
    · intro u hu
      obtain ⟨written, hcustody⟩ := hstrides.passes service
      show hands u (shift.result service).1.network.story = _
      exact (congrArg (hands u) hcustody.story).trans
        (by rw [hands_append, (hcustody.apart u hu).2, List.append_nil])

/-- A turn of a task that does not work writes what its call writes. -/
theorem afterNetwork_idles {τ α : Type} {stage : τ → Job} {answer : α → Answer}
    {result : Network × Progress τ α} (htraffic : WritesTraffic c.network result.1)
    (hstage : ∀ x, (stage x).isWork = false) : Idles c (c.afterNetwork stage answer result) := by
  refine ⟨htraffic, rfl, Progress.Waits.map stage answer ?_⟩
  exact Progress.waits_of_forall hstage result.2

/-- Whoever waits for a call on a map does not work. -/
theorem waitForProxyCall_idles {d : DirectoryId} {call : TaskId} (c' : Cluster σ)
    (hnetwork : c'.network = c.network) (hexit : c'.exit = c.exit) :
    Idles c (c'.waitForProxyCall d call) := by
  unfold waitForProxyCall
  split
  · exact ⟨.of_eq (congrArg _ hnetwork), hexit, trivial⟩
  · exact ⟨.of_eq (congrArg _ hnetwork), hexit, rfl⟩

/-- A relay that waits for a repair does not work. -/
theorem waitForRepair_idles {d : DirectoryId} {via : PeerId} {call : TaskId} {sent : Outcome}
    (c' : Cluster σ) (htraffic : WritesTraffic c.network c'.network) (hexit : c'.exit = c.exit) :
    Idles c (c'.waitForRepair d via call sent) := by
  unfold waitForRepair
  split
  · exact ⟨htraffic, hexit, trivial⟩
  · exact ⟨htraffic, hexit, rfl⟩

/-- A relay that has heard of its request does not work. -/
theorem afterRelay_idles {d : DirectoryId} {via : PeerId} {result : Network × SendProgress}
    (c' : Cluster σ) (htraffic : WritesTraffic c.network result.1) (hexit : c'.exit = c.exit) :
    Idles c (c'.afterRelay now d via result) := by
  obtain ⟨net, progress⟩ := result
  unfold afterRelay
  dsimp only
  split
  · exact ⟨htraffic, hexit, rfl⟩
  · exact waitForRepair_idles _ htraffic hexit
  · exact ⟨htraffic, hexit, trivial⟩

/-- Senders write only traffic when they begin. -/
theorem beginSend_writesTraffic (now : Nat) (r : Request) (net : Network) :
    WritesTraffic net (net.beginSend now r).1 := by
  have heffects : Effects (fun _ _ => True) net (net.beginSend now r).1 :=
    beginSend_effects now fun _ _ => trivial
  exact heffects.writesTraffic

/-- They do so when they go on. -/
theorem turnSend_writesTraffic (now : Nat) (stage : Sending) (net : Network) :
    WritesTraffic net (net.turnSend now stage).1 := by
  have heffects : Effects (fun _ _ => True) net (net.turnSend now stage).1 :=
    turnSend_effects now fun _ _ _ _ => trivial
  exact heffects.writesTraffic

/-- They do so over links. -/
theorem beginLinkSend_writesTraffic (now : Nat) (l : Link) (closed : Bool) (r : Request) (net : Network) :
    WritesTraffic net (net.beginLinkSend now l closed r).1 := by
  unfold beginLinkSend
  split
  · exact .refl net
  · exact beginSend_writesTraffic now r net

/-- A relay that waits for its link does not work. -/
theorem waitForLink_idles {d : DirectoryId} {via : PeerId} {call : TaskId} {r : Request}
    (c' : Cluster σ) (hnetwork : c'.network = c.network) (hexit : c'.exit = c.exit) :
    Idles c (c'.waitForLink now d via call r) := by
  have htraffic : WritesTraffic c.network c'.network := .of_eq (congrArg _ hnetwork)
  unfold waitForLink
  dsimp only
  split
  · exact ⟨htraffic, hexit, trivial⟩
  · split
    · exact afterRelay_idles c' (htraffic.trans (beginLinkSend_writesTraffic now _ _ r _)) hexit
    · exact ⟨htraffic, hexit, rfl⟩
  · exact ⟨htraffic, hexit, rfl⟩

/-- A call that is not for a worker begins no work. -/
theorem undertake_idles (now : Nat) (t : TaskId) (c : Cluster σ) (h : call.isWork = false) :
    Idles c (c.undertake service now t call) := by
  cases call with
  | send r => exact afterNetwork_idles (beginSend_writesTraffic now _ c.network) fun _ => rfl
  | take node => exact afterNetwork_idles (beginTake_writesTraffic now t node c.network) fun _ => rfl
  | reply r outcome => exact afterNetwork_idles (beginReply_writesTraffic now _ outcome c.network) fun _ => rfl
  | work s place => cases h
  | linkSend l r => exact afterNetwork_idles (beginLinkSend_writesTraffic now l _ _ c.network) fun _ => rfl
  | consult d call => exact waitForProxyCall_idles (c.beginProxyCall now d call).1 rfl rfl
  | relay d via r => exact waitForLink_idles (c.beginProxyCall now d (.lookUp via)).1 rfl rfl

/-- A job that is not a worker's goes on without work. -/
theorem resume_idles (now : Nat) (t : TaskId) (c : Cluster σ)
    (h : job.isWork = false) : Idles c (c.resume service now t job) := by
  cases job with
  | send stage => exact afterNetwork_idles (turnSend_writesTraffic now stage c.network) fun _ => rfl
  | take stage => exact afterNetwork_idles (turnTake_writesTraffic now t stage c.network) fun _ => rfl
  | reply stage => exact afterNetwork_idles (turnReply_writesTraffic now stage c.network) fun _ => rfl
  | work s place stage => cases h
  | linkSend stage => exact afterNetwork_idles (turnSend_writesTraffic now stage c.network) fun _ => rfl
  | consult d call => exact waitForProxyCall_idles (c.turnProxyCall now d call) rfl rfl
  | relay d via stage =>
    cases stage with
    | connecting call r => exact waitForLink_idles (c.turnProxyCall now d call) rfl rfl
    | sending stage => exact afterRelay_idles c (turnSend_writesTraffic now stage c.network) rfl
    | repairing call sent => exact waitForRepair_idles (c.turnProxyCall now d call) (.of_eq rfl) rfl

/-- A task that begins has its shifts looked after, whether it works or not. -/
theorem undertake_attends (now : Nat) (t : TaskId) (call : Call) (hnet : c.network.Routed) :
    Attends service now t c [] (c.shiftsOnCall now t call) (c.undertake service now t call) := by
  cases call with
  | work s place => exact work_attends service now t s place .idle hnet
  | _ => exact (undertake_idles service now t c rfl).attends service

/-- So has a task that goes on. -/
theorem resume_attends (now : Nat) (t : TaskId) (job : Job) (hnet : c.network.Routed) :
    Attends service now t c (TaskState.running job).atWork (c.shiftsOnJob now t job)
      (c.resume service now t job) := by
  cases job with
  | work s place stage => exact work_attends service now t s place stage hnet
  | _ => exact (resume_idles service now t c rfl).attends service

/-! ## What shifts come to -/

/-- The request on which there is no verdict yet. A task that was cancelled may have left one behind. -/
def Owes (t : TaskId) (due : List Request) (c : Cluster σ) : Prop :=
  due.length ≤ 1 ∧ (c.tasks[t]? ≠ some .cancelled → due = c.atWork t)

/-- All that was asked for and worked on was so in the shifts. -/
structure WorksInShifts (c : Cluster σ) (shifts : List (Shift σ)) (c' : Cluster σ) : Prop where
  pleas : pleas c'.network.story = pleas c.network.story ++ pleasOf service shifts
  routed : ∀ s ∈ shifts, s.desk.network.Routed
  work : ∀ t, ∃ given, hands t c'.network.story = hands t c.network.story ++ given ∧
    ∀ due, c.Owes t due → ∃ due', c'.Owes t due' ∧
      due.map Request.plain ++ given =
        (verdictsBy service t shifts).map (·.request.plain) ++ due'.map Request.plain

/-- And the first request to end the process has been kept. -/
structure KeepsExit (c : Cluster σ) (shifts : List (Shift σ)) (c' : Cluster σ) : Prop
    extends WorksInShifts service c shifts c' where
  exit : c'.exit = c.exit.or ((pleasOf service shifts).head?.map (·.record))

/-- Nothing is asked for and worked on if nothing happens. -/
theorem WorksInShifts.refl (c : Cluster σ) : WorksInShifts service c [] c where
  pleas := (List.append_nil _).symm
  routed := List.forall_mem_nil _
  work _ := ⟨[], (List.append_nil _).symm, fun due hdue => ⟨due, hdue, List.append_nil _⟩⟩

variable {service}

/-- What is asked for and worked on in two steps is so in the shifts of both. -/
theorem WorksInShifts.trans (h : WorksInShifts service c shifts c') (h' : WorksInShifts service c' shifts' c'') :
    WorksInShifts service c (shifts ++ shifts') c'' where
  pleas := by rw [h'.pleas, h.pleas, pleasOf_append, List.append_assoc]
  routed := List.forall_mem_append.mpr ⟨h.routed, h'.routed⟩
  work t := by
    obtain ⟨given, hgiven, hwork⟩ := h.work t
    obtain ⟨given', hgiven', hwork'⟩ := h'.work t
    refine ⟨given ++ given', by rw [hgiven', hgiven, List.append_assoc], fun due hdue => ?_⟩
    obtain ⟨due', hdue', heq⟩ := hwork due hdue
    obtain ⟨due'', hdue'', heq'⟩ := hwork' due' hdue'
    refine ⟨due'', hdue'', ?_⟩
    rw [← List.append_assoc, heq, List.append_assoc, heq', verdictsBy_append, List.map_append,
      List.append_assoc]

/-- The exit is that of the first shift to ask for the end, in two steps as in one. -/
theorem KeepsExit.trans (h : KeepsExit service c shifts c') (h' : KeepsExit service c' shifts' c'') :
    KeepsExit service c (shifts ++ shifts') c'' where
  toWorksInShifts := h.toWorksInShifts.trans h'.toWorksInShifts
  exit := by rw [h'.exit, h.exit, pleasOf_append, List.head?_append, Option.map_or, Option.or_assoc]

variable (service)

theorem KeepsExit.refl (c : Cluster σ) : KeepsExit service c [] c :=
  ⟨.refl service c, Option.or_none.symm⟩

/-- Nothing is asked for, and no service gets a request. -/
theorem WorksInShifts.of_silent (hpleas : Network.pleas c'.network.story = Network.pleas c.network.story)
    (hhands : ∀ t, hands t c'.network.story = hands t c.network.story)
    (htasks : ∀ t : TaskId, c'.tasks[t]? = c.tasks[t]? ∨ c'.tasks[t]? = some .cancelled) :
    WorksInShifts service c [] c' where
  pleas := hpleas.trans (List.append_nil _).symm
  routed := List.forall_mem_nil _
  work t := by
    refine ⟨[], (hhands t).trans (List.append_nil _).symm, fun due hdue => ⟨due, ⟨hdue.1, ?_⟩, ?_⟩⟩
    · intro hlive
      rcases htasks t with hsame | hcancelled
      · rw [hsame] at hlive
        rw [hdue.2 hlive, atWork, atWork, hsame]
      · exact absurd hcancelled hlive
    · exact List.append_nil _

/-- What a task has at work is read off its state. -/
theorem atWork_of_found {state : TaskState} (found : c.tasks[t]? = some state) :
    c.atWork t = state.atWork := by
  rw [atWork, found]
  rfl

/-- A task has had its turn. -/
theorem Attends.keepsExit (h : Attends service now t c (c.atWork t) shifts result)
    (hnetwork : c'.network = result.1.network) (hexit : c'.exit = result.1.exit)
    (hlive : c.tasks[t]? ≠ some .cancelled)
    (htask : c'.tasks[t]? = some (.ofProgress now result.2))
    (hothers : ∀ u : TaskId, u ≠ t → c'.tasks[u]? = c.tasks[u]?) :
    KeepsExit service c shifts c' := by
  have hbadge : ∀ v ∈ verdictsOf service shifts, v.badge.task = t := by
    intro v hv
    obtain ⟨s, hs, hv⟩ := List.mem_flatMap.mp hv
    rw [((s.judged service (h.routed s hs)).own v hv)]
    exact (h.own s hs).1
  refine ⟨⟨hnetwork ▸ h.pleas, h.routed, fun u => ?_⟩, hexit.trans h.exit⟩
  rw [hnetwork]
  by_cases hu : u = t
  · subst hu
    obtain ⟨given, hgiven, hwork⟩ := h.work
    let state := TaskState.ofProgress now result.2
    refine ⟨given, hgiven, fun due hdue => ⟨state.atWork, ⟨state.atWork_length, fun _ => ?_⟩, ?_⟩⟩
    · exact (atWork_of_found htask).symm
    · rw [hdue.2 hlive, hwork, verdictsBy, List.filter_eq_self.mpr]
      intro v hv
      simpa using hbadge v hv
  · refine ⟨[], (h.others u hu).trans (List.append_nil _).symm, fun due hdue => ⟨due, ⟨hdue.1, ?_⟩, ?_⟩⟩
    · rw [hothers u hu, atWork, hothers u hu]
      exact hdue.2
    · have hnone : verdictsBy service u shifts = [] := by
        refine List.filter_eq_nil_iff.mpr fun v hv => ?_
        simpa [hbadge v hv] using Ne.symm hu
      rw [hnone, List.append_nil]
      rfl

end Cluster

end Replica
