import Replica.Proofs.Cluster.TaskChanges

/-!
# Supervision

Workers ask for the end of the process, and nobody else does. Along every run of a cluster in which no
request is given a detour, they do so for the defects of services that are alive and for nothing else, and
the first to ask is kept (`Supervised`). A worker leaves after a defect, having sent nothing. After all
other endings but one it goes on for as long as its service is alive and its mailbox is open, whatever becomes
of the other workers.

The one is a crash. The worker is gone as it is after a defect, while its service may well be alive, and
nobody asks for the end of the process (`crash_unsupervised`).
-/

namespace Replica.Cluster

open Network

variable {σ : Type} (service : Service σ) {c c' : Cluster σ} {now : Nat} {t : TaskId} {event : Event σ}
variable {state : TaskState}

/-! ## Events -/

/-- A task that begins leaves the exit to the first of its shifts that asks for the end. -/
theorem begin_keepsExit (now : Nat) (call : Call) (hc : c.Sound) :
    KeepsExit service c (c.shiftsOnCall now c.tasks.length call) (c.begin service now call) := by
  have hnew : c.tasks[c.tasks.length]? = none := List.getElem?_eq_none (Nat.le_refl _)
  have hidle : c.atWork c.tasks.length = [] := by rw [atWork, hnew]; rfl
  have hattends := undertake_attends service now c.tasks.length call hc.routed
  rw [← hidle] at hattends
  have hnetwork : (c.begin service now call).network = _ := rfl
  apply hattends.keepsExit service hnetwork rfl
  · rw [hnew]
    rintro ⟨⟩
  · exact task_begun service
  · exact fun u hu => task_begin_of_ne service hu

/-- So does a task that has a turn. -/
theorem turn_keepsExit (now : Nat) (t : TaskId) (hc : c.Sound) :
    KeepsExit service c (c.shiftsOnTurn now t) (c.turn service now t) := by
  by_cases running : ∃ job, c.tasks[t]? = some (.running job)
  · obtain ⟨job, found⟩ := running
    have hattends := resume_attends service now t job hc.routed
    rw [← atWork_of_found found] at hattends
    rw [shiftsOnTurn_of_running found]
    apply hattends.keepsExit service
    · exact network_turn service found
    · rw [Cluster.turn, found]
    · rw [found]
      rintro ⟨⟩
    · exact task_turned service found
    · exact fun u hu => task_turn_of_ne service found hu
  · rw [turn_of_not_running service running, shiftsOnTurn_of_not_running running]
    exact .refl service c

/-- So does a worker that is hired. -/
theorem hire_keepsExit (now : Nat) (s : ServerId) (place : Nat) (hc : c.Sound) :
    KeepsExit service c (c.shiftsOnCall now c.tasks.length (.work s place)) (c.hire service now s place) :=
  have h := begin_keepsExit service now (.work s place) hc
  ⟨⟨h.pleas, h.routed, h.work⟩, h.exit⟩

/-- Hiring a worker leaves the cluster sound. -/
theorem hire_sound (now : Nat) (s : ServerId) (place : Nat) (hc : c.Sound) :
    (c.hire service now s place).Sound := by
  obtain ⟨written, hbegin⟩ := begin_advances service now (.work s place) hc
  have hhired : Advances written c (c.hire service now s place) := hbegin.congr rfl rfl
  exact hhired.sound hc

/-- Several workers that are hired leave the exit to the first of their shifts that asks for the end. -/
theorem hirings_keepsExit (now : Nat) (s : ServerId) (places : List Nat) (hc : c.Sound) :
    KeepsExit service c (hirings service now s places c) (places.foldl (hire service now s) c) := by
  induction places generalizing c with
  | nil => exact .refl service c
  | cons place places ih =>
    exact (hire_keepsExit service now s place hc).trans (ih (hire_sound service now s place hc))

/-- A task that is cancelled asks for nothing. -/
theorem cancel_keepsExit (t : TaskId) (c : Cluster σ) : KeepsExit service c [] (c.cancel t).1 := by
  obtain ⟨written, hcancels⟩ := cancel_cancels t c
  have hnetwork : WritesTraffic c.network (c.cancel t).1.network ∧ (c.cancel t).1.exit = c.exit := by
    have habandon (job : Job) : (c.abandon t job).exit = c.exit := by
      unfold abandon
      split <;> rfl
    unfold Cluster.cancel
    split
    · exact ⟨(abandon_effects t _ c).writesTraffic, habandon _⟩
    · exact ⟨.refl c.network, rfl⟩
  refine ⟨.of_silent service hnetwork.1.pleas hnetwork.1.hands fun u => ?_,
    hnetwork.2.trans Option.or_none.symm⟩
  exact (hcancels.tasks u).imp_right And.right

/-- Neither do workers that are dismissed. -/
theorem dismissWorkers_keepsExit (s : ServerId) (c : Cluster σ) :
    KeepsExit service c [] (c.dismissWorkers s) := by
  refine dismissWorkers_induct (P := KeepsExit service c []) (.refl service c) ?_ ?_
  · exact fun _ _ t _ c' h => h.trans (cancel_keepsExit service t c')
  · exact fun _ h => ⟨⟨h.pleas, h.routed, h.work⟩, h.exit⟩

/-- Nodes come and go, and tasks stay where they are. -/
theorem WorksInShifts.of_resets {written : List Occurrence} (h : Resets written c.network c'.network)
    (htasks : c'.tasks = c.tasks) : WorksInShifts service c [] c' := by
  apply WorksInShifts.of_silent
  · have hnone : written.filterMap (·.plea?) = [] := by
      refine List.filterMap_eq_nil_iff.mpr fun what hmem => ?_
      obtain ⟨box, requests, rfl⟩ := h.discards what hmem
      rfl
    rw [h.story, Network.pleas, List.filterMap_append, hnone, List.append_nil, Network.pleas]
  · intro t
    rw [h.story, hands_append, h.hands, List.append_nil]
  · intro t
    rw [htasks]
    exact .inl rfl

/-- Whoever only resets nodes asks for nothing. -/
theorem KeepsExit.of_resets {written : List Occurrence} (h : Resets written c.network c'.network)
    (htasks : c'.tasks = c.tasks) (hexit : c'.exit = c.exit) : KeepsExit service c [] c' :=
  ⟨.of_resets service h htasks, hexit.trans Option.or_none.symm⟩

/-- Upkeep asks for nothing, and keeps the exit unless this is cleared. -/
theorem upkeep_keepsExit (h : event.IsUpkeep) (hkeeps : event ≠ .clearExit) (c : Cluster σ) :
    KeepsExit service c [] (c.step service event) := by
  obtain ⟨written, hresets⟩ := (step_upkeep service h c).resets
  exact .of_resets service hresets (tasks_upkeep service h c) (exit_upkeep service h hkeeps c)

/-- Every event comes to its shifts, and keeps what was kept unless it says otherwise. -/
theorem step_keepsExit (hc : c.Sound) (hstays : ∀ owner other, event ≠ .divert owner other)
    (hkeeps : event ≠ .clearExit) :
    KeepsExit service c (c.shiftsOn service event) (c.step service event) := by
  have hupkeep (h : event.IsUpkeep) : KeepsExit service c [] (c.step service event) :=
    upkeep_keepsExit service h hkeeps c
  cases event with
  | divert owner other => exact absurd rfl (hstays owner other)
  | startWorkers now s => exact hirings_keepsExit service now s _ hc
  | dismissWorkers s => exact dismissWorkers_keepsExit service s c
  | begin now call => exact begin_keepsExit service now call hc
  | turn now t => exact turn_keepsExit service now t hc
  | cancel t => exact cancel_keepsExit service t c
  | clearExit => exact absurd rfl hkeeps
  | _ => exact hupkeep trivial

/-- In every event, what is asked for and worked on is so in the shifts of the event. -/
theorem step_worksInShifts (hc : c.Sound) (hstays : ∀ owner other, event ≠ .divert owner other) :
    WorksInShifts service c (c.shiftsOn service event) (c.step service event) := by
  cases event with
  | clearExit => exact .of_resets service (.refl c.network) rfl
  | _ => exact (step_keepsExit service hc hstays nofun).toWorksInShifts

/-! ## Where shifts leave workers -/

/-- A shift leaves its worker where its turn ends. -/
theorem hirings_posted (now : Nat) (s : ServerId) (places : List Nat) (hc : c.Sound) :
    ∀ shift ∈ hirings service now s places c,
      (places.foldl (hire service now s) c).tasks[shift.badge.task]? = some (shift.state service) := by
  induction places generalizing c with
  | nil => exact List.forall_mem_nil _
  | cons place places ih =>
    refine List.forall_mem_append.mpr ⟨fun shift hshift => ?_, ih (hire_sound service now s place hc)⟩
    have hattends := undertake_attends service now c.tasks.length (.work s place) hc.routed
    obtain ⟨htask, hstate⟩ := hattends.own shift hshift
    have hhired : (c.hire service now s place).tasks[shift.badge.task]? = some (shift.state service) := by
      show (c.begin service now (.work s place)).tasks[shift.badge.task]? = _
      rw [htask, hstate, task_begun]
    exact task_hirings service now s places hhired

/-- A worker that has had a shift is found where the shift has left it. -/
theorem step_posted (hc : c.Sound) : ∀ shift ∈ c.shiftsOn service event,
    (c.step service event).tasks[shift.badge.task]? = some (shift.state service) := by
  cases event with
  | startWorkers now s => exact hirings_posted service now s _ hc
  | begin now call =>
    intro shift hshift
    have hattends := undertake_attends service now c.tasks.length call hc.routed
    obtain ⟨htask, hstate⟩ := hattends.own shift hshift
    show (c.begin service now call).tasks[shift.badge.task]? = _
    rw [htask, hstate, task_begun]
  | turn now t =>
    intro shift hshift
    obtain ⟨job, found, hshift⟩ := exists_running_of_mem_shiftsOnTurn hshift
    have hattends := resume_attends service now t job hc.routed
    obtain ⟨htask, hstate⟩ := hattends.own shift hshift
    show (c.turn service now t).tasks[shift.badge.task]? = _
    rw [htask, hstate, task_turned service found]
  | _ => exact List.forall_mem_nil _

/-! ## Runs -/

variable {events before after : List (Event σ)}

/-- Along a run, what is asked for and worked on is so in the shifts of the run. -/
theorem run_worksInShifts (hc : c.Sound) (hstays : ∀ owner other, Event.divert owner other ∉ events) :
    WorksInShifts service c (shifts service events c) (c.run service events) := by
  induction events generalizing c with
  | nil => exact .refl service c
  | cons event events ih =>
    obtain ⟨hfirst, hrest⟩ := stays_cons.mp hstays
    exact (step_worksInShifts service hc hfirst).trans (ih (step_sound service hc hfirst) hrest)

/-- Along a run that does not clear it, the exit is that of the first shift to ask for the end. -/
theorem run_keepsExit (hc : c.Sound) (hstays : ∀ owner other, Event.divert owner other ∉ events)
    (hkeeps : Event.clearExit ∉ events) :
    KeepsExit service c (shifts service events c) (c.run service events) := by
  induction events generalizing c with
  | nil => exact .refl service c
  | cons event events ih =>
    obtain ⟨hfirst, hrest⟩ := stays_cons.mp hstays
    rw [List.mem_cons, not_or] at hkeeps
    obtain ⟨hkept, hkeeps⟩ := hkeeps
    exact (step_keepsExit service hc hfirst (Ne.symm hkept)).trans
      (ih (step_sound service hc hfirst) hrest hkeeps)

/-- A task that has ended stays as it was. -/
theorem finished_run (hstays : ∀ owner other, Event.divert owner other ∉ events)
    (found : c.tasks[t]? = some state) (hends : state.isRunning = false) :
    (c.run service events).tasks[t]? = some state := by
  induction events generalizing c with
  | nil => exact found
  | cons event events ih =>
    obtain ⟨hfirst, hrest⟩ := stays_cons.mp hstays
    refine ih hrest (task_step service hfirst found fun hrunning => ?_)
    exact absurd (hrunning.symm.trans hends) Bool.noConfusion

/-- A shift of a run is one of an event of the run. -/
theorem exists_event_of_mem_shifts {shift : Shift σ} (h : shift ∈ shifts service events c) :
    ∃ before event after, events = before ++ event :: after ∧
      shift ∈ (c.run service before).shiftsOn service event := by
  induction events generalizing c with
  | nil => cases h
  | cons event events ih =>
    rcases List.mem_append.mp h with h | h
    · exact ⟨[], event, events, rfl, h⟩
    · obtain ⟨before, event', after, rfl, hshift⟩ := ih h
      exact ⟨event :: before, event', after, rfl, hshift⟩

/-! ## Supervised workers -/

variable {settings : Settings} {dice : Nat → UInt64}

/-- The turns that workers have had along the events. -/
abbrev shiftsAlong (service : Service σ) (settings : Settings) (dice : Nat → UInt64)
    (events : List (Event σ)) : List (Shift σ) :=
  shifts service events { network := { settings, dice } }

/-- The worker waits for something, or has a reason to leave that is nobody's defect. -/
inductive GoesOn (service : Service σ) (s : Shift σ) : Prop where
  | waits (stage : Working) (hwaits : (s.finish service).2 = .waits stage) (hstage : stage ≠ .idle)
  | stops (hleaves : (s.finish service).2 = .leaves .stopped)
    (hdead : service.isAlive (s.finish service).1.state = false)
  | interrupted (node : PeerId)
    (hleaves : (s.finish service).2 = .leaves (.interrupted (.shutdown node)))

/-- The worker's last work is the one that had the verdict, and it ends there, sending nothing. -/
structure EndsAfter (service : Service σ) (s : Shift σ) (v : Verdict σ) (why : Departure)
    (c : Cluster σ) : Prop where
  last : (s.verdicts service).getLast? = some v
  hushed : ∃ entries, (s.finish service).1.network = v.desk.network.report entries
  departed : c.tasks[v.badge.task]? = some (.finished s.now (.departed why))

/-- How workers are supervised along the events. -/
structure Supervised (service : Service σ) (settings : Settings) (dice : Nat → UInt64)
    (events : List (Event σ)) : Prop where
  /-- What was asked for is what the verdicts say: each defect of a service that was alive then. -/
  pleas : Network.pleas (storyOf service settings dice events) =
    pleasOf service (shiftsAlong service settings dice events)
  /-- There is a verdict on each request that a service got, unless it is still at work on it or the
  worker was cancelled. -/
  work : ∀ t, ∃ due, (reached service settings dice events).Owes t due ∧
    hands t (storyOf service settings dice events) =
      (verdictsBy service t (shiftsAlong service settings dice events)).map (·.request.plain) ++
        due.map Request.plain
  /-- A worker leaves after a defect, and after a crash. -/
  ends : ∀ s ∈ shiftsAlong service settings dice events, ∀ v ∈ s.verdicts service, ∀ why,
    v.departure? service = some why → EndsAfter service s v why (reached service settings dice events)
  /-- It goes on after everything else. -/
  goesOn : ∀ s ∈ shiftsAlong service settings dice events,
    (∀ v ∈ s.verdicts service, v.departure? service = none) → GoesOn service s
  /-- Tasks are where their shifts have left them. -/
  posted : ∀ before event after, events = before ++ event :: after →
    ∀ s ∈ (reached service settings dice before).shiftsOn service event,
      (reached service settings dice (before ++ [event])).tasks[s.badge.task]? = some (s.state service)
  /-- Nobody else's defects, and nothing else that is not about it, ends a task. -/
  others : ∀ before event after, events = before ++ event :: after → ∀ (t : TaskId) (job : Job),
    (reached service settings dice before).tasks[t]? = some (.running job) →
      ¬ event.Touches (reached service settings dice before) t →
        (reached service settings dice (before ++ [event])).tasks[t]? = some (.running job)
  /-- The first to ask for the end of the process is kept until somebody clears it away. -/
  first : ∀ before after, events = before ++ after → Event.clearExit ∉ after →
    (reached service settings dice events).exit = (reached service settings dice before).exit.or
      ((pleasOf service (shifts service after (reached service settings dice before))).head?.map
        (·.record))
  cleared : ∀ before after, events = before ++ .clearExit :: after →
    (reached service settings dice (before ++ [.clearExit])).exit = none

/-- A worker goes on after a shift without a verdict that makes it depart. -/
theorem goesOn_of_judged {s : Shift σ} (hnet : s.desk.network.Routed)
    (h : ∀ v ∈ s.verdicts service, v.departure? service = none) : GoesOn service s := by
  have hjudged := s.judged service hnet
  have hidle := s.finish_ne_idle service
  have hpace : (s.finish service).2 = .ofProgress (s.result service).2 := rfl
  cases hprogress : (s.result service).2 with
  | waiting stage =>
    rw [hprogress] at hpace
    refine .waits stage hpace ?_
    rintro rfl
    exact hidle hpace
  | ended why =>
    rw [hprogress] at hpace
    have hexplained := hjudged.explained why (by rw [hpace]; rfl)
    cases why with
    | stopped => exact .stops hpace hexplained
    | interrupted e =>
      obtain ⟨node, rfl⟩ := hexplained
      exact .interrupted node hpace
    | silent e =>
      obtain ⟨v, hlast, hdefect, -⟩ := hexplained
      cases (h v (List.mem_of_getLast? hlast)).symm.trans (Verdict.departure?_of_defect hdefect)
    | terminated e =>
      obtain ⟨v, hlast, hdefect, -⟩ := hexplained
      cases (h v (List.mem_of_getLast? hlast)).symm.trans (Verdict.departure?_of_defect hdefect)
    | crashed =>
      obtain ⟨v, hlast, hending⟩ := hexplained
      cases (h v (List.mem_of_getLast? hlast)).symm.trans (Verdict.departure?_of_crash hending)

/-- A worker that leaves is a task that has ended. -/
theorem state_of_departure {s : Shift σ} {why : Departure}
    (h : (s.finish service).2.departure? = some why) :
    s.state service = .finished s.now (.departed why) := by
  change (Pace.ofProgress (s.result service).2).departure? = some why at h
  unfold Shift.state
  generalize (s.result service).2 = progress at h
  cases progress with
  | waiting stage => cases h
  | ended why' =>
    cases h
    rfl

/-- On a new network, what is asked for and worked on is so in the shifts of the run. -/
theorem reached_worksInShifts (hstays : ∀ owner other, Event.divert owner other ∉ events) :
    WorksInShifts service { network := { settings, dice } } (shiftsAlong service settings dice events)
      (reached service settings dice events) :=
  run_worksInShifts service (Kept.nil service).sound hstays

/-- A worker is found where its shift has left it. -/
theorem reached_posted (hstays : ∀ owner other, Event.divert owner other ∉ before) :
    ∀ s ∈ (reached service settings dice before).shiftsOn service event,
      (reached service settings dice (before ++ [event])).tasks[s.badge.task]? =
        some (s.state service) := by
  rw [reached_concat]
  exact step_posted service (kept_reached service hstays).sound

/-- A verdict that makes a worker depart is its last one, and the worker never comes back. -/
theorem endsAfter_of_departure (hstays : ∀ owner other, Event.divert owner other ∉ events)
    {s : Shift σ} (hs : s ∈ shiftsAlong service settings dice events) {v : Verdict σ}
    (hv : v ∈ s.verdicts service) {why : Departure} (hwhy : v.departure? service = some why) :
    EndsAfter service s v why (reached service settings dice events) := by
  have hjudged := s.judged service ((reached_worksInShifts service hstays).routed s hs)
  obtain ⟨hlast, hends⟩ := hjudged.ends v hv why hwhy
  obtain ⟨before, event, after, rfl, hshift⟩ := exists_event_of_mem_shifts service hs
  obtain ⟨hbefore, hafter⟩ := stays_append.mp hstays
  have hfound := reached_posted service hbefore s hshift
  rw [state_of_departure service hends.departs] at hfound
  refine ⟨hlast, hends.hushed, ?_⟩
  rw [hjudged.own v hv, List.append_cons, reached_append]
  exact finished_run service (stays_cons.mp hafter).2 hfound rfl

/-- On a new network, with any settings, any numbers from the random source, any services, any tasks and any
changes of nodes, servers and services: as long as no request is given a detour, workers are
supervised. -/
theorem workers_supervised (service : Service σ) (settings : Settings) (dice : Nat → UInt64)
    (events : List (Event σ)) (hstays : ∀ owner other, Event.divert owner other ∉ events) :
    Supervised service settings dice events := by
  have hinShifts : WorksInShifts service { network := { settings, dice } } _ _ :=
    reached_worksInShifts service hstays
  constructor
  · exact hinShifts.pleas
  · intro t
    obtain ⟨given, hgiven, hwork⟩ := hinShifts.work t
    obtain ⟨due, hdue, heq⟩ := hwork [] ⟨Nat.zero_le 1, fun _ => rfl⟩
    exact ⟨due, hdue, hgiven.trans heq⟩
  · exact fun s hs v hv why hwhy => endsAfter_of_departure service hstays hs hv hwhy
  · exact fun s hs => goesOn_of_judged service (hinShifts.routed s hs)
  · rintro before event after rfl
    exact reached_posted service (stays_append.mp hstays).1
  · rintro before event after rfl t job hrunning htouches
    obtain ⟨hevent, -⟩ := stays_cons.mp (stays_append.mp hstays).2
    rw [reached_concat]
    exact task_step service hevent hrunning fun _ => htouches
  · rintro before after rfl hkeeps
    obtain ⟨hbefore, hafter⟩ := stays_append.mp hstays
    rw [reached_append]
    exact (run_keepsExit service (kept_reached service hbefore).sound hafter hkeeps).exit
  · intro before after _
    rw [reached_concat]
    rfl

section

/-- What the client asks of the node. -/
private def order (number : UInt64) (body : String) : Request where
  requestor := "c"
  target := "s"
  callId := number
  body := body

/-- The first worker replies and then breaks down, the second replies to somebody else, and the third finds
a defect when its server has stopped. A worker of another server goes on without a reply. -/
private def trouble : List (Event Echo) :=
  [.register 0 "s", .serve "s" "w" {}, .serve "s" "v" {}, .startWorkers 0 0, .begin 0 (.send (order 0 "hello")),
    .begin 0 (.send (order 1 "panic")), .turn 0 0, .begin 1 (.send (order 2 "wrong-requestor")),
    .turn 1 1, .begin 2 (.send (order 3 "stop-and-break")), .turn 2 2, .begin 3 (.work 1 0),
    .begin 3 (.send (order 4 "ignore")), .turn 3 7]

theorem workers_supervised_in_trouble :
    (∀ owner other, Event.divert owner other ∉ trouble) ∧
      (Network.pleas (storyOf Echo.service { workers := 3 } (fun _ => 0) trouble)).map
        (fun plea => (plea.worker, plea.record.message)) =
          [(0, "s.w0 is terminating"), (1, "s.w1 is terminating")] ∧
      (reached Echo.service { workers := 3 } (fun _ => 0) trouble).exit =
        some ⟨1, "s.w0 is terminating"⟩ ∧
      (reached Echo.service { workers := 3 } (fun _ => 0) trouble).tasks[2]? =
        some (.finished 2 (.departed (.silent (.invariantViolation "broken while stopping")))) ∧
      (reached Echo.service { workers := 3 } (fun _ => 0) trouble).isRunning 7 = true ∧
      (hands 7 (storyOf Echo.service { workers := 3 } (fun _ => 0) trouble)).map (·.callId) = [4] ∧
      Supervised Echo.service { workers := 3 } (fun _ => 0) trouble :=
  ⟨by simp [trouble], by rfl, by rfl, by rfl, by rfl, by rfl,
    workers_supervised Echo.service { workers := 3 } (fun _ => 0) trouble (by simp [trouble])⟩

/-- A service that crashes whatever it is asked. -/
private def brittle : Service Unit where
  isAlive _ := true
  serve _ s := (s, { ending := .crash, crash_at_once := fun _ => rfl })

private def collapse : List (Event Unit) :=
  [.register 0 "s", .serve "s" "w" (), .startWorkers 0 0, .begin 0 (.send (order 0 "hello")), .turn 0 0]

/-- A service that is alive and stays alive breaks down at a request, and its worker is gone. Nobody asks for
the end of the process, and the sender waits. -/
theorem crash_unsupervised :
    (∀ s, brittle.isAlive s = true) ∧
      (hands 0 (storyOf brittle {} (fun _ => 0) collapse)).map (·.callId) = [0] ∧
      (reached brittle {} (fun _ => 0) collapse).tasks[0]? = some (.finished 0 (.departed .crashed)) ∧
      Network.pleas (storyOf brittle {} (fun _ => 0) collapse) = [] ∧
      (reached brittle {} (fun _ => 0) collapse).exit = none ∧
      (reached brittle {} (fun _ => 0) collapse).isRunning 1 = true :=
  ⟨fun _ => rfl, by rfl, by rfl, by rfl, by rfl, by rfl⟩

end

end Replica.Cluster
