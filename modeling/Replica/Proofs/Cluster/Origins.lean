import Replica.Proofs.Cluster.Senders

/-!
# How tasks come to where they are

A task that has set out with a request is under way with it or has heard how it ended (`progress?`). After
an event it is where it was before, or it has had a turn as a sender, or it has set out in the event
(`step_progress`). So whatever a task has heard of its request it has heard in one event of the run
(`heard_in`). Under a clock that stands still while tasks can go on (`Timely`) no sender waits beyond its
deadline (`Timely.le_deadline`).
-/

namespace Replica

open Network

/-- How far the task has come with a request that it has set out with. -/
def TaskState.progress? : TaskState → Option SendProgress
  | .running (.send stage) | .running (.linkSend stage) | .running (.relay _ _ (.sending stage)) =>
    some (.waiting stage)
  | .running (.relay _ _ (.repairing _ sent)) => some (.ended sent)
  | .finished _ (.outcome outcome) => some (.ended outcome)
  | .finished _ (.relayed sent _) => some (.ended sent)
  | _ => none

theorem Progress.map_id {τ α : Type} (progress : Progress τ α) : progress.map id id = progress := by
  cases progress <;> rfl

/-- A detour of a request that is under way. -/
def Network.SendProgress.divert (owner : TaskId) (other : PeerId) : SendProgress → SendProgress
  | .waiting stage => .waiting (stage.divert owner other)
  | .ended o => .ended o

/-- A detour of a task's request leaves the task where it is with it. -/
theorem TaskState.progress?_divert (owner : TaskId) (other : PeerId) (state : TaskState) :
    (state.divert owner other).progress? =
      state.progress?.map (Network.SendProgress.divert owner other) := by
  cases state with
  | running job =>
    cases job with
    | relay d via stage => cases stage <;> rfl
    | _ => rfl
  | finished time answer => cases answer <;> rfl
  | cancelled => rfl

/-- A task that has heard how its request ended is at the end with it. -/
theorem TaskState.progress?_of_heard? {state : TaskState} {o : Outcome} (h : state.heard? = some o) :
    state.progress? = some (.ended o) := by
  cases state with
  | running job =>
    cases job with
    | relay d via stage =>
      cases stage with
      | repairing k sent =>
        cases h
        rfl
      | _ => cases h
    | _ => cases h
  | finished time answer =>
    cases answer with
    | outcome outcome =>
      cases h
      rfl
    | relayed sent reset =>
      cases h
      rfl
    | _ => cases h
  | cancelled => cases h

/-- A task that sends is where its sender is. -/
theorem Job.Sends.progress? {job : Job} {stage : Sending} {hear : Outcome → Outcome}
    (h : job.Sends stage hear) : (TaskState.running job).progress? = some (.waiting stage) := by
  cases h <;> rfl

namespace Network

variable {net : Network} {now : Nat} {box box' : MailboxId} {r r' : Request} {slip : SlipId}
variable {deadline : Nat} {stage : Sending}

/-- A sender that has just been entered has all its time before it. -/
theorem trySend_deadline
    (h : (net.trySend now box r).2 = .waiting (.waiting box' r' slip deadline)) :
    deadline = now + net.settings.replyTimeout.toNat := by
  unfold trySend at h
  split at h
  · cases h
  · split at h
    · cases h
    · unfold enqueue at h
      split at h
      · cases h
      · dsimp only at h
        split at h
        · cases h
        · obtain ⟨-, hstage⟩ := checkSlip_waiting h
          cases hstage
          rfl

/-- A sender that begins to wait does so for as long as the settings say. -/
theorem beginSend_deadline (h : (net.beginSend now r).2 = .waiting (.waiting box' r' slip deadline)) :
    deadline = now + net.settings.replyTimeout.toNat := by
  unfold beginSend at h
  split at h
  · cases h
  · exact trySend_deadline h

/-- A sender that goes on keeps its deadline, or begins to wait. -/
theorem turnSend_deadline (h : (net.turnSend now stage).2 = .waiting (.waiting box' r' slip deadline)) :
    deadline = now + net.settings.replyTimeout.toNat ∨ stage = .waiting box' r' slip deadline := by
  cases stage with
  | blocked box r wake =>
    rw [turnSend] at h
    split at h
    · exact .inl (trySend_deadline h)
    · cases h
  | waiting box r slip deadline =>
    obtain ⟨-, hstage⟩ := checkSlip_waiting h
    exact .inr hstage.symm

/-- So it is over a link. -/
theorem setOut_deadline {way : Option (Link × Bool)}
    (h : (net.setOut now way r).2 = .waiting (.waiting box' r' slip deadline)) :
    deadline = now + net.settings.replyTimeout.toNat := by
  cases way with
  | none => exact beginSend_deadline h
  | some link =>
    rw [setOut, beginLinkSend] at h
    split at h
    · cases h
    · have hbegin : (net.beginSend now r).2 = .waiting (.waiting box' r' slip deadline) := by
        revert h
        show ((net.beginSend now r).2.map id Link.outcome = _) → _
        cases (net.beginSend now r).2 with
        | waiting stage => exact fun h => by cases h; rfl
        | ended raw => nofun
      exact beginSend_deadline hbegin

end Network

namespace Cluster

variable {σ : Type} (service : Service σ) {c : Cluster σ} {now : Nat} {t : TaskId} {event : Event σ}
variable {state : TaskState} {job : Job} {stage : Sending} {hear : Outcome → Outcome} {o : Outcome}
variable {progress : SendProgress} {d : DirectoryId} {via : PeerId} {k : TaskId} {r : Request}

/-- How far the task has come with a request that it has set out with. -/
def progress? (t : TaskId) (c : Cluster σ) : Option SendProgress := c.tasks[t]?.bind TaskState.progress?

/-- How far a task has come is read off its state. -/
theorem progress?_of_found (found : c.tasks[t]? = some state) : c.progress? t = state.progress? := by
  rw [progress?, found]
  rfl

/-! ## Setting out and going on -/

/-- A task that sends is, after its turn, where its sender is. -/
theorem afterNetwork_progress {stage : Sending → Job} {result : Network × SendProgress}
    (hstage : ∀ s, (TaskState.running (stage s)).progress? = some (.waiting s)) :
    (TaskState.ofProgress now (c.afterNetwork stage .outcome result).2).progress? = some result.2 := by
  obtain ⟨net, progress⟩ := result
  cases progress with
  | waiting s => exact hstage s
  | ended outcome => rfl

/-- So is a relay. -/
theorem afterRelay_progress {result : Network × SendProgress} :
    (TaskState.ofProgress now (c.afterRelay now d via result).2).progress? = some result.2 := by
  obtain ⟨net, progress⟩ := result
  cases progress with
  | waiting s => rfl
  | ended sent => exact TaskState.progress?_of_heard? (afterRelay_ended rfl)

/-- A relay that has its link is where its sender is, and one that has not has sent nothing yet. -/
theorem waitForLink_progress : (TaskState.ofProgress now (c.waitForLink now d via k r).2).progress? =
    (c.linkOf? d k).map fun l => (c.network.beginLinkSend now l (c.isShut l) r).2 := by
  cases hl : c.linkOf? d k with
  | some l =>
    rw [waitForLink_eq via hl]
    exact afterRelay_progress
  | none =>
    unfold linkOf? at hl
    unfold waitForLink
    dsimp only
    split
    · rfl
    · next h hanswer =>
      simp only [hanswer] at hl
      simp only [hl]
      rfl
    · rfl

/-- A task that does not send. -/
theorem progress_none {τ α : Type} {stage : τ → Job} {answer : α → Answer} (progress : Progress τ α)
    (hstage : ∀ s, (TaskState.running (stage s)).progress? = none)
    (hanswer : ∀ a, (TaskState.finished now (answer a)).progress? = none) :
    (TaskState.ofProgress now (progress.map stage answer)).progress? = none := by
  cases progress with
  | waiting s => exact hstage s
  | ended a => exact hanswer a

/-- Workers set out with no request. -/
theorem work_progress {s : ServerId} {place : Nat} {stage : Working} :
    (TaskState.ofProgress now (c.work service now t s place stage).2).progress? = none := by
  unfold work
  split
  · rfl
  · exact progress_none _ (fun _ => rfl) fun _ => rfl

/-- Whoever waits for a call on a map has set out with no request. -/
theorem waitForProxyCall_progress :
    (TaskState.ofProgress now (c.waitForProxyCall d k).2).progress? = none := by
  unfold waitForProxyCall
  split <;> rfl

/-- How a task comes to where it is with its request. -/
inductive Comes (c : Cluster σ) (t : TaskId) : Event σ → SendProgress → Prop where
  | stays (event : Event σ) {progress : SendProgress} (h : c.progress? t = some progress) :
    Comes c t event progress
  | diverted (event : Event σ) (owner : TaskId) (other : PeerId) {progress : SendProgress}
    (h : c.progress? t = some progress) : Comes c t event (progress.divert owner other)
  | goesOn (now : Nat) {stage : Sending} {hear : Outcome → Outcome} (h : c.SendsAt t stage hear) :
    Comes c t (.turn now t) ((c.network.turnSend now stage).2.map id hear)
  | setsOut {now : Nat} {event : Event σ} {way : Option (Link × Bool)} {r : Request}
    (h : SetsOut c t now event way r) : Comes c t event (c.network.setOut now way r).2

/-- A new task comes to where it is by setting out. -/
theorem undertake_comes {call : Call}
    (h : (TaskState.ofProgress now (c.undertake service now c.tasks.length call).2).progress? =
      some progress) : Comes c c.tasks.length (.begin now call) progress := by
  cases call with
  | send r =>
    cases (afterNetwork_progress fun _ => rfl).symm.trans h
    exact .setsOut (.direct r rfl)
  | linkSend l r =>
    cases (afterNetwork_progress fun _ => rfl).symm.trans h
    exact .setsOut (.link l r rfl)
  | relay d via r =>
    have hlink := waitForLink_progress.symm.trans h
    obtain ⟨l, hl, rfl⟩ := Option.map_eq_some_iff.mp hlink
    exact .setsOut (.relay d via r l rfl hl)
  | take node => cases (progress_none _ (fun _ => rfl) fun _ => rfl).symm.trans h
  | reply r outcome => cases (progress_none _ (fun _ => rfl) fun _ => rfl).symm.trans h
  | work s place => cases (work_progress service).symm.trans h
  | consult d call => cases waitForProxyCall_progress.symm.trans h

/-- A task that has its turn comes to where it is by going on, or by setting out over the link that it
waited for. -/
theorem resume_comes (found : c.tasks[t]? = some (.running job))
    (h : (TaskState.ofProgress now (c.resume service now t job).2).progress? = some progress) :
    Comes c t (.turn now t) progress := by
  cases job with
  | send stage =>
    cases (afterNetwork_progress fun _ => rfl).symm.trans h
    have hgoes : Comes c t (.turn now t) ((c.network.turnSend now stage).2.map id id) :=
      .goesOn now ⟨_, found, .direct stage⟩
    rwa [Progress.map_id] at hgoes
  | linkSend stage =>
    cases (afterNetwork_progress fun _ => rfl).symm.trans h
    exact .goesOn now ⟨_, found, .link stage⟩
  | take stage => cases (progress_none _ (fun _ => rfl) fun _ => rfl).symm.trans h
  | reply stage => cases (progress_none _ (fun _ => rfl) fun _ => rfl).symm.trans h
  | work s place stage => cases (work_progress service).symm.trans h
  | consult d k => cases waitForProxyCall_progress.symm.trans h
  | relay d via stage =>
    cases stage with
    | connecting k r =>
      have hlink := waitForLink_progress.symm.trans h
      obtain ⟨l, hl, rfl⟩ := Option.map_eq_some_iff.mp hlink
      exact .setsOut (.connected d via k r l found hl)
    | sending stage =>
      cases afterRelay_progress.symm.trans h
      exact .goesOn now ⟨_, found, .relay d via stage⟩
    | repairing k sent =>
      have hsame : (TaskState.ofProgress now (c.resume service now t
          (.relay d via (.repairing k sent))).2).progress? = some (.ended sent) := by
        simp only [resume, resumeRelay, waitForRepair]
        split <;> rfl
      cases hsame.symm.trans h
      exact .stays _ (progress?_of_found found)

/-- Wherever a task is with its request, it was there before, or has come there in the event. -/
theorem step_progress (h : (c.step service event).progress? t = some progress) :
    Comes c t event progress := by
  obtain ⟨state', found', hstate'⟩ := Option.bind_eq_some_iff.mp h
  cases found : c.tasks[t]? with
  | none =>
    cases step_taskBegins service found found' with
    | called now call ht =>
      subst ht
      exact undertake_comes service hstate'
    | hired event c' now s place => cases (work_progress service).symm.trans hstate'
  | some state =>
    obtain ⟨state'', found'', htaskChange⟩ := step_taskChange service found event
    cases found''.symm.trans found'
    cases htaskChange with
    | same event state => exact .stays event ((progress?_of_found found).trans hstate')
    | diverted owner other state =>
      rw [TaskState.progress?_divert] at hstate'
      obtain ⟨before, hbefore, rfl⟩ := Option.map_eq_some_iff.mp hstate'
      exact .diverted _ owner other ((progress?_of_found found).trans hbefore)
    | turned now job hnetwork => exact resume_comes service found hstate'
    | cancelled event job => cases hstate'

/-! ## What has been heard -/

variable {settings : Settings} {dice : Nat → UInt64} {events : List (Event σ)}

/-- In the event the task hears how its request has ended. -/
inductive Hears (c : Cluster σ) (t : TaskId) : Event σ → Outcome → Prop where
  | atOnce {now : Nat} {event : Event σ} {way : Option (Link × Bool)} {r : Request} {o : Outcome}
    (h : SetsOut c t now event way r) (hended : (c.network.setOut now way r).2 = .ended o) :
    Hears c t event o
  | lastly (now : Nat) {stage : Sending} {hear : Outcome → Outcome} {raw : Outcome}
    (h : c.SendsAt t stage hear) (hended : (c.network.turnSend now stage).2 = .ended raw) :
    Hears c t (.turn now t) (hear raw)

/-- A task that comes to the end in an event hears of it in this event. -/
theorem Comes.hears (h : Comes c t event progress) (hended : progress = .ended o) :
    c.progress? t = some (.ended o) ∨ Hears c t event o := by
  cases h with
  | stays event h => exact .inl (hended ▸ h)
  | @diverted event owner other progress h =>
    cases progress with
    | waiting stage => cases hended
    | ended o =>
      cases hended
      exact .inl h
  | @goesOn now stage hear h =>
    cases hturn : (c.network.turnSend now stage).2 with
    | waiting stage' =>
      rw [hturn] at hended
      cases hended
    | ended raw =>
      rw [hturn] at hended
      cases hended
      exact .inr (.lastly now h hturn)
  | setsOut h => exact .inr (.atOnce h hended)

/-- Whatever a task has heard it has heard in one event. -/
theorem heard_in (h : (reached service settings dice events).progress? t = some (.ended o)) :
    ∃ before event after, events = before ++ event :: after ∧
      Hears (reached service settings dice before) t event o := by
  induction events using List.reverseRecOn with
  | nil => cases h
  | append_singleton events event ih =>
    rw [reached_concat] at h
    rcases (step_progress service h).hears rfl with hbefore | hhears
    · obtain ⟨before, event', after, rfl, hhears⟩ := ih hbefore
      exact ⟨before, event', after ++ [event], by simp, hhears⟩
    · exact ⟨events, event, [], rfl, hhears⟩

/-! ## Under a clock -/

/-- The time that the event sees, if it looks at the clock. -/
def Event.time? : Event σ → Option Nat
  | .register now _ | .shutdown now _ | .clear now | .startWorkers now _ | .retire now _
  | .begin now _ | .turn now _ => some now
  | _ => none

/-- On a new network the clock shows zero when the events begin, and `now` when they are over. It moves on
only over instants at which no task can go on. -/
inductive Timely (service : Service σ) (settings : Settings) (dice : Nat → UInt64) :
    List (Event σ) → Nat → Prop where
  | start : Timely service settings dice [] 0
  | happens {events : List (Event σ)} {now : Nat} {event : Event σ}
    (h : Timely service settings dice events now) (hnow : event.time? = none ∨ event.time? = some now) :
    Timely service settings dice (events ++ [event]) now
  | passes {events : List (Event σ)} {now later : Nat} (h : Timely service settings dice events now)
    (hlater : now ≤ later) (hquiet : ∀ instant, now ≤ instant → instant < later →
      (schedule service).IsQuiet instant (reached service settings dice events)) :
    Timely service settings dice events later

/-- A task sets out at the time that its event sees. -/
theorem SetsOut.time? {way : Option (Link × Bool)} (h : SetsOut c t now event way r) :
    event.time? = some now := by
  cases h <;> rfl

/-- A task that has come to a stage with its request is sending it. -/
theorem sendsAt_of_progress? (h : c.progress? t = some (.waiting stage)) :
    ∃ hear, c.SendsAt t stage hear := by
  obtain ⟨state, found, hstate⟩ := Option.bind_eq_some_iff.mp h
  cases state with
  | running job =>
    cases job with
    | send stage =>
      cases hstate
      exact ⟨_, _, found, .direct stage⟩
    | linkSend stage =>
      cases hstate
      exact ⟨_, _, found, .link stage⟩
    | relay d via stage =>
      cases stage with
      | sending stage =>
        cases hstate
        exact ⟨_, _, found, .relay d via stage⟩
      | _ => cases hstate
    | _ => cases hstate
  | finished time answer => cases answer <;> cases hstate
  | cancelled => cases hstate

/-- A sender that waits in an event at the time has not come to its deadline. -/
theorem Comes.le_deadline {box : MailboxId} {slip : SlipId} {deadline : Nat}
    (h : Comes c t event progress) (hnow : event.time? = none ∨ event.time? = some now)
    (hbefore : ∀ r, c.progress? t = some (.waiting (.waiting box r slip deadline)) → now ≤ deadline)
    (hwaits : progress = .waiting (.waiting box r slip deadline)) : now ≤ deadline := by
  cases h with
  | stays event h => exact hbefore r (hwaits ▸ h)
  | @diverted event owner other progress h =>
    cases progress with
    | ended o => cases hwaits
    | waiting stage =>
      cases stage with
      | blocked box r wake => cases hwaits
      | waiting box r slip deadline =>
        cases hwaits
        exact hbefore r h
  | @goesOn now' stage hear h =>
    obtain rfl : now' = now := Option.some.inj (hnow.resolve_left nofun)
    have hturn : (c.network.turnSend now' stage).2 = .waiting (.waiting box r slip deadline) := by
      revert hwaits
      cases (c.network.turnSend now' stage).2 with
      | waiting stage' => exact fun hwaits => by cases hwaits; rfl
      | ended raw => nofun
    rcases turnSend_deadline hturn with rfl | rfl
    · exact Nat.le_add_right _ _
    · obtain ⟨job, found, hjob⟩ := h
      exact hbefore r ((progress?_of_found found).trans hjob.progress?)
  | @setsOut now' event way r' h =>
    obtain rfl : now' = now := by
      rw [h.time?] at hnow
      exact Option.some.inj (hnow.resolve_left nofun)
    rw [setOut_deadline hwaits]
    exact Nat.le_add_right _ _

/-- No sender waits beyond its deadline. -/
theorem Timely.le_deadline {box : MailboxId} {slip : SlipId} {deadline : Nat}
    (h : Timely service settings dice events now)
    (hwaits : (reached service settings dice events).progress? t =
      some (.waiting (.waiting box r slip deadline))) : now ≤ deadline := by
  induction h generalizing t r with
  | start => cases hwaits
  | @happens events now event h hnow ih =>
    rw [reached_concat] at hwaits
    exact (step_progress service hwaits).le_deadline hnow (fun r hbefore => ih hbefore) rfl
  | @passes events now later h hlater hquiet ih =>
    have hdue := ih hwaits
    refine Nat.le_of_not_lt fun hlt => ?_
    obtain ⟨hear, job, found, hjob⟩ := sendsAt_of_progress? hwaits
    have hready : (reached service settings dice events).isReady deadline t = true := by
      unfold isReady
      rw [found]
      cases hjob <;> simp [jobReady, sendReady]
    cases (hquiet deadline hdue hlt t).symm.trans hready

end Cluster

end Replica
