import Mathlib.Data.List.Induction
import Replica.Cluster.Echo
import Replica.Proofs.Cluster.Events
import Replica.Proofs.Cluster.Strides
import Replica.Proofs.Network.Watches

/-!
# No wake-up is lost

Takers of a cluster are tasks that take a request for themselves, and workers. Where they look is known from
the tasks (`Cluster.lookout`), and along every run the mailboxes are watched by the tasks that look there:
whatever a task does in its turn, and wherever it is cancelled, it changes nothing but its own lookout. So
when no task can go on before time passes there is no woken taker left, and therefore nobody looks for a
request where there is one, nor in a mailbox that is closed (`no_wake_up_lost`).
-/

namespace Replica

open Network

/-- Where the job looks for a request. -/
def Job.looking? : Job → Option MailboxId
  | .take stage | .work _ _ (.taking stage) => stage.looking?
  | _ => none

def TaskState.looking? : TaskState → Option MailboxId
  | .running job => job.looking?
  | _ => none

def Poise.looking? : Poise → Option MailboxId
  | .stands (.taking stage) => stage.looking?
  | _ => none

variable {net : Network} {place : TaskId → Option MailboxId} {t : TaskId} {now : Nat}

/-- A task that looks nowhere before and after changes nothing. -/
theorem Network.Watched.idle (h : net.Watched place) (hplace : place t = none) :
    net.Watched (Function.update place t none) := by
  rw [← hplace, Function.update_eq_self]
  exact h

/-! ## Workers -/

namespace Poise

/-- A worker looks for a request where its taker does. -/
theorem looking?_ofTake (progress : TakeProgress) : (ofTake progress).looking? = progress.looking? := by
  match progress with
  | .waiting stage => rfl
  | .ended (.ok r) => rfl
  | .ended (.error e) => rfl

/-- A worker that replies looks nowhere. -/
theorem looking?_ofReply (progress : ReplyProgress) : (ofReply progress).looking? = none := by
  match progress with
  | .waiting stage => rfl
  | .ended (.ok ()) => rfl
  | .ended (.error e) => rfl

/-- A worker that works looks nowhere. -/
theorem looking?_ofWork (now : Nat) (r : Request) (work : Work) : (ofWork now r work).looking? = none := by
  unfold ofWork
  split <;> rfl

end Poise

namespace Desk

variable {σ : Type} (service : Service σ) {badge : Badge} {start finish : Poise × Desk σ}

/-- One stride of a worker keeps the mailboxes watched, with the worker where it looks then. -/
theorem Stride.watched (h : Stride service now badge start finish) (hnet : start.2.network.Watched place)
    (hplace : place badge.task = start.1.looking?) :
    finish.2.network.Watched (Function.update place badge.task finish.1.looking?) := by
  cases h with
  | begin alive =>
    rw [Poise.looking?_ofTake]
    exact beginTake_watched now badge.node hnet hplace
  | take stage =>
    rw [Poise.looking?_ofTake]
    exact turnTake_watched now hnet hplace
  | engage r =>
    rw [Poise.looking?_ofWork]
    refine (hnet.idle hplace).of_eq ?_
    unfold Desk.engage
    rw [foldl_note]
    rfl
  | reply r reply =>
    rw [Poise.looking?_ofReply]
    exact (beginReply_watched now r _ hnet).idle hplace
  | fail r harmless =>
    rw [Poise.looking?_ofReply]
    exact (beginReply_watched now r _ hnet).idle hplace
  | answer stage =>
    rw [Poise.looking?_ofReply]
    exact (turnReply_watched now stage hnet).idle hplace
  | terminate inside alive => exact (hnet.idle hplace).of_eq rfl
  | stop dead | wake time | silence r | falter r fatal | panic r message | crash r | interrupt shutdown
  | hush inside dead => exact hnet.idle hplace

/-- So do many strides. -/
theorem Strides.watched (h : Strides service now badge start finish) (hnet : start.2.network.Watched place)
    (hplace : place badge.task = start.1.looking?) :
    finish.2.network.Watched (Function.update place badge.task finish.1.looking?) := by
  induction h with
  | refl =>
    rw [← hplace, Function.update_eq_self]
    exact hnet
  | tail _ hlast ih =>
    have hnext := hlast.watched service ih (Function.update_self ..)
    rwa [Function.update_idem] at hnext

end Desk

/-! ## Jobs -/

namespace Cluster

variable {σ : Type} (service : Service σ) {c c' : Cluster σ} {call : Call} {job : Job} {event : Event σ}

/-- What comes of a turn of the task: it may look elsewhere now, and the mailboxes are watched as before. -/
def Watches (now : Nat) (t : TaskId) (place : TaskId → Option MailboxId)
    (result : Cluster σ × JobProgress) : Prop :=
  result.1.network.Watched
    (Function.update place t (TaskState.ofProgress now result.2).looking?)

/-- A task that looks nowhere. -/
theorem Watches.of_watched {result : Cluster σ × JobProgress} (h : result.1.network.Watched place)
    (hlooks : (TaskState.ofProgress now result.2).looking? = none) (hplace : place t = none) :
    Watches now t place result := by
  rw [Watches, hlooks]
  exact h.idle hplace

/-- A task that sends looks nowhere, and senders lose no wake-up. -/
theorem sends_watches {stage : Sending → Job} {answer : Outcome → Answer}
    (hstage : ∀ s, (stage s).looking? = none) {result : Network × SendProgress}
    (h : result.1.Watched place) (hplace : place t = none) :
    Watches now t place (c.afterNetwork stage answer result) := by
  refine .of_watched h ?_ hplace
  obtain ⟨net, progress⟩ := result
  cases progress with
  | waiting s => exact hstage s
  | ended outcome => rfl

/-- A task that takes is found where its call looks. -/
theorem takes_watches {result : Network × TakeProgress}
    (h : result.1.Watched (Function.update place t result.2.looking?)) :
    Watches now t place (c.afterNetwork .take .request result) := by
  obtain ⟨net, progress⟩ := result
  cases progress <;> exact h

/-- A task that replies looks nowhere, and repliers lose no wake-up. -/
theorem replies_watches {result : Network × ReplyProgress} (h : result.1.Watched place)
    (hplace : place t = none) : Watches now t place (c.afterNetwork .reply .replied result) := by
  refine .of_watched h ?_ hplace
  obtain ⟨net, progress⟩ := result
  cases progress <;> rfl

/-- A worker's turn loses no wake-up, wherever the worker comes to in it. -/
theorem work_watches (now : Nat) (t : TaskId) (s : ServerId) (seat : Nat) (stage : Working)
    (hnet : c.network.Watched place) (hplace : place t = (Job.work s seat stage).looking?) :
    Watches now t place (c.work service now t s seat stage) := by
  unfold work
  split
  · rw [Watches, TaskState.ofProgress, TaskState.looking?, ← hplace, Function.update_eq_self]
    exact hnet
  · next server _ =>
    dsimp only
    have hstand : place t = (Poise.stands stage).looking? := by
      rw [hplace]
      cases stage <;> rfl
    have hwatched := (Desk.turn_strides service now
      { node := server.node, server := server.name, place := seat, task := t } stage
      { network := c.network, state := server.state, exit := c.exit }).watched service hnet hstand
    generalize Desk.turn service now _ _ _ = result at hwatched ⊢
    obtain ⟨desk, progress⟩ := result
    cases progress with
    | waiting stage => cases stage <;> exact hwatched
    | ended why => exact hwatched

/-- Sending over a link loses no wake-up. -/
theorem beginLinkSend_watched (now : Nat) (l : Link) (closed : Bool) (r : Request)
    (h : net.Watched place) : (net.beginLinkSend now l closed r).1.Watched place := by
  unfold beginLinkSend
  split
  · exact h
  · exact beginSend_watched now r h

/-- Neither does a sender over a link that goes on. -/
theorem turnLinkSend_watched (now : Nat) (stage : Sending) (h : net.Watched place) :
    (net.turnLinkSend now stage).1.Watched place :=
  turnSend_watched now stage h

/-- A task that waits for a call on a map looks nowhere. -/
theorem waitForProxyCall_watches (d : DirectoryId) (k : TaskId) (hnet : c.network.Watched place)
    (hplace : place t = none) : Watches now t place (c.waitForProxyCall d k) := by
  unfold waitForProxyCall
  split <;> exact .of_watched hnet rfl hplace

/-- Neither does a relay that waits for a repair. -/
theorem waitForRepair_watches (d : DirectoryId) (via : PeerId) (k : TaskId) (sent : Outcome)
    (hnet : c.network.Watched place) (hplace : place t = none) :
    Watches now t place (c.waitForRepair d via k sent) := by
  unfold waitForRepair
  split <;> exact .of_watched hnet rfl hplace

/-- Neither does a relay that has heard of its request. -/
theorem afterRelay_watches (d : DirectoryId) (via : PeerId) {result : Network × SendProgress}
    (h : result.1.Watched place) (hplace : place t = none) :
    Watches now t place (c.afterRelay now d via result) := by
  refine .of_watched (network_afterRelay ▸ h) ?_ hplace
  unfold afterRelay
  dsimp only
  split
  · rfl
  · unfold waitForRepair
    split <;> rfl
  · rfl

/-- Nor one that waits for its link. -/
theorem waitForLink_watches (d : DirectoryId) (via : PeerId) (k : TaskId) (r : Request)
    (hnet : c.network.Watched place) (hplace : place t = none) :
    Watches now t place (c.waitForLink now d via k r) := by
  unfold waitForLink
  dsimp only
  split
  · exact .of_watched hnet rfl hplace
  · split
    · exact afterRelay_watches d via (beginLinkSend_watched now _ _ r hnet) hplace
    · exact .of_watched hnet rfl hplace
  · exact .of_watched hnet rfl hplace

/-- A call that begins a task loses no wake-up. -/
theorem undertake_watches (now : Nat) (t : TaskId) (call : Call) (hnet : c.network.Watched place)
    (hplace : place t = none) : Watches now t place (c.undertake service now t call) := by
  cases call with
  | send r => exact sends_watches (fun _ => rfl) (beginSend_watched now _ hnet) hplace
  | take node => exact takes_watches (beginTake_watched now node hnet hplace)
  | reply r outcome => exact replies_watches (beginReply_watched now _ outcome hnet) hplace
  | work s seat => exact work_watches service now t s seat .idle hnet hplace
  | linkSend l r => exact sends_watches (fun _ => rfl) (beginLinkSend_watched now l _ _ hnet) hplace
  | consult d call =>
    exact waitForProxyCall_watches (c := (c.beginProxyCall now d call).1) d _ hnet hplace
  | relay d via r =>
    exact waitForLink_watches (c := (c.beginProxyCall now d (.lookUp via)).1) d via _ _ hnet hplace

/-- A task that goes on loses no wake-up. -/
theorem resume_watches (now : Nat) (t : TaskId) (job : Job) (hnet : c.network.Watched place)
    (hplace : place t = job.looking?) : Watches now t place (c.resume service now t job) := by
  cases job with
  | send stage => exact sends_watches (fun _ => rfl) (turnSend_watched now stage hnet) hplace
  | take stage => exact takes_watches (turnTake_watched now hnet hplace)
  | reply stage => exact replies_watches (turnReply_watched now stage hnet) hplace
  | work s seat stage => exact work_watches service now t s seat stage hnet hplace
  | linkSend stage => exact sends_watches (fun _ => rfl) (turnLinkSend_watched now stage hnet) hplace
  | consult d k => exact waitForProxyCall_watches (c := c.turnProxyCall now d k) d k hnet hplace
  | relay d via stage =>
    cases stage with
    | connecting k r =>
      exact waitForLink_watches (c := c.turnProxyCall now d k) d via k r hnet hplace
    | sending stage => exact afterRelay_watches d via (turnLinkSend_watched now stage hnet) hplace
    | repairing k sent =>
      exact waitForRepair_watches (c := c.turnProxyCall now d k) d via k sent hnet hplace

/-- A task that is cancelled looks nowhere. -/
theorem abandon_watched (t : TaskId) (job : Job) (hnet : c.network.Watched place)
    (hplace : place t = job.looking?) :
    (c.abandon t job).network.Watched (Function.update place t none) := by
  cases job with
  | take stage => exact cancelTake_watched hnet hplace
  | work s seat stage =>
    cases stage with
    | taking stage => exact cancelTake_watched hnet hplace
    | idle => exact hnet.idle hplace
    | handling r ending wake => exact hnet.idle hplace
    | replying stage => exact hnet.idle hplace
  | send stage => exact (cancelSend_watched stage hnet).idle hplace
  | linkSend stage => exact (cancelSend_watched stage hnet).idle hplace
  | reply stage => exact hnet.idle hplace
  | consult d k => exact hnet.idle hplace
  | relay d via stage =>
    cases stage with
    | sending stage => exact (cancelSend_watched stage hnet).idle hplace
    | connecting k r => exact hnet.idle hplace
    | repairing k sent => exact hnet.idle hplace

/-! ## Events -/

/-- Where the tasks look for a request. -/
def lookout (c : Cluster σ) (t : TaskId) : Option MailboxId := c.tasks[t]?.bind TaskState.looking?

/-- A task looks at a mailbox exactly if its job does. -/
theorem lookout_eq_some_iff {box : MailboxId} :
    c.lookout t = some box ↔ ∃ job, c.tasks[t]? = some (.running job) ∧ job.looking? = some box := by
  unfold lookout
  rw [Option.bind_eq_some_iff]
  constructor
  · rintro ⟨state, found, hlooks⟩
    cases state with
    | running job => exact ⟨job, found, hlooks⟩
    | finished time answer => cases hlooks
    | cancelled => cases hlooks
  · rintro ⟨job, found, hlooks⟩
    exact ⟨.running job, found, hlooks⟩

/-- Where a task looks is read off its state. -/
theorem lookout_of_found {state : TaskState} (found : c.tasks[t]? = some state) :
    c.lookout t = state.looking? := by
  rw [lookout, found]
  rfl

/-- The mailboxes are watched by the tasks that look there. -/
def IsWatched (c : Cluster σ) : Prop := c.network.Watched c.lookout

/-- One task has got to another state. -/
theorem IsWatched.of_update {state : TaskState} (htask : c'.tasks[t]? = some state)
    (h : c'.network.Watched (Function.update c.lookout t state.looking?))
    (hothers : ∀ u : TaskId, u ≠ t → c'.tasks[u]? = c.tasks[u]?) :
    c'.IsWatched := by
  refine h.mono fun u box hu => ?_
  rcases eq_or_ne u t with rfl | hne
  · rw [Function.update_self] at hu
    rw [lookout_of_found htask]
    exact hu
  · rw [Function.update_of_ne hne] at hu
    rw [lookout, hothers u hne]
    exact hu

/-- A new task is watched for at the mailbox that it looks at. -/
theorem begin_watched (now : Nat) (call : Call) (h : c.IsWatched) :
    (c.begin service now call).IsWatched := by
  have hnew : c.lookout c.tasks.length = none := by
    rw [lookout, List.getElem?_eq_none (Nat.le_refl _)]
    rfl
  have hwatches := undertake_watches service now c.tasks.length call h hnew
  exact .of_update (task_begun service) hwatches fun u hu => task_begin_of_ne service hu

/-- A turn keeps all mailboxes watched. -/
theorem turn_watched (now : Nat) (t : TaskId) (h : c.IsWatched) : (c.turn service now t).IsWatched := by
  by_cases running : ∃ job, c.tasks[t]? = some (.running job)
  · obtain ⟨job, found⟩ := running
    have hwatches := resume_watches service now t job h (lookout_of_found found)
    rw [Watches, ← network_turn service found] at hwatches
    exact .of_update (task_turned service found) hwatches fun u hu => task_turn_of_ne service found hu
  · rw [turn_of_not_running service running]
    exact h

/-- A task that is cancelled passes on a wake-up that it has had. -/
theorem cancel_watched (t : TaskId) (h : c.IsWatched) : (c.cancel t).1.IsWatched := by
  by_cases running : ∃ job, c.tasks[t]? = some (.running job)
  · obtain ⟨job, found⟩ := running
    have habandoned := abandon_watched t job h (lookout_of_found found)
    rw [← network_cancel found] at habandoned
    exact .of_update (task_cancelled found) habandoned fun u hu => task_cancel_of_ne found hu
  · rw [cancel_of_not_running running]
    exact h

/-- Workers are started one after the other, and each of them is watched for. -/
theorem startWorkers_watched (now : Nat) (s : ServerId) (h : c.IsWatched) :
    (c.startWorkers service now s).IsWatched := by
  refine startWorkers_induct (P := IsWatched) service h fun place c' hc' => ?_
  exact begin_watched service now (.work s place) hc'

/-- Workers that are dismissed pass on their wake-ups. -/
theorem dismissWorkers_watched (s : ServerId) (h : c.IsWatched) : (c.dismissWorkers s).IsWatched :=
  dismissWorkers_induct (P := IsWatched) h (fun _ _ t _ _ hc' => cancel_watched t hc') fun _ => id

/-- A detour wakes nobody, and nobody waits for it. -/
theorem divert_watched (owner : TaskId) (other : PeerId) (h : c.IsWatched) :
    (c.divert owner other).IsWatched := by
  have hlookout (t : TaskId) : (c.divert owner other).lookout t = c.lookout t := by
    have hlooks (state : TaskState) : (state.divert owner other).looking? = state.looking? := by
      cases state with
      | running job =>
        match job with
        | .take (.delayed ..) | .take (.looking _) | .take (.holding ..) => rfl
        | .work _ _ (.taking (.delayed ..)) | .work _ _ (.taking (.looking _)) => rfl
        | .work _ _ (.taking (.holding ..)) | .work _ _ .idle | .work _ _ (.handling ..) => rfl
        | .work _ _ (.replying _) | .send _ | .reply _ | .linkSend _ | .consult .. | .relay .. => rfl
      | finished time answer => rfl
      | cancelled => rfl
    show (c.tasks.map (TaskState.divert owner other))[t]?.bind _ = _
    rw [List.getElem?_map, Option.bind_map, lookout]
    exact congrArg _ (funext hlooks)
  exact Network.Watched.mono (Network.divert_watched owner other h) fun t box ht => (hlookout t).trans ht

/-- Upkeep wakes everybody at a mailbox that it closes, and nobody else. -/
theorem Upkeep.watched {net net' : Network} (h : Upkeep net net') (hnet : net.Watched place) :
    net'.Watched place := by
  cases h with
  | same => exact hnet
  | register now node => exact register_watched now node hnet
  | shutdown now node => exact shutdown_watched now node hnet
  | clear now => exact clear_watched now hnet
  | setSwitches box f => exact setSwitches_watched box f hnet

/-- Every event keeps all mailboxes watched. -/
theorem step_watched (event : Event σ) (h : c.IsWatched) : (c.step service event).IsWatched := by
  have hupkeep (hupkeep : event.IsUpkeep) : (c.step service event).IsWatched := by
    have hlookout : (c.step service event).lookout = c.lookout := by
      funext t
      rw [lookout, tasks_upkeep service hupkeep c, lookout]
    rw [IsWatched, hlookout]
    exact (step_upkeep service hupkeep c).watched h
  cases event with
  | divert owner other => exact divert_watched owner other h
  | startWorkers now s => exact startWorkers_watched service now s h
  | dismissWorkers s => exact dismissWorkers_watched s h
  | begin now call => exact begin_watched service now call h
  | turn now t => exact turn_watched service now t h
  | cancel t => exact cancel_watched t h
  | _ => exact hupkeep trivial

/-! ## Runs -/

variable {settings : Settings} {dice : Nat → UInt64} {events : List (Event σ)}

/-- So all mailboxes are watched at every moment of every run. -/
theorem watched_reached : (reached service settings dice events).IsWatched := by
  induction events using List.reverseRecOn with
  | nil =>
    intro box b found
    cases found
  | append_singleton events event ih =>
    rw [reached_concat]
    exact step_watched service event ih

/-- A task that has been woken can go on. -/
theorem isReady_of_woken {box : MailboxId} {b : Mailbox} (found : c.network.mailboxes[box]? = some b)
    (hlooks : c.lookout t = some box) (ht : t ∉ b.takers) : c.isReady now t = true := by
  have hwoken : c.network.isWoken t box = true := by
    rw [Network.isWoken, found]
    exact decide_eq_true ht
  obtain ⟨job, hjob, hlooking⟩ := lookout_eq_some_iff.mp hlooks
  rw [isReady, hjob]
  cases job with
  | take stage =>
    cases stage with
    | looking box' =>
      cases hlooking
      exact hwoken
    | _ => cases hlooking
  | work s place stage =>
    cases stage with
    | taking stage =>
      cases stage with
      | looking box' =>
        cases hlooking
        exact hwoken
      | _ => cases hlooking
    | _ => cases hlooking
  | _ => cases hlooking

/-- Along every run, whoever is cancelled and when: as long as no task can go on before time passes, nobody
looks for a request in an open mailbox that holds one, and nobody looks in a mailbox that is closed. -/
theorem no_wake_up_lost (settings : Settings) (dice : Nat → UInt64) (events : List (Event σ)) (now : Nat)
    (hquiet : (schedule service).IsQuiet now (reached service settings dice events)) (box : MailboxId)
    (b : Mailbox) (found : (reached service settings dice events).network.mailboxes[box]? = some b) :
    (b.closed = false → b.requests ≠ [] →
      ∀ t, (reached service settings dice events).lookout t ≠ some box) ∧
    (b.closed = true → ∀ t, (reached service settings dice events).lookout t ≠ some box) := by
  have hwatched : b.Watched fun t => (reached service settings dice events).lookout t = some box :=
    watched_reached service box b found
  -- whoever looks stands in line, since nobody who was woken is left
  have hline (t : TaskId) (hlooks : (reached service settings dice events).lookout t = some box) :
      t ∈ b.takers := by
    by_contra ht
    have hready : (reached service settings dice events).isReady now t = true :=
      isReady_of_woken found hlooks ht
    exact absurd hready (Bool.eq_false_iff.mp (hquiet t))
  have hnobody (hidle : b.takers = []) (t : TaskId) :
      (reached service settings dice events).lookout t ≠ some box := fun hlooks => by
    have ht := hline t hlooks
    rw [hidle] at ht
    cases ht
  refine ⟨fun _ hrequests => hnobody ?_, fun hclosed => hnobody (hwatched.closed hclosed)⟩
  rcases hwatched.woken with hidle | ⟨woken, -, hlooks, hle⟩
  · exact hidle
  · cases woken with
    | nil => exact absurd (List.length_eq_zero_iff.mp (Nat.le_zero.mp hle)) hrequests
    | cons t woken =>
      obtain ⟨hlook, hout⟩ := hlooks t List.mem_cons_self
      exact absurd (hline t hlook) hout

section

/-- A request of `c` to the node. -/
private def parcel (node : PeerId) (number : UInt64) : Request where
  requestor := "c"
  target := node
  callId := number

/-- Three takers wait at `s` when two requests come in. The first taker is cancelled after it was woken and
passes its wake-up on, and the other two take the requests; the next request finds nobody. The taker that
waits at `d` is woken when the node is shut down. -/
private def burst : List (Event Echo) :=
  [.register 0 "s", .register 0 "d", .begin 0 (.take "s"), .begin 0 (.take "s"), .begin 0 (.take "s"),
    .begin 0 (.take "d"), .begin 1 (.send (parcel "s" 0)), .begin 1 (.send (parcel "s" 1)), .cancel 0,
    .shutdown 1 "d", .turn 1 1, .turn 1 2, .turn 1 3, .begin 2 (.send (parcel "s" 2))]

/-- In the end one request is in the open mailbox, and nobody looks there or in the closed one. -/
theorem no_wake_up_lost_in_burst :
    (schedule Echo.service).IsQuiet 2 (reached Echo.service {} (fun _ => 0) burst) ∧
      ((reached Echo.service {} (fun _ => 0) burst).network.mailboxes.map fun b =>
        (b.closed, b.requests.length)) = [(false, 1), (true, 0)] ∧
      (∀ t, (reached Echo.service {} (fun _ => 0) burst).lookout t ≠ some 0) ∧
      ∀ t, (reached Echo.service {} (fun _ => 0) burst).lookout t ≠ some 1 := by
  have hquiet : (schedule Echo.service).IsQuiet 2 (reached Echo.service {} (fun _ => 0) burst) := by
    intro t
    match t with
    | 0 | 1 | 2 | 3 | 4 | 5 | 6 => rfl
    | t + 7 => rfl
  refine ⟨hquiet, by rfl, ?_, ?_⟩
  · exact (no_wake_up_lost Echo.service {} (fun _ => 0) burst 2 hquiet 0 _ rfl).1 rfl nofun
  · exact (no_wake_up_lost Echo.service {} (fun _ => 0) burst 2 hquiet 1 _ rfl).2 rfl

end

end Cluster

end Replica
