import Replica.Cluster.Calls
import Replica.Proofs.Places

/-!
# Runs of a cluster

A run is a sequence of events on one cluster: nodes join and leave, servers start and dismiss their
workers, calls begin, get their turns in any order and are cancelled. The time is part of the event
and may be anything; what the service does is a parameter of the run.
-/

namespace Replica.Cluster

variable {σ : Type} (service : Service σ)

/-- What happens to a cluster. -/
inductive Event (σ : Type) where
  /-- A node joins, or joins again. -/
  | register (now : Nat) (node : PeerId)
  | shutdown (now : Nat) (node : PeerId)
  | clear (now : Nat)
  | setSwitches (box : MailboxId) (f : Switches → Switches)
  | divert (owner : TaskId) (other : PeerId)
  | serve (node : PeerId) (name : String) (state : σ)
  | modifyState (s : ServerId) (f : σ → σ)
  | startWorkers (now : Nat) (s : ServerId)
  | dismissWorkers (s : ServerId)
  /-- The node of a server is shut down. -/
  | retire (now : Nat) (s : ServerId)
  | addDirectory (home : PeerId) (name : String) (peers : List Peer)
  | shutLink (l : Link)
  | clearExit
  | begin (now : Nat) (call : Call)
  | turn (now : Nat) (t : TaskId)
  | cancel (t : TaskId)

/-- The cluster after an event. -/
def step (c : Cluster σ) : Event σ → Cluster σ
  | .register now node => c.onNetwork (·.register now node)
  | .shutdown now node => c.onNetwork (·.shutdown now node)
  | .clear now => c.onNetwork (·.clear now)
  | .setSwitches box f => c.onNetwork (·.setSwitches box f)
  | .divert owner other => c.divert owner other
  | .serve node name state => c.serve node name state
  | .modifyState s f => c.modifyState s f
  | .startWorkers now s => c.startWorkers service now s
  | .dismissWorkers s => c.dismissWorkers s
  | .retire now s => c.shutdown now s
  | .addDirectory home name peers => c.addDirectory home name peers
  | .shutLink l => c.shutLink l
  | .clearExit => c.clearExit
  | .begin now call => c.begin service now call
  | .turn now t => c.turn service now t
  | .cancel t => (c.cancel t).1

/-- The cluster after a sequence of events. -/
def run (c : Cluster σ) (events : List (Event σ)) : Cluster σ := events.foldl (step service) c

@[simp] theorem run_nil (c : Cluster σ) : c.run service [] = c := rfl

/-- A run may be cut in two. -/
theorem run_append (c : Cluster σ) (before after : List (Event σ)) :
    c.run service (before ++ after) = (c.run service before).run service after :=
  List.foldl_append

/-- The last event of a run happens to what the others have led to. -/
@[simp] theorem run_concat (c : Cluster σ) (events : List (Event σ)) (event : Event σ) :
    c.run service (events ++ [event]) = (c.run service events).step service event := by
  rw [run_append]
  rfl

/-- The cluster that the events lead to on a new network. -/
def reached (settings : Settings) (dice : Nat → UInt64) (events : List (Event σ)) : Cluster σ :=
  run service { network := { settings, dice } } events

section

variable {settings : Settings} {dice : Nat → UInt64}

theorem reached_concat (events : List (Event σ)) (event : Event σ) :
    reached service settings dice (events ++ [event]) =
      (reached service settings dice events).step service event :=
  run_concat service _ events event

/-- What a run leads to is what its second part makes of what the first has led to. -/
theorem reached_append (before after : List (Event σ)) :
    reached service settings dice (before ++ after) =
      (reached service settings dice before).run service after :=
  run_append service _ before after

end

/-! ## Tasks

Turns change the task that has its turn, and no other. -/

variable {now : Nat} {t : TaskId} {call : Call} {job : Job} {c : Cluster σ}

/-- A worker's turn changes no other task. -/
theorem tasks_work {s : ServerId} {place : Nat} {stage : Working} :
    (c.work service now t s place stage).1.tasks = c.tasks := by
  unfold work
  split <;> rfl

/-- Nor does a task that waits for a call on a map. -/
theorem tasks_waitForProxyCall {d : DirectoryId} :
    (c.waitForProxyCall d t).1.tasks = c.tasks := by
  unfold waitForProxyCall
  split <;> rfl

/-- Nor a relay that waits for a repair. -/
theorem tasks_waitForRepair {d : DirectoryId} {via : PeerId} {sent : Outcome} :
    (c.waitForRepair d via t sent).1.tasks = c.tasks := by
  unfold waitForRepair
  split <;> rfl

/-- Nor a relay that has heard of its request. -/
theorem tasks_afterRelay {d : DirectoryId} {via : PeerId}
    {result : Network × Network.SendProgress} :
    (c.afterRelay now d via result).1.tasks = c.tasks := by
  unfold afterRelay
  dsimp only
  split
  · rfl
  · exact tasks_waitForRepair
  · rfl

/-- A repair of the link is no business of the network's. -/
theorem network_afterRelay {d : DirectoryId} {via : PeerId}
    {result : Network × Network.SendProgress} :
    (c.afterRelay now d via result).1.network = result.1 := by
  unfold afterRelay
  dsimp only
  split
  · rfl
  · unfold waitForRepair
    split <;> rfl
  · rfl

/-- Nor one that waits for its link. -/
theorem tasks_waitForLink {d : DirectoryId} {via : PeerId} {r : Request} :
    (c.waitForLink now d via t r).1.tasks = c.tasks := by
  unfold waitForLink
  dsimp only
  split
  · rfl
  · split
    · exact tasks_afterRelay
    · rfl
  · rfl

/-- A call that begins changes no other task. -/
theorem tasks_undertake : (c.undertake service now t call).1.tasks = c.tasks := by
  cases call with
  | send r => rfl
  | take node => rfl
  | reply r outcome => rfl
  | work s place => exact tasks_work service
  | linkSend l r => rfl
  | consult d call => exact tasks_waitForProxyCall
  | relay d via r => exact tasks_waitForLink

/-- A job that goes on changes no other task. -/
theorem tasks_resume : (c.resume service now t job).1.tasks = c.tasks := by
  cases job with
  | send stage => rfl
  | take stage => rfl
  | reply stage => rfl
  | work s place stage => exact tasks_work service
  | linkSend stage => rfl
  | consult d call => exact tasks_waitForProxyCall
  | relay d via stage =>
    cases stage with
    | connecting call r => exact tasks_waitForLink
    | sending stage => exact tasks_afterRelay
    | repairing call sent => exact tasks_waitForRepair

/-- A job that is abandoned changes no other task. -/
theorem tasks_abandon : (c.abandon t job).tasks = c.tasks := by
  unfold abandon
  split <;> rfl

/-- A new task comes after all others, in the state that its first turn has led to. -/
theorem tasks_begin : (c.begin service now call).tasks =
    c.tasks ++ [.ofProgress now (c.undertake service now c.tasks.length call).2] :=
  congrArg (· ++ [TaskState.ofProgress now (c.undertake service now c.tasks.length call).2])
    (tasks_undertake service)

/-- The task that has its turn changes, and no other. -/
theorem tasks_turn (found : c.tasks[t]? = some (.running job)) :
    (c.turn service now t).tasks =
      c.tasks.modify t fun _ => .ofProgress now (c.resume service now t job).2 := by
  rw [← set_eq_modify _ found, turn, found]
  exact congrArg (·.set t (TaskState.ofProgress now (c.resume service now t job).2))
    (tasks_resume service)

/-- The task that has begun. -/
theorem task_begun : (c.begin service now call).tasks[c.tasks.length]? =
    some (.ofProgress now (c.undertake service now c.tasks.length call).2) := by
  rw [tasks_begin, List.getElem?_concat_length]

/-- All other tasks stay as they are when one begins. -/
theorem task_begin_of_ne {u : TaskId} (hu : u ≠ c.tasks.length) :
    (c.begin service now call).tasks[u]? = c.tasks[u]? := by
  rw [tasks_begin, List.getElem?_append]
  split
  · rfl
  · next hge =>
    have hlt : c.tasks.length < u := Nat.lt_of_le_of_ne (Nat.not_lt.mp hge) hu.symm
    rw [List.getElem?_eq_none (Nat.not_lt.mp hge), List.getElem?_singleton,
      if_neg (Nat.sub_ne_zero_of_lt hlt)]

/-- The task that has had its turn. -/
theorem task_turned (found : c.tasks[t]? = some (.running job)) : (c.turn service now t).tasks[t]? =
    some (.ofProgress now (c.resume service now t job).2) := by
  rw [tasks_turn service found, List.getElem?_modify_eq, found]
  rfl

/-- All other tasks stay as they are in a turn of one. -/
theorem task_turn_of_ne (found : c.tasks[t]? = some (.running job)) {u : TaskId} (hu : u ≠ t) :
    (c.turn service now t).tasks[u]? = c.tasks[u]? := by
  rw [tasks_turn service found, List.getElem?_modify_ne _ _ hu.symm]

/-- A turn changes the network as the job does. -/
theorem network_turn (found : c.tasks[t]? = some (.running job)) :
    (c.turn service now t).network = (c.resume service now t job).1.network := by
  rw [Cluster.turn, found]

/-- A task that does not run has no turn. -/
theorem turn_of_not_running (h : ¬ ∃ job, c.tasks[t]? = some (.running job)) :
    c.turn service now t = c := by
  unfold turn
  split
  · next job found => exact absurd ⟨job, found⟩ h
  · rfl

/-- The task that is cancelled changes, and no other. -/
theorem tasks_cancel (found : c.tasks[t]? = some (.running job)) :
    (c.cancel t).1.tasks = c.tasks.modify t fun _ => .cancelled := by
  rw [← set_eq_modify _ found, cancel, found]
  exact congrArg (·.set t TaskState.cancelled) tasks_abandon

/-- A task under way that is cancelled is cancelled from then on. -/
theorem task_cancelled (found : c.tasks[t]? = some (.running job)) :
    (c.cancel t).1.tasks[t]? = some .cancelled := by
  rw [tasks_cancel found, List.getElem?_modify_eq, found]
  rfl

/-- All other tasks stay as they are when one is cancelled. -/
theorem task_cancel_of_ne (found : c.tasks[t]? = some (.running job)) {u : TaskId} (hu : u ≠ t) :
    (c.cancel t).1.tasks[u]? = c.tasks[u]? := by
  rw [tasks_cancel found, List.getElem?_modify_ne _ _ hu.symm]

/-- Cancelling a task changes the network as abandoning its job does. -/
theorem network_cancel (found : c.tasks[t]? = some (.running job)) :
    (c.cancel t).1.network = (c.abandon t job).network := by
  rw [Cluster.cancel, found]

/-- There is nothing to cancel in a task that does not run. -/
theorem cancel_of_not_running (h : ¬ ∃ job, c.tasks[t]? = some (.running job)) :
    c.cancel t = (c, false) := by
  unfold cancel
  split
  · next job found => exact absurd ⟨job, found⟩ h
  · rfl

/-! ## Detours

Most of what is said of requests holds as long as no event gives one a detour. -/

section

variable {event : Event σ} {events before after : List (Event σ)}

/-- No request gets a detour in a run if none does in either part. -/
theorem stays_append : (∀ owner other, Event.divert owner other ∉ before ++ after) ↔
    (∀ owner other, Event.divert owner other ∉ before) ∧
      ∀ owner other, Event.divert owner other ∉ after := by
  simp only [List.mem_append, not_or, forall_and]

/-- No request gets a detour in a run if none does in its first event and none in the others. -/
theorem stays_cons : (∀ owner other, Event.divert owner other ∉ event :: events) ↔
    (∀ owner other, event ≠ .divert owner other) ∧
      ∀ owner other, Event.divert owner other ∉ events := by
  simp only [List.mem_cons, not_or, forall_and, ne_comm]

/-- No request gets a detour in a run if none does in its last event and none in the others. -/
theorem stays_concat : (∀ owner other, Event.divert owner other ∉ events ++ [event]) ↔
    (∀ owner other, Event.divert owner other ∉ events) ∧
      ∀ owner other, event ≠ .divert owner other := by
  simp only [stays_append, List.mem_singleton, ne_comm]

end

/-! ## Workers

They are started one after the other, and dismissed one after the other. -/

/-- What hiring one worker keeps, wherever it has its place, starting all of them keeps. -/
theorem startWorkers_induct {P : Cluster σ → Prop} {s : ServerId} (h : P c)
    (hhire : ∀ place c', P c' → P ((c'.begin service now (.work s place)).modifyServer s
      fun server => { server with crew := server.crew ++ [c'.tasks.length] })) :
    P (c.startWorkers service now s) :=
  List.foldlRecOn _ _ h fun c' hc' place _ => hhire place c' hc'

/-- What cancelling each of the workers keeps, dismissing all of them keeps. -/
theorem dismissWorkers_induct {P : Cluster σ → Prop} {s : ServerId} (h : P c)
    (hcancel : ∀ server, c.servers[s]? = some server → ∀ t ∈ server.crew, ∀ c', P c' → P (c'.cancel t).1)
    (hcrew : ∀ c', P c' → P (c'.modifyServer s fun server => { server with crew := [] })) :
    P (c.dismissWorkers s) := by
  unfold dismissWorkers
  split
  · next server found =>
    exact hcrew _ (List.foldlRecOn _ _ h fun c' hc' t ht => hcancel server found t ht c' hc')
  · exact h

/-! ## Upkeep

Nodes, servers and directories come and go while the tasks stay where they are. -/

/-- A server is retired: its node is shut down, if there is such a server at all. -/
theorem shutdown_induct {P : Cluster σ → Prop} {s : ServerId} (h : P c)
    (hshut : ∀ server, c.servers[s]? = some server → P (c.onNetwork (·.shutdown now server.node))) :
    P (c.shutdown now s) := by
  unfold shutdown
  split
  · next server found => exact hshut server found
  · exact h

/-- The event is no task's business. -/
def Event.IsUpkeep : Event σ → Prop
  | .divert .. | .startWorkers .. | .dismissWorkers _ | .begin .. | .turn .. | .cancel _ => False
  | _ => True

/-- What becomes of the network in an event that is no task's business. -/
inductive Upkeep (net : Network) : Network → Prop where
  | same : Upkeep net net
  | register (now : Nat) (node : PeerId) : Upkeep net (net.register now node)
  | shutdown (now : Nat) (node : PeerId) : Upkeep net (net.shutdown now node)
  | clear (now : Nat) : Upkeep net (net.clear now)
  | setSwitches (box : MailboxId) (f : Switches → Switches) : Upkeep net (net.setSwitches box f)

variable {event : Event σ}

/-- Upkeep does to the network one of the things in `Upkeep`. -/
theorem step_upkeep (h : event.IsUpkeep) (c : Cluster σ) :
    Upkeep c.network (c.step service event).network := by
  cases event with
  | register now node => exact .register now node
  | shutdown now node => exact .shutdown now node
  | clear now => exact .clear now
  | setSwitches box f => exact .setSwitches box f
  | retire now s =>
    exact shutdown_induct (P := fun c' => Upkeep c.network c'.network) .same
      fun server _ => .shutdown now server.node
  | serve | modifyState | addDirectory | shutLink | clearExit => exact .same
  | _ => exact h.elim

/-- Upkeep leaves all tasks as they are. -/
theorem tasks_upkeep (h : event.IsUpkeep) (c : Cluster σ) : (c.step service event).tasks = c.tasks := by
  cases event with
  | retire now s => exact shutdown_induct (P := fun c' => c'.tasks = c.tasks) rfl fun _ _ => rfl
  | divert | startWorkers | dismissWorkers | begin | turn | cancel => exact h.elim
  | _ => rfl

/-- Upkeep leaves the exit as it is, unless it is cleared. -/
theorem exit_upkeep (h : event.IsUpkeep) (hkeeps : event ≠ .clearExit) (c : Cluster σ) :
    (c.step service event).exit = c.exit := by
  cases event with
  | retire now s => exact shutdown_induct (P := fun c' => c'.exit = c.exit) rfl fun _ _ => rfl
  | clearExit => exact absurd rfl hkeeps
  | divert | startWorkers | dismissWorkers | begin | turn | cancel => exact h.elim
  | _ => rfl

end Replica.Cluster
