import Replica.Proofs.Cluster.Shifts

/-!
# What an event does to a task

An event that is not about a task leaves it as it was (`task_step`). If it is, then the task has a turn,
gets a detour or is cancelled (`step_taskChange`), and a task that is new has begun in the event
(`step_taskBegins`). Facts about one task along a run need only these cases.
-/

namespace Replica.Cluster

variable {σ : Type} (service : Service σ) {c : Cluster σ} {t : TaskId} {event : Event σ}
variable {state : TaskState}

/-! ## Who is touched -/

/-- The event is about the task. -/
def Event.Touches (c : Cluster σ) (t : TaskId) : Event σ → Prop
  | .turn _ u => u = t
  | .cancel u => u = t
  | .dismissWorkers s => ∃ server, c.servers[s]? = some server ∧ t ∈ server.crew
  | _ => False

theorem task_begin (now : Nat) (call : Call) (found : c.tasks[t]? = some state) :
    (c.begin service now call).tasks[t]? = some state := by
  rw [tasks_begin]
  exact getElem?_concat_of_some _ found

theorem task_hirings (now : Nat) (s : ServerId) (places : List Nat) (found : c.tasks[t]? = some state) :
    (places.foldl (hire service now s) c).tasks[t]? = some state := by
  induction places generalizing c with
  | nil => exact found
  | cons place places ih =>
    have hhired : (c.hire service now s place).tasks[t]? = some state :=
      task_begin service now (.work s place) found
    exact ih hhired

theorem ne_of_running {u : TaskId} {job : Job} (found : c.tasks[t]? = some state)
    (found' : c.tasks[u]? = some (.running job)) (h : state.isRunning = true → u ≠ t) : t ≠ u := by
  rintro rfl
  cases found.symm.trans found'
  exact h rfl rfl

theorem task_cancel (found : c.tasks[t]? = some state) {u : TaskId}
    (h : state.isRunning = true → u ≠ t) : (c.cancel u).1.tasks[t]? = some state := by
  by_cases running : ∃ job, c.tasks[u]? = some (.running job)
  · obtain ⟨job, found'⟩ := running
    rw [task_cancel_of_ne found' (ne_of_running found found' h), found]
  · rw [cancel_of_not_running running]
    exact found

theorem task_turn (now : Nat) (found : c.tasks[t]? = some state) {u : TaskId}
    (h : state.isRunning = true → u ≠ t) : (c.turn service now u).tasks[t]? = some state := by
  by_cases running : ∃ job, c.tasks[u]? = some (.running job)
  · obtain ⟨job, found'⟩ := running
    rw [task_turn_of_ne service found' (ne_of_running found found' h), found]
  · rw [turn_of_not_running service running]
    exact found

theorem task_dismissWorkers (s : ServerId) (found : c.tasks[t]? = some state)
    (h : state.isRunning = true → ¬ Event.Touches c t (.dismissWorkers s)) :
    (c.dismissWorkers s).tasks[t]? = some state := by
  refine dismissWorkers_induct (P := fun c' => c'.tasks[t]? = some state) found ?_ fun _ => id
  intro server hserver u hu c' found'
  refine task_cancel found' fun hrunning heq => ?_
  exact h hrunning ⟨server, hserver, heq ▸ hu⟩

/-- A task is as it was after an event that is not about it, and one that does not run any more is so
after every event. -/
theorem task_step (hstays : ∀ owner other, event ≠ .divert owner other)
    (found : c.tasks[t]? = some state) (h : state.isRunning = true → ¬ event.Touches c t) :
    (c.step service event).tasks[t]? = some state := by
  cases event with
  | divert owner other => exact absurd rfl (hstays owner other)
  | startWorkers now s => exact task_hirings service now s _ found
  | dismissWorkers s => exact task_dismissWorkers s found h
  | retire now s => exact shutdown_induct (P := fun c' => c'.tasks[t]? = some state) found fun _ _ => found
  | begin now call => exact task_begin service now call found
  | turn now u => exact task_turn service now found h
  | cancel u => exact task_cancel found h
  | _ => exact found

/-! ## Tasks that are there, and tasks that are new -/

/-- What becomes of a task in an event. -/
inductive TaskChange (c : Cluster σ) (t : TaskId) : Event σ → TaskState → TaskState → Prop where
  | same (event : Event σ) (state : TaskState) : TaskChange c t event state state
  | diverted (owner : TaskId) (other : PeerId) (state : TaskState) :
    TaskChange c t (.divert owner other) state (state.divert owner other)
  | turned (now : Nat) (job : Job) (hnetwork : (c.turn service now t).network =
      (c.resume service now t job).1.network) :
    TaskChange c t (.turn now t) (.running job) (.ofProgress now (c.resume service now t job).2)
  | cancelled (event : Event σ) (job : Job) : TaskChange c t event (.running job) .cancelled

theorem step_taskChange (found : c.tasks[t]? = some state) (event : Event σ) :
    ∃ state', (c.step service event).tasks[t]? = some state' ∧
      TaskChange service c t event state state' := by
  have hcancelled {c' : Cluster σ} (hcancels : ∃ written, Cancels written c c') :
      ∃ state', c'.tasks[t]? = some state' ∧ TaskChange service c t event state state' := by
    obtain ⟨written, hcancels⟩ := hcancels
    rcases hcancels.tasks t with hsame | ⟨⟨job, hrunning⟩, hgone⟩
    · exact ⟨state, hsame.trans found, .same event state⟩
    · cases found.symm.trans hrunning
      exact ⟨.cancelled, hgone, .cancelled event job⟩
  have hupkeep (h : event.IsUpkeep) : ∃ state', (c.step service event).tasks[t]? = some state' ∧
      TaskChange service c t event state state' := by
    rw [tasks_upkeep service h c]
    exact ⟨state, found, .same event state⟩
  cases event with
  | divert owner other =>
    refine ⟨state.divert owner other, ?_, .diverted owner other state⟩
    show (c.tasks.map _)[t]? = _
    rw [List.getElem?_map, found]
    rfl
  | startWorkers now s => exact ⟨state, task_hirings service now s _ found, .same _ _⟩
  | dismissWorkers s => exact hcancelled (dismissWorkers_cancels s c)
  | begin now call => exact ⟨state, task_begin service now call found, .same _ _⟩
  | turn now u =>
    by_cases hturned : u = t ∧ state.isRunning = true
    · obtain ⟨rfl, hrunning⟩ := hturned
      cases state with
      | running job =>
        exact ⟨_, task_turned service found, .turned now job (network_turn service found)⟩
      | finished time answer => cases hrunning
      | cancelled => cases hrunning
    · exact ⟨state, task_turn service now found fun hrunning heq => hturned ⟨heq, hrunning⟩, .same _ _⟩
  | cancel u => exact hcancelled (cancel_cancels u c)
  | _ => exact hupkeep trivial

/-- A task that is new has begun with a call, or is a worker that was started. -/
inductive TaskBegins (service : Service σ) (c : Cluster σ) (t : TaskId) : Event σ → TaskState → Prop where
  | called (now : Nat) (call : Call) (ht : t = c.tasks.length) :
    TaskBegins service c t (.begin now call) (.ofProgress now (c.undertake service now t call).2)
  | hired (event : Event σ) (c' : Cluster σ) (now : Nat) (s : ServerId) (place : Nat) :
    TaskBegins service c t event (.ofProgress now (c'.work service now t s place .idle).2)

theorem hirings_taskBegins (now : Nat) (s : ServerId) (places : List Nat) (event : Event σ) (c₀ : Cluster σ)
    (hnone : c.tasks[t]? = none)
    (found : (places.foldl (hire service now s) c).tasks[t]? = some state) :
    TaskBegins service c₀ t event state := by
  induction places generalizing c with
  | nil => cases hnone.symm.trans found
  | cons place places ih =>
    have hhired : (c.hire service now s place).tasks =
        c.tasks ++ [.ofProgress now (c.undertake service now c.tasks.length (.work s place)).2] := by
      show (c.begin service now (.work s place)).tasks = _
      exact tasks_begin service
    rcases Nat.lt_trichotomy t c.tasks.length with hlt | rfl | hgt
    · exact absurd hnone (by simp [hlt])
    · have hnew := task_hirings service now s places (hhired ▸ List.getElem?_concat_length)
      cases hnew.symm.trans found
      exact .hired event c now s place
    · refine ih ?_ found
      rw [hhired, List.getElem?_eq_none]
      rw [List.length_append]
      exact hgt

theorem step_taskBegins (hnone : c.tasks[t]? = none)
    (found : (c.step service event).tasks[t]? = some state) : TaskBegins service c t event state := by
  have hcancels {c' : Cluster σ} (hcancels : ∃ written, Cancels written c c')
      (found : c'.tasks[t]? = some state) : TaskBegins service c t event state := by
    obtain ⟨written, hcancels⟩ := hcancels
    rcases hcancels.tasks t with hsame | ⟨⟨job, hrunning⟩, -⟩
    · cases hnone.symm.trans (hsame.symm.trans found)
    · cases hnone.symm.trans hrunning
  have hupkeep (h : event.IsUpkeep) : TaskBegins service c t event state := by
    rw [tasks_upkeep service h c] at found
    cases hnone.symm.trans found
  cases event with
  | divert owner other =>
    have hmapped : (c.tasks.map (TaskState.divert owner other))[t]? = some state := found
    rw [List.getElem?_map, hnone] at hmapped
    cases hmapped
  | startWorkers now s => exact hirings_taskBegins service now s _ _ c hnone found
  | dismissWorkers s => exact hcancels (dismissWorkers_cancels s c) found
  | cancel u => exact hcancels (cancel_cancels u c) found
  | begin now call =>
    have hbegun : (c.begin service now call).tasks[t]? = some state := found
    rw [tasks_begin] at hbegun
    rcases getElem?_concat_eq_some_iff.mp hbegun with hbefore | ⟨rfl, rfl⟩
    · cases hnone.symm.trans hbefore
    · exact .called now call rfl
  | turn now u =>
    change (c.turn service now u).tasks[t]? = some state at found
    by_cases running : ∃ job, c.tasks[u]? = some (.running job)
    · obtain ⟨job, found'⟩ := running
      rw [tasks_turn service found'] at found
      obtain ⟨before, hbefore, -⟩ := getElem?_modify_eq_some_iff.mp found
      cases hnone.symm.trans hbefore
    · rw [turn_of_not_running service running] at found
      cases hnone.symm.trans found
  | _ => exact hupkeep trivial

end Replica.Cluster
