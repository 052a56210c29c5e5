import Mathlib.Data.List.Induction
import Replica.Proofs.Cluster.Jobs

/-!
# The traffic of a cluster

Whatever the tasks of a cluster do on its network, they do by calls that send, take and reply. So
every run of a cluster, with all its servers, workers, links and relays, is a run of traffic on the
same network (`reached_mirrors`), in which each task that is under way has the call that it is in.
-/

namespace Replica.Cluster

open Traffic

variable {σ : Type} (service : Service σ) {c c' : Cluster σ} {x y : Traffic} {t : TaskId} {now : Nat}

/-- The traffic is on the cluster's network, and each task that is under way has the call that its
job is in. -/
structure Mirrors (c : Cluster σ) (x : Traffic) : Prop where
  network : x.network = c.network
  tasks : ∀ t job, c.tasks[t]? = some (.running job) → x.Carries t job

/-- Some more events lead to traffic that mirrors the cluster. -/
def Follows (c : Cluster σ) (x : Traffic) : Prop := ∃ events, c.Mirrors (x.run events)

theorem Mirrors.follows (h : c.Mirrors x) : c.Follows x := ⟨[], h⟩

theorem Follows.bind (h : c.Follows x) (hnext : ∀ y, c.Mirrors y → c'.Follows y) :
    c'.Follows x := by
  obtain ⟨events, h⟩ := h
  obtain ⟨events', h'⟩ := hnext _ h
  exact ⟨events ++ events', Traffic.run_append x events events' ▸ h'⟩

/-- What happens to servers and directories is no traffic. -/
theorem Mirrors.congr (h : c.Mirrors x) (hnetwork : c'.network = c.network)
    (htasks : c'.tasks = c.tasks) : c'.Mirrors x :=
  ⟨h.network.trans hnetwork.symm, fun t job hjob => h.tasks t job (htasks ▸ hjob)⟩

/-- What happens to the network only. -/
theorem Mirrors.upkeep (h : c.Mirrors x) (hupkeep : Upkeep c.network c'.network)
    (htasks : c'.tasks = c.tasks) : c'.Follows x := by
  have honly (f : Network → Network) (hnetwork : c'.network = f c.network) :
      c'.Mirrors { x with network := f x.network } :=
    ⟨(congrArg f h.network).trans hnetwork.symm, fun t job hjob => h.tasks t job (htasks ▸ hjob)⟩
  generalize hnetwork : c'.network = net at hupkeep
  cases hupkeep with
  | same => exact (h.congr hnetwork htasks).follows
  | register now node => exact ⟨[.register now node], honly (·.register now node) hnetwork⟩
  | shutdown now node => exact ⟨[.shutdown now node], honly (·.shutdown now node) hnetwork⟩
  | clear now => exact ⟨[.clear now], honly (·.clear now) hnetwork⟩
  | setSwitches box f => exact ⟨[.setSwitches box f], honly (·.setSwitches box f) hnetwork⟩

theorem eq_waiting_of_running {progress : JobProgress} {job : Job}
    (h : TaskState.ofProgress now progress = .running job) : progress = .waiting job := by
  cases progress with
  | waiting job' =>
    cases h
    rfl
  | ended answer => cases h

/-- One task is changed, and what it does leads to the cluster then. -/
theorem Mirrors.change (h : c.Mirrors x) {state : TaskState} (htasks : c'.tasks = c.tasks.modify t fun _ => state)
    (hleads : Leads t x c'.network fun y => ∀ job', state = .running job' → y.Carries t job') :
    c'.Follows x := by
  obtain ⟨y, hdoes, hnet, hcarries⟩ := hleads
  obtain ⟨events, rfl⟩ := id hdoes.run
  refine ⟨events, hnet, fun u job' hjob => ?_⟩
  rw [htasks] at hjob
  -- the task itself has the call that it waits for now, and the others keep theirs
  obtain ⟨before, hbefore, hrunning⟩ := getElem?_modify_eq_some_iff.mp hjob
  split at hrunning
  · next heq => exact heq ▸ hcarries job' hrunning
  · next hne => exact hdoes.carries (Ne.symm hne) (h.tasks u job' (hrunning ▸ hbefore))

theorem Mirrors.begin (h : c.Mirrors x) (now : Nat) (call : Call) :
    (c.begin service now call).Follows x := by
  obtain ⟨y, hdoes, hnet, hcarries⟩ :=
    undertake_led service now call h.network (t := c.tasks.length)
  obtain ⟨events, rfl⟩ := id hdoes.run
  refine ⟨events, hnet, fun u job hjob => ?_⟩
  rw [tasks_begin] at hjob
  rcases getElem?_concat_eq_some_iff.mp hjob with hold | ⟨hu, hnew⟩
  · exact hdoes.carries (Nat.ne_of_lt (lt_length_of_getElem? hold)) (h.tasks u job hold)
  · rw [eq_waiting_of_running hnew] at hcarries
    exact hu ▸ hcarries

theorem Mirrors.turn (h : c.Mirrors x) (now : Nat) (t : TaskId) :
    (c.turn service now t).Follows x := by
  by_cases running : ∃ job, c.tasks[t]? = some (.running job)
  · obtain ⟨job, found⟩ := running
    have hled := resume_led service now h.network (h.tasks t job found)
    refine h.change (tasks_turn service found) ?_
    rw [network_turn service found]
    refine hled.mono fun y hy job' hrunning => ?_
    -- the task runs on only if it waits, and then it is in the call that it waits for
    rw [eq_waiting_of_running hrunning] at hy
    exact hy
  · rw [turn_of_not_running service running]
    exact h.follows

theorem Mirrors.cancel (h : c.Mirrors x) (t : TaskId) : (c.cancel t).1.Follows x := by
  by_cases running : ∃ job, c.tasks[t]? = some (.running job)
  · obtain ⟨job, found⟩ := running
    have hleads := abandon_leads h.network (h.tasks t job found)
    refine h.change (tasks_cancel found) ?_
    rw [network_cancel found]
    exact hleads.mono fun y _ job' hrunning => nomatch hrunning
  · rw [cancel_of_not_running running]
    exact h.follows

theorem Mirrors.startWorkers (h : c.Mirrors x) (now : Nat) (s : ServerId) :
    (c.startWorkers service now s).Follows x := by
  refine startWorkers_induct (P := fun c' => c'.Follows x) service h.follows fun place c' hc' => ?_
  have hbegin : (c'.begin service now (.work s place)).Follows x :=
    hc'.bind fun y hy => hy.begin service now (.work s place)
  exact hbegin.bind fun y hy => Mirrors.follows (hy.congr rfl rfl)

theorem Mirrors.dismissWorkers (h : c.Mirrors x) (s : ServerId) :
    (c.dismissWorkers s).Follows x := by
  refine dismissWorkers_induct (P := fun c' => c'.Follows x) h.follows ?_ ?_
  · exact fun _ _ t _ c' hc' => hc'.bind fun y hy => hy.cancel t
  · exact fun c' hc' => hc'.bind fun y hy => Mirrors.follows (hy.congr rfl rfl)

theorem Mirrors.divert (h : c.Mirrors x) (owner : TaskId) (other : PeerId) :
    (c.divert owner other).Mirrors (x.divert owner other) where
  network := congrArg (Network.divert owner other) h.network
  tasks t job hjob := by
    obtain ⟨state, found, hdivert⟩ := Option.map_eq_some_iff.mp (List.getElem?_map.symm.trans hjob)
    cases state with
    | running before =>
      cases hdivert
      exact Carries.divert (h.tasks t before found)
    | finished time answer => cases hdivert
    | cancelled => cases hdivert

theorem Mirrors.step (h : c.Mirrors x) (event : Event σ) : (c.step service event).Follows x := by
  have hupkeep (hupkeep : event.IsUpkeep) : (c.step service event).Follows x :=
    h.upkeep (step_upkeep service hupkeep c) (tasks_upkeep service hupkeep c)
  cases event with
  | divert owner other => exact ⟨[.divert owner other], h.divert owner other⟩
  | startWorkers now s => exact h.startWorkers service now s
  | dismissWorkers s => exact h.dismissWorkers s
  | begin now call => exact h.begin service now call
  | turn now t => exact h.turn service now t
  | cancel t => exact h.cancel t
  | _ => exact hupkeep trivial

/-- Every run of a cluster is a run of traffic on its network, whatever the service does. -/
theorem reached_mirrors (settings : Settings) (dice : Nat → UInt64) (events : List (Event σ)) :
    ∃ history, (reached service settings dice events).Mirrors
      (Traffic.reached settings dice history) := by
  induction events using List.reverseRecOn with
  | nil => exact ⟨[], rfl, fun _ _ hjob => nomatch hjob⟩
  | append_singleton events event ih =>
    obtain ⟨history, h⟩ := ih
    obtain ⟨more, h'⟩ := h.step service event
    refine ⟨history ++ more, ?_⟩
    rw [reached, run_concat, Traffic.reached, Traffic.run_append]
    exact h'

end Replica.Cluster
