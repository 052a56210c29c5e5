import Mathlib.Data.List.Induction
import Replica.Cluster.Echo
import Replica.Proofs.Cluster.Custody
import Replica.Proofs.Network.Counting

/-!
# Requests are conserved

Along every run of a cluster in which no request is given a detour, a request that was put into a mailbox
is in one place only (`Conserved`): in the mailbox, among those that were discarded or dropped, in the
hands of a task, or with a server. Tasks go on (`Advances`), are cancelled (`Cancels`), or see nodes come
and go (`Network.Resets`), and each of these keeps the books.
-/

namespace Replica.Cluster

open Network

variable {σ : Type} (service : Service σ) {c c' c'' : Cluster σ} {now : Nat} {t : TaskId} {job : Job}
variable {written written' : List Occurrence}

/-- What the task has in hand. -/
def inHand (t : TaskId) (c : Cluster σ) : List Request :=
  ((c.tasks[t]?.map TaskState.inHand).getD []).map Request.plain

/-- What a task has in hand is read off its state. -/
theorem inHand_of_found {state : TaskState} (found : c.tasks[t]? = some state) :
    c.inHand t = state.inHand.map Request.plain := by
  rw [inHand, found]
  rfl

/-- A task that is not there has nothing in hand. -/
theorem inHand_of_none (hnone : c.tasks[t]? = none) : c.inHand t = [] := by
  rw [inHand, hnone]
  rfl

/-- Requests are where they are addressed to, the books balance, and senders stick to the right
mailboxes. -/
structure Sound (c : Cluster σ) : Prop where
  routed : c.network.Routed
  balanced : c.network.Balanced
  aimed : ∀ (t : TaskId) (job : Job), c.tasks[t]? = some (.running job) → job.Aimed c.network

/-! ## Tasks go on -/

/-- Some tasks have begun or gone on. -/
structure Advances (written : List Occurrence) (c c' : Cluster σ) : Prop where
  turn : Turn written c.network c'.network
  aimed : ∀ (t : TaskId) (job : Job), c'.tasks[t]? = some (.running job) → job.Aimed c'.network
  cancelled : ∀ t : TaskId, c'.tasks[t]? = some .cancelled ↔ c.tasks[t]? = some .cancelled
  /-- What is cancelled does nothing any more. -/
  frozen : ∀ t : TaskId, c.tasks[t]? = some .cancelled → grasps t written = [] ∧ hands t written = []
  balance : ∀ t, c.inHand t ++ grasps t written = hands t written ++ c'.inHand t

/-- Tasks that go on leave the cluster sound. -/
theorem Advances.sound (h : Advances written c c') (hc : c.Sound) : c'.Sound :=
  ⟨h.turn.routed hc.routed, h.turn.balanced hc.balanced, h.aimed⟩

/-- Nothing happens if nobody goes on. -/
theorem Advances.refl (hc : c.Sound) : Advances [] c c where
  turn := .refl c.network
  aimed := hc.aimed
  cancelled _ := .rfl
  frozen _ _ := ⟨rfl, rfl⟩
  balance t := List.append_nil (c.inHand t)

/-- Tasks that go on in two steps have gone on altogether, with what was written in both. -/
theorem Advances.trans (h : Advances written c c') (h' : Advances written' c' c'') :
    Advances (written ++ written') c c'' where
  turn := h.turn.trans h'.turn
  aimed := h'.aimed
  cancelled t := (h'.cancelled t).trans (h.cancelled t)
  frozen t ht := by
    rw [grasps_append, hands_append, (h.frozen t ht).1, (h.frozen t ht).2]
    exact h'.frozen t ((h.cancelled t).mpr ht)
  balance t := by
    rw [grasps_append, hands_append, ← List.append_assoc, h.balance, List.append_assoc, h'.balance,
      List.append_assoc]

/-- Neither the network nor any task is touched. -/
theorem Advances.congr (h : Advances written c c') (hnetwork : c''.network = c'.network)
    (htasks : c''.tasks = c'.tasks) : Advances written c c'' where
  turn := hnetwork ▸ h.turn
  aimed := hnetwork ▸ htasks ▸ h.aimed
  cancelled := htasks ▸ h.cancelled
  frozen := h.frozen
  balance t := by
    rw [h.balance, inHand, inHand, htasks]

/-- One task goes on, and the others stay where they are. -/
theorem Advances.of_custody {state : TaskState} {held : List Request} (hc : c.Sound)
    (h : Custody t written c.network c'.network held state.inHand)
    (hheld : c.inHand t = held.map Request.plain) (hlive : c.tasks[t]? ≠ some .cancelled)
    (hstate : c'.tasks[t]? = some state) (hgoes : state ≠ .cancelled)
    (hothers : ∀ u : TaskId, u ≠ t → c'.tasks[u]? = c.tasks[u]?)
    (haimed : ∀ job, state = .running job → job.Aimed c'.network) : Advances written c c' where
  turn := h.turn
  aimed u job hjob := by
    by_cases hu : u = t
    · subst hu
      exact haimed job (Option.some.inj (hstate.symm.trans hjob))
    · exact (hc.aimed u job (hothers u hu ▸ hjob)).mono fun _ _ => h.steady.serves
  cancelled u := by
    by_cases hu : u = t
    · subst hu
      exact iff_of_false (fun hcancelled => hgoes (Option.some.inj (hstate.symm.trans hcancelled))) hlive
    · rw [hothers u hu]
  frozen u hu := h.apart u fun heq => hlive (heq ▸ hu)
  balance u := by
    by_cases hu : u = t
    · subst hu
      rw [hheld, inHand_of_found hstate]
      exact h.balance hc.routed
    · rw [(h.apart u hu).1, (h.apart u hu).2, List.append_nil, List.nil_append, inHand, inHand,
        hothers u hu]

/-- No turn of a task leaves it cancelled. -/
theorem ofProgress_ne_cancelled (now : Nat) (progress : JobProgress) :
    TaskState.ofProgress now progress ≠ .cancelled := by
  cases progress <;> nofun

/-- A task that waits at a job after its turn has come there in its turn. -/
theorem aimed_of_goes {held : List Request} {result : Cluster σ × JobProgress} {net : Network}
    (h : Goes now t net held result) (job : Job)
    (hjob : TaskState.ofProgress now result.2 = .running job) : job.Aimed result.1.network := by
  have haimed := h.aimed
  obtain ⟨c, progress⟩ := result
  cases progress with
  | waiting job' =>
    cases hjob
    exact haimed
  | ended answer => cases hjob

/-- A task that begins keeps count of what it takes and hands over. -/
theorem begin_advances (now : Nat) (call : Call) (hc : c.Sound) :
    ∃ written, Advances written c (c.begin service now call) := by
  have hgoes := undertake_goes service now c.tasks.length call hc.routed
  have hnew : c.tasks[c.tasks.length]? = none := List.getElem?_eq_none (Nat.le_refl _)
  obtain ⟨written, hcustody⟩ := hgoes.passes
  refine ⟨written, .of_custody hc hcustody ?_ ?_ ?_ (ofProgress_ne_cancelled now _) (fun u hu => ?_)
    (aimed_of_goes hgoes)⟩
  · exact inHand_of_none hnew
  · rw [hnew]
    nofun
  · exact task_begun service
  · exact task_begin_of_ne service hu

/-- So does a task that has a turn. -/
theorem turn_advances (now : Nat) (t : TaskId) (hc : c.Sound) :
    ∃ written, Advances written c (c.turn service now t) := by
  by_cases running : ∃ job, c.tasks[t]? = some (.running job)
  · obtain ⟨job, found⟩ := running
    have hgoes := resume_goes service now t (hc.aimed t job found) hc.routed
    have hnetwork : (c.turn service now t).network = (c.resume service now t job).1.network :=
      network_turn service found
    obtain ⟨written, hcustody⟩ := hgoes.passes
    rw [← hnetwork] at hcustody
    refine ⟨written, .of_custody hc hcustody (inHand_of_found found) ?_ ?_
      (ofProgress_ne_cancelled now _) (fun u hu => ?_) (hnetwork ▸ aimed_of_goes hgoes)⟩
    · rw [found]
      nofun
    · exact task_turned service found
    · exact task_turn_of_ne service found hu
  · rw [turn_of_not_running service running]
    exact ⟨[], .refl hc⟩

/-- So do workers that are started. -/
theorem startWorkers_advances (now : Nat) (s : ServerId) (hc : c.Sound) :
    ∃ written, Advances written c (c.startWorkers service now s) := by
  refine startWorkers_induct (P := fun c' => ∃ written, Advances written c c') service ⟨[], .refl hc⟩ ?_
  intro place c' hadvances
  obtain ⟨written, hadvances⟩ := hadvances
  obtain ⟨written', hbegin⟩ := begin_advances service now (.work s place) (hadvances.sound hc)
  exact ⟨written ++ written', (hadvances.trans hbegin).congr rfl rfl⟩

/-! ## Tasks are cancelled -/

/-- Some tasks that were under way are cancelled. -/
structure Cancels (written : List Occurrence) (c c' : Cluster σ) : Prop where
  turn : Turn written c.network c'.network
  outward : ∀ what ∈ written, what.IsOutward
  tasks : ∀ t : TaskId, c'.tasks[t]? = c.tasks[t]? ∨
    (∃ job, c.tasks[t]? = some (.running job)) ∧ c'.tasks[t]? = some .cancelled

theorem Cancels.refl (c : Cluster σ) : Cancels [] c c :=
  ⟨.refl c.network, List.forall_mem_nil _, fun _ => .inl rfl⟩

/-- Tasks that are cancelled in two steps are cancelled altogether. -/
theorem Cancels.trans (h : Cancels written c c') (h' : Cancels written' c' c'') :
    Cancels (written ++ written') c c'' where
  turn := h.turn.trans h'.turn
  outward := List.forall_mem_append.mpr ⟨h.outward, h'.outward⟩
  tasks t := by
    rcases h'.tasks t with hsame | ⟨⟨job, hrunning⟩, hcancelled⟩
    · rw [hsame]
      exact h.tasks t
    · rcases h.tasks t with hsame | ⟨-, hcancelled'⟩
      · exact .inr ⟨⟨job, hsame ▸ hrunning⟩, hcancelled⟩
      · exact absurd (hrunning.symm.trans hcancelled') nofun

/-- A cancellation leaves the cluster sound. -/
theorem Cancels.sound (h : Cancels written c c') (hc : c.Sound) : c'.Sound where
  routed := h.turn.routed hc.routed
  balanced := h.turn.balanced hc.balanced
  aimed t job hjob := by
    rcases h.tasks t with hsame | ⟨-, hcancelled⟩
    · exact (hc.aimed t job (hsame ▸ hjob)).mono fun _ _ => h.turn.steady.serves
    · exact absurd (hjob.symm.trans hcancelled) nofun

/-- A task that is cancelled loses what it had in hand, and hands nothing over. -/
theorem cancel_cancels (t : TaskId) (c : Cluster σ) : ∃ written, Cancels written c (c.cancel t).1 := by
  by_cases running : ∃ job, c.tasks[t]? = some (.running job)
  · obtain ⟨job, found⟩ := running
    obtain ⟨written, hturn, houtward⟩ := (abandon_effects t job c).turn fun _ _ => False.elim
    refine ⟨written, network_cancel found ▸ hturn, houtward, fun u => ?_⟩
    by_cases hu : u = t
    · subst hu
      exact .inr ⟨⟨job, found⟩, task_cancelled found⟩
    · exact .inl (task_cancel_of_ne found hu)
  · rw [cancel_of_not_running running]
    exact ⟨[], .refl c⟩

/-- So do workers that are dismissed. -/
theorem dismissWorkers_cancels (s : ServerId) (c : Cluster σ) :
    ∃ written, Cancels written c (c.dismissWorkers s) := by
  refine dismissWorkers_induct (P := fun c' => ∃ written, Cancels written c c') ⟨[], .refl c⟩ ?_ ?_
  · intro server _ t _ c' hcancels
    obtain ⟨written, hcancels⟩ := hcancels
    obtain ⟨written', hnext⟩ := cancel_cancels t c'
    exact ⟨written ++ written', hcancels.trans hnext⟩
  · intro c' hcancels
    obtain ⟨written, hcancels⟩ := hcancels
    exact ⟨written, hcancels.turn, hcancels.outward, hcancels.tasks⟩

/-! ## Events -/

/-- Upkeep resets nodes, and does nothing else. -/
theorem Upkeep.resets {net net' : Network} (h : Upkeep net net') : ∃ written, Resets written net net' := by
  cases h with
  | same => exact ⟨[], .refl net⟩
  | register now node => exact register_resets now node net
  | shutdown now node => exact shutdown_resets now node net
  | clear now => exact clear_resets now net
  | setSwitches box f => exact ⟨[], setSwitches_resets box f net⟩

/-- What an event comes to, if it gives no request a detour. -/
theorem step_cases (hc : c.Sound) {event : Event σ} (h : ∀ owner other, event ≠ .divert owner other) :
    ∃ written, Advances written c (c.step service event) ∨ Cancels written c (c.step service event) ∨
      (Resets written c.network (c.step service event).network ∧
        (c.step service event).tasks = c.tasks) := by
  have hupkeep (hupkeep : event.IsUpkeep) : ∃ written, Advances written c (c.step service event) ∨
      Cancels written c (c.step service event) ∨
        (Resets written c.network (c.step service event).network ∧
          (c.step service event).tasks = c.tasks) :=
    (step_upkeep service hupkeep c).resets.imp fun _ hresets =>
      .inr (.inr ⟨hresets, tasks_upkeep service hupkeep c⟩)
  cases event with
  | divert owner other => exact absurd rfl (h owner other)
  | startWorkers now s => exact (startWorkers_advances service now s hc).imp fun _ => .inl
  | dismissWorkers s =>
    exact (dismissWorkers_cancels s c).imp fun _ hcancels => .inr (.inl hcancels)
  | begin now call => exact (begin_advances service now call hc).imp fun _ => .inl
  | turn now t => exact (turn_advances service now t hc).imp fun _ => .inl
  | cancel t => exact (cancel_cancels t c).imp fun _ hcancels => .inr (.inl hcancels)
  | _ => exact hupkeep trivial

/-! ## Runs -/

variable {settings : Settings} {dice : Nat → UInt64} {events : List (Event σ)} {event : Event σ}

/-- Every event but a detour leaves the cluster sound. -/
theorem step_sound (hc : c.Sound) (hstays : ∀ owner other, event ≠ .divert owner other) :
    (c.step service event).Sound := by
  obtain ⟨written, hadvances | hcancels | ⟨hresets, htasks⟩⟩ := step_cases service hc hstays
  · exact hadvances.sound hc
  · exact hcancels.sound hc
  · refine ⟨hresets.routed hc.routed, hresets.balanced hc.balanced, fun t job hjob => ?_⟩
    exact (hc.aimed t job (htasks ▸ hjob)).mono hresets.serves

/-- The task has taken what it gave to a server, and what it has in hand. -/
def Accounts (t : TaskId) (c : Cluster σ) : Prop :=
  grasps t c.network.story = hands t c.network.story ++ c.inHand t

/-- The task was under way once, and has lost what it had in hand then. -/
def Lost (service : Service σ) (settings : Settings) (dice : Nat → UInt64) (events : List (Event σ))
    (t : TaskId) : Prop :=
  ∃ before after job, events = before ++ after ∧
    (reached service settings dice before).tasks[t]? = some (.running job) ∧
    grasps t (reached service settings dice events).network.story =
      hands t (reached service settings dice events).network.story ++ job.inHand.map Request.plain

/-- What the next event writes says nothing of the requests that the task takes and gives away. -/
theorem Lost.step (h : Lost service settings dice events t)
    (hstory : (reached service settings dice (events ++ [event])).network.story =
      (reached service settings dice events).network.story ++ written)
    (hsilent : grasps t written = [] ∧ hands t written = []) :
    Lost service settings dice (events ++ [event]) t := by
  obtain ⟨before, after, job, rfl, hrunning, haccounts⟩ := h
  refine ⟨before, after ++ [event], job, List.append_assoc _ _ _, hrunning, ?_⟩
  rw [hstory, grasps_append, hands_append, hsilent.1, hsilent.2, List.append_nil, List.append_nil,
    haccounts]

/-- A task that has no part in what happens keeps its account. -/
theorem Accounts.frame (h : Accounts t c) (hstory : c'.network.story = c.network.story ++ written)
    (hsilent : grasps t written = [] ∧ hands t written = [])
    (hsame : c'.tasks[t]? = c.tasks[t]?) : Accounts t c' := by
  rw [Accounts, hstory, grasps_append, hands_append, hsilent.1, hsilent.2, List.append_nil,
    List.append_nil, inHand, hsame]
  exact h

/-- Every task accounts for what it has taken. -/
structure Kept (service : Service σ) (settings : Settings) (dice : Nat → UInt64)
    (events : List (Event σ)) : Prop where
  sound : (reached service settings dice events).Sound
  accounts : ∀ t : TaskId, (reached service settings dice events).tasks[t]? ≠ some .cancelled →
    Accounts t (reached service settings dice events)
  lost : ∀ t : TaskId, (reached service settings dice events).tasks[t]? = some .cancelled →
    Lost service settings dice events t

/-- On a new network no task has an account to keep. -/
theorem Kept.nil : Kept service settings dice [] where
  sound := ⟨routed_fresh settings dice, balanced_fresh settings dice, fun _ _ hjob => nomatch hjob⟩
  accounts _ _ := rfl
  lost _ hcancelled := nomatch hcancelled

/-- Every event but a detour keeps all accounts. -/
theorem Kept.step (h : Kept service settings dice events)
    (hstays : ∀ owner other, event ≠ .divert owner other) :
    Kept service settings dice (events ++ [event]) := by
  have hsound := step_sound service h.sound hstays
  have hcases := step_cases service h.sound hstays
  rw [← reached_concat] at hsound hcases
  obtain ⟨written, hadvances | hcancels | ⟨hresets, htasks⟩⟩ := hcases
  · refine ⟨hsound, fun t hlive => ?_, fun t hcancelled => ?_⟩
    · rw [Ne, hadvances.cancelled] at hlive
      rw [Accounts, hadvances.turn.story, grasps_append, hands_append, h.accounts t hlive,
        List.append_assoc, hadvances.balance, List.append_assoc]
    · have hcancelled := (hadvances.cancelled t).mp hcancelled
      exact (h.lost t hcancelled).step service hadvances.turn.story (hadvances.frozen t hcancelled)
  · have hsilent (t : TaskId) : grasps t written = [] ∧ hands t written = [] :=
      ⟨grasps_of_outward hcancels.outward t, hands_of_outward hcancels.outward t⟩
    refine ⟨hsound, fun t hlive => ?_, fun t hcancelled => ?_⟩
    · rcases hcancels.tasks t with hsame | ⟨-, hcancelled⟩
      · exact (h.accounts t (hsame ▸ hlive)).frame hcancels.turn.story (hsilent t) hsame
      · exact absurd hcancelled hlive
    · rcases hcancels.tasks t with hsame | ⟨⟨job, hrunning⟩, -⟩
      · exact (h.lost t (hsame ▸ hcancelled)).step service hcancels.turn.story (hsilent t)
      · -- the task has lost what it had in hand just before
        have haccounts : Accounts t (reached service settings dice events) :=
          h.accounts t (by rw [hrunning]; nofun)
        rw [Accounts, inHand_of_found hrunning] at haccounts
        refine ⟨events, [event], job, rfl, hrunning, ?_⟩
        rw [hcancels.turn.story, grasps_append, hands_append, (hsilent t).1, (hsilent t).2,
          List.append_nil, List.append_nil, haccounts]
        rfl
  · have hsilent (t : TaskId) : grasps t written = [] ∧ hands t written = [] :=
      ⟨hresets.grasps t, hresets.hands t⟩
    refine ⟨hsound, fun t hlive => ?_, fun t hcancelled => ?_⟩
    · rw [htasks] at hlive
      exact (h.accounts t hlive).frame hresets.story (hsilent t) (by rw [htasks])
    · rw [htasks] at hcancelled
      exact (h.lost t hcancelled).step service hresets.story (hsilent t)

/-- So all accounts are kept along a run without detours. -/
theorem kept_reached (hstays : ∀ owner other, Event.divert owner other ∉ events) :
    Kept service settings dice events := by
  induction events using List.reverseRecOn with
  | nil => exact .nil service
  | append_singleton events event ih =>
    obtain ⟨hearlier, hlast⟩ := stays_concat.mp hstays
    exact (ih hearlier).step service hlast

/-- What has happened on the network along the events. -/
abbrev storyOf (service : Service σ) (settings : Settings) (dice : Nat → UInt64)
    (events : List (Event σ)) : List Occurrence :=
  (reached service settings dice events).network.story

/-- The event drops only requests whose requestor has its switch on. -/
theorem Kept.switched (h : Kept service settings dice events)
    (hstays : ∀ owner other, event ≠ .divert owner other)
    (hstory : storyOf service settings dice (events ++ [event]) =
      storyOf service settings dice events ++ written)
    {box : MailboxId} {taker : TaskId} {r : Request} (hdropped : .dropped box taker r ∈ written) :
    ((reached service settings dice events).network.switchesOf r.requestor).dropFrom = true := by
  have hcases := step_cases service h.sound hstays
  rw [← reached_concat] at hcases
  obtain ⟨written', hadvances | hcancels | ⟨hresets, -⟩⟩ := hcases
  · obtain rfl := List.append_cancel_left (hstory.symm.trans hadvances.turn.story)
    exact hadvances.turn.switched box taker r hdropped
  · obtain rfl := List.append_cancel_left (hstory.symm.trans hcancels.turn.story)
    exact hcancels.turn.switched box taker r hdropped
  · obtain rfl := List.append_cancel_left (hstory.symm.trans hresets.story)
    obtain ⟨k, requests, heq⟩ := hresets.discards _ hdropped
    cases heq

/-- Where the requests are that were put into mailboxes along the events. -/
structure Conserved (service : Service σ) (settings : Settings) (dice : Nat → UInt64)
    (events : List (Event σ)) : Prop where
  /-- Requests are taken out of a mailbox in the order in which they were put into it. -/
  fifo : ∀ box, pops box (storyOf service settings dice events) <+:
    pushes box (storyOf service settings dice events)
  /-- Those that were put into a mailbox were taken out of it first, went away after that when the
  mailbox was closed, or are in it. -/
  placed : ∀ box, pushes box (storyOf service settings dice events) =
    pops box (storyOf service settings dice events) ++
      discards box (storyOf service settings dice events) ++
      (reached service settings dice events).network.contents box
  /-- Nothing is left in a mailbox that is closed, and nothing has gone away from another one. -/
  closed : ∀ box,
    ((reached service settings dice events).network.IsClosed box ∧
      (reached service settings dice events).network.contents box = []) ∨
    (¬ (reached service settings dice events).network.IsClosed box ∧
      discards box (storyOf service settings dice events) = [])
  /-- Of those that were taken out, the ones that were dropped are from requestors whose switch was on
  at that time. -/
  switched : ∀ before event after written, events = before ++ event :: after →
    storyOf service settings dice (before ++ [event]) =
      storyOf service settings dice before ++ written →
    ∀ box taker r, .dropped box taker r ∈ written →
      ((reached service settings dice before).network.switchesOf r.requestor).dropFrom = true
  /-- The others are in the hands of the task that took them, which holds them back or has returned
  them, or it has given them to a server. -/
  accounts : ∀ t : TaskId, (reached service settings dice events).tasks[t]? ≠ some .cancelled →
    grasps t (storyOf service settings dice events) =
      hands t (storyOf service settings dice events) ++
        (reached service settings dice events).inHand t
  /-- A task that was cancelled has lost what it held back then. -/
  lost : ∀ t : TaskId, (reached service settings dice events).tasks[t]? = some .cancelled →
    Lost service settings dice events t
  /-- What was given to servers was put into mailboxes, and nothing was given away twice. -/
  once : (handedOver (storyOf service settings dice events)).Subperm
    (posted (storyOf service settings dice events))

/-- No task has handed over more than it took. -/
theorem Kept.hands_subperm_grasps (h : Kept service settings dice events) (t : TaskId) :
    (hands t (storyOf service settings dice events)).Subperm
      (grasps t (storyOf service settings dice events)) := by
  by_cases hcancelled : (reached service settings dice events).tasks[t]? = some .cancelled
  · obtain ⟨before, after, job, -, -, haccounts⟩ := h.lost t hcancelled
    rw [haccounts]
    exact (List.sublist_append_left _ _).subperm
  · rw [storyOf, h.accounts t hcancelled]
    exact (List.sublist_append_left _ _).subperm

/-- On a new network, with any settings, any numbers from the random source, any servers and any
tasks that send, take, reply and work: as long as no request is given a detour, requests leave each
mailbox in the order in which they came, each of them is in one place at every time, and none is given to
a server twice. -/
theorem requests_conserved (service : Service σ) (settings : Settings) (dice : Nat → UInt64)
    (events : List (Event σ)) (hstays : ∀ owner other, Event.divert owner other ∉ events) :
    Conserved service settings dice events := by
  have hkept : Kept service settings dice events := kept_reached service hstays
  have hbalance := hkept.sound.balanced
  have hfifo (box : MailboxId) : pops box (storyOf service settings dice events) <+:
      pushes box (storyOf service settings dice events) :=
    ⟨_, (List.append_assoc _ _ _).symm.trans (hbalance.balance box).symm⟩
  constructor
  · exact hfifo
  · exact hbalance.balance
  · intro box
    by_cases hclosed : (reached service settings dice events).network.IsClosed box
    · exact .inl ⟨hclosed, hbalance.emptied box hclosed⟩
    · exact .inr ⟨hclosed, hbalance.kept box hclosed⟩
  · intro before event after written heq hstory box taker r hdropped
    have hbefore : Kept service settings dice before :=
      kept_reached service fun owner other hmem => hstays owner other (heq ▸ List.mem_append_left _ hmem)
    refine hbefore.switched service ?_ hstory hdropped
    rintro owner other rfl
    exact hstays owner other (heq ▸ List.mem_append_right _ List.mem_cons_self)
  · exact hkept.accounts
  · exact hkept.lost
  · exact handedOver_subperm_posted (hkept.hands_subperm_grasps service)
      fun box => (hfifo box).sublist.subperm

section

/-- A request of a client to the node. -/
private def errand (client : PeerId) (number : UInt64) : Request where
  requestor := client
  target := "s"
  callId := number

/-- Requests of `d` are dropped, and those of `h` are held back. Of seven requests one is dropped, one
returned, one lost with a taker that is cancelled, one held back, two given to a server, and one goes
away when the node is registered again. Another one is queued then. -/
private def throng : List (Event Echo) :=
  [.register 0 "s", .register 0 "d", .setSwitches 1 fun s => { s with dropFrom := true },
    .register 0 "h", .setSwitches 2 fun s => { s with delayFrom := 5 },
    .begin 0 (.send (errand "d" 0)), .begin 0 (.send (errand "c" 1)),
    .begin 0 (.send (errand "h" 2)), .begin 0 (.send (errand "h" 3)),
    .begin 0 (.send (errand "c" 4)), .begin 0 (.send (errand "c" 5)),
    .begin 1 (.take "s"), .begin 1 (.take "s"), .cancel 7, .begin 2 (.take "s"),
    .serve "s" "w" {}, .startWorkers 2 0, .begin 3 (.send (errand "c" 6)), .register 3 "s",
    .begin 4 (.send (errand "c" 7))]

/-- The crowd in the example has each of its requests in exactly one place. -/
theorem requests_conserved_in_throng :
    (∀ owner other, Event.divert owner other ∉ throng) ∧
      (pushes 0 (storyOf Echo.service {} (fun _ => 0) throng)).map (·.callId) =
        [0, 1, 2, 3, 4, 5, 6] ∧
      (pops 0 (storyOf Echo.service {} (fun _ => 0) throng)).map (·.callId) = [0, 1, 2, 3, 4, 5] ∧
      (discards 0 (storyOf Echo.service {} (fun _ => 0) throng)).map (·.callId) = [6] ∧
      ((reached Echo.service {} (fun _ => 0) throng).network.contents 3).map (·.callId) = [7] ∧
      ((reached Echo.service {} (fun _ => 0) throng).inHand 6).map (·.callId) = [1] ∧
      (reached Echo.service {} (fun _ => 0) throng).tasks[7]? = some .cancelled ∧
      ((reached Echo.service {} (fun _ => 0) throng).inHand 8).map (·.callId) = [3] ∧
      (hands 9 (storyOf Echo.service {} (fun _ => 0) throng)).map (·.callId) = [4, 5] ∧
      Conserved Echo.service {} (fun _ => 0) throng :=
  ⟨by simp [throng], by rfl, by rfl, by rfl, by rfl, by rfl, by rfl, by rfl, by rfl,
    requests_conserved Echo.service {} (fun _ => 0) throng (by simp [throng])⟩

end

end Replica.Cluster
