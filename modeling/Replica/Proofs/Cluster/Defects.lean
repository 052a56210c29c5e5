import Replica.Proofs.Cluster.Loads
import Replica.Proofs.Cluster.Origins
import Replica.Proofs.Cluster.Outages
import Replica.Proofs.Traffic.Handovers

/-!
# Defects stay with the servers

Defects come up where services work on requests, where they reply to them, and where they take them. As long
as nobody replies but workers, no sender hears of any (`Shielded.harmless`). If work on a request is spoilt
by a defect or a crash (`Spoilt`), then nobody replies to the request, neither before nor after. Its sender
gives up at its deadline, or finds its node gone, or it hears how another request has ended that was sent
under the same key (`Spared`).

The last of these cannot be ruled out. Callers choose their keys, and when a request is overdue its key
is free again, while somebody may still be at work on the request.
-/

namespace Replica

open Network

/-! ## What is no defect -/

theorem harmless_link_outcome {raw : Outcome} (h : Harmless raw) : Harmless (Link.outcome raw) := by
  unfold Link.outcome
  split
  · exact harmless_error rfl
  · exact h

theorem Link.refusal?_harmless {l : Link} {closed : Bool} {r : Request} {e : ServerError}
    (h : l.refusal? closed r = some e) : e.isFatal = false := by
  unfold Link.refusal? at h
  split at h
  · cases h
    rfl
  · split at h
    · cases h
    · cases h
      rfl

theorem Job.Sends.outgoing {job : Job} {stage : Sending} {hear : Outcome → Outcome}
    (h : job.Sends stage hear) : (TaskState.running job).load.outgoing = stage.outgoing := by
  cases h <;> rfl

theorem Job.Sends.harmless {job : Job} {stage : Sending} {hear : Outcome → Outcome} {raw : Outcome}
    (h : job.Sends stage hear) (hraw : Harmless raw) : Harmless (hear raw) := by
  cases h with
  | direct stage => exact hraw
  | link stage => exact harmless_link_outcome hraw
  | relay d via stage => exact harmless_link_outcome hraw

/-- Whoever gives up hears of it in the same way over a link. -/
theorem Job.Sends.hear_timeout {job : Job} {stage : Sending} {hear : Outcome → Outcome}
    (h : job.Sends stage hear) (what : String) (ms : UInt64) :
    hear (.error (.timeout what ms)) = .error (.timeout what ms) := by
  cases h <;> rfl

/-! ## Senders that give up -/

namespace Network

variable {net : Network} {now : Nat} {r : Request} {o : Outcome} {way : Option (Link × Bool)}

/-- A sender that ends at once has not been entered, or has no time to wait. -/
theorem EndsAtOnce.harmless {net' : Network} (h : EndsAtOnce net r net' o) :
    Harmless o ∧ (net' = net ∨ (net.settings.replyTimeout = 0 ∧ ∃ what, o = .error (.timeout what 0))) := by
  cases h with
  | notFound hnone hsame => exact ⟨harmless_error rfl, .inl hsame⟩
  | inUse what hsame => exact ⟨harmless_error rfl, .inl hsame⟩
  | hasty what hzero => exact ⟨harmless_error rfl, .inr ⟨hzero, what, rfl⟩⟩

theorem setOut_ended (hord : net.SlipsUnique) (hup : net.ListedOpen) (h : (net.setOut now way r).2 = .ended o) :
    Harmless o ∧ ((net.setOut now way r).1 = net ∨
      (net.settings.replyTimeout = 0 ∧ ∃ what, o = .error (.timeout what 0))) := by
  cases way with
  | none => exact (beginSend_ended hord hup h).harmless
  | some link =>
    obtain ⟨l, closed⟩ := link
    unfold setOut beginLinkSend at h ⊢
    dsimp only at h ⊢
    split at h
    · next e hrefused =>
      cases h
      exact ⟨harmless_error (Link.refusal?_harmless hrefused), .inl rfl⟩
    · cases hbegin : (net.beginSend now r).2 with
      | waiting stage =>
        simp only [Prod.map, hbegin, Progress.map] at h
        cases h
      | ended raw =>
        simp only [Prod.map, hbegin, Progress.map] at h
        cases h
        obtain ⟨hharmless, hends⟩ := (beginSend_ended hord hup hbegin).harmless
        refine ⟨harmless_link_outcome hharmless, hends.imp_right ?_⟩
        rintro ⟨hzero, what, rfl⟩
        exact ⟨hzero, what, rfl⟩

/-- A blocked sender whose key is in use has not been entered. -/
theorem turnSend_inUse {box : MailboxId} {b : Mailbox} {wake : Nat} {what : String}
    (found : net.mailboxes[box]? = some b) (hopen : b.closed = false)
    (h : (net.turnSend now (.blocked box r wake)).2 = .ended (.error (.invalidArgument what))) :
    (net.turnSend now (.blocked box r wake)).1 = net := by
  unfold turnSend at h ⊢
  dsimp only at h ⊢
  split at h
  · next hwake =>
    rw [if_pos hwake]
    rcases trySend_ended_of_open found hopen h with ⟨-, hsame⟩ | ⟨-, hlate⟩
    · exact hsame
    · cases hlate
  · cases h

end Network

namespace Cluster

variable {σ : Type} (service : Service σ) (settings : Settings) (dice : Nat → UInt64)
variable (events : List (Event σ)) (t : TaskId)

/-! ## Requests that are spoilt -/

/-- Work on the task's request has ended in a defect or a crash, or the request was taken out of the mailbox
of a node that was not to reply to it. -/
inductive Spoilt : Prop where
  | judged (v : Verdict σ) (e : ServerError)
    (hv : v ∈ verdictsOf service (shiftsAlong service settings dice events))
    (howner : v.request.owner = some t) (hdefect : v.defect? = some e)
  | crashed (v : Verdict σ) (hv : v ∈ verdictsOf service (shiftsAlong service settings dice events))
    (howner : v.request.owner = some t) (hcrash : v.ending = .crash)
  | misrouted (box : MailboxId) (taker : TaskId) (r : Request) (node : PeerId)
    (htaken : .taken box taker r ∈ storyOf service settings dice events)
    (hserves : (reached service settings dice events).network.Serves box node)
    (hreplier : r.replier ≠ node) (howner : r.owner = some t)

/-- How the sender of a request that was spoilt may hear that it has ended. -/
inductive Spared : Outcome → Prop where
  /-- It has waited until its deadline, and not longer if all keep to the clock. -/
  | overdue (before after : List (Event σ)) {now deadline : Nat} {box : MailboxId} {r : Request}
    {slip : SlipId} {hear : Outcome → Outcome} (hevents : events = before ++ .turn now t :: after)
    (hsends : (reached service settings dice before).SendsAt t (.waiting box r slip deadline) hear)
    (hdue : deadline ≤ now)
    (hpunctual : ∀ later, Timely service settings dice events later → now = deadline) (what : String) :
    Spared (.error (.timeout what settings.replyTimeout))
  /-- It had no time to wait. -/
  | hasty (hzero : settings.replyTimeout = 0) (what : String) : Spared (.error (.timeout what 0))
  /-- The mailbox that it sent to was closed: its node was shut down or replaced. -/
  | gone (before after : List (Event σ)) {now : Nat} {stage : Sending} {hear : Outcome → Outcome}
    (hevents : events = before ++ .turn now t :: after)
    (hsends : (reached service settings dice before).SendsAt t stage hear)
    (hcut : stage.CutOff (reached service settings dice before).network) (node : PeerId) :
    Spared (hear (.error (.nodeNotFound node)))
  /-- It has been handed the outcome of another task's request with the same key. -/
  | mistaken (before after : List (Event σ)) {now deadline : Nat} {other : TaskId}
    {box box' : MailboxId} {r r' : Request} {slip : SlipId} {raw : Outcome} {hear : Outcome → Outcome}
    (hevents : events = before ++ .turn now t :: after)
    (hsends : (reached service settings dice before).SendsAt t (.waiting box r slip deadline) hear)
    (hanswered : .answered box' r' raw slip ∈ storyOf service settings dice before)
    (hkey : r'.key = r.key) (howner : r'.owner = some other) (hother : other ≠ t) : Spared (hear raw)

/-- What callers hear of defects, that is, nothing. -/
structure Shielded : Prop where
  /-- Nobody hears of a broken invariant or an internal error. -/
  harmless : ∀ t o, (reached service settings dice events).heard? t = some o → Harmless o
  /-- The sender of a request that was spoilt hears of what has nothing to do with the defect. -/
  spared : ∀ t o, Spoilt service settings dice events t →
    (reached service settings dice events).heard? t = some o → Spared service settings dice events t o

variable {service settings dice events t} {before after : List (Event σ)} {event : Event σ} {now : Nat}
variable {o raw : Outcome} {stage : Sending} {hear : Outcome → Outcome} {r : Request}
variable {way : Option (Link × Bool)}

theorem Spoilt.of_spoils
    (h : some t ∈ (spoils (verdictsOf service (shiftsAlong service settings dice events))).map (·.owner)) :
    Spoilt service settings dice events t := by
  obtain ⟨r, hr, howner⟩ := List.mem_map.mp h
  obtain ⟨v, hv, rfl⟩ := List.mem_map.mp hr
  obtain ⟨hmem, hspoils⟩ := List.mem_filter.mp hv
  rcases Ending.spoils_iff.mp hspoils with hcrash | ⟨e, hdefect⟩
  · exact .crashed v hmem howner hcrash
  · exact .judged v e hmem howner hdefect

/-- A request that was spoilt was sent, and nobody has replied to it. -/
theorem Spoilt.books (h : Spoilt service settings dice events t) (hreplies : OnlyWorkersReply events) :
    0 < Request.tally (some t) (posted (storyOf service settings dice events)) ∧
      Request.tally (some t) (answered (storyOf service settings dice events)) = 0 := by
  have honce := sent_once service settings dice events t
  have hgrasped := tally_grasped_le service settings dice events (some t)
  have hdealt := dealt_once service settings dice hreplies (some t)
  have hcounted {v : Verdict σ} (hv : v ∈ verdictsOf service (shiftsAlong service settings dice events))
      (howner : v.request.owner = some t) (hspoils : v.ending.spoils v.request = true) :
      0 < Request.tally (some t) (posted (storyOf service settings dice events)) ∧
        Request.tally (some t) (answered (storyOf service settings dice events)) = 0 := by
    have hspoilt : v.request ∈ spoils (verdictsOf service (shiftsAlong service settings dice events)) :=
      List.mem_map_of_mem (List.mem_filter.mpr ⟨hv, hspoils⟩)
    have hsome := Request.tally_pos hspoilt howner
    have hreceived := tally_received_le (some t) (reached service settings dice events).network
      (storyOf service settings dice events)
    omega
  cases h with
  | judged v e hv howner hdefect => exact hcounted hv howner (Ending.spoils_iff.mpr (.inr ⟨e, hdefect⟩))
  | crashed v hv howner hcrash => exact hcounted hv howner (Ending.spoils_iff.mpr (.inl hcrash))
  | misrouted box taker r node htaken hserves hreplier howner =>
    have hmissed : ¬ (reached service settings dice events).network.Serves box r.replier :=
      fun hhere => hreplier (hhere.unique hserves)
    have hreceived := tally_received_lt htaken howner hmissed
    omega

/-- Whatever was handed over was not for a request that was spoilt, but for that of another task. -/
theorem Spoilt.other (h : Spoilt service settings dice events t) (hreplies : OnlyWorkersReply events)
    {box : MailboxId} {slip : SlipId}
    (hanswered : .answered box r raw slip ∈ storyOf service settings dice events) :
    ∃ other, r.owner = some other ∧ other ≠ t := by
  have hmem := mem_answered hanswered
  obtain ⟨other, howner⟩ := answered_owned service settings dice hreplies hmem
  refine ⟨other, howner, ?_⟩
  rintro rfl
  have hsome := Request.tally_pos hmem howner
  have hnone := (h.books hreplies).2
  omega

theorem story_subset (before after : List (Event σ)) :
    storyOf service settings dice before ⊆ storyOf service settings dice (before ++ after) := by
  obtain ⟨written, hrun⟩ := run_dispatch service after (reached service settings dice before)
  rw [storyOf, storyOf, reached_append, hrun.story]
  exact List.subset_append_left _ _

theorem settings_reached (service : Service σ) (settings : Settings) (dice : Nat → UInt64)
    (events : List (Event σ)) : (reached service settings dice events).network.settings = settings := by
  obtain ⟨history, hmirrors⟩ := reached_mirrors service settings dice events
  rw [← hmirrors.network]
  exact (Traffic.lawful_reached settings dice []).settings history

/-- What a sender has been handed was handed over under its key. -/
theorem told {box : MailboxId} {slip : SlipId} {deadline : Nat}
    (hsends : (reached service settings dice events).SendsAt t (.waiting box r slip deadline) hear)
    (hwritten : (reached service settings dice events).network.Written slip raw) :
    ∃ box' r', .answered box' r' raw slip ∈ storyOf service settings dice events ∧ r'.key = r.key := by
  obtain ⟨history, hmirrors⟩ := reached_mirrors service settings dice events
  obtain ⟨job, found, hjob⟩ := hsends
  have hcarries := hmirrors.tasks t job found
  have hwaits : (Traffic.reached settings dice history).SendsAt t (.waiting box r slip deadline) := by
    cases hjob <;> exact hcarries
  rw [storyOf, ← hmirrors.network]
  exact Traffic.told_reached settings dice history hwaits (hmirrors.network ▸ hwritten)

/-! ## What is heard -/

theorem Hears.harmless (h : Hears (reached service settings dice before) t event o)
    (houtcomes : ∀ outcome ∈ outcomes (storyOf service settings dice before), Harmless outcome) :
    Harmless o := by
  obtain ⟨hsealed, hord, hup⟩ := lawful_network service settings dice before
  cases h with
  | atOnce h hended => exact (setOut_ended hord hup hended).1
  | @lastly now stage hear raw h hended =>
    have hends := (faces_reached service h).ends hsealed hended
    obtain ⟨job, found, hjob⟩ := id h
    refine hjob.harmless ?_
    cases hends with
    | cutOff node h => exact harmless_error rfl
    | @handed stage raw hhanded =>
      obtain ⟨box, r, deadline, hwritten⟩ := hhanded
      obtain ⟨box', r', hanswered, -⟩ := told h hwritten
      exact houtcomes raw (mem_outcomes hanswered)
    | overdue r what hopen hblank hdue => exact harmless_error rfl
    | hasty r wake what hopen hzero => exact harmless_error rfl
    | inUse r wake what hopen => exact harmless_error rfl

/-- A task that hears how its request ends in an event in which nothing is sent has not sent it. -/
theorem never_sent_of_heard {event : Event σ} (after : List (Event σ))
    (hnetwork : ((reached service settings dice before).step service event).network =
      (reached service settings dice before).network)
    (hheard : ((reached service settings dice before).step service event).heard? t = some o)
    (hhad : 0 < Request.tally (some t) (reached service settings dice before).load.outgoing +
      Request.tally (some t) (event.load (reached service settings dice before)).outgoing) :
    Request.tally (some t) (posted (storyOf service settings dice (before ++ event :: after))) = 0 := by
  rw [← reached_concat] at hnetwork hheard
  refine never_sent service (congrArg Network.story hnetwork) ?_
  rw [tally_outgoing_of_heard service hheard]
  exact hhad

theorem outgoing_pos {state : TaskState}
    (found : (reached service settings dice before).tasks[t]? = some state)
    (hmem : r ∈ state.load.outgoing) :
    0 < Request.tally (some t) (reached service settings dice before).load.outgoing :=
  Request.tally_pos (mem_outgoing found hmem) (owned_reached service found r hmem)

/-- A task that sets out has its request to send. -/
theorem SetsOut.outgoing_pos (h : SetsOut (reached service settings dice before) t now event way r) :
    0 < Request.tally (some t) (reached service settings dice before).load.outgoing +
      Request.tally (some t) (event.load (reached service settings dice before)).outgoing := by
  cases h with
  | direct r ht =>
    subst ht
    exact Nat.add_pos_right _ (Request.tally_pos List.mem_cons_self rfl)
  | link l r ht =>
    subst ht
    exact Nat.add_pos_right _ (Request.tally_pos List.mem_cons_self rfl)
  | relay d via r l ht hl =>
    subst ht
    exact Nat.add_pos_right _ (Request.tally_pos List.mem_cons_self rfl)
  | connected d via k r l found hl =>
    exact Nat.add_pos_left (Cluster.outgoing_pos found List.mem_cons_self) _

/-- The clock shows the time that an event sees when it happens. -/
theorem Timely.split {later : Nat} (h : Timely service settings dice (before ++ event :: after) later)
    (hnow : event.time? = some now) : Timely service settings dice before now := by
  generalize hevents : before ++ event :: after = events at h
  induction h generalizing after with
  | start => simp at hevents
  | @happens events now' event' h hnow' ih =>
    rcases List.eq_nil_or_concat after with rfl | ⟨after', last, rfl⟩
    · obtain ⟨rfl, hlast⟩ := List.append_inj' hevents rfl
      cases hlast
      rw [hnow] at hnow'
      cases hnow'.resolve_left nofun
      exact h
    · have hsplit : (before ++ event :: after') ++ [last] = events ++ [event'] := by
        rw [← hevents]
        simp
      exact ih (List.append_inj' hsplit rfl).1
  | passes h hlater hquiet ih => exact ih hevents

/-- A sender ends in its last turn as `Spared` says. -/
theorem spared_lastly (hspoilt : Spoilt service settings dice (before ++ .turn now t :: after) t)
    (hreplies : OnlyWorkersReply (before ++ .turn now t :: after))
    (hsends : (reached service settings dice before).SendsAt t stage hear)
    (hended : ((reached service settings dice before).network.turnSend now stage).2 = .ended raw) :
    Spared service settings dice (before ++ .turn now t :: after) t (hear raw) := by
  obtain ⟨hsealed, hord, hup⟩ := lawful_network service settings dice before
  have hfaces := faces_reached service hsends
  obtain ⟨job, found, hjob⟩ := id hsends
  have hsettings := settings_reached service settings dice before
  cases hfaces.ends hsealed hended with
  | cutOff node hcut => exact .gone before after rfl hsends hcut node
  | @handed stage raw hhanded =>
    obtain ⟨box, r, deadline, hwritten⟩ := hhanded
    obtain ⟨box', r', hanswered, hkey⟩ := told hsends hwritten
    obtain ⟨other, howner, hother⟩ := hspoilt.other hreplies (story_subset before _ hanswered)
    exact .mistaken before after rfl hsends hanswered hkey howner hother
  | overdue r what hopen hblank hdue =>
    rw [hjob.hear_timeout, hsettings]
    refine .overdue before after rfl hsends hdue (fun later htimely => ?_) what
    exact Nat.le_antisymm ((htimely.split rfl).le_deadline service
      ((progress?_of_found found).trans hjob.progress?)) hdue
  | hasty r wake what hopen hzero =>
    rw [hjob.hear_timeout, hzero]
    exact .hasty (hsettings ▸ hzero) what
  | @inUse box r wake what hopen =>
    cases hfaces with
    | blocked r wake hserves =>
      obtain ⟨b, hbox, -⟩ := hserves
      have hb : b.closed = false := Bool.eq_false_iff.mpr fun hclosed => hopen ⟨b, hbox, hclosed⟩
      obtain ⟨hheard, hnetwork⟩ := turn_ended service found hjob hended
      have hmem : r ∈ (TaskState.running job).load.outgoing := by
        rw [hjob.outgoing]
        exact List.mem_cons_self
      have hnever := never_sent_of_heard after (hnetwork.trans (turnSend_inUse hbox hb hended)) hheard
        (Nat.add_pos_left (outgoing_pos found hmem) _)
      exact absurd hnever (hspoilt.books hreplies).1.ne'

/-- In a run in which nobody begins to reply but workers, no caller hears of a defect. -/
theorem defects_shielded (service : Service σ) (settings : Settings) (dice : Nat → UInt64)
    (events : List (Event σ)) (hreplies : OnlyWorkersReply events) :
    Shielded service settings dice events := by
  constructor
  · intro t o hheard
    obtain ⟨state, found, hstate⟩ := Option.bind_eq_some_iff.mp hheard
    obtain ⟨before, event, after, rfl, hhears⟩ :=
      heard_in service ((progress?_of_found found).trans (TaskState.progress?_of_heard? hstate))
    refine hhears.harmless (outcomes_harmless service settings dice fun now r outcome hmem => ?_)
    exact hreplies now r outcome (List.mem_append_left _ hmem)
  · intro t o hspoilt hheard
    obtain ⟨state, found, hstate⟩ := Option.bind_eq_some_iff.mp hheard
    obtain ⟨before, event, after, rfl, hhears⟩ :=
      heard_in service ((progress?_of_found found).trans (TaskState.progress?_of_heard? hstate))
    cases hhears with
    | @atOnce now event way r o hsets hended =>
      obtain ⟨hsealed, hord, hup⟩ := lawful_network service settings dice before
      have hdeparts := hsets.departs service
      rcases (setOut_ended hord hup hended).2 with hsame | ⟨hzero, what, rfl⟩
      · have hnever := never_sent_of_heard after (hdeparts.network.trans hsame)
          (hdeparts.ends o hended) hsets.outgoing_pos
        exact absurd hnever (hspoilt.books hreplies).1.ne'
      · exact .hasty ((settings_reached service settings dice before).symm ▸ hzero) what
    | lastly now hsends hended => exact spared_lastly hspoilt hreplies hsends hended

/-! ## Runs with defects -/

private def appeal (number : UInt64) (body : String) : Request where
  requestor := "c"
  target := "s"
  callId := number
  body := body

/-- A service breaks down at the request, and its sender waits for nothing. -/
private def breakdown : List (Event Echo) :=
  [.register 0 "s", .serve "s" "w" {}, .startWorkers 0 0, .begin 0 (.send (appeal 1 "panic")), .turn 0 0,
    .turn 3000 1]

theorem defects_shielded_in_breakdown :
    OnlyWorkersReply breakdown ∧ Spoilt Echo.service {} (fun _ => 0) breakdown 1 ∧
      (reached Echo.service {} (fun _ => 0) breakdown).heard? 1 =
        some (.error (.timeout "request c#1 to s" 3000)) ∧
      Shielded Echo.service {} (fun _ => 0) breakdown := by
  have hreplies : OnlyWorkersReply breakdown := by simp [OnlyWorkersReply, breakdown]
  exact ⟨hreplies, .of_spoils (List.Mem.head _), by rfl,
    defects_shielded Echo.service {} (fun _ => 0) breakdown hreplies⟩

/-- One worker has taken a request and is held up before it begins to work on it, so that the sender gives
up. Its key is free then for another request, at which the other worker breaks down. -/
private def lateness : List (Event Echo) :=
  [.register 0 "s", .register 0 "c", .serve "s" "w" {}, .startWorkers 0 0,
    .setSwitches 1 fun s => { s with delayFrom := 4000 }, .begin 0 (.send (appeal 1 "hello")), .turn 0 0,
    .setSwitches 1 fun s => { s with delayFrom := 0 }, .turn 3000 2, .begin 3000 (.send (appeal 1 "panic")),
    .turn 3000 1, .turn 4000 0, .turn 4000 3]

/-- Whoever sends under a key that was used before may hear how the earlier request has ended. -/
theorem defect_hidden_by_late_reply :
    OnlyWorkersReply lateness ∧ Spoilt Echo.service { workers := 2 } (fun _ => 0) lateness 3 ∧
      (reached Echo.service { workers := 2 } (fun _ => 0) lateness).heard? 3 =
        some (.ok ((appeal 1 "hello").answer "echo:hello")) :=
  ⟨by simp [OnlyWorkersReply, lateness], .of_spoils (List.Mem.head _), by rfl⟩

end Cluster

end Replica
