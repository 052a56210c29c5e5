import Replica.Proofs.Cluster.Directories
import Replica.Proofs.Cluster.Supervision

/-!
# What goes over links

A link takes only requests from its near end to its far end, and the network then looks up the mailbox of
the far end. So what reaches a mailbox over a link is such a request, and the mailbox is one of the far end
(`Link.Conveys`). A sender that is blocked keeps its request and its mailbox, and a task keeps to the link
that it was begun with, or that it has looked up, for as long as it sends (`SticksToLink`). So everything that
such a task puts into mailboxes has gone over its link, along every run in which no request is given a
detour (`posted_over_links`).
-/

namespace Replica

open Network

variable {net net' : Network} {l : Link} {box : MailboxId} {r : Request}

/-! ## What goes over a link -/

/-- The request is one from the near end to the far end, and the mailbox is one of the far end. -/
def Link.Conveys (net : Network) (l : Link) (box : MailboxId) (r : Request) : Prop :=
  r.requestor = l.home ∧ r.replier = l.peer.id ∧ net.Serves box l.peer.id

/-- A sender that is blocked sticks to the link. -/
def Sending.Along (net : Network) (l : Link) : Sending → Prop
  | .blocked box r _ => l.Conveys net box r
  | .waiting .. => True

/-- A sender sticks to its link while mailboxes stay with their nodes. -/
theorem Sending.Along.mono {stage : Sending} (h : stage.Along net l)
    (hserves : ∀ box node, net.Serves box node → net'.Serves box node) : stage.Along net' l := by
  cases stage with
  | blocked box r wake => exact ⟨h.1, h.2.1, hserves _ _ h.2.2⟩
  | waiting box r slip deadline => trivial

namespace Network

variable {puts : MailboxId → Request → Prop} {stage : Sending}

/-- All requests that have been put into mailboxes in the meantime are such. -/
def Posts (puts : MailboxId → Request → Prop) (net net' : Network) : Prop :=
  ∃ written, net'.story = net.story ++ written ∧ ∀ box r, .sent box r ∈ written → puts box r

/-- Nothing is posted where the journal stays the same. -/
theorem Posts.of_eq (h : net'.journal = net.journal) : Posts puts net net' :=
  ⟨[], by rw [story, h, List.append_nil, story], fun _ _ hmem => nomatch hmem⟩

/-- What is posted under a rule is posted under a wider one. -/
theorem Posts.mono {puts' : MailboxId → Request → Prop} (h : Posts puts net net')
    (hle : ∀ box r, puts box r → puts' box r) : Posts puts' net net' := by
  obtain ⟨written, hstory, hsent⟩ := h
  exact ⟨written, hstory, fun box r hmem => hle box r (hsent box r hmem)⟩

/-- What is said to be sent was put into the mailbox. -/
theorem Effect.posts (h : Effect puts net net') : Posts puts net net' := by
  cases h with
  | put now hputs found hfree hpush =>
    refine ⟨_, List.map_append, fun box r hmem => ?_⟩
    cases List.mem_singleton.mp hmem
    exact hputs
  | strike box key => exact .of_eq rfl
  | mark slip f hf => exact .of_eq rfl
  | roll => exact .of_eq rfl
  | remark now h =>
    refine ⟨_, List.map_append, fun box r hmem => ?_⟩
    cases List.mem_singleton.mp hmem
    cases h
  | leave t box => exact .of_eq rfl

/-- A call posts what its effects may put into mailboxes. -/
theorem Effects.posts (h : Effects puts net net') : Posts puts net net' := by
  induction h with
  | refl => exact .of_eq rfl
  | tail _ hlast ih =>
    obtain ⟨written, hstory, hsent⟩ := ih
    obtain ⟨more, hmore, hlater⟩ := hlast.posts
    refine ⟨written ++ more, by rw [hmore, hstory, List.append_assoc], fun box r hmem => ?_⟩
    exact (List.mem_append.mp hmem).elim (hsent box r) (hlater box r)

/-- A sender that tries at a mailbox of the far end waits there. -/
theorem trySend_along (now : Nat) (h : l.Conveys net box r) :
    (net.trySend now box r).2.Waits (·.Along (net.trySend now box r).1 l) := by
  have hadmission := trySend_admission now box r net
  generalize net.trySend now box r = result at hadmission ⊢
  cases hadmission with
  | blocked wake => exact h
  | refused e => trivial
  | entered deadline h => trivial
  | overdue e h => trivial

/-- A link lets only its own requests pass. -/
theorem carries_of_refusal? {closed : Bool} (h : l.refusal? closed r = none) :
    closed = false ∧ r.requestor = l.home ∧ r.replier = l.peer.id := by
  unfold Link.refusal? at h
  split at h
  · cases h
  · next hopen =>
    split at h
    · next hcarries =>
      obtain ⟨hrequestor, hreplier⟩ := Bool.and_eq_true_iff.mp hcarries
      exact ⟨Bool.eq_false_iff.mpr hopen, beq_iff_eq.mp hrequestor, beq_iff_eq.mp hreplier⟩
    · cases h

/-- A sender that begins over a link posts only what the link conveys, and sticks to it. -/
theorem beginLinkSend_along (now : Nat) (closed : Bool) (hnet : net.Routed) :
    Posts (l.Conveys net) net (net.beginLinkSend now l closed r).1 ∧
      (net.beginLinkSend now l closed r).2.Waits (·.Along (net.beginLinkSend now l closed r).1 l) := by
  unfold beginLinkSend
  cases hrefusal : l.refusal? closed r with
  | some e => exact ⟨.of_eq rfl, trivial⟩
  | none =>
    obtain ⟨-, hrequestor, hreplier⟩ := carries_of_refusal? hrefusal
    have hconveys (box : MailboxId) (hbox : net.registry.get? r.replier = some box) :
        l.Conveys net box r :=
      ⟨hrequestor, hreplier, hreplier ▸ hnet.registered _ _ (Registry.mem_of_get? hbox)⟩
    refine ⟨(beginSend_effects now hconveys).posts, ?_⟩
    have hwaits : (net.beginSend now r).2.Waits (·.Along (net.beginSend now r).1 l) := by
      unfold beginSend
      split
      · trivial
      · next box hbox => exact trySend_along now (hconveys box hbox)
    generalize net.beginSend now r = result at hwaits ⊢
    exact Progress.Waits.map (P := fun s : Sending => s.Along result.1 l) id Link.outcome hwaits

/-- So does a sender that goes on. -/
theorem turnLinkSend_along (now : Nat) (h : stage.Along net l) :
    Posts (l.Conveys net) net (net.turnLinkSend now stage).1 ∧
      (net.turnLinkSend now stage).2.Waits (·.Along (net.turnLinkSend now stage).1 l) := by
  have heffects : Effects (l.Conveys net) net (net.turnSend now stage).1 := by
    refine turnSend_effects now fun box r wake heq => ?_
    rw [heq] at h
    exact h
  refine ⟨heffects.posts, ?_⟩
  have hwaits : (net.turnSend now stage).2.Waits (·.Along (net.turnSend now stage).1 l) := by
    cases stage with
    | blocked box r wake =>
      rw [turnSend]
      split
      · exact trySend_along now h
      · exact h
    | waiting box r slip deadline =>
      have hlook := checkSlip_look now box r slip deadline net
      rw [turnSend]
      generalize net.checkSlip now box r slip deadline = result at hlook ⊢
      cases hlook <;> trivial
  unfold turnLinkSend
  generalize net.turnSend now stage = result at hwaits ⊢
  exact Progress.Waits.map (P := fun s : Sending => s.Along result.1 l) id Link.outcome hwaits

end Network

namespace Cluster

variable {σ : Type} (service : Service σ) {c c' : Cluster σ} {now : Nat} {t : TaskId} {call : Call}
variable {d : DirectoryId} {via : PeerId} {state : TaskState} {event : Event σ}

/-! ## Tasks and their links -/

/-- Where a task stands that was begun with the call: one that sends over a link, or a relay that sends,
sticks to the link. -/
def SticksToLink (c : Cluster σ) : Call → TaskState → Prop
  | .linkSend l _, .running job => ∃ stage, job = .linkSend stage ∧ stage.Along c.network l
  | .relay d via _, .running job => ∃ stage, job = .relay d via stage ∧
    ∀ sending, stage = .sending sending → ∃ h l, c.link? d h = some l ∧ sending.Along c.network l
  | _, _ => True

/-- The request and the mailbox are as they have to be for the call: those of its link, or of a link that a
relay has looked up in its directory. -/
def Carried (net : Network) (c : Cluster σ) (box : MailboxId) (r : Request) : Call → Prop
  | .linkSend l _ => l.Conveys net box r
  | .relay d _ _ => ∃ h l, c.link? d h = some l ∧ l.Conveys net box r
  | _ => True

/-- A task sticks to its link while mailboxes and links stay what they are. -/
theorem SticksToLink.mono (h : SticksToLink c call state)
    (hserves : ∀ box node, c.network.Serves box node → c'.network.Serves box node)
    (hlinks : ∀ d h l, c.link? d h = some l → c'.link? d h = some l) : SticksToLink c' call state := by
  cases call with
  | linkSend l r =>
    cases state with
    | running job =>
      obtain ⟨stage, rfl, halong⟩ := h
      exact ⟨stage, rfl, halong.mono hserves⟩
    | finished time answer => trivial
    | cancelled => trivial
  | relay d via r =>
    cases state with
    | running job =>
      obtain ⟨stage, rfl, hsends⟩ := h
      refine ⟨stage, rfl, fun sending heq => ?_⟩
      obtain ⟨h, l, hl, halong⟩ := hsends sending heq
      exact ⟨h, l, hlinks d h l hl, halong.mono hserves⟩
    | finished time answer => trivial
    | cancelled => trivial
  | _ => trivial

/-- What is carried over a link is carried over it while the link stays what it is. -/
theorem Carried.mono {box : MailboxId} {r : Request} (h : Carried net c box r call)
    (hlinks : ∀ d h l, c.link? d h = some l → c'.link? d h = some l) : Carried net c' box r call := by
  cases call with
  | linkSend l asked => exact h
  | relay d via asked =>
    obtain ⟨h, l, hl, hconveys⟩ := h
    exact ⟨h, l, hlinks d h l hl, hconveys⟩
  | _ => trivial

/-- A task that does not run is nowhere. -/
theorem SticksToLink.of_not_running (h : state.isRunning = false) : SticksToLink c call state := by
  cases state with
  | running job => cases h
  | finished time answer => cases call <;> trivial
  | cancelled => cases call <;> trivial

/-- What comes of a turn of a task that was begun with the call. -/
structure Conducts (now : Nat) (call : Call) (net : Network) (result : Cluster σ × JobProgress) :
    Prop where
  posts : Posts (fun box r => Carried net result.1 box r call) net result.1.network
  sticksToLink : SticksToLink result.1 call (.ofProgress now result.2)

variable {asked : Request}

/-- A relay that does not send. -/
theorem Conducts.of_idle {result : Cluster σ × JobProgress} (hnetwork : result.1.network = net)
    (hidle : ∀ job, result.2 = .waiting job →
      ∃ stage, job = .relay d via stage ∧ ∀ sending, stage ≠ .sending sending) :
    Conducts now (.relay d via asked) net result where
  posts := .of_eq (congrArg Network.journal hnetwork)
  sticksToLink := by
    obtain ⟨c, progress⟩ := result
    cases progress with
    | waiting job =>
      obtain ⟨stage, rfl, hnot⟩ := hidle job rfl
      exact ⟨stage, rfl, fun sending heq => absurd heq (hnot sending)⟩
    | ended answer => trivial

/-- A relay that waits for a repair posts nothing. -/
theorem waitForRepair_conducts (call : TaskId) (sent : Outcome) (c : Cluster σ) :
    Conducts now (.relay d via asked) c.network (c.waitForRepair d via call sent) := by
  unfold waitForRepair
  split
  · exact .of_idle rfl fun _ heq => nomatch heq
  · refine .of_idle rfl fun job heq => ?_
    cases heq
    exact ⟨_, rfl, nofun⟩

/-- A relay that has heard of its request, or still waits, keeps to its link. -/
theorem afterRelay_conducts {h : Handle} {result : Network × SendProgress} (hc : c.MapsConsistent)
    (hl : c.link? d h = some l) (hposts : Posts (l.Conveys c.network) c.network result.1)
    (halong : result.2.Waits (·.Along result.1 l)) :
    Conducts now (.relay d via asked) c.network (c.afterRelay now d via result) := by
  have hkept : (c.afterRelay now d via result).1.link? d h = some l :=
    (afterRelay_deals via result).own.link? hc hl
  refine ⟨?_, ?_⟩
  · rw [network_afterRelay]
    exact hposts.mono fun box r hconveys => ⟨h, l, hkept, hconveys⟩
  · obtain ⟨net, progress⟩ := result
    cases progress with
    | waiting stage =>
      refine ⟨.sending stage, rfl, fun sending heq => ?_⟩
      cases heq
      exact ⟨h, l, hkept, halong⟩
    | ended outcome =>
      cases outcome with
      | ok reply => trivial
      | error e =>
        cases e with
        | core e => exact (waitForRepair_conducts _ _ _).sticksToLink
        | _ => trivial

/-- A relay that gets its link sends over it, or is told that the link is shut. -/
theorem waitForLink_conducts (call : TaskId) (r : Request) (hc : c.MapsConsistent) (hnet : c.network.Routed) :
    Conducts now (.relay d via asked) c.network (c.waitForLink now d via call r) := by
  have hidle : Conducts now (.relay d via asked) c.network
      (c, .waiting (Job.relay d via (.connecting call r))) := by
    refine .of_idle rfl fun job heq => ?_
    cases heq
    exact ⟨_, rfl, nofun⟩
  unfold waitForLink
  cases c.proxyAnswer? d call with
  | none => exact hidle
  | some answer =>
    match answer with
    | .done | .repaired _ => exact hidle
    | .proxy (.error _) => exact .of_idle rfl fun _ heq => nomatch heq
    | .proxy (.ok h) =>
      dsimp only
      cases hl : c.link? d h with
      | none => exact hidle
      | some l =>
        obtain ⟨hposts, halong⟩ := beginLinkSend_along (l := l) (r := r) now (c.isShut l) hnet
        exact afterRelay_conducts hc hl hposts halong

/-- A task that sends over a link keeps to it. -/
theorem afterNetwork_conducts {result : Network × SendProgress}
    (h : Posts (l.Conveys c.network) c.network result.1 ∧ result.2.Waits (·.Along result.1 l)) :
    Conducts now (.linkSend l asked) c.network (c.afterNetwork .linkSend .outcome result) := by
  refine ⟨h.1, ?_⟩
  obtain ⟨net, progress⟩ := result
  cases progress with
  | waiting stage => exact ⟨stage, rfl, h.2⟩
  | ended outcome => trivial

/-- An event of one map leaves the maps consistent. -/
theorem MapsConsistent.modifyMap (hc : c.MapsConsistent) (event : ProxyMap.Event) :
    (c.modifyMap d (·.step event)).MapsConsistent := by
  obtain ⟨hown, hothers⟩ := modifyMap_deals d event c
  intro k home m hk
  have hdeals : ∃ dealt, Deals k dealt c (c.modifyMap d (·.step event)) := by
    rcases eq_or_ne k d with rfl | hne
    · exact ⟨_, hown⟩
    · exact ⟨_, hothers k hne⟩
  obtain ⟨dealt, hdeals⟩ := hdeals
  rw [hdeals] at hk
  obtain ⟨⟨home', m'⟩, hoffice, heq⟩ := Option.map_eq_some_iff.mp hk
  cases heq
  exact (hc k home' m' hoffice).run dealt

/-- A task that has nothing to do with links. -/
theorem Conducts.of_goes {held : List Request} {result : Cluster σ × JobProgress}
    (h : Goes now t net held result) (hcarried : ∀ net (c : Cluster σ) box r, Carried net c box r call)
    (hsticks : ∀ (c : Cluster σ) state, SticksToLink c call state) : Conducts now call net result := by
  obtain ⟨written, hcustody⟩ := h.passes
  exact ⟨⟨written, hcustody.turn.story, fun _ _ _ => hcarried _ _ _ _⟩, hsticks _ _⟩

/-- A call that begins a task leads it to its link, or to one that its relay looks up. -/
theorem undertake_conducts (now : Nat) (t : TaskId) (call : Call) (hc : c.MapsConsistent)
    (hnet : c.network.Routed) : Conducts now call c.network (c.undertake service now t call) := by
  cases call with
  | linkSend l r => exact afterNetwork_conducts (beginLinkSend_along now _ hnet)
  | relay d via r =>
    have hbegun : (c.beginProxyCall now d (.lookUp via)).1.MapsConsistent :=
      hc.modifyMap (.begin now c.network.factory (.lookUp via))
    exact waitForLink_conducts _ _ hbegun hnet
  | _ => exact .of_goes (undertake_goes service now t _ hnet) (fun _ _ _ _ => trivial) fun _ _ => trivial

/-- A task that goes on stays with its link. -/
theorem resume_conducts (now : Nat) (t : TaskId) {job : Job} (hc : c.MapsConsistent) (hnet : c.network.Routed)
    (hjob : job.Aimed c.network) (h : SticksToLink c call (.running job)) :
    Conducts now call c.network (c.resume service now t job) := by
  cases call with
  | linkSend l r =>
    obtain ⟨stage, rfl, halong⟩ := h
    exact afterNetwork_conducts (turnLinkSend_along now halong)
  | relay d via r =>
    obtain ⟨stage, rfl, hsends⟩ := h
    cases stage with
    | connecting k asked =>
      have hturned : (c.turnProxyCall now d k).MapsConsistent := hc.modifyMap (.turn now c.network.factory k)
      exact waitForLink_conducts k asked hturned hnet
    | sending stage =>
      obtain ⟨h, l, hl, halong⟩ := hsends stage rfl
      obtain ⟨hposts, halong⟩ := turnLinkSend_along now halong
      exact afterRelay_conducts hc hl hposts halong
    | repairing k sent => exact waitForRepair_conducts k sent (c.turnProxyCall now d k)
  | _ => exact .of_goes (resume_goes service now t hjob hnet) (fun _ _ _ _ => trivial) fun _ _ => trivial

/-! ## Events -/

/-- Mailboxes stay with their nodes in every event. -/
theorem step_serves (hc : c.Sound) (hstays : ∀ owner other, event ≠ .divert owner other) (box : MailboxId)
    (node : PeerId) (h : c.network.Serves box node) : (c.step service event).network.Serves box node := by
  obtain ⟨written, hadvances | hcancels | ⟨hresets, -⟩⟩ := step_cases service hc hstays
  · exact hadvances.turn.steady.serves h
  · exact hcancels.turn.steady.serves h
  · exact hresets.serves _ _ h

/-- Links stay what they are in every event. -/
theorem step_link? (hc : c.MapsConsistent) (event : Event σ) {h : Handle} (hl : c.link? d h = some l) :
    (c.step service event).link? d h = some l := by
  have hthere : d < c.directories.length := by
    obtain ⟨dir, found, -⟩ := Option.bind_eq_some_iff.mp hl
    exact lt_length_of_getElem? found
  exact (step_deals service d c event (.inl hthere)).link? hc hl

/-- The event gives the task its turn, the first one or a later one. -/
def Event.GivesTurn (c : Cluster σ) (t : TaskId) : Event σ → Prop
  | .begin _ _ => t = c.tasks.length
  | .turn _ u => t = u
  | _ => False

/-- A task that has its turn goes on over its link. -/
theorem turn_sticksToLink (now : Nat) (hc : c.Sound) (hs : c.MapsConsistent) (found : c.tasks[t]? = some state)
    (h : SticksToLink c call state) :
    Posts (fun box r => Carried c.network (c.turn service now t) box r call) c.network
        (c.turn service now t).network ∧
      ∃ state', (c.turn service now t).tasks[t]? = some state' ∧
        SticksToLink (c.turn service now t) call state' := by
  cases state with
  | running job =>
    obtain ⟨hposts, hsticks⟩ :=
      resume_conducts service now t hs hc.routed (hc.aimed t job found) h
    have hlinks (d : DirectoryId) (h : Handle) (l : Link)
        (hl : (c.resume service now t job).1.link? d h = some l) :
        (c.turn service now t).link? d h = some l := by
      rw [Cluster.turn, found]
      exact hl
    have hnetwork : (c.turn service now t).network = (c.resume service now t job).1.network :=
      network_turn service found
    refine ⟨?_, _, ?_, hsticks.mono (fun _ _ h => hnetwork ▸ h) hlinks⟩
    · rw [hnetwork]
      exact hposts.mono fun box r hcarried => hcarried.mono hlinks
    · exact task_turned service found
  | finished | cancelled =>
    rw [turn_of_not_running service (by simp [found])]
    exact ⟨.of_eq rfl, _, found, h⟩

/-- A task keeps to its link, whatever happens. -/
theorem step_sticksToLink (hc : c.Sound) (hs : c.MapsConsistent)
    (hstays : ∀ owner other, event ≠ .divert owner other)
    (found : c.tasks[t]? = some state) (h : SticksToLink c call state) :
    ∃ state', (c.step service event).tasks[t]? = some state' ∧
      SticksToLink (c.step service event) call state' := by
  have hserves := step_serves service hc hstays
  have hlinks : ∀ d h l, c.link? d h = some l → (c.step service event).link? d h = some l :=
    fun d h l hl => step_link? service hs event hl
  obtain ⟨state', found', htaskChange⟩ := step_taskChange service found event
  refine ⟨state', found', ?_⟩
  cases htaskChange with
  | same event state => exact h.mono hserves hlinks
  | diverted owner other state => exact absurd rfl (hstays owner other)
  | turned now job hnetwork =>
    obtain ⟨state', htask, hsticks⟩ := (turn_sticksToLink service now hc hs found h).2
    cases found'.symm.trans htask
    exact hsticks
  | cancelled event job => exact .of_not_running rfl

/-! ## Runs -/

variable {settings : Settings} {dice : Nat → UInt64} {events : List (Event σ)}

/-- In the course of the events, the task was begun with the call. -/
def BegunWith (service : Service σ) (settings : Settings) (dice : Nat → UInt64) (events : List (Event σ))
    (t : TaskId) (call : Call) : Prop :=
  ∃ before now after, events = before ++ .begin now call :: after ∧
    t = (reached service settings dice before).tasks.length

/-- A task that was begun with a call was begun before, or is in the last event. -/
theorem BegunWith.concat_cases (h : BegunWith service settings dice (events ++ [event]) t call) :
    BegunWith service settings dice events t call ∨
      (∃ now, event = .begin now call) ∧ t = (reached service settings dice events).tasks.length := by
  obtain ⟨before, now, after, heq, rfl⟩ := h
  rcases List.eq_nil_or_concat after with rfl | ⟨after, last, rfl⟩
  · obtain ⟨rfl, hlast⟩ := List.append_inj' heq rfl
    cases hlast
    exact .inr ⟨⟨now, rfl⟩, rfl⟩
  · rw [List.concat_eq_append, ← List.cons_append, ← List.append_assoc] at heq
    obtain ⟨rfl, -⟩ := List.append_inj' heq rfl
    exact .inl ⟨before, now, after, rfl, rfl⟩

/-- A task that begins posts only what its call conveys, and sticks to its link from then on. -/
theorem begin_sticksToLink (now : Nat) (hc : c.Sound) (hs : c.MapsConsistent) :
    Posts (fun box r => Carried c.network (c.begin service now call) box r call) c.network
        (c.begin service now call).network ∧
      ∃ state, (c.begin service now call).tasks[c.tasks.length]? = some state ∧
        SticksToLink (c.begin service now call) call state := by
  obtain ⟨hposts, hsticks⟩ := undertake_conducts service now c.tasks.length call hs hc.routed
  refine ⟨hposts.mono fun box r hcarried => hcarried.mono fun _ _ _ hl => hl, _, ?_,
    hsticks.mono (fun _ _ h => h) fun _ _ _ hl => hl⟩
  exact task_begun service

/-- So every task that was begun with a call sticks to its link in every run. -/
theorem sticksToLink_reached (hstays : ∀ owner other, Event.divert owner other ∉ events)
    (h : BegunWith service settings dice events t call) :
    ∃ state, (reached service settings dice events).tasks[t]? = some state ∧
      SticksToLink (reached service settings dice events) call state := by
  induction events using List.reverseRecOn with
  | nil =>
    obtain ⟨before, now, after, heq, -⟩ := h
    exact absurd heq (by simp)
  | append_singleton events event ih =>
    obtain ⟨hearlier, hlast⟩ := stays_concat.mp hstays
    have hc : (reached service settings dice events).Sound := (kept_reached service hearlier).sound
    have hs : (reached service settings dice events).MapsConsistent := mapsConsistent_reached service
    rw [reached_concat]
    rcases h.concat_cases with h | ⟨⟨now, rfl⟩, rfl⟩
    · obtain ⟨state, found, hsticks⟩ := ih hearlier h
      exact step_sticksToLink service hc hs hlast found hsticks
    · exact (begin_sticksToLink service now hc hs).2

/-- What a task puts into mailboxes in its turn has gone over its link. -/
theorem posted_over_links (hstays : ∀ owner other, Event.divert owner other ∉ events ++ [event])
    (hbegun : BegunWith service settings dice (events ++ [event]) t call)
    (hgivesTurn : event.GivesTurn (reached service settings dice events) t) :
    Posts (fun box r => Carried (reached service settings dice events).network
        (reached service settings dice (events ++ [event])) box r call)
      (reached service settings dice events).network
      (reached service settings dice (events ++ [event])).network := by
  obtain ⟨hearlier, -⟩ := stays_concat.mp hstays
  have hc : (reached service settings dice events).Sound := (kept_reached service hearlier).sound
  have hs : (reached service settings dice events).MapsConsistent := mapsConsistent_reached service
  rw [reached_concat]
  rcases hbegun.concat_cases with hbegun | ⟨⟨now, rfl⟩, rfl⟩
  · obtain ⟨state, found, hsticks⟩ := sticksToLink_reached service hearlier hbegun
    cases event with
    | begin now call =>
      have hlt := lt_length_of_getElem? found
      exact absurd hgivesTurn (Nat.ne_of_lt hlt)
    | turn now u =>
      obtain rfl : t = u := hgivesTurn
      exact (turn_sticksToLink service now hc hs found hsticks).1
    | _ => exact hgivesTurn.elim
  · exact (begin_sticksToLink service now hc hs).1

end Cluster

end Replica
