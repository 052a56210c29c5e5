import Replica.Proofs.Network.Picking
import Replica.Proofs.Traffic.Clock
import Replica.Proofs.Traffic.Outcomes

/-!
# Taking the first request that may be taken

A call that takes a request waits out the delay of its own node, goes through the mailbox once, and holds
back what it has picked for as long as the requestor's switch says (`Replica.Network.Picks`). Where it stands
and what is in the mailbox changes with its own turns only, as long as nobody else comes to the mailbox and
no node and no switch changes (`Undisturbed`).

While the call sleeps the clock waits for it, so it goes on at the very time that was set. What comes of it,
and when, is followed from turn to turn (`Takes.happens`) and over the instants between them
(`Takes.passes`).

Nobody sleeps for more than thirty years, so a delay that is set to more is over sooner.
-/

namespace Replica

open Network

namespace Traffic

variable {x y : Traffic} {i : Nat} {t : TaskId} {node : PeerId} {box : MailboxId} {b : Mailbox}
variable {event : Event} {events before after rest : List Event} {start time now later wake : Nat}
variable {origin : Network} {content queue dropped left : List Request} {r : Request}
variable {picked : Option Request} {stage : Taking}
variable {state : CallState Taking (Except ServerError Request)} {result : Except ServerError Request}

/-! ## Calls that are not disturbed -/

/-- What a taker finds at the mailbox: whose it is, the requests in it, and whether it is closed. -/
def contentOf (box : MailboxId) (x : Traffic) : Option (PeerId × List Request × Bool) :=
  x.network.mailboxes[box]?.map fun b => (b.id, b.requests, b.closed)

/-- All that the call goes by stays as it is: the nodes and their switches, what is in the mailbox, and where
the call stands. -/
structure Spares (i : Nat) (box : MailboxId) (x y : Traffic) : Prop where
  nodes : SameNodes x.network y.network
  content : y.contentOf box = x.contentOf box
  call : y.takes[i]? = x.takes[i]?

/-- Only turns of the call itself change anything that it goes by. -/
def Undisturbed (i : Nat) (box : MailboxId) (x : Traffic) (events : List Event) : Prop :=
  ∀ before event rest, events = before ++ event :: rest →
    (∃ time, event = .turnTake time i) ∨ Spares i box (x.run before) ((x.run before).step event)

theorem Undisturbed.of_concat (h : x.Undisturbed i box (events ++ [event])) :
    x.Undisturbed i box events ∧
      ((∃ time, event = .turnTake time i) ∨ Spares i box (x.run events) ((x.run events).step event)) := by
  refine ⟨fun before first rest heq => ?_, h events event [] rfl⟩
  exact h before first (rest ++ [event]) (by rw [heq, List.append_assoc, List.cons_append])

theorem undisturbed_nil : x.Undisturbed i box [] :=
  fun _ _ _ heq => absurd heq (by simp)

theorem undisturbed_cons (hfirst : (∃ time, event = .turnTake time i) ∨ Spares i box x (x.step event))
    (hrest : (x.step event).Undisturbed i box events) : x.Undisturbed i box (event :: events) := by
  rintro (_ | ⟨first, before⟩) event' rest heq
  · cases heq
    exact hfirst
  · cases heq
    exact hrest before event' rest rfl

/-- The nodes are as they were in the beginning, the node's mailbox is open and has the content, and the call
of the task stands so. -/
structure Finds (origin : Network) (i : Nat) (t : TaskId) (node : PeerId) (box : MailboxId)
    (content : List Request) (state : CallState Taking (Except ServerError Request)) (x : Traffic) :
    Prop where
  nodes : SameNodes origin x.network
  content : x.contentOf box = some (node, content, false)
  call : x.takes[i]? = some ⟨t, state⟩

/-- The call has ended with the result. -/
def Taken (i : Nat) (result : Except ServerError Request) (x : Traffic) : Prop :=
  ∃ t, x.takes[i]? = some ⟨t, .ended result⟩

/-- A turn of a call that is under way. -/
theorem step_turnTake (call : x.takes[i]? = some ⟨t, .underWay stage⟩) (time : Nat) :
    (x.step (.turnTake time i)).network = (x.network.turnTake time t stage).1 ∧
      (x.step (.turnTake time i)).takes[i]? =
        some ⟨t, .ofProgress id (x.network.turnTake time t stage).2⟩ := by
  rw [step, turnTake_eq call rfl]
  exact ⟨rfl, getElem?_modify_eq_some_iff.mpr ⟨_, call, if_pos rfl⟩⟩

/-- A call that has ended has no more turns. -/
theorem step_turnTake_of_ended (call : x.takes[i]? = some ⟨t, .ended result⟩) (time : Nat) :
    x.step (.turnTake time i) = x := by
  simp only [step, Traffic.turnTake, call]

namespace Finds

theorem spared (h : Finds origin i t node box content state x) (hspares : Spares i box x y) :
    Finds origin i t node box content state y where
  nodes := h.nodes.trans hspares.nodes
  content := hspares.content.trans h.content
  call := hspares.call.trans h.call

theorem exists_mailbox (h : Finds origin i t node box content state x) :
    ∃ b, x.network.mailboxes[box]? = some b ∧ b.id = node ∧ b.requests = content ∧ b.closed = false := by
  obtain ⟨b, found, hb⟩ := Option.map_eq_some_iff.mp h.content
  simp only [Prod.mk.injEq] at hb
  exact ⟨b, found, hb⟩

/-- A turn that leaves the network as it is. -/
theorem turn (h : Finds origin i t node box content (.underWay stage) x) {progress : TakeProgress}
    (hturn : x.network.turnTake time t stage = (x.network, progress)) :
    Finds origin i t node box content (.ofProgress id progress) (x.step (.turnTake time i)) := by
  obtain ⟨hnetwork, hcall⟩ := step_turnTake h.call time
  rw [hturn] at hnetwork hcall
  refine ⟨hnetwork ▸ h.nodes, ?_, hcall⟩
  rw [contentOf, hnetwork]
  exact h.content

theorem not_taken (h : Finds origin i t node box content (.underWay stage) x) : ¬ Taken i result x := by
  rintro ⟨t', found⟩
  cases h.call.symm.trans found

/-- The clock waits for a call that sleeps. -/
theorem not_passes {instant : Nat} (h : Finds origin i t node box content (.underWay stage) x)
    (halarm : stage.alarm? = some wake) (hwake : wake ≤ instant) : ¬ x.IsQuiet instant := by
  intro hquiet
  have hstuck := hquiet.takes i _ stage h.call rfl
  cases stage with
  | looking box => cases halarm
  | delayed box wake' =>
    cases halarm
    exact absurd hwake (of_decide_eq_false hstuck)
  | holding box r wake' =>
    cases halarm
    exact absurd hwake (of_decide_eq_false hstuck)

theorem le_alarm {stage : Taking} (h : Finds origin i t node box content (.underWay stage) x)
    (halarm : stage.alarm? = some wake) (hnow : now ≤ wake)
    (hquiet : ∀ instant, now ≤ instant → instant < later → x.IsQuiet instant) : later ≤ wake :=
  Nat.le_of_not_lt fun hlt => h.not_passes halarm (Nat.le_refl _) (hquiet wake hnow hlt)

end Finds

/-! ## What comes of a call -/

/-- The call goes through the requests `queue` of the mailbox in one of its turns, at the time. It drops those
of barred requestors, up to the first other one, which it picks; and it makes no more rounds than there are
requests. -/
structure Sorts (x : Traffic) (i : Nat) (t : TaskId) (node : PeerId) (box : MailboxId)
    (events : List Event) (time : Nat) (queue dropped : List Request) (picked : Option Request)
    (left : List Request) : Prop where
  barred : ∀ d ∈ dropped, d.replier = node ∧ x.network.Bars d.requestor
  free : ∀ r ∈ picked, ¬ (r.replier = node ∧ x.network.Bars r.requestor)
  turn : ∃ before event rest, events = before ++ event :: rest ∧
    (event = .beginTake time t node ∨ event = .turnTake time i) ∧
    ((x.run before).step event).network = ((x.run before).network.takeFrom time t box).1 ∧
    Picks t box queue dropped picked left (x.run before).network ((x.run before).step event).network ∧
    ∃ n ≤ queue.length,
      Rounds time t box (x.run before).network n ((x.run before).network.takeFrom time t box)

/-- What comes of a call that takes a request, and when, by the time `now`. The requests `queue` are in the
mailbox, and the delay of its node is over at the time `wake`. -/
inductive Takes (x : Traffic) (i : Nat) (t : TaskId) (node : PeerId) (box : MailboxId)
    (queue : List Request) (wake : Nat) (events : List Event) (now : Nat) : Prop where
  /-- It waits out the delay of its node, and nothing is dropped. -/
  | delayed (hfinds : Finds x.network i t node box queue (.underWay (.delayed box wake)) (x.run events))
    (hnow : now ≤ wake)
  /-- All requests were dropped, and it waits. -/
  | waits (hsorts : x.Sorts i t node box events wake queue queue none [])
    (hfinds : Finds x.network i t node box [] (.underWay (.looking box)) (x.run events))
  /-- The first request that it did not drop was for another node, and it ended at once. -/
  | refuses (dropped left : List Request) (r : Request)
    (hsorts : x.Sorts i t node box events wake queue dropped (some r) left) (hother : r.replier ≠ node)
    (hfinds : Finds x.network i t node box left (.ended (.error (misrouted node r))) (x.run events))
    (hends : x.Becomes events wake (Taken i (.error (misrouted node r))))
  /-- It holds the first request that it did not drop, until the requestor's delay is over. -/
  | holds (dropped left : List Request) (r : Request)
    (hsorts : x.Sorts i t node box events wake queue dropped (some r) left) (hown : r.replier = node)
    (hfinds : Finds x.network i t node box left
      (.underWay (.holding box r (wake + x.network.holdback r.requestor))) (x.run events))
    (hnow : now ≤ wake + x.network.holdback r.requestor)
  /-- It has ended with the first request that it did not drop, when the requestor's delay was over. -/
  | returns (dropped left : List Request) (r : Request)
    (hsorts : x.Sorts i t node box events wake queue dropped (some r) left) (hown : r.replier = node)
    (hfinds : Finds x.network i t node box left (.ended (.ok r)) (x.run events))
    (hends : x.Becomes events (wake + x.network.holdback r.requestor) (Taken i (.ok r)))

/-- What was done remains so when more happens. -/
theorem Sorts.concat (h : x.Sorts i t node box events time queue dropped picked left) (event : Event) :
    x.Sorts i t node box (events ++ [event]) time queue dropped picked left where
  barred := h.barred
  free := h.free
  turn := by
    obtain ⟨before, own, rest, rfl, hturn⟩ := h.turn
    exact ⟨before, own, rest ++ [event], by rw [List.append_assoc, List.cons_append], hturn⟩

/-- What is left in the mailbox is what the call has left there. -/
theorem contentOf_of_picks (found : x.network.mailboxes[box]? = some b)
    (h : Picks t box queue dropped picked left x.network y.network) :
    y.contentOf box = some (b.id, left, false) := by
  have hpost := h.steady.posts box
  obtain ⟨b', found', hb'⟩ := Option.map_eq_some_iff.mp h.content
  rw [found, found'] at hpost
  have hid := congrArg (·.1) (Option.some.inj hpost)
  obtain ⟨rfl, hopen⟩ := Prod.mk.inj hb'
  rw [contentOf, found', Option.map_some, hopen]
  exact congrArg (fun id => some (id, b'.requests, false)) hid

/-- The call has slept as long as its node says, and goes through the mailbox. -/
theorem takes_of_looks (hnodes : SameNodes x.network (x.run events).network)
    (found : (x.run events).network.mailboxes[box]? = some b) (hopen : b.closed = false)
    (hevent : event = .beginTake now t b.id ∨ event = .turnTake now i)
    (hnetwork : ((x.run events).step event).network = ((x.run events).network.takeFrom now t box).1)
    (hcall : ((x.run events).step event).takes[i]? =
      some ⟨t, .ofProgress id ((x.run events).network.takeFrom now t box).2⟩)
    (hnot : ∀ result, ¬ Taken i result (x.run events)) :
    Takes x i t b.id box b.requests now (events ++ [event]) now := by
  have htime : event.time? = some now := by
    rcases hevent with rfl | rfl <;> rfl
  have hdrops {r : Request} : (x.run events).network.drops b.id r = true ↔
      r.replier = b.id ∧ x.network.Bars r.requestor := by
    rw [hnodes.drops, drops_iff]
  have hfinds {dropped left : List Request} {picked : Option Request} {progress : TakeProgress}
      (hpicks : Picks t box b.requests dropped picked left (x.run events).network
        ((x.run events).network.takeFrom now t box).1)
      (hprogress : ((x.run events).network.takeFrom now t box).2 = progress) :
      Finds x.network i t b.id box left (.ofProgress id progress) (x.run (events ++ [event])) := by
    rw [← hnetwork] at hpicks
    rw [hprogress] at hcall
    rw [run_concat]
    exact ⟨hnodes.trans (.of_steady hpicks.steady), contentOf_of_picks found hpicks, hcall⟩
  have hsorts {dropped left : List Request} {picked : Option Request}
      (hdropped : ∀ d ∈ dropped, (x.run events).network.drops b.id d = true)
      (hkept : ∀ r ∈ picked, (x.run events).network.drops b.id r = false)
      (hpicks : Picks t box b.requests dropped picked left (x.run events).network
        ((x.run events).network.takeFrom now t box).1) :
      x.Sorts i t b.id box (events ++ [event]) now b.requests dropped picked left := by
    refine ⟨fun d hd => hdrops.mp (hdropped d hd), fun r hr hbars => ?_, events, event, [], rfl, hevent,
      hnetwork, hnetwork ▸ hpicks, takeFrom_rounds now t found hopen⟩
    exact Bool.false_ne_true ((hkept r hr).symm.trans (hdrops.mpr hbars))
  rcases takeFrom_picks now t found hopen with ⟨hdropped, hpicks, hprogress⟩ |
    ⟨dropped, r, left, hdropped, hkept, hpicks, hprogress⟩
  · exact .waits (hsorts hdropped nofun hpicks) (hfinds hpicks hprogress)
  · have hsorts := hsorts hdropped (fun r' hr' => Option.some.inj hr' ▸ hkept) hpicks
    have hends {result : Except ServerError Request}
        (hended : ((x.run events).network.takeFrom now t box).2 = .ended result) :
        x.Becomes (events ++ [event]) now (Taken i result) := by
      refine becomes_concat_iff.mpr (.inr ⟨htime, hnot result, t, ?_⟩)
      rw [hcall, hended]
      rfl
    rcases hprogress with ⟨hother, hended⟩ | ⟨hown, hzero, hended⟩ | ⟨hown, hwaiting⟩
    · exact .refuses dropped left r hsorts hother (hfinds hpicks hended) (hends hended)
    · rw [hnodes.holdback] at hzero
      refine .returns dropped left r hsorts hown (hfinds hpicks hended) ?_
      rw [hzero]
      exact hends hended
    · rw [hnodes.holdback] at hwaiting
      exact .holds dropped left r hsorts hown (hfinds hpicks hwaiting) (Nat.le_add_right _ _)

/-- A call that waits at an empty mailbox goes on waiting there, whether it has been woken or not. -/
theorem Finds.looks (h : Finds origin i t node box [] (.underWay (.looking box)) x) (time : Nat) :
    Finds origin i t node box [] (.underWay (.looking box)) (x.step (.turnTake time i)) := by
  obtain ⟨b, found, rfl, hempty, hopen⟩ := h.exists_mailbox
  by_cases hwoken : x.network.isWoken t box
  · have hturn : x.network.turnTake time t (.looking box) = x.network.takeFrom time t box :=
      if_pos hwoken
    obtain ⟨hnetwork, hcall⟩ := step_turnTake h.call time
    rw [hturn] at hnetwork hcall
    rcases takeFrom_picks time t found hopen with ⟨-, hpicks, hprogress⟩ |
      ⟨dropped, r, left, -, -, hpicks, -⟩
    · rw [hprogress] at hcall
      rw [← hnetwork] at hpicks
      exact ⟨h.nodes.trans (.of_steady hpicks.steady), contentOf_of_picks found hpicks, hcall⟩
    · exact absurd (hempty.symm.trans hpicks.split) (by simp)
  · exact h.turn (if_neg hwoken)

/-- What comes of the call after a turn of its own. -/
theorem Takes.turn (h : x.Takes i t node box queue wake events now) :
    x.Takes i t node box queue wake (events ++ [.turnTake now i]) now := by
  cases h with
  | delayed hfinds hnow =>
    by_cases hwake : wake ≤ now
    · obtain rfl := Nat.le_antisymm hnow hwake
      have hturn : (x.run events).network.turnTake now t (.delayed box now) =
          (x.run events).network.takeFrom now t box := if_pos (Nat.le_refl _)
      obtain ⟨b, found, rfl, rfl, hopen⟩ := hfinds.exists_mailbox
      obtain ⟨hnetwork, hcall⟩ := step_turnTake hfinds.call now
      rw [hturn] at hnetwork hcall
      exact takes_of_looks hfinds.nodes found hopen (.inr rfl) hnetwork hcall fun _ => hfinds.not_taken
    · refine .delayed ?_ hnow
      rw [run_concat]
      exact hfinds.turn (if_neg hwake)
  | waits hsorts hfinds =>
    refine .waits (hsorts.concat _) ?_
    rw [run_concat]
    exact hfinds.looks now
  | holds dropped left r hsorts hown hfinds hnow =>
    by_cases hwake : wake + x.network.holdback r.requestor ≤ now
    · obtain rfl := Nat.le_antisymm hnow hwake
      have hended := hfinds.turn (if_pos (Nat.le_refl _))
      refine .returns dropped left r (hsorts.concat _) hown ?_ ?_
      · rw [run_concat]
        exact hended
      · exact becomes_concat_iff.mpr (.inr ⟨rfl, hfinds.not_taken, t, hended.call⟩)
    · refine .holds dropped left r (hsorts.concat _) hown ?_ hnow
      rw [run_concat]
      exact hfinds.turn (if_neg hwake)
  | refuses dropped left r hsorts hother hfinds hends =>
    refine .refuses dropped left r (hsorts.concat _) hother ?_ (hends.concat _)
    rw [run_concat, step_turnTake_of_ended hfinds.call]
    exact hfinds
  | returns dropped left r hsorts hown hfinds hends =>
    refine .returns dropped left r (hsorts.concat _) hown ?_ (hends.concat _)
    rw [run_concat, step_turnTake_of_ended hfinds.call]
    exact hfinds

/-- What comes of the call when something happens that it does not go by. -/
theorem Takes.spared (h : x.Takes i t node box queue wake events now)
    (hspares : Spares i box (x.run events) ((x.run events).step event)) :
    x.Takes i t node box queue wake (events ++ [event]) now := by
  rw [← run_concat] at hspares
  cases h with
  | delayed hfinds hnow => exact .delayed (hfinds.spared hspares) hnow
  | waits hsorts hfinds => exact .waits (hsorts.concat _) (hfinds.spared hspares)
  | refuses dropped left r hsorts hother hfinds hends =>
    exact .refuses dropped left r (hsorts.concat _) hother (hfinds.spared hspares) (hends.concat _)
  | holds dropped left r hsorts hown hfinds hnow =>
    exact .holds dropped left r (hsorts.concat _) hown (hfinds.spared hspares) hnow
  | returns dropped left r hsorts hown hfinds hends =>
    exact .returns dropped left r (hsorts.concat _) hown (hfinds.spared hspares) (hends.concat _)

/-- The clock waits for a call that sleeps. -/
theorem Takes.passes (h : x.Takes i t node box queue wake events now)
    (hquiet : ∀ instant, now ≤ instant → instant < later → (x.run events).IsQuiet instant) :
    x.Takes i t node box queue wake events later := by
  cases h with
  | delayed hfinds hnow => exact .delayed hfinds (hfinds.le_alarm rfl hnow hquiet)
  | waits hsorts hfinds => exact .waits hsorts hfinds
  | refuses dropped left r hsorts hother hfinds hends =>
    exact .refuses dropped left r hsorts hother hfinds hends
  | holds dropped left r hsorts hown hfinds hnow =>
    exact .holds dropped left r hsorts hown hfinds (hfinds.le_alarm rfl hnow hquiet)
  | returns dropped left r hsorts hown hfinds hends =>
    exact .returns dropped left r hsorts hown hfinds hends

/-- What comes of the call in its first turn. -/
theorem takes_of_begins (hget : x.network.registry.get? b.id = some box)
    (found : x.network.mailboxes[box]? = some b) (hopen : b.closed = false) (start : Nat) (t : TaskId) :
    x.Takes x.takes.length t b.id box b.requests (start + Sleep.span b.switches.delayTo.toNat)
      [.beginTake start t b.id] start := by
  have hswitches : x.network.switchesOf b.id = b.switches := by
    rw [switchesOf, Network.mailbox?, hget, Option.bind_some, found]
    rfl
  have hcall : (x.step (.beginTake start t b.id)).takes[x.takes.length]? =
      some ⟨t, .ofProgress id (x.network.beginTake start t b.id).2⟩ := List.getElem?_concat_length
  have hnot (result : Except ServerError Request) : ¬ Taken x.takes.length result x := by
    rintro ⟨_, found⟩
    exact Nat.lt_irrefl _ (lt_length_of_getElem? found)
  by_cases hdelay : b.switches.delayTo = 0
  · have hbegin : x.network.beginTake start t b.id = x.network.takeFrom start t box := by
      simp only [Network.beginTake, hget, hswitches, if_pos hdelay]
    rw [hbegin] at hcall
    have hnow : start + Sleep.span b.switches.delayTo.toNat = start := by
      rw [hdelay]
      rfl
    rw [hnow]
    rw [← List.nil_append [Event.beginTake start t b.id]]
    exact takes_of_looks (.refl _) found hopen (.inl rfl) (congrArg (·.1) hbegin) hcall hnot
  · have hbegin : x.network.beginTake start t b.id =
        (x.network, .waiting (.delayed box (Sleep.wake start b.switches.delayTo.toNat))) := by
      simp only [Network.beginTake, hget, hswitches, if_neg hdelay]
    have hnetwork : (x.step (.beginTake start t b.id)).network = x.network := congrArg (·.1) hbegin
    rw [hbegin] at hcall
    refine .delayed ⟨?_, ?_, hcall⟩ (Nat.le_add_right _ _)
    · show SameNodes x.network (x.step (.beginTake start t b.id)).network
      rw [hnetwork]
      exact .refl _
    · show Option.map _ ((x.step (.beginTake start t b.id)).network.mailboxes[box]?) = _
      rw [hnetwork, found, Option.map_some, hopen]

/-- What comes of the call, however the others get their turns, as long as nothing disturbs it. -/
theorem Takes.run {first : Event} (h : x.Takes i t node box queue wake [first] start)
    (hclock : (x.step first).Timely start after now)
    (hundisturbed : (x.step first).Undisturbed i box after) :
    x.Takes i t node box queue wake (first :: after) now := by
  induction hclock with
  | start => exact h
  | @happens events now event _ hnow ih =>
    obtain ⟨hearlier, hlast⟩ := hundisturbed.of_concat
    have hbefore := ih hearlier
    rcases hlast with ⟨time, rfl⟩ | hspares
    · obtain rfl := Option.some.inj (hnow.resolve_left nofun)
      exact hbefore.turn
    · exact hbefore.spared hspares
  | passes _ _ hquiet ih => exact (ih hundisturbed).passes hquiet

/-- Every call that takes a request at a registered node, after every run, if from the call on the clock moves
only when no call can go on, and as long as only turns of the call itself change the nodes, their switches, or
what is in the mailbox. -/
theorem takes_first_deliverable (settings : Settings) (dice : Nat → UInt64) (before after : List Event)
    (start now : Nat) (t : TaskId) (node : PeerId) (box : MailboxId) (b : Mailbox)
    (hget : (reached settings dice before).network.registry.get? node = some box)
    (found : (reached settings dice before).network.mailboxes[box]? = some b)
    (hclock : (reached settings dice before).Timely start (.beginTake start t node :: after) now)
    (hundisturbed : ((reached settings dice before).step (.beginTake start t node)).Undisturbed
      (reached settings dice before).takes.length box after) :
    (reached settings dice before).Takes (reached settings dice before).takes.length t node box b.requests
      (start + Sleep.span b.switches.delayTo.toNat) (.beginTake start t node :: after) now := by
  have hx := lawful_reached settings dice before
  have hopen := hx.listedOpen.opened node box b hget found
  obtain ⟨b', found', rfl⟩ := hx.accounted.slipsUnique.serves hget
  obtain rfl := Option.some.inj (found.symm.trans found')
  have hclock : (reached settings dice before).Timely start ([] ++ .beginTake start t b.id :: after) now :=
    hclock
  exact (takes_of_begins hget found hopen start t).run (hclock.split rfl).2 hundisturbed

section

/-- A request to the node. -/
private def parcelOf (requestor : PeerId) (number : UInt64) : Request where
  requestor
  target := "s"
  callId := number

/-- Requests of one client are dropped, those of another one are held back, and the third client is not
registered. The node itself waits a while before it takes. -/
private def assortment : List Event :=
  [.register 0 "s", .register 0 "c", .register 0 "d", .setSwitches 0 fun s => { s with delayTo := 20 },
    .setSwitches 1 fun s => { s with dropFrom := true, delayFrom := 7 },
    .setSwitches 2 fun s => { s with delayFrom := 30 }, .beginSend 0 0 (parcelOf "c" 1),
    .beginSend 0 1 (parcelOf "c" 2), .beginSend 0 2 (parcelOf "d" 3), .beginSend 0 3 (parcelOf "c" 4),
    .beginSend 0 4 (parcelOf "e" 5)]

/-- While the call sleeps, somebody sends to another node. -/
private def meanwhile : List Event :=
  [.beginSend 10 5 { requestor := "s", target := "d", callId := 1 }, .turnTake 25 0, .turnTake 55 0]

theorem takes_from_assortment :
    (reached {} (fun _ => 0) assortment).network.registry.get? "s" = some 0 ∧
      (reached {} (fun _ => 0) assortment).Timely 5 (.beginTake 5 9 "s" :: meanwhile) 55 ∧
      ((reached {} (fun _ => 0) assortment).step (.beginTake 5 9 "s")).Undisturbed 0 0 meanwhile ∧
      (reached {} (fun _ => 0) (assortment ++ .beginTake 5 9 "s" :: meanwhile)).takes.map (·.state) =
        [.ended (.ok (parcelOf "d" 3))] ∧
      (reached {} (fun _ => 0) assortment).Takes 0 9 "s" 0
        [parcelOf "c" 1, parcelOf "c" 2, parcelOf "d" 3, parcelOf "c" 4, parcelOf "e" 5] 25
        (.beginTake 5 9 "s" :: meanwhile) 55 := by
  have hclock : (reached {} (fun _ => 0) assortment).Timely 5 (.beginTake 5 9 "s" :: meanwhile) 55 :=
    timely_of_keepsTime? (by decide +kernel)
  have hundisturbed : ((reached {} (fun _ => 0) assortment).step (.beginTake 5 9 "s")).Undisturbed 0 0
      meanwhile := by
    refine undisturbed_cons (.inr ⟨⟨rfl, fun k => ?_⟩, rfl, rfl⟩)
      (undisturbed_cons (.inl ⟨_, rfl⟩) (undisturbed_cons (.inl ⟨_, rfl⟩) undisturbed_nil))
    match k with
    | 0 => rfl
    | 1 => rfl
    | 2 => rfl
    | _ + 3 => rfl
  exact ⟨rfl, hclock, hundisturbed, rfl, takes_first_deliverable {} (fun _ => 0) assortment meanwhile 5 55 9
    "s" 0 _ rfl rfl hclock hundisturbed⟩

/-- The node waits a thousand thousand million milliseconds before it takes. -/
private def patience : List Event :=
  [.register 0 "s", .setSwitches 0 fun s => { s with delayTo := 1000000000000 },
    .beginSend 0 0 (parcelOf "c" 1)]

/-- The request in the mailbox of the one node is to be replied to by another one now. -/
private def detour : List Event :=
  [.register 0 "s", .beginSend 0 3 { parcelOf "c" 1 with owner := some 3 }, .divert 3 "d"]

/-- The delay of a node is set to more than thirty years, and is over after thirty years. And the first
request in a mailbox, whose requestor is not registered, is for another node, and is not returned. -/
theorem deliveries_come_early_or_fail :
    ((reached {} (fun _ => 0) patience).network.registry.get? "s" = some 0 ∧
      ((reached {} (fun _ => 0) patience).network.switchesOf "s").delayTo = 1000000000000 ∧
      (reached {} (fun _ => 0) patience).Timely 0
        [.beginTake 0 9 "s", .turnSend 3000 0, .turnTake 946080000000 0] 946080000000 ∧
      ((reached {} (fun _ => 0) patience).step (.beginTake 0 9 "s")).Undisturbed 0 0
        [.turnSend 3000 0, .turnTake 946080000000 0] ∧
      (reached {} (fun _ => 0) patience).Becomes
        [.beginTake 0 9 "s", .turnSend 3000 0, .turnTake 946080000000 0] 946080000000
        (Taken 0 (.ok (parcelOf "c" 1)))) ∧
    ((reached {} (fun _ => 0) detour).network.registry.get? "s" = some 0 ∧
      (reached {} (fun _ => 0) detour).network.mailboxes[0]?.map (·.requests.map (·.replier)) =
        some [⟨"d"⟩] ∧
      (reached {} (fun _ => 0) (detour ++ [.beginTake 0 9 "s"])).takes.map (·.state) =
        [.ended (.error (.invariantViolation "s took request c#1 addressed to d"))]) := by
  refine ⟨⟨rfl, rfl, timely_of_keepsTime? (by decide +kernel), ?_, ?_⟩, rfl, rfl, rfl⟩
  · refine undisturbed_cons (.inr ⟨⟨rfl, fun k => ?_⟩, rfl, rfl⟩)
      (undisturbed_cons (.inl ⟨_, rfl⟩) undisturbed_nil)
    match k with
    | 0 => rfl
    | _ + 1 => rfl
  · refine ⟨[.beginTake 0 9 "s", .turnSend 3000 0], _, [], rfl, rfl, ?_, 9, rfl⟩
    rintro ⟨t, found⟩
    cases found

end

end Traffic

end Replica
