import Replica.Proofs.Network.Closings
import Replica.Proofs.Traffic.Departures
import Replica.Proofs.Traffic.History

/-!
# Closing a mailbox releases everybody

A node that is shut down, registered again or cleared away leaves a mailbox that is closed, and calls
that still refer to it. Each of them can go on as soon as its time has come, and ends with its next
turn; nothing that was queued is ever taken out, and nothing is left in the mailbox
(`closing_releases_everybody`).
-/

namespace Replica

open Network

namespace Traffic

variable {x : Traffic} {event : Event} {node : PeerId} {box : MailboxId}

/-- The event closes the mailbox that the node has. -/
inductive Event.Closes (node : PeerId) : Event → Prop where
  | register (now : Nat) : Closes node (.register now node)
  | shutdown (now : Nat) : Closes node (.shutdown now node)
  | clear (now : Nat) : Closes node (.clear now)

/-- A call that sends has been released: it can go on from `wake` on, until the turn with which it
ends, unless it is cancelled. -/
structure SendReleased (y : Traffic) (after : List Event) (i : Nat) (node : PeerId) (wake : Nat) :
    Prop where
  failed : .cancelSend i ∉ after → (∃ event ∈ after, event.TurnsSend i wake) → y.SendFailed i node
  ready : .cancelSend i ∉ after → (∀ event ∈ after, ¬ event.TurnsSend i wake) →
    ∃ call stage, y.sends[i]? = some call ∧ call.state = .underWay stage ∧
      ∀ now, wake ≤ now → y.network.sendReady now stage = true
  /-- At the end of any instant from `wake` on, the call has ended. -/
  settled : .cancelSend i ∉ after → ∀ now, wake ≤ now → y.IsQuiet now → y.SendFailed i node

/-- A call that takes has been released, likewise. -/
structure TakeReleased (y : Traffic) (after : List Event) (i : Nat) (node : PeerId) (wake : Nat) :
    Prop where
  failed : .cancelTake i ∉ after → (∃ event ∈ after, event.TurnsTake i wake) → y.TakeFailed i node
  ready : .cancelTake i ∉ after → (∀ event ∈ after, ¬ event.TurnsTake i wake) →
    ∃ call stage, y.takes[i]? = some call ∧ call.state = .underWay stage ∧
      ∀ now, wake ≤ now → y.network.takeReady now call.task stage = true
  settled : .cancelTake i ∉ after → ∀ now, wake ≤ now → y.IsQuiet now → y.TakeFailed i node

/-- What has become of the mailbox, and of the calls that referred to it, some events `after` the one
that closed it. -/
structure Released (x : Traffic) (event : Event) (after : List Event) (box : MailboxId)
    (node : PeerId) : Prop where
  /-- The mailbox is closed, nothing is queued in it, and nobody is in its table. -/
  shut : ((x.step event).run after).network.Shut box node
  /-- Whoever waited for a reply, and had not been given one, could go on at once. -/
  waiting : ∀ (i : Nat) (call : SendCall) (r : Request) (slip : SlipId) (deadline : Nat),
    x.sends[i]? = some call → call.state = .underWay (.waiting box r slip deadline) →
    (∀ outcome, ¬ x.network.Written slip outcome) →
    ((x.step event).run after).SendReleased after i node 0
  /-- Whoever was blocked could go on when it was to look again. -/
  blocked : ∀ (i : Nat) (call : SendCall) (r : Request) (wake : Nat),
    x.sends[i]? = some call → call.state = .underWay (.blocked box r wake) →
    ((x.step event).run after).SendReleased after i node wake
  /-- Whoever was blocked enters nothing in any table, and no turn of it changes the network. -/
  unsent : ∀ (i : Nat) (call : SendCall) (r : Request) (wake : Nat),
    x.sends[i]? = some call → call.state = .underWay (.blocked box r wake) →
    ∀ now, (((x.step event).run after).turnSend now i).network =
        ((x.step event).run after).network ∧
      ∀ call', ((x.step event).run after).sends[i]? = some call' → call'.slip? = none
  /-- Whoever waited for a request could go on at once. -/
  looking : ∀ (i : Nat) (call : TakeCall), x.takes[i]? = some call →
    call.state = .underWay (.looking box) → ((x.step event).run after).TakeReleased after i node 0
  /-- Whoever waited out the node's delay could go on at its end. -/
  delayed : ∀ (i : Nat) (call : TakeCall) (wake : Nat), x.takes[i]? = some call →
    call.state = .underWay (.delayed box wake) →
    ((x.step event).run after).TakeReleased after i node wake
  /-- Nobody has taken anything out of the mailbox since. -/
  untouched : pops box ((x.step event).history after) = []

theorem SendLeaves.released {i wake : Nat} {slip? : Option SlipId}
    (h : x.SendLeaves i node wake slip?) (hx : x.Tabled) (ha : x.Accounted) (after : List Event) :
    (x.run after).SendReleased after i node wake where
  failed hcancel := (h.run hx ha after hcancel).1
  ready hcancel hnone := ((h.run hx ha after hcancel).2 hnone).ready
  settled hcancel now hwake hquiet := by
    obtain ⟨hfailed, hleaves⟩ := h.run hx ha after hcancel
    by_cases hturned : ∃ event ∈ after, event.TurnsSend i wake
    · exact hfailed hturned
    · obtain ⟨call, stage, found, hstate, hready⟩ :=
        (hleaves fun event hmem hturns => hturned ⟨event, hmem, hturns⟩).ready
      have hstuck := hquiet.sends i call stage found hstate
      exact absurd (hready now hwake) (Bool.eq_false_iff.mp hstuck)

theorem TakeDeparts.released {i wake : Nat} (h : x.TakeDeparts i node wake) (hx : x.Tabled)
    (ha : x.Accounted) (after : List Event) : (x.run after).TakeReleased after i node wake where
  failed hcancel := (h.run hx ha after hcancel).1
  ready hcancel hnone := ((h.run hx ha after hcancel).2 hnone).ready
  settled hcancel now hwake hquiet := by
    obtain ⟨hfailed, hdeparts⟩ := h.run hx ha after hcancel
    by_cases hturned : ∃ event ∈ after, event.TurnsTake i wake
    · exact hfailed hturned
    · obtain ⟨call, stage, found, hstate, hready⟩ :=
        (hdeparts fun event hmem hturns => hturned ⟨event, hmem, hturns⟩).ready
      have hstuck := hquiet.takes i call stage found hstate
      exact absurd (hready now hwake) (Bool.eq_false_iff.mp hstuck)

theorem Shut.run (h : x.network.Shut box node) (hx : x.Tabled) (ha : x.Accounted)
    (events : List Event) : (x.run events).network.Shut box node := by
  induction events generalizing x with
  | nil => exact h
  | cons event events ih =>
    obtain ⟨own, hages⟩ := hx.step_ages event
    exact ih (hages.shut _ _ h) (hx.step ha event) (ha.step event)

theorem untouched_of_shut (h : x.network.Shut box node) (events : List Event) :
    pops box (x.history events) = [] := by
  obtain ⟨b, found, -, hshut⟩ := h
  refine pops_eq_nil ⟨b, found, hshut.closed⟩ ?_ events
  rw [contents_of_found found, hshut.requests, List.map_nil]

/-! ## The event that closes the mailbox -/

namespace Event.Closes

variable {i : Nat} {send : SendCall} {take : TakeCall} {r : Request} {wake : Nat}

theorem closes (h : event.Closes node) (ha : x.Accounted)
    (hget : x.network.registry.get? node = some box) :
    Network.Closes box node x.network (x.step event).network := by
  cases h with
  | register now => exact register_closes now ha.slipsUnique hget
  | shutdown now => exact shutdown_closes now ha.slipsUnique hget
  | clear now => exact clear_closes now ha.slipsUnique hget

/-- The event gives nobody a turn. -/
theorem sends (h : event.Closes node) (found : x.sends[i]? = some send) :
    (x.step event).sends[i]? = some send := by
  cases h <;> exact found

theorem takes (h : event.Closes node) (found : x.takes[i]? = some take) :
    (x.step event).takes[i]? = some take := by
  cases h <;> exact found

/-- Whoever waits for a reply, and has not been given one, finds its slip void. -/
theorem waiting_leaves (h : event.Closes node) (hx : x.Tabled) (ha : x.Accounted)
    (hget : x.network.registry.get? node = some box) {slip : SlipId} {deadline : Nat}
    (found : x.sends[i]? = some send)
    (hstate : send.state = .underWay (.waiting box r slip deadline))
    (hunwritten : ∀ outcome, ¬ x.network.Written slip outcome) :
    (x.step event).SendLeaves i node 0 send.slip? := by
  obtain ⟨hshut, hvoid⟩ := h.closes ha hget
  obtain ⟨own, hages⟩ := hx.step_ages event
  obtain ⟨s, hs, hne, hwaits⟩ := hx.expects i send box r slip deadline found hstate
  -- a slip that is blank is in the table, and becomes void with the others in it
  have hfinds : (x.step event).network.slips[slip]? = some .void := by
    cases s with
    | blank => exact hvoid _ _ (hwaits rfl) hs
    | filled outcome => exact absurd hs (hunwritten outcome)
    | void => exact hages.settled _ _ hs nofun
    | abandoned => exact absurd rfl hne
  exact ⟨send, _, h.sends found, rfl, hstate, .waiting hshut hfinds⟩

/-- Whoever is blocked has no slip, and finds the mailbox closed. -/
theorem blocked_leaves (h : event.Closes node) (ha : x.Accounted)
    (hget : x.network.registry.get? node = some box) (found : x.sends[i]? = some send)
    (hstate : send.state = .underWay (.blocked box r wake)) :
    (x.step event).SendLeaves i node wake none := by
  obtain ⟨hnone, -⟩ := (ha.senders i send found).blocked _ _ _ hstate
  exact ⟨send, _, h.sends found, hnone, hstate, .blocked (h.closes ha hget).shut⟩

theorem looking_departs (h : event.Closes node) (ha : x.Accounted)
    (hget : x.network.registry.get? node = some box) (found : x.takes[i]? = some take)
    (hstate : take.state = .underWay (.looking box)) : (x.step event).TakeDeparts i node 0 :=
  ⟨take, _, h.takes found, hstate, .looking (h.closes ha hget).shut⟩

theorem delayed_departs (h : event.Closes node) (ha : x.Accounted)
    (hget : x.network.registry.get? node = some box) (found : x.takes[i]? = some take)
    (hstate : take.state = .underWay (.delayed box wake)) : (x.step event).TakeDeparts i node wake :=
  ⟨take, _, h.takes found, hstate, .delayed (h.closes ha hget).shut⟩

/-- Everybody who referred to the mailbox is released. -/
theorem released (h : event.Closes node) (hx : x.Tabled) (ha : x.Accounted)
    (hget : x.network.registry.get? node = some box) (after : List Event) :
    Released x event after box node where
  shut := Shut.run (h.closes ha hget).shut (hx.step ha event) (ha.step event) after
  waiting _ _ _ _ _ found hstate hunwritten :=
    (h.waiting_leaves hx ha hget found hstate hunwritten).released (hx.step ha event)
      (ha.step event) after
  blocked _ _ _ _ found hstate :=
    (h.blocked_leaves ha hget found hstate).released (hx.step ha event) (ha.step event) after
  unsent i _ _ wake found hstate now := by
    have hunsent : (x.step event).Unsent i node wake := .inl (h.blocked_leaves ha hget found hstate)
    exact (hunsent.run (hx.step ha event) (ha.step event) after).turn now
  looking _ _ found hstate :=
    (h.looking_departs ha hget found hstate).released (hx.step ha event) (ha.step event) after
  delayed _ _ _ found hstate :=
    (h.delayed_departs ha hget found hstate).released (hx.step ha event) (ha.step event) after
  untouched := untouched_of_shut (h.closes ha hget).shut after

end Event.Closes

/-- In every run on a new network, with any settings and any numbers from the random source: when a
node is shut down, registered again or cleared away, its mailbox is closed for good, with nothing in
it, and everybody who referred to it is released; and whatever takers take out of a mailbox, before
or after, was put into that mailbox, in that order. -/
theorem closing_releases_everybody (settings : Settings) (dice : Nat → UInt64)
    (before : List Event) (event : Event) (after : List Event) (node : PeerId) (box : MailboxId)
    (hget : (reached settings dice before).network.registry.get? node = some box)
    (hcloses : event.Closes node) :
    Released (reached settings dice before) event after box node ∧
      ∀ k, let history := history { network := { settings, dice } } (before ++ event :: after)
        (pops k history).Sublist (pushes k history) :=
  ⟨hcloses.released (Tabled.reached settings dice before) (Accounted.reached settings dice before)
    hget after, pops_sublist_pushes settings dice _⟩

section

/-- A request of a client to the node. -/
private def order (number : UInt64) : Request where
  requestor := "c"
  target := "s"
  callId := number

/-- A taker waits for a request, another one for the end of its node's delay. One request has been
queued, and the sender of the next one is blocked. -/
private def crowd : List Event :=
  [.register 0 "s", .beginTake 0 0 "s", .setSwitches 0 fun s => { s with delayTo := 5 },
    .beginTake 0 1 "s", .beginSend 0 2 (order 1), .setSwitches 0 fun s => { s with blockTo := true },
    .beginSend 0 3 (order 2)]

/-- Everybody gets a turn when its time has come, and a taker comes to the new mailbox. -/
private def aftermath : List Event :=
  [.beginTake 1 4 "s", .turnSend 1 0, .turnTake 1 0, .turnTake 5 1, .turnSend 10 1]

theorem closing_releases_crowd :
    (reached {} (fun _ => 0) crowd).network.registry.get? "s" = some 0 ∧
      (reached {} (fun _ => 0) (crowd ++ .register 1 "s" :: aftermath)).sends.map (·.state) =
        [.ended (.failed (.error (.nodeNotFound "s"))),
          .ended (.failed (.error (.nodeNotFound "s")))] ∧
      (reached {} (fun _ => 0) (crowd ++ .register 1 "s" :: aftermath)).takes.map (·.state) =
        [.ended (.error (.shutdown "s")), .ended (.error (.shutdown "s")),
          .underWay (.looking 1)] ∧
      Released (reached {} (fun _ => 0) crowd) (.register 1 "s") aftermath 0 "s" :=
  ⟨by decide +kernel, by rfl, by rfl,
    (closing_releases_everybody {} (fun _ => 0) crowd (.register 1 "s") aftermath "s" 0
      (by decide +kernel) (.register 1)).1⟩

end

end Traffic

end Replica
