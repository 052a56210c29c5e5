import Replica.Proofs.Traffic.History
import Replica.Proofs.Traffic.Keys
import Replica.Proofs.Traffic.Outcomes

/-!
# Calls and their deadlines

A call that has been entered ends in one of three ways: a reply reaches it, its mailbox is closed, or its
reply is overdue. Whichever comes first decides. Once a reply has reached the call, or its mailbox has
been closed, nobody but the call itself changes what it will find, and it can go on; so the clock stands
still until it has had its turn, with which it ends. Otherwise it can go on at its deadline, and the clock
stands still then.

How far the call has come is its `Phase`. Every event leads to the same phase or to a later one
(`Phase.happens`), and the clock moves on only while the call has nothing to do (`Phase.passes`). What the
phase says of the whole run is that the call ends in time (`InTime`).
-/

namespace Replica

open Network

namespace Traffic

variable {x y : Traffic} {i : Nat} {call : SendCall} {box : MailboxId} {b : Mailbox} {r : Request}
variable {event : Event} {events done : List Event} {time now later : Nat} {outcome : Outcome}
variable {result result' : SendEnd}

/-! ## How a call stands -/

/-- What is known of a call that has been entered: its place among the calls that send, the mailbox and
its node, the key and the slip, the time at which it was entered, and how long it waits. -/
structure Ticket where
  call : Nat
  box : MailboxId
  node : PeerId
  key : RequestKey
  slip : SlipId
  start : Nat
  timeout : UInt64

namespace Ticket

/-- When the reply is overdue. -/
def due (k : Ticket) : Nat := k.start + k.timeout.toNat

/-- How a call ends whose node is not there. -/
def missing (k : Ticket) : SendEnd := .failed (.error (.nodeNotFound k.node))

/-- How a call ends whose reply is overdue. -/
def overdue (k : Ticket) : SendEnd :=
  .failed (.error (.timeout ("request " ++ k.key.display ++ " to " ++ k.node.name) k.timeout))

end Ticket

variable {k : Ticket}

/-- The call has ended with the result. -/
def Ended (i : Nat) (result : SendEnd) (x : Traffic) : Prop :=
  ∃ call, x.sends[i]? = some call ∧ call.state = .ended result

theorem ended_stable (i : Nat) (result : SendEnd) : Stable (Ended i result) := by
  rintro x event ⟨call, found, hstate⟩
  obtain ⟨call', found', -, hsame⟩ := sends_step_of_idle found (by rw [hstate]; rfl) event
  exact ⟨call', found', hsame.trans hstate⟩

theorem Ended.unique (h : Ended i result x) (h' : Ended i result' x) : result = result' := by
  obtain ⟨call, found, hstate⟩ := h
  obtain ⟨call', found', hstate'⟩ := h'
  obtain rfl := Option.some.inj (found.symm.trans found')
  cases hstate.symm.trans hstate'
  rfl

/-- The mailbox is closed. -/
def Closed (box : MailboxId) (x : Traffic) : Prop := x.network.IsClosed box

theorem closed_stable (box : MailboxId) : Stable (Closed box) := fun x event h =>
  ((step_moves x event).closed box h).2

/-- The call waits for its reply. -/
def Waits (x : Traffic) (k : Ticket) : Prop :=
  ∃ call r, x.sends[k.call]? = some call ∧ r.key = k.key ∧
    call.state = .underWay (.waiting k.box r k.slip k.due)

/-- The call waits, and nothing has been done to its slip. -/
def IsPending (x : Traffic) (k : Ticket) : Prop := x.network.Pending k.box k.node k.key k.slip

namespace Waits

theorem not_ended (h : x.Waits k) : ¬ Ended k.call result x := by
  rintro ⟨call', found', hstate'⟩
  obtain ⟨call, r, found, -, hstate⟩ := h
  obtain rfl := Option.some.inj (found.symm.trans found')
  cases hstate.symm.trans hstate'

theorem owns (h : x.Waits k) (ha : x.Accounted) : ∃ call, x.Owns k.call k.slip call := by
  obtain ⟨call, r, found, -, hstate⟩ := h
  exact ⟨call, found, (ha.senders _ call found).waiting _ _ _ _ hstate⟩

/-- A call that waits in a table has nothing on its slip. -/
theorem isPending (h : x.Waits k) (hx : x.Lawful) (hserves : x.network.Serves k.box k.node)
    (hawaits : x.network.Awaits k.box k.key k.slip) : x.IsPending k := by
  obtain ⟨call, r, found, -, hstate⟩ := h
  obtain ⟨s, hs, hne, -⟩ := hx.tabled.expects _ _ _ _ _ _ found hstate
  refine ⟨hserves, hawaits, hs.trans (congrArg some ?_)⟩
  cases s with
  | blank => rfl
  | filled outcome => exact absurd hs (hx.accounted.slipsUnique.unwritten _ _ _ _ hawaits)
  | void => exact absurd hs (hx.listedOpen.void _ _ _ hawaits)
  | abandoned => exact absurd rfl hne

/-- Whatever others do, the call stands where it stood. -/
theorem step (h : x.Waits k) (hother : ¬ event.IsOf k.call) :
    (x.step event).Waits k := by
  obtain ⟨call, r, found, hkey, hstate⟩ := h
  obtain ⟨call', found', -, hrerouted⟩ := sends_step found hother
  rw [hstate] at hrerouted
  obtain ⟨stage, hstate', r', hkey', rfl⟩ := hrerouted.underWay
    (P := fun stage => ∃ r', r'.key = k.key ∧ stage = .waiting k.box r' k.slip k.due)
    ⟨r, hkey, rfl⟩ fun owner other => ⟨_, (Request.key_divert owner other r).trans hkey, rfl⟩
  exact ⟨call', r', found', hkey', hstate'⟩

/-- A turn of the call is a look at its slip. -/
theorem turn (h : x.Waits k) (now : Nat) : ∃ call r, x.sends[k.call]? = some call ∧
    r.key = k.key ∧ x.turnSend now k.call = { x with
      network := (x.network.checkSlip now k.box r k.slip k.due).1
      sends := x.sends.modify k.call (·.after x.network
        ((Sending.waiting k.box r k.slip k.due).read? x.network)
        (x.network.checkSlip now k.box r k.slip k.due)) } := by
  obtain ⟨call, r, found, hkey, hstate⟩ := h
  exact ⟨call, r, found, hkey, turnSend_eq found hstate now⟩

/-- A turn that comes early changes nothing. -/
theorem turn_early (h : x.Waits k) (hpending : x.IsPending k) (hearly : now < k.due) :
    (x.turnSend now k.call).network = x.network ∧ (x.turnSend now k.call).Waits k := by
  obtain ⟨call, r, found, hkey, hturn⟩ := h.turn now
  rw [IsPending, ← hkey] at hpending
  rw [hturn, checkSlip_of_pending now k.due hpending, if_neg (Nat.not_le.mpr hearly)]
  exact ⟨rfl, _, r, getElem?_modify_eq_some_iff.mpr ⟨call, found, if_pos rfl⟩, hkey, rfl⟩

/-- With its turn at the deadline or later the call ends, and leaves the table. -/
theorem turn_late (h : x.Waits k) (hx : x.Lawful) (hpending : x.IsPending k)
    (htimeout : k.timeout = x.network.settings.replyTimeout) (hlate : k.due ≤ now) :
    Ended k.call k.overdue (x.turnSend now k.call) ∧
      (x.turnSend now k.call).Missed k.slip := by
  obtain ⟨call, r, found, hkey, hturn⟩ := h.turn now
  have hmissed := hpending
  rw [IsPending, ← hkey] at hpending
  have hcheck := checkSlip_of_pending now k.due hpending
  rw [if_pos hlate] at hcheck
  have hread : (Sending.waiting k.box r k.slip k.due).read? x.network = none :=
    Sending.read?_eq_none fun outcome hw => nomatch hpending.blank.symm.trans hw
  have hexpects : x.network.Expects k.box r.key k.slip :=
    ⟨.blank, hpending.blank, nofun, fun _ => hpending.awaits⟩
  have hgone := checkSlip_ended hx.listedOpen hx.accounted.slipsUnique hexpects (congrArg (·.2) hcheck)
  rw [hturn]
  refine ⟨⟨_, getElem?_modify_eq_some_iff.mpr ⟨call, found, if_pos rfl⟩, ?_⟩, ⟨?_, hgone, ?_⟩⟩
  · rw [hread, hcheck, Ticket.overdue, ← hkey, htimeout]
    rfl
  · rw [hcheck]
    exact lt_length_of_getElem? hpending.blank
  · exact fun j reply hreach => hx.accounted.struck j k.slip reply hreach _ _ hpending.awaits

/-- With its next turn the call receives the outcome on its slip. -/
theorem turn_written (h : x.Waits k) (hw : x.network.Written k.slip outcome) (now : Nat) :
    Ended k.call (.received outcome) (x.turnSend now k.call) := by
  obtain ⟨call, r, found, hkey, hturn⟩ := h.turn now
  have hslip : x.network.slips[k.slip]? = some (.filled outcome) := hw
  rw [hturn, Sending.read?_eq_some hw]
  refine ⟨_, getElem?_modify_eq_some_iff.mpr ⟨call, found, if_pos rfl⟩, ?_⟩
  simp only [SendCall.after, checkSlip, hslip]
  rfl

/-- When no call can go on at the time, nothing has been done to the slip, and the reply is not
overdue. -/
theorem of_quiet (h : x.Waits k) (hquiet : x.IsQuiet now) :
    x.network.slips[k.slip]? = some .blank ∧ now < k.due := by
  obtain ⟨call, r, found, -, hstate⟩ := h
  have hstuck := hquiet.sends _ call _ found hstate
  simp only [sendReady, Bool.or_eq_false_iff, decide_eq_false_iff_not, not_not] at hstuck
  exact ⟨hstuck.1, Nat.lt_of_not_le hstuck.2⟩

/-- A call whose mailbox has been closed is released. -/
theorem leaves (h : x.Waits k) (ha : x.Accounted) (hshut : x.network.Shut k.box k.node)
    (hvoid : x.network.slips[k.slip]? = some .void) :
    x.SendLeaves k.call k.node 0 (some k.slip) := by
  obtain ⟨call, r, found, -, hstate⟩ := h
  exact ⟨call, _, found, (ha.senders _ call found).waiting _ _ _ _ hstate, hstate, .waiting hshut hvoid⟩

end Waits

theorem SendLeaves.not_ended {node : PeerId} {wake : Nat} {slip? : Option SlipId}
    (h : x.SendLeaves i node wake slip?) : ¬ Ended i result x := by
  rintro ⟨call', found', hstate'⟩
  obtain ⟨call, stage, found, -, hstate, -⟩ := h
  obtain rfl := Option.some.inj (found.symm.trans found')
  cases hstate.symm.trans hstate'

/-- A caller is reached by one reply only. -/
theorem Answered.unique {outcome' : Outcome} {slip : SlipId} (ha : x.Accounted)
    (h : Answered slip outcome x) (h' : Answered slip outcome' x) : outcome = outcome' := by
  obtain ⟨j, reply, hreach, rfl⟩ := h
  obtain ⟨j', reply', hreach', rfl⟩ := h'
  obtain rfl := ha.once _ _ _ _ _ hreach hreach'
  rw [Option.some.inj (hreach.1.symm.trans hreach'.1)]

/-! ## How a call comes to its end -/

/-- How far a call has come that was entered: what was `done` has led from `y` to `x`, and has taken
until `now`. -/
inductive Phase (y : Traffic) (k : Ticket) (done : List Event) (x : Traffic) (now : Nat) : Prop where
  /-- It waits, and nothing has been done to its slip. -/
  | pending (hwaits : x.Waits k) (hpending : x.IsPending k) (hdue : now ≤ k.due)
  /-- A reply has reached it just now. -/
  | answered (outcome : Outcome) (hwaits : x.Waits k) (hwritten : x.network.Written k.slip outcome)
    (hdue : now ≤ k.due) (hanswered : y.Becomes done now (Answered k.slip outcome))
  /-- Its mailbox has been closed just now. -/
  | released (hleaves : x.SendLeaves k.call k.node 0 (some k.slip)) (hmissed : x.Missed k.slip)
    (hdue : now ≤ k.due) (hclosed : y.Becomes done now (Closed k.box))
  /-- It has received the outcome. -/
  | received (outcome : Outcome) (time : Nat) (hstart : k.start ≤ time) (hdue : time ≤ k.due)
    (hanswered : y.Becomes done time (Answered k.slip outcome))
    (hended : y.Becomes done time (Ended k.call (.received outcome)))
  /-- It has found its mailbox closed. -/
  | missing (time : Nat) (hstart : k.start ≤ time) (hdue : time ≤ k.due) (hmissed : x.Missed k.slip)
    (hclosed : y.Becomes done time (Closed k.box))
    (hended : y.Becomes done time (Ended k.call k.missing))
  /-- Its reply was overdue. -/
  | overdue (hdue : k.due ≤ now) (hmissed : x.Missed k.slip)
    (hopen : ∀ time < k.due, ¬ y.Becomes done time (Closed k.box))
    (hended : y.Becomes done k.due (Ended k.call k.overdue))

theorem Event.turnSend_of_isOf (hof : event.IsOf i) (hcancel : event ≠ .cancelSend i)
    (hnow : event.time? = none ∨ event.time? = some now) : event = .turnSend now i := by
  obtain ⟨time, rfl⟩ := hof.resolve_right hcancel
  rcases hnow with hnone | hsome
  · cases hnone
  · cases hsome
    rfl

namespace Phase

/-- A call that waits, with nothing done to its slip, gets a turn. -/
theorem turn_isPending (hx : (y.run done).Lawful)
    (htimeout : k.timeout = (y.run done).network.settings.replyTimeout) (hwaits : (y.run done).Waits k)
    (hpending : (y.run done).IsPending k) (hdue : now ≤ k.due) :
    Phase y k (done ++ [.turnSend now k.call]) ((y.run done).turnSend now k.call) now := by
  rcases Nat.lt_or_ge now k.due with hearly | hlate
  · obtain ⟨hsame, hwaits'⟩ := hwaits.turn_early hpending hearly
    exact .pending hwaits' (by rw [IsPending, hsame]; exact hpending) hdue
  · obtain ⟨hended, hmissed⟩ := hwaits.turn_late hx hpending htimeout hlate
    obtain rfl := Nat.le_antisymm hdue hlate
    refine .overdue (Nat.le_refl _) hmissed (fun time htime hclosed => ?_)
      (becomes_concat_iff.mpr (.inr ⟨rfl, hwaits.not_ended, hended⟩))
    have hopen : ¬ Closed k.box (y.run done) := hx.closings.not_isClosed hpending.awaits
    rcases becomes_concat_iff.mp hclosed with hclosed | ⟨hsome, -⟩
    · exact not_becomes hopen (closed_stable _) time hclosed
    · cases hsome
      exact Nat.lt_irrefl _ htime

/-- Such a call gets no turn, and something else happens. -/
theorem step_isPending (hx : (y.run done).Lawful) (hwaits : (y.run done).Waits k)
    (hpending : (y.run done).IsPending k) (hdue : now ≤ k.due)
    (hnow : event.time? = none ∨ event.time? = some now) (hother : ¬ event.IsOf k.call) :
    Phase y k (done ++ [event]) ((y.run done).step event) now := by
  have hwaits' := hwaits.step hother
  obtain ⟨call, howns⟩ := hwaits.owns hx.accounted
  rcases hx.pending_step hpending howns hother with hpending' | ⟨time, htime, hdone⟩
  · exact .pending hwaits' hpending' hdue
  obtain rfl : time = now := by
    rcases hnow with hnone | hsome
    · cases hnone.symm.trans htime
    · exact Option.some.inj (htime.symm.trans hsome)
  rcases hdone with ⟨hshut, hvoid⟩ | ⟨outcome, hwritten⟩
  · have hopen : ¬ Closed k.box (y.run done) := hx.closings.not_isClosed hpending.awaits
    exact .released (hwaits'.leaves (hx.step event).accounted hshut hvoid)
      (hx.missed_of_void hpending hvoid) hdue
      (becomes_concat_iff.mpr (.inr ⟨htime, hopen, hshut.isClosed⟩))
  · obtain ⟨j, reply, hreach, houtcome⟩ := (hx.step event).accounted.written _ _ hwritten
    refine .answered outcome hwaits' hwritten hdue
      (becomes_concat_iff.mpr (.inr ⟨htime, ?_, j, reply, hreach, houtcome⟩))
    rintro ⟨j', reply', hreach', -⟩
    exact hx.accounted.struck j' _ reply' hreach' _ _ hpending.awaits

/-- What happens at the time brings the call further. -/
theorem happens (h : Phase y k done (y.run done) now) (hx : (y.run done).Lawful)
    (htimeout : k.timeout = (y.run done).network.settings.replyTimeout) (hstart : k.start ≤ now)
    (hnow : event.time? = none ∨ event.time? = some now) (hcancel : event ≠ .cancelSend k.call) :
    Phase y k (done ++ [event]) ((y.run done).step event) now := by
  cases h with
  | pending hwaits hpending hdue =>
    by_cases hof : event.IsOf k.call
    · obtain rfl := Event.turnSend_of_isOf hof hcancel hnow
      exact turn_isPending hx htimeout hwaits hpending hdue
    · exact step_isPending hx hwaits hpending hdue hnow hof
  | answered outcome hwaits hwritten hdue hanswered =>
    by_cases hof : event.IsOf k.call
    · obtain rfl := Event.turnSend_of_isOf hof hcancel hnow
      refine .received outcome now hstart hdue (hanswered.concat _)
        (becomes_concat_iff.mpr (.inr ⟨rfl, hwaits.not_ended, hwaits.turn_written hwritten now⟩))
    · obtain ⟨own, honward, -⟩ := step_onward hx.accounted hx.tabled event
      exact .answered outcome (hwaits.step hof) (honward.ages.settled _ _ hwritten nofun) hdue
        (hanswered.concat event)
  | released hleaves hmissed hdue hclosed =>
    have hmissed' := hmissed.step hx.accounted event
    by_cases hof : event.IsOf k.call
    · obtain rfl := Event.turnSend_of_isOf hof hcancel hnow
      obtain ⟨-, hfailed, -⟩ := hleaves.turn (Nat.zero_le now)
      exact .missing now hstart hdue hmissed' (hclosed.concat _)
        (becomes_concat_iff.mpr (.inr ⟨rfl, hleaves.not_ended, hfailed⟩))
    · refine .released (hleaves.step hx.tabled ?_ hcancel) hmissed' hdue (hclosed.concat event)
      rintro ⟨time, -, rfl⟩
      exact hof (.inl ⟨time, rfl⟩)
  | received outcome time hstart hdue hanswered hended =>
    exact .received outcome time hstart hdue (hanswered.concat event) (hended.concat event)
  | missing time hstart hdue hmissed hclosed hended =>
    exact .missing time hstart hdue (hmissed.step hx.accounted event) (hclosed.concat event)
      (hended.concat event)
  | overdue hdue hmissed hopen hended =>
    refine .overdue hdue (hmissed.step hx.accounted event) (fun time htime hclosed => ?_)
      (hended.concat event)
    rcases becomes_concat_iff.mp hclosed with hclosed | ⟨hsome, -⟩
    · exact hopen time htime hclosed
    · rcases hnow with hnone | hnow
      · cases hnone.symm.trans hsome
      · obtain rfl := Option.some.inj (hsome.symm.trans hnow)
        exact absurd htime (Nat.not_lt.mpr hdue)

/-- As long as the call has something to do, the clock stands still. -/
theorem passes {x : Traffic} (h : Phase y k done x now) (hlater : now ≤ later)
    (hquiet : ∀ instant, now ≤ instant → instant < later → x.IsQuiet instant) :
    Phase y k done x later := by
  cases h with
  | pending hwaits hpending hdue =>
    refine .pending hwaits hpending (Nat.le_of_not_lt fun hlt => ?_)
    exact Nat.lt_irrefl _ (hwaits.of_quiet (hquiet _ hdue hlt)).2
  | answered outcome hwaits hwritten hdue hanswered =>
    rcases Nat.eq_or_lt_of_le hlater with rfl | hlt
    · exact .answered outcome hwaits hwritten hdue hanswered
    · have hblank := (hwaits.of_quiet (hquiet now (Nat.le_refl _) hlt)).1
      cases hblank.symm.trans hwritten
  | released hleaves hmissed hdue hclosed =>
    rcases Nat.eq_or_lt_of_le hlater with rfl | hlt
    · exact .released hleaves hmissed hdue hclosed
    · obtain ⟨call, stage, found, hstate, hready⟩ := hleaves.ready
      have hstuck := (hquiet now (Nat.le_refl _) hlt).sends _ call stage found hstate
      cases hstuck.symm.trans (hready now (Nat.zero_le _))
  | received outcome time hstart hdue hanswered hended =>
    exact .received outcome time hstart hdue hanswered hended
  | missing time hstart hdue hmissed hclosed hended =>
    exact .missing time hstart hdue hmissed hclosed hended
  | overdue hdue hmissed hopen hended => exact .overdue (hdue.trans hlater) hmissed hopen hended

/-- The call comes further with every run under the clock. -/
theorem run {after : List Event} (h : Phase y k [event] (y.step event) k.start)
    (hy : y.Lawful) (htimeout : k.timeout = y.network.settings.replyTimeout)
    (htimely : (y.step event).Timely k.start after now) (hcancel : .cancelSend k.call ∉ after) :
    Phase y k (event :: after) (y.run (event :: after)) now := by
  induction htimely with
  | start => exact h
  | @happens done now last htimely hnow ih =>
    have hfirst := ih fun hmem => hcancel (List.mem_append_left _ hmem)
    have hlast : last ≠ .cancelSend k.call := by
      rintro rfl
      exact hcancel (List.mem_append_right _ (List.mem_singleton.mpr rfl))
    rw [← List.cons_append, run_concat]
    exact hfirst.happens (hy.run _) (htimeout.trans (by rw [hy.settings])) htimely.le hnow hlast
  | passes _ hlater hquiet ih => exact (ih hcancel).passes hlater hquiet

end Phase

/-! ## Outcomes and times -/

/-- A call that was entered has come to its end in time, or still can, when the events have taken until
now. -/
structure InTime (y : Traffic) (k : Ticket) (events : List Event) (now : Nat) : Prop where
  /-- It ends at the instant at which a reply reaches it, or at which its mailbox is closed, or at its
  deadline, and none of these is later than its deadline. -/
  ends : ∀ time result, y.Becomes events time (Ended k.call result) →
    k.start ≤ time ∧ time ≤ k.due ∧
      ((∃ outcome, result = .received outcome ∧ y.Becomes events time (Answered k.slip outcome)) ∨
        (result = k.missing ∧ y.Becomes events time (Closed k.box)) ∨
        (result = k.overdue ∧ time = k.due))
  /-- When a reply has reached it, and the instant is over, it has ended at that instant, with the
  outcome. -/
  replied : ∀ time outcome, y.Becomes events time (Answered k.slip outcome) → time < now →
    y.Becomes events time (Ended k.call (.received outcome))
  /-- When its mailbox has been closed before its deadline, no reply has reached it, and the instant is
  over, it has ended at that instant, since its node is not there. -/
  closed : ∀ time, y.Becomes events time (Closed k.box) → time < k.due →
    (∀ outcome, ¬ Answered k.slip outcome (y.run events)) → time < now →
    y.Becomes events time (Ended k.call k.missing)
  /-- When neither has happened by its deadline, and that instant is over, it has ended then, since the
  reply is overdue. -/
  overdue : (∀ time ≤ k.due, ¬ y.Becomes events time (Closed k.box)) →
    (∀ time ≤ k.due, ∀ outcome, ¬ y.Becomes events time (Answered k.slip outcome)) → k.due < now →
    y.Becomes events k.due (Ended k.call k.overdue)
  /-- When the clock has passed its deadline, it has ended. -/
  due : k.due < now → ∃ time result, y.Becomes events time (Ended k.call result)
  /-- Whenever it can go on, the turn that it gets then is its last one. -/
  ready : ∀ time call stage, (y.run events).sends[k.call]? = some call →
    call.state = .underWay stage → (y.run events).network.sendReady time stage = true →
    ∃ result, Ended k.call result ((y.run events).turnSend time k.call)
  /-- When it has ended, it is in no table. -/
  cleared : ∀ result, Ended k.call result (y.run events) →
    ∀ box key, ¬ (y.run events).network.Awaits box key k.slip

namespace Phase

theorem ends (h : Phase y k events (y.run events) now)
    (hended : y.Becomes events time (Ended k.call result)) : k.start ≤ time ∧ time ≤ k.due ∧
      ((∃ outcome, result = .received outcome ∧ y.Becomes events time (Answered k.slip outcome)) ∨
        (result = k.missing ∧ y.Becomes events time (Closed k.box)) ∨
        (result = k.overdue ∧ time = k.due)) := by
  have hholds := hended.holds (ended_stable _ _)
  cases h with
  | pending hwaits => exact absurd hholds hwaits.not_ended
  | answered _ hwaits => exact absurd hholds hwaits.not_ended
  | released hleaves => exact absurd hholds hleaves.not_ended
  | received outcome time' hstart hdue hanswered hended' =>
    obtain rfl := hholds.unique (hended'.holds (ended_stable _ _))
    obtain rfl := hended.unique hended' (ended_stable _ _)
    exact ⟨hstart, hdue, .inl ⟨outcome, rfl, hanswered⟩⟩
  | missing time' hstart hdue hmissed hclosed hended' =>
    obtain rfl := hholds.unique (hended'.holds (ended_stable _ _))
    obtain rfl := hended.unique hended' (ended_stable _ _)
    exact ⟨hstart, hdue, .inr (.inl ⟨rfl, hclosed⟩)⟩
  | overdue hdue hmissed hopen hended' =>
    obtain rfl := hholds.unique (hended'.holds (ended_stable _ _))
    obtain rfl := hended.unique hended' (ended_stable _ _)
    exact ⟨Nat.le_add_right _ _, Nat.le_refl _, .inr (.inr ⟨rfl, rfl⟩)⟩

theorem replied (h : Phase y k events (y.run events) now) (hx : (y.run events).Lawful)
    (hanswered : y.Becomes events time (Answered k.slip outcome)) (hlater : time < now) :
    y.Becomes events time (Ended k.call (.received outcome)) := by
  have hholds := hanswered.holds (answered_stable _ _)
  have hmissed (hmissed : (y.run events).Missed k.slip) : False := by
    obtain ⟨j, reply, hreach, -⟩ := hholds
    exact hmissed.unreached j reply hreach
  cases h with
  | pending hwaits hpending =>
    obtain ⟨j, reply, hreach, -⟩ := hholds
    exact absurd hpending.awaits (hx.accounted.struck j _ reply hreach _ _)
  | answered outcome' _ _ _ hanswered' =>
    obtain rfl := hholds.unique hx.accounted (hanswered'.holds (answered_stable _ _))
    obtain rfl := hanswered.unique hanswered' (answered_stable _ _)
    exact absurd hlater (Nat.lt_irrefl _)
  | released _ h => exact absurd h hmissed
  | received outcome' time' _ _ hanswered' hended =>
    obtain rfl := hholds.unique hx.accounted (hanswered'.holds (answered_stable _ _))
    obtain rfl := hanswered.unique hanswered' (answered_stable _ _)
    exact hended
  | missing _ _ _ h => exact absurd h hmissed
  | overdue _ h => exact absurd h hmissed

theorem closed (h : Phase y k events (y.run events) now) (hx : (y.run events).Lawful)
    (hclosed : y.Becomes events time (Closed k.box)) (hdue : time < k.due)
    (hnone : ∀ outcome, ¬ Answered k.slip outcome (y.run events)) (hlater : time < now) :
    y.Becomes events time (Ended k.call k.missing) := by
  cases h with
  | pending hwaits hpending =>
    exact absurd (hclosed.holds (closed_stable _)) (hx.closings.not_isClosed hpending.awaits)
  | answered outcome _ _ _ hanswered =>
    exact absurd (hanswered.holds (answered_stable _ _)) (hnone outcome)
  | released _ _ _ hclosed' =>
    obtain rfl := hclosed.unique hclosed' (closed_stable _)
    exact absurd hlater (Nat.lt_irrefl _)
  | received outcome _ _ _ hanswered =>
    exact absurd (hanswered.holds (answered_stable _ _)) (hnone outcome)
  | missing time' _ _ _ hclosed' hended =>
    obtain rfl := hclosed.unique hclosed' (closed_stable _)
    exact hended
  | overdue _ _ hopen => exact absurd hclosed (hopen time hdue)

theorem late (h : Phase y k events (y.run events) now)
    (hclosed : ∀ time ≤ k.due, ¬ y.Becomes events time (Closed k.box))
    (hanswered : ∀ time ≤ k.due, ∀ outcome, ¬ y.Becomes events time (Answered k.slip outcome))
    (hlater : k.due < now) : y.Becomes events k.due (Ended k.call k.overdue) := by
  cases h with
  | pending _ _ hdue => exact absurd hlater (Nat.not_lt.mpr hdue)
  | answered _ _ _ hdue => exact absurd hlater (Nat.not_lt.mpr hdue)
  | released _ _ hdue => exact absurd hlater (Nat.not_lt.mpr hdue)
  | received outcome time _ hdue h => exact absurd h (hanswered time hdue outcome)
  | missing time _ hdue _ h => exact absurd h (hclosed time hdue)
  | overdue _ _ _ hended => exact hended

theorem due (h : Phase y k events (y.run events) now) (hlater : k.due < now) :
    ∃ time result, y.Becomes events time (Ended k.call result) := by
  cases h with
  | pending _ _ hdue => exact absurd hlater (Nat.not_lt.mpr hdue)
  | answered _ _ _ hdue => exact absurd hlater (Nat.not_lt.mpr hdue)
  | released _ _ hdue => exact absurd hlater (Nat.not_lt.mpr hdue)
  | received _ _ _ _ _ hended => exact ⟨_, _, hended⟩
  | missing _ _ _ _ _ hended => exact ⟨_, _, hended⟩
  | overdue _ _ _ hended => exact ⟨_, _, hended⟩

theorem ready {x : Traffic} {stage : Sending} (h : Phase y k events x now) (hx : x.Lawful)
    (htimeout : k.timeout = x.network.settings.replyTimeout) (hevents : x = y.run events)
    (found : x.sends[k.call]? = some call) (hstate : call.state = .underWay stage)
    (hready : x.network.sendReady time stage = true) :
    ∃ result, Ended k.call result (x.turnSend time k.call) := by
  have hgone {time result} (hended : y.Becomes events time (Ended k.call result)) : False := by
    obtain ⟨call', found', hstate'⟩ := hended.holds (ended_stable _ _)
    rw [← hevents, found] at found'
    obtain rfl := Option.some.inj found'
    cases hstate.symm.trans hstate'
  cases h with
  | pending hwaits hpending =>
    obtain ⟨call', r, found', -, hstate'⟩ := id hwaits
    obtain rfl := Option.some.inj (found.symm.trans found')
    cases hstate.symm.trans hstate'
    have hblank := hpending.blank
    simp only [sendReady, hblank, ne_eq, not_true_eq_false, decide_false, Bool.false_or,
      decide_eq_true_eq] at hready
    exact ⟨_, (hwaits.turn_late hx hpending htimeout hready).1⟩
  | answered outcome hwaits hwritten => exact ⟨_, hwaits.turn_written hwritten time⟩
  | released hleaves => exact ⟨_, (hleaves.turn (Nat.zero_le time)).2.1⟩
  | received _ _ _ _ _ hended => exact (hgone hended).elim
  | missing _ _ _ _ _ hended => exact (hgone hended).elim
  | overdue _ _ _ hended => exact (hgone hended).elim

theorem cleared (h : Phase y k events (y.run events) now) (ha : (y.run events).Accounted)
    (hended : Ended k.call result (y.run events)) (box : MailboxId) (key : RequestKey) :
    ¬ (y.run events).network.Awaits box key k.slip := by
  cases h with
  | pending hwaits => exact absurd hended hwaits.not_ended
  | answered _ hwaits => exact absurd hended hwaits.not_ended
  | released hleaves => exact absurd hended hleaves.not_ended
  | received _ _ _ _ hanswered =>
    obtain ⟨j, reply, hreach, -⟩ := hanswered.holds (answered_stable _ _)
    exact ha.struck j _ reply hreach box key
  | missing _ _ _ hmissed => exact hmissed.unawaited box key
  | overdue _ hmissed => exact hmissed.unawaited box key

theorem inTime (h : Phase y k events (y.run events) now) (hx : (y.run events).Lawful)
    (htimeout : k.timeout = (y.run events).network.settings.replyTimeout) :
    y.InTime k events now where
  ends _ _ := h.ends
  replied _ _ := h.replied hx
  closed _ := h.closed hx
  overdue := h.late
  due := h.due
  ready _ _ _ := h.ready hx htimeout rfl
  cleared _ := h.cleared hx.accounted

end Phase

end Traffic

end Replica
