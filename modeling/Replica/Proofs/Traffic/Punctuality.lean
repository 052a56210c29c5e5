import Replica.Proofs.Traffic.Deadlines

/-!
# Calls end in time

A call that sends looks for its node once, when it is made. If there is none, it ends then. Otherwise it
comes to the mailbox that it has found, at once and, as long as the mailbox is blocked, after each
interval. The time that it spends so is not counted: it has entered nothing, and has no deadline. The
first time that the mailbox is not blocked is the last time that it comes. If the mailbox is closed, or
the key of the call is in use, it ends then; otherwise it is entered, its deadline is set, and it ends in
time (`Replica.Traffic.InTime`).

Nothing is assumed of the order in which the others get their turns, of when somebody replies, or of what
happens to the mailbox. The call is not cancelled, and from the call on the clock stands still while a
call can go on (`sends_end_in_time`).
-/

namespace Replica

namespace Network

variable {net : Network} {now wake : Nat} {box box' : MailboxId} {b : Mailbox} {r r' : Request}

/-- Whoever is entered waits for a reply from then on. -/
theorem enqueue_ne_blocked : (net.enqueue now box b r).2 ≠ .waiting (.blocked box' r' wake) := by
  intro h
  unfold enqueue at h
  split at h
  · cases h
  · dsimp only at h
    split at h
    · cases h
    · cases (checkSlip_waiting h).2

/-- A sender that finds the mailbox blocked looks again, and not before now. -/
theorem trySend_blocked (h : (net.trySend now box r).2 = .waiting (.blocked box' r' wake)) :
    now ≤ wake := by
  unfold trySend at h
  split at h
  · cases h
  · split at h
    · cases h
      exact Nat.le_add_right _ _
    · exact absurd h enqueue_ne_blocked

/-- A sender is entered that finds the mailbox open and its key free. -/
theorem trySend_enters (now : Nat) (found : net.mailboxes[box]? = some b) (hfree : b.isBlocked = false)
    (hopen : b.closed = false) (hkey : r.key ∉ b.replies.map (·.1)) :
    Enters now box b r net (net.trySend now box r) := by
  simp only [trySend, found, hfree, Bool.false_eq_true, if_false]
  exact enqueue_of_free found (Traffic.slip?_eq_none_iff.mpr hkey) hopen

end Network

open Network

namespace Traffic

variable {x y : Traffic} {i : Nat} {call : SendCall} {box : MailboxId} {b : Mailbox} {r r' : Request}
variable {event : Event} {events before after rest : List Event} {start time now later : Nat}
variable {t : TaskId} {k : Ticket}

/-- The call was made with the request. -/
def MadeWith (i : Nat) (r : Request) (x : Traffic) : Prop :=
  ∃ call, x.sends[i]? = some call ∧ call.request = r

theorem madeWith_stable (i : Nat) (r : Request) : Stable (MadeWith i r) := by
  rintro x event ⟨call, found, rfl⟩
  obtain ⟨call', found', hstep⟩ := exists_sendStep found event
  refine ⟨call', found', ?_⟩
  cases hstep <;> rfl

/-! ## Calls that look again -/

/-- If the call is blocked, it is not later than the time at which it looks again. -/
def LooksAhead (i now : Nat) (x : Traffic) : Prop :=
  ∀ call box r wake, x.sends[i]? = some call → call.state = .underWay (.blocked box r wake) →
    now ≤ wake

theorem LooksAhead.step (h : x.LooksAhead i now) (hmade : MadeWith i r x)
    (hnow : event.time? = none ∨ event.time? = some now) : (x.step event).LooksAhead i now := by
  intro call' box r' wake found' hstate'
  obtain ⟨call, found, -⟩ := hmade
  obtain ⟨after, hafter, hstep⟩ := exists_sendStep found event
  obtain rfl := Option.some.inj (hafter.symm.trans found')
  cases hstep with
  | stays _ => exact h call box r' wake found hstate'
  | diverts owner other =>
    obtain ⟨stage, hstate, hdivert⟩ := CallState.mapStage_eq_underWay hstate'
    obtain ⟨r, rfl, -⟩ := Sending.divert_eq_blocked hdivert
    exact h call box r wake found hstate
  | @turns time stage hstate =>
    obtain rfl := Option.some.inj (hnow.resolve_left nofun)
    have hwaiting := CallState.eq_waiting_of_ofProgress hstate'
    cases stage with
    | blocked box r wake' =>
      rw [Network.turnSend] at hwaiting
      split at hwaiting
      · exact trySend_blocked hwaiting
      · cases hwaiting
        exact h call _ _ _ found hstate
    | waiting box r slip deadline => cases (checkSlip_waiting hwaiting).2
  | cancels _ => cases hstate'

/-- The call has been made, and is not blocked. -/
def Unblocked (i : Nat) (x : Traffic) : Prop :=
  ∃ call, x.sends[i]? = some call ∧ ∀ box r wake, call.state ≠ .underWay (.blocked box r wake)

/-- A call that is not blocked is not blocked again. -/
theorem unblocked_stable (i : Nat) : Stable (Unblocked i) := by
  rintro x event ⟨call, found, hfree⟩
  obtain ⟨call', found', hstep⟩ := exists_sendStep found event
  refine ⟨call', found', fun box r wake hstate' => ?_⟩
  cases hstep with
  | stays _ => exact hfree box r wake hstate'
  | diverts owner other =>
    obtain ⟨stage, hstate, hdivert⟩ := CallState.mapStage_eq_underWay hstate'
    obtain ⟨r', rfl, -⟩ := Sending.divert_eq_blocked hdivert
    exact hfree box r' wake hstate
  | @turns now stage hstate =>
    cases stage with
    | blocked box' r' wake' => exact hfree box' r' wake' hstate
    | waiting box' r' slip deadline =>
      cases (checkSlip_waiting (CallState.eq_waiting_of_ofProgress hstate')).2
  | cancels _ => cases hstate'

/-- The clock does not pass the time at which a blocked call looks again. -/
theorem Timely.looksAhead (h : x.Timely start events now) (hx : x.Lawful) (hmade : MadeWith i r x)
    (hinterval : x.network.settings.pollInterval ≠ 0) (hahead : x.LooksAhead i start) :
    (x.run events).LooksAhead i now := by
  induction h with
  | start => exact hahead
  | @happens events now event h hnow ih =>
    rw [run_concat]
    exact ih.step ((madeWith_stable i r).run hmade events) hnow
  | @passes events now later h hlater hquiet ih =>
    intro call box r wake found hstate
    refine Nat.le_of_not_lt fun hlt => ?_
    have hstuck := (hquiet wake (ih call box r wake found hstate) hlt).sends i call _ found hstate
    simp [sendReady, looksAlways, hx.settings, hinterval] at hstuck

/-! ## Calls that come to a mailbox -/

namespace Comes

theorem time? (h : x.Comes box r now i event) : event.time? = some now := by
  cases h <;> rfl

/-- Whoever comes to a mailbox has not ended. -/
theorem not_ended {result : SendEnd} (h : x.Comes box r now i event) : ¬ Ended i result x := by
  rintro ⟨call', found', hstate'⟩
  cases h with
  | begins t hget => exact absurd (lt_length_of_getElem? found') (Nat.lt_irrefl _)
  | @returns i wake call found hstate hwake =>
    obtain rfl := Option.some.inj (found.symm.trans found')
    cases hstate.symm.trans hstate'

theorem becomes {result : SendEnd} (h : x.Comes box r now i event)
    (hended : Ended i result (x.step event)) (rest : List Event) :
    x.Becomes (event :: rest) now (Ended i result) :=
  ⟨[], event, rest, rfl, h.time?, h.not_ended, hended⟩

theorem ended {outcome : Outcome} (h : x.Comes box r now i event)
    (hended : (x.network.trySend now box r).2 = .ended outcome) :
    Ended i (.failed outcome) (x.step event) := by
  obtain ⟨-, call, hcall⟩ := h.step
  refine ⟨_, hcall, ?_⟩
  rw [SendCall.after, hended]
  rfl

/-- The call finds the mailbox blocked. -/
theorem blocked (h : x.Comes box r now i event) (found : x.network.mailboxes[box]? = some b)
    (hblocked : b.isBlocked = true) : (x.step event).network = x.network ∧
      ∃ call, (x.step event).sends[i]? = some call ∧ call.state =
        .underWay (.blocked box r (Sleep.wake now x.network.settings.pollInterval.toNat)) := by
  obtain ⟨hnetwork, call, hcall⟩ := h.step
  have hresult : x.network.trySend now box r = (x.network,
      .waiting (.blocked box r (Sleep.wake now x.network.settings.pollInterval.toNat))) := by
    simp only [trySend, found, hblocked, if_true]
  rw [hresult] at hnetwork hcall
  exact ⟨hnetwork, _, hcall, rfl⟩

/-- The call finds the mailbox not blocked. -/
theorem unblocked (h : x.Comes box r now i event) (found : x.network.mailboxes[box]? = some b)
    (hfree : b.isBlocked = false) : Unblocked i (x.step event) := by
  obtain ⟨-, call, hcall⟩ := h.step
  refine ⟨_, hcall, fun box' r' wake hblocked => ?_⟩
  have hwaiting := CallState.eq_waiting_of_ofProgress hblocked
  simp only [trySend, found, hfree, Bool.false_eq_true, if_false] at hwaiting
  exact enqueue_ne_blocked hwaiting

/-- Whoever comes to a mailbox is new, or has been blocked. -/
theorem not_unblocked (h : x.Comes box r now i event) : ¬ Unblocked i x := by
  rintro ⟨call', found', hfree⟩
  cases h with
  | begins t hget => exact Nat.lt_irrefl _ (lt_length_of_getElem? found')
  | @returns i wake call found hstate hwake =>
    obtain rfl := Option.some.inj (found.symm.trans found')
    exact hfree _ _ _ hstate

/-- A call whose reply is overdue at once has been entered, and has left again. -/
theorem missed {outcome : Outcome} (h : x.Comes box r now i event) (hx : x.Lawful)
    (henters : Enters now box b r x.network (x.network.trySend now box r))
    (hended : (x.network.trySend now box r).2 = .ended outcome) :
    (x.step event).Missed x.network.slips.length := by
  obtain ⟨hnetwork, -⟩ := h.step
  refine ⟨?_, fun box' key hw => ?_, fun j reply hreach => ?_⟩
  · rw [hnetwork, henters.enters.slips]
    exact Nat.lt_succ_self _
  · rw [hnetwork] at hw
    exact trySend_ended hx.listedOpen hx.accounted.slipsUnique hended box' key hw
  · -- the slip is new
    rcases reaches_step hx.accounted hreach with hreach | ⟨box', key, hw⟩
    · obtain ⟨i, call, howns, -⟩ := hx.accounted.matched _ _ _ hreach
      exact absurd (hx.accounted.lt_of_owns howns) (Nat.lt_irrefl _)
    · exact absurd (hx.accounted.slipsUnique.known _ _ _ hw) (Nat.lt_irrefl _)

/-- The call is entered, and its time begins. -/
theorem phase (h : x.Comes box r now i event) (hx : x.Lawful)
    (found : x.network.mailboxes[box]? = some b) (hfree : b.isBlocked = false)
    (hopen : b.closed = false) (hkey : r.key ∉ b.replies.map (·.1)) :
    Phase x ⟨i, box, b.id, r.key, x.network.slips.length, now, x.network.settings.replyTimeout⟩
      [event] (x.step event) now := by
  generalize hk : Ticket.mk i box b.id r.key x.network.slips.length now
    x.network.settings.replyTimeout = k
  by_cases htimeout : x.network.settings.replyTimeout = 0
  · have henters := trySend_enters now found hfree hopen hkey
    have hended := henters.overdue htimeout
    have hnow : k.due = now := by
      rw [← hk, Ticket.due, htimeout]
      rfl
    refine .overdue hnow.le (hk ▸ h.missed hx henters hended) (fun time htime hclosed => ?_) ?_
    · obtain ⟨last, hmem, hsome⟩ := hclosed.exists_event
      obtain rfl := List.mem_singleton.mp hmem
      obtain rfl := Option.some.inj (h.time?.symm.trans hsome)
      exact absurd htime (hnow ▸ Nat.lt_irrefl _)
    · rw [hnow, ← hk]
      exact h.becomes (h.ended hended) []
  · obtain ⟨hawaits, call, hcall, -, hstate⟩ :=
      (h.admitted found hfree hopen hkey).waits htimeout
    obtain ⟨own, honward, -⟩ := step_onward hx.accounted hx.tabled event
    subst hk
    have hwaits : (x.step event).Waits ⟨i, box, b.id, r.key, x.network.slips.length, now,
      x.network.settings.replyTimeout⟩ := ⟨call, r, hcall, rfl, hstate⟩
    exact .pending hwaits (hwaits.isPending (hx.step event) (honward.serves _ _ ⟨b, found, rfl⟩) hawaits)
      (Nat.le_add_right _ _)

end Comes

/-! ## Outcomes and times -/

/-- In the run, the call comes to the mailbox with the event, at the time. -/
structure Visits (x : Traffic) (events : List Event) (i : Nat) (before : List Event) (event : Event)
    (rest : List Event) (box : MailboxId) (b : Mailbox) (r : Request) (time : Nat) : Prop where
  split : events = before ++ event :: rest
  comes : (x.run before).Comes box r time i event
  found : (x.run before).network.mailboxes[box]? = some b

/-- What becomes of a call that is made with the request, and when, under the clock. -/
structure Punctual (settings : Settings) (x : Traffic) (start : Nat) (t : TaskId) (r : Request)
    (after : List Event) (now : Nat) : Prop where
  /-- If there is no such node, it ends at once. -/
  absent : x.network.registry.get? r.replier = none →
    x.Becomes (.beginSend start t r :: after) start
      (Ended x.sends.length (.failed (.error (.nodeNotFound r.replier))))
  /-- Otherwise it comes to the node's mailbox at once. -/
  present : ∀ box, x.network.registry.get? r.replier = some box →
    ∃ b, x.Visits (.beginSend start t r :: after) x.sends.length [] (.beginSend start t r) after box b r
      start
  /-- If it finds the mailbox blocked, nothing changes, and it looks again after the interval. -/
  blocked : ∀ before event rest box b r' time,
    x.Visits (.beginSend start t r :: after) x.sends.length before event rest box b r' time →
    b.isBlocked = true → (x.run (before ++ [event])).network = (x.run before).network ∧
      ∃ call, (x.run (before ++ [event])).sends[x.sends.length]? = some call ∧ call.state =
        .underWay (.blocked box r' (Sleep.wake time settings.pollInterval.toNat))
  /-- It looks again at that time exactly, unless it looks all the time; and the clock waits for it. -/
  paced : settings.pollInterval ≠ 0 → ∀ before event rest box b r' time wake call,
    x.Visits (.beginSend start t r :: after) x.sends.length before event rest box b r' time →
    (x.run before).sends[x.sends.length]? = some call →
    call.state = .underWay (.blocked box r' wake) → time = wake
  ahead : settings.pollInterval ≠ 0 →
    (x.run (.beginSend start t r :: after)).LooksAhead x.sends.length now
  /-- If it finds the mailbox not blocked, it comes no more, whatever happens afterwards. -/
  once : ∀ before event rest box b r' time,
    x.Visits (.beginSend start t r :: after) x.sends.length before event rest box b r' time →
    b.isBlocked = false → ∀ later event' box' r'' time',
      ¬ (x.run (before ++ event :: later)).Comes box' r'' time' x.sends.length event'
  /-- If it finds the mailbox closed, it ends at once. -/
  closed : ∀ before event rest box b r' time,
    x.Visits (.beginSend start t r :: after) x.sends.length before event rest box b r' time →
    b.closed = true → (x.run before).Becomes (event :: rest) time
      (Ended x.sends.length (.failed (.error (.nodeNotFound r.replier))))
  /-- If it finds its key in use, it ends at once. -/
  refused : ∀ before event rest box b r' time,
    x.Visits (.beginSend start t r :: after) x.sends.length before event rest box b r' time →
    b.isBlocked = false → r.key ∈ b.replies.map (·.1) → (x.run before).Becomes (event :: rest) time
      (Ended x.sends.length (.failed (.error (inFlight r.key b))))
  /-- Otherwise it is entered, and its time begins. -/
  entered : ∀ before event rest box b r' time,
    x.Visits (.beginSend start t r :: after) x.sends.length before event rest box b r' time →
    b.isBlocked = false → b.closed = false → r.key ∉ b.replies.map (·.1) →
    (x.run before).Admitted event box b r' time x.sends.length ∧
      (x.run before).InTime ⟨x.sends.length, box, r.replier, r.key,
        (x.run before).network.slips.length, time, settings.replyTimeout⟩ (event :: rest) now

namespace Visits

/-- The call comes with its own key, and to a mailbox of the node that it was sent to. -/
theorem request_eq (h : x.Visits (.beginSend start t r :: after) x.sends.length before event rest box b
    r' time) (hx : x.Lawful) : r'.key = r.key ∧ b.id = r.replier := by
  obtain ⟨hsplit, hcomes, found⟩ := h
  cases before with
  | nil =>
    cases hsplit
    cases hcomes with
    | begins t hget =>
      obtain ⟨b', found', hid⟩ := hx.accounted.slipsUnique.serves hget
      obtain rfl := Option.some.inj (found.symm.trans found')
      exact ⟨rfl, hid⟩
  | cons first before =>
    cases hsplit
    have hmade : MadeWith x.sends.length r (x.step (.beginSend start t r)) :=
      ⟨_, List.getElem?_concat_length, rfl⟩
    obtain ⟨call, hcall, rfl⟩ := (madeWith_stable _ _).run hmade before
    generalize hi : x.sends.length = i at hcomes hcall
    cases hcomes with
    -- it began before
    | begins t hget => exact absurd (lt_length_of_getElem? hcall) (Nat.lt_irrefl _)
    | @returns i wake call' hcall' hstate hwake =>
      obtain rfl := Option.some.inj (hcall.symm.trans hcall')
      obtain ⟨-, hkey, b', found', hid⟩ :=
        ((hx.run (_ :: before)).accounted.senders i call hcall).blocked _ _ _ hstate
      obtain rfl := Option.some.inj (found.symm.trans found')
      exact ⟨hkey, hid⟩

end Visits

theorem beginSend_absent (hnone : x.network.registry.get? r.replier = none) :
    x.Becomes (.beginSend start t r :: after) start
      (Ended x.sends.length (.failed (.error (.nodeNotFound r.replier)))) := by
  refine ⟨[], _, after, rfl, rfl, ?_, _, List.getElem?_concat_length, ?_⟩
  · rintro ⟨call, found, -⟩
    exact Nat.lt_irrefl _ (lt_length_of_getElem? found)
  · simp only [SendCall.after, Network.beginSend, run_nil, hnone]
    rfl

/-- The clock does not pass the time at which the call looks again. -/
theorem looksAhead_of_beginSend (hx : x.Lawful)
    (hclock : x.Timely start (.beginSend start t r :: after) now)
    (hinterval : x.network.settings.pollInterval ≠ 0) :
    (x.run (.beginSend start t r :: after)).LooksAhead x.sends.length now := by
  have hclock : x.Timely start ([] ++ .beginSend start t r :: after) now := hclock
  have hmade : MadeWith x.sends.length r (x.step (.beginSend start t r)) :=
    ⟨_, List.getElem?_concat_length, rfl⟩
  have hsettings : (x.step (.beginSend start t r)).network.settings = x.network.settings :=
    hx.settings [.beginSend start t r]
  refine (hclock.split rfl).2.looksAhead (hx.step _) hmade (hsettings ▸ hinterval) ?_
  intro call box r' wake found hstate
  obtain rfl := Option.some.inj (List.getElem?_concat_length.symm.trans found)
  have hwaiting := CallState.eq_waiting_of_ofProgress hstate
  unfold Network.beginSend at hwaiting
  split at hwaiting
  · cases hwaiting
  · exact trySend_blocked hwaiting

theorem Lawful.punctual (hx : x.Lawful)
    (hclock : x.Timely start (.beginSend start t r :: after) now)
    (hcancel : .cancelSend x.sends.length ∉ after) :
    x.Punctual x.network.settings start t r after now where
  absent := beginSend_absent
  present box hget := by
    obtain ⟨b, found, -⟩ := hx.accounted.slipsUnique.serves hget
    exact ⟨b, rfl, .begins t hget, found⟩
  blocked before event rest box b r' time hvisits hblocked := by
    rw [run_concat, ← hx.settings before]
    exact hvisits.comes.blocked hvisits.found hblocked
  paced hinterval before event rest box b r' time wake call hvisits found hstate := by
    obtain ⟨hsplit, hcomes, -⟩ := hvisits
    cases before with
    | nil => exact absurd (lt_length_of_getElem? found) (Nat.lt_irrefl _)
    | cons first before =>
      cases hsplit
      have hclock : x.Timely start (.beginSend start t r :: before ++ event :: rest) now := hclock
      have hahead := looksAhead_of_beginSend hx (hclock.split hcomes.time?).1 hinterval
      refine Nat.le_antisymm (hahead call _ _ _ found hstate) ?_
      generalize x.sends.length = i at hcomes found
      cases hcomes with
      | begins t hget => exact absurd (lt_length_of_getElem? found) (Nat.lt_irrefl _)
      | @returns i wake' call' found' hstate' hwake =>
        obtain rfl := Option.some.inj (found.symm.trans found')
        cases hstate.symm.trans hstate'
        exact hwake
  ahead := looksAhead_of_beginSend hx hclock
  once before event rest box b r' time hvisits hfree later event' box' r'' time' hcomes := by
    have hunblocked := hvisits.comes.unblocked hvisits.found hfree
    rw [run_append] at hcomes
    exact hcomes.not_unblocked ((unblocked_stable _).run hunblocked later)
  closed before event rest box b r' time hvisits hclosed := by
    have hshut := (hx.run before).closings.shut hvisits.found hclosed
    have hended := trySend_of_shut time r' hshut
    rw [← (hvisits.request_eq hx).2]
    exact hvisits.comes.becomes (hvisits.comes.ended (congrArg (·.2) hended)) rest
  refused before event rest box b r' time hvisits hfree hkey := by
    rw [← (hvisits.request_eq hx).1] at hkey ⊢
    exact hvisits.comes.becomes (hvisits.comes.refused hvisits.found hfree hkey).2 rest
  entered before event rest box b r' time hvisits hfree hopen hkey := by
    have hy := hx.run before
    obtain ⟨hsame, hid⟩ := hvisits.request_eq hx
    rw [← hsame] at hkey ⊢
    rw [← hid, ← hx.settings before]
    refine ⟨hvisits.comes.admitted hvisits.found hfree hopen hkey, ?_⟩
    have hphase := hvisits.comes.phase hy hvisits.found hfree hopen hkey
    rw [hvisits.split] at hclock
    have hcancel' : .cancelSend x.sends.length ∉ rest := fun hmem => by
      have hlater : .cancelSend x.sends.length ∈ .beginSend start t r :: after :=
        hvisits.split ▸ List.mem_append_right _ (List.mem_cons_of_mem _ hmem)
      exact hcancel ((List.mem_cons.mp hlater).resolve_left nofun)
    have hrun := hphase.run hy rfl (hclock.split hvisits.comes.time?).2 hcancel'
    exact hrun.inTime (hy.run _) (by rw [hy.settings])

/-- Every call that sends, on every network and after every run, if it is not cancelled, and if from the
call on the clock moves only when no call can go on. -/
theorem sends_end_in_time (settings : Settings) (dice : Nat → UInt64) (before after : List Event)
    (start now : Nat) (t : TaskId) (r : Request)
    (hclock : (reached settings dice before).Timely start (.beginSend start t r :: after) now)
    (hcancel : .cancelSend (reached settings dice before).sends.length ∉ after) :
    (reached settings dice before).Punctual settings start t r after now := by
  have hx := lawful_reached settings dice before
  have hnew : Lawful { network := { settings, dice } } := lawful_reached settings dice []
  have hsettings : (reached settings dice before).network.settings = settings := hnew.settings before
  have hpunctual := hx.punctual hclock hcancel
  rw [hsettings] at hpunctual
  exact hpunctual

section

/-- A request of a client to the node. -/
private def parcel (number : UInt64) : Request where
  requestor := "c"
  target := "s"
  callId := number

/-- Nobody may send to the node. -/
private def barred : List Event := [.register 0 "s", .setSwitches 0 fun s => { s with blockTo := true }]

/-- The first call looks twice in vain, and is replied to. The second one loses its mailbox. -/
private def parcels : List Event :=
  [.turnSend 10 0, .setSwitches 0 fun s => { s with blockTo := false }, .turnSend 20 0,
    .beginSend 20 1 (parcel 2), .beginReply 25 9 (parcel 1) (.error (.internal "broken")),
    .turnSend 25 0, .register 3010 "s", .turnSend 3010 1]

/-- The third call is sent to the new mailbox, and nobody replies to it. -/
private def last : Event := .beginSend 3010 2 (parcel 3)

theorem sends_end_in_delivery :
    (reached {} (fun _ => 0) barred).Timely 0
        (.beginSend 0 0 (parcel 1) :: (parcels ++ [last, .turnSend 6010 2])) 6010 ∧
      (reached {} (fun _ => 0) (barred ++ .beginSend 0 0 (parcel 1) ::
          (parcels ++ [last, .turnSend 6010 2]))).sends.map (·.state) =
        [.ended (.received (.error (.internal "broken"))),
          .ended (.failed (.error (.nodeNotFound "s"))),
          .ended (.failed (.error (.timeout "request c#3 to s" 3000)))] ∧
      (reached {} (fun _ => 0) barred).Punctual {} 0 0 (parcel 1)
        (parcels ++ [last, .turnSend 6010 2]) 6010 := by
  have hclock : (reached {} (fun _ => 0) barred).Timely 0
      (.beginSend 0 0 (parcel 1) :: (parcels ++ [last, .turnSend 6010 2])) 6010 :=
    timely_of_keepsTime? (by decide +kernel)
  refine ⟨hclock, by rfl, sends_end_in_time {} (fun _ => 0) barred _ 0 6010 0 (parcel 1) hclock ?_⟩
  simp [parcels, last]

end

end Traffic

end Replica
