import Replica.Proofs.Traffic.Omission
import Replica.Proofs.Traffic.Waiting

/-!
# Keys in use

A key is in use at a node while a call that has sent a request under it is in flight there. As long as
nobody who sends is cancelled, the tables of the mailboxes say just that; a sender whose key is in use is
refused, and might as well not have come; and with the end of a call its key is free again
(`keys_in_use_are_keys_in_flight`).
-/

namespace Replica.Traffic

open Network

variable {x : Traffic} {i : Nat} {box : MailboxId} {b : Mailbox} {r : Request} {now : Nat}
variable {event : Event} {slip : SlipId} {key : RequestKey}

/-- A sender comes to the mailbox: it begins, or it was blocked and looks again. -/
inductive Comes (x : Traffic) (box : MailboxId) (r : Request) (now : Nat) : Nat → Event → Prop where
  | begins (t : TaskId) (hget : x.network.registry.get? r.replier = some box) :
    Comes x box r now x.sends.length (.beginSend now t r)
  | returns {i wake : Nat} {call : SendCall} (found : x.sends[i]? = some call)
    (hstate : call.state = .underWay (.blocked box r wake)) (hwake : wake ≤ now) :
    Comes x box r now i (.turnSend now i)

/-- What becomes of the sender is what becomes of it at the mailbox. -/
theorem Comes.step (h : x.Comes box r now i event) :
    (x.step event).network = (x.network.trySend now box r).1 ∧
      ∃ call, (x.step event).sends[i]? =
        some (SendCall.after x.network none (x.network.trySend now box r) call) := by
  cases h with
  | begins t hget =>
    have hbegin : x.network.beginSend now r = x.network.trySend now box r := by
      simp only [Network.beginSend, hget]
    rw [Traffic.step, beginSend, hbegin]
    exact ⟨rfl, _, List.getElem?_concat_length⟩
  | @returns i wake call found hstate hwake =>
    have hturn : x.network.turnSend now (.blocked box r wake) = x.network.trySend now box r := by
      rw [Network.turnSend, if_pos hwake]
    rw [Traffic.step, turnSend_eq found hstate, hturn]
    exact ⟨rfl, call, getElem?_modify_eq_some_iff.mpr ⟨call, found, if_pos rfl⟩⟩

/-- The sender has been entered: its request is the last one in the mailbox, and it waits under its key,
unless its reply is overdue at once. -/
structure Admitted (x : Traffic) (event : Event) (box : MailboxId) (b : Mailbox) (r : Request)
    (now i : Nat) : Prop where
  queued : ∃ b', (x.step event).network.mailboxes[box]? = some b' ∧ b'.requests = b.requests ++ [r]
  waits : x.network.settings.replyTimeout ≠ 0 →
    (x.step event).network.Awaits box r.key x.network.slips.length ∧
      ∃ call, (x.step event).sends[i]? = some call ∧ call.slip? = some x.network.slips.length ∧
        call.state = .underWay (.waiting box r x.network.slips.length
          (now + x.network.settings.replyTimeout.toNat))
  overdue : x.network.settings.replyTimeout = 0 →
    ∃ call, (x.step event).sends[i]? = some call ∧
      call.state = .ended (.failed (.error (x.network.overdue r.key b)))

/-- What the tables say about the calls that are in flight. -/
structure KeysInUse (x : Traffic) : Prop where
  /-- When no call can go on, the keys in a table are those of the calls that wait there, each call
  under its own key, and one call for each key. -/
  matched : ∀ now, x.IsQuiet now → ∀ (box : MailboxId) (b : Mailbox),
    x.network.mailboxes[box]? = some b → (b.replies.map (·.1)).Nodup ∧
      ∀ key, (key ∈ b.replies.map (·.1) ↔ ∃ i slip, x.WaitsIn box key i slip) ∧
        ∀ i j slip slip', x.WaitsIn box key i slip → x.WaitsIn box key j slip' → i = j
  /-- A node has a mailbox that is open. -/
  opened : ∀ node box, x.network.registry.get? node = some box →
    ∃ b, x.network.mailboxes[box]? = some b ∧ b.closed = false
  /-- A sender that comes while its key is in use is refused, and changes nothing. -/
  refused : ∀ box b r now i event, x.Comes box r now i event →
    x.network.mailboxes[box]? = some b → b.isBlocked = false → (∃ j, x.InFlight box r.key j) →
    (x.step event).network = x.network ∧
      ∃ call, (x.step event).sends[i]? = some call ∧
        call.state = .ended (.failed (.error (inFlight r.key b)))
  /-- A sender that comes while its key is not in use is entered. -/
  admitted : ∀ box b r now i event, x.Comes box r now i event →
    x.network.mailboxes[box]? = some b → b.isBlocked = false → b.closed = false →
    (¬ ∃ j, x.InFlight box r.key j) → x.Admitted event box b r now i
  /-- Whoever has ended, in whatever way, is in no table. -/
  ended : ∀ (i : Nat) (call : SendCall) (result : SendEnd) (box : MailboxId) (key : RequestKey)
    (slip : SlipId), x.sends[i]? = some call → call.state = .ended result →
    call.slip? = some slip → ¬ x.network.Awaits box key slip
  /-- A turn of a call, its last one included, removes nobody else from a table. -/
  spared : ∀ now i box key slip, x.network.Awaits box key slip →
    (∀ call, x.sends[i]? = some call → call.slip? ≠ some slip) →
    (x.turnSend now i).network.Awaits box key slip

theorem slip?_eq_none_iff : b.slip? key = none ↔ key ∉ b.replies.map (·.1) := by
  rw [Mailbox.slip?, List.lookup_eq_none_iff]
  simp only [List.mem_map, not_exists, not_and, bne_iff_ne]
  exact ⟨fun h p hp heq => h p hp heq.symm, fun h p hp heq => h p hp heq.symm⟩

theorem Comes.refused (h : x.Comes box r now i event) (found : x.network.mailboxes[box]? = some b)
    (hfree : b.isBlocked = false) (hkey : r.key ∈ b.replies.map (·.1)) :
    (x.step event).network = x.network ∧
      ∃ call, (x.step event).sends[i]? = some call ∧
        call.state = .ended (.failed (.error (inFlight r.key b))) := by
  obtain ⟨slip, hslip⟩ := Option.ne_none_iff_exists'.mp fun hnone => slip?_eq_none_iff.mp hnone hkey
  have hresult : x.network.trySend now box r = (x.network, .ended (.error (inFlight r.key b))) := by
    simp only [trySend, found, hfree, Bool.false_eq_true, if_false]
    exact enqueue_of_inFlight hslip
  obtain ⟨hnetwork, call, hcall⟩ := h.step
  rw [hresult] at hnetwork hcall
  exact ⟨hnetwork, _, hcall, rfl⟩

theorem Comes.admitted (h : x.Comes box r now i event) (found : x.network.mailboxes[box]? = some b)
    (hfree : b.isBlocked = false) (hopen : b.closed = false)
    (hkey : r.key ∉ b.replies.map (·.1)) : x.Admitted event box b r now i := by
  have henters : Enters now box b r x.network (x.network.enqueue now box b r) :=
    enqueue_of_free found (slip?_eq_none_iff.mpr hkey) hopen
  have hresult : x.network.trySend now box r = x.network.enqueue now box b r := by
    simp only [trySend, found, hfree, Bool.false_eq_true, if_false]
  obtain ⟨hnetwork, call, hcall⟩ := h.step
  rw [hresult] at hnetwork hcall
  have hslip := SendCall.after_slip?_of_enters henters.enters none
    (x.network.enqueue now box b r).2 call
  refine ⟨hnetwork ▸ henters.queued, fun htimeout => ?_, fun htimeout => ?_⟩
  · obtain ⟨hawaits, hwaits⟩ := henters.waits htimeout
    refine ⟨hnetwork ▸ hawaits, _, hcall, hslip, ?_⟩
    rw [SendCall.after, hwaits]
    rfl
  · refine ⟨_, hcall, ?_⟩
    rw [SendCall.after, henters.overdue htimeout]
    rfl

/-- A turn of a call removes nobody else from a table. -/
theorem turnSend_awaits (ha : x.Accounted) (hx : x.Tabled) (hw : x.network.Awaits box key slip)
    (hother : ∀ call, x.sends[i]? = some call → call.slip? ≠ some slip) :
    (x.turnSend now i).network.Awaits box key slip := by
  have hstep := x.stepsTo_step (.turnSend now i)
  rw [step] at hstep
  generalize x.turnSend now i = y at hstep ⊢
  cases hstep with
  | idles _ => exact hw
  | @turnSend _ _ call stage found hstate =>
    cases stage with
    | blocked box' r wake =>
      rw [Network.turnSend]
      split
      · exact trySend_awaits hx.keyed ha.slipsUnique hw
      · exact hw
    | waiting box' r slip' deadline =>
      have hslip := (ha.senders i call found).waiting _ _ _ _ hstate
      refine checkSlip_awaits hx.keyed (hx.expects i call box' r slip' deadline found hstate) hw ?_
      rintro rfl
      exact hother call found hslip

theorem Waited.keysInUse (h : x.Waited) (ha : x.Accounted) (hx : x.Tabled)
    (hnet : x.network.ListedOpen) : x.KeysInUse where
  matched now hquiet box b found := by
    refine ⟨hx.keyed box b found, fun key => ⟨?_, fun i j slip slip' hi hj => ?_⟩⟩
    · rw [← h.inFlight_iff ha hx hnet found]
      constructor
      · exact fun ⟨i, slip, hwaits, _⟩ => ⟨i, slip, hwaits⟩
      · exact fun ⟨i, slip, hwaits⟩ => ⟨i, hquiet.inFlight hwaits⟩
    · exact (hquiet.inFlight hi).unique (hquiet.inFlight hj) ha hx
  opened node box hget := by
    obtain ⟨b, found, -⟩ := ha.slipsUnique.serves hget
    exact ⟨b, found, hnet.opened node box b hget found⟩
  refused box b r now i event hcomes found hfree hflight :=
    hcomes.refused found hfree ((h.inFlight_iff ha hx hnet found).mp hflight)
  admitted box b r now i event hcomes found hfree hopen hflight :=
    hcomes.admitted found hfree hopen (mt (h.inFlight_iff ha hx hnet found).mpr hflight)
  ended i call result box key slip found hstate hslip hw := by
    obtain ⟨r, deadline, hwaits⟩ := (h i call found).waits box key slip hslip hw
    cases hstate.symm.trans hwaits
  spared now i box key slip := turnSend_awaits ha hx

/-- In every run without cancelled senders, with any settings and any numbers from the random source:
the tables hold the keys of the calls that are in flight, a sender whose key is in use is refused, and
any other one is entered. A run with a call that was refused is, but for that call, the run without
it. -/
theorem keys_in_use_are_keys_in_flight (settings : Settings) (dice : Nat → UInt64)
    (events : List Event) (hcancel : ∀ i, .cancelSend i ∉ events) :
    (reached settings dice events).KeysInUse ∧
      ∀ i call message, (reached settings dice events).sends[i]? = some call →
        call.state = .ended (.failed (.error (.invalidArgument message))) →
        reached settings dice (without i 0 events) = (reached settings dice events).dropSend i := by
  have h := Waited.reached settings dice events hcancel
  refine ⟨h.keysInUse (Accounted.reached settings dice events) (Tabled.reached settings dice events)
    (listedOpen_reached settings dice events), fun i call message found hstate => ?_⟩
  refine reached_without settings dice events fun call' found' => ?_
  obtain rfl := Option.some.inj (found.symm.trans found')
  exact (h i call found).refused message hstate

section

/-- A request of a client to the node, under the only number that it uses. -/
private def encore : Request where
  requestor := "c"
  target := "s"
  callId := 1

/-- The client sends its request again while it is in flight, and once more when it is overdue. -/
def insistence : List Event :=
  [.register 0 "s", .beginSend 0 0 encore, .beginSend 1 1 encore, .turnSend 3000 0,
    .beginSend 3000 2 encore]

theorem keys_in_use_in_insistence : (∀ i, .cancelSend i ∉ insistence) ∧
    (reached {} (fun _ => 0) insistence).sends.map (·.state) =
      [.ended (.failed (.error (.timeout "request c#1 to s" 3000))),
        .ended (.failed (.error (.invalidArgument "request c#1 is already in flight to s"))),
        .underWay (.waiting 0 encore 1 6000)] ∧
    (reached {} (fun _ => 0) insistence).KeysInUse ∧
    reached {} (fun _ => 0) (without 1 0 insistence) =
      (reached {} (fun _ => 0) insistence).dropSend 1 := by
  have hcancel : ∀ i, .cancelSend i ∉ insistence := fun i h => by simp [insistence] at h
  have htheorem := keys_in_use_are_keys_in_flight {} (fun _ => 0) insistence hcancel
  exact ⟨hcancel, by rfl, htheorem.1, htheorem.2 1 _ _ rfl rfl⟩

end

end Replica.Traffic
