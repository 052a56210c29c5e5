import Replica.Proofs.Network.Lasting
import Replica.Proofs.Traffic.History
import Replica.Proofs.Traffic.Keys
import Replica.Proofs.Traffic.Outcomes

/-!
# What cancelled senders leave behind

A sender that is cancelled while it waits for its reply gives up its slip, and nothing else: its entry
stays in the table, and its key stays in use.
-/

namespace Replica.Traffic

open Network

variable {x : Traffic} {i : Nat} {call : SendCall} {box : MailboxId} {b : Mailbox} {r : Request}
variable {key : RequestKey} {slip : SlipId} {event : Event} {now deadline : Nat}

/-! ## Entries -/

/-- Whoever is in a table stays there, whatever others do, until its mailbox is closed or a reply
reaches it. -/
theorem awaits_step (h : x.Lawful) (howns : x.Owns i slip call)
    (hw : x.network.Awaits box key slip) (hturn : ∀ now, event ≠ .turnSend now i) :
    (x.step event).network.Awaits box key slip ∨ (x.step event).network.IsClosed box ∨
      ∃ j reply, (x.step event).Reaches j slip reply := by
  by_cases hsends : ∃ now k, event = .turnSend now k
  · obtain ⟨now, k, rfl⟩ := hsends
    refine .inl (turnSend_awaits h.accounted h.tabled hw fun other hother hslip => hturn now ?_)
    rw [h.accounted.apart k i slip other call ⟨hother, hslip⟩ howns]
  have hlasts {y : Traffic} (hlasts : Lasts x.network y.network) :
      y.network.Awaits box key slip ∨ y.network.IsClosed box ∨ ∃ j reply, y.Reaches j slip reply :=
    (hlasts box key slip hw).imp_right .inl
  have hstep := x.stepsTo_step event
  generalize x.step event = y at hstep ⊢
  cases hstep with
  | idles _ => exact .inl hw
  | register now node => exact hlasts (register_lasts now node x.network)
  | shutdown now node => exact hlasts (shutdown_lasts now node x.network)
  | clear now => exact hlasts (clear_lasts now x.network)
  | setSwitches box f => exact hlasts (setSwitches_lasts box f x.network)
  | divert owner other => exact hlasts (divert_lasts owner other x.network)
  | note now what => exact .inl hw
  | beginSend now t r =>
    refine .inl ?_
    rw [Traffic.beginSend, Network.beginSend]
    split
    · exact hw
    · exact trySend_awaits h.tabled.keyed h.accounted.slipsUnique hw
  | turnSend now _ _ => exact absurd ⟨now, _, rfl⟩ hsends
  | @cancelSend _ _ stage _ _ => cases stage <;> exact .inl hw
  | beginTake now t node => exact hlasts (beginTake_lasts now t node x.network)
  | turnTake now _ _ => exact hlasts (turnTake_lasts now _ _ x.network)
  | cancelTake _ _ => exact hlasts (cancelTake_lasts _ _ x.network)
  | beginReply now t r outcome =>
    refine (beginReply_awaits now r outcome h.tabled.keyed hw).imp_right fun hends => .inr ?_
    obtain ⟨hcaller, hended⟩ := hends
    refine ⟨x.replies.length, _, List.getElem?_concat_length, ?_⟩
    dsimp only
    rw [hcaller, hended]
    rfl
  | @turnReply now k reply stage found _ =>
    refine (turnReply_awaits now stage h.tabled.keyed hw).imp_right fun hends => .inr ?_
    obtain ⟨hcaller, hended⟩ := hends
    refine ⟨k, _, getElem?_modify_eq_some_iff.mpr ⟨reply, found, if_pos rfl⟩, ?_⟩
    dsimp only
    rw [hcaller, hended]
    rfl
  | cancelReply _ _ => exact .inl hw

/-- From the cancellation on nobody looks at the slip, and the entry stays until the mailbox is closed
or a reply reaches it. -/
theorem awaits_run_iff (h : x.Lawful) (howns : x.Owns i slip call) (hidle : call.state.stage? = none)
    (hw : x.network.Awaits box key slip) (later : List Event) :
    (x.run later).network.Awaits box key slip ↔
      ¬ (x.run later).network.IsClosed box ∧ ∀ j reply, ¬ (x.run later).Reaches j slip reply := by
  have hlawful := h.run later
  constructor
  · exact fun hw' => ⟨hlawful.closings.not_isClosed hw',
      fun j reply hreach => hlawful.accounted.struck j slip reply hreach _ _ hw'⟩
  · rintro ⟨hopen, hunreached⟩
    clear hlawful
    induction later generalizing x call with
    | nil => exact hw
    | cons event later ih =>
      obtain ⟨call', found', hslip, hstate⟩ := sends_step_of_idle howns.1 hidle event
      have hlawful := h.step event
      have hsettled : Stable fun x => x.network.IsClosed box ∨ ∃ j reply, x.Reaches j slip reply := by
        rintro x event (hclosed | ⟨j, reply, hreach⟩)
        · exact .inl ((step_moves x event).closed box hclosed).2
        · exact .inr ⟨j, reply, hreach.step event⟩
      refine ih hlawful ⟨found', hslip.trans howns.2⟩ (hstate ▸ hidle) ?_ hopen hunreached
      by_cases hturn : ∃ now, event = .turnSend now i
      · obtain ⟨now, rfl⟩ := hturn
        rw [Traffic.step, turnSend_of_idle howns.1 hidle]
        exact hw
      · rcases awaits_step h howns hw fun now heq => hturn ⟨now, heq⟩ with hw' | hsettles
        · exact hw'
        · rcases hsettled.run hsettles later with hclosed | ⟨j, reply, hreach⟩
          · exact absurd hclosed hopen
          · exact absurd hreach (hunreached j reply)

/-! ## Counting entries -/

end Replica.Traffic

namespace Replica.SendCall

/-- The call waits for a reply from the mailbox. -/
def waitsAt (box : MailboxId) (call : SendCall) : Bool :=
  match call.state with
  | .underWay (.waiting box' _ _ _) => box' == box
  | _ => false

/-- The call was cancelled, and its entry is in the table. -/
def leftAt (b : Mailbox) (call : SendCall) : Bool :=
  match call.state, call.slip? with
  | .cancelled, some slip => b.slips.contains slip
  | _, _ => false

variable {call : SendCall} {box : MailboxId} {b : Mailbox}

theorem waitsAt_iff : call.waitsAt box = true ↔
    ∃ r slip deadline, call.state = .underWay (.waiting box r slip deadline) := by
  unfold waitsAt
  split
  · next box' r slip deadline hstate =>
    rw [beq_iff_eq, hstate]
    constructor
    · rintro rfl
      exact ⟨r, slip, deadline, rfl⟩
    · rintro ⟨r', slip', deadline', heq⟩
      cases heq
      rfl
  · next hnot => exact ⟨nofun, fun ⟨r, slip, deadline, hstate⟩ => absurd hstate (hnot _ _ _ _)⟩

theorem leftAt_iff : call.leftAt b = true ↔
    call.state = .cancelled ∧ ∃ slip, call.slip? = some slip ∧ slip ∈ b.slips := by
  unfold leftAt
  split
  · next slip hstate hslip => simp [hstate, hslip]
  · next hnot =>
    exact ⟨nofun, fun ⟨hstate, slip, hslip, _⟩ => absurd hslip (hnot slip hstate)⟩

theorem not_leftAt_of_waitsAt (h : call.waitsAt box = true) : call.leftAt b = false := by
  obtain ⟨r, slip, deadline, hstate⟩ := waitsAt_iff.mp h
  refine Bool.eq_false_iff.mpr fun hleft => ?_
  exact nomatch hstate.symm.trans (leftAt_iff.mp hleft).1

end Replica.SendCall

namespace Replica.Traffic

open Network

variable {x : Traffic} {i : Nat} {call : SendCall} {box : MailboxId} {b : Mailbox} {r : Request}
variable {key : RequestKey} {slip : SlipId} {event : Event} {now deadline : Nat}

theorem mem_slips_iff : slip ∈ b.slips ↔ ∃ key, (key, slip) ∈ b.replies := by
  simp [Mailbox.slips]

/-- Whoever has an entry in a table waits there, or was cancelled. -/
theorem mem_slips_iff_of_quiet (h : x.Lawful) (hstanding : x.Standing) (hquiet : x.IsQuiet now)
    (found : x.network.mailboxes[box]? = some b) :
    slip ∈ b.slips ↔ ∃ call ∈ x.sends, (call.waitsAt box || call.leftAt b) = true ∧
      call.slip? = some slip := by
  constructor
  · intro hslip
    obtain ⟨key, hmem⟩ := mem_slips_iff.mp hslip
    obtain ⟨i, call, ⟨hcall, hown⟩, -⟩ := h.accounted.owned box key slip ⟨b, found, hmem⟩
    refine ⟨call, List.mem_of_getElem? hcall, Bool.or_eq_true_iff.mpr ?_, hown⟩
    by_cases hcancelled : call.state = .cancelled
    · exact .inr (SendCall.leftAt_iff.mpr ⟨hcancelled, slip, hown, hslip⟩)
    · obtain ⟨r, deadline, hstate⟩ :=
        (hstanding i call hcall hcancelled).waits box key slip hown ⟨b, found, hmem⟩
      exact .inl (SendCall.waitsAt_iff.mpr ⟨r, slip, deadline, hstate⟩)
  · rintro ⟨call, hmem, hplace, hown⟩
    obtain ⟨i, hcall⟩ := List.getElem?_of_mem hmem
    rcases Bool.or_eq_true_iff.mp hplace with hwaits | hleft
    · obtain ⟨r, slip', deadline, hstate⟩ := SendCall.waitsAt_iff.mp hwaits
      cases hown.symm.trans ((h.accounted.senders i call hcall).waiting _ _ _ _ hstate)
      have hin : x.WaitsIn box call.request.key i slip := ⟨call, r, deadline, hcall, rfl, hstate⟩
      obtain ⟨slip', hwaits', hblank⟩ := hquiet.inFlight hin
      obtain ⟨call', r', deadline', hcall', -, hstate'⟩ := hwaits'
      obtain rfl := Option.some.inj (hcall.symm.trans hcall')
      cases hstate.symm.trans hstate'
      obtain ⟨c, hc, hmem⟩ := hin.awaits h.accounted h.tabled hblank
      obtain rfl := Option.some.inj (found.symm.trans hc)
      exact mem_slips_iff.mpr ⟨_, hmem⟩
    · obtain ⟨-, slip', hslip', hmem⟩ := SendCall.leftAt_iff.mp hleft
      cases hown.symm.trans hslip'
      exact hmem

theorem nodup_slips (h : x.Lawful) (found : x.network.mailboxes[box]? = some b) : b.slips.Nodup := by
  have hreplies : b.replies.Nodup := (h.tabled.keyed box b found).of_map
  refine hreplies.map_on fun p hp q hq heq => Prod.ext ?_ heq
  exact (h.accounted.slipsUnique.apart box box p.1 q.1 p.2 ⟨b, found, hp⟩ ⟨b, found, heq ▸ hq⟩).2

/-- Calls that have slips have different ones. -/
theorem nodup_slips_of_sends (h : x.Accounted) (p : SendCall → Bool)
    (hslip : ∀ call ∈ x.sends, p call = true → call.slip? ≠ none) :
    ((x.sends.filter p).map (·.slip?)).Nodup := by
  have hapart : x.sends.Pairwise fun call call' => ∀ slip, call.slip? = some slip →
      call'.slip? ≠ some slip := by
    refine List.pairwise_iff_getElem.mpr fun i j hi hj hlt slip hslip hslip' => ?_
    exact Nat.ne_of_lt hlt (h.apart i j slip _ _ ⟨List.getElem?_eq_getElem hi, hslip⟩
      ⟨List.getElem?_eq_getElem hj, hslip'⟩)
  refine List.pairwise_map.mpr ((hapart.sublist List.filter_sublist).imp_of_mem ?_)
  intro call call' hmem _ hne heq
  obtain ⟨hmem, hp⟩ := List.mem_filter.mp hmem
  obtain ⟨slip, hsome⟩ := Option.ne_none_iff_exists'.mp (hslip call hmem hp)
  exact hne slip hsome (heq.symm.trans hsome)

theorem countP_or {α : Type} {p q : α → Bool} {l : List α} (h : ∀ a ∈ l, p a = true → q a = false) :
    l.countP (fun a => p a || q a) = l.countP p + l.countP q := by
  induction l with
  | nil => rfl
  | cons a l ih =>
    have hrest := ih fun b hb => h b (List.mem_cons_of_mem _ hb)
    have ha := h a List.mem_cons_self
    simp only [List.countP_cons, hrest]
    cases hp : p a <;> cases hq : q a <;> simp_all <;> omega

/-- When no call can go on, a table has as many entries as calls wait there, and one more for each call
that was cancelled and has its entry there still. -/
theorem length_replies (h : x.Lawful) (hstanding : x.Standing) (hquiet : x.IsQuiet now)
    (found : x.network.mailboxes[box]? = some b) :
    b.replies.length = x.sends.countP (·.waitsAt box) + x.sends.countP (·.leftAt b) := by
  let placed (call : SendCall) : Bool := call.waitsAt box || call.leftAt b
  have hslip : ∀ call ∈ x.sends, placed call = true → call.slip? ≠ none := by
    intro call hmem hplaced
    rcases Bool.or_eq_true_iff.mp hplaced with hwaits | hleft
    · obtain ⟨r, slip, deadline, hstate⟩ := SendCall.waitsAt_iff.mp hwaits
      obtain ⟨i, hcall⟩ := List.getElem?_of_mem hmem
      exact Option.ne_none_iff_exists'.mpr
        ⟨slip, (h.accounted.senders i call hcall).waiting _ _ _ _ hstate⟩
    · obtain ⟨-, slip, hslip, -⟩ := SendCall.leftAt_iff.mp hleft
      exact Option.ne_none_iff_exists'.mpr ⟨slip, hslip⟩
  have hperm : (b.slips.map some).Perm ((x.sends.filter placed).map (·.slip?)) := by
    refine (List.perm_ext_iff_of_nodup ((nodup_slips h found).map fun _ _ => Option.some.inj)
      (nodup_slips_of_sends h.accounted placed hslip)).mpr fun slip? => ?_
    simp only [List.mem_map, List.mem_filter]
    constructor
    · rintro ⟨slip, hmem, rfl⟩
      obtain ⟨call, hcall, hplaced, hown⟩ :=
        (mem_slips_iff_of_quiet h hstanding hquiet found).mp hmem
      exact ⟨call, ⟨hcall, hplaced⟩, hown⟩
    · rintro ⟨call, ⟨hcall, hplaced⟩, rfl⟩
      obtain ⟨slip, hown⟩ := Option.ne_none_iff_exists'.mp (hslip call hcall hplaced)
      exact ⟨slip, (mem_slips_iff_of_quiet h hstanding hquiet found).mpr
        ⟨call, hcall, hplaced, hown⟩, hown.symm⟩
  have hlength := hperm.length_eq
  rw [List.length_map, List.length_map, ← List.countP_eq_length_filter] at hlength
  rw [← countP_or fun call _ => SendCall.not_leftAt_of_waitsAt, ← hlength, Mailbox.slips,
    List.length_map]

/-! ## The law of cancelled senders -/

/-- What senders leave behind that are cancelled, in the traffic as it is. -/
structure LeavesEntries (x : Traffic) : Prop where
  /-- Besides the calls that wait, a table counts those that were cancelled while they waited. -/
  counted : ∀ now, x.IsQuiet now → ∀ (box : MailboxId) (b : Mailbox),
    x.network.mailboxes[box]? = some b →
      b.replies.length = x.sends.countP (·.waitsAt box) + x.sends.countP (·.leftAt b)
  /-- A call that is cancelled while it is blocked has no entry, and leaves the network as it is. -/
  blocked : ∀ (i : Nat) (call : SendCall) (box : MailboxId) (r : Request) (wake : Nat),
    x.sends[i]? = some call → call.state = .underWay (.blocked box r wake) →
      call.slip? = none ∧ (x.cancelSend i).network = x.network
  /-- A call that is cancelled while it waits leaves all tables as they are. As long as nothing was on
  its slip, its entry stays, whatever happens later, until its mailbox is closed or a reply reaches
  it; otherwise it has none. -/
  waiting : ∀ (i : Nat) (call : SendCall) (box : MailboxId) (r : Request) (slip : SlipId)
    (deadline : Nat), x.sends[i]? = some call →
      call.state = .underWay (.waiting box r slip deadline) →
      (x.cancelSend i).network.mailboxes = x.network.mailboxes ∧
        if x.network.slips[slip]? = some .blank then
          ∀ later, ((x.cancelSend i).run later).network.Awaits box r.key slip ↔
            ¬ ((x.cancelSend i).run later).network.IsClosed box ∧
              ∀ j reply, ¬ ((x.cancelSend i).run later).Reaches j slip reply
        else ∀ box key, ¬ x.network.Awaits box key slip
  /-- A sender that comes while an entry has its key is refused, and changes nothing. -/
  refused : ∀ box b r now i event, x.Comes box r now i event →
    x.network.mailboxes[box]? = some b → b.isBlocked = false → r.key ∈ b.replies.map (·.1) →
      (x.step event).network = x.network ∧ ∃ call, (x.step event).sends[i]? = some call ∧
        call.state = .ended (.failed (.error (inFlight r.key b)))
  /-- A sender that comes while no entry has its key is entered. -/
  admitted : ∀ box b r now i event, x.Comes box r now i event →
    x.network.mailboxes[box]? = some b → b.isBlocked = false → b.closed = false →
      r.key ∉ b.replies.map (·.1) → x.Admitted event box b r now i

/-- A slip that something was done to is in no table. -/
theorem not_awaits_of_ne_blank (h : x.Lawful) {s : Slip} (hs : x.network.slips[slip]? = some s)
    (hblank : s ≠ .blank) (hlooks : s ≠ .abandoned) : ¬ x.network.Awaits box key slip := by
  intro hw
  cases s with
  | blank => exact hblank rfl
  | filled outcome => exact h.accounted.slipsUnique.unwritten _ _ _ _ hw hs
  | void => exact h.listedOpen.void _ _ _ hw hs
  | abandoned => exact hlooks rfl

/-- In every run, with any settings and any numbers from the random source: a call that is cancelled
while it waits for its reply stays in the table of the node, is counted there, and keeps its key in use
until a reply to it is handed over or the mailbox is closed. -/
theorem cancelled_senders_leave_entries (settings : Settings) (dice : Nat → UInt64)
    (events : List Event) : (reached settings dice events).LeavesEntries := by
  have h := lawful_reached settings dice events
  have hstanding := Standing.reached settings dice events
  revert h hstanding
  generalize reached settings dice events = x
  intro h hstanding
  refine ⟨fun now hquiet box b found => length_replies h hstanding hquiet found, ?_, ?_,
    fun box b r now i event hcomes found hfree hkey => hcomes.refused found hfree hkey,
    fun box b r now i event hcomes found hfree hopen hkey => hcomes.admitted found hfree hopen hkey⟩
  · intro i call box r wake found hstate
    refine ⟨((h.accounted.senders i call found).blocked _ _ _ hstate).1, ?_⟩
    rw [cancelSend_eq found hstate]
    rfl
  · intro i call box r slip deadline found hstate
    obtain ⟨s, hs, hlooks, hwaits⟩ := h.tabled.expects i call box r slip deadline found hstate
    have hmailboxes : (x.cancelSend i).network.mailboxes = x.network.mailboxes := by
      rw [cancelSend_eq found hstate]
      rfl
    refine ⟨hmailboxes, ?_⟩
    split
    · next hblank =>
      intro later
      have hslip := (h.accounted.senders i call found).waiting _ _ _ _ hstate
      have hcancelled : (x.cancelSend i).Owns i slip { call with state := .cancelled } := by
        rw [cancelSend_eq found hstate]
        exact ⟨getElem?_modify_eq_some_iff.mpr ⟨call, found, if_pos rfl⟩, hslip⟩
      have hlawful : (x.cancelSend i).Lawful := h.step (.cancelSend i)
      refine awaits_run_iff hlawful hcancelled rfl ?_ later
      rw [Awaits, hmailboxes]
      exact hwaits (Option.some.inj (hs.symm.trans hblank))
    · next hblank =>
      exact fun box key => not_awaits_of_ne_blank h hs (fun heq => hblank (heq ▸ hs)) hlooks

section

/-- A request of a client to the node, under the only number that it uses. -/
private def plea : Request where
  requestor := "c"
  target := "s"
  callId := 1

/-- The client gives up its request while it waits for the reply, and sends it again. -/
def resignation : List Event :=
  [.register 0 "s", .beginSend 0 0 plea, .cancelSend 0, .beginSend 0 1 plea]

/-- No call waits after the cancellation, but one is counted, and the next call under the key is
refused. -/
theorem entry_left_by_resignation :
    (reached {} (fun _ => 0) (resignation.take 3)).IsQuiet 0 ∧
      (reached {} (fun _ => 0) (resignation.take 3)).sends.countP (·.waitsAt 0) = 0 ∧
      (reached {} (fun _ => 0) (resignation.take 3)).network.mailboxes.map (·.replies.length) = [1] ∧
      (reached {} (fun _ => 0) resignation).sends.map (·.state) =
        [.cancelled,
          .ended (.failed (.error (.invalidArgument "request c#1 is already in flight to s")))] :=
  ⟨isQuiet_of_eq_true (by rfl), by rfl, by rfl, by rfl⟩

end

end Replica.Traffic
