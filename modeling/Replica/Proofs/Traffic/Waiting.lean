import Replica.Proofs.Network.Entries
import Replica.Proofs.Traffic.Departures

/-!
# Who waits in a table

A call whose slip is in a table waits for it there, or it has been cancelled, and a call that is told
that its key is in use has no slip (`Standing`). So as long as nobody who sends is cancelled (`Waited`),
the keys in a table are those of the calls that are in flight there (`inFlight_iff`), one call for each
of them (`InFlight.unique`).
-/

namespace Replica

open Network

variable {x : Traffic} {net net' : Network} {call other : SendCall} {i j : Nat} {box : MailboxId}
variable {r : Request} {slip : SlipId} {key : RequestKey} {now deadline : Nat}

/-! ## Calls -/

namespace SendCall

/-- Where a slip is in a table, its call waits for it; and a call whose key was in use has none. -/
structure Placed (net : Network) (call : SendCall) : Prop where
  waits : ∀ box key slip, call.slip? = some slip → net.Awaits box key slip →
    ∃ r deadline, call.state = .underWay (.waiting box r slip deadline)
  refused : ∀ message, call.state = .ended (.failed (.error (.invalidArgument message))) →
    call.slip? = none

/-- Nobody comes into a table with the slip of the call. -/
theorem Placed.keep (h : call.Placed net)
    (hawaits : ∀ box key slip, call.slip? = some slip → net'.Awaits box key slip →
      net.Awaits box key slip) : call.Placed net' :=
  ⟨fun box key slip hslip hw => h.waits box key slip hslip (hawaits box key slip hslip hw), h.refused⟩

/-- A call that has no slip is in no table. -/
theorem Placed.of_none (hnone : call.slip? = none) : call.Placed net :=
  ⟨fun _ _ _ hslip => (nomatch hnone.symm.trans hslip), fun _ _ => hnone⟩

/-- Other calls do not come into a table with the slip of the call. -/
theorem Placed.beside {turned : SendCall} (h : other.Placed net) (hknows : other.KnowsSlip net)
    (hturn : Traffic.Sends net net' call turned) : other.Placed net' := by
  refine h.keep fun box key slip hslip hw => ?_
  cases hturn with
  | keeps hkeeps _ => exact hkeeps.awaits _ _ _ hw
  | enters _ henters _ _ _ =>
    rcases henters.awaits _ _ _ hw with hw | ⟨-, -, rfl⟩
    · exact hw
    · exact absurd (hknows.known _ hslip) (Nat.lt_irrefl _)

/-- A call that has entered nothing yet tries to. -/
theorem Placed.admission (hnet : net.ListedOpen) (hord : net.SlipsUnique) (hnone : call.slip? = none) :
    (call.after net none (net.trySend now box r)).Placed (net.trySend now box r).1 := by
  have hadmission := trySend_admission now box r net
  have hended {outcome : Outcome} (h : (net.trySend now box r).2 = .ended outcome) :=
    trySend_ended hnet hord h
  have hinvalid {message : String}
      (h : (net.trySend now box r).2 = .ended (.error (.invalidArgument message))) :=
    trySend_invalid h
  revert hadmission hended hinvalid
  generalize net.trySend now box r = result
  intro hadmission hended hinvalid
  cases hadmission with
  | blocked wake => exact .of_none ((after_slip?_of_keeps (.refl net) none _ call).trans hnone)
  | refused e => exact .of_none ((after_slip?_of_keeps (.refl net) none _ call).trans hnone)
  | entered deadline henters =>
    have hnew := after_slip?_of_enters henters none
      (.waiting (.waiting box r net.slips.length deadline)) call
    refine ⟨fun box' key' slip hslip hw => ?_, fun message h => nomatch h⟩
    cases hnew.symm.trans hslip
    rcases henters.awaits _ _ _ hw with hw | ⟨rfl, -, -⟩
    · exact absurd (hord.known _ _ _ hw) (Nat.lt_irrefl _)
    · exact ⟨r, deadline, rfl⟩
  | @overdue net' e henters =>
    have hnew := after_slip?_of_enters henters none (.ended (.error e)) call
    constructor
    · intro box' key' slip hslip hw
      cases hnew.symm.trans hslip
      exact absurd hw (hended rfl box' key')
    · intro message hstate
      cases hstate
      -- whoever is refused has changed nothing, and this caller has been entered
      have hsame : net' = net := hinvalid rfl
      exact absurd (hsame ▸ henters.slips) (Nat.ne_of_lt (Nat.lt_succ_self _))

/-- A call that waits looks at its slip. -/
theorem Placed.look (h : call.Placed net) (hnet : net.ListedOpen) (hord : net.SlipsUnique)
    (hknows : call.KnowsSlip net) (hstate : call.state = .underWay (.waiting box r slip deadline))
    (hexpects : net.Expects box r.key slip) :
    (call.after net ((Sending.waiting box r slip deadline).read? net)
      (net.checkSlip now box r slip deadline)).Placed
        (net.checkSlip now box r slip deadline).1 := by
  have hslip := hknows.waiting _ _ _ _ hstate
  have hlook := checkSlip_look now box r slip deadline net
  have hended {outcome : Outcome}
      (h : (net.checkSlip now box r slip deadline).2 = .ended outcome) :=
    checkSlip_ended hnet hord hexpects h
  have hinvalid (message : String) : (∀ outcome, ¬ net.Written slip outcome) →
      (net.checkSlip now box r slip deadline).2 ≠ .ended (.error (.invalidArgument message)) :=
    fun h => checkSlip_ne_invalid h message
  revert hlook hended hinvalid
  generalize net.checkSlip now box r slip deadline = result
  intro hlook hended hinvalid
  cases hlook with
  | reads outcome hwritten =>
    rw [Sending.read?_eq_some hwritten]
    have hsame := after_slip?_of_keeps (.refl net) (some outcome) (.ended outcome) call
    refine ⟨fun box' key' slip' hslip' hw => ?_, fun message hend => nomatch hend⟩
    cases hslip.symm.trans (hsame.symm.trans hslip')
    exact absurd hw (hended rfl box' key')
  | waits hnone =>
    rw [Sending.read?_eq_none hnone]
    have hsame := after_slip?_of_keeps (.refl net) none
      (.waiting (.waiting box r slip deadline)) call
    refine ⟨fun box' key' slip' hslip' hw => ?_, fun message hend => nomatch hend⟩
    obtain ⟨r', deadline', hwaits⟩ := h.waits box' key' slip' (hsame.symm.trans hslip') hw
    cases hstate.symm.trans hwaits
    exact ⟨r, deadline, rfl⟩
  | leaves e hnone hkeeps =>
    rw [Sending.read?_eq_none hnone]
    have hsame := after_slip?_of_keeps hkeeps none (.ended (.error e)) call
    refine ⟨fun box' key' slip' hslip' hw => ?_, fun message hend => ?_⟩
    · cases hslip.symm.trans (hsame.symm.trans hslip')
      exact absurd hw (hended rfl box' key')
    · cases hend
      exact absurd rfl (hinvalid message hnone)

end SendCall

/-! ## Runs -/

namespace Traffic

theorem listedOpen_step (h : x.network.ListedOpen) (ha : x.Accounted) (event : Event) :
    (x.step event).network.ListedOpen := by
  let anything : MailboxId → Request → Prop := fun _ _ => True
  have heffects {net' : Network} (heffects : Effects anything x.network net') : net'.ListedOpen :=
    heffects.listedOpen h
  have hstep := x.stepsTo_step event
  generalize x.step event = y at hstep ⊢
  cases hstep with
  | idles _ => exact h
  | register now node => exact register_listedOpen now node h ha.slipsUnique
  | shutdown now node => exact shutdown_listedOpen now node h ha.slipsUnique
  | clear now => exact clear_listedOpen now h ha.slipsUnique
  | setSwitches box f => exact setSwitches_listedOpen box f h
  | divert owner other => exact divert_listedOpen owner other h
  | note now what => exact ⟨h.void, h.sorted, h.opened⟩
  | beginSend now t r => exact heffects (beginSend_effects now fun _ _ => trivial)
  | turnSend now _ _ => exact heffects (turnSend_effects now fun _ _ _ _ => trivial)
  | cancelSend _ _ => exact heffects (cancelSend_effects _ x.network)
  | beginTake now t node => exact beginTake_listedOpen now t node h
  | turnTake now _ _ => exact turnTake_listedOpen now _ _ h
  | cancelTake _ _ => exact heffects (cancelTake_effects _ _ x.network)
  | beginReply now t r outcome => exact heffects (beginReply_effects now r outcome x.network)
  | turnReply now _ _ => exact heffects (turnReply_effects now _ x.network)
  | cancelReply _ _ => exact h

theorem listedOpen_stable : Stable fun x => x.Accounted ∧ x.network.ListedOpen :=
  fun _ event h => ⟨h.1.step event, listedOpen_step h.2 h.1 event⟩

theorem listedOpen_reached (settings : Settings) (dice : Nat → UInt64) (events : List Event) :
    (reached settings dice events).network.ListedOpen :=
  (listedOpen_stable.run ⟨.new settings dice, listedOpen_fresh settings dice⟩ events).2

/-- Every call that sends is where its slip is, unless it was cancelled. -/
def Standing (x : Traffic) : Prop :=
  ∀ (i : Nat) (call : SendCall), x.sends[i]? = some call → call.state ≠ .cancelled →
    call.Placed x.network

namespace Standing

theorem keep (h : x.Standing)
    (hawaits : ∀ box key slip, net'.Awaits box key slip → x.network.Awaits box key slip)
    (takes : List TakeCall) (replies : List ReplyCall) :
    Standing { x with network := net', takes, replies } := fun i call found hnot =>
  (h i call found hnot).keep fun box key slip _ => hawaits box key slip

/-- A call that sends gets a turn. -/
theorem turnOfSend {f : SendCall → SendCall} (h : x.Standing) (ha : x.Accounted)
    (found : x.sends[i]? = some call) (hturn : Sends x.network net' call (f call))
    (hcall : (f call).state ≠ .cancelled → (f call).Placed net') :
    Standing { x with network := net', sends := x.sends.modify i f } :=
  forall_getElem?_modify
    (fun j other hother hnot => (h j other hother hnot).beside (ha.senders j other hother) hturn)
    found hcall

theorem beginSend (h : x.Standing) (ha : x.Accounted) (hnet : x.network.ListedOpen) (now : Nat)
    (t : TaskId) (r : Request) : (x.beginSend now t r).Standing := by
  have found : (x.sends ++ [({ task := t, request := r } : SendCall)])[x.sends.length]? =
      some { task := t, request := r } :=
    getElem?_concat_eq_some_iff.mpr (.inr ⟨rfl, rfl⟩)
  have hadded : Standing { x with sends := x.sends ++ [{ task := t, request := r }] } := by
    intro i call hi
    rcases getElem?_concat_eq_some_iff.mp hi with hi | ⟨-, rfl⟩
    · exact h i call hi
    · exact fun _ => .of_none rfl
  have hturned := hadded.turnOfSend (f := (·.after x.network none _)) (ha.addSend t r) found
    (ha.beginSend_sends now t r).1 fun _ => ?_
  · rw [← concat_eq_modify] at hturned
    exact hturned
  · unfold Network.beginSend
    split
    · exact .of_none (SendCall.after_slip?_of_keeps (.refl _) none _ _)
    · exact .admission hnet ha.slipsUnique rfl

/-- A later turn of a call that sends. -/
theorem turned (h : x.Standing) (ha : x.Accounted) (hx : x.Tabled) (hnet : x.network.ListedOpen)
    {stage : Sending} (found : x.sends[i]? = some call) (hstate : call.state = .underWay stage)
    (now : Nat) : (call.after x.network (stage.read? x.network)
      (x.network.turnSend now stage)).Placed (x.network.turnSend now stage).1 := by
  have hknows := ha.senders i call found
  cases stage with
  | blocked box r wake =>
    obtain ⟨hnone, -⟩ := hknows.blocked _ _ _ hstate
    rw [Network.turnSend]
    split
    · exact .admission hnet ha.slipsUnique hnone
    · exact .of_none ((SendCall.after_slip?_of_keeps (.refl _) none _ _).trans hnone)
  | waiting box r slip deadline =>
    have hplaced := h i call found fun hcancelled => by cases hstate.symm.trans hcancelled
    exact hplaced.look hnet ha.slipsUnique hknows hstate
      (hx.expects i call box r slip deadline found hstate)

theorem divert (h : x.Standing) (owner : TaskId) (other : PeerId) : (x.divert owner other).Standing := by
  intro i after found hnot
  obtain ⟨before, hbefore, rfl⟩ := Option.map_eq_some_iff.mp (List.getElem?_map.symm.trans found)
  have hplaced := h i before hbefore fun hcancelled => hnot (by rw [hcancelled]; rfl)
  obtain ⟨hwaits, hrefused⟩ := hplaced.keep fun _ _ _ _ =>
    (divert_keepsReplies owner other x.network).awaits _ _ _
  refine ⟨fun box key slip hslip hw => ?_, fun message hstate => hrefused message ?_⟩
  · obtain ⟨r, deadline, hstate⟩ := hwaits box key slip hslip hw
    exact ⟨r.divert owner other, deadline, by rw [hstate]; rfl⟩
  · cases hbefore : before.state with
    | ended e =>
      rw [hbefore] at hstate
      exact hstate
    | _ => rw [hbefore] at hstate; cases hstate

theorem turnOfReply (h : x.Standing) {outcome : Outcome} {result : Network × ReplyProgress}
    (hturn : ReplyTurn r outcome x.network result) (replies : List ReplyCall) :
    Standing { x with network := result.1, replies } := by
  cases hturn with
  | waits wake hkeeps => exact h.keep hkeeps.awaits x.takes _
  | refused e hkeeps => exact h.keep hkeeps.awaits x.takes _
  | missed hcaller hkeeps => exact h.keep hkeeps.awaits x.takes _
  | reached slip hcaller hreaches =>
    exact h.keep (fun box key slip hw => (hreaches.awaits _ _ _ hw).1) x.takes _

theorem step {event : Event} (h : x.Standing) (ha : x.Accounted) (hx : x.Tabled)
    (hnet : x.network.ListedOpen) : (x.step event).Standing := by
  have hstep := x.stepsTo_step event
  generalize x.step event = y at hstep ⊢
  cases hstep with
  | idles _ => exact h
  | register now node => exact h.keep (register_keepsReplies now node x.network).awaits _ _
  | shutdown now node => exact h.keep (shutdown_keepsReplies now node x.network).awaits _ _
  | clear now => exact h.keep (clear_keepsReplies now x.network).awaits _ _
  | setSwitches box f => exact h.keep (setSwitches_keepsReplies box f x.network).awaits _ _
  | divert owner other => exact h.divert owner other
  | note now what => exact h.keep (KeepsReplies.note x.network now what).awaits _ _
  | beginSend now t r => exact h.beginSend ha hnet now t r
  | turnSend now found hstate =>
    exact h.turnOfSend ha found (ha.turnSend_sends found hstate now).1
      fun _ => h.turned ha hx hnet found hstate now
  | cancelSend found _ =>
    -- whoever is cancelled need not stand anywhere
    exact h.turnOfSend ha found (.keeps (cancelSend_keepsReplies _ x.network) rfl)
      fun hnot => absurd rfl hnot
  | beginTake now t node =>
    exact h.keep (beginTake_keepsReplies now t node x.network).awaits _ x.replies
  | turnTake now _ _ => exact h.keep (turnTake_keepsReplies now _ _ x.network).awaits _ x.replies
  | cancelTake _ _ => exact h.keep (cancelTake_keepsReplies _ _ x.network).awaits _ x.replies
  | beginReply now t r outcome => exact h.turnOfReply (beginReply_turn now r outcome ha.slipsUnique) _
  | turnReply now _ _ => exact h.turnOfReply (turnReply_turn now _ ha.slipsUnique) _
  | cancelReply _ _ => exact h

theorem stable :
    Stable fun x => x.Standing ∧ x.Accounted ∧ x.Tabled ∧ x.network.ListedOpen := by
  rintro x event ⟨h, ha, hx, hnet⟩
  exact ⟨h.step ha hx hnet, ha.step event, hx.step ha event, listedOpen_step hnet ha event⟩

theorem reached (settings : Settings) (dice : Nat → UInt64) (events : List Event) :
    (reached settings dice events).Standing := by
  have hnew : Standing { network := { settings, dice } } := fun i call found => nomatch found
  exact (stable.run ⟨hnew, .new settings dice, .new settings dice, listedOpen_fresh settings dice⟩
    events).1

end Standing

/-- A call that has had a turn has not been cancelled by it. -/
theorem after_ne_cancelled (before : Network) (read : Option Outcome)
    (result : Network × SendProgress) (call : SendCall) :
    (call.after before read result).state ≠ .cancelled := by
  obtain ⟨net, stage | outcome⟩ := result <;> nofun

/-- Nobody is cancelled but by an event that says so. -/
theorem ne_cancelled_step (h : ∀ (i : Nat) (call : SendCall), x.sends[i]? = some call →
    call.state ≠ .cancelled) {event : Event} (hcancel : ∀ i, event ≠ .cancelSend i) (i : Nat)
    (call : SendCall) (found : (x.step event).sends[i]? = some call) : call.state ≠ .cancelled := by
  rcases begins_or_sendStep found with ⟨now, t, r, rfl, rfl⟩ | ⟨before, hbefore, hstep⟩
  · exact after_ne_cancelled _ _ _ _
  · cases hstep with
    | stays _ => exact h i call hbefore
    | diverts owner other =>
      exact fun hcancelled => h i before hbefore (CallState.mapStage_eq_cancelled hcancelled)
    | turns now _ => exact after_ne_cancelled _ _ _ _
    | cancels _ => exact absurd rfl (hcancel i)

theorem ne_cancelled_run (h : ∀ (i : Nat) (call : SendCall), x.sends[i]? = some call →
    call.state ≠ .cancelled) {events : List Event} (hcancel : ∀ i, .cancelSend i ∉ events) (i : Nat)
    (call : SendCall) (found : (x.run events).sends[i]? = some call) : call.state ≠ .cancelled := by
  induction events generalizing x with
  | nil => exact h i call found
  | cons event events ih =>
    have hfirst : ∀ i, event ≠ .cancelSend i := fun i heq => hcancel i (heq ▸ List.mem_cons_self)
    exact ih (ne_cancelled_step h hfirst) (fun i hmem => hcancel i (List.mem_cons_of_mem _ hmem))
      found

/-- Every call that sends is where its slip is. -/
def Waited (x : Traffic) : Prop :=
  ∀ (i : Nat) (call : SendCall), x.sends[i]? = some call → call.Placed x.network

theorem Waited.reached (settings : Settings) (dice : Nat → UInt64) (events : List Event)
    (hcancel : ∀ i, .cancelSend i ∉ events) : (reached settings dice events).Waited := by
  have hnone := ne_cancelled_run (x := { network := { settings, dice } })
    (fun i call found => nomatch found) hcancel
  exact fun i call found => Standing.reached settings dice events i call found (hnone i call found)

/-! ## Calls in flight -/

/-- The call waits for a reply from the mailbox, under the key. -/
def WaitsIn (x : Traffic) (box : MailboxId) (key : RequestKey) (i : Nat) (slip : SlipId) : Prop :=
  ∃ call r deadline, x.sends[i]? = some call ∧ call.request.key = key ∧
    call.state = .underWay (.waiting box r slip deadline)

/-- The call waits, and nothing has been done to its slip. -/
def InFlight (x : Traffic) (box : MailboxId) (key : RequestKey) (i : Nat) : Prop :=
  ∃ slip, x.WaitsIn box key i slip ∧ x.network.slips[slip]? = some .blank

/-- Whoever is in flight is in the table. -/
theorem WaitsIn.awaits (h : x.WaitsIn box key i slip) (ha : x.Accounted) (hx : x.Tabled)
    (hblank : x.network.slips[slip]? = some .blank) : x.network.Awaits box key slip := by
  obtain ⟨call, r, deadline, found, rfl, hstate⟩ := h
  obtain ⟨s, hs, -, hwaits⟩ := hx.expects i call box r slip deadline found hstate
  have hawaits := hwaits (Option.some.inj (hs.symm.trans hblank))
  -- the entry has one owner, and its key is that of the owner's request
  obtain ⟨j, owner, howns, hkey, -⟩ := ha.owned _ _ _ hawaits
  have hslip := (ha.senders i call found).waiting _ _ _ _ hstate
  obtain rfl := ha.apart i j slip call owner ⟨found, hslip⟩ howns
  obtain rfl := Option.some.inj (found.symm.trans howns.1)
  exact hkey ▸ hawaits

/-- Whoever is in the table is in flight. -/
theorem Waited.inFlight (h : x.Waited) (ha : x.Accounted) (hx : x.Tabled)
    (hnet : x.network.ListedOpen) (hw : x.network.Awaits box key slip) :
    ∃ i, x.WaitsIn box key i slip ∧ x.network.slips[slip]? = some .blank := by
  obtain ⟨i, call, ⟨found, hslip⟩, hkey, -⟩ := ha.owned _ _ _ hw
  obtain ⟨r, deadline, hstate⟩ := (h i call found).waits box key slip hslip hw
  obtain ⟨s, hs, habandoned, -⟩ := hx.expects i call box r slip deadline found hstate
  refine ⟨i, ⟨call, r, deadline, found, hkey, hstate⟩, hs.trans (congrArg some ?_)⟩
  cases s with
  | blank => rfl
  | filled outcome => exact absurd hs (ha.slipsUnique.unwritten _ _ _ _ hw)
  | void => exact absurd hs (hnet.void _ _ _ hw)
  | abandoned => exact absurd rfl habandoned

/-- At most one call is in flight to a mailbox under a key. -/
theorem InFlight.unique (h : x.InFlight box key i) (h' : x.InFlight box key j) (ha : x.Accounted)
    (hx : x.Tabled) : i = j := by
  obtain ⟨slip, hwaits, hblank⟩ := h
  obtain ⟨slip', hwaits', hblank'⟩ := h'
  obtain ⟨b, found, hmem⟩ := hwaits.awaits ha hx hblank
  obtain ⟨b', found', hmem'⟩ := hwaits'.awaits ha hx hblank'
  obtain rfl := Option.some.inj (found.symm.trans found')
  obtain rfl := (hx.keyed box b found).eq hmem hmem'
  obtain ⟨call, r, deadline, found, -, hstate⟩ := hwaits
  obtain ⟨call', r', deadline', found', -, hstate'⟩ := hwaits'
  exact ha.apart i j slip call call' ⟨found, (ha.senders i call found).waiting _ _ _ _ hstate⟩
    ⟨found', (ha.senders j call' found').waiting _ _ _ _ hstate'⟩

/-- A key is in the table of a mailbox if and only if a call is in flight there under it. -/
theorem Waited.inFlight_iff (h : x.Waited) (ha : x.Accounted) (hx : x.Tabled)
    (hnet : x.network.ListedOpen) {b : Mailbox} (found : x.network.mailboxes[box]? = some b) :
    (∃ i, x.InFlight box key i) ↔ key ∈ b.replies.map (·.1) := by
  constructor
  · rintro ⟨i, slip, hwaits, hblank⟩
    obtain ⟨c, hc, hmem⟩ := hwaits.awaits ha hx hblank
    obtain rfl := Option.some.inj (hc.symm.trans found)
    exact List.mem_map.mpr ⟨_, hmem, rfl⟩
  · intro hkey
    obtain ⟨⟨_, slip⟩, hmem, rfl⟩ := List.mem_map.mp hkey
    obtain ⟨i, hwaits, hblank⟩ := h.inFlight ha hx hnet ⟨b, found, hmem⟩
    exact ⟨i, slip, hwaits, hblank⟩

/-- When no call can go on, everybody who waits is in flight. -/
theorem IsQuiet.inFlight (h : x.IsQuiet now) (hwaits : x.WaitsIn box key i slip) :
    x.InFlight box key i := by
  refine ⟨slip, hwaits, ?_⟩
  obtain ⟨call, r, deadline, found, -, hstate⟩ := hwaits
  have hstuck := h.sends i call _ found hstate
  simp only [sendReady, Bool.or_eq_false_iff, decide_eq_false_iff_not, not_not] at hstuck
  exact hstuck.1

end Traffic

end Replica
