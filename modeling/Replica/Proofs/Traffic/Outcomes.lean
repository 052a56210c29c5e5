import Replica.Proofs.Network.Onward
import Replica.Proofs.Traffic.Clock
import Replica.Proofs.Traffic.Waiting

/-!
# What a call that waits can come to

A call that waits for a reply stands in a table, with a slip on which nothing has been done, until a
reply fills its slip, or its mailbox is closed, or it gets a turn (`Lawful.pending_step`). Once its entry
is gone and no reply has reached it, none ever will (`Missed.step`).
-/

namespace Replica

open Network

/-- A call that has reached somebody has found it. -/
theorem ReplyEnd.eq_some_of_reached {slip : SlipId} {caller : Option SlipId}
    {progress : ReplyProgress}
    (h : CallState.ofProgress (ReplyEnd.of caller) progress = .ended (.reached slip)) :
    caller = some slip := by
  cases progress with
  | waiting stage => cases h
  | ended result =>
    cases result with
    | error e => cases h
    | ok _ =>
      cases caller with
      | none => cases h
      | some s =>
        cases h
        rfl

namespace Traffic

variable {x y : Traffic} {i j : Nat} {call : SendCall} {box : MailboxId} {node : PeerId}
variable {key : RequestKey} {slip : SlipId} {event : Event} {deadline now : Nat} {reply : ReplyCall}

/-! ## Traffic that is reached -/

/-- What holds of all traffic that is reached. -/
structure Lawful (x : Traffic) : Prop where
  accounted : x.Accounted
  tabled : x.Tabled
  listedOpen : x.network.ListedOpen
  closings : x.network.Sealed

/-- Whatever happens, callers can rely on what they rely on, all but the one whose turn it is. -/
theorem step_onward (ha : x.Accounted) (hx : x.Tabled) (event : Event) :
    ∃ own, Onward own x.network (x.step event).network ∧
      ∀ slip, own = some slip → ∃ i call, x.Owns i slip call ∧ event.IsOf i := by
  let anything : MailboxId → Request → Prop := fun _ _ => True
  have hnobody (net' : Network) (h : Onward none x.network net') :
      ∃ own, Onward own x.network net' ∧
        ∀ slip, own = some slip → ∃ i call, x.Owns i slip call ∧ event.IsOf i :=
    ⟨none, h, nofun⟩
  have hstep := x.stepsTo_step event
  generalize x.step event = y at hstep ⊢
  cases hstep with
  | idles _ => exact hnobody _ (.refl _)
  | register now node => exact hnobody _ (register_onward now node ha.slipsUnique)
  | shutdown now node => exact hnobody _ (shutdown_onward now node ha.slipsUnique)
  | clear now => exact hnobody _ (clear_onward now ha.slipsUnique)
  | setSwitches box f => exact hnobody _ (setSwitches_onward box f x.network)
  | divert owner other => exact hnobody _ (divert_onward owner other x.network)
  | note now what =>
    exact hnobody _ (.of_steady (.note _ now what) (.note _ now what) fun _ hblank hvoid =>
      nomatch hblank.symm.trans hvoid)
  | beginSend now t r =>
    have heffects : Effects anything x.network (x.network.beginSend now r).1 :=
      beginSend_effects now fun _ _ => trivial
    exact hnobody _ (heffects.onward (beginSend_ages now r hx.keyed))
  | @turnSend now i call stage found hstate =>
    have heffects : Effects anything x.network (x.network.turnSend now stage).1 :=
      turnSend_effects now fun _ _ _ _ => trivial
    refine ⟨stage.slip?, heffects.onward
      (turnSend_ages now hx.keyed (hx.expects_of_waiting found hstate)), fun slip hslip => ?_⟩
    exact ⟨i, call, ⟨found, (ha.senders i call found).slip?_eq hstate hslip⟩, .inl ⟨now, rfl⟩⟩
  | @cancelSend i call stage found hstate =>
    have heffects : Effects anything _ _ := cancelSend_effects stage x.network
    refine ⟨stage.slip?, heffects.onward (cancelSend_ages stage x.network), fun slip hslip => ?_⟩
    exact ⟨i, call, ⟨found, (ha.senders i call found).slip?_eq hstate hslip⟩, .inr rfl⟩
  | beginTake now t node => exact hnobody _ (beginTake_onward now t node x.network)
  | turnTake now _ _ => exact hnobody _ (turnTake_onward now _ _ x.network)
  | @cancelTake _ call stage _ _ =>
    have heffects : Effects anything _ _ := cancelTake_effects call.task stage x.network
    exact hnobody _ (heffects.onward (cancelTake_ages call.task stage x.network))
  | beginReply now t r outcome =>
    have heffects : Effects anything _ _ := beginReply_effects now r outcome x.network
    exact hnobody _ (heffects.onward (beginReply_ages now r outcome hx.keyed))
  | @turnReply now _ _ stage _ _ =>
    have heffects : Effects anything _ _ := turnReply_effects now stage x.network
    exact hnobody _ (heffects.onward (turnReply_ages now stage hx.keyed))
  | cancelReply _ _ => exact hnobody _ (.refl _)

theorem Lawful.step (h : x.Lawful) (event : Event) : (x.step event).Lawful := by
  obtain ⟨own, honward, -⟩ := step_onward h.accounted h.tabled event
  exact ⟨h.accounted.step event, h.tabled.step h.accounted event,
    listedOpen_step h.listedOpen h.accounted event, h.closings.onward honward⟩

theorem Lawful.stable : Stable Lawful := fun _ event h => h.step event

theorem Lawful.run (h : x.Lawful) (events : List Event) : (x.run events).Lawful :=
  stable.run h events

theorem lawful_reached (settings : Settings) (dice : Nat → UInt64) (events : List Event) :
    (reached settings dice events).Lawful := by
  have hnew : Lawful { network := { settings, dice } } :=
    ⟨.new settings dice, .new settings dice, listedOpen_fresh settings dice, sealed_fresh settings dice⟩
  exact hnew.run events

theorem Lawful.settings (h : x.Lawful) (events : List Event) :
    (x.run events).network.settings = x.network.settings := by
  induction events generalizing x with
  | nil => rfl
  | cons event events ih =>
    obtain ⟨own, honward, -⟩ := step_onward h.accounted h.tabled event
    exact (ih (h.step event)).trans honward.settings

/-! ## Entries -/

/-- An event that does not look at the clock writes on no slip. -/
theorem slips_of_untimed (h : event.time? = none) (hblank : x.network.slips[slip]? = some .blank) :
    (x.step event).network.slips[slip]? = some .blank ∨
      (x.step event).network.slips[slip]? = some .abandoned := by
  have hstep := x.stepsTo_step event
  generalize x.step event = y at hstep ⊢
  cases hstep with
  | idles _ | setSwitches | divert | cancelReply => exact .inl hblank
  | @cancelSend _ _ stage _ _ =>
    cases stage with
    | blocked box r wake => exact .inl hblank
    | waiting box r slip' deadline =>
      rcases getElem?_modify_cases hblank slip' with ⟨-, hslip⟩ | ⟨-, hslip⟩
      · exact .inr (hslip _)
      · exact .inl (hslip _)
  | @cancelTake _ _ stage _ _ => cases stage <;> exact .inl hblank
  | _ => cases h

/-- A call that waits goes on waiting, unless its mailbox is closed or an outcome comes onto its
slip. -/
theorem Lawful.pending_step (h : x.Lawful) (hpending : x.network.Pending box node key slip)
    (howns : x.Owns i slip call) (hother : ¬ event.IsOf i) :
    (x.step event).network.Pending box node key slip ∨
      ∃ now, event.time? = some now ∧
        (((x.step event).network.Shut box node ∧
            (x.step event).network.slips[slip]? = some .void) ∨
          ∃ outcome, (x.step event).network.Written slip outcome) := by
  obtain ⟨own, honward, howner⟩ := step_onward h.accounted h.tabled event
  have hown : own ≠ some slip := fun heq => by
    obtain ⟨j, other, hj, hof⟩ := howner slip heq
    exact hother (h.accounted.apart j i slip other call hj howns ▸ hof)
  rcases hpending.onward honward hown with hpending' | hdone
  · exact .inl hpending'
  · right
    cases htime : event.time? with
    | some now => exact ⟨now, rfl, hdone⟩
    | none =>
      rcases slips_of_untimed htime hpending.blank with hs | hs <;>
        rcases hdone with ⟨-, hvoid⟩ | ⟨outcome, hwritten⟩
      · cases hs.symm.trans hvoid
      · cases hs.symm.trans hwritten
      · cases hs.symm.trans hvoid
      · cases hs.symm.trans hwritten

/-! ## Replies -/

/-- A reply with the outcome has reached the caller with the slip. -/
def Answered (slip : SlipId) (outcome : Outcome) (x : Traffic) : Prop :=
  ∃ j reply, x.Reaches j slip reply ∧ reply.outcome = outcome

/-- A reply that has reached a caller has done so for good. -/
theorem Reaches.step (h : x.Reaches j slip reply) (event : Event) :
    (x.step event).Reaches j slip reply := by
  obtain ⟨found, hended⟩ := h
  obtain ⟨reply', found', hstep⟩ := exists_replyStep found event
  cases hstep with
  | stays _ => exact ⟨found', hended⟩
  | diverts owner other => exact reaches_divert_iff.mpr ⟨found, hended⟩
  | turns now hstate => cases hended.symm.trans hstate
  | cancels hstate => cases hended.symm.trans hstate

theorem answered_stable (slip : SlipId) (outcome : Outcome) : Stable (Answered slip outcome) := by
  rintro x event ⟨j, reply, hreach, houtcome⟩
  exact ⟨j, reply, hreach.step event, houtcome⟩

/-- A reply that reaches a caller finds it in a table. -/
theorem reaches_step (ha : x.Accounted) (h : (x.step event).Reaches j slip reply) :
    x.Reaches j slip reply ∨ ∃ box key, x.network.Awaits box key slip := by
  have hfinds {r : Request} (hcaller : x.network.caller? r = some slip) :
      ∃ box key, x.network.Awaits box key slip := by
    obtain ⟨box, hw, -⟩ := awaits_of_caller? ha.slipsUnique hcaller
    exact ⟨box, _, hw⟩
  obtain ⟨found', hended⟩ := h
  rcases begins_or_replyStep found' with ⟨now, t, r, outcome, rfl, rfl⟩ | ⟨before, found, hstep⟩
  · exact .inr (hfinds (ReplyEnd.eq_some_of_reached hended))
  · cases hstep with
    | stays _ => exact .inl ⟨found, hended⟩
    | diverts owner other => exact .inl (reaches_divert_iff.mp ⟨found', hended⟩)
    | turns now _ => exact .inr (hfinds (ReplyEnd.eq_some_of_reached hended))
    | cancels _ => cases hended

/-- Nobody waits with the slip any more, and no reply has reached anybody with it. -/
structure Missed (x : Traffic) (slip : SlipId) : Prop where
  known : slip < x.network.slips.length
  unawaited : ∀ box key, ¬ x.network.Awaits box key slip
  unreached : ∀ j reply, ¬ x.Reaches j slip reply

/-- Slips are kept, and nobody is entered with a slip that is there already. -/
def KeepsSlips (net net' : Network) : Prop :=
  net.slips.length ≤ net'.slips.length ∧ ∀ box key slip, slip < net.slips.length →
    net'.Awaits box key slip → net.Awaits box key slip

theorem keepsSlips_of_keeps {net net' : Network} (h : KeepsReplies net net') : KeepsSlips net net' :=
  ⟨h.slips.ge, fun _ _ _ _ => h.awaits _ _ _⟩

theorem Sends.keepsSlips {net net' : Network} {call call' : SendCall} (h : Sends net net' call call') :
    KeepsSlips net net' := by
  cases h with
  | keeps hkeeps _ => exact keepsSlips_of_keeps hkeeps
  | enters box henters _ _ _ =>
    refine ⟨henters.slips ▸ Nat.le_succ _, fun box key slip hlt hw => ?_⟩
    rcases henters.awaits _ _ _ hw with hw | ⟨-, -, rfl⟩
    · exact hw
    · exact absurd hlt (Nat.lt_irrefl _)

theorem keepsSlips_of_replyTurn {net : Network} {r : Request} {outcome : Outcome}
    {result : Network × ReplyProgress} (h : ReplyTurn r outcome net result) :
    KeepsSlips net result.1 := by
  cases h with
  | waits wake hkeeps => exact keepsSlips_of_keeps hkeeps
  | refused e hkeeps => exact keepsSlips_of_keeps hkeeps
  | missed hcaller hkeeps => exact keepsSlips_of_keeps hkeeps
  | reached slip hcaller hreaches =>
    exact ⟨hreaches.slips.ge, fun box key slip _ hw => (hreaches.awaits _ _ _ hw).1⟩

theorem step_keepsSlips (ha : x.Accounted) (event : Event) :
    KeepsSlips x.network (x.step event).network := by
  have hstep := x.stepsTo_step event
  generalize x.step event = y at hstep ⊢
  cases hstep with
  | idles _ => exact keepsSlips_of_keeps (.refl _)
  | register now node => exact keepsSlips_of_keeps (register_keepsReplies now node x.network)
  | shutdown now node => exact keepsSlips_of_keeps (shutdown_keepsReplies now node x.network)
  | clear now => exact keepsSlips_of_keeps (clear_keepsReplies now x.network)
  | setSwitches box f => exact keepsSlips_of_keeps (setSwitches_keepsReplies box f x.network)
  | divert owner other => exact keepsSlips_of_keeps (divert_keepsReplies owner other x.network)
  | note now what => exact keepsSlips_of_keeps (.note x.network now what)
  | beginSend now t r => exact (ha.beginSend_sends now t r).1.keepsSlips
  | turnSend now found hstate => exact (ha.turnSend_sends found hstate now).1.keepsSlips
  | cancelSend _ _ => exact keepsSlips_of_keeps (cancelSend_keepsReplies _ x.network)
  | beginTake now t node => exact keepsSlips_of_keeps (beginTake_keepsReplies now t node x.network)
  | turnTake now _ _ => exact keepsSlips_of_keeps (turnTake_keepsReplies now _ _ x.network)
  | cancelTake _ _ => exact keepsSlips_of_keeps (cancelTake_keepsReplies _ _ x.network)
  | beginReply now t r outcome =>
    exact keepsSlips_of_replyTurn (beginReply_turn now r outcome ha.slipsUnique)
  | turnReply now _ _ => exact keepsSlips_of_replyTurn (turnReply_turn now _ ha.slipsUnique)
  | cancelReply _ _ => exact keepsSlips_of_keeps (.refl _)

/-- Whoever has been missed once is missed for good. -/
theorem Missed.step (h : x.Missed slip) (ha : x.Accounted) (event : Event) :
    (x.step event).Missed slip := by
  obtain ⟨hslips, hawaits⟩ := step_keepsSlips ha event
  refine ⟨h.known.trans_le hslips, fun box key hw => ?_, fun j reply hreach => ?_⟩
  · exact h.unawaited box key (hawaits box key slip h.known hw)
  · rcases reaches_step ha hreach with hreach | ⟨box, key, hw⟩
    · exact h.unreached j reply hreach
    · exact h.unawaited box key hw

/-- Whoever makes a slip void replies to nobody. -/
theorem replies_of_void (hblank : x.network.slips[slip]? = some .blank)
    (hvoid : (x.step event).network.slips[slip]? = some .void) :
    (x.step event).replies = x.replies := by
  let anything : MailboxId → Request → Prop := fun _ _ => True
  have hstep := x.stepsTo_step event
  generalize x.step event = y at hstep hvoid ⊢
  cases hstep with
  | divert owner other => cases hblank.symm.trans hvoid
  | beginReply now t r outcome =>
    have heffects : Effects anything _ _ := beginReply_effects now r outcome x.network
    exact absurd hvoid (heffects.not_void hblank)
  | @turnReply now _ _ stage _ _ =>
    have heffects : Effects anything _ _ := turnReply_effects now stage x.network
    exact absurd hvoid (heffects.not_void hblank)
  | cancelReply _ _ => cases hblank.symm.trans hvoid
  | _ => rfl

/-- Whoever finds its slip void has been missed. -/
theorem Lawful.missed_of_void (h : x.Lawful) (hpending : x.network.Pending box node key slip)
    (hvoid : (x.step event).network.slips[slip]? = some .void) : (x.step event).Missed slip where
  known := lt_length_of_getElem? hvoid
  unawaited box' key' hw := (h.step event).listedOpen.void box' key' slip hw hvoid
  unreached j reply hreach := by
    have hbefore : x.Reaches j slip reply :=
      ⟨replies_of_void hpending.blank hvoid ▸ hreach.1, hreach.2⟩
    exact h.accounted.struck j slip reply hbefore _ _ hpending.awaits

end Traffic

end Replica
