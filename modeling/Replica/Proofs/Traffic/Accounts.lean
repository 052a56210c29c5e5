import Replica.Proofs.Traffic.Steps

/-!
# The accounts of the traffic

Whose slip each slip is, and who has written on it. Every caller that waits in a table waits there
with the slip of one call, every outcome on a slip was written by one reply, and that reply had the
key of the call and came from the node that the call was sent to (`Accounted`). Every event keeps the
accounts (`Accounted.step`), so they hold of all traffic that is reached.
-/

namespace Replica

variable {net net' : Network} {call call' : SendCall} {reply : ReplyCall} {x : Traffic} {i j : Nat}
variable {box : MailboxId} {slip : SlipId} {key : RequestKey} {r : Request}

namespace Network

/-- What can be relied on while the network changes. -/
structure Extends (net net' : Network) : Prop where
  slips : net.slips.length ≤ net'.slips.length
  written : ∀ slip outcome, net.Written slip outcome → net'.Written slip outcome
  serves : ∀ box node, net.Serves box node → net'.Serves box node

theorem KeepsReplies.extends (h : KeepsReplies net net') : Extends net net' :=
  ⟨h.slips.ge, fun slip outcome => (h.written slip outcome).mpr, h.serves⟩

theorem EntersCaller.extends (h : EntersCaller box key net net') : Extends net net' :=
  ⟨h.slips ▸ Nat.le_succ _, fun slip outcome => (h.written slip outcome).mpr, h.serves⟩

theorem ReachesCaller.extends {outcome : Outcome} (h : ReachesCaller slip outcome net net') :
    Extends net net' :=
  ⟨h.slips.ge, h.keeps, h.serves⟩

end Network

open Network

/-! ## Calls -/

/-- A call that sends knows its slip from entering it on, and has read from no other. -/
structure SendCall.KnowsSlip (net : Network) (call : SendCall) : Prop where
  known : ∀ slip, call.slip? = some slip → slip < net.slips.length
  blocked : ∀ box r wake, call.state = .underWay (.blocked box r wake) →
    call.slip? = none ∧ r.key = call.request.key ∧ net.Serves box call.request.replier
  waiting : ∀ box r slip deadline, call.state = .underWay (.waiting box r slip deadline) →
    call.slip? = some slip
  received : ∀ outcome, call.state = .ended (.received outcome) →
    ∃ slip, call.slip? = some slip ∧ net.Written slip outcome

theorem SendCall.KnowsSlip.extends (h : call.KnowsSlip net) (hnet : Extends net net') : call.KnowsSlip net' where
  known slip hslip := (h.known slip hslip).trans_le hnet.slips
  blocked box r wake hstate := by
    obtain ⟨hnone, hkey, hserves⟩ := h.blocked box r wake hstate
    exact ⟨hnone, hkey, hnet.serves _ _ hserves⟩
  waiting := h.waiting
  received outcome hstate := by
    obtain ⟨slip, hslip, hwritten⟩ := h.received outcome hstate
    exact ⟨slip, hslip, hnet.written _ _ hwritten⟩

namespace SendCall.KnowsSlip

/-- A call that stands nowhere and has received nothing needs only to know its slip. -/
theorem of_idle (hknown : ∀ slip, call.slip? = some slip → slip < net.slips.length)
    (hstage : call.state.stage? = none)
    (hend : ∀ outcome, call.state ≠ .ended (.received outcome)) : call.KnowsSlip net where
  known := hknown
  blocked box r wake hstate := by
    rw [hstate] at hstage
    cases hstage
  waiting box r slip deadline hstate := by
    rw [hstate] at hstage
    cases hstage
  received outcome hstate := absurd hstate (hend outcome)

theorem of_blocked {wake : Nat} (hstate : call.state = .underWay (.blocked box r wake))
    (hnone : call.slip? = none) (hkey : r.key = call.request.key)
    (hserves : net.Serves box call.request.replier) : call.KnowsSlip net where
  known slip hslip := by
    rw [hnone] at hslip
    cases hslip
  blocked box' r' wake' hstate' := by
    rw [hstate] at hstate'
    cases hstate'
    exact ⟨hnone, hkey, hserves⟩
  waiting box' r' slip deadline hstate' := by
    rw [hstate] at hstate'
    cases hstate'
  received outcome hstate' := by
    rw [hstate] at hstate'
    cases hstate'

theorem of_waiting {deadline : Nat} (hstate : call.state = .underWay (.waiting box r slip deadline))
    (hslip : call.slip? = some slip) (hlt : slip < net.slips.length) : call.KnowsSlip net where
  known slip' hslip' := by
    rw [hslip] at hslip'
    cases hslip'
    exact hlt
  blocked box' r' wake hstate' := by
    rw [hstate] at hstate'
    cases hstate'
  waiting box' r' slip' deadline' hstate' := by
    rw [hstate] at hstate'
    cases hstate'
    exact hslip
  received outcome hstate' := by
    rw [hstate] at hstate'
    cases hstate'

theorem of_received {outcome : Outcome} (hstate : call.state = .ended (.received outcome))
    (hslip : call.slip? = some slip) (hwritten : net.Written slip outcome) : call.KnowsSlip net where
  known slip' hslip' := by
    rw [hslip] at hslip'
    cases hslip'
    exact hwritten.lt
  blocked box' r' wake hstate' := by
    rw [hstate] at hstate'
    cases hstate'
  waiting box' r' slip' deadline' hstate' := by
    rw [hstate] at hstate'
    cases hstate'
  received outcome' hstate' := by
    rw [hstate] at hstate'
    cases hstate'
    exact ⟨slip, hslip, hwritten⟩

end SendCall.KnowsSlip

/-- A call that replies deals with the request and the outcome that it began with. -/
def ReplyCall.KeepsRequest (reply : ReplyCall) : Prop :=
  ∀ stage, reply.state = .underWay stage →
    stage.request = reply.request ∧ stage.outcome = reply.outcome

theorem ReplyCall.KeepsRequest.of_idle (hstage : reply.state.stage? = none) : reply.KeepsRequest := by
  intro stage hstate
  rw [hstate] at hstage
  cases hstage

/-! ## Accounts -/

namespace Traffic

/-- The reply has reached the caller with the slip. -/
def Reaches (x : Traffic) (j : Nat) (slip : SlipId) (reply : ReplyCall) : Prop :=
  x.replies[j]? = some reply ∧ reply.state = .ended (.reached slip)

/-- The call owns the slip. -/
def Owns (x : Traffic) (i : Nat) (slip : SlipId) (call : SendCall) : Prop :=
  x.sends[i]? = some call ∧ call.slip? = some slip

/-- The books of the traffic balance: slips, entries and outcomes have one call each. -/
structure Accounted (x : Traffic) : Prop where
  slipsUnique : x.network.SlipsUnique
  senders : ∀ (i : Nat) (call : SendCall), x.sends[i]? = some call → call.KnowsSlip x.network
  repliers : ∀ (j : Nat) (reply : ReplyCall), x.replies[j]? = some reply → reply.KeepsRequest
  apart : ∀ i j slip call call', x.Owns i slip call → x.Owns j slip call' → i = j
  owned : ∀ box key slip, x.network.Awaits box key slip →
    ∃ i call, x.Owns i slip call ∧ call.request.key = key ∧
      x.network.Serves box call.request.replier
  matched : ∀ j slip reply, x.Reaches j slip reply →
    ∃ i call, x.Owns i slip call ∧ reply.request.key = call.request.key ∧
      reply.request.replier = call.request.replier
  struck : ∀ j slip reply, x.Reaches j slip reply → ∀ box key, ¬ x.network.Awaits box key slip
  once : ∀ j k slip reply reply', x.Reaches j slip reply → x.Reaches k slip reply' → j = k
  written : ∀ slip outcome, x.network.Written slip outcome →
    ∃ j reply, x.Reaches j slip reply ∧ reply.outcome = outcome

namespace Accounted

theorem new (settings : Settings) (dice : Nat → UInt64) :
    Accounted { network := { settings, dice } } where
  slipsUnique := slipsUnique_fresh settings dice
  senders _ _ h := by cases h
  repliers _ _ h := by cases h
  apart _ _ _ _ _ h := by cases h.1
  owned _ _ _ h := by
    obtain ⟨_, found, _⟩ := h
    cases found
  matched _ _ _ h := by cases h.1
  struck _ _ _ h := by cases h.1
  once _ _ _ _ _ h := by cases h.1
  written _ _ h := by cases h

/-- What neither adds callers nor writes on slips needs no booking. -/
theorem keep (h : x.Accounted) (hkeeps : KeepsReplies x.network net') :
    Accounted { x with network := net' } where
  slipsUnique := hkeeps.slipsUnique h.slipsUnique
  senders i call found := (h.senders i call found).extends hkeeps.extends
  repliers := h.repliers
  apart := h.apart
  owned box key slip hw := by
    obtain ⟨i, call, howns, hkey, hserves⟩ := h.owned box key slip (hkeeps.awaits _ _ _ hw)
    exact ⟨i, call, howns, hkey, hkeeps.serves _ _ hserves⟩
  matched := h.matched
  struck j slip reply hreach box key hw := h.struck j slip reply hreach box key (hkeeps.awaits _ _ _ hw)
  once := h.once
  written slip outcome hw := h.written slip outcome ((hkeeps.written _ _).mp hw)

/-- Takers have no accounts. -/
theorem withTakes (h : x.Accounted) (takes : List TakeCall) : Accounted { x with takes } :=
  ⟨h.slipsUnique, h.senders, h.repliers, h.apart, h.owned, h.matched, h.struck, h.once, h.written⟩

/-! ## Senders -/

/-- A new call that sends. -/
theorem addSend (h : x.Accounted) (t : TaskId) (r : Request) :
    Accounted { x with sends := x.sends ++ [{ task := t, request := r }] } := by
  -- the new call has no slip yet, so nobody owns more or less than before
  have howns (i : Nat) (slip : SlipId) (call : SendCall) :
      Owns { x with sends := x.sends ++ [{ task := t, request := r }] } i slip call ↔
        x.Owns i slip call := by
    constructor
    · rintro ⟨found, hslip⟩
      rcases getElem?_concat_eq_some_iff.mp found with found | ⟨-, rfl⟩
      · exact ⟨found, hslip⟩
      · cases hslip
    · exact fun ⟨found, hslip⟩ => ⟨getElem?_concat_of_some _ found, hslip⟩
  refine ⟨h.slipsUnique, fun i call found => ?_, h.repliers, ?_, ?_, ?_, h.struck, h.once, h.written⟩
  · rcases getElem?_concat_eq_some_iff.mp found with found | ⟨-, rfl⟩
    · exact h.senders i call found
    · exact .of_idle (fun slip hslip => nomatch hslip) rfl (fun outcome hend => nomatch hend)
  · intro i j slip call call' hi hj
    exact h.apart i j slip call call' ((howns _ _ _).mp hi) ((howns _ _ _).mp hj)
  · intro box key slip hw
    obtain ⟨i, call, hown, hrest⟩ := h.owned box key slip hw
    exact ⟨i, call, (howns _ _ _).mpr hown, hrest⟩
  · intro j slip reply hreach
    obtain ⟨i, call, hown, hrest⟩ := h.matched j slip reply hreach
    exact ⟨i, call, (howns _ _ _).mpr hown, hrest⟩

end Accounted

/-- What a turn of a call that sends does to the network and the call. -/
inductive Sends (net net' : Network) (call call' : SendCall) : Prop where
  | keeps (h : KeepsReplies net net') (hslip : call'.slip? = call.slip?)
  | enters (box : MailboxId) (h : EntersCaller box call.request.key net net')
    (hserves : net.Serves box call.request.replier) (hnone : call.slip? = none)
    (hslip : call'.slip? = some net.slips.length)

theorem Sends.extends (h : Sends net net' call call') : Extends net net' := by
  cases h with
  | keeps hkeeps _ => exact hkeeps.extends
  | enters _ henters _ _ _ => exact henters.extends

section

variable {f : SendCall → SendCall}

/-- Calls keep their slips while one of them gets a turn. -/
theorem Owns.modify (hrequest : ∀ call, (f call).request = call.request)
    (found : x.sends[i]? = some call) (hturn : Sends x.network net' call (f call))
    (howns : x.Owns j slip call') :
    ∃ after, Owns { x with network := net', sends := x.sends.modify i f } j slip after ∧
      after.request = call'.request := by
  refine ⟨_, ⟨getElem?_modify_eq_some_iff.mpr ⟨call', howns.1, rfl⟩, ?_⟩, ?_⟩
  · split
    · next heq =>
      subst heq
      obtain rfl := Option.some.inj (howns.1.symm.trans found)
      cases hturn with
      | keeps _ hslip => exact hslip.trans howns.2
      | enters _ _ _ hnone _ => cases hnone.symm.trans howns.2
    · exact howns.2
  · split
    · exact hrequest call'
    · rfl

/-- Only a new slip can come to a call, and only to the one that gets a turn. -/
theorem Owns.of_modify (found : x.sends[i]? = some call)
    (hturn : Sends x.network net' call (f call))
    (howns : Owns { x with network := net', sends := x.sends.modify i f } j slip call') :
    (∃ before, x.Owns j slip before) ∨ (j = i ∧ slip = x.network.slips.length) := by
  obtain ⟨found', hslip'⟩ := howns
  obtain ⟨before, hbefore, rfl⟩ := getElem?_modify_eq_some_iff.mp found'
  split at hslip'
  · next heq =>
    subst heq
    obtain rfl := Option.some.inj (hbefore.symm.trans found)
    cases hturn with
    | keeps _ hslip => exact .inl ⟨before, hbefore, hslip.symm.trans hslip'⟩
    | enters _ _ _ _ hslip => exact .inr ⟨rfl, Option.some.inj (hslip'.symm.trans hslip)⟩
  · exact .inl ⟨before, hbefore, hslip'⟩

theorem Accounted.lt_of_owns (h : x.Accounted) (howns : x.Owns i slip call) :
    slip < x.network.slips.length :=
  (h.senders i call howns.1).known slip howns.2

/-- A call that sends gets a turn. -/
theorem Accounted.turnOfSend (h : x.Accounted) (hrequest : ∀ call, (f call).request = call.request)
    (found : x.sends[i]? = some call) (hturn : Sends x.network net' call (f call))
    (hknows : (f call).KnowsSlip net') :
    Accounted { x with network := net', sends := x.sends.modify i f } where
  slipsUnique := by
    cases hturn with
    | keeps hkeeps _ => exact hkeeps.slipsUnique h.slipsUnique
    | enters _ henters _ _ _ => exact henters.slipsUnique h.slipsUnique
  senders := forall_getElem?_modify
    (fun k before hbefore => (h.senders k before hbefore).extends hturn.extends) found hknows
  repliers := h.repliers
  apart k l slip after after' hk hl := by
    -- a slip that is new has no owner yet, since owners know their slips
    rcases hk.of_modify found hturn with ⟨before, hk⟩ | ⟨hki, hslip⟩ <;>
      rcases hl.of_modify found hturn with ⟨before', hl⟩ | ⟨hli, hslip'⟩
    · exact h.apart k l slip before before' hk hl
    · exact absurd (h.lt_of_owns hk) (hslip' ▸ Nat.lt_irrefl _)
    · exact absurd (h.lt_of_owns hl) (hslip ▸ Nat.lt_irrefl _)
    · exact hki.trans hli.symm
  owned box key slip hw := by
    have hbefore (hw : x.network.Awaits box key slip) :
        ∃ k after, Owns { x with network := net', sends := x.sends.modify i f } k slip after ∧
          after.request.key = key ∧ net'.Serves box after.request.replier := by
      obtain ⟨k, before, howns, hkey, hserves⟩ := h.owned box key slip hw
      obtain ⟨after, howns, heq⟩ := howns.modify hrequest found hturn
      exact ⟨k, after, howns, heq ▸ hkey, heq ▸ hturn.extends.serves _ _ hserves⟩
    cases hturn with
    | keeps hkeeps _ => exact hbefore (hkeeps.awaits _ _ _ hw)
    | enters box' henters hserves _ hslip =>
      rcases henters.awaits _ _ _ hw with hw | ⟨rfl, rfl, rfl⟩
      · exact hbefore hw
      · refine ⟨i, f call, ⟨getElem?_modify_eq_some_iff.mpr ⟨call, found, if_pos rfl⟩, hslip⟩, ?_⟩
        rw [hrequest]
        exact ⟨rfl, henters.serves _ _ hserves⟩
  matched j slip reply hreach := by
    obtain ⟨k, before, howns, hkey, hreplier⟩ := h.matched j slip reply hreach
    obtain ⟨after, howns, heq⟩ := howns.modify hrequest found hturn
    exact ⟨k, after, howns, heq ▸ hkey, heq ▸ hreplier⟩
  struck j slip reply hreach box key hw := by
    obtain ⟨k, before, howns, -, -⟩ := h.matched j slip reply hreach
    cases hturn with
    | keeps hkeeps _ => exact h.struck j slip reply hreach _ _ (hkeeps.awaits _ _ _ hw)
    | enters box' henters _ _ _ =>
      rcases henters.awaits _ _ _ hw with hw | ⟨-, -, rfl⟩
      · exact h.struck j slip reply hreach _ _ hw
      · exact absurd (h.lt_of_owns howns) (Nat.lt_irrefl _)
  once := h.once
  written slip outcome hw := by
    refine h.written slip outcome ?_
    cases hturn with
    | keeps hkeeps _ => exact (hkeeps.written _ _).mp hw
    | enters _ henters _ _ _ => exact (henters.written _ _).mp hw

end

/-! ## Repliers -/

section

variable {f : ReplyCall → ReplyCall} {reply' : ReplyCall} {k : Nat} {slip' : SlipId}

/-- A call that replies is changed, and has reached nobody before. -/
theorem Reaches.modify (found : x.replies[j]? = some reply)
    (hbefore : ∀ slip, reply.state ≠ .ended (.reached slip)) (h : x.Reaches k slip reply') :
    Reaches { x with replies := x.replies.modify j f } k slip reply' := by
  refine ⟨getElem?_modify_eq_some_iff.mpr ⟨reply', h.1, if_neg ?_⟩, h.2⟩
  rintro rfl
  obtain rfl := Option.some.inj (h.1.symm.trans found)
  exact hbefore slip h.2

theorem Reaches.of_modify (found : x.replies[j]? = some reply)
    (h : Reaches { x with replies := x.replies.modify j f } k slip reply') :
    x.Reaches k slip reply' ∨ (k = j ∧ reply' = f reply) := by
  obtain ⟨found', hstate⟩ := h
  obtain ⟨before, hk, rfl⟩ := getElem?_modify_eq_some_iff.mp found'
  split
  · next heq =>
    subst heq
    exact .inr ⟨rfl, congrArg f (Option.some.inj (hk.symm.trans found))⟩
  · next hne =>
    rw [if_neg hne] at hstate
    exact .inl ⟨hk, hstate⟩

namespace Accounted

/-- Calls that reply are changed, and reach nobody new. -/
theorem withReplies (h : x.Accounted) {replies : List ReplyCall}
    (hkeeps : KeepsReplies x.network net')
    (hreplies : ∀ (j : Nat) (reply : ReplyCall), replies[j]? = some reply → reply.KeepsRequest)
    (hreach : ∀ j slip reply, Reaches { x with replies } j slip reply ↔ x.Reaches j slip reply) :
    Accounted { x with network := net', replies } where
  slipsUnique := hkeeps.slipsUnique h.slipsUnique
  senders i call found := (h.senders i call found).extends hkeeps.extends
  repliers := hreplies
  apart := h.apart
  owned := (h.keep hkeeps).owned
  matched j slip reply hr := h.matched j slip reply ((hreach _ _ _).mp hr)
  struck j slip reply hr := (h.keep hkeeps).struck j slip reply ((hreach _ _ _).mp hr)
  once j k slip reply reply' hj hk :=
    h.once j k slip reply reply' ((hreach _ _ _).mp hj) ((hreach _ _ _).mp hk)
  written slip outcome hw := by
    obtain ⟨j, reply, hr, houtcome⟩ := (h.keep hkeeps).written slip outcome hw
    exact ⟨j, reply, (hreach _ _ _).mpr hr, houtcome⟩

/-- A call that replies is changed, and reaches nobody. -/
theorem changeReply (h : x.Accounted) (hkeeps : KeepsReplies x.network net')
    (found : x.replies[j]? = some reply) (hrequest : (f reply).KeepsRequest)
    (hbefore : ∀ slip, reply.state ≠ .ended (.reached slip))
    (hafter : ∀ slip, (f reply).state ≠ .ended (.reached slip)) :
    Accounted { x with network := net', replies := x.replies.modify j f } := by
  refine h.withReplies hkeeps (forall_getElem?_modify h.repliers found hrequest)
    (fun k slip after => ?_)
  constructor
  · intro hr
    rcases hr.of_modify found with hr | ⟨-, rfl⟩
    · exact hr
    · exact absurd hr.2 (hafter slip)
  · exact fun hr => hr.modify found hbefore

/-- A reply reaches the caller that waits for it. -/
theorem reach (h : x.Accounted) (found : x.replies[j]? = some reply)
    (hbefore : ∀ slip, reply.state ≠ .ended (.reached slip))
    (hafter : f reply = { reply with state := .ended (.reached slip) })
    (hcaller : x.network.caller? reply.request = some slip)
    (hreaches : ReachesCaller slip reply.outcome x.network net') :
    Accounted { x with network := net', replies := x.replies.modify j f } := by
  obtain ⟨box, hwaits, hserves⟩ := awaits_of_caller? h.slipsUnique hcaller
  have hnew {k : Nat} {slip' : SlipId} {reply' : ReplyCall}
      (hr : Reaches { x with network := net', replies := x.replies.modify j f } k slip' reply') :
      x.Reaches k slip' reply' ∨
        (k = j ∧ slip' = slip ∧ reply' = { reply with state := .ended (.reached slip) }) := by
    rcases Reaches.of_modify (x := x) found hr with hr | ⟨hk, rfl⟩
    · exact .inl hr
    · have hstate := hr.2
      rw [hafter] at hstate ⊢
      cases hstate
      exact .inr ⟨hk, rfl, rfl⟩
  constructor
  · exact hreaches.slipsUnique h.slipsUnique
  · exact fun i call found => (h.senders i call found).extends hreaches.extends
  · exact forall_getElem?_modify h.repliers found (.of_idle (by rw [hafter]; rfl))
  · exact h.apart
  · intro box key slip' hw
    obtain ⟨i, call, howns, hkey, hserves⟩ := h.owned box key slip' (hreaches.awaits _ _ _ hw).1
    exact ⟨i, call, howns, hkey, hreaches.serves _ _ hserves⟩
  · intro k slip' reply' hr
    rcases hnew hr with hr | ⟨-, rfl, rfl⟩
    · exact h.matched k slip' reply' hr
    · obtain ⟨i, call, howns, hkey, hserves'⟩ := h.owned box _ _ hwaits
      exact ⟨i, call, howns, hkey.symm, hserves.unique hserves'⟩
  · intro k slip' reply' hr box' key hw
    obtain ⟨hw, hne⟩ := hreaches.awaits _ _ _ hw
    rcases hnew hr with hr | ⟨-, heq, -⟩
    · exact h.struck k slip' reply' hr box' key hw
    · exact hne heq
  · intro k l slip' reply₁ reply₂ hk hl
    -- whoever was reached before waits no more, so the one who is reached now is another
    rcases hnew hk with hk' | ⟨hkj, hslip, -⟩ <;> rcases hnew hl with hl' | ⟨hlj, hslip', -⟩
    · exact h.once k l slip' reply₁ reply₂ hk' hl'
    · exact absurd (hslip' ▸ hwaits) (h.struck k slip' reply₁ hk' box _)
    · exact absurd (hslip ▸ hwaits) (h.struck l slip' reply₂ hl' box _)
    · exact hkj.trans hlj.symm
  · intro slip' outcome hw
    rcases hreaches.written _ _ hw with hw | ⟨rfl, rfl⟩
    · obtain ⟨k, reply', hr, houtcome⟩ := h.written slip' outcome hw
      exact ⟨k, reply', Reaches.modify (x := x) found hbefore hr, houtcome⟩
    · exact ⟨j, _, ⟨getElem?_modify_eq_some_iff.mpr ⟨reply, found, (if_pos rfl).trans hafter⟩, rfl⟩,
        rfl⟩

/-- A call that replies gets a turn. -/
theorem turnOfReply (h : x.Accounted) (found : x.replies[j]? = some reply)
    (hbefore : ∀ slip, reply.state ≠ .ended (.reached slip))
    {result : Network × ReplyProgress}
    (hturn : ReplyTurn reply.request reply.outcome x.network result) :
    Accounted { x with
      network := result.1
      replies := x.replies.modify j fun call =>
        { call with
          state := .ofProgress (ReplyEnd.of (x.network.caller? reply.request)) result.2 } } := by
  cases hturn with
  | waits wake hkeeps =>
    refine h.changeReply hkeeps found (fun stage hstage => ?_) hbefore (fun slip hend => nomatch hend)
    cases hstage
    exact ⟨rfl, rfl⟩
  | refused e hkeeps =>
    exact h.changeReply hkeeps found (.of_idle rfl) hbefore (fun slip hend => nomatch hend)
  -- whether somebody was reached is read off the table as it was before the turn
  | missed hcaller hkeeps =>
    rw [hcaller]
    exact h.changeReply hkeeps found (.of_idle rfl) hbefore (fun slip hend => nomatch hend)
  | reached slip hcaller hreaches =>
    refine h.reach found hbefore ?_ hcaller hreaches
    rw [hcaller]
    rfl

/-- A new call that replies. -/
theorem addReply (h : x.Accounted) (t : TaskId) (r : Request) (outcome : Outcome) :
    Accounted { x with replies := x.replies ++ [{ task := t, request := r, outcome }] } := by
  refine h.withReplies (.refl _) (fun j reply found => ?_) (fun j slip reply => ?_)
  · rcases getElem?_concat_eq_some_iff.mp found with found | ⟨-, rfl⟩
    · exact h.repliers j reply found
    · exact .of_idle rfl
  · constructor
    · rintro ⟨found, hstate⟩
      rcases getElem?_concat_eq_some_iff.mp found with found | ⟨-, rfl⟩
      · exact ⟨found, hstate⟩
      · cases hstate
    · exact fun ⟨found, hstate⟩ => ⟨getElem?_concat_of_some _ found, hstate⟩

end Accounted

end

end Traffic

end Replica
