import Replica.Proofs.Traffic.Accounts

/-!
# The accounts are kept

Every event on a network keeps the accounts (`Accounted.step`), so they balance for all traffic that
is reached. Calls that send are booked by what their turns come to: a call that has entered nothing
yet may enter its request, and a call that waits looks at its slip.
-/

namespace Replica

open Network

variable {net net' : Network} {call : SendCall} {reply : ReplyCall} {x : Traffic} {i j : Nat}
variable {box : MailboxId} {slip : SlipId} {r : Request} {outcome : Outcome}

theorem Request.key_divert (owner : TaskId) (other : PeerId) (r : Request) :
    (r.divert owner other).key = r.key := by
  unfold Request.divert
  split <;> rfl

/-! ## Turns of senders -/

theorem Sending.read?_eq_some {deadline : Nat} (h : net.Written slip outcome) :
    (Sending.waiting box r slip deadline).read? net = some outcome := by
  have h : net.slips[slip]? = some (.filled outcome) := h
  simp only [read?, h]

theorem Sending.read?_eq_none {deadline : Nat} (h : ∀ outcome, ¬ net.Written slip outcome) :
    (Sending.waiting box r slip deadline).read? net = none := by
  unfold read?
  dsimp only
  split
  · next outcome found => exact absurd found (h outcome)
  · rfl

namespace SendCall

theorem after_slip?_of_keeps (h : KeepsReplies net net') (read : Option Outcome)
    (progress : SendProgress) (call : SendCall) :
    (call.after net read (net', progress)).slip? = call.slip? :=
  if_neg (Nat.not_lt.mpr h.slips.le)

theorem after_slip?_of_enters {key : RequestKey} (h : EntersCaller box key net net')
    (read : Option Outcome) (progress : SendProgress) (call : SendCall) :
    (call.after net read (net', progress)).slip? = some net.slips.length :=
  if_pos (h.slips ▸ Nat.lt_succ_self _)

/-- A call that waits looks at its slip. -/
theorem KnowsSlip.look (h : call.KnowsSlip net) {deadline : Nat}
    (hstate : call.state = .underWay (.waiting box r slip deadline))
    {result : Network × SendProgress} (hlook : Look box r slip deadline net result) :
    Traffic.Sends net result.1 call
        (call.after net ((Sending.waiting box r slip deadline).read? net) result) ∧
      (call.after net ((Sending.waiting box r slip deadline).read? net) result).KnowsSlip result.1 := by
  have hslip := h.waiting _ _ _ _ hstate
  cases hlook with
  | reads outcome hwritten =>
    rw [Sending.read?_eq_some hwritten]
    have hsame := after_slip?_of_keeps (.refl net) (some outcome) (.ended outcome) call
    exact ⟨.keeps (.refl net) hsame, .of_received rfl (hsame.trans hslip) hwritten⟩
  | waits hnone =>
    rw [Sending.read?_eq_none hnone]
    have hsame := after_slip?_of_keeps (.refl net) none
      (.waiting (.waiting box r slip deadline)) call
    exact ⟨.keeps (.refl net) hsame, .of_waiting rfl (hsame.trans hslip) (h.known slip hslip)⟩
  | leaves e hnone hkeeps =>
    rw [Sending.read?_eq_none hnone]
    -- the caller keeps its slip when it leaves, and is not said to have read anything from it
    have hsame := after_slip?_of_keeps hkeeps none (.ended (.error e)) call
    refine ⟨.keeps hkeeps hsame, .of_idle (fun k hk => ?_) rfl (fun o hend => nomatch hend)⟩
    exact (h.known k (hsame.symm.trans hk)).trans_le hkeeps.slips.ge

/-- A call that has entered nothing yet tries to. -/
theorem KnowsSlip.admission (hnone : call.slip? = none) (hkey : r.key = call.request.key)
    (hserves : net.Serves box call.request.replier) {result : Network × SendProgress}
    (hadmission : Admission box r net result) :
    Traffic.Sends net result.1 call (call.after net none result) ∧
      (call.after net none result).KnowsSlip result.1 := by
  cases hadmission with
  | blocked wake =>
    have hsame := after_slip?_of_keeps (.refl net) none (.waiting (.blocked box r wake)) call
    exact ⟨.keeps (.refl net) hsame, .of_blocked rfl (hsame.trans hnone) hkey hserves⟩
  | refused e =>
    have hsame := after_slip?_of_keeps (.refl net) none (.ended (.error e)) call
    refine ⟨.keeps (.refl net) hsame, .of_idle (fun k hk => ?_) rfl (fun o hend => nomatch hend)⟩
    exact nomatch hnone.symm.trans (hsame.symm.trans hk)
  | entered deadline henters =>
    have hnew := after_slip?_of_enters henters none
      (.waiting (.waiting box r net.slips.length deadline)) call
    exact ⟨.enters box (hkey ▸ henters) hserves hnone hnew,
      .of_waiting rfl hnew (henters.slips ▸ Nat.lt_succ_self _)⟩
  | overdue e henters =>
    -- the caller is overdue at once, but it has entered, and the slip is its own
    have hnew := after_slip?_of_enters henters none (.ended (.error e)) call
    refine ⟨.enters box (hkey ▸ henters) hserves hnone hnew,
      .of_idle (fun k hk => ?_) rfl (fun o hend => nomatch hend)⟩
    cases hnew.symm.trans hk
    exact henters.slips ▸ Nat.lt_succ_self _

end SendCall

section

variable {owner : TaskId} {other : PeerId}

theorem SendCall.KnowsSlip.divert (h : call.KnowsSlip net) :
    SendCall.KnowsSlip net
      { call with state := call.state.mapStage (Sending.divert owner other) } := by
  cases hstate : call.state with
  | underWay stage =>
    cases stage with
    | blocked box r wake =>
      obtain ⟨hnone, hkey, hserves⟩ := h.blocked _ _ _ hstate
      exact .of_blocked rfl hnone ((Request.key_divert owner other r).trans hkey) hserves
    | waiting box r slip deadline =>
      have hslip := h.waiting _ _ _ _ hstate
      exact .of_waiting rfl hslip (h.known slip hslip)
  | fresh =>
    show SendCall.KnowsSlip net { call with state := .fresh }
    rw [← hstate]
    exact h
  | ended result =>
    show SendCall.KnowsSlip net { call with state := .ended result }
    rw [← hstate]
    exact h
  | cancelled =>
    show SendCall.KnowsSlip net { call with state := .cancelled }
    rw [← hstate]
    exact h

theorem ReplyCall.KeepsRequest.divert (h : reply.KeepsRequest) : (reply.divert owner other).KeepsRequest := by
  intro stage hstage
  unfold ReplyCall.divert at hstage ⊢
  split at hstage
  · next before hbefore =>
    cases hstage
    obtain ⟨hrequest, houtcome⟩ := h before hbefore
    exact ⟨congrArg (Request.divert owner other) hrequest, houtcome⟩
  · next hnot => exact absurd hstage (hnot stage)

end

/-! ## Events -/

namespace Traffic

namespace Accounted

/-- The first turn of a call that sends. -/
theorem beginSend_sends (h : x.Accounted) (now : Nat) (t : TaskId) (r : Request) :
    Sends x.network (x.network.beginSend now r).1 { task := t, request := r }
        (SendCall.after x.network none (x.network.beginSend now r) { task := t, request := r }) ∧
      (SendCall.after x.network none (x.network.beginSend now r)
        { task := t, request := r }).KnowsSlip (x.network.beginSend now r).1 := by
  unfold Network.beginSend
  split
  · have hsame := SendCall.after_slip?_of_keeps (.refl x.network) none
      (.ended (.error (.nodeNotFound r.replier))) { task := t, request := r }
    exact ⟨.keeps (.refl _) hsame,
      .of_idle (fun k hk => nomatch hsame.symm.trans hk) rfl (fun o hend => nomatch hend)⟩
  · next box hget =>
    exact SendCall.KnowsSlip.admission rfl rfl (h.slipsUnique.serves hget)
      (trySend_admission now box r x.network)

theorem beginSend (h : x.Accounted) (now : Nat) (t : TaskId) (r : Request) :
    (x.beginSend now t r).Accounted := by
  have found : (x.sends ++ [({ task := t, request := r } : SendCall)])[x.sends.length]? =
      some { task := t, request := r } :=
    getElem?_concat_eq_some_iff.mpr (.inr ⟨rfl, rfl⟩)
  obtain ⟨hturn, hknows⟩ := h.beginSend_sends now t r
  -- to begin is to add a call that has done nothing, and to give it a turn
  have hadded := (h.addSend t r).turnOfSend (f := (·.after x.network none _)) (fun _ => rfl) found
    hturn hknows
  rw [← concat_eq_modify] at hadded
  exact hadded

/-- A later turn of a call that sends. -/
theorem turnSend_sends (h : x.Accounted) {stage : Sending} (found : x.sends[i]? = some call)
    (hstate : call.state = .underWay stage) (now : Nat) :
    Sends x.network (x.network.turnSend now stage).1 call
        (call.after x.network (stage.read? x.network) (x.network.turnSend now stage)) ∧
      (call.after x.network (stage.read? x.network) (x.network.turnSend now stage)).KnowsSlip
        (x.network.turnSend now stage).1 := by
  have hknows := h.senders i call found
  cases stage with
  | blocked box r wake =>
    obtain ⟨hnone, hkey, hserves⟩ := hknows.blocked _ _ _ hstate
    refine SendCall.KnowsSlip.admission hnone hkey hserves ?_
    rw [Network.turnSend]
    split
    · exact trySend_admission now box r x.network
    · exact .blocked wake
  | waiting box r slip deadline => exact hknows.look hstate (checkSlip_look now box r slip _ _)

theorem beginReply (h : x.Accounted) (now : Nat) (t : TaskId) (r : Request) (outcome : Outcome) :
    (x.beginReply now t r outcome).Accounted := by
  have found : (x.replies ++ [({ task := t, request := r, outcome } : ReplyCall)])[x.replies.length]? =
      some { task := t, request := r, outcome } :=
    getElem?_concat_eq_some_iff.mpr (.inr ⟨rfl, rfl⟩)
  have hadded := (h.addReply t r outcome).turnOfReply found (fun slip hend => nomatch hend)
    (beginReply_turn now r outcome h.slipsUnique)
  unfold Traffic.beginReply
  rw [← concat_eq_modify] at hadded
  exact hadded

end Accounted

/-! ## Detours -/

section

variable {owner : TaskId} {other : PeerId}

theorem owns_divert_iff {call' : SendCall} : (x.divert owner other).Owns i slip call' ↔
    ∃ call, x.Owns i slip call ∧
      { call with state := call.state.mapStage (·.divert owner other) } = call' := by
  unfold Owns divert
  simp only [List.getElem?_map, Option.map_eq_some_iff]
  constructor
  · rintro ⟨⟨call, found, rfl⟩, hslip⟩
    exact ⟨call, ⟨found, hslip⟩, rfl⟩
  · rintro ⟨call, ⟨found, hslip⟩, rfl⟩
    exact ⟨⟨call, found, rfl⟩, hslip⟩

theorem reaches_divert_iff :
    (x.divert owner other).Reaches j slip reply ↔ x.Reaches j slip reply := by
  unfold Reaches divert
  simp only [List.getElem?_map, Option.map_eq_some_iff]
  constructor
  · rintro ⟨⟨before, found, rfl⟩, hstate⟩
    unfold ReplyCall.divert at hstate ⊢
    split at hstate
    · cases hstate
    · exact ⟨found, hstate⟩
  · rintro ⟨found, hstate⟩
    refine ⟨⟨reply, found, ?_⟩, hstate⟩
    simp only [ReplyCall.divert, hstate]

theorem Accounted.divert (h : x.Accounted) (owner : TaskId) (other : PeerId) :
    (x.divert owner other).Accounted := by
  have hkeeps := divert_keepsReplies owner other x.network
  constructor
  · exact hkeeps.slipsUnique h.slipsUnique
  · intro i call found
    obtain ⟨before, hbefore, rfl⟩ := Option.map_eq_some_iff.mp (List.getElem?_map.symm.trans found)
    exact ((h.senders i before hbefore).divert).extends hkeeps.extends
  · intro j reply found
    obtain ⟨before, hbefore, rfl⟩ := Option.map_eq_some_iff.mp (List.getElem?_map.symm.trans found)
    exact (h.repliers j before hbefore).divert
  · intro i j slip call call' hi hj
    obtain ⟨before, hi, -⟩ := owns_divert_iff.mp hi
    obtain ⟨before', hj, -⟩ := owns_divert_iff.mp hj
    exact h.apart i j slip before before' hi hj
  · intro box key slip hw
    obtain ⟨i, call, howns, hkey, hserves⟩ := h.owned box key slip (hkeeps.awaits _ _ _ hw)
    exact ⟨i, _, owns_divert_iff.mpr ⟨call, howns, rfl⟩, hkey, hkeeps.serves _ _ hserves⟩
  · intro j slip reply hr
    obtain ⟨i, call, howns, hrest⟩ := h.matched j slip reply (reaches_divert_iff.mp hr)
    exact ⟨i, _, owns_divert_iff.mpr ⟨call, howns, rfl⟩, hrest⟩
  · intro j slip reply hr box key hw
    exact h.struck j slip reply (reaches_divert_iff.mp hr) box key (hkeeps.awaits _ _ _ hw)
  · intro j k slip reply reply' hj hk
    exact h.once j k slip reply reply' (reaches_divert_iff.mp hj) (reaches_divert_iff.mp hk)
  · intro slip outcome hw
    obtain ⟨j, reply, hr, houtcome⟩ := h.written slip outcome ((hkeeps.written _ _).mp hw)
    exact ⟨j, reply, reaches_divert_iff.mpr hr, houtcome⟩

end

/-! ## Runs -/

theorem Accounted.step (h : x.Accounted) (event : Event) : (x.step event).Accounted := by
  have hstep := x.stepsTo_step event
  generalize x.step event = y at hstep ⊢
  cases hstep with
  | idles _ => exact h
  | register now node => exact h.keep (register_keepsReplies now node x.network)
  | shutdown now node => exact h.keep (shutdown_keepsReplies now node x.network)
  | clear now => exact h.keep (clear_keepsReplies now x.network)
  | setSwitches box f => exact h.keep (setSwitches_keepsReplies box f x.network)
  | divert owner other => exact h.divert owner other
  | note now what => exact h.keep (.note x.network now what)
  | beginSend now t r => exact h.beginSend now t r
  | turnSend now found hstate =>
    obtain ⟨hturn, hknows⟩ := h.turnSend_sends found hstate now
    exact h.turnOfSend (fun _ => rfl) found hturn hknows
  | @cancelSend i call stage found _ =>
    have hkeeps := cancelSend_keepsReplies stage x.network
    refine h.turnOfSend (fun _ => rfl) found (.keeps hkeeps rfl)
      (.of_idle ?_ rfl (fun o hend => nomatch hend))
    exact fun k hk => ((h.senders i call found).known k hk).trans_le hkeeps.slips.ge
  | beginTake now t node =>
    exact (h.keep (beginTake_keepsReplies now t node x.network)).withTakes _
  | turnTake now _ _ => exact (h.keep (turnTake_keepsReplies now _ _ x.network)).withTakes _
  | cancelTake _ _ => exact (h.keep (cancelTake_keepsReplies _ _ x.network)).withTakes _
  | beginReply now t r outcome => exact h.beginReply now t r outcome
  | @turnReply now j reply stage found hstate =>
    obtain ⟨hrequest, houtcome⟩ := h.repliers j reply found stage hstate
    have hturn := turnReply_turn now stage h.slipsUnique
    rw [hrequest, houtcome] at hturn
    rw [hrequest]
    exact h.turnOfReply found (fun slip hended => nomatch hstate.symm.trans hended) hturn
  | cancelReply found hstate =>
    exact h.changeReply (.refl _) found (.of_idle rfl)
      (fun slip hend => nomatch hstate.symm.trans hend) (fun slip hend => nomatch hend)

theorem Accounted.stable : Stable Accounted := fun _ event h => h.step event

theorem Accounted.reached (settings : Settings) (dice : Nat → UInt64) (events : List Event) :
    (reached settings dice events).Accounted :=
  stable.run (.new settings dice) events

end Traffic

end Replica
