import Replica.Proofs.Network.Aging
import Replica.Proofs.Traffic.Runs

/-!
# The tables and those who wait in them

Every call that waits for a reply can expect something: as long as its slip is blank, it is in the
table of the mailbox that it sent to, under its own key (`Tabled`). So whoever closes the mailbox, or
replies to the call, finds it there.
-/

namespace Replica

theorem CallState.eq_waiting_of_ofProgress {σ α β : Type} {result : α → β} {p : Progress σ α}
    {stage : σ} (h : CallState.ofProgress result p = .underWay stage) : p = .waiting stage := by
  cases p with
  | waiting s =>
    cases h
    rfl
  | ended a => cases h

namespace Network

variable {net : Network} {now deadline deadline' : Nat} {box box' : MailboxId} {r r' : Request}
variable {slip slip' : SlipId} {stage : Sending} {b : Mailbox}

/-- A sender that goes on waiting has changed nothing. -/
theorem checkSlip_waiting (h : (net.checkSlip now box r slip deadline).2 = .waiting stage) :
    (net.checkSlip now box r slip deadline).1 = net ∧ stage = .waiting box r slip deadline := by
  unfold checkSlip at h ⊢
  split at h
  · cases h
  · cases h
  · split at h
    · cases h
    · next hnot =>
      cases h
      rw [if_neg hnot]
      exact ⟨rfl, rfl⟩
  · cases h
    exact ⟨rfl, rfl⟩

/-- A sender that waits for its reply from now on is in the table. -/
theorem trySend_expects
    (h : (net.trySend now box r).2 = .waiting (.waiting box' r' slip' deadline')) :
    (net.trySend now box r).1.Expects box' r'.key slip' := by
  unfold trySend at h ⊢
  split at h
  · cases h
  · next b found =>
    split at h
    · cases h
    · next hfree =>
      rw [if_neg hfree]
      unfold enqueue at h ⊢
      split at h
      · cases h
      · dsimp only at h ⊢
        split at h
        · cases h
        · next b' hpush =>
          obtain ⟨hsame, hstage⟩ := checkSlip_waiting h
          rw [hsame]
          cases hstage
          exact expects_of_push found hpush

/-- Whoever waits for its reply after a turn can expect something. -/
theorem turnSend_expects
    (hexpects : ∀ box r slip deadline, stage = .waiting box r slip deadline →
      net.Expects box r.key slip)
    (h : (net.turnSend now stage).2 = .waiting (.waiting box r slip deadline)) :
    (net.turnSend now stage).1.Expects box r.key slip := by
  cases stage with
  | blocked box' r' wake =>
    rw [turnSend] at h ⊢
    split at h
    · next hwake =>
      rw [if_pos hwake]
      exact trySend_expects h
    · cases h
  | waiting box' r' slip' deadline' =>
    obtain ⟨hsame, hstage⟩ := checkSlip_waiting h
    cases hstage
    rw [turnSend, hsame]
    exact hexpects _ _ _ _ rfl

end Network

open Network

/-- A call waits with its own slip. -/
theorem SendCall.KnowsSlip.slip?_eq {net : Network} {call : SendCall} {stage : Sending} {slip : SlipId}
    (h : call.KnowsSlip net) (hstate : call.state = .underWay stage) (hslip : stage.slip? = some slip) :
    call.slip? = some slip := by
  cases stage with
  | blocked box r wake => cases hslip
  | waiting box r slip' deadline =>
    cases hslip
    exact h.waiting _ _ _ _ hstate

namespace Traffic

variable {x : Traffic} {net' : Network} {i : Nat} {call : SendCall} {f : SendCall → SendCall}
variable {own : Option SlipId}

/-- Whoever waits for a reply is in the table, as long as nothing is on its slip. -/
structure Tabled (x : Traffic) : Prop where
  keyed : x.network.Keyed
  expects : ∀ (i : Nat) (call : SendCall) (box : MailboxId) (r : Request) (slip : SlipId)
    (deadline : Nat), x.sends[i]? = some call →
    call.state = .underWay (.waiting box r slip deadline) → x.network.Expects box r.key slip

namespace Tabled

theorem new (settings : Settings) (dice : Nat → UInt64) :
    Tabled { network := { settings, dice } } where
  keyed := keyed_fresh settings dice
  expects _ _ _ _ _ _ h := by cases h

theorem keep (h : x.Tabled) (hages : Ages none x.network net') :
    Tabled { x with network := net' } where
  keyed := hages.keyed h.keyed
  expects i call box r slip deadline found hstate :=
    hages.expects _ _ _ nofun (h.expects i call box r slip deadline found hstate)

/-- Takers and repliers are in no table. -/
theorem withCalls (h : x.Tabled) (takes : List TakeCall) (replies : List ReplyCall) :
    Tabled { x with takes, replies } := ⟨h.keyed, h.expects⟩

/-- A new call is in no table either. -/
theorem addSend (h : x.Tabled) (t : TaskId) (r : Request) :
    Tabled { x with sends := x.sends ++ [{ task := t, request := r }] } where
  keyed := h.keyed
  expects i call box r slip deadline found hstate := by
    rcases getElem?_concat_eq_some_iff.mp found with found | ⟨-, rfl⟩
    · exact h.expects i call box r slip deadline found hstate
    · cases hstate

/-- A call that sends gets a turn, and touches no slip but its own. -/
theorem turnOfSend (h : x.Tabled) (hx : x.Accounted) (found : x.sends[i]? = some call)
    (hages : Ages own x.network net') (hown : ∀ slip, own = some slip → call.slip? = some slip)
    (hcall : ∀ box r slip deadline, (f call).state = .underWay (.waiting box r slip deadline) →
      net'.Expects box r.key slip) :
    Tabled { x with network := net', sends := x.sends.modify i f } where
  keyed := hages.keyed h.keyed
  expects j after box r slip deadline hj hstate := by
    obtain ⟨before, hbefore, rfl⟩ := getElem?_modify_eq_some_iff.mp hj
    split at hstate
    · next heq =>
      subst heq
      obtain rfl := Option.some.inj (hbefore.symm.trans found)
      exact hcall box r slip deadline hstate
    · next hne =>
      refine hages.expects _ _ _ (fun heq => ?_)
        (h.expects j before box r slip deadline hbefore hstate)
      -- no two calls have one slip
      have hslip := (hx.senders j before hbefore).waiting _ _ _ _ hstate
      exact hne (hx.apart i j slip call before ⟨found, hown slip heq⟩ ⟨hbefore, hslip⟩)

theorem beginSend (h : x.Tabled) (hx : x.Accounted) (now : Nat) (t : TaskId) (r : Request) :
    (x.beginSend now t r).Tabled := by
  have found : (x.sends ++ [({ task := t, request := r } : SendCall)])[x.sends.length]? =
      some { task := t, request := r } :=
    getElem?_concat_eq_some_iff.mpr (.inr ⟨rfl, rfl⟩)
  have hages : Ages none x.network (x.network.beginSend now r).1 :=
    beginSend_ages now r h.keyed
  have hadded := (h.addSend t r).turnOfSend
    (f := (·.after x.network none (x.network.beginSend now r))) (hx.addSend t r) found hages nofun
  rw [← concat_eq_modify] at hadded
  apply hadded
  intro box r' slip deadline hstate
  have hwaiting := CallState.eq_waiting_of_ofProgress hstate
  unfold Network.beginSend at hwaiting ⊢
  split at hwaiting
  · cases hwaiting
  · exact trySend_expects hwaiting

theorem expects_of_waiting (h : x.Tabled) {stage : Sending} (found : x.sends[i]? = some call)
    (hstate : call.state = .underWay stage) :
    ∀ box r slip deadline, stage = .waiting box r slip deadline → x.network.Expects box r.key slip :=
  fun box r slip deadline heq => h.expects i call box r slip deadline found (heq ▸ hstate)

theorem divert (h : x.Tabled) (owner : TaskId) (other : PeerId) :
    (x.divert owner other).Tabled := by
  have hages : Ages none x.network (x.network.divert owner other) := divert_ages owner other _
  refine ⟨hages.keyed h.keyed, fun i after box r slip deadline found hstate => ?_⟩
  obtain ⟨before, hbefore, rfl⟩ := Option.map_eq_some_iff.mp (List.getElem?_map.symm.trans found)
  refine hages.expects _ _ _ nofun ?_
  -- a detour changes neither mailbox nor key
  cases hstage : before.state with
  | underWay stage =>
    rw [hstage] at hstate
    cases stage with
    | blocked box' r' wake => cases hstate
    | waiting box' r' slip' deadline' =>
      cases hstate
      rw [Request.key_divert]
      exact h.expects i before box r' slip deadline hbefore hstage
  | fresh => rw [hstage] at hstate; cases hstate
  | ended a => rw [hstage] at hstate; cases hstate
  | cancelled => rw [hstage] at hstate; cases hstate

theorem step (h : x.Tabled) (hx : x.Accounted) (event : Event) : (x.step event).Tabled := by
  have hstep := x.stepsTo_step event
  generalize x.step event = y at hstep ⊢
  cases hstep with
  | idles _ => exact h
  | register now node => exact h.keep (register_ages now node x.network)
  | shutdown now node => exact h.keep (shutdown_ages now node x.network)
  | clear now => exact h.keep (clear_ages now x.network)
  | setSwitches box f => exact h.keep (setSwitches_ages box f x.network)
  | divert owner other => exact h.divert owner other
  | note now what => exact h.keep (.note x.network now what)
  | beginSend now t r => exact h.beginSend hx now t r
  | turnSend now found hstate =>
    have hexpects := h.expects_of_waiting found hstate
    refine h.turnOfSend hx found (turnSend_ages now h.keyed hexpects)
      (fun slip => (hx.senders _ _ found).slip?_eq hstate) fun box r slip deadline hstate' => ?_
    exact turnSend_expects hexpects (CallState.eq_waiting_of_ofProgress hstate')
  | cancelSend found hstate =>
    exact h.turnOfSend hx found (cancelSend_ages _ x.network)
      (fun slip => (hx.senders _ _ found).slip?_eq hstate) nofun
  | beginTake now t node =>
    exact (h.keep (beginTake_ages now t node x.network)).withCalls _ x.replies
  | turnTake now _ _ => exact (h.keep (turnTake_ages now _ _ x.network)).withCalls _ x.replies
  | cancelTake _ _ => exact (h.keep (cancelTake_ages _ _ x.network)).withCalls _ x.replies
  | beginReply now t r outcome =>
    exact (h.keep (beginReply_ages now r outcome h.keyed)).withCalls x.takes _
  | turnReply now _ _ => exact (h.keep (turnReply_ages now _ h.keyed)).withCalls x.takes _
  | cancelReply _ _ => exact h.withCalls x.takes _

/-- Whatever happens keeps what can be relied on, for all slips but one. -/
theorem step_ages (h : x.Tabled) (event : Event) :
    ∃ own, Ages own x.network (x.step event).network := by
  have hstep := x.stepsTo_step event
  generalize x.step event = y at hstep ⊢
  cases hstep with
  | idles _ => exact ⟨none, .refl _⟩
  | register now node => exact ⟨none, register_ages now node x.network⟩
  | shutdown now node => exact ⟨none, shutdown_ages now node x.network⟩
  | clear now => exact ⟨none, clear_ages now x.network⟩
  | setSwitches box f => exact ⟨none, setSwitches_ages box f x.network⟩
  | divert owner other => exact ⟨none, divert_ages owner other x.network⟩
  | note now what => exact ⟨none, .note x.network now what⟩
  | beginSend now t r => exact ⟨none, beginSend_ages now r h.keyed⟩
  | turnSend now found hstate =>
    exact ⟨_, turnSend_ages now h.keyed (h.expects_of_waiting found hstate)⟩
  | cancelSend _ _ => exact ⟨_, cancelSend_ages _ x.network⟩
  | beginTake now t node => exact ⟨none, beginTake_ages now t node x.network⟩
  | turnTake now _ _ => exact ⟨none, turnTake_ages now _ _ x.network⟩
  | cancelTake _ _ => exact ⟨none, cancelTake_ages _ _ x.network⟩
  | beginReply now t r outcome => exact ⟨none, beginReply_ages now r outcome h.keyed⟩
  | turnReply now _ _ => exact ⟨none, turnReply_ages now _ h.keyed⟩
  | cancelReply _ _ => exact ⟨none, .refl _⟩

theorem stable : Stable fun x => x.Accounted ∧ x.Tabled :=
  fun _ event h => ⟨h.1.step event, h.2.step h.1 event⟩

theorem reached (settings : Settings) (dice : Nat → UInt64) (events : List Event) :
    (reached settings dice events).Tabled :=
  (stable.run ⟨.new settings dice, .new settings dice⟩ events).2

end Tabled

end Traffic

end Replica
