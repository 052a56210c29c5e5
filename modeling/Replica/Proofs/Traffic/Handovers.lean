import Replica.Proofs.Traffic.Facing
import Replica.Proofs.Traffic.Punctuality

/-!
# Outcomes on slips were handed over

An outcome that a caller finds on its slip was handed over to it, and that is in the story of the network
(`Attested`). It was handed over under the key of the caller's own request, but it may be the outcome of
another request with this key (`told_reached`).
-/

namespace Replica

open Network

variable {net : Network} {box : MailboxId} {r : Request} {slip : SlipId} {outcome : Outcome} {now : Nat}

namespace Sending

/-- The request of a sender that is under way. -/
def request : Sending → Request
  | blocked _ r _ | waiting _ r _ _ => r

theorem request_divert (owner : TaskId) (other : PeerId) (stage : Sending) :
    (stage.divert owner other).request = stage.request.divert owner other := by
  cases stage <;> rfl

end Sending

namespace Network

/-! ## What is written -/

/-- An outcome that reaches a caller is written down. -/
theorem deliver_attests (now : Nat) (outcome : Outcome) (h : net.caller? r = some slip) :
    ∃ box, .answered box r outcome slip ∈ (net.deliver now r outcome).story := by
  obtain ⟨box, hbox, hslip⟩ := Option.bind_eq_some_iff.mp h
  refine ⟨box, ?_⟩
  simp only [deliver, hbox, hslip]
  rw [story_note]
  exact List.mem_append_right _ (List.mem_singleton.mpr rfl)

theorem beginReply_attests (hended : (net.beginReply now r outcome).2 = .ended (.ok ()))
    (h : net.caller? r = some slip) :
    ∃ box, .answered box r outcome slip ∈ (net.beginReply now r outcome).1.story := by
  have hdelay (hended : (beginReply.delay now r outcome net).2 = .ended (.ok ())) :
      ∃ box, .answered box r outcome slip ∈ (beginReply.delay now r outcome net).1.story := by
    unfold beginReply.delay at hended ⊢
    dsimp only at hended ⊢
    split at hended
    · next hzero =>
      rw [if_pos hzero]
      exact deliver_attests now outcome h
    · cases hended
  unfold beginReply at hended ⊢
  split at hended
  · split at hended
    · next hanswers =>
      rw [if_pos hanswers]
      exact hdelay hended
    · cases hended
  · exact hdelay hended

theorem turnReply_attests {stage : Replying} (hended : (net.turnReply now stage).2 = .ended (.ok ()))
    (h : net.caller? stage.request = some slip) :
    ∃ box, .answered box stage.request stage.outcome slip ∈ (net.turnReply now stage).1.story := by
  unfold turnReply at hended ⊢
  split at hended
  · next hwake =>
    rw [if_pos hwake]
    exact deliver_attests now stage.outcome h
  · cases hended

/-! ## What senders send -/

variable {stage stage' : Sending}

theorem checkSlip_request {deadline : Nat}
    (h : (net.checkSlip now box r slip deadline).2 = .waiting stage) : stage.request = r := by
  obtain ⟨-, rfl⟩ := checkSlip_waiting h
  rfl

theorem trySend_request (h : (net.trySend now box r).2 = .waiting stage) : stage.request = r := by
  unfold trySend at h
  split at h
  · cases h
  · split at h
    · cases h
      rfl
    · unfold enqueue at h
      split at h
      · cases h
      · dsimp only at h
        split at h
        · cases h
        · exact checkSlip_request h

theorem beginSend_request (h : (net.beginSend now r).2 = .waiting stage) : stage.request = r := by
  unfold beginSend at h
  split at h
  · cases h
  · exact trySend_request h

theorem turnSend_request (h : (net.turnSend now stage).2 = .waiting stage') :
    stage'.request = stage.request := by
  cases stage with
  | blocked box r wake =>
    rw [turnSend] at h
    split at h
    · exact trySend_request h
    · cases h
      rfl
  | waiting box r slip deadline => exact checkSlip_request h

end Network

namespace Traffic

variable {x : Traffic} {i j : Nat} {t : TaskId} {stage : Sending} {deadline : Nat} {call : SendCall}
variable {reply : ReplyCall} {event : Event}

/-- A reply that has reached a caller has ended, and has found it in the table. -/
theorem of_reached {caller : Option SlipId} {progress : ReplyProgress}
    (h : CallState.ofProgress (ReplyEnd.of caller) progress = .ended (.reached slip)) :
    progress = .ended (.ok ()) ∧ caller = some slip := by
  match progress, caller with
  | .ended (.ok ()), some slip' =>
    cases h
    exact ⟨rfl, rfl⟩
  | .ended (.ok ()), none => cases h
  | .ended (.error e), _ => cases h
  | .waiting stage, _ => cases h

theorem mem_story_step (x : Traffic) (event : Event) {what : Occurrence}
    (h : what ∈ x.network.story) : what ∈ (x.step event).network.story := by
  by_cases hnote : ∃ now what, event = .note now what
  · obtain ⟨now, what', rfl⟩ := hnote
    show what ∈ (x.network.note now what').story
    rw [story_note]
    exact List.mem_append_left _ h
  · obtain ⟨written, hstory, -⟩ := step_recorded (x := x) event fun now what heq => hnote ⟨now, what, heq⟩
    have hstory : (x.step event).network.story = x.network.story ++ written := hstory
    rw [hstory]
    exact List.mem_append_left _ h

/-- Whoever was reached was handed the outcome. -/
def Attested (x : Traffic) : Prop := ∀ j slip reply, x.Reaches j slip reply →
  ∃ box, .answered box reply.request reply.outcome slip ∈ x.network.story

theorem Attested.step (h : x.Attested) (ha : x.Accounted) (event : Event) : (x.step event).Attested := by
  rintro j slip reply ⟨found', hended⟩
  have hbefore {reply : ReplyCall} (hreach : x.Reaches j slip reply) :
      ∃ box, .answered box reply.request reply.outcome slip ∈ (x.step event).network.story := by
    obtain ⟨box, hmem⟩ := h j slip reply hreach
    exact ⟨box, mem_story_step x event hmem⟩
  rcases begins_or_replyStep found' with ⟨now, t, r, outcome, rfl, rfl⟩ | ⟨before, found, hstep⟩
  · obtain ⟨hended, hcaller⟩ := of_reached hended
    exact beginReply_attests hended hcaller
  · cases hstep with
    | stays _ => exact hbefore ⟨found, hended⟩
    | diverts owner other => exact hbefore (reaches_divert_iff.mp ⟨found', hended⟩)
    | @turns now stage hstate =>
      obtain ⟨hended, hcaller⟩ := of_reached hended
      obtain ⟨hrequest, houtcome⟩ := ha.repliers j before found stage hstate
      have hattests := turnReply_attests hended hcaller
      rw [hrequest, houtcome] at hattests
      have hnetwork : (x.step (.turnReply now j)).network = (x.network.turnReply now stage).1 :=
        congrArg network (turnReply_eq found hstate now)
      rw [hnetwork]
      exact hattests
    | cancels _ => cases hended

theorem attested_stable : Stable fun x => x.Accounted ∧ x.Attested :=
  fun _ event h => ⟨h.1.step event, h.2.step h.1 event⟩

theorem attested_reached (settings : Settings) (dice : Nat → UInt64) (events : List Event) :
    (reached settings dice events).Attested := by
  have hnew : Attested { network := { settings, dice } } := by
    rintro j slip reply ⟨found, -⟩
    cases found
  exact (attested_stable.run ⟨.new settings dice, hnew⟩ events).2

/-! ## Keys of senders -/

/-- Senders are entered under the keys of their own requests. -/
def Keyed (x : Traffic) : Prop := ∀ (i : Nat) (call : SendCall) (stage : Sending),
  x.sends[i]? = some call → call.state = .underWay stage → stage.request.key = call.request.key

theorem Keyed.step (h : x.Keyed) (event : Event) : (x.step event).Keyed := by
  intro i call' stage' found' hstate'
  rcases begins_or_sendStep found' with ⟨now, t, r, rfl, rfl⟩ | ⟨call, found, hstep⟩
  · exact congrArg Request.key (beginSend_request (CallState.eq_waiting_of_ofProgress hstate'))
  · cases hstep with
    | stays _ => exact h i call' stage' found hstate'
    | diverts owner other =>
      obtain ⟨stage, hstate, rfl⟩ := CallState.mapStage_eq_underWay hstate'
      rw [Sending.request_divert, Request.key_divert]
      exact h i call stage found hstate
    | turns now hstate =>
      rw [turnSend_request (CallState.eq_waiting_of_ofProgress hstate')]
      exact h i call _ found hstate
    | cancels _ => cases hstate'

theorem keyed_stable : Stable Keyed := fun _ event h => h.step event

theorem keyed_reached (settings : Settings) (dice : Nat → UInt64) (events : List Event) :
    (reached settings dice events).Keyed := by
  have hnew : Keyed { network := { settings, dice } } := fun i call stage found => nomatch found
  exact keyed_stable.run hnew events

/-- What a sender finds on its slip was handed over to it under its key. -/
theorem told_reached (settings : Settings) (dice : Nat → UInt64) (events : List Event)
    (h : (reached settings dice events).SendsAt t (.waiting box r slip deadline))
    (hwritten : (reached settings dice events).network.Written slip outcome) :
    ∃ box' r', .answered box' r' outcome slip ∈ (reached settings dice events).network.story ∧
      r'.key = r.key := by
  have ha := Accounted.reached settings dice events
  obtain ⟨i, call, found, -, hstate⟩ := h
  have hkey : r.key = call.request.key := keyed_reached settings dice events i call _ found hstate
  have hslip := (ha.senders i call found).waiting _ _ _ _ hstate
  obtain ⟨j, reply, hreach, rfl⟩ := ha.written slip outcome hwritten
  obtain ⟨k, caller, howns, hmatched, -⟩ := ha.matched j slip reply hreach
  obtain rfl := ha.apart i k slip call caller ⟨found, hslip⟩ howns
  obtain rfl := Option.some.inj (found.symm.trans howns.1)
  obtain ⟨box', hmem⟩ := attested_reached settings dice events j slip reply hreach
  exact ⟨box', reply.request, hmem, hmatched.trans hkey.symm⟩

end Traffic

end Replica
