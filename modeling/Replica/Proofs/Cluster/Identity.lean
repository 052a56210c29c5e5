import Mathlib.Data.List.Induction
import Replica.Cluster.Echo
import Replica.Proofs.Cluster.Events
import Replica.Proofs.Traffic.Correlation

/-!
# What is checked of a reply

Whoever replies is asked whether the reply names the requestor and the replier of its request, and not
whether it has the number of its request. So a caller can rely on the two nodes whatever the services
do, and on the number only as long as all of them keep to it (`replies_name_nodes`); one that does not
is believed (`other_call_accepted`).
-/

namespace Replica

open Network

namespace Traffic

variable {x : Traffic} {reply : ReplyCall} {event : Event}

/-- The reply names the nodes of its request, or has been refused for not doing so. -/
def Checked (reply : ReplyCall) : Prop :=
  answers reply.request reply.outcome = true ∨
    ∃ given, reply.outcome = .ok given ∧
      reply.state = .ended (.refused (mismatched reply.request given))

/-- What comes of a reply that does not name the nodes of its request. -/
theorem beginReply_of_mismatched {net : Network} {r : Request} {given : Reply} (now : Nat)
    (h : answers r (.ok given) = false) :
    (net.beginReply now r (.ok given)).2 = .ended (.error (mismatched r given)) := by
  simp only [Network.beginReply, h, Bool.false_eq_true, if_false]

/-- Every reply is checked as it begins, and its request stays the same but for detours. -/
theorem checked_step (h : ∀ reply ∈ x.replies, Checked reply)
    (hdetour : ∀ owner other, event ≠ .divert owner other) :
    ∀ reply ∈ (x.step event).replies, Checked reply := by
  intro reply' hreply
  obtain ⟨j, found'⟩ := List.getElem?_of_mem hreply
  rcases begins_or_replyStep found' with ⟨now, t, r, outcome, rfl, rfl⟩ | ⟨reply, found, hstep⟩
  · cases hanswers : answers r outcome with
    | true => exact .inl hanswers
    | false =>
      cases outcome with
      | error e => cases hanswers
      | ok given =>
        refine .inr ⟨given, rfl, ?_⟩
        rw [beginReply_of_mismatched now hanswers]
        rfl
  · have hchecked := h reply (List.mem_of_getElem? found)
    -- a call that is under way has not been refused
    have hanswers {stage : Replying} (hstate : reply.state = .underWay stage) :
        answers reply.request reply.outcome = true := by
      rcases hchecked with hanswers | ⟨given, -, hrefused⟩
      · exact hanswers
      · cases hstate.symm.trans hrefused
    cases hstep with
    | stays _ => exact hchecked
    | diverts owner other => exact absurd rfl (hdetour owner other)
    | turns now hstate => exact .inl (hanswers hstate)
    | cancels hstate => exact .inl (hanswers hstate)

theorem checked_reached (settings : Settings) (dice : Nat → UInt64) (events : List Event)
    (hdetour : ∀ owner other, .divert owner other ∉ events) :
    ∀ reply ∈ (reached settings dice events).replies, Checked reply := by
  induction events using List.reverseRecOn with
  | nil => exact List.forall_mem_nil _
  | append_singleton events event ih =>
    have hbefore := ih fun owner other hmem => hdetour owner other (List.mem_append_left _ hmem)
    rw [reached_concat]
    refine checked_step hbefore fun owner other heq => hdetour owner other ?_
    rw [heq]
    exact List.mem_append_right _ (List.mem_singleton.mpr rfl)

/-- In every run without detours, with any settings and any numbers from the random source: a caller
that receives a reply receives one that names the requestor and the replier of its request, and that
has its number if all replies have the numbers of their requests. A reply that does not name these nodes
is refused, and reaches nobody. -/
theorem replies_name_nodes (settings : Settings) (dice : Nat → UInt64) (events : List Event)
    (hdetour : ∀ owner other, .divert owner other ∉ events) :
    (∀ (i : Nat) (call : SendCall) (given : Reply),
      (reached settings dice events).sends[i]? = some call →
      call.state = .ended (.received (.ok given)) →
      given.requestor = call.request.requestor ∧ given.replier = call.request.replier ∧
        ((∀ reply ∈ (reached settings dice events).replies, ∀ other, reply.outcome = .ok other →
          other.callId = reply.request.callId) → given.callId = call.request.callId)) ∧
    ∀ (j : Nat) (reply : ReplyCall) (given : Reply),
      (reached settings dice events).replies[j]? = some reply → reply.outcome = .ok given →
      given.requestor ≠ reply.request.requestor ∨ given.replier ≠ reply.request.replier →
      reply.state = .ended (.refused (mismatched reply.request given)) ∧
        ∀ slip, ¬ (reached settings dice events).Reaches j slip reply := by
  have h := Accounted.reached settings dice events
  have hchecked := checked_reached settings dice events hdetour
  generalize reached settings dice events = x at h hchecked
  constructor
  · intro i call given found hstate
    obtain ⟨slip, hslip, hwritten⟩ := (h.senders i call found).received _ hstate
    obtain ⟨j, reply, hreach, houtcome⟩ := h.written slip _ hwritten
    have hhands : x.Hands j i := ⟨slip, reply, call, _, hreach, ⟨found, hslip⟩, hstate⟩
    obtain ⟨hkey, hreplier⟩ := h.key_of_hands hhands hreach.1 found
    have hmem := List.mem_of_getElem? hreach.1
    rcases hchecked reply hmem with hanswers | ⟨_, -, hrefused⟩
    · rw [houtcome] at hanswers
      obtain ⟨hrequestor, hreplies⟩ := Bool.and_eq_true_iff.mp hanswers
      refine ⟨?_, (beq_iff_eq.mp hreplies).trans hreplier, fun hnumbers => ?_⟩
      · exact (beq_iff_eq.mp hrequestor).trans (congrArg RequestKey.requestor hkey)
      · exact (hnumbers reply hmem given houtcome).trans (congrArg RequestKey.callId hkey)
    -- a reply that was refused has reached nobody
    · cases hrefused.symm.trans hreach.2
  · intro j reply given found houtcome hother
    rcases hchecked reply (List.mem_of_getElem? found) with hanswers | ⟨given', houtcome', hrefused⟩
    · rw [houtcome] at hanswers
      obtain ⟨hrequestor, hreplies⟩ := Bool.and_eq_true_iff.mp hanswers
      rcases hother with hne | hne
      · exact absurd (beq_iff_eq.mp hrequestor) hne
      · exact absurd (beq_iff_eq.mp hreplies) hne
    · cases houtcome.symm.trans houtcome'
      exact ⟨hrefused, fun slip hreach => nomatch hrefused.symm.trans hreach.2⟩

section

/-- A request of a client to the node. -/
private def inquiry : Request where
  requestor := "c"
  target := "s"
  callId := 1

/-- Of three replies the first one names another requestor, and the last one comes too late. -/
def correction : List Event :=
  [.register 0 "s", .beginSend 0 0 inquiry, .beginTake 0 1 "s",
    .beginReply 0 1 inquiry (.ok { inquiry.answer "no" with requestor := "d" }),
    .beginReply 0 1 inquiry (.ok (inquiry.answer "yes")),
    .beginReply 0 1 inquiry (.ok (inquiry.answer "late")), .turnSend 0 0]

theorem replies_name_nodes_in_correction :
    (∀ owner other, .divert owner other ∉ correction) ∧
    (reached {} (fun _ => 0) correction).sends.map (·.state) =
      [.ended (.received (.ok (inquiry.answer "yes")))] ∧
    (inquiry.answer "yes").requestor = inquiry.requestor ∧
    (reached {} (fun _ => 0) correction).replies[0]?.map (·.state) = some (.ended (.refused
      (mismatched inquiry { inquiry.answer "no" with requestor := "d" }))) := by
  have hdetour : ∀ owner other, .divert owner other ∉ correction := fun owner other h => by
    simp [correction] at h
  obtain ⟨hnames, hrefused⟩ := replies_name_nodes {} (fun _ => 0) correction hdetour
  refine ⟨hdetour, by rfl, (hnames 0 _ (inquiry.answer "yes") rfl rfl).1, ?_⟩
  exact congrArg some (hrefused 0 _ _ rfl rfl (.inl (by decide))).1

end

end Traffic

namespace Cluster

/-- The echo service is asked for a reply with another number, and gives it. -/
def mixUp : List (Event Echo) :=
  [.register 0 "s2", .serve "s2" "test" {}, .startWorkers 0 0,
    .begin 0 (.send { requestor := "c", target := "s2", callId := 1, body := "wrong-call" }),
    .turn 0 0, .turn 0 1]

/-- The caller receives the reply with the other number. -/
theorem other_call_accepted :
    (reached Echo.service {} (fun _ => 0) mixUp).ended? 1 =
      some (0, .outcome (.ok ⟨"c", "s2", 2, "other call"⟩)) := by
  decide +kernel

end Cluster

end Replica
