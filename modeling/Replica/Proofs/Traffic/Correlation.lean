import Replica.Proofs.Traffic.Runs

/-!
# Correlation of replies

Replies find their callers by keys, in whatever table is registered for their nodes by then. Still a
caller receives nothing but the outcome of the one reply that reached its own entry
(`replies_correlated`): replies that come late, come twice, or come from workers of a node that has
been registered again are received by nobody else.
-/

namespace Replica.Traffic

variable {call call' : SendCall} {reply : ReplyCall} {x : Traffic} {i j k : Nat} {slip : SlipId}

/-- No two requests that were sent have one key. -/
def DistinctKeys (x : Traffic) : Prop := (x.sends.map (·.request.key)).Nodup

instance (x : Traffic) : Decidable x.DistinctKeys := by
  unfold DistinctKeys
  infer_instance

/-- The caller has received an outcome, on a slip that the reply has reached. -/
def Hands (x : Traffic) (j i : Nat) : Prop :=
  ∃ slip reply call outcome, x.Reaches j slip reply ∧ x.Owns i slip call ∧
    call.state = .ended (.received outcome)

/-- Callers and replies belong together. -/
structure Correlated (x : Traffic) : Prop where
  /-- What a caller has received is the outcome of a reply to its very request. -/
  answered : ∀ (i : Nat) (call : SendCall) (outcome : Outcome), x.sends[i]? = some call →
    call.state = .ended (.received outcome) →
    ∃ j reply, x.replies[j]? = some reply ∧ x.Hands j i ∧ reply.outcome = outcome ∧
      reply.request.key = call.request.key ∧ reply.request.replier = call.request.replier
  /-- It is the first reply to that request that reached a caller, and the last. -/
  first : ∀ (i j k : Nat) (call : SendCall) (slip : SlipId) (reply : ReplyCall), x.Hands j i →
    x.sends[i]? = some call → x.Reaches k slip reply → reply.request.key = call.request.key → k = j
  /-- It is no reply to the request of another caller. -/
  own : ∀ (i j k : Nat) (reply : ReplyCall) (call : SendCall), x.Hands j i →
    x.replies[j]? = some reply → x.sends[k]? = some call →
    reply.request.key = call.request.key → k = i
  /-- No outcome is received by two callers. -/
  once : ∀ i j k : Nat, x.Hands j i → x.Hands j k → i = k
  /-- No caller receives the outcomes of two replies. -/
  single : ∀ i j k : Nat, x.Hands j i → x.Hands k i → j = k

namespace Accounted

theorem eq_of_hands (h : x.Accounted) (hj : x.Hands j i) (hk : x.Hands k i) : j = k := by
  obtain ⟨slip, reply, call, outcome, hreach, howns, -⟩ := hj
  obtain ⟨slip', reply', call', outcome', hreach', howns', -⟩ := hk
  obtain rfl := Option.some.inj (howns.1.symm.trans howns'.1)
  obtain rfl := Option.some.inj (howns.2.symm.trans howns'.2)
  exact h.once j k slip reply reply' hreach hreach'

/-- A reply reaches the caller of its own request. -/
theorem key_of_hands (h : x.Accounted) (hhands : x.Hands j i) (hreply : x.replies[j]? = some reply)
    (found : x.sends[i]? = some call) :
    reply.request.key = call.request.key ∧ reply.request.replier = call.request.replier := by
  obtain ⟨slip, reply', call', outcome, hreach, howns, -⟩ := hhands
  obtain rfl := Option.some.inj (hreply.symm.trans hreach.1)
  obtain rfl := Option.some.inj (found.symm.trans howns.1)
  obtain ⟨k, caller, hcaller, hrest⟩ := h.matched j slip reply hreach
  obtain rfl := h.apart i k slip call caller howns hcaller
  obtain rfl := Option.some.inj (found.symm.trans hcaller.1)
  exact hrest

end Accounted

theorem DistinctKeys.eq (h : x.DistinctKeys) (hi : x.sends[i]? = some call)
    (hj : x.sends[j]? = some call') (heq : call.request.key = call'.request.key) : i = j := by
  have hlt : i < (x.sends.map (·.request.key)).length := by
    rw [List.length_map]
    exact lt_length_of_getElem? hi
  refine (List.getElem?_inj hlt h).mp ?_
  rw [List.getElem?_map, List.getElem?_map, hi, hj, Option.map_some, Option.map_some, heq]

/-- In every run on a new network, with any settings and any numbers from the random source, in
which no two requests are sent under one key: a caller that ends with what was on its slip has the
outcome of the first reply to its very request that reached a caller; no caller receives the outcome
of another request or those of two replies, and no outcome is received by two callers. -/
theorem replies_correlated (settings : Settings) (dice : Nat → UInt64) (events : List Event)
    (hdistinct : (reached settings dice events).DistinctKeys) :
    (reached settings dice events).Correlated := by
  have h := Accounted.reached settings dice events
  generalize reached settings dice events = x at hdistinct h
  constructor
  · intro i call outcome found hstate
    obtain ⟨slip, hslip, hwritten⟩ := (h.senders i call found).received outcome hstate
    obtain ⟨j, reply, hreach, houtcome⟩ := h.written slip outcome hwritten
    have hhands : x.Hands j i := ⟨slip, reply, call, outcome, hreach, ⟨found, hslip⟩, hstate⟩
    exact ⟨j, reply, hreach.1, hhands, houtcome, h.key_of_hands hhands hreach.1 found⟩
  · intro i j k call slip reply hhands found hreach hkey
    obtain ⟨slip', reply', call', outcome, hreach', howns', -⟩ := hhands
    obtain rfl := Option.some.inj (found.symm.trans howns'.1)
    -- the caller that the other reply has reached has the key as well, so it is the same
    obtain ⟨l, caller, hcaller, hkey', -⟩ := h.matched k slip reply hreach
    obtain rfl := hdistinct.eq found hcaller.1 (hkey.symm.trans hkey')
    obtain rfl := Option.some.inj (found.symm.trans hcaller.1)
    obtain rfl := Option.some.inj (hcaller.2.symm.trans howns'.2)
    exact h.once k j slip reply reply' hreach hreach'
  · intro i j k reply call hhands hreply found hkey
    obtain ⟨slip, reply', caller, outcome, hreach, howns, hstate⟩ := id hhands
    obtain ⟨hkey', -⟩ := h.key_of_hands hhands hreply howns.1
    exact hdistinct.eq found howns.1 (hkey.symm.trans hkey')
  · intro i j k hi hk
    obtain ⟨slip, reply, call, outcome, hreach, howns, -⟩ := hi
    obtain ⟨slip', reply', call', outcome', hreach', howns', -⟩ := hk
    obtain rfl := Option.some.inj (hreach.1.symm.trans hreach'.1)
    cases hreach.2.symm.trans hreach'.2
    exact h.apart i k slip call call' howns howns'
  · exact fun i j k hj hk => h.eq_of_hands hj hk

section

/-- A request of a client to the node. -/
private def ask (client : String) (number : UInt64) : Request :=
  { requestor := client, target := "s", callId := number }

/-- Two clients use the same numbers. The node is registered again while the first request is dealt
with, whose reply comes too late; another request is replied to twice. -/
def race : List Event :=
  [.register 0 "s", .beginSend 0 0 (ask "a" 1), .beginTake 0 1 "s", .register 1 "s",
    .turnSend 1 0, .beginSend 2 2 (ask "a" 2), .beginSend 2 3 (ask "b" 2),
    .beginReply 3 1 (ask "a" 1) (.ok ((ask "a" 1).answer "late")),
    .beginReply 4 4 (ask "b" 2) (.error (.internal "broken")),
    .beginReply 4 4 (ask "a" 2) (.ok ((ask "a" 2).answer "first")),
    .beginReply 5 5 (ask "a" 2) (.ok ((ask "a" 2).answer "second")),
    .turnSend 6 1, .turnSend 6 2]

theorem replies_correlated_in_race :
    (reached {} (fun _ => 0) race).DistinctKeys ∧
      (reached {} (fun _ => 0) race).sends.map (·.state) =
        [.ended (.failed (.error (.nodeNotFound "s"))),
          .ended (.received (.ok ((ask "a" 2).answer "first"))),
          .ended (.received (.error (.internal "broken")))] ∧
      (reached {} (fun _ => 0) race).Correlated :=
  ⟨by decide +kernel, by rfl, replies_correlated {} (fun _ => 0) race (by decide +kernel)⟩

end

end Replica.Traffic
