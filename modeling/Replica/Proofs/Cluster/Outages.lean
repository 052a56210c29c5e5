import Replica.Proofs.Cluster.Repairs

/-!
# What a lost connection says

Over a link, a request that finds no node is answered with a lost connection, and the link is made anew. The
peer is out of reach in two cases: its node is not registered when the request sets out, or its mailbox is
closed while the request is under way and no outcome has been handed over (`Outage`). In each of them the
sender hears of a lost connection.

But a handler may have looked for a node itself and found none. What a live peer returns is passed on as it
is, apart from this one error, which nobody can tell from the network's own (`Returned`). `Reported` puts it
together, and `connections_reported` shows it of every request that sets out over an open link.
-/

namespace Replica

open Network

/-- The connection is reported to be lost. -/
def LostConnection (o : Outcome) : Prop := ∃ id cause, o = .error (.core (.connection id cause))

theorem lostConnection_outcome_iff {raw : Outcome} :
    LostConnection (Link.outcome raw) ↔ LostConnection raw ∨ ∃ id, raw = .error (.nodeNotFound id) := by
  unfold LostConnection
  cases raw with
  | ok reply => simp [Link.outcome]
  | error e => cases e <;> simp [Link.outcome]

theorem Link.outcome_of_ne {raw : Outcome} (h : ∀ id, raw ≠ .error (.nodeNotFound id)) :
    Link.outcome raw = raw := by
  unfold Link.outcome
  split
  · next id => exact absurd rfl (h id)
  · rfl

/-- A sender that is cut off from its node finds no node. -/
theorem Sending.Ends.of_cutOff {net : Network} {now : Nat} {stage : Sending} {raw : Outcome}
    (h : stage.Ends now net raw) (hcut : stage.CutOff net) : ∃ node, raw = .error (.nodeNotFound node) := by
  cases h with
  | cutOff node h => exact ⟨node, rfl⟩
  | handed h => exact absurd h hcut.not_handed
  | overdue r what hopen hblank hdue =>
    cases hcut with
    | waiting r deadline h hnone => exact absurd h hopen
  | hasty r wake what hopen hzero =>
    cases hcut with
    | blocked r wake h => exact absurd h hopen
  | inUse r wake what hopen =>
    cases hcut with
    | blocked r wake h => exact absurd h hopen

namespace Cluster

variable {σ : Type} (service : Service σ) (settings : Settings) (dice : Nat → UInt64)
variable (before : List (Event σ)) (event : Event σ) (after : List (Event σ))
variable (t : TaskId)

/-- At some time from the event on, the task had its request under way over a link, and it was as
stated. -/
def During (P : Sending → Network → Prop) : Prop :=
  ∃ mid rest stage, after = mid ++ rest ∧
    (reached service settings dice (before ++ event :: mid)).SendsAt t stage Link.outcome ∧
    P stage (reached service settings dice (before ++ event :: mid)).network

/-- The node was out of reach: it was not registered when the request set out, or its mailbox was closed
while the request was under way, and nothing had been handed over to the task. -/
def Outage (r : Request) : Prop :=
  (reached service settings dice before).network.registry.get? r.replier = none ∨
    During service settings dice before event after t fun stage net => stage.CutOff net

/-- Somebody replied to the request with the outcome. -/
def Returned (raw : Outcome) : Prop :=
  During service settings dice before event after t fun stage net => stage.Handed net raw

/-- What the task has heard of its request says how the request has ended. -/
structure Reported (r : Request) (o : Outcome) : Prop where
  /-- A connection is lost in an outage, and when a handler returns just this error or has found no node
  itself. -/
  lost : LostConnection o ↔ Outage service settings dice before event after t r ∨
    ∃ raw, Returned service settings dice before event after t raw ∧
      (LostConnection raw ∨ ∃ id, raw = .error (.nodeNotFound id))
  /-- Everything else that is returned is passed on as it is. -/
  unchanged : ∀ raw, Returned service settings dice before event after t raw →
    (∀ id, raw ≠ .error (.nodeNotFound id)) → o = raw
  /-- Without an outage, and if nothing is returned, the sender has given up. -/
  gaveUp : ¬ Outage service settings dice before event after t r →
    (∀ raw, ¬ Returned service settings dice before event after t raw) →
      (∃ what ms, o = .error (.timeout what ms)) ∨ ∃ what, o = .error (.invalidArgument what)
  /-- A repair resets the link in an outage, and otherwise only if what was returned asks for it. -/
  resets : repairOf o = some true ↔ Outage service settings dice before event after t r ∨
    ∃ raw, Returned service settings dice before event after t raw ∧
      repairOf (Link.outcome raw) = some true
  /-- A relay that has ended has repaired its link as the error that it heard asks for. -/
  repaired : ∀ time sent reset,
    (reached service settings dice (before ++ event :: after)).tasks[t]? =
      some (.finished time (.relayed sent reset)) → sent = o ∧ reset = repairOf o

variable {service settings dice before event after t} {l : Link} {r : Request} {o raw : Outcome} {now : Nat}
variable {stage : Sending} {net : Network}

theorem beginLinkSend_of_carries (now : Nat) (net : Network) (h : l.carries r = true) :
    net.beginLinkSend now l false r = (net.beginSend now r).map id (Progress.map id Link.outcome) := by
  have hnone : l.refusal? false r = none := by simp [Link.refusal?, h]
  rw [beginLinkSend, hnone]

/-- What held at some time while the request was under way holds in the last turn of the task. -/
theorem During.last_turn {P : Sending → Network → Prop}
    (h : During service settings dice before event after t P) (hP : Lasts P)
    (hheard : (reached service settings dice (before ++ event :: after)).heard? t = some o) :
    ∃ events now stage raw, P stage (reached service settings dice events).network ∧
      stage.Ends now (reached service settings dice events).network raw ∧ o = Link.outcome raw := by
  obtain ⟨mid, rest, stage, rfl, hsends, hstage⟩ := h
  have hsplit : before ++ event :: (mid ++ rest) = (before ++ event :: mid) ++ rest := by
    rw [List.append_assoc, List.cons_append]
  rw [hsplit] at hheard
  cases Cluster.last_turn service hP hsends hstage hheard with
  | intro mid' rest' now hsends' hstage' hended ho =>
    have hfaces := faces_reached service hsends'
    exact ⟨_, now, _, _, hstage', hfaces.ends (lawful_network service settings dice _).1 hended, ho⟩

theorem Returned.heard (h : Returned service settings dice before event after t raw)
    (hheard : (reached service settings dice (before ++ event :: after)).heard? t = some o) :
    o = Link.outcome raw := by
  obtain ⟨events, now, stage, raw', hhanded, hends, rfl⟩ := h.last_turn (lasts_handed raw) hheard
  cases hends with
  | cutOff node hcut => exact absurd hhanded hcut.not_handed
  | handed hhanded' => rw [hhanded'.unique hhanded]
  | overdue r what hopen hblank hdue =>
    cases hhanded with
    | intro box r deadline hwritten => cases hblank.symm.trans hwritten
  | hasty r wake what hopen hzero => cases hhanded
  | inUse r wake what hopen => cases hhanded

/-- A sender over an open link that carries its request sets out on the network. -/
theorem departs_of_carries (hsets : SetsOut (reached service settings dice before) t now event
    (some (l, false)) r) (hcarries : l.carries r = true) :
    Departs t (some (l, false))
      (((reached service settings dice before).network.beginSend now r).map id
        (Progress.map id Link.outcome))
      (reached service settings dice (before ++ [event])) := by
  have hdeparts := hsets.departs service
  rw [setOut, beginLinkSend_of_carries now _ hcarries, ← reached_concat] at hdeparts
  exact hdeparts

theorem Outage.heard (h : Outage service settings dice before event after t r)
    (hsets : SetsOut (reached service settings dice before) t now event (some (l, false)) r)
    (hcarries : l.carries r = true)
    (hheard : (reached service settings dice (before ++ event :: after)).heard? t = some o) :
    LostConnection o := by
  rcases h with hnone | hcut
  · have hdeparts := departs_of_carries hsets hcarries
    have hbegin : (reached service settings dice before).network.beginSend now r =
        ((reached service settings dice before).network, .ended (.error (.nodeNotFound r.replier))) := by
      simp only [beginSend, hnone]
    rw [hbegin] at hdeparts
    have hheard' := hdeparts.ends _ rfl
    rw [List.append_cons, reached_append] at hheard
    rw [heard_run service hheard' after hheard]
    exact ⟨_, _, rfl⟩
  · obtain ⟨events, now, stage, raw, hcut, hends, rfl⟩ := hcut.last_turn lasts_cutOff hheard
    obtain ⟨node, rfl⟩ := hends.of_cutOff hcut
    exact ⟨_, _, rfl⟩

/-- There are four ways in which a task comes to hear of its request. -/
theorem heard_cases
    (hsets : SetsOut (reached service settings dice before) t now event (some (l, false)) r)
    (hcarries : l.carries r = true)
    (hheard : (reached service settings dice (before ++ event :: after)).heard? t = some o) :
    Outage service settings dice before event after t r ∨
      (∃ raw, Returned service settings dice before event after t raw) ∨
      (∃ what ms, o = .error (.timeout what ms)) ∨ ∃ what, o = .error (.invalidArgument what) := by
  have hdeparts := departs_of_carries hsets hcarries
  have hsplit : before ++ event :: after = (before ++ [event]) ++ after := List.append_cons ..
  rw [hsplit] at hheard
  cases hprogress : ((reached service settings dice before).network.beginSend now r).2 with
  | ended raw =>
    have hheard' := hdeparts.ends (Link.outcome raw) (by simp only [Prod.map, hprogress, Progress.map])
    rw [reached_append] at hheard
    rw [heard_run service hheard' after hheard]
    obtain ⟨-, hord, hup⟩ := lawful_network service settings dice before
    cases beginSend_ended hord hup hprogress with
    | notFound hnone hsame => exact .inl (.inl hnone)
    | inUse what hsame => exact .inr (.inr (.inr ⟨what, rfl⟩))
    | hasty what hzero => exact .inr (.inr (.inl ⟨what, 0, rfl⟩))
  | waiting stage =>
    have hsends := hdeparts.waits stage (by simp only [Prod.map, hprogress, Progress.map, id])
    have hlast := last_turn service ⟨fun _ _ _ _ _ _ _ => trivial, fun _ _ _ _ _ => trivial,
      fun _ _ _ _ _ _ _ _ _ _ => trivial⟩ (P := fun _ _ => True) hsends trivial hheard
    cases hlast with
    | @intro stage raw mid rest now hsends' _ hended ho =>
      have hhere : (before ++ [event]) ++ mid = before ++ event :: mid := (List.append_cons ..).symm
      rw [hhere] at hsends' hended
      have hfaces := faces_reached service hsends'
      cases hfaces.ends (lawful_network service settings dice _).1 hended with
      | cutOff node hcut => exact .inl (.inr ⟨mid, _, stage, rfl, hsends', hcut⟩)
      | handed hhanded => exact .inr (.inl ⟨raw, mid, _, stage, rfl, hsends', hhanded⟩)
      | overdue r what hopen hblank hdue => exact .inr (.inr (.inl ⟨_, _, ho⟩))
      | hasty r wake what hopen hzero => exact .inr (.inr (.inl ⟨_, _, ho⟩))
      | inUse r wake what hopen => exact .inr (.inr (.inr ⟨_, ho⟩))

theorem Sending.CutOff.isClosed (h : stage.CutOff net) : ∃ box, net.IsClosed box := by
  cases h with
  | blocked r wake h => exact ⟨_, h⟩
  | waiting r deadline h hnone => exact ⟨_, h⟩

/-- After an outage there is a mailbox that is closed, unless the node was not registered. -/
theorem Outage.isClosed (h : Outage service settings dice before event after t r) :
    (reached service settings dice before).network.registry.get? r.replier = none ∨
      ∃ box, (reached service settings dice (before ++ event :: after)).network.IsClosed box := by
  refine h.imp_right ?_
  rintro ⟨mid, rest, stage, rfl, -, hcut⟩
  obtain ⟨box, hclosed⟩ := Sending.CutOff.isClosed hcut
  have hsettles := settles_run service settings dice (before ++ event :: mid) rest
  rw [List.append_assoc, List.cons_append] at hsettles
  exact ⟨box, hsettles.closed box hclosed⟩

variable (service settings dice before event after t)

/-- On a new network, with any service and any run: whatever a task hears of a request that it has sent over
an open link which carries it, it says how the request has ended. A lost connection means that the
node was out of reach, or that somebody replied with just that or with having found no node. -/
theorem connections_reported
    (hsets : SetsOut (reached service settings dice before) t now event (some (l, false)) r)
    (hcarries : l.carries r = true)
    (hheard : (reached service settings dice (before ++ event :: after)).heard? t = some o) :
    Reported service settings dice before event after t r o := by
  constructor
  · constructor
    · intro hlost
      rcases heard_cases hsets hcarries hheard with houtage | ⟨raw, hreturned⟩ | ⟨what, ms, rfl⟩ |
        ⟨what, rfl⟩
      · exact .inl houtage
      · rw [hreturned.heard hheard, lostConnection_outcome_iff] at hlost
        exact .inr ⟨raw, hreturned, hlost⟩
      · obtain ⟨id, cause, heq⟩ := hlost
        cases heq
      · obtain ⟨id, cause, heq⟩ := hlost
        cases heq
    · rintro (houtage | ⟨raw, hreturned, hraw⟩)
      · exact houtage.heard hsets hcarries hheard
      · rw [hreturned.heard hheard, lostConnection_outcome_iff]
        exact hraw
  · intro raw hreturned hraw
    rw [hreturned.heard hheard, Link.outcome_of_ne hraw]
  · intro houtage hreturned
    rcases heard_cases hsets hcarries hheard with h | ⟨raw, h⟩ | h
    · exact absurd h houtage
    · exact absurd h (hreturned raw)
    · exact h
  · constructor
    · intro hresets
      rcases heard_cases hsets hcarries hheard with houtage | ⟨raw, hreturned⟩ | ⟨what, ms, rfl⟩ |
        ⟨what, rfl⟩
      · exact .inl houtage
      · exact .inr ⟨raw, hreturned, hreturned.heard hheard ▸ hresets⟩
      · cases hresets
      · cases hresets
    · rintro (houtage | ⟨raw, hreturned, hraw⟩)
      · obtain ⟨id, cause, rfl⟩ := houtage.heard hsets hcarries hheard
        rfl
      · rw [hreturned.heard hheard]
        exact hraw
  · intro time sent reset found
    have hasHeard := repairsAsHeard_reached service found
    rw [heard?_of_found found] at hheard
    cases hheard
    exact ⟨rfl, hasHeard⟩

section

/-- A request of `a` to `b`. -/
private def inquiry : Request where
  requestor := "a"
  target := "b"
  callId := 0

private def toB : Link := ⟨"a", ⟨"b", "b:1"⟩, 0, 0⟩

/-- A handler that looks for a node and does not find it. -/
private def searcher : Service Unit where
  isAlive _ := true
  serve _ s := (s, { ending := .failure (.nodeNotFound "c") })

/-- A relay is about to get its link to `b`, which has a server. -/
private def asking : List (Event Unit) :=
  [.register 0 "b", .serve "b" "w" (), .addDirectory "a" "links" [⟨"b", "b:1"⟩],
    .begin 0 (.relay 0 "b" inquiry)]

/-- `b` goes away before it has replied. -/
private def outage : List (Event Unit) := [.shutdown 1 "b", .turn 1 0, .turn 1 0]

theorem connections_reported_in_outage :
    toB.carries { inquiry with owner := some 0 } = true ∧
      (reached searcher {} (fun _ => 0) (asking ++ .turn 0 0 :: outage)).tasks[0]? =
        some (.finished 1 (.relayed (.error (.core (.connection "b" "peer is not alive"))) (some true))) ∧
      Reported searcher {} (fun _ => 0) asking (.turn 0 0) outage 0
        { inquiry with owner := some 0 } (.error (.core (.connection "b" "peer is not alive"))) := by
  have hsets : SetsOut (reached searcher {} (fun _ => 0) asking) 0 0 (.turn 0 0)
      (some (toB, false)) { inquiry with owner := some 0 } :=
    .connected 0 "b" 0 _ toB (by rfl) (by rfl)
  exact ⟨by decide, by rfl, connections_reported searcher {} (fun _ => 0) asking (.turn 0 0)
    outage 0 hsets (by decide) (by rfl)⟩

/-- `b` replies that it has not found `c`. -/
private def search : List (Event Unit) := [.begin 1 (.work 0 0), .turn 1 0, .turn 1 0]

/-- A live peer that has not found another node loses its link, though it was never out of reach. -/
theorem live_peer_loses_link :
    (reached searcher {} (fun _ => 0) (asking ++ .turn 0 0 :: search)).tasks[0]? =
        some (.finished 1 (.relayed (.error (.core (.connection "c" "peer is not alive"))) (some true))) ∧
      Returned searcher {} (fun _ => 0) asking (.turn 0 0) search 0 (.error (.nodeNotFound "c")) ∧
      ¬ Outage searcher {} (fun _ => 0) asking (.turn 0 0) search 0
        { inquiry with owner := some 0 } := by
  refine ⟨by rfl, ?_, fun h => ?_⟩
  · exact ⟨[.begin 1 (.work 0 0)], [.turn 1 0, .turn 1 0], _, rfl, ⟨_, rfl, .relay 0 "b" _⟩,
      .intro 0 _ _ rfl⟩
  · rcases h.isClosed with hnone | ⟨box, b, found, hclosed⟩
    · exact absurd hnone (by decide)
    · match box with
      | 0 =>
        cases found
        cases hclosed
      | box + 1 => cases found

end

end Cluster

end Replica
