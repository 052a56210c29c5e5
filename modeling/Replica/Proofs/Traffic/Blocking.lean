import Replica.Proofs.Network.Balance
import Replica.Proofs.Traffic.History
import Replica.Proofs.Traffic.Punctuality

/-!
# Calls that wait until a node is not blocked

Nothing comes into a mailbox but with a call that comes to it and finds the switch off (`Inflow`). A call
that finds the switch on comes again after each interval, at no other time, and however often the switch is
set in between; when it finds the switch off, or the mailbox closed, it is settled at once and comes no more
(`Polls`).

An interval of more than thirty years is over after thirty years.
-/

namespace Replica

namespace Network

variable {net net' : Network} {box k : MailboxId} {b : Mailbox} {r : Request} {written : List Occurrence}
variable {puts : MailboxId → Request → Prop}

/-! ## What comes into mailboxes -/

/-- When it is recorded, and nothing is written of requests that were put into a mailbox, nothing has come
into it. -/
theorem Recorded.suffix (h : Recorded net net') (hstory : net'.story = net.story ++ written)
    (hnone : ∀ what ∈ written, what.pushed? k = none) : net'.contents k <:+ net.contents k := by
  have hbalance := (h.moves hstory).balance k
  have hpushes : pushes k written = [] := by
    rw [pushes, List.filterMap_eq_nil_iff.mpr hnone, List.map_nil]
  rw [hpushes, List.append_nil] at hbalance
  exact ⟨_, hbalance.symm⟩

theorem Resets.suffix (h : Resets written net net') (hrecorded : Recorded net net') :
    net'.contents k <:+ net.contents k := by
  refine hrecorded.suffix h.story fun what hmem => ?_
  obtain ⟨box, requests, rfl⟩ := h.discards what hmem
  rfl

theorem contents_modifyMailbox {f : Mailbox → Mailbox} (hf : ∀ b, (f b).requests = b.requests) :
    (net.modifyMailbox box f).contents k = net.contents k := by
  have hmailbox : (net.modifyMailbox box f).mailboxes[k]? =
      net.mailboxes[k]?.map fun b => if box = k then f b else b := List.getElem?_modify ..
  rw [contents, contents, hmailbox, Option.map_map]
  refine congrArg (fun requests => (Option.getD requests []).map Request.plain) ?_
  refine congrArg (fun g => Option.map g net.mailboxes[k]?) (funext fun b => ?_)
  show Mailbox.requests (if box = k then f b else b) = b.requests
  split
  · exact hf b
  · rfl

/-- Calls put requests nowhere but where they may. -/
theorem Effects.contents_eq (h : Effects puts net net') (hnone : ∀ r, ¬ puts k r) :
    net'.contents k = net.contents k := by
  induction h with
  | refl => rfl
  | tail _ hlast ih =>
    rw [← ih]
    cases hlast with
    | put now hputs found hfree hpush =>
      refine congrArg (fun b : Option Mailbox => ((b.map (·.requests)).getD []).map Request.plain) ?_
      refine List.getElem?_set_ne fun heq => ?_
      exact hnone _ (heq ▸ hputs)
    | strike box key => exact contents_modifyMailbox fun _ => rfl
    | mark slip f hf => rfl
    | roll => rfl
    | remark now hwhat => rfl
    | leave t box => exact contents_modifyMailbox fun b => (leave_requests t b).1

theorem takeFrom_suffix (now : Nat) (t : TaskId) (box : MailboxId) (net : Network) :
    (net.takeFrom now t box).1.contents k <:+ net.contents k := by
  have hrecorded := takeFrom_recorded now t box net
  have hglance := takeFrom_glance now t box net
  have hdrops (dropped : List Request) :
      ∀ what ∈ dropped.map (Occurrence.dropped box t), what.pushed? k = none :=
    List.forall_mem_map.mpr fun _ _ => rfl
  generalize net.takeFrom now t box = result at hrecorded hglance
  cases hglance with
  | nowhere hnone => exact List.suffix_rfl
  | shut found hclosed => exact hrecorded.suffix (handBack_story now box _ [] net) (List.forall_mem_nil _)
  | @waits b found hopen hdropped =>
    exact hrecorded.suffix (handBack_story now box _ _ net) (hdrops b.requests)
  | @takes b dropped rest r found hopen hsplit hdropped hkept =>
    have htaken : ∀ what ∈ dropped.map (Occurrence.dropped box t) ++ [.taken box t r],
        what.pushed? k = none :=
      List.forall_mem_append.mpr ⟨hdrops dropped, List.forall_mem_singleton.mpr rfl⟩
    have hstory := handBack_story now box { b with wakeUp := false, requests := rest }
      (dropped.map (.dropped box t) ++ [.taken box t r]) net
    rcases receive_cases now box { b with wakeUp := false, requests := rest } r
      (net.handBack now box { b with wakeUp := false, requests := rest }
        (dropped.map (.dropped box t) ++ [.taken box t r])) with ⟨-, heq⟩ | ⟨-, heq⟩ | ⟨-, wake, heq⟩
    · rw [heq] at hrecorded ⊢
      have hraised : ∀ what ∈ dropped.map (Occurrence.dropped box t) ++ [.taken box t r] ++
          [.raised (misrouted b.id r)], what.pushed? k = none :=
        List.forall_mem_append.mpr ⟨htaken, List.forall_mem_singleton.mpr rfl⟩
      refine hrecorded.suffix ?_ hraised
      rw [story_note, hstory, List.append_assoc]
    · rw [heq] at hrecorded ⊢
      exact hrecorded.suffix hstory htaken
    · rw [heq] at hrecorded ⊢
      exact hrecorded.suffix hstory htaken

theorem beginTake_suffix (now : Nat) (t : TaskId) (node : PeerId) (net : Network) :
    (net.beginTake now t node).1.contents k <:+ net.contents k := by
  unfold beginTake
  split
  · exact List.suffix_rfl
  · dsimp only
    split
    · exact takeFrom_suffix now t _ net
    · exact List.suffix_rfl

theorem turnTake_suffix (now : Nat) (t : TaskId) (stage : Taking) (net : Network) :
    (net.turnTake now t stage).1.contents k <:+ net.contents k := by
  cases stage with
  | delayed box wake =>
    rw [turnTake]
    split
    · exact takeFrom_suffix now t box net
    · exact List.suffix_rfl
  | looking box =>
    rw [turnTake]
    split
    · exact takeFrom_suffix now t box net
    · exact List.suffix_rfl
  | holding box r wake =>
    rw [turnTake]
    split <;> exact List.suffix_rfl

end Network

open Network

namespace Traffic

variable {x : Traffic} {i j : Nat} {box k : MailboxId} {b : Mailbox} {r r' : Request} {node : PeerId}
variable {event : Event} {events before before' after rest rest' : List Event}
variable {start time now later wake interval n : Nat} {t : TaskId}

/-- The call comes to the mailbox, which is neither blocked nor closed, and its request is the last one there
afterwards. -/
structure Enqueues (x : Traffic) (box : MailboxId) (r : Request) (now i : Nat) (event : Event) : Prop where
  comes : x.Comes box r now i event
  enters : ∃ b b', x.network.mailboxes[box]? = some b ∧ b.switches.blockTo = false ∧ b.closed = false ∧
    (x.step event).network.mailboxes[box]? = some b' ∧ b'.requests = b.requests ++ [r]

/-- A sender that comes puts its request into the mailbox, or does nothing to it. -/
theorem Comes.inflow (h : x.Comes box r now i event) :
    x.Enqueues box r now i event ∨ (x.step event).network = x.network := by
  obtain ⟨hnetwork, -⟩ := h.step
  cases found : x.network.mailboxes[box]? with
  | none =>
    refine .inr (hnetwork.trans ?_)
    simp only [trySend, found]
  | some b =>
    cases hblocked : b.isBlocked with
    | true => exact .inr (h.blocked found hblocked).1
    | false =>
      cases hclosed : b.closed with
      | true =>
        refine .inr (hnetwork.trans ?_)
        unfold trySend
        rw [found]
        simp only [hblocked, Bool.false_eq_true, if_false]
        unfold enqueue
        split
        · rfl
        · have hfull : (b.enter r.key x.network.slips.length).push? r = none := if_pos hclosed
          simp only [hfull]
      | false =>
        by_cases hkey : r.key ∈ b.replies.map (·.1)
        · exact .inr (h.refused found hblocked hkey).1
        · obtain ⟨b', hfound', hrequests⟩ := (h.admitted found hblocked hclosed hkey).queued
          have hswitch : b.switches.blockTo = false := by
            rw [Mailbox.isBlocked, hclosed, Bool.not_false, Bool.and_true] at hblocked
            exact hblocked
          exact .inl ⟨h, b, b', found, hswitch, hclosed, hfound', hrequests⟩

/-- Nothing comes into another mailbox than the one that the sender comes to. -/
theorem Comes.contents_eq (h : x.Comes box r now i event) (hk : box ≠ k) :
    (x.step event).network.contents k = x.network.contents k := by
  have heffects : Effects (fun box' _ => box' = box) x.network (x.network.trySend now box r).1 :=
    trySend_effects now rfl
  rw [h.step.1]
  exact heffects.contents_eq fun _ heq => hk heq.symm

/-- Nothing comes into a mailbox if no sender comes to one. -/
theorem step_suffix (hnone : ∀ box r now i, ¬ x.Comes box r now i event) (k : MailboxId) :
    (x.step event).network.contents k <:+ x.network.contents k := by
  let nowhere : MailboxId → Request → Prop := fun _ _ => False
  have heffects {net' : Network} (h : Effects nowhere x.network net') :
      net'.contents k <:+ x.network.contents k := by
    have hsame : net'.contents k = x.network.contents k := h.contents_eq fun _ => id
    exact hsame ▸ List.suffix_rfl
  have hstep := x.stepsTo_step event
  generalize x.step event = y at hstep ⊢
  cases hstep with
  | idles _ => exact List.suffix_rfl
  | register now node =>
    obtain ⟨written, h⟩ := register_resets now node x.network
    exact h.suffix (register_recorded now node x.network)
  | shutdown now node =>
    obtain ⟨written, h⟩ := shutdown_resets now node x.network
    exact h.suffix (shutdown_recorded now node x.network)
  | clear now =>
    obtain ⟨written, h⟩ := clear_resets now x.network
    exact h.suffix (clear_recorded now x.network)
  | setSwitches box f => exact (setSwitches_resets box f x.network).suffix (setSwitches_recorded ..)
  | divert owner other =>
    have hdiverted := divert_recorded owner other x.network
    exact hdiverted.suffix (List.append_nil _).symm (List.forall_mem_nil _)
  | note now what => exact List.suffix_rfl
  | beginSend now t r =>
    cases hget : x.network.registry.get? r.replier with
    | none =>
      rw [Traffic.beginSend, Network.beginSend]
      simp only [hget]
      exact List.suffix_rfl
    | some box => exact absurd (.begins t hget) (hnone box r now _)
  | @turnSend now i call stage found hstate =>
    cases stage with
    | waiting box r slip deadline => exact heffects (checkSlip_effects now box r slip deadline _)
    | blocked box r wake =>
      have hearly : ¬ wake ≤ now := fun hwake => hnone box r now i (.returns found hstate hwake)
      simp only [Network.turnSend, if_neg hearly]
      exact List.suffix_rfl
  | cancelSend _ _ => exact heffects (cancelSend_effects _ _)
  | beginTake now t node => exact beginTake_suffix now t node x.network
  | turnTake now _ _ => exact turnTake_suffix now _ _ x.network
  | cancelTake _ _ => exact heffects (cancelTake_effects _ _ _)
  | beginReply now t r outcome => exact heffects (beginReply_effects now r outcome _)
  | turnReply now _ _ => exact heffects (turnReply_effects now _ _)
  | cancelReply _ _ => exact List.suffix_rfl

/-- Whatever happens, nothing comes into the mailbox, or a call puts its request there. -/
theorem step_inflow (x : Traffic) (event : Event) (k : MailboxId) :
    (x.step event).network.contents k <:+ x.network.contents k ∨
      ∃ i r now, x.Enqueues k r now i event := by
  by_cases hcomes : ∃ box r now i, x.Comes box r now i event
  · obtain ⟨box, r, now, i, h⟩ := hcomes
    rcases h.inflow with henqueues | hsame
    · by_cases hk : box = k
      · subst hk
        exact .inr ⟨i, r, now, henqueues⟩
      · rw [h.contents_eq hk]
        exact .inl List.suffix_rfl
    · rw [hsame]
      exact .inl List.suffix_rfl
  · exact .inl (step_suffix (fun box r now i h => hcomes ⟨box, r, now, i, h⟩) k)

/-! ## Whose requests come into mailboxes -/

/-- A sender that looks again has kept its request. -/
theorem trySend_keeps {box' : MailboxId} {net : Network}
    (h : (net.trySend now box r).2 = .waiting (.blocked box' r' wake)) : r' = r := by
  unfold trySend at h
  split at h
  · cases h
  · split at h
    · cases h
      rfl
    · exact absurd h enqueue_ne_blocked

theorem turnSend_keeps {net : Network} {stage : Sending}
    (h : (net.turnSend now stage).2 = .waiting (.blocked box r wake)) :
    ∃ box' wake', stage = .blocked box' r wake' := by
  cases stage with
  | blocked box' r' wake' =>
    rw [Network.turnSend] at h
    split at h
    · exact ⟨box', wake', by rw [trySend_keeps h]⟩
    · cases h
      exact ⟨box, wake, rfl⟩
  | waiting box' r' slip deadline => cases (checkSlip_waiting h).2

/-- Calls that are blocked have the requests that they were made with, detours apart. -/
def CarriesOwn (x : Traffic) : Prop :=
  ∀ (i : Nat) (call : SendCall) (box : MailboxId) (r : Request) (wake : Nat), x.sends[i]? = some call →
    call.state = .underWay (.blocked box r wake) → r.plain = call.request.plain

theorem CarriesOwn.step (h : x.CarriesOwn) (event : Event) : (x.step event).CarriesOwn := by
  intro i call' box r' wake found' hstate'
  rcases begins_or_sendStep found' with ⟨now, t, r, rfl, rfl⟩ | ⟨call, found, hstep⟩
  · have hwaiting := CallState.eq_waiting_of_ofProgress hstate'
    unfold Network.beginSend at hwaiting
    split at hwaiting
    · cases hwaiting
    · exact congrArg Request.plain (trySend_keeps hwaiting)
  · cases hstep with
    | stays _ => exact h i call' box r' wake found hstate'
    | diverts owner other =>
      obtain ⟨stage, hstate, hdivert⟩ := CallState.mapStage_eq_underWay hstate'
      obtain ⟨r, rfl, rfl⟩ := Sending.divert_eq_blocked hdivert
      exact (r.plain_divert owner other).trans (h i call box r wake found hstate)
    | turns now hstate =>
      obtain ⟨box', wake', rfl⟩ := turnSend_keeps (CallState.eq_waiting_of_ofProgress hstate')
      exact h i call box' r' wake' found hstate
    | cancels _ => cases hstate'

theorem CarriesOwn.stable : Stable CarriesOwn := fun _ event h => h.step event

theorem CarriesOwn.run (h : x.CarriesOwn) (events : List Event) : (x.run events).CarriesOwn :=
  stable.run h events

/-- The request is that of the call, detours apart. -/
theorem Comes.own (h : x.Comes box r now i event) (hx : x.CarriesOwn) :
    ∃ call, (x.step event).sends[i]? = some call ∧ r.plain = call.request.plain := by
  cases h with
  | begins t hget => exact ⟨_, List.getElem?_concat_length, rfl⟩
  | @returns i wake call found hstate hwake =>
    obtain ⟨call', found', hrequest⟩ := madeWith_stable i call.request x (.turnSend now i) ⟨call, found, rfl⟩
    exact ⟨call', found', hrequest ▸ hx i call box r wake found hstate⟩

/-! ## Each call once -/

/-- Who comes, where to, when, and with which request, is said by the event. -/
theorem Comes.unique {box' : MailboxId} {now' : Nat} (h : x.Comes box r now i event)
    (h' : x.Comes box' r' now' j event) : i = j ∧ box = box' ∧ r = r' ∧ now = now' := by
  cases h with
  | begins t hget =>
    cases h' with
    | begins t' hget' =>
      rw [hget] at hget'
      exact ⟨rfl, Option.some.inj hget', rfl, rfl⟩
  | returns found hstate hwake =>
    cases h' with
    | returns found' hstate' hwake' =>
      obtain rfl := Option.some.inj (found.symm.trans found')
      cases hstate.symm.trans hstate'
      exact ⟨rfl, rfl, rfl, rfl⟩

/-- A call that has put its request into a mailbox is not blocked any more. -/
theorem Enqueues.unblocked (h : x.Enqueues box r now i event) : Unblocked i (x.step event) := by
  obtain ⟨b, b', found, hswitch, -⟩ := h.enters
  refine h.comes.unblocked found ?_
  rw [Mailbox.isBlocked, hswitch, Bool.false_and]

/-- What comes into the mailboxes in a run. -/
structure Inflow (x : Traffic) (events : List Event) : Prop where
  /-- Whatever happens, nothing comes into a mailbox, or a call finds it neither blocked nor closed, and puts
  its request there. -/
  inflow : ∀ before event rest, events = before ++ event :: rest → ∀ box,
    ((x.run before).step event).network.contents box <:+ (x.run before).network.contents box ∨
      ∃ i r now, (x.run before).Enqueues box r now i event
  /-- It is the request that the call was made with, detours apart. -/
  own : ∀ before event rest box r now i, events = before ++ event :: rest →
    (x.run before).Enqueues box r now i event →
    ∃ call, ((x.run before).step event).sends[i]? = some call ∧ r.plain = call.request.plain
  /-- No call does so twice, and no two calls do so at once. -/
  once : ∀ before event rest box r now i before' event' rest' box' r' now' j,
    events = before ++ event :: rest → (x.run before).Enqueues box r now i event →
    events = before' ++ event' :: rest' → (x.run before').Enqueues box' r' now' j event' →
    (i = j ↔ before = before')

/-- One of two beginnings of a run is part of the other. -/
theorem before_or_after {α : Type} {a b c d : List α} {p q : α} (h : a ++ p :: b = c ++ q :: d) :
    a = c ∨ (∃ mid, c = a ++ p :: mid) ∨ ∃ mid, a = c ++ q :: mid := by
  rcases List.append_eq_append_iff.mp h with ⟨mid, rfl, heq⟩ | ⟨mid, rfl, heq⟩
  · cases mid with
    | nil => exact .inl (List.append_nil _).symm
    | cons m mid =>
      cases heq
      exact .inr (.inl ⟨mid, rfl⟩)
  · cases mid with
    | nil => exact .inl (List.append_nil _)
    | cons m mid =>
      cases heq
      exact .inr (.inr ⟨mid, rfl⟩)

theorem CarriesOwn.inflow (hx : x.CarriesOwn) (events : List Event) : x.Inflow events where
  inflow before event rest _ box := step_inflow (x.run before) event box
  own before event rest box r now i _ h := h.comes.own (hx.run before)
  once before event rest box r now i before' event' rest' box' r' now' j heq h heq' h' := by
    have hnever {before mid before' : List Event} {event event' : Event} {box box' : MailboxId}
        {r r' : Request} {now now' i : Nat} (h : (x.run before).Enqueues box r now i event)
        (h' : (x.run before').Enqueues box' r' now' i event') (hmid : before' = before ++ event :: mid) :
        False := by
      have hunblocked := (unblocked_stable i).run h.unblocked mid
      rw [hmid, run_append] at h'
      exact h'.comes.not_unblocked hunblocked
    constructor
    · rintro rfl
      rcases before_or_after (heq.symm.trans heq') with hsame | ⟨mid, hmid⟩ | ⟨mid, hmid⟩
      · exact hsame
      · exact (hnever h h' hmid).elim
      · exact (hnever h' h hmid).elim
    · rintro rfl
      cases List.append_cancel_left (heq.symm.trans heq')
      exact (h.comes.unique h'.comes).1

/-! ## Looking after each interval -/

/-- The call is blocked at the mailbox, and looks again at the time. -/
def BlockedUntil (i : Nat) (box : MailboxId) (wake : Nat) (x : Traffic) : Prop :=
  ∃ call r, x.sends[i]? = some call ∧ call.state = .underWay (.blocked box r wake)

/-- From its start on the call has looked `n` times and found the mailbox blocked, once after each interval
and at no other times. -/
structure Looked (x : Traffic) (events : List Event) (i : Nat) (box : MailboxId) (start interval n : Nat) :
    Prop where
  looked : ∀ k < n, ∃ before event rest b r,
    x.Visits events i before event rest box b r (start + k * interval) ∧ b.isBlocked = true
  only : ∀ before event rest box' b r time, x.Visits events i before event rest box' b r time →
    b.isBlocked = true → box' = box ∧ ∃ k < n, time = start + k * interval

/-- What becomes of a call that finds the mailbox of the node not blocked. -/
inductive Settles (x : Traffic) (i : Nat) (event : Event) (box : MailboxId) (b : Mailbox) (node : PeerId)
    (r : Request) (now : Nat) : Prop where
  /-- The mailbox is closed. -/
  | closed (hclosed : b.closed = true)
    (hended : Ended i (.failed (.error (.nodeNotFound node))) (x.step event))
  /-- The key of the call is in use. -/
  | refused (hopen : b.closed = false) (hkey : r.key ∈ b.replies.map (·.1))
    (hended : Ended i (.failed (.error (inFlight r.key b))) (x.step event))
  | enqueued (hopen : b.closed = false) (hkey : r.key ∉ b.replies.map (·.1))
    (henqueues : x.Enqueues box r now i event)

/-- How far a call has come by the time `now` that looks at the mailbox of the node after each interval. -/
inductive Polls (x : Traffic) (events : List Event) (i : Nat) (box : MailboxId) (node : PeerId)
    (start interval now : Nat) : Prop where
  /-- All looks so far have been in vain, and the next one is still to come. -/
  | blocked (n : Nat) (hlooked : x.Looked events i box start interval n)
    (hfree : ∀ before event rest box' b r time, x.Visits events i before event rest box' b r time →
      b.isBlocked = true)
    (hblocked : BlockedUntil i box (start + n * interval) (x.run events))
    (hnow : now ≤ start + n * interval)
  /-- All looks but the last one have been in vain, and with the last one it was settled. -/
  | settled (n : Nat) (hlooked : x.Looked events i box start interval n) (before : List Event)
    (event : Event) (rest : List Event) (b : Mailbox) (r : Request)
    (hvisits : x.Visits events i before event rest box b r (start + n * interval))
    (hfree : b.isBlocked = false)
    (hsettles : (x.run before).Settles i event box b node r (start + n * interval))
    (hlast : ∀ later event' box' r' time', ¬ (x.run (before ++ event :: later)).Comes box' r' time' i event')

theorem Comes.settles (h : x.Comes box r now i event) (hx : x.Lawful)
    (found : x.network.mailboxes[box]? = some b) (hfree : b.isBlocked = false) :
    x.Settles i event box b b.id r now := by
  cases hclosed : b.closed with
  | true =>
    have hended := trySend_of_shut now r (hx.closings.shut found hclosed)
    exact .closed hclosed (h.ended (congrArg (·.2) hended))
  | false =>
    by_cases hkey : r.key ∈ b.replies.map (·.1)
    · obtain ⟨-, call, hcall, hstate⟩ := h.refused found hfree hkey
      exact .refused hclosed hkey ⟨call, hcall, hstate⟩
    · refine .enqueued hclosed hkey ⟨h, ?_⟩
      obtain ⟨b', hfound', hrequests⟩ := (h.admitted found hfree hclosed hkey).queued
      refine ⟨b, b', found, ?_, hclosed, hfound', hrequests⟩
      rw [Mailbox.isBlocked, hclosed, Bool.not_false, Bool.and_true] at hfree
      exact hfree

namespace Visits

theorem concat (h : x.Visits events i before event rest box b r time) (last : Event) :
    x.Visits (events ++ [last]) i before event (rest ++ [last]) box b r time :=
  ⟨by rw [h.split, List.append_assoc, List.cons_append], h.comes, h.found⟩

/-- The call has come before, or comes with the last event. -/
theorem of_concat {last : Event} (h : x.Visits (events ++ [last]) i before event rest box b r time) :
    (∃ rest', x.Visits events i before event rest' box b r time) ∨
      (before = events ∧ (x.run events).Comes box r time i last ∧
        (x.run events).network.mailboxes[box]? = some b) := by
  obtain ⟨hsplit, hcomes, found⟩ := h
  rcases List.eq_nil_or_concat rest with rfl | ⟨rest, last', rfl⟩
  · obtain ⟨rfl, heq⟩ := List.append_inj' hsplit rfl
    cases heq
    exact .inr ⟨rfl, hcomes, found⟩
  · rw [List.concat_eq_append, ← List.cons_append, ← List.append_assoc] at hsplit
    obtain ⟨rfl, -⟩ := List.append_inj' hsplit rfl
    exact .inl ⟨rest, rfl, hcomes, found⟩

end Visits

namespace Looked

/-- It has looked before the last event. -/
theorem earlier (h : x.Looked events i box start interval n) (event : Event) {k : Nat} (hk : k < n) :
    ∃ before first rest b r,
      x.Visits (events ++ [event]) i before first rest box b r (start + k * interval) ∧
        b.isBlocked = true := by
  obtain ⟨before, first, rest, b, r, hvisits, hblocked⟩ := h.looked k hk
  exact ⟨before, first, rest ++ [event], b, r, hvisits.concat event, hblocked⟩

/-- The call does not look. -/
theorem concat (h : x.Looked events i box start interval n)
    (hnot : ∀ box r time, ¬ (x.run events).Comes box r time i event) :
    x.Looked (events ++ [event]) i box start interval n where
  looked _ := h.earlier event
  only before first rest box' b r time hvisits hblocked := by
    rcases hvisits.of_concat with ⟨rest', hvisits⟩ | ⟨-, hcomes, -⟩
    · exact h.only before first rest' box' b r time hvisits hblocked
    · exact absurd hcomes (hnot box' r time)

/-- The call looks, and finds the mailbox blocked. -/
theorem again (h : x.Looked events i box start interval n)
    (hcomes : (x.run events).Comes box r (start + n * interval) i event)
    (found : (x.run events).network.mailboxes[box]? = some b) (hblocked : b.isBlocked = true) :
    x.Looked (events ++ [event]) i box start interval (n + 1) where
  looked k hk := by
    rcases Nat.lt_succ_iff_lt_or_eq.mp hk with hk | rfl
    · exact h.earlier event hk
    · exact ⟨events, event, [], b, r, ⟨rfl, hcomes, found⟩, hblocked⟩
  only before first rest box' b' r' time hvisits hblocked' := by
    rcases hvisits.of_concat with ⟨rest', hvisits⟩ | ⟨-, hcomes', -⟩
    · obtain ⟨hbox, k, hk, htime⟩ := h.only before first rest' box' b' r' time hvisits hblocked'
      exact ⟨hbox, k, hk.trans (Nat.lt_succ_self n), htime⟩
    · obtain ⟨-, rfl, -, rfl⟩ := hcomes.unique hcomes'
      exact ⟨rfl, n, Nat.lt_succ_self n, rfl⟩

/-- The call looks, and finds the mailbox not blocked. -/
theorem last (h : x.Looked events i box start interval n)
    (hcomes : (x.run events).Comes box r (start + n * interval) i event)
    (found : (x.run events).network.mailboxes[box]? = some b) (hfree : b.isBlocked = false) :
    x.Looked (events ++ [event]) i box start interval n where
  looked _ := h.earlier event
  only before first rest box' b' r' time hvisits hblocked := by
    rcases hvisits.of_concat with ⟨rest', hvisits⟩ | ⟨-, hcomes', found'⟩
    · exact h.only before first rest' box' b' r' time hvisits hblocked
    · obtain ⟨-, rfl, -, -⟩ := hcomes.unique hcomes'
      obtain rfl := Option.some.inj (found.symm.trans found')
      exact absurd hblocked (Bool.eq_false_iff.mp hfree)

end Looked

/-- A call that is blocked stands where it stood, unless it gets a turn or is cancelled. -/
theorem BlockedUntil.step (h : BlockedUntil i box wake x) (hother : ¬ event.IsOf i) :
    BlockedUntil i box wake (x.step event) := by
  obtain ⟨call, r, found, hstate⟩ := h
  obtain ⟨call', found', -, hrerouted⟩ := sends_step found hother
  have hstands (owner : TaskId) (other : PeerId) :
      ∃ r', (Sending.blocked box r wake).divert owner other = .blocked box r' wake := ⟨_, rfl⟩
  obtain ⟨stage, hstate', r', rfl⟩ := (hstate ▸ hrerouted).underWay
    (P := fun stage => ∃ r', stage = Sending.blocked box r' wake) ⟨r, rfl⟩ hstands
  exact ⟨call', r', found', hstate'⟩

/-- A turn that comes too early. -/
theorem BlockedUntil.early (h : BlockedUntil i box wake x) (hnow : now < wake) :
    BlockedUntil i box wake (x.step (.turnSend now i)) := by
  obtain ⟨call, r, found, hstate⟩ := h
  rw [Traffic.step, turnSend_eq found hstate]
  refine ⟨_, r, getElem?_modify_eq_some_iff.mpr ⟨call, found, if_pos rfl⟩, ?_⟩
  simp only [SendCall.after, Network.turnSend, if_neg (Nat.not_le.mpr hnow)]
  rfl

/-- A call that is blocked comes with its own turns only, and not before its time. -/
theorem BlockedUntil.turn_of_comes {box' : MailboxId} (h : BlockedUntil i box wake x)
    (hcomes : x.Comes box' r now i event) : event = .turnSend now i ∧ wake ≤ now := by
  obtain ⟨call, r₀, found, hstate⟩ := h
  cases hcomes with
  | begins t hget => exact absurd (lt_length_of_getElem? found) (Nat.lt_irrefl _)
  | returns found' hstate' hwake =>
    obtain rfl := Option.some.inj (found.symm.trans found')
    cases hstate.symm.trans hstate'
    exact ⟨rfl, hwake⟩

namespace Polls

/-- The call looks at the mailbox when it is time to. -/
theorem looks (hlooked : x.Looked events i box start interval n)
    (hfree : ∀ before event rest box' b r time, x.Visits events i before event rest box' b r time →
      b.isBlocked = true)
    (hcomes : (x.run events).Comes box r (start + n * interval) i event)
    (found : (x.run events).network.mailboxes[box]? = some b) (hx : (x.run events).Lawful)
    (hinterval : Sleep.span (x.run events).network.settings.pollInterval.toNat = interval) :
    x.Polls (events ++ [event]) i box b.id start interval (start + n * interval) := by
  cases hblocked : b.isBlocked with
  | true =>
    have hnext : start + n * interval + interval = start + (n + 1) * interval := by
      rw [Nat.succ_mul, Nat.add_assoc]
    refine .blocked (n + 1) (hlooked.again hcomes found hblocked)
      (fun before first rest box' b' r' time hvisits => ?_) ?_ (hnext ▸ Nat.le_add_right _ _)
    · rcases hvisits.of_concat with ⟨rest', hvisits⟩ | ⟨-, hcomes', found'⟩
      · exact hfree before first rest' box' b' r' time hvisits
      · obtain ⟨-, rfl, -, -⟩ := hcomes.unique hcomes'
        rw [Option.some.inj (found'.symm.trans found)]
        exact hblocked
    · obtain ⟨-, call, hcall, hstate⟩ := hcomes.blocked found hblocked
      rw [Sleep.wake, hinterval, hnext] at hstate
      rw [run_concat]
      exact ⟨call, r, hcall, hstate⟩
  | false =>
    refine .settled n (hlooked.last hcomes found hblocked) events event [] b r ⟨rfl, hcomes, found⟩
      hblocked (hcomes.settles hx found hblocked) fun later event' box' r' time' hcomes' => ?_
    rw [run_append] at hcomes'
    exact hcomes'.not_unblocked ((unblocked_stable i).run (hcomes.unblocked found hblocked) later)

/-- What happens at the time brings the call further. -/
theorem happens (h : x.Polls events i box node start interval now) (hx : (x.run events).Lawful)
    (hserves : (x.run events).network.Serves box node)
    (hinterval : Sleep.span (x.run events).network.settings.pollInterval.toNat = interval)
    (hnow : event.time? = none ∨ event.time? = some now) (hcancel : event ≠ .cancelSend i) :
    x.Polls (events ++ [event]) i box node start interval now := by
  cases h with
  | blocked n hlooked hfree hblocked hle =>
    by_cases hready : event.IsOf i ∧ start + n * interval ≤ now
    · obtain ⟨hof, hwake⟩ := hready
      obtain rfl := Event.turnSend_of_isOf hof hcancel hnow
      obtain rfl := Nat.le_antisymm hle hwake
      obtain ⟨call, r, found, hstate⟩ := hblocked
      obtain ⟨b, hbox, rfl⟩ := hserves
      exact looks hlooked hfree (.returns found hstate (Nat.le_refl _)) hbox hx hinterval
    · -- it does not look
      have hnot (box' : MailboxId) (r : Request) (time : Nat) :
          ¬ (x.run events).Comes box' r time i event := by
        intro hcomes
        obtain ⟨rfl, hwake⟩ := hblocked.turn_of_comes hcomes
        obtain rfl := Option.some.inj (hnow.resolve_left nofun)
        exact hready ⟨.inl ⟨_, rfl⟩, hwake⟩
      refine .blocked n (hlooked.concat hnot) (fun before first rest box' b' r' time hvisits => ?_) ?_ hle
      · rcases hvisits.of_concat with ⟨rest', hvisits⟩ | ⟨-, hcomes, -⟩
        · exact hfree before first rest' box' b' r' time hvisits
        · exact absurd hcomes (hnot box' r' time)
      · rw [run_concat]
        by_cases hof : event.IsOf i
        · obtain rfl := Event.turnSend_of_isOf hof hcancel hnow
          exact hblocked.early (Nat.lt_of_not_le fun hwake => hready ⟨hof, hwake⟩)
        · exact hblocked.step hof
  | settled n hlooked before first rest b r hvisits hfree hsettles hlast =>
    refine .settled n (hlooked.concat fun box' r' time hcomes => ?_) before first (rest ++ [event]) b r
      (hvisits.concat event) hfree hsettles hlast
    rw [hvisits.split] at hcomes
    exact hlast rest event box' r' time hcomes

/-- The clock waits for a call that looks again. -/
theorem passes (h : x.Polls events i box node start interval now)
    (halways : (x.run events).network.looksAlways = false)
    (hquiet : ∀ instant, now ≤ instant → instant < later → (x.run events).IsQuiet instant) :
    x.Polls events i box node start interval later := by
  cases h with
  | blocked n hlooked hfree hblocked hle =>
    refine .blocked n hlooked hfree hblocked (Nat.le_of_not_lt fun hlt => ?_)
    obtain ⟨call, r, found, hstate⟩ := hblocked
    have hstuck := (hquiet _ hle hlt).sends i call _ found hstate
    simp [sendReady, halways] at hstuck
  | settled n hlooked before first rest b r hvisits hfree hsettles hlast =>
    exact .settled n hlooked before first rest b r hvisits hfree hsettles hlast

end Polls

/-- The first look of a call that is made. -/
theorem polls_of_begins (hx : x.Lawful) (hget : x.network.registry.get? r.replier = some box) (start : Nat)
    (t : TaskId) : x.Polls [.beginSend start t r] x.sends.length box r.replier start
      (Sleep.span x.network.settings.pollInterval.toNat) start := by
  obtain ⟨b, found, hid⟩ := hx.accounted.slipsUnique.serves hget
  have hlooked : x.Looked [] x.sends.length box start
      (Sleep.span x.network.settings.pollInterval.toNat) 0 :=
    ⟨nofun, fun _ _ _ _ _ _ _ hvisits => absurd hvisits.split (by simp)⟩
  have hcomes : x.Comes box r (start + 0 * Sleep.span x.network.settings.pollInterval.toNat) x.sends.length
      (.beginSend start t r) := by
    rw [Nat.zero_mul]
    exact .begins t hget
  have hpolls := Polls.looks hlooked (fun _ _ _ _ _ _ _ hvisits => absurd hvisits.split (by simp)) hcomes
    found hx rfl
  rw [Nat.zero_mul, hid] at hpolls
  exact hpolls

/-- A mailbox stays with its node. -/
theorem Lawful.serves (hx : x.Lawful) (hserves : x.network.Serves box node) (events : List Event) :
    (x.run events).network.Serves box node := by
  induction events generalizing x with
  | nil => exact hserves
  | cons event events ih =>
    obtain ⟨own, honward, -⟩ := step_onward hx.accounted hx.tabled event
    exact ih (hx.step event) (honward.serves box node hserves)

/-- The call looks after each interval, however the others get their turns and whatever happens to the
switch, the mailbox and the node. -/
theorem Lawful.polls (hx : x.Lawful) (hinterval : x.network.settings.pollInterval ≠ 0)
    (hget : x.network.registry.get? r.replier = some box)
    (hclock : x.Timely start (.beginSend start t r :: after) now)
    (hcancel : .cancelSend x.sends.length ∉ after) :
    x.Polls (.beginSend start t r :: after) x.sends.length box r.replier start
      (Sleep.span x.network.settings.pollInterval.toNat) now := by
  have hbegins : x.Timely start ([] ++ .beginSend start t r :: after) now := hclock
  obtain ⟨-, hafter⟩ := hbegins.split rfl
  clear hclock hbegins
  have hserves := hx.accounted.slipsUnique.serves hget
  induction hafter with
  | start => exact polls_of_begins hx hget start t
  | @happens events now event _ hnow ih =>
    have hy := hx.run (.beginSend start t r :: events)
    have hlast : event ≠ .cancelSend x.sends.length := by
      rintro rfl
      exact hcancel (List.mem_append_right _ (List.mem_singleton.mpr rfl))
    exact (ih fun hmem => hcancel (List.mem_append_left _ hmem)).happens hy (hx.serves hserves _)
      (by rw [hx.settings]) hnow hlast
  | @passes events now later _ _ hquiet ih =>
    refine (ih hcancel).passes ?_ hquiet
    rw [looksAlways, hx.settings]
    exact beq_eq_false_iff_ne.mpr hinterval

/-- In every run, nothing comes into a mailbox but with a call that finds it neither blocked nor closed, and
brings its own request, once. And every call to a registered node, if it is not cancelled, and if from the call
on the clock moves only when no call can go on, looks at the mailbox after each interval, until it is
settled. -/
theorem blocked_sends_look_after_intervals (settings : Settings) (dice : Nat → UInt64)
    (before : List Event) :
    Inflow { network := { settings, dice } } before ∧
      ∀ (start now : Nat) (t : TaskId) (r : Request) (box : MailboxId) (after : List Event),
        settings.pollInterval ≠ 0 →
        (reached settings dice before).network.registry.get? r.replier = some box →
        (reached settings dice before).Timely start (.beginSend start t r :: after) now →
        .cancelSend (reached settings dice before).sends.length ∉ after →
        (reached settings dice before).Polls (.beginSend start t r :: after)
          (reached settings dice before).sends.length box r.replier start
          (Sleep.span settings.pollInterval.toNat) now := by
  have hnew : CarriesOwn { network := { settings, dice } } := fun _ _ _ _ _ found => by cases found
  refine ⟨hnew.inflow before, fun start now t r box after hinterval hget hclock hcancel => ?_⟩
  have hx := lawful_reached settings dice before
  have hfresh : Lawful { network := { settings, dice } } := lawful_reached settings dice []
  have hsettings : (reached settings dice before).network.settings = settings := hfresh.settings before
  have hpolls := hx.polls (hsettings.symm ▸ hinterval) hget hclock hcancel
  rw [hsettings] at hpolls
  exact hpolls

section

/-- A request of a client to the node. -/
private def errand (number : UInt64) : Request where
  requestor := "c"
  target := "s"
  callId := number

/-- Nobody may send to the node. -/
private def closure : List Event := [.register 0 "s", .setSwitches 0 fun s => { s with blockTo := true }]

/-- The switch is off for a while in which only the second call looks, and off for good before the first one
looks for the fourth time. -/
private def openings : List Event :=
  [.beginSend 3 1 (errand 2), .turnSend 10 0, .setSwitches 0 fun s => { s with blockTo := false },
    .turnSend 13 1, .setSwitches 0 fun s => { s with blockTo := true }, .turnSend 20 0,
    .setSwitches 0 fun s => { s with blockTo := false }, .turnSend 30 0]

theorem errands_look_after_intervals :
    (reached {} (fun _ => 0) closure).Timely 0 (.beginSend 0 0 (errand 1) :: openings) 30 ∧
      (reached {} (fun _ => 0) (closure ++ .beginSend 0 0 (errand 1) :: openings)).network.contents 0 =
        [errand 2, errand 1] ∧
      (reached {} (fun _ => 0) closure).Polls (.beginSend 0 0 (errand 1) :: openings) 0 0 "s" 0 10 30 := by
  have hclock : (reached {} (fun _ => 0) closure).Timely 0 (.beginSend 0 0 (errand 1) :: openings) 30 :=
    timely_of_keepsTime? (by decide +kernel)
  refine ⟨hclock, rfl, ?_⟩
  exact (blocked_sends_look_after_intervals {} (fun _ => 0) closure).2 0 30 0 (errand 1) 0 openings
    (by decide) rfl hclock (by simp [openings])

/-- Blocked calls wait for a thousand thousand million milliseconds before they look again. -/
private def leisurely : Settings := { pollInterval := 1000000000000 }

/-- The interval is more than thirty years, and a call looks again after thirty years. -/
theorem interval_over_after_thirty_years :
    (reached leisurely (fun _ => 0) closure).Timely 0
        [.beginSend 0 0 (errand 1), .setSwitches 0 fun s => { s with blockTo := false },
          .turnSend 946080000000 0] 946080000000 ∧
      ((reached leisurely (fun _ => 0) closure).run [.beginSend 0 0 (errand 1),
        .setSwitches 0 fun s => { s with blockTo := false }]).Enqueues 0 (errand 1) 946080000000 0
          (.turnSend 946080000000 0) ∧
      ∀ n, 946080000000 ≠ 0 + n * leisurely.pollInterval.toNat := by
  refine ⟨timely_of_keepsTime? (by decide +kernel), ⟨.returns rfl rfl (Nat.le_refl _), ?_⟩, fun n => ?_⟩
  · exact ⟨_, _, rfl, rfl, rfl, rfl, rfl⟩
  · show 946080000000 ≠ 0 + n * 1000000000000
    omega

end

end Traffic

end Replica
