import Replica.Proofs.Network.Balance
import Replica.Proofs.Network.Counting

/-!
# Loads

Whoever acts on a network has a load: the requests that it is to send, those that it has taken and not done
with yet, and the outcomes that it is to hand over (`Load`). What it does with its load is seen in what is
written about it (`Dispatch`). Requests that are sent were to be sent before; for each request that is
replied to there is one less in hand; and nobody is told of a defect who was not to be told of it.

Requests are counted by the tasks that they were made for, since a detour changes everything else.
-/

namespace Replica

/-! ## Counting requests -/

/-- The number of requests that were made for the owner. -/
def Request.tally (owner : Option TaskId) (requests : List Request) : Nat :=
  requests.countP (·.owner = owner)

namespace Request

variable {owner : Option TaskId} {requests requests' : List Request} {r : Request}

@[simp] theorem tally_nil : tally owner [] = 0 := rfl

/-- What belongs to the owner in two lists is counted list by list. -/
@[simp] theorem tally_append :
    tally owner (requests ++ requests') = tally owner requests + tally owner requests' :=
  List.countP_append

/-- A request in front of a list counts for its own owner only. -/
@[simp] theorem tally_cons :
    tally owner (r :: requests) = tally owner requests + if r.owner = owner then 1 else 0 := by
  simp [tally, List.countP_cons]

/-- Whoever has fewer requests has no more of any owner. -/
theorem tally_le_of_sublist (owner : Option TaskId) (h : requests.Sublist requests') :
    tally owner requests ≤ tally owner requests' :=
  h.countP_le

/-- The order of the requests does not matter for this. -/
theorem tally_le_of_subperm (h : requests.Subperm requests') :
    tally owner requests ≤ tally owner requests' :=
  h.countP_le _

/-- An owner with a request in the list is counted at least once. -/
theorem tally_pos (hmem : r ∈ requests) (howner : r.owner = owner) : 0 < tally owner requests :=
  List.countP_pos_iff.mpr ⟨r, hmem, by simp [howner]⟩

/-- An owner without a request in the list is not counted. -/
theorem tally_eq_zero (h : ∀ r ∈ requests, r.owner ≠ owner) : tally owner requests = 0 :=
  List.countP_eq_zero.mpr fun r hmem => by simp [h r hmem]

/-- A request belongs to its owner whether the detour is read or not. -/
theorem owner_plain (r : Request) : r.plain.owner = r.owner := rfl

/-- A detour does not change whose request it is. -/
@[simp] theorem owner_divert (t : TaskId) (other : PeerId) (r : Request) :
    (r.divert t other).owner = r.owner := by
  unfold divert
  split <;> rfl

/-- A detour is not given to another owner. -/
@[simp] theorem tally_map_divert (t : TaskId) (other : PeerId) (requests : List Request) :
    tally owner (requests.map (divert t other)) = tally owner requests := by
  simp [tally, List.countP_map, Function.comp_def]

end Request

/-- Whoever hears of the outcome hears of no defect. -/
def Harmless (outcome : Outcome) : Prop := ∀ e, outcome = .error e → e.isFatal = false

/-- Replies do no harm. -/
theorem harmless_ok (reply : Reply) : Harmless (.ok reply) := nofun

/-- An error does no harm if it is not fatal. -/
theorem harmless_error {e : ServerError} (h : e.isFatal = false) : Harmless (.error e) := by
  rintro _ ⟨⟩
  exact h

/-! ## What is written -/

namespace Network

instance (net : Network) (box : MailboxId) (node : PeerId) : Decidable (net.Serves box node) :=
  decidable_of_iff (net.mailboxes[box]?.map (·.id) = some node) Option.map_eq_some_iff

end Network

namespace Occurrence

/-- The request whose outcome was handed over, with the outcome. -/
def answering? : Occurrence → Option (Request × Outcome)
  | answered _ r outcome _ => some (r, outcome)
  | _ => none

/-- The request that was taken out of the mailbox of the node that is to reply to it. -/
def receiving? (net : Network) : Occurrence → Option Request
  | taken box _ r => if net.Serves box r.replier then some r else none
  | _ => none

/-- Nothing was sent or handed over. -/
structure IsMute (what : Occurrence) : Prop where
  posting : what.posting? = none
  answering : what.answering? = none

end Occurrence

namespace Network

variable {net net' net'' : Network} {written written' : List Occurrence} {owner : Option TaskId}

/-- The requests whose outcomes were handed over. -/
def answered (story : List Occurrence) : List Request := (story.filterMap (·.answering?)).map (·.1)

/-- The outcomes that were handed over. -/
def outcomes (story : List Occurrence) : List Outcome := (story.filterMap (·.answering?)).map (·.2)

/-- The requests that were taken out of the mailboxes of the nodes that are to reply to them. -/
def received (net : Network) (story : List Occurrence) : List Request :=
  story.filterMap (·.receiving? net)

section

variable {story : List Occurrence} {box : MailboxId} {r : Request} {outcome : Outcome} {slip : SlipId}

/-- What is answered in a story has been answered. -/
theorem mem_answered (h : .answered box r outcome slip ∈ story) : r ∈ answered story :=
  List.mem_map.mpr ⟨(r, outcome), List.mem_filterMap.mpr ⟨_, h, rfl⟩, rfl⟩

/-- The outcome of what is answered in a story is among the outcomes. -/
theorem mem_outcomes (h : .answered box r outcome slip ∈ story) : outcome ∈ outcomes story :=
  List.mem_map.mpr ⟨(r, outcome), List.mem_filterMap.mpr ⟨_, h, rfl⟩, rfl⟩

end

@[simp] theorem posted_append : posted (written ++ written') = posted written ++ posted written' := by
  simp [posted]

@[simp] theorem answered_append :
    answered (written ++ written') = answered written ++ answered written' := by
  simp [answered]

@[simp] theorem outcomes_append :
    outcomes (written ++ written') = outcomes written ++ outcomes written' := by
  simp [outcomes]

@[simp] theorem received_append :
    received net (written ++ written') = received net written ++ received net written' := by
  simp [received]

/-- What was received is received still when there are more mailboxes. -/
theorem received_sublist (h : ∀ box node, net.Serves box node → net'.Serves box node)
    (story : List Occurrence) : (received net story).Sublist (received net' story) := by
  induction story with
  | nil => exact .slnil
  | cons what story ih =>
    cases what with
    | taken box t r =>
      by_cases hbox : net.Serves box r.replier
      · simpa [received, Occurrence.receiving?, hbox, h box r.replier hbox] using ih
      · by_cases hbox' : net'.Serves box r.replier
        · simpa [received, Occurrence.receiving?, hbox, hbox'] using ih.cons r
        · simpa [received, Occurrence.receiving?, hbox, hbox'] using ih
    | _ => exact ih

@[simp] theorem grasped_append : grasped (written ++ written') = grasped written ++ grasped written' := by
  simp [grasped]

section

variable {box : MailboxId} {t : TaskId} {r : Request} {story : List Occurrence}

/-- A request that is taken is grasped, whosever it is. -/
theorem tally_grasped_taken : Request.tally owner (grasped (.taken box t r :: story)) =
    Request.tally owner (grasped story) + if r.owner = owner then 1 else 0 := by
  show Request.tally owner (r.plain :: grasped story) = _
  rw [Request.tally_cons, Request.owner_plain]

/-- A request that is taken is received if its mailbox serves the node that it is addressed to. -/
theorem received_taken : received net (.taken box t r :: story) =
    if net.Serves box r.replier then r :: received net story else received net story := by
  by_cases hbox : net.Serves box r.replier <;> simp [received, Occurrence.receiving?, hbox]

/-- What was received was taken to be kept. -/
theorem tally_received_le (owner : Option TaskId) (net : Network) (story : List Occurrence) :
    Request.tally owner (received net story) ≤ Request.tally owner (grasped story) := by
  induction story with
  | nil => exact Nat.le_refl _
  | cons what story ih =>
    cases what with
    | taken box t r =>
      rw [tally_grasped_taken, received_taken]
      split
      · rw [Request.tally_cons]
        omega
      · omega
    | _ => exact ih

/-- What was taken out of the mailbox of another node was not received. -/
theorem tally_received_lt (hmem : .taken box t r ∈ story) (howner : r.owner = owner)
    (hmissed : ¬ net.Serves box r.replier) :
    Request.tally owner (received net story) < Request.tally owner (grasped story) := by
  obtain ⟨before, after, rfl⟩ := List.append_of_mem hmem
  have hbefore := tally_received_le owner net before
  have hafter := tally_received_le owner net after
  rw [received_append, grasped_append, received_taken, if_neg hmissed, Request.tally_append,
    Request.tally_append, tally_grasped_taken, if_pos howner]
  omega

end

section

variable (hmute : ∀ what ∈ written, what.IsMute)

include hmute

/-- What is mute posts nothing. -/
theorem posted_of_mute : posted written = [] :=
  List.map_eq_nil_iff.mpr (List.filterMap_eq_nil_iff.mpr fun what hmem => (hmute what hmem).posting)

/-- What is mute answers nothing. -/
theorem answering_of_mute : written.filterMap (·.answering?) = [] :=
  List.filterMap_eq_nil_iff.mpr fun what hmem => (hmute what hmem).answering

theorem answered_of_mute : answered written = [] := by
  rw [answered, answering_of_mute hmute, List.map_nil]

theorem outcomes_of_mute : outcomes written = [] := by
  rw [outcomes, answering_of_mute hmute, List.map_nil]

end

end Network

/-! ## Loads -/

/-- What somebody has to deal with. -/
structure Load where
  /-- What it is to send. -/
  outgoing : List Request := []
  /-- What it has taken and not done with. -/
  incoming : List Request := []
  /-- What it is to hand over. -/
  outcomes : List Outcome := []

namespace Load

def Harmless (load : Load) : Prop := ∀ outcome ∈ load.outcomes, Replica.Harmless outcome

/-- What several have to deal with. -/
def all (loads : List Load) : Load :=
  ⟨loads.flatMap (·.outgoing), loads.flatMap (·.incoming), loads.flatMap (·.outcomes)⟩

/-- The loads of one task alone are its own load. -/
@[simp] theorem all_singleton (load : Load) : all [load] = load := by
  simp [all]

/-- A task without a load adds nothing to the others. -/
@[simp] theorem all_append_none (loads : List Load) : all (loads ++ [({} : Load)]) = all loads := by
  simp [all]

/-- The load when requests in it that were made for the task are given a detour. -/
def divert (t : TaskId) (other : PeerId) (load : Load) : Load :=
  { load with
    outgoing := load.outgoing.map (Request.divert t other)
    incoming := load.incoming.map (Request.divert t other) }

/-- A detour of all loads is a detour of their sum. -/
theorem all_map_divert (t : TaskId) (other : PeerId) (loads : List Load) :
    all (loads.map (divert t other)) = (all loads).divert t other := by
  simp [all, divert, List.flatMap_map, List.map_flatMap]

/-- Loads together are harmless exactly if both parts are. -/
theorem harmless_all_append {loads loads' : List Load} :
    (all (loads ++ loads')).Harmless ↔ (all loads).Harmless ∧ (all loads').Harmless := by
  simp only [Harmless, all, List.flatMap_append]
  exact List.forall_mem_append

end Load

open Network

/-- Somebody deals with its load, and that is written. The work on the requests that are `spoilt` has ended
in a defect. -/
structure Dispatch (written : List Occurrence) (spoilt : List Request) (net : Network) (load : Load)
    (net' : Network) (load' : Load) : Prop where
  story : net'.story = net.story ++ written
  moves : Moves written net net'
  serves : ∀ box node, net.Serves box node → net'.Serves box node
  sends : ∀ owner, Request.tally owner (posted written) + Request.tally owner load'.outgoing ≤
    Request.tally owner load.outgoing
  deals : ∀ owner, Request.tally owner (answered written) + Request.tally owner spoilt +
      Request.tally owner load'.incoming ≤
    Request.tally owner load.incoming + Request.tally owner (received net' written)
  harmless : load.Harmless → (∀ outcome ∈ outcomes written, Harmless outcome) ∧ load'.Harmless

namespace Dispatch

variable {net net' net'' : Network} {written written' : List Occurrence} {load load' load'' : Load}
variable {spoilt spoilt' : List Request}

/-- Two dispatches, one after the other, are one: what the first leaves is what the second has to deal
with. -/
theorem trans (h : Dispatch written spoilt net load net' load')
    (h' : Dispatch written' spoilt' net' load' net'' load'') :
    Dispatch (written ++ written') (spoilt ++ spoilt') net load net'' load'' where
  story := by rw [h'.story, h.story, List.append_assoc]
  moves := h.moves.trans h'.moves
  serves box node hs := h'.serves box node (h.serves box node hs)
  sends owner := by
    have := h.sends owner
    have := h'.sends owner
    simp only [posted_append, Request.tally_append]
    omega
  deals owner := by
    have := h.deals owner
    have := h'.deals owner
    have hreceived := Request.tally_le_of_sublist owner (received_sublist h'.serves written)
    simp only [answered_append, received_append, Request.tally_append]
    omega
  harmless hload := by
    obtain ⟨hwritten, hload'⟩ := h.harmless hload
    obtain ⟨hwritten', hload''⟩ := h'.harmless hload'
    rw [outcomes_append]
    exact ⟨List.forall_mem_append.mpr ⟨hwritten, hwritten'⟩, hload''⟩

/-- A part of the load is put away. -/
theorem shed (h : Dispatch written spoilt net load net' load')
    (houtgoing : load''.outgoing.Sublist load'.outgoing)
    (hincoming : load''.incoming.Sublist load'.incoming)
    (houtcomes : load''.outcomes ⊆ load'.outcomes) : Dispatch written spoilt net load net' load'' where
  story := h.story
  moves := h.moves
  serves := h.serves
  sends owner := by
    have := h.sends owner
    have := Request.tally_le_of_sublist owner houtgoing
    omega
  deals owner := by
    have := h.deals owner
    have := Request.tally_le_of_sublist owner hincoming
    omega
  harmless hload :=
    (h.harmless hload).imp_right fun hload' outcome hmem => hload' outcome (houtcomes hmem)

/-- Everything is put away. -/
theorem shedAll (h : Dispatch written spoilt net load net' load') :
    Dispatch written spoilt net load net' {} :=
  h.shed (List.nil_sublist _) (List.nil_sublist _) (List.nil_subset _)

/-- What is written is about other things. -/
theorem of_mute (hrecorded : Recorded net net') (hstory : net'.story = net.story ++ written)
    (hserves : ∀ box node, net.Serves box node → net'.Serves box node)
    (hmute : ∀ what ∈ written, what.IsMute) (load : Load) :
    Dispatch written [] net load net' load where
  story := hstory
  moves := hrecorded.moves hstory
  serves := hserves
  sends owner := by
    rw [posted_of_mute hmute, Request.tally_nil]
    omega
  deals owner := by
    rw [answered_of_mute hmute, Request.tally_nil]
    omega
  harmless hload := by
    rw [outcomes_of_mute hmute]
    exact ⟨List.forall_mem_nil _, hload⟩

/-- Nothing is written. -/
theorem of_silent (hrecorded : Recorded net net') (hstory : net'.story = net.story)
    (hserves : ∀ box node, net.Serves box node → net'.Serves box node) (load : Load) :
    Dispatch [] [] net load net' load :=
  of_mute hrecorded (hstory.trans (List.append_nil _).symm) hserves (List.forall_mem_nil _) load

/-- A detour changes no owner and no outcome. -/
theorem divert (hrecorded : Recorded net net') (hstory : net'.story = net.story)
    (hserves : ∀ box node, net.Serves box node → net'.Serves box node) (t : TaskId) (other : PeerId)
    (load : Load) : Dispatch [] [] net load net' (load.divert t other) :=
  { of_silent hrecorded hstory hserves load with
    sends := fun owner => by
      rw [Load.divert, Request.tally_map_divert]
      exact Nat.le_of_eq (Nat.zero_add _)
    deals := fun owner => by
      rw [Load.divert, Request.tally_map_divert]
      exact Nat.le_of_eq (Nat.add_comm _ _)
    harmless := fun hload => ⟨List.forall_mem_nil _, hload⟩ }

/-- Nothing is dispatched when nothing happens. -/
theorem refl (net : Network) (load : Load) : Dispatch [] [] net load net load :=
  of_silent (.refl net) rfl (fun _ _ => id) load

/-- A note on something mute dispatches nothing. -/
theorem note (net : Network) (now : Nat) {what : Occurrence} (hmute : what.IsMute) (haside : what.IsAside)
    (load : Load) : Dispatch [what] [] net load (net.note now what) load :=
  of_mute (.note net now haside) (story_note net now what) (fun _ _ => (Steady.note net now what).serves)
    (List.forall_mem_singleton.mpr hmute) load

/-- What others have to deal with stays as it is. -/
theorem frame {loads loads' : List Load} (h : Dispatch written spoilt net (.all loads) net' (.all loads'))
    (before after : List Load) : Dispatch written spoilt net (.all (before ++ loads ++ after)) net'
      (.all (before ++ loads' ++ after)) where
  story := h.story
  moves := h.moves
  serves := h.serves
  sends owner := by
    have := h.sends owner
    simp only [Load.all, List.flatMap_append, Request.tally_append] at this ⊢
    omega
  deals owner := by
    have := h.deals owner
    simp only [Load.all, List.flatMap_append, Request.tally_append] at this ⊢
    omega
  harmless hload := by
    simp only [Load.harmless_all_append] at hload ⊢
    obtain ⟨⟨hbefore, hloads⟩, hafter⟩ := hload
    obtain ⟨hwritten, hloads'⟩ := h.harmless hloads
    exact ⟨hwritten, ⟨hbefore, hloads'⟩, hafter⟩

/-- Who has requests of one owner to send has no others to send then. -/
theorem owned {owner : Option TaskId} (h : Dispatch written spoilt net load net' load')
    (hload : ∀ r ∈ load.outgoing, r.owner = owner) : ∀ r ∈ load'.outgoing, r.owner = owner := by
  intro r hmem
  by_contra hother
  have hnone : Request.tally r.owner load.outgoing = 0 :=
    Request.tally_eq_zero fun r' hmem' heq => hother (heq.symm.trans (hload r' hmem'))
  have hsome := Request.tally_pos hmem rfl
  have hsends := h.sends r.owner
  omega

/-- The work on a request ends in a defect. -/
theorem spoil (net : Network) (r : Request) : Dispatch [] [r] net { incoming := [r] } net {} where
  story := (List.append_nil _).symm
  moves := .of_same (fun _ => rfl) (fun _ => id)
  serves _ _ := id
  sends owner := Nat.le_refl _
  deals owner := by
    show 0 + Request.tally owner [r] + 0 ≤ Request.tally owner [r] + 0
    omega
  harmless _ := ⟨List.forall_mem_nil _, List.forall_mem_nil _⟩

/-- The work on a request ends in an outcome that may be handed over. -/
theorem resolve (net : Network) (r : Request) {outcome : Outcome} (h : Harmless outcome) :
    Dispatch [] [] net { incoming := [r] } net { incoming := [r], outcomes := [outcome] } where
  story := (List.append_nil _).symm
  moves := .of_same (fun _ => rfl) (fun _ => id)
  serves _ _ := id
  sends owner := Nat.le_refl _
  deals owner := by
    show 0 + 0 + Request.tally owner [r] ≤ Request.tally owner [r] + 0
    omega
  harmless _ := ⟨List.forall_mem_nil _, List.forall_mem_singleton.mpr h⟩

end Dispatch

namespace Network

variable {now : Nat} {t : TaskId} {box : MailboxId} {r : Request} {outcome : Outcome}

/-! ## Senders -/

/-- What a sender is still to send after its turn. -/
def outgoing : SendProgress → List Request
  | .waiting (.blocked _ r _) => [r]
  | _ => []

/-- A caller that looks at its slip writes nothing into the story. -/
theorem checkSlip_story (now deadline : Nat) (box : MailboxId) (r : Request) (slip : SlipId)
    (net : Network) : (net.checkSlip now box r slip deadline).1.story = net.story := by
  unfold checkSlip
  split
  · rfl
  · rfl
  · split <;> rfl
  · rfl

/-- A caller that has looked at its slip has no request to send any more. -/
theorem checkSlip_outgoing (now deadline : Nat) (box : MailboxId) (r : Request) (slip : SlipId)
    (net : Network) : outgoing (net.checkSlip now box r slip deadline).2 = [] := by
  have hlook := checkSlip_look now box r slip deadline net
  generalize net.checkSlip now box r slip deadline = result at hlook ⊢
  cases hlook <;> rfl

/-- A sender has sent its request, or may have to send it yet. -/
theorem trySend_story (now : Nat) (box : MailboxId) (r : Request) (net : Network) :
    ((net.trySend now box r).1 = net ∧ (outgoing (net.trySend now box r).2).Sublist [r]) ∨
      ((net.trySend now box r).1.story = net.story ++ [.sent box r] ∧
        outgoing (net.trySend now box r).2 = []) := by
  unfold trySend
  split
  · exact .inl ⟨rfl, List.nil_sublist _⟩
  · split
    · exact .inl ⟨rfl, .refl _⟩
    · unfold enqueue
      split
      · exact .inl ⟨rfl, List.nil_sublist _⟩
      · dsimp only
        split
        · exact .inl ⟨rfl, List.nil_sublist _⟩
        · refine .inr ⟨?_, checkSlip_outgoing _ _ _ _ _ _⟩
          rw [checkSlip_story]
          exact List.map_append

/-- A sender at a mailbox either posts its request or keeps it as outgoing. -/
theorem trySend_dispatch (now : Nat) (box : MailboxId) (r : Request) (net : Network) :
    ∃ written, Dispatch written [] net { outgoing := [r] } (net.trySend now box r).1
      { outgoing := outgoing (net.trySend now box r).2 } := by
  have heffects : Effects (fun _ _ => True) net (net.trySend now box r).1 := trySend_effects now trivial
  rcases trySend_story now box r net with ⟨hsame, houtgoing⟩ | ⟨hstory, houtgoing⟩
  · rw [hsame]
    exact ⟨[], (Dispatch.refl net _).shed houtgoing (.refl _) (List.Subset.refl _)⟩
  · refine ⟨[.sent box r], hstory, (trySend_recorded now box r net).moves hstory,
      fun _ _ => heffects.steady.serves, fun owner => ?_, fun owner => Nat.le_refl _, fun _ => ?_⟩
    · -- the request is put into the mailbox without its detour
      rw [houtgoing]
      show Request.tally owner [r.plain] + 0 ≤ Request.tally owner [r]
      exact Nat.le_refl _
    · exact ⟨List.forall_mem_nil _, List.forall_mem_nil _⟩

/-- A sender that begins has its request as outgoing, and posts it at most once. -/
theorem beginSend_dispatch (now : Nat) (r : Request) (net : Network) :
    ∃ written, Dispatch written [] net { outgoing := [r] } (net.beginSend now r).1
      { outgoing := outgoing (net.beginSend now r).2 } := by
  unfold beginSend
  split
  · exact ⟨[], (Dispatch.refl net _).shedAll⟩
  · next box _ => exact trySend_dispatch now box r net

end Network

/-- What a sender is to send. -/
def Sending.outgoing : Sending → List Request
  | .blocked _ r _ => [r]
  | .waiting .. => []

/-- What somebody who replies has to deal with. -/
def Replying.load (stage : Replying) : Load :=
  { incoming := [stage.request], outcomes := [stage.outcome] }

namespace Network

variable {now : Nat} {t : TaskId} {box : MailboxId} {r : Request} {outcome : Outcome}

/-- A sender that goes on deals with what it had as outgoing. -/
theorem turnSend_dispatch (now : Nat) (stage : Sending) (net : Network) :
    ∃ written, Dispatch written [] net { outgoing := stage.outgoing } (net.turnSend now stage).1
      { outgoing := outgoing (net.turnSend now stage).2 } := by
  cases stage with
  | blocked box r wake =>
    rw [turnSend]
    split
    · exact trySend_dispatch now box r net
    · exact ⟨[], .refl net _⟩
  | waiting box r slip deadline =>
    rw [turnSend, checkSlip_outgoing]
    have heffects : Effects (fun _ _ => True) net (net.checkSlip now box r slip deadline).1 :=
      checkSlip_effects now box r slip deadline net
    exact ⟨[], .of_silent (checkSlip_recorded now box r slip deadline net) (checkSlip_story ..)
      (fun _ _ => heffects.steady.serves) _⟩

/-- A sender that is cancelled gives up what it had as outgoing. -/
theorem cancelSend_dispatch (stage : Sending) (net : Network) :
    Dispatch [] [] net { outgoing := stage.outgoing } (net.cancelSend stage) {} := by
  have hserves := (cancelSend_keepsReplies stage net).serves
  refine (Dispatch.of_silent (cancelSend_recorded stage net) ?_ hserves _).shedAll
  cases stage <;> rfl

/-! ## Takers -/

/-- Requests that are dropped are mute: nobody is answered, and nothing is posted. -/
theorem mute_dropped (box : MailboxId) (t : TaskId) (requests : List Request) :
    ∀ what ∈ requests.map (Occurrence.dropped box t), what.IsMute :=
  List.forall_mem_map.mpr fun _ _ => ⟨rfl, rfl⟩

/-- A look of a taker brings in at most one request, which it then has in hand. -/
theorem takeFrom_dispatch (now : Nat) (t : TaskId) (box : MailboxId) (net : Network) :
    ∃ written, Dispatch written [] net {} (net.takeFrom now t box).1
      { incoming := inHand (net.takeFrom now t box).2 } := by
  have hrecorded := takeFrom_recorded now t box net
  have hglance := takeFrom_glance now t box net
  have hserves : ∀ box' node, net.Serves box' node → (net.takeFrom now t box).1.Serves box' node :=
    fun _ _ => hglance.steady.serves
  generalize net.takeFrom now t box = result at hrecorded hglance hserves ⊢
  cases hglance with
  | nowhere hnone => exact ⟨[], .refl net {}⟩
  | shut found hclosed =>
    exact ⟨[], .of_mute hrecorded (handBack_story now box _ [] net) hserves (List.forall_mem_nil _) {}⟩
  | waits found hopen hdropped =>
    exact ⟨_, .of_mute hrecorded (handBack_story now box _ _ net) hserves (mute_dropped _ _ _) {}⟩
  | @takes b dropped rest r found hopen hsplit hdropped hkept =>
    let kept : Mailbox := { b with wakeUp := false, requests := rest }
    let noted : List Occurrence := dropped.map (.dropped box t) ++ [.taken box t r]
    let mid := net.handBack now box kept noted
    have hstory : mid.story = net.story ++ noted := handBack_story now box kept noted net
    have hmute : ∀ what ∈ noted, what.IsMute :=
      List.forall_mem_append.mpr ⟨mute_dropped box t dropped, List.forall_mem_singleton.mpr ⟨rfl, rfl⟩⟩
    change Recorded net (mid.receive now box kept r).1 at hrecorded
    change ∀ box' node, net.Serves box' node → (mid.receive now box kept r).1.Serves box' node at hserves
    show ∃ written, Dispatch written [] net {} (mid.receive now box kept r).1
      { incoming := inHand (mid.receive now box kept r).2 }
    -- the mailbox is still that of its node, so that the request is received if it is addressed to it
    have hholds {progress : TakeProgress} (haddress : r.replier = b.id)
        (heq : mid.receive now box kept r = (mid, progress)) (hinHand : inHand progress = [r]) :
        ∃ written, Dispatch written [] net {} (mid.receive now box kept r).1
          { incoming := inHand (mid.receive now box kept r).2 } := by
      rw [heq] at hrecorded hserves ⊢
      rw [hinHand]
      have hreceived : received mid noted = [r] := by
        have hhere : mid.Serves box r.replier := haddress ▸ hserves box b.id ⟨b, found, rfl⟩
        simp [noted, received, Occurrence.receiving?, List.filterMap_map, hhere]
      refine ⟨noted, { Dispatch.of_mute hrecorded hstory hserves hmute {} with deals := fun owner => ?_ }⟩
      rw [answered_of_mute hmute, hreceived]
      show 0 + 0 + Request.tally owner [r] ≤ 0 + Request.tally owner [r]
      omega
    rcases receive_cases now box kept r mid with ⟨-, heq⟩ | ⟨haddress, heq⟩ | ⟨haddress, wake, heq⟩
    · rw [heq] at hrecorded hserves ⊢
      refine ⟨noted ++ [.raised (misrouted b.id r)], .of_mute hrecorded ?_ hserves ?_ {}⟩
      · rw [story_note, hstory, List.append_assoc]
      · exact List.forall_mem_append.mpr ⟨hmute, List.forall_mem_singleton.mpr ⟨rfl, rfl⟩⟩
    · exact hholds haddress heq rfl
    · exact hholds haddress heq rfl

/-- A taker that begins has nothing, and ends with what its look brings in. -/
theorem beginTake_dispatch (now : Nat) (t : TaskId) (node : PeerId) (net : Network) :
    ∃ written, Dispatch written [] net {} (net.beginTake now t node).1
      { incoming := inHand (net.beginTake now t node).2 } := by
  unfold beginTake
  split
  · exact ⟨[], .refl net {}⟩
  · next box _ =>
    dsimp only
    split
    · exact takeFrom_dispatch now t box net
    · exact ⟨[], .refl net {}⟩

/-- A taker that goes on starts from what it has in hand. -/
theorem turnTake_dispatch (now : Nat) (t : TaskId) (stage : Taking) (net : Network) :
    ∃ written, Dispatch written [] net { incoming := stage.inHand } (net.turnTake now t stage).1
      { incoming := inHand (net.turnTake now t stage).2 } := by
  cases stage with
  | delayed box wake =>
    rw [turnTake]
    split
    · exact takeFrom_dispatch now t box net
    · exact ⟨[], .refl net {}⟩
  | looking box =>
    rw [turnTake]
    split
    · exact takeFrom_dispatch now t box net
    · exact ⟨[], .refl net {}⟩
  | holding box r wake =>
    rw [turnTake]
    split <;> exact ⟨[], .refl net _⟩

/-- A taker that is cancelled gives up what it has in hand. -/
theorem cancelTake_dispatch (t : TaskId) (stage : Taking) (net : Network) :
    Dispatch [] [] net { incoming := stage.inHand } (net.cancelTake t stage) {} := by
  have hserves := (cancelTake_keepsReplies t stage net).serves
  refine (Dispatch.of_silent (cancelTake_recorded t stage net) ?_ hserves _).shedAll
  cases stage <;> rfl

/-! ## Repliers -/

/-- What somebody who replies has to deal with after its turn. -/
def replyLoad : ReplyProgress → Load
  | .waiting stage => stage.load
  | .ended _ => {}

/-- Handing an outcome over adds one answer to the story, or nothing if nobody waits for it. -/
theorem deliver_story (now : Nat) (r : Request) (outcome : Outcome) (net : Network) :
    (net.deliver now r outcome).story = net.story ∨
      ∃ box slip, (net.deliver now r outcome).story = net.story ++ [.answered box r outcome slip] := by
  unfold deliver
  split
  · exact .inl rfl
  · next box _ =>
    split
    · exact .inl rfl
    · next slip _ => exact .inr ⟨box, slip, List.map_append⟩

/-- Handing an outcome over deals with the request and with its outcome. -/
theorem deliver_dispatch (now : Nat) (r : Request) (outcome : Outcome) (net : Network) :
    ∃ written, Dispatch written [] net { incoming := [r], outcomes := [outcome] }
      (net.deliver now r outcome) {} := by
  have hrecorded := deliver_recorded now r outcome net
  have heffects : Effects (fun _ _ => True) net (net.deliver now r outcome) := deliver_effects now r outcome net
  have hserves : ∀ box node, net.Serves box node → (net.deliver now r outcome).Serves box node :=
    fun _ _ => heffects.steady.serves
  rcases deliver_story now r outcome net with hsame | ⟨box, slip, hstory⟩
  · exact ⟨[], (Dispatch.of_silent hrecorded hsame hserves _).shedAll⟩
  · refine ⟨[.answered box r outcome slip], hstory, hrecorded.moves hstory, hserves,
      fun owner => Nat.le_refl _, fun owner => ?_, fun hload => ⟨hload, List.forall_mem_nil _⟩⟩
    show Request.tally owner [r] + 0 + 0 ≤ Request.tally owner [r] + 0
    omega

/-- A reply whose latency has been drawn hands the outcome over at once, or keeps it with the request.
-/
theorem delay_dispatch (now : Nat) (r : Request) (outcome : Outcome) (net : Network) :
    ∃ written, Dispatch written [] net { incoming := [r], outcomes := [outcome] }
      (beginReply.delay now r outcome net).1 (replyLoad (beginReply.delay now r outcome net).2) := by
  have hrecorded : Recorded net net.roll.2 := .of_eq rfl rfl
  have hroll (load : Load) : Dispatch [] [] net load net.roll.2 load :=
    .of_silent hrecorded rfl (fun _ _ => id) load
  unfold beginReply.delay
  dsimp only
  split
  · obtain ⟨written, hdeliver⟩ := deliver_dispatch now r outcome net.roll.2
    exact ⟨_, (hroll _).trans hdeliver⟩
  · exact ⟨[], hroll _⟩

/-- A reply that begins has the request and the outcome to deal with. -/
theorem beginReply_dispatch (now : Nat) (r : Request) (outcome : Outcome) (net : Network) :
    ∃ written, Dispatch written [] net { incoming := [r], outcomes := [outcome] }
      (net.beginReply now r outcome).1 (replyLoad (net.beginReply now r outcome).2) := by
  unfold beginReply
  split
  · split
    · exact delay_dispatch now r _ net
    · exact ⟨_, (Dispatch.note net now ⟨rfl, rfl⟩ (fun _ => ⟨rfl, rfl⟩) _).shedAll⟩
  · exact delay_dispatch now r _ net

/-- A reply that goes on deals with what its stage holds. -/
theorem turnReply_dispatch (now : Nat) (stage : Replying) (net : Network) :
    ∃ written, Dispatch written [] net stage.load (net.turnReply now stage).1
      (replyLoad (net.turnReply now stage).2) := by
  unfold turnReply
  split
  · exact deliver_dispatch now stage.request stage.outcome net
  · exact ⟨[], .refl net _⟩

/-! ## Nodes -/

/-- What happens to nodes and their switches is nobody's load. -/
theorem Resets.dispatch {net net' : Network} {written : List Occurrence} (h : Resets written net net')
    (hrecorded : Recorded net net') (load : Load) : Dispatch written [] net load net' load := by
  refine .of_mute hrecorded h.story h.serves (fun what hmem => ?_) load
  obtain ⟨box, requests, rfl⟩ := h.discards what hmem
  exact ⟨rfl, rfl⟩

end Network

end Replica
