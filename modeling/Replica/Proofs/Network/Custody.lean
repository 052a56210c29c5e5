import Replica.Proofs.Network.Effects
import Replica.Proofs.Network.Queues

/-!
# Who has the requests

A request that a taker has taken out of a mailbox is in the taker's hands until the taker returns it or
gives it to a server. The journal says which task took it and which worker gave it away, so that what a
task has in hand is the difference of the two (`Passes`). Requests that are dropped and requests that are
discarded get into nobody's hands.

A taker refuses a request that is addressed to another node. No such request is ever queued as long as
every mailbox is registered under its own node and senders stick to it (`Routed`).
-/

namespace Replica

namespace Occurrence

/-- The requests that went away when the mailbox was closed. -/
def discards (box : MailboxId) : Occurrence → List Request
  | discarded box' requests => if box' = box then requests else []
  | _ => []

/-- The request that the task took out of a mailbox to keep it. -/
def grasped? (t : TaskId) : Occurrence → Option Request
  | taken _ t' r => if t' = t then some r else none
  | _ => none

/-- The request that the worker gave to its server. -/
def handed? (t : TaskId) : Occurrence → Option Request
  | handled t' r => if t' = t then some r else none
  | _ => none

/-- No taker had a hand in it. -/
inductive IsOutward : Occurrence → Prop where
  | sent (box : MailboxId) (r : Request) : IsOutward (.sent box r)
  | answered (box : MailboxId) (r : Request) (outcome : Outcome) (slip : SlipId) :
    IsOutward (.answered box r outcome slip)
  | raised (e : ServerError) : IsOutward (.raised e)
  | terminated (t : TaskId) (record : ExitRecord) (e : ServerError) :
    IsOutward (.terminated t record e)

/-- Nobody takes anything in a remark. -/
theorem IsRemark.isOutward {what : Occurrence} (h : what.IsRemark) : what.IsOutward := by
  cases h with
  | answered box r outcome slip => exact .answered box r outcome slip
  | raised e => exact .raised e

end Occurrence

/-- What a taker at the stage has in hand. -/
def Taking.inHand : Taking → List Request
  | .holding _ r _ => [r]
  | _ => []

namespace Network

variable {net net' net'' : Network} {box : MailboxId} {b b' : Mailbox} {r : Request} {t u : TaskId}
variable {written written' : List Occurrence} {now : Nat} {held held' held'' : List Request}
variable {puts : MailboxId → Request → Prop}

/-! ## Views of the story -/

/-- What went away when the mailbox was closed, in order. -/
def discards (box : MailboxId) (written : List Occurrence) : List Request :=
  (written.flatMap (·.discards box)).map Request.plain

/-- What the task took out of mailboxes to keep it, in order. -/
def grasps (t : TaskId) (written : List Occurrence) : List Request :=
  (written.filterMap (·.grasped? t)).map Request.plain

/-- What the worker gave to its server, in order. -/
def hands (t : TaskId) (written : List Occurrence) : List Request :=
  (written.filterMap (·.handed? t)).map Request.plain

@[simp] theorem pops_nil : pops box [] = [] := rfl

@[simp] theorem discards_nil : discards box [] = [] := rfl

@[simp] theorem grasps_nil : grasps t [] = [] := rfl

@[simp] theorem hands_nil : hands t [] = [] := rfl

/-- What takers took in two stories they took story by story. -/
theorem pops_append : pops box (written ++ written') = pops box written ++ pops box written' := by
  simp [pops]

/-- What was discarded in two stories was discarded story by story. -/
theorem discards_append :
    discards box (written ++ written') = discards box written ++ discards box written' := by
  simp [discards]

/-- What a task grasped in two stories it grasped story by story. -/
theorem grasps_append :
    grasps t (written ++ written') = grasps t written ++ grasps t written' := by
  simp [grasps]

/-- What a worker handed over in two stories it handed over story by story. -/
theorem hands_append : hands t (written ++ written') = hands t written ++ hands t written' := by
  simp [hands]

/-- If nothing was discarded, what has left the mailbox was taken out of it. -/
theorem removals_eq_pops (h : discards box written = []) :
    removals box written = pops box written := by
  induction written with
  | nil => rfl
  | cons what written ih =>
    rw [← List.singleton_append, discards_append] at h
    obtain ⟨hwhat, hrest⟩ := List.append_eq_nil_iff.mp h
    rw [← List.singleton_append, removals_append, pops_append, ih hrest]
    congr 1
    cases what with
    | taken box' t r =>
      by_cases hbox : box' = box <;>
        simp [removals, pops, Occurrence.removed, Occurrence.popped?, hbox]
    | dropped box' t r =>
      by_cases hbox : box' = box <;>
        simp [removals, pops, Occurrence.removed, Occurrence.popped?, hbox]
    | discarded box' requests => exact hwhat
    | _ => rfl

section

variable (hwritten : ∀ what ∈ written, what.IsOutward)

include hwritten

/-- Where no taker has a hand in it, no mailbox is emptied. -/
theorem discards_of_outward (box : MailboxId) : discards box written = [] := by
  refine List.map_eq_nil_iff.mpr (List.flatMap_eq_nil_iff.mpr fun what hmem => ?_)
  cases hwritten what hmem <;> rfl

/-- Where no taker has a hand in it, nobody grasps anything. -/
theorem grasps_of_outward (t : TaskId) : grasps t written = [] := by
  refine List.map_eq_nil_iff.mpr (List.filterMap_eq_nil_iff.mpr fun what hmem => ?_)
  cases hwritten what hmem <;> rfl

/-- Where no taker has a hand in it, no server gets anything. -/
theorem hands_of_outward (t : TaskId) : hands t written = [] := by
  refine List.map_eq_nil_iff.mpr (List.filterMap_eq_nil_iff.mpr fun what hmem => ?_)
  cases hwritten what hmem <;> rfl

end

/-- What is dropped is given to no server. -/
theorem hands_dropped (u : TaskId) (box : MailboxId) (t : TaskId) (requests : List Request) :
    hands u (requests.map (.dropped box t)) = [] := by
  simp [hands, Occurrence.handed?, List.filterMap_map]

/-- What is dropped is grasped by nobody. -/
theorem grasps_dropped (u : TaskId) (box : MailboxId) (t : TaskId) (requests : List Request) :
    grasps u (requests.map (.dropped box t)) = [] := by
  simp [grasps, Occurrence.grasped?, List.filterMap_map]

/-- What is dropped is not discarded: somebody took it out of the mailbox. -/
theorem discards_dropped (k box : MailboxId) (t : TaskId) (requests : List Request) :
    discards k (requests.map (.dropped box t)) = [] := by
  simp [discards, Occurrence.discards, List.flatMap_map]

/-- The journal determines how requests have moved. -/
theorem Recorded.moves (h : Recorded net net') (hstory : net'.story = net.story ++ written) :
    Moves written net net' := by
  obtain ⟨written', hstory', hmoves⟩ := h
  obtain rfl := List.append_cancel_left (hstory'.symm.trans hstory)
  exact hmoves

/-! ## Addresses -/

/-- Each mailbox is registered under its own node, and the requests in it are addressed to that
node. -/
structure Routed (net : Network) : Prop where
  registered : ∀ node box, (node, box) ∈ net.registry → net.Serves box node
  queued : ∀ (box : MailboxId) (b : Mailbox), net.mailboxes[box]? = some b →
    ∀ r ∈ b.requests, r.replier = b.id

/-- Each request that is queued was queued before or is put where it belongs. -/
theorem Steady.routed (h : Steady net net')
    (hqueued : ∀ (box : MailboxId) (b' : Mailbox), net'.mailboxes[box]? = some b' →
      ∀ r ∈ b'.requests, (∃ b, net.mailboxes[box]? = some b ∧ r ∈ b.requests) ∨
        net.Serves box r.replier)
    (hnet : net.Routed) : net'.Routed where
  registered node box hmem := h.serves (hnet.registered node box (h.registry ▸ hmem))
  queued box b' found' r hr := by
    have hserves : net'.Serves box b'.id := ⟨b', found', rfl⟩
    rcases hqueued box b' found' r hr with ⟨b, found, hmem⟩ | hhere
    · have haddress := hnet.queued box b found r hmem
      exact haddress.trans ((h.serves ⟨b, found, rfl⟩).unique hserves)
    · exact (h.serves hhere).unique hserves

/-- Nothing is added to a mailbox that does not belong there. -/
theorem Steady.routed_of_put (h : Steady net net') (found : net.mailboxes[box]? = some b)
    (hmailboxes : net'.mailboxes = net.mailboxes.set box b')
    (hadded : ∀ r ∈ b'.requests, r ∈ b.requests ∨ net.Serves box r.replier) (hnet : net.Routed) :
    net'.Routed := by
  refine h.routed (fun k c hc r hr => ?_) hnet
  rw [hmailboxes, List.getElem?_set] at hc
  split at hc
  · next heq =>
    subst heq
    rw [if_pos (lt_length_of_getElem? found)] at hc
    cases hc
    exact (hadded r hr).imp_left fun hmem => ⟨b, found, hmem⟩
  · exact .inl ⟨c, hc, hr⟩

/-- Every mailbox has the requests that it had. -/
theorem Steady.routed_of_modify (h : Steady net net') {f : Mailbox → Mailbox}
    (hmailboxes : net'.mailboxes = net.mailboxes.modify box f)
    (hrequests : ∀ b, (f b).requests = b.requests) (hnet : net.Routed) : net'.Routed := by
  refine h.routed (fun k c hc r hr => ?_) hnet
  rw [hmailboxes] at hc
  obtain ⟨b, found, rfl⟩ := getElem?_modify_eq_some_iff.mp hc
  refine .inl ⟨b, found, ?_⟩
  split at hr
  · exact hrequests b ▸ hr
  · exact hr

/-- If all mailboxes are the same, requests are where they were. -/
theorem Steady.routed_of_eq (h : Steady net net') (hmailboxes : net'.mailboxes = net.mailboxes)
    (hnet : net.Routed) : net'.Routed :=
  h.routed (fun _ b' found' _ hr => .inl ⟨b', hmailboxes ▸ found', hr⟩) hnet

/-! ## What passes through a task's hands -/

/-- What the task does to requests, and what it writes about it: it has `held` in hand before and
`held'` afterwards, and gives the rest to a server, in order. -/
structure Custody (t : TaskId) (written : List Occurrence) (net net' : Network)
    (held held' : List Request) : Prop where
  story : net'.story = net.story ++ written
  moves : Moves written net net'
  steady : Steady net net'
  /-- It closes no mailbox. -/
  kept : ∀ box, discards box written = []
  /-- It drops only what the switch of the requestor says. -/
  switched : ∀ box taker r, .dropped box taker r ∈ written →
    (net.switchesOf r.requestor).dropFrom = true
  /-- It does not act for others. -/
  apart : ∀ u, u ≠ t → grasps u written = [] ∧ hands u written = []
  routed : net.Routed → net'.Routed
  balance : net.Routed →
    held.map Request.plain ++ grasps t written = hands t written ++ held'.map Request.plain

/-- The task goes from having `held` in hand to having `held'`. -/
def Passes (t : TaskId) (net net' : Network) (held held' : List Request) : Prop :=
  ∃ written, Custody t written net net' held held'

/-- What a task has in hand between two steps is what the first has left and the second begins with. -/
theorem Custody.trans (h : Custody t written net net' held held')
    (h' : Custody t written' net' net'' held' held'') :
    Custody t (written ++ written') net net'' held held'' where
  story := by rw [h'.story, h.story, List.append_assoc]
  moves := h.moves.trans h'.moves
  steady := h.steady.trans h'.steady
  kept box := by rw [discards_append, h.kept, h'.kept, List.nil_append]
  switched box taker r hmem := by
    rcases List.mem_append.mp hmem with hmem | hmem
    · exact h.switched box taker r hmem
    · rw [← h.steady.switchesOf]
      exact h'.switched box taker r hmem
  apart u hu := by
    rw [grasps_append, hands_append, (h.apart u hu).1, (h.apart u hu).2, (h'.apart u hu).1,
      (h'.apart u hu).2]
    exact ⟨rfl, rfl⟩
  routed hnet := h'.routed (h.routed hnet)
  balance hnet := by
    rw [grasps_append, hands_append, ← List.append_assoc, h.balance hnet, List.append_assoc,
      h'.balance (h.routed hnet), List.append_assoc]

namespace Passes

/-- A task that goes on twice has passed from what it had at first to what it has at last. -/
theorem trans (h : Passes t net net' held held') (h' : Passes t net' net'' held' held'') :
    Passes t net net'' held held'' := by
  obtain ⟨written, h⟩ := h
  obtain ⟨written', h'⟩ := h'
  exact ⟨written ++ written', h.trans h'⟩

/-- A task that passes requests on leaves the nodes as they are. -/
theorem steady (h : Passes t net net' held held') : Steady net net' := by
  obtain ⟨written, h⟩ := h
  exact h.steady

/-- Requests stay where they are addressed to. -/
theorem routed (h : Passes t net net' held held') (hnet : net.Routed) : net'.Routed := by
  obtain ⟨written, h⟩ := h
  exact h.routed hnet

/-- It drops some requests, and may take one; all else that is written is about other things. -/
theorem of_glance (box : MailboxId) (dropped : List Request) (taken : Option Request)
    (aside : List Occurrence) (held : List Request) (hrecorded : Recorded net net') (hsteady : Steady net net')
    (hstory : net'.story = net.story ++
      (dropped.map (.dropped box t) ++ taken.toList.map (.taken box t) ++ aside))
    (hdropped : ∀ r ∈ dropped, (net.switchesOf r.requestor).dropFrom = true)
    (haside : ∀ what ∈ aside, what.IsOutward) (hrouted : net.Routed → net'.Routed) :
    Passes t net net' held (held ++ taken.toList) := by
  have hgrasps (u : TaskId) : grasps u (dropped.map (.dropped box t) ++
      taken.toList.map (.taken box t) ++ aside) =
        if t = u then taken.toList.map Request.plain else [] := by
    rw [grasps_append, grasps_append, grasps_dropped, grasps_of_outward haside]
    cases taken with
    | none => simp
    | some r => by_cases hu : t = u <;> simp [grasps, Occurrence.grasped?, hu]
  have hhands (u : TaskId) : hands u (dropped.map (.dropped box t) ++
      taken.toList.map (.taken box t) ++ aside) = [] := by
    rw [hands_append, hands_append, hands_dropped, hands_of_outward haside]
    cases taken <;> rfl
  refine ⟨_, hstory, hrecorded.moves hstory, hsteady, fun k => ?_, fun k taker r hmem => ?_,
    fun u hu => ⟨(hgrasps u).trans (if_neg hu.symm), hhands u⟩, hrouted, fun _ => ?_⟩
  · rw [discards_append, discards_append, discards_dropped, discards_of_outward haside]
    cases taken <;> rfl
  · rcases List.mem_append.mp hmem with hmem | hmem
    · rcases List.mem_append.mp hmem with hmem | hmem
      · obtain ⟨d, hd, heq⟩ := List.mem_map.mp hmem
        cases heq
        exact hdropped _ hd
      · obtain ⟨d, hd, heq⟩ := List.mem_map.mp hmem
        cases heq
    · cases haside _ hmem
  · rw [hgrasps, hhands, if_pos rfl, List.map_append, List.nil_append]

/-- Nothing gets into the task's hands or out of them. -/
theorem of_outward (held : List Request) (hrecorded : Recorded net net') (hsteady : Steady net net')
    (hstory : net'.story = net.story ++ written) (hwritten : ∀ what ∈ written, what.IsOutward)
    (hrouted : net.Routed → net'.Routed) : Passes t net net' held held := by
  have h : Passes t net net' held (held ++ (none : Option Request).toList) :=
    of_glance 0 [] none written held hrecorded hsteady hstory (List.forall_mem_nil _) hwritten hrouted
  rwa [Option.toList_none, List.append_nil] at h

/-- A task that does nothing keeps what it has in hand. -/
theorem refl (t : TaskId) (net : Network) (held : List Request) : Passes t net net held held :=
  of_outward held (.refl net) (.refl net) (List.append_nil _).symm
    (List.forall_mem_nil _) id

/-- What the task has in hand may be put otherwise. -/
theorem congr (h : Passes t net net' held held')
    (hheld : net.Routed → held'.map Request.plain = held''.map Request.plain) :
    Passes t net net' held held'' := by
  obtain ⟨written, h⟩ := h
  refine ⟨written, { h with balance := fun hnet => ?_ }⟩
  rw [h.balance hnet, hheld hnet]

/-- Something is noted that no taker had a hand in. -/
theorem note (net : Network) (t : TaskId) (now : Nat) {what : Occurrence} (h : what.IsOutward)
    (haside : what.IsAside) (held : List Request) : Passes t net (net.note now what) held held :=
  of_outward held (.note net now haside) (.note net now what) (story_note net now what)
    (List.forall_mem_singleton.mpr h) ((Steady.note net now what).routed_of_eq rfl)

/-- A worker gives what it has to its server. -/
theorem hand (net : Network) (t : TaskId) (now : Nat) (r : Request) :
    Passes t net (net.note now (.handled t r)) [r] [] := by
  have hrecorded : Recorded net (net.note now (.handled t r)) := .note net now fun _ => ⟨rfl, rfl⟩
  have hsteady := Steady.note net now (.handled t r)
  refine ⟨[.handled t r], List.map_append, hrecorded.moves List.map_append, hsteady, fun _ => rfl,
    fun k taker d hmem => ?_, fun u hu => ⟨rfl, ?_⟩, hsteady.routed_of_eq rfl, fun _ => ?_⟩
  · cases List.mem_singleton.mp hmem
  · simp [hands, Occurrence.handed?, hu.symm]
  · simp [hands, grasps, Occurrence.handed?, Occurrence.grasped?]

end Passes

/-! ## Senders and repliers -/

/-- Every effect of a call is recorded. -/
theorem Effect.recorded (h : Effect puts net net') : Recorded net net' := by
  cases h with
  | put now hputs found hfree hpush =>
    obtain ⟨hopen, hrequests⟩ := push?_requests hpush
    refine .putBack _ found [.sent _ _] rfl List.map_append ?_ (fun k hk => ?_) fun hclosed => ?_
    · rw [hrequests]
      simp [pushes, removals, Occurrence.pushed?, Occurrence.removed, Mailbox.enter]
    · simp [pushes, removals, Occurrence.pushed?, Occurrence.removed, Ne.symm hk]
    · exact absurd (hopen.symm.trans hclosed) Bool.false_ne_true
  | strike box key => exact strike_recorded box key net
  | mark slip f hf => exact .of_eq rfl rfl
  | roll => exact .of_eq rfl rfl
  | remark now h =>
    refine .note net now ?_
    cases h with
    | answered box r outcome slip => exact fun _ => ⟨rfl, rfl⟩
    | raised e => exact fun _ => ⟨rfl, rfl⟩
  | leave t box =>
    exact .modifyMailbox net box (fun b => (leave_requests t b).1) (fun b => (leave_requests t b).2)

/-- No taker has a hand in the effects of senders and repliers. -/
theorem Effect.outward (h : Effect puts net net') :
    ∃ written, net'.story = net.story ++ written ∧ ∀ what ∈ written, what.IsOutward := by
  cases h with
  | put now hputs found hfree hpush =>
    exact ⟨_, List.map_append, List.forall_mem_singleton.mpr (.sent _ _)⟩
  | strike box key => exact ⟨[], (List.append_nil _).symm, List.forall_mem_nil _⟩
  | mark slip f hf => exact ⟨[], (List.append_nil _).symm, List.forall_mem_nil _⟩
  | roll => exact ⟨[], (List.append_nil _).symm, List.forall_mem_nil _⟩
  | remark now h => exact ⟨_, List.map_append, List.forall_mem_singleton.mpr h.isOutward⟩
  | leave t box => exact ⟨[], (List.append_nil _).symm, List.forall_mem_nil _⟩

/-- A request is put where it is addressed to, as long as `puts` allows nothing else. -/
theorem Effect.routed (h : Effect puts net net')
    (hputs : ∀ box r, puts box r → net.Serves box r.replier) (hnet : net.Routed) : net'.Routed := by
  have hsteady := h.steady
  cases h with
  | put now hput found hfree hpush =>
    refine hsteady.routed_of_put found rfl (fun r hr => ?_) hnet
    rw [(push?_requests hpush).2] at hr
    rcases List.mem_append.mp hr with hr | hr
    · exact .inl hr
    · obtain rfl := List.mem_singleton.mp hr
      exact .inr (hputs _ _ hput)
  | strike box key => exact hsteady.routed_of_modify rfl (fun _ => rfl) hnet
  | mark slip f hf => exact hsteady.routed_of_eq rfl hnet
  | roll => exact hsteady.routed_of_eq rfl hnet
  | remark now h => exact hsteady.routed_of_eq rfl hnet
  | leave t box => exact hsteady.routed_of_modify rfl (fun b => (leave_requests t b).1) hnet

/-- Nor in all of them, one after the other. -/
theorem Effects.outward (h : Effects puts net net') :
    ∃ written, net'.story = net.story ++ written ∧ ∀ what ∈ written, what.IsOutward := by
  induction h with
  | refl => exact ⟨[], (List.append_nil _).symm, List.forall_mem_nil _⟩
  | tail _ hlast ih =>
    obtain ⟨written, hstory, hwritten⟩ := ih
    obtain ⟨written', hstory', hwritten'⟩ := hlast.outward
    refine ⟨written ++ written', ?_, List.forall_mem_append.mpr ⟨hwritten, hwritten'⟩⟩
    rw [hstory', hstory, List.append_assoc]

/-- A sender or replier leaves alone what the task has in hand. -/
theorem Effects.passes (h : Effects puts net net')
    (hputs : ∀ box r, puts box r → net.Serves box r.replier) (t : TaskId) (held : List Request) :
    Passes t net net' held held := by
  induction h with
  | refl => exact .refl t net held
  | tail _ hlast ih =>
    obtain ⟨written, hstory, hwritten⟩ := hlast.outward
    exact ih.trans (.of_outward held hlast.recorded hlast.steady hstory hwritten
      (hlast.routed fun box r hput => ih.steady.serves (hputs box r hput)))

/-! ## Takers -/

/-- What a taker has in hand after its turn. -/
def inHand : TakeProgress → List Request
  | .waiting stage => stage.inHand
  | .ended (.ok r) => [r]
  | .ended (.error _) => []

/-- A request that is dropped because of its requestor comes from a node with this switch on. -/
theorem dropFrom_of_drops {id : PeerId} (h : net.drops id r = true) :
    (net.switchesOf r.requestor).dropFrom = true :=
  (Bool.and_eq_true_iff.mp h).2

/-- A taker that looks has nothing in hand before, and what it has taken afterwards. -/
theorem takeFrom_passes (now : Nat) (t : TaskId) (box : MailboxId) (net : Network) :
    Passes t net (net.takeFrom now t box).1 [] (inHand (net.takeFrom now t box).2) := by
  have hrecorded := takeFrom_recorded now t box net
  have hglance := takeFrom_glance now t box net
  have hsteady := hglance.steady
  generalize net.takeFrom now t box = result at hrecorded hglance hsteady ⊢
  cases hglance with
  | nowhere hnone => exact .refl t net []
  | shut found hclosed =>
    exact .of_outward [] hrecorded hsteady (handBack_story now box _ [] net) (List.forall_mem_nil _)
      (hsteady.routed_of_put found rfl fun r hr => .inl hr)
  | @waits b found hopen hdropped =>
    have hstory := handBack_story now box ({ b with wakeUp := false, requests := [] }.join t)
      (b.requests.map (.dropped box t)) net
    refine .of_glance box b.requests none [] [] hrecorded hsteady ?_
      (fun r hr => dropFrom_of_drops (hdropped r hr)) (List.forall_mem_nil _)
      (hsteady.routed_of_put found rfl nofun)
    rwa [List.append_nil, Option.toList_none, List.map_nil, List.append_nil]
  | @takes b dropped rest r found hopen hsplit hdropped hkept =>
    let kept : Mailbox := { b with wakeUp := false, requests := rest }
    let written : List Occurrence := dropped.map (.dropped box t) ++ [.taken box t r]
    have hstory : (net.handBack now box kept written).story = net.story ++ written :=
      handBack_story now box kept written net
    have hmem : ∀ d ∈ kept.requests, d ∈ b.requests := by
      intro d hd
      rw [hsplit]
      exact List.mem_append_right dropped (List.mem_cons_of_mem r hd)
    have hrouted : net.Routed → (net.handBack now box kept written).Routed :=
      (handBack_steady now kept written found rfl).routed_of_put found rfl fun d hd => .inl (hmem d hd)
    have hswitched : ∀ d ∈ dropped, (net.switchesOf d.requestor).dropFrom = true :=
      fun d hd => dropFrom_of_drops (hdropped d hd)
    change Recorded net ((net.handBack now box kept written).receive now box kept r).1 at hrecorded
    change Steady net ((net.handBack now box kept written).receive now box kept r).1 at hsteady
    show Passes t net ((net.handBack now box kept written).receive now box kept r).1 [] _
    have htaken (aside : List Occurrence) : written ++ aside =
        dropped.map (.dropped box t) ++ (some r).toList.map (.taken box t) ++ aside := rfl
    rcases receive_cases now box kept r (net.handBack now box kept written) with
      ⟨haddress, heq⟩ | ⟨-, heq⟩ | ⟨-, wake, heq⟩
    · -- requests that are queued are addressed to the node of their mailbox
      have hpasses : Passes t net _ [] ([] ++ (some r).toList) :=
        .of_glance box dropped (some r) [.raised (misrouted b.id r)] [] hrecorded hsteady
          (by rw [heq, story_note, hstory, List.append_assoc, htaken]) hswitched
          (List.forall_mem_singleton.mpr (.raised _))
          (fun hnet => heq ▸ (Steady.note _ now _).routed_of_eq rfl (hrouted hnet))
      refine hpasses.congr fun hnet => absurd ?_ haddress
      exact hnet.queued box b found r (hsplit ▸ List.mem_append_right dropped List.mem_cons_self)
    · rw [heq] at hrecorded hsteady ⊢
      exact .of_glance box dropped (some r) [] [] hrecorded hsteady
        (by rw [hstory, ← htaken, List.append_nil]) hswitched (List.forall_mem_nil _) hrouted
    · rw [heq] at hrecorded hsteady ⊢
      exact .of_glance box dropped (some r) [] [] hrecorded hsteady
        (by rw [hstory, ← htaken, List.append_nil]) hswitched (List.forall_mem_nil _) hrouted

/-- A taker that begins has nothing in hand. -/
theorem beginTake_passes (now : Nat) (t : TaskId) (node : PeerId) (net : Network) :
    Passes t net (net.beginTake now t node).1 [] (inHand (net.beginTake now t node).2) := by
  unfold beginTake
  split
  · exact .refl t net []
  · next box _ =>
    dsimp only
    split
    · exact takeFrom_passes now t box net
    · exact .refl t net []

/-- A taker that goes on keeps what it held back, hands it on or takes a request. -/
theorem turnTake_passes (now : Nat) (t : TaskId) (stage : Taking) (net : Network) :
    Passes t net (net.turnTake now t stage).1 stage.inHand (inHand (net.turnTake now t stage).2) := by
  cases stage with
  | delayed box wake =>
    rw [turnTake]
    split
    · exact takeFrom_passes now t box net
    · exact .refl t net []
  | looking box =>
    rw [turnTake]
    split
    · exact takeFrom_passes now t box net
    · exact .refl t net []
  | holding box r wake =>
    rw [turnTake]
    split <;> exact .refl t net [r]

end Network

end Replica
