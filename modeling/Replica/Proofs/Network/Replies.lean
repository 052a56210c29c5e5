import Replica.Network.Replying
import Replica.Network.Sending
import Replica.Network.Taking
import Replica.Proofs.Places
import Replica.Proofs.Registry

/-!
# What becomes of replies on a network

A reply finds its caller through three things: the registry, the tables of the mailboxes and the
slips. Most of what happens on a network adds no caller and writes on no slip (`KeepsReplies`). The
exceptions are a sender that enters its request (`EntersCaller`, in `Replica.Proofs.Network.Turns`)
and a reply that reaches a caller.
-/

namespace Replica.Network

variable {net net' net'' : Network} {box : MailboxId} {b b' : Mailbox} {node node' : PeerId}
variable {slip : SlipId} {outcome : Outcome}

/-! ## Views -/

/-- A caller waits under the key in the table of the mailbox, and looks at the slip. -/
def Awaits (net : Network) (box : MailboxId) (key : RequestKey) (slip : SlipId) : Prop :=
  ∃ b, net.mailboxes[box]? = some b ∧ (key, slip) ∈ b.replies

/-- The outcome is written on the slip. -/
def Written (net : Network) (slip : SlipId) (outcome : Outcome) : Prop :=
  net.slips[slip]? = some (.filled outcome)

/-- The mailbox was made for the node. -/
def Serves (net : Network) (box : MailboxId) (node : PeerId) : Prop :=
  ∃ b, net.mailboxes[box]? = some b ∧ b.id = node

/-- A mailbox was made for one node. -/
theorem Serves.unique (h : net.Serves box node) (h' : net.Serves box node') : node = node' := by
  obtain ⟨b, found, rfl⟩ := h
  obtain ⟨b', found', rfl⟩ := h'
  rw [Option.some.inj (found.symm.trans found')]

/-- A slip is in one table only, under one key, and it is blank for all that replies have written;
mailboxes are registered under their own nodes. -/
structure SlipsUnique (net : Network) : Prop where
  known : ∀ box key slip, net.Awaits box key slip → slip < net.slips.length
  apart : ∀ box box' key key' slip, net.Awaits box key slip → net.Awaits box' key' slip →
    box = box' ∧ key = key'
  unwritten : ∀ box key slip outcome, net.Awaits box key slip → ¬ net.Written slip outcome
  registered : ∀ node box, (node, box) ∈ net.registry → net.Serves box node

/-- The mailbox that a node is registered with was made for it. -/
theorem SlipsUnique.serves (h : net.SlipsUnique) (hget : net.registry.get? node = some box) :
    net.Serves box node :=
  h.registered node box (Registry.mem_of_get? hget)

/-- On a new network nobody waits and nothing is registered. -/
theorem slipsUnique_fresh (settings : Settings) (dice : Nat → UInt64) :
    SlipsUnique { settings, dice } where
  known _ _ _ h := by
    obtain ⟨_, found, _⟩ := h
    cases found
  apart _ _ _ _ _ h := by
    obtain ⟨_, found, _⟩ := h
    cases found
  unwritten _ _ _ _ h := by
    obtain ⟨_, found, _⟩ := h
    cases found
  registered _ _ h := by cases h

/-! ## Changes that add no caller and write nothing -/

/-- Nobody waits who did not wait before, and the same is written on the slips. -/
structure KeepsReplies (net net' : Network) : Prop where
  slips : net'.slips.length = net.slips.length
  awaits : ∀ box key slip, net'.Awaits box key slip → net.Awaits box key slip
  written : ∀ slip outcome, net'.Written slip outcome ↔ net.Written slip outcome
  serves : ∀ box node, net.Serves box node → net'.Serves box node
  registry : ∀ node box, (node, box) ∈ net'.registry →
    (node, box) ∈ net.registry ∨ net'.Serves box node

/-- Notes change nothing but the journal. -/
theorem foldl_note_eq {α : Type} (now : Nat) (what : α → Occurrence) (l : List α) (net : Network) :
    ∃ journal, l.foldl (fun net a => net.note now (what a)) net = { net with journal } := by
  induction l generalizing net with
  | nil => exact ⟨net.journal, rfl⟩
  | cons a l ih => exact ih (net.note now (what a))

namespace KeepsReplies

theorem refl (net : Network) : KeepsReplies net net :=
  ⟨rfl, fun _ _ _ => id, fun _ _ => .rfl, fun _ _ => id, fun _ _ => .inl⟩

/-- Replies that are kept in two steps are kept altogether. -/
theorem trans (h : KeepsReplies net net') (h' : KeepsReplies net' net'') :
    KeepsReplies net net'' where
  slips := h'.slips.trans h.slips
  awaits box key slip hw := h.awaits _ _ _ (h'.awaits _ _ _ hw)
  written slip outcome := (h'.written slip outcome).trans (h.written slip outcome)
  serves box node hs := h'.serves _ _ (h.serves _ _ hs)
  registry node box hmem := by
    rcases h'.registry node box hmem with hmem | hs
    · exact (h.registry node box hmem).imp_right (h'.serves _ _)
    · exact .inr hs

/-- Slips that were unique stay so where nobody is entered and nothing new is written. -/
theorem slipsUnique (h : KeepsReplies net net') (hnet : net.SlipsUnique) : net'.SlipsUnique where
  known box key slip hw := h.slips ▸ hnet.known _ _ _ (h.awaits _ _ _ hw)
  apart box box' key key' slip hw hw' :=
    hnet.apart _ _ _ _ _ (h.awaits _ _ _ hw) (h.awaits _ _ _ hw')
  unwritten box key slip outcome hw hwritten :=
    hnet.unwritten _ _ _ _ (h.awaits _ _ _ hw) ((h.written _ _).mp hwritten)
  registered node box hmem := by
    rcases h.registry node box hmem with hmem | hs
    · exact h.serves _ _ (hnet.registered node box hmem)
    · exact hs

/-- A change of the mailboxes that leaves nodes alone and adds nothing to the tables. -/
theorem of_mailboxes
    (hserves : ∀ (box : MailboxId) (b : Mailbox), net.mailboxes[box]? = some b →
      ∃ b' : Mailbox, net'.mailboxes[box]? = some b' ∧ b'.id = b.id)
    (hreplies : ∀ (box : MailboxId) (b' : Mailbox), net'.mailboxes[box]? = some b' →
      ∀ p ∈ b'.replies, ∃ b : Mailbox, net.mailboxes[box]? = some b ∧ p ∈ b.replies)
    (hslips : net'.slips = net.slips) (hregistry : net'.registry = net.registry) :
    KeepsReplies net net' where
  slips := congrArg List.length hslips
  awaits box key slip hw := by
    obtain ⟨b', found, hmem⟩ := hw
    exact hreplies box b' found _ hmem
  written slip outcome := by
    unfold Written
    rw [hslips]
  serves box node hs := by
    obtain ⟨b, found, rfl⟩ := hs
    exact hserves box b found
  registry node box hmem := .inl (hregistry ▸ hmem)

/-- What is neither registry, table nor slip does not matter. -/
theorem of_eq (hmailboxes : net'.mailboxes = net.mailboxes) (hslips : net'.slips = net.slips)
    (hregistry : net'.registry = net.registry) : KeepsReplies net net' := by
  refine of_mailboxes (fun box b found => ⟨b, hmailboxes ▸ found, rfl⟩) ?_ hslips hregistry
  intro box b' found p hp
  exact ⟨b', hmailboxes ▸ found, hp⟩

/-- A note touches neither tables nor slips. -/
theorem note (net : Network) (now : Nat) (what : Occurrence) :
    KeepsReplies net (net.note now what) :=
  of_eq rfl rfl rfl

/-- A mailbox is changed, but not its node, and nothing is added to its table. -/
theorem modifyMailbox (net : Network) (box : MailboxId) {f : Mailbox → Mailbox}
    (hid : ∀ b, (f b).id = b.id) (hreplies : ∀ b, (f b).replies ⊆ b.replies) :
    KeepsReplies net (net.modifyMailbox box f) := by
  refine of_mailboxes (fun k b found => ?_) (fun k b' found p hp => ?_) rfl rfl
  · refine ⟨_, getElem?_modify_eq_some_iff.mpr ⟨b, found, rfl⟩, ?_⟩
    split
    · exact hid b
    · rfl
  · obtain ⟨b, hb, rfl⟩ := getElem?_modify_eq_some_iff.mp found
    refine ⟨b, hb, ?_⟩
    split at hp
    · exact hreplies b hp
    · exact hp

/-- A slip is changed, but nothing is written on it or wiped off it. -/
theorem modifySlip (net : Network) (slip : SlipId) {f : Slip → Slip}
    (hf : ∀ s outcome, f s = .filled outcome ↔ s = .filled outcome) :
    KeepsReplies net (net.modifySlip slip f) where
  slips := List.length_modify ..
  awaits _ _ _ := id
  written k outcome := by
    unfold Written
    constructor
    · intro hk
      obtain ⟨s, found, heq⟩ := getElem?_modify_eq_some_iff.mp hk
      split at heq
      · rw [found, (hf s outcome).mp heq]
      · rw [found, heq]
    · intro hk
      refine getElem?_modify_eq_some_iff.mpr ⟨_, hk, ?_⟩
      split
      · exact (hf _ outcome).mpr rfl
      · rfl
  serves _ _ := id
  registry _ _ := .inl

/-- Slips may be changed one after the other, as long as what replies have written stays. -/
theorem modifySlips (net : Network) (slips : List SlipId) {f : Slip → Slip}
    (hf : ∀ s outcome, f s = .filled outcome ↔ s = .filled outcome) :
    KeepsReplies net { net with slips := slips.foldl (fun l slip => l.modify slip f) net.slips } := by
  induction slips generalizing net with
  | nil => exact refl net
  | cons slip slips ih => exact (modifySlip net slip hf).trans (ih (net.modifySlip slip f))

end KeepsReplies

/-! ## Nodes and switches -/

/-- A slip that was voided is filled exactly if it was before. -/
theorem filled_voided_iff {s : Slip} : s.voided = .filled outcome ↔ s = .filled outcome := by
  cases s <;> simp [Slip.voided]

/-- A slip that was abandoned is filled exactly if it was before. -/
theorem filled_abandon_iff {s : Slip} : s.abandon = .filled outcome ↔ s = .filled outcome := by
  cases s <;> simp [Slip.abandon]

/-- Closing a mailbox empties its table, and voids only the slips that are blank. -/
theorem closeMailbox_keepsReplies (now : Nat) (box : MailboxId) (net : Network) :
    KeepsReplies net (net.closeMailbox now box) := by
  unfold closeMailbox
  split
  · exact .refl net
  · next b found =>
    have hset := set_eq_modify Mailbox.close found
    have hclose := KeepsReplies.modifyMailbox net box (f := Mailbox.close) (fun _ => rfl)
      (fun _ _ hp => nomatch hp)
    have hvoid := KeepsReplies.modifySlips (net.modifyMailbox box Mailbox.close) b.slips
      (fun _ _ => filled_voided_iff)
    rw [hset]
    exact (hclose.trans hvoid).trans (.note _ now _)

/-- A new mailbox, with an empty table, is registered under its node. -/
theorem KeepsReplies.enroll (net : Network) (b : Mailbox) (hb : b.replies = []) :
    KeepsReplies net { net with
      registry := net.registry.set b.id net.mailboxes.length
      mailboxes := net.mailboxes ++ [b] } where
  slips := rfl
  awaits box key slip hw := by
    obtain ⟨c, found, hmem⟩ := hw
    rcases getElem?_concat_eq_some_iff.mp found with found | ⟨-, rfl⟩
    · exact ⟨c, found, hmem⟩
    · rw [hb] at hmem
      cases hmem
  written _ _ := .rfl
  serves box node hs := by
    obtain ⟨c, found, hid⟩ := hs
    exact ⟨c, getElem?_concat_of_some b found, hid⟩
  registry node box hmem := by
    rcases Registry.mem_set hmem with heq | hmem
    · cases heq
      exact .inr ⟨b, getElem?_concat_eq_some_iff.mpr (.inr ⟨rfl, rfl⟩), rfl⟩
    · exact .inl hmem

/-- Registering a node closes at most its old mailbox, and nobody waits in the new one. -/
theorem register_keepsReplies (now : Nat) (node : PeerId) (net : Network) :
    KeepsReplies net (net.register now node) := by
  have henroll := KeepsReplies.enroll net { id := node } rfl
  unfold register
  cases net.registry.get? node with
  | none => exact henroll
  | some box => exact henroll.trans (closeMailbox_keepsReplies now box _)

/-- A shut down keeps what replies have written. -/
theorem shutdown_keepsReplies (now : Nat) (node : PeerId) (net : Network) :
    KeepsReplies net (net.shutdown now node) := by
  unfold shutdown
  split
  · next box _ =>
    have hremove : KeepsReplies net { net with registry := net.registry.remove node } :=
      { KeepsReplies.refl net with
        registry := fun _ _ hmem => .inl (Registry.mem_of_mem_remove hmem) }
    exact hremove.trans (closeMailbox_keepsReplies now box _)
  · exact .refl net

/-- So does a clear. -/
theorem clear_keepsReplies (now : Nat) (net : Network) : KeepsReplies net (net.clear now) := by
  have hall (nodes : List PeerId) :
      KeepsReplies net (nodes.foldl (fun net id => net.shutdown now id) net) := by
    induction nodes generalizing net with
    | nil => exact .refl net
    | cons node nodes ih => exact (shutdown_keepsReplies now node net).trans (ih _)
  exact hall net.nodes

/-- Switches have nothing to do with replies. -/
theorem setSwitches_keepsReplies (box : MailboxId) (f : Switches → Switches) (net : Network) :
    KeepsReplies net (net.setSwitches box f) :=
  .modifyMailbox net box (fun _ => rfl) (fun _ => List.Subset.refl _)

/-- Neither have detours. -/
theorem divert_keepsReplies (owner : TaskId) (other : PeerId) (net : Network) :
    KeepsReplies net (net.divert owner other) := by
  refine .of_mailboxes (fun box b found => ?_) (fun box b' found p hp => ?_) rfl rfl
  · have hmap := congrArg (Option.map fun b : Mailbox =>
      { b with requests := b.requests.map (Request.divert owner other) }) found
    exact ⟨_, List.getElem?_map.trans hmap, rfl⟩
  · rw [divert, List.getElem?_map] at found
    obtain ⟨b, hb, rfl⟩ := Option.map_eq_some_iff.mp found
    exact ⟨b, hb, hp⟩

/-! ## Takers -/

/-- A mailbox in hand is changed, but not its node and its table, and put back. -/
theorem KeepsReplies.putBack (b' : Mailbox) (found : net.mailboxes[box]? = some b)
    (hid : b'.id = b.id) (hreplies : b'.replies = b.replies)
    (hmailboxes : net'.mailboxes = net.mailboxes.set box b') (hslips : net'.slips = net.slips)
    (hregistry : net'.registry = net.registry) : KeepsReplies net net' := by
  have hset := hmailboxes.trans (set_eq_modify (fun _ => b') found)
  refine .of_mailboxes (fun k c hc => ?_) (fun k c' hc p hp => ?_) hslips hregistry
  · rw [hset]
    refine ⟨_, getElem?_modify_eq_some_iff.mpr ⟨c, hc, rfl⟩, ?_⟩
    split
    · next heq =>
      subst heq
      rw [Option.some.inj (hc.symm.trans found), hid]
    · rfl
  · rw [hset] at hc
    obtain ⟨c, hold, rfl⟩ := getElem?_modify_eq_some_iff.mp hc
    refine ⟨c, hold, ?_⟩
    split at hp
    · next heq =>
      subst heq
      rw [Option.some.inj (hold.symm.trans found), ← hreplies]
      exact hp
    · exact hp

/-- A request that is received is nobody's reply. -/
theorem receive_keepsReplies (now : Nat) (box : MailboxId) (b : Mailbox) (r : Request)
    (net : Network) : KeepsReplies net (net.receive now box b r).1 := by
  unfold receive
  split
  · exact .note net now _
  · dsimp only
    split <;> exact .refl net

/-- Takers touch neither tables nor slips when they look. -/
theorem takeFrom_keepsReplies (now : Nat) (t : TaskId) (box : MailboxId) (net : Network) :
    KeepsReplies net (net.takeFrom now t box).1 := by
  unfold takeFrom
  split
  · exact .refl net
  · next b found =>
    dsimp only
    split
    · exact .putBack { b with wakeUp := false } found rfl rfl rfl rfl rfl
    · obtain ⟨journal, hnoted⟩ := foldl_note_eq now (.dropped box t)
        (b.requests.takeWhile (net.drops b.id)) net
      rw [hnoted]
      split
      · exact .putBack ({ b with wakeUp := false, requests := [] }.join t) found rfl rfl rfl rfl rfl
      · next r rest _ =>
        refine .trans ?_ (receive_keepsReplies now box _ r _)
        exact .putBack { b with wakeUp := false, requests := rest } found rfl rfl rfl rfl rfl

/-- Nor when they begin. -/
theorem beginTake_keepsReplies (now : Nat) (t : TaskId) (node : PeerId) (net : Network) :
    KeepsReplies net (net.beginTake now t node).1 := by
  unfold beginTake
  split
  · exact .refl net
  · next box _ =>
    dsimp only
    split
    · exact takeFrom_keepsReplies now t box net
    · exact .refl net

/-- Nor when they go on. -/
theorem turnTake_keepsReplies (now : Nat) (t : TaskId) (stage : Taking) (net : Network) :
    KeepsReplies net (net.turnTake now t stage).1 := by
  cases stage with
  | delayed box wake =>
    rw [turnTake]
    split
    · exact takeFrom_keepsReplies now t box net
    · exact .refl net
  | looking box =>
    rw [turnTake]
    split
    · exact takeFrom_keepsReplies now t box net
    · exact .refl net
  | holding box r wake =>
    rw [turnTake]
    split <;> exact .refl net

/-- Waking somebody leaves the table alone. -/
theorem wakeOne_replies (b : Mailbox) : b.wakeOne.replies = b.replies ∧ b.wakeOne.id = b.id := by
  unfold Mailbox.wakeOne
  split <;> exact ⟨rfl, rfl⟩

/-- So does leaving the line. -/
theorem leave_replies (t : TaskId) (b : Mailbox) :
    (b.leave t).replies = b.replies ∧ (b.leave t).id = b.id := by
  unfold Mailbox.leave
  split
  · exact ⟨rfl, rfl⟩
  · exact wakeOne_replies b

/-- And so does a taker that is cancelled. -/
theorem cancelTake_keepsReplies (t : TaskId) (stage : Taking) (net : Network) :
    KeepsReplies net (net.cancelTake t stage) := by
  cases stage with
  | looking box =>
    exact .modifyMailbox net box (fun b => (leave_replies t b).2)
      (fun b => (leave_replies t b).1 ▸ List.Subset.refl _)
  | delayed box wake => exact .refl net
  | holding box r wake => exact .refl net

end Replica.Network
