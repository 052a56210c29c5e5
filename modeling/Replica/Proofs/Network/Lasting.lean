import Replica.Proofs.Network.Entries
import Replica.Proofs.Network.Queues

/-!
# Entries that last

Whoever is in a table stays there, whatever is on its slip, until its mailbox is closed (`Lasts`), a
reply under its key is handed over to it (`deliver_awaits`), or it strikes itself out. So an entry whose
caller does not look any more is removed by nobody but the other two.
-/

namespace Replica.Network

variable {net net' net'' : Network} {box : MailboxId} {b b' : Mailbox} {r : Request} {t : TaskId}
variable {key : RequestKey} {slip : SlipId} {now : Nat}

/-- Whoever is in a table stays there, unless the mailbox is closed. -/
def Lasts (net net' : Network) : Prop :=
  ∀ box key slip, net.Awaits box key slip → net'.Awaits box key slip ∨ net'.IsClosed box

/-- A mailbox that is closed stays closed. -/
theorem Recorded.isClosed (h : Recorded net net') (hclosed : net.IsClosed box) : net'.IsClosed box := by
  obtain ⟨written, -, hmoves⟩ := h
  exact (hmoves.closed box hclosed).2

namespace Lasts

/-- If everybody stays in the tables, entries last. -/
theorem of_awaits (h : ∀ box key slip, net.Awaits box key slip → net'.Awaits box key slip) :
    Lasts net net' := fun box key slip hw => .inl (h box key slip hw)

theorem refl (net : Network) : Lasts net net := of_awaits fun _ _ _ => id

/-- Entries that last in two steps last altogether. -/
theorem trans (h : Lasts net net') (h' : Lasts net' net'') (hrecorded : Recorded net' net'') :
    Lasts net net'' := by
  intro box key slip hw
  rcases h box key slip hw with hw | hclosed
  · exact h' box key slip hw
  · exact .inr (hrecorded.isClosed hclosed)

/-- No mailbox but those that are closed has lost its table. -/
theorem of_mailboxes (h : ∀ (box : MailboxId) (b : Mailbox), net.mailboxes[box]? = some b →
    ∃ b', net'.mailboxes[box]? = some b' ∧ (b'.replies = b.replies ∨ b'.closed = true)) :
    Lasts net net' := by
  rintro box key slip ⟨b, found, hmem⟩
  obtain ⟨b', found', hreplies | hclosed⟩ := h box b found
  · exact .inl ⟨b', found', hreplies ▸ hmem⟩
  · exact .inr ⟨b', found', hclosed⟩

/-- A mailbox may be changed in anything but its table. -/
theorem modifyMailbox (net : Network) (box : MailboxId) {f : Mailbox → Mailbox}
    (hf : ∀ b, (f b).replies = b.replies) : Lasts net (net.modifyMailbox box f) := by
  refine .of_mailboxes fun k b found => ⟨_, getElem?_modify_eq_some_iff.mpr ⟨b, found, rfl⟩, .inl ?_⟩
  split
  · exact hf b
  · rfl

/-- A mailbox in hand is put back with its table. -/
theorem putBack (found : net.mailboxes[box]? = some b) (hreplies : b'.replies = b.replies)
    (hmailboxes : net'.mailboxes = net.mailboxes.set box b') : Lasts net net' := by
  refine .of_mailboxes fun k c hc => ?_
  rw [hmailboxes, set_eq_modify (fun _ => b') found]
  refine ⟨_, getElem?_modify_eq_some_iff.mpr ⟨c, hc, rfl⟩, .inl ?_⟩
  split
  · next heq =>
    subst heq
    exact Option.some.inj (found.symm.trans hc) ▸ hreplies
  · rfl

end Lasts

/-! ## Nodes -/

/-- Closing a mailbox strikes only those who wait there. -/
theorem closeMailbox_lasts (now : Nat) (box : MailboxId) (net : Network) :
    Lasts net (net.closeMailbox now box) := by
  cases found : net.mailboxes[box]? with
  | none =>
    rw [closeMailbox, found]
    exact .refl net
  | some b =>
    refine .of_mailboxes fun k c hc => ?_
    rw [mailboxes_closeMailbox now found]
    refine ⟨_, getElem?_modify_eq_some_iff.mpr ⟨c, hc, rfl⟩, ?_⟩
    split
    · exact .inr rfl
    · exact .inl rfl

/-- Registering a node strikes only those who wait in its old mailbox. -/
theorem register_lasts (now : Nat) (node : PeerId) (net : Network) :
    Lasts net (net.register now node) := by
  let enrolled : Network := { net with
    registry := net.registry.set node net.mailboxes.length
    mailboxes := net.mailboxes ++ [{ id := node }] }
  have henroll : Lasts net enrolled :=
    .of_mailboxes fun k b found => ⟨b, getElem?_concat_of_some _ found, .inl rfl⟩
  unfold register
  cases net.registry.get? node with
  | none => exact henroll
  | some box => exact henroll.trans (closeMailbox_lasts now box _) (closeMailbox_recorded now box _)

/-- A shut down strikes only those who wait for the node. -/
theorem shutdown_lasts (now : Nat) (node : PeerId) (net : Network) :
    Lasts net (net.shutdown now node) := by
  unfold shutdown
  split
  · next box _ => exact closeMailbox_lasts now box { net with registry := net.registry.remove node }
  · exact .refl net

/-- A clear closes every mailbox that it strikes anybody from. -/
theorem clear_lasts (now : Nat) (net : Network) : Lasts net (net.clear now) := by
  have hall (nodes : List PeerId) (net : Network) :
      Lasts net (nodes.foldl (fun net id => net.shutdown now id) net) ∧
        Recorded net (nodes.foldl (fun net id => net.shutdown now id) net) := by
    induction nodes generalizing net with
    | nil => exact ⟨.refl net, .refl net⟩
    | cons node nodes ih =>
      obtain ⟨hlasts, hrecorded⟩ := ih (net.shutdown now node)
      exact ⟨(shutdown_lasts now node net).trans hlasts hrecorded,
        (shutdown_recorded now node net).trans hrecorded⟩
  exact (hall net.nodes net).1

/-- Switches strike nobody. -/
theorem setSwitches_lasts (box : MailboxId) (f : Switches → Switches) (net : Network) :
    Lasts net (net.setSwitches box f) :=
  .modifyMailbox net box fun _ => rfl

/-- Detours strike nobody. -/
theorem divert_lasts (owner : TaskId) (other : PeerId) (net : Network) :
    Lasts net (net.divert owner other) :=
  .of_mailboxes fun _ _ found =>
    ⟨_, List.getElem?_map.trans (congrArg (Option.map _) found), .inl rfl⟩

/-! ## Takers -/

/-- What a taker hands back has the table that it found. -/
theorem handBack_lasts (now : Nat) (b' : Mailbox) (written : List Occurrence)
    (found : net.mailboxes[box]? = some b) (hreplies : b'.replies = b.replies) :
    Lasts net (net.handBack now box b' written) :=
  .putBack found hreplies rfl

/-- A look of a taker strikes nobody. -/
theorem Glance.lasts {result : Network × TakeProgress} (h : Glance now t box net result) :
    Lasts net result.1 := by
  cases h with
  | nowhere => exact .refl net
  | shut found hclosed => exact handBack_lasts now _ _ found rfl
  | waits found hopen hdropped => exact handBack_lasts now _ _ found rfl
  | @takes b dropped rest r found hopen hsplit hdropped hkept =>
    let taken : Mailbox := { b with wakeUp := false, requests := rest }
    have hback : Lasts net (net.handBack now box taken
        (dropped.map (.dropped box t) ++ [.taken box t r])) := handBack_lasts now taken _ found rfl
    rcases receive_cases now box taken r (net.handBack now box taken
        (dropped.map (.dropped box t) ++ [.taken box t r])) with ⟨-, h⟩ | ⟨-, h⟩ | ⟨-, wake, h⟩
    all_goals rw [h]; exact hback

/-- A taker that begins strikes nobody. -/
theorem beginTake_lasts (now : Nat) (t : TaskId) (node : PeerId) (net : Network) :
    Lasts net (net.beginTake now t node).1 := by
  unfold beginTake
  split
  · exact .refl net
  · next box _ =>
    dsimp only
    split
    · exact (takeFrom_glance now t box net).lasts
    · exact .refl net

/-- A taker that goes on strikes nobody. -/
theorem turnTake_lasts (now : Nat) (t : TaskId) (stage : Taking) (net : Network) :
    Lasts net (net.turnTake now t stage).1 := by
  cases stage with
  | delayed box wake =>
    rw [turnTake]
    split
    · exact (takeFrom_glance now t box net).lasts
    · exact .refl net
  | looking box =>
    rw [turnTake]
    split
    · exact (takeFrom_glance now t box net).lasts
    · exact .refl net
  | holding box r wake =>
    rw [turnTake]
    split <;> exact .refl net

/-- A taker that is cancelled strikes nobody. -/
theorem cancelTake_lasts (t : TaskId) (stage : Taking) (net : Network) :
    Lasts net (net.cancelTake t stage) := by
  cases stage with
  | looking box => exact .modifyMailbox net box fun b => (b.leave_ages t).replies
  | delayed box wake => exact .refl net
  | holding box r wake => exact .refl net

/-! ## Replies -/

/-- Whoever is in a table stays there when a reply is handed over to somebody else. -/
theorem deliver_awaits (now : Nat) (outcome : Outcome) (hkeyed : net.Keyed)
    (hw : net.Awaits box key slip) (hother : net.caller? r ≠ some slip) :
    (net.deliver now r outcome).Awaits box key slip := by
  cases hcaller : net.caller? r with
  | none =>
    rw [deliver_of_none now outcome hcaller]
    exact hw
  | some other =>
    obtain ⟨box', hbox, hslip⟩ := Option.bind_eq_some_iff.mp hcaller
    obtain ⟨b', found', hlookup⟩ := Option.bind_eq_some_iff.mp hslip
    obtain ⟨b, found, hmem⟩ := hw
    unfold deliver
    simp only [hbox, hslip]
    refine ⟨_, getElem?_modify_eq_some_iff.mpr ⟨b, found, rfl⟩, ?_⟩
    split
    · next heq =>
      subst heq
      obtain rfl := Option.some.inj (found.symm.trans found')
      refine List.mem_filter.mpr ⟨hmem, decide_eq_true ?_⟩
      -- no two callers wait under one key
      rintro rfl
      exact hother (hcaller.trans (congrArg some
        ((hkeyed _ _ found).eq (Mailbox.mem_of_slip? hlookup) hmem)))
    · exact hmem

/-- Somebody who replies removes nobody from a table but the caller that it reaches. -/
theorem beginReply_awaits (now : Nat) (r : Request) (outcome : Outcome) (hkeyed : net.Keyed)
    (hw : net.Awaits box key slip) : (net.beginReply now r outcome).1.Awaits box key slip ∨
      (net.caller? r = some slip ∧ (net.beginReply now r outcome).2 = .ended (.ok ())) := by
  have hdelay (outcome : Outcome) : (beginReply.delay now r outcome net).1.Awaits box key slip ∨
      (net.caller? r = some slip ∧ (beginReply.delay now r outcome net).2 = .ended (.ok ())) := by
    unfold beginReply.delay
    dsimp only
    split
    · by_cases hcaller : net.caller? r = some slip
      · exact .inr ⟨hcaller, rfl⟩
      · -- drawing a number changes nothing that a delivery looks at
        have hroll : net.roll.2.Keyed := hkeyed
        exact .inl (deliver_awaits now outcome hroll hw hcaller)
    · exact .inl hw
  unfold beginReply
  split
  · split
    · exact hdelay _
    · exact .inl hw
  · exact hdelay _

/-- A reply that goes on strikes nobody but the caller that it reaches. -/
theorem turnReply_awaits (now : Nat) (stage : Replying) (hkeyed : net.Keyed)
    (hw : net.Awaits box key slip) : (net.turnReply now stage).1.Awaits box key slip ∨
      (net.caller? stage.request = some slip ∧ (net.turnReply now stage).2 = .ended (.ok ())) := by
  unfold turnReply
  split
  · by_cases hcaller : net.caller? stage.request = some slip
    · exact .inr ⟨hcaller, rfl⟩
    · exact .inl (deliver_awaits now stage.outcome hkeyed hw hcaller)
  · exact .inl hw

end Replica.Network
