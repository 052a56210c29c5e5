import Replica.Proofs.Network.Aging

/-!
# Mailboxes that are closed

A node that is shut down, registered again or cleared away loses its mailbox, which is shut from then
on, and whoever was in its table finds its slip void (`Closes`).
-/

namespace Replica.Network

variable {net net' net'' : Network} {box : MailboxId} {node : PeerId} {b : Mailbox}
variable {slip : SlipId} {key : RequestKey}

/-- The mailbox is closed on the way: it is shut then, and whoever was in its table finds its slip
void. -/
structure Closes (box : MailboxId) (node : PeerId) (net net' : Network) : Prop where
  shut : net'.Shut box node
  void : ∀ key slip, net.Awaits box key slip → net.slips[slip]? = some .blank →
    net'.slips[slip]? = some .void

theorem Closes.ages (h : Closes box node net net') (hages : Ages none net' net'') :
    Closes box node net net'' where
  shut := hages.shut _ _ h.shut
  void key slip hw hblank := hages.settled _ _ (h.void key slip hw hblank) nofun

theorem closeMailbox_closes (now : Nat) (found : net.mailboxes[box]? = some b) :
    Closes box b.id net (net.closeMailbox now box) where
  shut := by
    rw [Shut, mailboxes_closeMailbox now found]
    exact ⟨b.close, getElem?_modify_eq_some_iff.mpr ⟨b, found, if_pos rfl⟩, rfl, b.isShut_close⟩
  void key slip hw hblank := by
    obtain ⟨c, hc, hmem⟩ := hw
    obtain rfl := Option.some.inj (hc.symm.trans found)
    have hslip : slip ∈ c.slips := List.mem_map.mpr ⟨_, hmem, rfl⟩
    rw [slips_closeMailbox now found, if_pos hslip, hblank]
    rfl

theorem register_closes (now : Nat) (hnet : net.SlipsUnique) (hget : net.registry.get? node = some box) :
    Closes box node net (net.register now node) := by
  obtain ⟨b, found, rfl⟩ := hnet.serves hget
  let enrolled : Network := { net with
    registry := net.registry.set b.id net.mailboxes.length
    mailboxes := net.mailboxes ++ [{ id := b.id }] }
  have hclose : Closes box b.id enrolled (enrolled.closeMailbox now box) :=
    closeMailbox_closes now (getElem?_concat_of_some _ found)
  unfold register
  rw [hget]
  refine ⟨hclose.shut, fun key slip hw hblank => hclose.void key slip ?_ hblank⟩
  obtain ⟨c, hc, hmem⟩ := hw
  exact ⟨c, getElem?_concat_of_some _ hc, hmem⟩

theorem shutdown_closes (now : Nat) (hnet : net.SlipsUnique) (hget : net.registry.get? node = some box) :
    Closes box node net (net.shutdown now node) := by
  obtain ⟨b, found, rfl⟩ := hnet.serves hget
  have hclose : Closes box b.id { net with registry := net.registry.remove b.id } _ :=
    closeMailbox_closes now found
  unfold shutdown
  rw [hget]
  exact ⟨hclose.shut, hclose.void⟩

theorem registry_closeMailbox (now : Nat) (box : MailboxId) (net : Network) :
    (net.closeMailbox now box).registry = net.registry := by
  unfold closeMailbox
  split <;> rfl

/-- The other nodes stay registered. -/
theorem get?_shutdown_of_ne {node' : PeerId} (now : Nat) (h : node' ≠ node) :
    (net.shutdown now node).registry.get? node' = net.registry.get? node' := by
  unfold shutdown
  split
  · rw [registry_closeMailbox]
    exact Registry.get?_remove_of_ne h
  · rfl

/-- Nothing is written on a slip when a node is shut down. -/
theorem slips_shutdown (now : Nat) (node : PeerId) (h : net.slips[slip]? = some .blank) :
    (net.shutdown now node).slips[slip]? = some .blank ∨
      (net.shutdown now node).slips[slip]? = some .void := by
  unfold shutdown
  split
  · next box _ =>
    cases found : net.mailboxes[box]? with
    | none =>
      left
      rw [closeMailbox, found]
      exact h
    | some b =>
      have found' : { net with registry := net.registry.remove node }.mailboxes[box]? = some b :=
        found
      rw [slips_closeMailbox now found']
      split
      · right
        rw [h]
        rfl
      · exact .inl h
  · exact .inl h

theorem clear_closes (now : Nat) (hnet : net.SlipsUnique) (hget : net.registry.get? node = some box) :
    Closes box node net (net.clear now) := by
  -- every node comes to its turn, and those before it leave it registered
  suffices hall : ∀ nodes : List PeerId, node ∈ nodes → ∀ net : Network, net.SlipsUnique →
      net.registry.get? node = some box →
      Closes box node net (nodes.foldl (fun net id => net.shutdown now id) net) from
    hall net.nodes (List.mem_map.mpr ⟨_, Registry.mem_of_get? hget, rfl⟩) net hnet hget
  intro nodes
  induction nodes with
  | nil => nofun
  | cons first nodes ih =>
    intro hmem net hnet hget
    rw [List.foldl_cons]
    by_cases hfirst : node = first
    · subst hfirst
      exact (shutdown_closes now hnet hget).ages (foldl_shutdown_ages now nodes _)
    · have hages : Ages none net (net.shutdown now first) := shutdown_ages now first net
      have hrest := ih (List.mem_of_ne_of_mem hfirst hmem) (net.shutdown now first)
        ((shutdown_keepsReplies now first net).slipsUnique hnet)
        ((get?_shutdown_of_ne now hfirst).trans hget)
      refine ⟨hrest.shut, fun key slip hw hblank => ?_⟩
      rcases slips_shutdown now first hblank with hblank' | hvoid
      · obtain ⟨s, hs, -, hw'⟩ := hages.expects box key slip nofun
          ⟨.blank, hblank, nofun, fun _ => hw⟩
        exact hrest.void key slip (hw' (Option.some.inj (hs.symm.trans hblank'))) hblank'
      · have hlater : Ages none (net.shutdown now first) _ := foldl_shutdown_ages now nodes _
        exact hlater.settled _ _ hvoid nofun

end Replica.Network
