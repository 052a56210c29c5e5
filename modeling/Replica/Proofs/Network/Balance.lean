import Replica.Proofs.Network.Aging
import Replica.Proofs.Network.Custody

/-!
# The books of a network

On a network that was new once, the books balance (`Balanced`): what was put into a mailbox was taken
out of it first come first served, or was discarded when the mailbox was closed, or is still in it. Calls
keep the balance (`Turn`), and so do nodes that come and go (`Resets`); the former discard nothing, and
the latter do nothing else to requests.
-/

namespace Replica

namespace Network

variable {net net' net'' : Network} {box k : MailboxId} {b : Mailbox} {r : Request} {t : TaskId}
variable {written written' : List Occurrence} {held held' : List Request} {node : PeerId}

/-- Each request that was put into a mailbox has been taken out of it, has been discarded, or is in
it, in this order. Only what is closed has discarded anything, and nothing is left in it. -/
structure Balanced (net : Network) : Prop where
  balance : ∀ box, pushes box net.story =
    pops box net.story ++ discards box net.story ++ net.contents box
  emptied : ∀ box, net.IsClosed box → net.contents box = []
  kept : ∀ box, ¬ net.IsClosed box → discards box net.story = []

theorem balanced_fresh (settings : Settings) (dice : Nat → UInt64) : Balanced { settings, dice } :=
  ⟨fun _ => rfl, fun _ _ => rfl, fun _ _ => rfl⟩

theorem routed_fresh (settings : Settings) (dice : Nat → UInt64) : Routed { settings, dice } :=
  ⟨nofun, nofun⟩

/-! ## Calls -/

theorem Steady.isClosed_iff (h : Steady net net') : net'.IsClosed box ↔ net.IsClosed box := by
  have hiff (net : Network) :
      net.IsClosed box ↔ net.mailboxes[box]?.map (·.closed) = some true := by
    rw [Option.map_eq_some_iff]
    exact .rfl
  have hpost := congrArg (Option.map fun p => p.2.1) (h.posts box)
  rw [Option.map_map, Option.map_map] at hpost
  rw [hiff, hiff]
  exact hpost ▸ .rfl

/-- What calls do to a network, and what they write about it. -/
structure Turn (written : List Occurrence) (net net' : Network) : Prop where
  story : net'.story = net.story ++ written
  steady : Steady net net'
  /-- They drop only what the switches say. -/
  switched : ∀ box taker r, .dropped box taker r ∈ written →
    (net.switchesOf r.requestor).dropFrom = true
  routed : net.Routed → net'.Routed
  balanced : net.Balanced → net'.Balanced

theorem Turn.refl (net : Network) : Turn [] net net :=
  ⟨(List.append_nil _).symm, .refl net, fun _ _ _ hmem => (nomatch hmem), id, id⟩

theorem Turn.trans (h : Turn written net net') (h' : Turn written' net' net'') :
    Turn (written ++ written') net net'' where
  story := by rw [h'.story, h.story, List.append_assoc]
  steady := h.steady.trans h'.steady
  switched box taker r hmem := by
    rcases List.mem_append.mp hmem with hmem | hmem
    · exact h.switched box taker r hmem
    · rw [← h.steady.switchesOf]
      exact h'.switched box taker r hmem
  routed hnet := h'.routed (h.routed hnet)
  balanced hnet := h'.balanced (h.balanced hnet)

/-- Whatever passes through a task's hands, the books balance. -/
theorem Custody.balanced (h : Custody t written net net' held held') (hnet : net.Balanced) :
    net'.Balanced := by
  have hdiscards (box : MailboxId) : discards box net'.story = discards box net.story := by
    rw [h.story, discards_append, h.kept, List.append_nil]
  have hmoved (box : MailboxId) :
      net.contents box ++ pushes box written = pops box written ++ net'.contents box := by
    rw [h.moves.balance, removals_eq_pops (h.kept box)]
  have hempty (box : MailboxId) (hclosed : net.IsClosed box) :
      pops box written = [] ∧ net'.contents box = [] := by
    have hmoved := hmoved box
    rw [hnet.emptied box hclosed, (h.moves.closed box hclosed).1] at hmoved
    exact List.append_eq_nil_iff.mp hmoved.symm
  constructor
  · intro box
    rw [hdiscards, h.story, pushes_append, pops_append, hnet.balance]
    by_cases hclosed : net.IsClosed box
    · obtain ⟨hpops, hcontents⟩ := hempty box hclosed
      rw [hpops, hcontents, hnet.emptied box hclosed, (h.moves.closed box hclosed).1]
      simp only [List.append_nil]
    · -- nothing stands in the books between what is taken out now and what was taken out before
      rw [hnet.kept box hclosed, List.append_nil, List.append_nil, List.append_assoc, hmoved,
        List.append_assoc]
  · exact fun box hclosed => (hempty box (h.steady.isClosed_iff.mp hclosed)).2
  · exact fun box hopen => (hdiscards box).trans
      (hnet.kept box fun hclosed => hopen (h.steady.isClosed_iff.mpr hclosed))

theorem Custody.turn (h : Custody t written net net' held held') : Turn written net net' :=
  ⟨h.story, h.steady, h.switched, h.routed, h.balanced⟩

theorem Effects.turn {puts : MailboxId → Request → Prop} (h : Effects puts net net')
    (hputs : ∀ box r, puts box r → net.Serves box r.replier) :
    ∃ written, Turn written net net' ∧ ∀ what ∈ written, what.IsOutward := by
  obtain ⟨written, hcustody⟩ := h.passes hputs 0 []
  obtain ⟨written', hstory, houtward⟩ := h.outward
  obtain rfl := List.append_cancel_left (hcustody.story.symm.trans hstory)
  exact ⟨written, hcustody.turn, houtward⟩

/-! ## Nodes -/

/-- What happens to nodes and their switches, and what is written about it. -/
structure Resets (written : List Occurrence) (net net' : Network) : Prop where
  story : net'.story = net.story ++ written
  /-- Nothing happens to requests but that some are discarded. -/
  discards : ∀ what ∈ written, ∃ box requests, what = .discarded box requests
  serves : ∀ box node, net.Serves box node → net'.Serves box node
  routed : net.Routed → net'.Routed
  balanced : net.Balanced → net'.Balanced

namespace Resets

theorem refl (net : Network) : Resets [] net net :=
  ⟨(List.append_nil _).symm, List.forall_mem_nil _, fun _ _ => id, id, id⟩

theorem trans (h : Resets written net net') (h' : Resets written' net' net'') :
    Resets (written ++ written') net net'' where
  story := by rw [h'.story, h.story, List.append_assoc]
  discards := List.forall_mem_append.mpr ⟨h.discards, h'.discards⟩
  serves box node hs := h'.serves box node (h.serves box node hs)
  routed hnet := h'.routed (h.routed hnet)
  balanced hnet := h'.balanced (h.balanced hnet)

/-- Nobody but the task that has them takes or gives away requests. -/
theorem grasps (h : Resets written net net') (t : TaskId) : grasps t written = [] := by
  refine List.map_eq_nil_iff.mpr (List.filterMap_eq_nil_iff.mpr fun what hmem => ?_)
  obtain ⟨box, requests, rfl⟩ := h.discards what hmem
  rfl

theorem hands (h : Resets written net net') (t : TaskId) : hands t written = [] := by
  refine List.map_eq_nil_iff.mpr (List.filterMap_eq_nil_iff.mpr fun what hmem => ?_)
  obtain ⟨box, requests, rfl⟩ := h.discards what hmem
  rfl

end Resets

/-- Every request that is queued was queued before. -/
theorem KeepsReplies.routed (h : KeepsReplies net net')
    (hqueued : ∀ (box : MailboxId) (b' : Mailbox), net'.mailboxes[box]? = some b' →
      ∀ r ∈ b'.requests, ∃ b : Mailbox, net.mailboxes[box]? = some b ∧ r ∈ b.requests)
    (hnet : net.Routed) : net'.Routed where
  registered node box hmem := by
    rcases h.registry node box hmem with hmem | hs
    · exact h.serves _ _ (hnet.registered node box hmem)
    · exact hs
  queued box b' found' r hr := by
    obtain ⟨b, found, hmem⟩ := hqueued box b' found' r hr
    exact (hnet.queued box b found r hmem).trans
      ((h.serves box b.id ⟨b, found, rfl⟩).unique ⟨b', found', rfl⟩)

/-- Nothing is written, and mailboxes have the same requests in them and are as open as before. -/
theorem Balanced.of_same (hnet : net.Balanced) (hstory : net'.story = net.story)
    (hcontents : ∀ box, net'.contents box = net.contents box)
    (hclosed : ∀ box, net'.IsClosed box ↔ net.IsClosed box) : net'.Balanced where
  balance box := by rw [hstory, hcontents, hnet.balance]
  emptied box h := (hcontents box).trans (hnet.emptied box ((hclosed box).mp h))
  kept box h := by
    rw [hstory]
    exact hnet.kept box fun hbox => h ((hclosed box).mpr hbox)

theorem closeMailbox_resets (now : Nat) (box : MailboxId) (net : Network) :
    ∃ written, Resets written net (net.closeMailbox now box) := by
  have hkeeps := closeMailbox_keepsReplies now box net
  have hrecorded := closeMailbox_recorded now box net
  cases found : net.mailboxes[box]? with
  | none =>
    rw [closeMailbox, found]
    exact ⟨[], .refl net⟩
  | some b =>
    have hmailboxes := mailboxes_closeMailbox now found
    have hstory : (net.closeMailbox now box).story = net.story ++ [.discarded box b.requests] := by
      rw [closeMailbox, found]
      exact List.map_append
    have hmoves := hrecorded.moves hstory
    have hother (k : MailboxId) (hk : k ≠ box) :
        (net.closeMailbox now box).mailboxes[k]? = net.mailboxes[k]? := by
      rw [hmailboxes, List.getElem?_modify_ne _ _ hk.symm]
    have hhere : (net.closeMailbox now box).mailboxes[box]? = some b.close := by
      rw [hmailboxes, List.getElem?_modify_eq, found]
      rfl
    refine ⟨_, hstory, List.forall_mem_singleton.mpr ⟨box, b.requests, rfl⟩, hkeeps.serves,
      hkeeps.routed fun k c hc r hr => ?_, fun hnet => ⟨fun k => ?_, fun k hclosed => ?_,
        fun k hopen => ?_⟩⟩
    · rw [hmailboxes] at hc
      obtain ⟨c, found, rfl⟩ := getElem?_modify_eq_some_iff.mp hc
      split at hr
      · cases hr
      · exact ⟨c, found, hr⟩
    · -- what was in the mailbox is discarded now
      have hmoved := hmoves.balance k
      have hpushes : pushes k [.discarded box b.requests] = [] := rfl
      have hpops : pops k [.discarded box b.requests] = [] := rfl
      have hdiscards : discards k [.discarded box b.requests] =
        removals k [.discarded box b.requests] := rfl
      rw [hpushes, List.append_nil] at hmoved
      rw [hstory, pushes_append, pops_append, discards_append, hpushes, hpops, hdiscards,
        hnet.balance, hmoved]
      simp only [List.append_nil, List.append_assoc]
    · by_cases hk : k = box
      · subst hk
        exact contents_of_found hhere
      · rw [contents, hother k hk]
        exact hnet.emptied k (by rwa [IsClosed, hother k hk] at hclosed)
    · have hk : k ≠ box := by
        rintro rfl
        exact hopen ⟨b.close, hhere, rfl⟩
      rw [hstory, discards_append, hnet.kept k fun hclosed => hopen (hmoves.closed k hclosed).2]
      simp [discards, Occurrence.discards, hk.symm]

theorem register_resets (now : Nat) (node : PeerId) (net : Network) :
    ∃ written, Resets written net (net.register now node) := by
  have henroll : Resets [] net { net with
      registry := net.registry.set node net.mailboxes.length
      mailboxes := net.mailboxes ++ [{ id := node }] } := by
    have hkeeps := KeepsReplies.enroll net { id := node } rfl
    refine ⟨(List.append_nil _).symm, List.forall_mem_nil _, hkeeps.serves,
      hkeeps.routed fun box b' found' r hr => ?_, fun hnet => hnet.of_same rfl (fun box => ?_)
        fun box => ?_⟩
    · rcases getElem?_concat_eq_some_iff.mp found' with found | ⟨-, rfl⟩
      · exact ⟨b', found, hr⟩
      · cases hr
    · -- the new mailbox has no requests in it
      unfold contents
      rw [List.getElem?_append]
      split
      · rfl
      · next hge =>
        rw [List.getElem?_eq_none (Nat.not_lt.mp hge), List.getElem?_singleton]
        split <;> rfl
    · constructor
      · rintro ⟨b, found, hclosed⟩
        rcases getElem?_concat_eq_some_iff.mp found with found | ⟨-, rfl⟩
        · exact ⟨b, found, hclosed⟩
        · cases hclosed
      · rintro ⟨b, found, hclosed⟩
        exact ⟨b, getElem?_concat_of_some _ found, hclosed⟩
  unfold register
  cases net.registry.get? node with
  | none => exact ⟨[], henroll⟩
  | some box =>
    obtain ⟨written, hclose⟩ := closeMailbox_resets now box { net with
      registry := net.registry.set node net.mailboxes.length
      mailboxes := net.mailboxes ++ [{ id := node }] }
    exact ⟨[] ++ written, henroll.trans hclose⟩

theorem shutdown_resets (now : Nat) (node : PeerId) (net : Network) :
    ∃ written, Resets written net (net.shutdown now node) := by
  unfold shutdown
  split
  · next box _ =>
    have hremove : Resets [] net { net with registry := net.registry.remove node } := by
      refine ⟨(List.append_nil _).symm, List.forall_mem_nil _, fun _ _ => id, fun hnet => ⟨?_, ?_⟩,
        fun hnet => hnet.of_same rfl (fun _ => rfl) fun _ => .rfl⟩
      · exact fun id k hmem => hnet.registered id k (Registry.mem_of_mem_remove hmem)
      · exact hnet.queued
    obtain ⟨written, hclose⟩ := closeMailbox_resets now box { net with
      registry := net.registry.remove node }
    exact ⟨[] ++ written, hremove.trans hclose⟩
  · exact ⟨[], .refl net⟩

theorem clear_resets (now : Nat) (net : Network) :
    ∃ written, Resets written net (net.clear now) := by
  have hall (nodes : List PeerId) :
      ∃ written, Resets written net (nodes.foldl (fun net id => net.shutdown now id) net) := by
    induction nodes generalizing net with
    | nil => exact ⟨[], .refl net⟩
    | cons node nodes ih =>
      obtain ⟨written, hfirst⟩ := shutdown_resets now node net
      obtain ⟨written', hrest⟩ := ih (net.shutdown now node)
      exact ⟨written ++ written', hfirst.trans hrest⟩
  exact hall net.nodes

theorem setSwitches_resets (box : MailboxId) (f : Switches → Switches) (net : Network) :
    Resets [] net (net.setSwitches box f) := by
  have hkeeps : KeepsReplies net (net.setSwitches box f) := setSwitches_keepsReplies box f net
  have hmailboxes (k : MailboxId) : (net.setSwitches box f).mailboxes[k]? =
      net.mailboxes[k]?.map fun b => if box = k then { b with switches := f b.switches } else b :=
    List.getElem?_modify ..
  refine ⟨(List.append_nil _).symm, List.forall_mem_nil _, hkeeps.serves,
    hkeeps.routed fun k b' found' r hr => ?_, fun hnet => hnet.of_same rfl (fun k => ?_)
      fun k => ?_⟩
  · rw [hmailboxes] at found'
    obtain ⟨b, found, rfl⟩ := Option.map_eq_some_iff.mp found'
    refine ⟨b, found, ?_⟩
    split at hr <;> exact hr
  · rw [contents, contents, hmailboxes]
    cases net.mailboxes[k]? with
    | none => rfl
    | some b => by_cases hk : box = k <;> simp [hk]
  · rw [IsClosed, IsClosed, hmailboxes]
    cases net.mailboxes[k]? with
    | none => simp
    | some b => by_cases hk : box = k <;> simp [hk]

end Network

end Replica
