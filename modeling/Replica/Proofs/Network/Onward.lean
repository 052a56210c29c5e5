import Replica.Proofs.Network.Balance
import Replica.Proofs.Network.Entries

/-!
# How a network goes on around somebody who waits

A caller that waits for a reply depends on its entry in a table and on its slip. Of all that others do
on the network, only two things are of concern to it: a reply fills its slip, or its mailbox is closed,
and its slip becomes void (`Pending.onward`). That is so because whoever closes a mailbox leaves nothing
in it, and because a slip in a table becomes void with its mailbox and in no other way (`Onward`).
-/

namespace Replica.Network

variable {net net' net'' : Network} {own : Option SlipId} {box : MailboxId} {b b' : Mailbox}
variable {node : PeerId} {key : RequestKey} {slip : SlipId} {now : Nat} {t : TaskId}
variable {puts : MailboxId → Request → Prop}

/-! ## The relation -/

/-- What callers can rely on while the network changes, by whoever owns the one slip. -/
structure Onward (own : Option SlipId) (net net' : Network) : Prop where
  ages : Ages own net net'
  settings : net'.settings = net.settings
  serves : ∀ box node, net.Serves box node → net'.Serves box node
  /-- Nothing is left in a mailbox that is closed. -/
  shut : ∀ (box : MailboxId) (b' : Mailbox), net'.mailboxes[box]? = some b' → b'.closed = true →
    net.IsClosed box ∨ b'.IsShut
  /-- A slip becomes void with its mailbox. -/
  void : ∀ box key slip, own ≠ some slip → net.Awaits box key slip →
    net.slips[slip]? = some .blank → net'.slips[slip]? = some .void → ∃ node, net'.Shut box node

/-- Nothing is left in any mailbox that is closed. -/
def Sealed (net : Network) : Prop :=
  ∀ (box : MailboxId) (b : Mailbox), net.mailboxes[box]? = some b → b.closed = true → b.IsShut

/-- On a new network no mailbox is closed. -/
theorem sealed_fresh (settings : Settings) (dice : Nat → UInt64) : Sealed { settings, dice } := by
  intro box b found
  cases found

/-- A mailbox of a sealed network that is closed is shut. -/
theorem Sealed.shut (h : net.Sealed) (found : net.mailboxes[box]? = some b) (hclosed : b.closed = true) :
    net.Shut box b.id :=
  ⟨b, found, rfl, h box b found hclosed⟩

/-- What is shut is closed. -/
theorem Shut.isClosed (h : net.Shut box node) : net.IsClosed box := by
  obtain ⟨b, found, -, hshut⟩ := h
  exact ⟨b, found, hshut.closed⟩

namespace Onward

theorem refl (net : Network) : Onward own net net where
  ages := .refl net
  settings := rfl
  serves _ _ := id
  shut _ b' found hclosed := .inl ⟨b', found, hclosed⟩
  void _ _ _ _ _ hblank hvoid := nomatch hblank.symm.trans hvoid

/-- What is closed stays shut. -/
theorem isShut (h : Onward own net net') (hshut : net.Shut box node)
    (found : net'.mailboxes[box]? = some b') : b'.IsShut := by
  obtain ⟨c, hc, -, hclosed⟩ := h.ages.shut _ _ hshut
  exact Option.some.inj (hc.symm.trans found) ▸ hclosed

/-- What callers can rely on in two steps they can rely on altogether. -/
theorem trans (h : Onward own net net') (h' : Onward own net' net'') : Onward own net net'' where
  ages := h.ages.trans h'.ages
  settings := h'.settings.trans h.settings
  serves box node hs := h'.serves _ _ (h.serves _ _ hs)
  shut box b'' found hclosed := by
    rcases h'.shut box b'' found hclosed with ⟨b', found', hclosed'⟩ | hshut
    · exact (h.shut box b' found' hclosed').imp_right fun hshut =>
        h'.isShut ⟨b', found', rfl, hshut⟩ found
    · exact .inr hshut
  void box key slip hown hw hblank hvoid := by
    obtain ⟨s, hs, hne, hwaits⟩ :=
      h.ages.expects box key slip hown ⟨.blank, hblank, nofun, fun _ => hw⟩
    cases s with
    | blank => exact h'.void box key slip hown (hwaits rfl) hs hvoid
    | filled outcome => exact nomatch (h'.ages.settled _ _ hs nofun).symm.trans hvoid
    | void =>
      obtain ⟨node, hshut⟩ := h.void box key slip hown hw hblank hs
      exact ⟨node, h'.ages.shut _ _ hshut⟩
    | abandoned => exact absurd rfl hne

/-- What leaves nodes and switches alone, closes no mailbox, and makes no slip void. -/
theorem of_steady (hages : Ages own net net') (hsteady : Steady net net')
    (hvoid : ∀ slip : SlipId, net.slips[slip]? = some .blank → net'.slips[slip]? ≠ some .void) :
    Onward own net net' where
  ages := hages
  settings := hsteady.settings
  serves _ _ := hsteady.serves
  shut _ b' found hclosed := .inl (hsteady.isClosed_iff.mp ⟨b', found, hclosed⟩)
  void _ _ slip _ _ hblank hvoided := absurd hvoided (hvoid slip hblank)

/-- Mailboxes change, but are as open as before; the slips do not change. -/
theorem of_mailboxes (hages : Ages own net net') (hkeeps : KeepsReplies net net')
    (hsettings : net'.settings = net.settings) (hslips : net'.slips = net.slips)
    (hclosed : ∀ box, net'.IsClosed box → net.IsClosed box) : Onward own net net' where
  ages := hages
  settings := hsettings
  serves := hkeeps.serves
  shut box b' found hclosed' := .inl (hclosed box ⟨b', found, hclosed'⟩)
  void _ _ slip _ _ hblank hvoid := by
    rw [hslips, hblank] at hvoid
    cases hvoid

end Onward

/-- A sealed network stays sealed. -/
theorem Sealed.onward (h : net.Sealed) (hon : Onward own net net') : net'.Sealed := by
  intro box b' found' hclosed
  rcases hon.shut box b' found' hclosed with ⟨b, found, hbefore⟩ | hshut
  · exact hon.isShut (h.shut found hbefore) found'
  · exact hshut

/-! ## Nodes -/

/-- When a mailbox is closed, its callers are told by their slips. -/
theorem closeMailbox_onward (now : Nat) (box : MailboxId) (hnet : net.SlipsUnique) :
    Onward own net (net.closeMailbox now box) := by
  cases found : net.mailboxes[box]? with
  | none =>
    rw [closeMailbox, found]
    exact .refl net
  | some b =>
    have hmailboxes := mailboxes_closeMailbox now found
    refine ⟨closeMailbox_ages now box net, by rw [closeMailbox, found]; rfl,
      (closeMailbox_keepsReplies now box net).serves, fun k c' hc' hclosed => ?_,
      fun k key slip _ hw hblank hvoid => ?_⟩
    · rw [hmailboxes] at hc'
      obtain ⟨c, hc, rfl⟩ := getElem?_modify_eq_some_iff.mp hc'
      split
      · exact .inr c.isShut_close
      · next hne =>
        rw [if_neg hne] at hclosed
        exact .inl ⟨c, hc, hclosed⟩
    · rw [slips_closeMailbox now found] at hvoid
      split at hvoid
      · next hmem =>
        -- the slip is in no other table
        obtain ⟨⟨key', _⟩, hmem', rfl⟩ := List.mem_map.mp hmem
        obtain ⟨rfl, -⟩ := hnet.apart _ _ _ _ _ hw ⟨b, found, hmem'⟩
        exact ⟨b.id, (closeMailbox_closes now found).shut⟩
      · cases hblank.symm.trans hvoid

/-- When a node is registered again, the callers of its old mailbox are told by their slips. -/
theorem register_onward (now : Nat) (node : PeerId) (hnet : net.SlipsUnique) :
    Onward own net (net.register now node) := by
  let enrolled : Network := { net with
    registry := net.registry.set node net.mailboxes.length
    mailboxes := net.mailboxes ++ [{ id := node }] }
  have hkeeps : KeepsReplies net enrolled := .enroll net { id := node } rfl
  have henroll : Onward own net enrolled := by
    refine .of_mailboxes (.enroll net _ rfl) hkeeps rfl rfl fun box => ?_
    rintro ⟨b, found, hclosed⟩
    rcases getElem?_concat_eq_some_iff.mp found with found | ⟨-, rfl⟩
    · exact ⟨b, found, hclosed⟩
    · cases hclosed
  unfold register
  cases net.registry.get? node with
  | none => exact henroll
  | some box => exact henroll.trans (closeMailbox_onward now box (hkeeps.slipsUnique hnet))

/-- So they are at a shut down. -/
theorem shutdown_onward (now : Nat) (node : PeerId) (hnet : net.SlipsUnique) :
    Onward own net (net.shutdown now node) := by
  unfold shutdown
  split
  · next box _ =>
    let removed : Network := { net with registry := net.registry.remove node }
    have hkeeps : KeepsReplies net removed :=
      { KeepsReplies.refl net with
        registry := fun _ _ hmem => .inl (Registry.mem_of_mem_remove hmem) }
    have hremove : Onward own net removed :=
      .of_mailboxes (.of_eq rfl rfl) hkeeps rfl rfl fun _ => id
    exact hremove.trans (closeMailbox_onward now box (hkeeps.slipsUnique hnet))
  · exact .refl net

/-- So they are at a clear. -/
theorem clear_onward (now : Nat) (hnet : net.SlipsUnique) : Onward own net (net.clear now) := by
  have hall (nodes : List PeerId) (net : Network) (hnet : net.SlipsUnique) :
      Onward own net (nodes.foldl (fun net id => net.shutdown now id) net) := by
    induction nodes generalizing net with
    | nil => exact .refl net
    | cons node nodes ih =>
      exact (shutdown_onward now node hnet).trans
        (ih _ ((shutdown_keepsReplies now node net).slipsUnique hnet))
  exact hall net.nodes net hnet

/-! ## Switches and detours -/

/-- Callers need not care about switches. -/
theorem setSwitches_onward (box : MailboxId) (f : Switches → Switches) (net : Network) :
    Onward own net (net.setSwitches box f) := by
  refine .of_mailboxes (setSwitches_ages box f net) (setSwitches_keepsReplies box f net) rfl rfl
    fun k => ?_
  rintro ⟨b', found', hclosed⟩
  obtain ⟨b, found, rfl⟩ := getElem?_modify_eq_some_iff.mp found'
  refine ⟨b, found, ?_⟩
  split at hclosed <;> exact hclosed

/-- Nor about detours. -/
theorem divert_onward (owner : TaskId) (other : PeerId) (net : Network) :
    Onward own net (net.divert owner other) := by
  refine .of_mailboxes (divert_ages owner other net) (divert_keepsReplies owner other net) rfl rfl
    fun k => ?_
  rintro ⟨b', found', hclosed⟩
  obtain ⟨b, found, rfl⟩ := Option.map_eq_some_iff.mp (List.getElem?_map.symm.trans found')
  exact ⟨b, found, hclosed⟩

/-! ## Calls -/

/-- A slip that is not void does not become void by what a call does. -/
theorem Effect.slip_kept {s : Slip} (h : Effect puts net net') (hs : net.slips[slip]? = some s)
    (hne : s ≠ .void) : ∃ s', net'.slips[slip]? = some s' ∧ s' ≠ .void := by
  cases h with
  | put now hputs found hfree hpush => exact ⟨s, getElem?_concat_of_some _ hs, hne⟩
  | mark slip' f hf =>
    refine ⟨_, getElem?_modify_eq_some_iff.mpr ⟨s, hs, rfl⟩, ?_⟩
    split
    · exact fun hvoid => hne (hf s hvoid)
    · exact hne
  | strike box key => exact ⟨s, hs, hne⟩
  | roll => exact ⟨s, hs, hne⟩
  | remark now h => exact ⟨s, hs, hne⟩
  | leave t box => exact ⟨s, hs, hne⟩

/-- No effect of a call voids a blank slip. -/
theorem Effects.not_void (h : Effects puts net net') (hblank : net.slips[slip]? = some .blank) :
    net'.slips[slip]? ≠ some .void := by
  have hkept : ∃ s, net'.slips[slip]? = some s ∧ s ≠ .void := by
    induction h with
    | refl => exact ⟨.blank, hblank, nofun⟩
    | tail _ hlast ih =>
      obtain ⟨s, hs, hne⟩ := ih
      exact hlast.slip_kept hs hne
  obtain ⟨s, hs, hne⟩ := hkept
  exact fun hvoid => hne (Option.some.inj (hs.symm.trans hvoid))

/-- What a call does is onward, as long as it keeps tables and slips of others. -/
theorem Effects.onward (h : Effects puts net net') (hages : Ages own net net') : Onward own net net' :=
  .of_steady hages h.steady fun _ => h.not_void

/-- Callers need not care about a taker that looks. -/
theorem takeFrom_onward (now : Nat) (t : TaskId) (box : MailboxId) (net : Network) :
    Onward own net (net.takeFrom now t box).1 := by
  have hglance := takeFrom_glance now t box net
  refine .of_steady (takeFrom_ages now t box net) hglance.steady fun slip hblank hvoid => ?_
  rw [hglance.slips, hblank] at hvoid
  cases hvoid

/-- Nor about one that begins. -/
theorem beginTake_onward (now : Nat) (t : TaskId) (node : PeerId) (net : Network) :
    Onward own net (net.beginTake now t node).1 := by
  unfold beginTake
  split
  · exact .refl net
  · next box _ =>
    dsimp only
    split
    · exact takeFrom_onward now t box net
    · exact .refl net

/-- Nor about one that goes on. -/
theorem turnTake_onward (now : Nat) (t : TaskId) (stage : Taking) (net : Network) :
    Onward own net (net.turnTake now t stage).1 := by
  cases stage with
  | delayed box wake =>
    rw [turnTake]
    split
    · exact takeFrom_onward now t box net
    · exact .refl net
  | looking box =>
    rw [turnTake]
    split
    · exact takeFrom_onward now t box net
    · exact .refl net
  | holding box r wake =>
    rw [turnTake]
    split <;> exact .refl net

/-! ## Entries -/

/-- Somebody waits under the key for a reply from the node, and nothing has been done to its slip. -/
structure Pending (net : Network) (box : MailboxId) (node : PeerId) (key : RequestKey) (slip : SlipId) :
    Prop where
  serves : net.Serves box node
  awaits : net.Awaits box key slip
  blank : net.slips[slip]? = some .blank

/-- Whoever waits in a table waits at a mailbox that is open. -/
theorem Sealed.not_isClosed (h : net.Sealed) (hw : net.Awaits box key slip) : ¬ net.IsClosed box := by
  rintro ⟨b, found, hclosed⟩
  obtain ⟨c, hc, hmem⟩ := hw
  obtain rfl := Option.some.inj (found.symm.trans hc)
  rw [(h box b found hclosed).replies] at hmem
  cases hmem

/-- Whatever others do, somebody who waits goes on waiting, or finds its mailbox closed or an outcome
on its slip. -/
theorem Pending.onward (h : net.Pending box node key slip) (hon : Onward own net net')
    (hown : own ≠ some slip) : net'.Pending box node key slip ∨
      (net'.Shut box node ∧ net'.slips[slip]? = some .void) ∨ ∃ outcome, net'.Written slip outcome := by
  obtain ⟨s, hs, hne, hwaits⟩ :=
    hon.ages.expects box key slip hown ⟨.blank, h.blank, nofun, fun _ => h.awaits⟩
  cases s with
  | blank => exact .inl ⟨hon.serves _ _ h.serves, hwaits rfl, hs⟩
  | filled outcome => exact .inr (.inr ⟨outcome, hs⟩)
  | void =>
    obtain ⟨node', b, found, -, hshut⟩ := hon.void box key slip hown h.awaits h.blank hs
    obtain ⟨b', found', rfl⟩ := hon.serves _ _ h.serves
    obtain rfl := Option.some.inj (found.symm.trans found')
    exact .inr (.inl ⟨⟨b, found, rfl, hshut⟩, hs⟩)
  | abandoned => exact absurd rfl hne

/-- Somebody who waits looks at its slip, and nothing has been done to it. -/
theorem checkSlip_of_pending {r : Request} (now deadline : Nat)
    (h : net.Pending box node r.key slip) :
    net.checkSlip now box r slip deadline =
      if deadline ≤ now then
        (net.modifyMailbox box (·.strike r.key), .ended (.error (.timeout
          ("request " ++ r.key.display ++ " to " ++ node.name) net.settings.replyTimeout)))
      else (net, .waiting (.waiting box r slip deadline)) := by
  obtain ⟨b, found, rfl⟩ := h.serves
  simp only [checkSlip, h.blank, found, overdue]

end Replica.Network
