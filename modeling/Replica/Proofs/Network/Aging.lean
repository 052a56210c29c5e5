import Mathlib.Data.List.Nodup
import Replica.Proofs.Network.Turns

/-!
# What time keeps on a network

A mailbox that is closed stays closed and empty (`Shut`), and what is on a slip stays on it. A caller
that looks at a blank slip is found in the table, under its key and no other caller's (`Expects`), so
that whoever closes the mailbox finds it too.

Whatever happens on a network keeps this (`Ages`), for all slips but the one that is in the hands of
the caller whose turn it is.
-/

namespace Replica

variable {b b' : Mailbox} {slip : SlipId} {key : RequestKey}

/-! ## Mailboxes and slips -/

namespace Mailbox

/-- The mailbox is closed, and nothing is left in it. -/
structure IsShut (b : Mailbox) : Prop where
  closed : b.closed = true
  requests : b.requests = []
  takers : b.takers = []
  replies : b.replies = []

/-- No two callers wait under one key. -/
def Keyed (b : Mailbox) : Prop := (b.replies.map (·.1)).Nodup

/-- The mailbox has changed in what takers and senders do, and not in its table. -/
structure Ages (b b' : Mailbox) : Prop where
  id : b'.id = b.id
  replies : b'.replies = b.replies
  shut : b.IsShut → b'.IsShut

theorem Ages.refl (b : Mailbox) : b.Ages b := ⟨rfl, rfl, fun h => h⟩

/-- A mailbox that has just been closed is shut: nobody waits there, and nothing is queued. -/
theorem isShut_close (b : Mailbox) : b.close.IsShut := ⟨rfl, rfl, rfl, rfl⟩

/-- Waking a taker leaves the table as it was. -/
theorem wakeOne_ages (b : Mailbox) : b.Ages b.wakeOne := by
  obtain ⟨hreplies, hid⟩ := Network.wakeOne_replies b
  refine ⟨hid, hreplies, fun h => ?_⟩
  rw [wakeOne, h.takers]
  exact ⟨h.closed, h.requests, rfl, h.replies⟩

/-- A taker that leaves the line leaves the table as it was. -/
theorem leave_ages (t : TaskId) (b : Mailbox) : b.Ages (b.leave t) := by
  unfold leave
  split
  · next hmem =>
    refine ⟨rfl, rfl, fun h => ?_⟩
    rw [h.takers] at hmem
    cases hmem
  · exact wakeOne_ages b

/-- In a table without two callers under one key, the key tells the slip. -/
theorem Keyed.eq {slip' : SlipId} (h : b.Keyed) (hmem : (key, slip) ∈ b.replies)
    (hmem' : (key, slip') ∈ b.replies) : slip = slip' := by
  have heq := List.inj_on_of_nodup_map h hmem hmem' rfl
  exact congrArg Prod.snd heq

/-- The slip that is found under a key is in the table under this key. -/
theorem mem_of_slip? (h : b.slip? key = some slip) : (key, slip) ∈ b.replies := by
  obtain ⟨l₁, l₂, heq, -⟩ := List.lookup_eq_some_iff.mp h
  rw [heq]
  simp

/-- Striking an entry keeps keys apart. -/
theorem Keyed.strike (h : b.Keyed) (key : RequestKey) : (b.strike key).Keyed := by
  have hsub : List.Sublist (b.strike key).replies b.replies := List.filter_sublist
  exact h.sublist (hsub.map _)

/-- Under a new key a caller can be entered. -/
theorem Keyed.enter (h : b.Keyed) (hnone : b.slip? key = none) : (b.enter key slip).Keyed := by
  have hnew : ∀ p ∈ b.replies, p.1 ≠ key := fun p hp heq => by
    have := List.lookup_eq_none_iff.mp hnone p hp
    simp [heq] at this
  unfold Keyed Mailbox.enter
  rw [List.map_append, List.nodup_append]
  refine ⟨h, by simp, ?_⟩
  intro k hk k' hk' heq
  obtain ⟨p, hp, rfl⟩ := List.mem_map.mp hk
  simp only [List.map_cons, List.map_nil, List.mem_singleton] at hk'
  exact hnew p hp (heq.trans hk')

end Mailbox

namespace Slip

/-- A slip is voided once: voiding it again changes nothing. -/
theorem voided_voided (s : Slip) : s.voided.voided = s.voided := by cases s <;> rfl

/-- Only a blank slip becomes void. -/
theorem voided_of_ne_blank {s : Slip} (h : s ≠ .blank) : s.voided = s := by
  cases s with
  | blank => exact absurd rfl h
  | _ => rfl

/-- A slip that was voided is not blank any more, so its caller need not be in a table. -/
theorem voided_ne_blank (s : Slip) : s.voided ≠ .blank := by cases s <;> nofun

/-- Voiding abandons nobody. -/
theorem voided_ne_abandoned {s : Slip} (h : s ≠ .abandoned) : s.voided ≠ .abandoned := by
  cases s with
  | abandoned => exact absurd rfl h
  | _ => nofun

end Slip

/-- The slip with which the sender waits for a reply. -/
def Sending.slip? : Sending → Option SlipId
  | .blocked .. => none
  | .waiting _ _ slip _ => some slip

namespace Network

variable {net net' net'' : Network} {box : MailboxId} {own : Option SlipId} {node : PeerId}
variable {now : Nat} {r : Request}

/-! ## The relation -/

/-- The mailbox was made for the node, is closed, and nothing is left in it. -/
def Shut (net : Network) (box : MailboxId) (node : PeerId) : Prop :=
  ∃ b, net.mailboxes[box]? = some b ∧ b.id = node ∧ b.IsShut

/-- No two callers wait under one key in one table. -/
def Keyed (net : Network) : Prop :=
  ∀ (box : MailboxId) (b : Mailbox), net.mailboxes[box]? = some b → b.Keyed

/-- A caller may look at the slip: as long as it is blank, the caller is in the table. -/
def Expects (net : Network) (box : MailboxId) (key : RequestKey) (slip : SlipId) : Prop :=
  ∃ s, net.slips[slip]? = some s ∧ s ≠ .abandoned ∧ (s = Slip.blank → net.Awaits box key slip)

/-- What is kept while the network changes, by whoever owns the one slip. -/
structure Ages (own : Option SlipId) (net net' : Network) : Prop where
  settled : ∀ (slip : SlipId) (s : Slip), net.slips[slip]? = some s → s ≠ .blank →
    net'.slips[slip]? = some s
  expects : ∀ box key slip, own ≠ some slip → net.Expects box key slip → net'.Expects box key slip
  keyed : net.Keyed → net'.Keyed
  shut : ∀ box node, net.Shut box node → net'.Shut box node

/-- Whoever may look at a slip has one that was handed out. -/
theorem Expects.lt (h : net.Expects box key slip) : slip < net.slips.length := by
  obtain ⟨s, hs, -⟩ := h
  exact lt_length_of_getElem? hs

/-- Nobody waits on a new network. -/
theorem keyed_fresh (settings : Settings) (dice : Nat → UInt64) : Keyed { settings, dice } := by
  intro box b found
  cases found

namespace Ages

theorem refl (net : Network) : Ages own net net :=
  ⟨fun _ _ hs _ => hs, fun _ _ _ _ => id, id, fun _ _ => id⟩

/-- What is kept in two steps is kept altogether, by whoever owns the same slip in both. -/
theorem trans (h : Ages own net net') (h' : Ages own net' net'') : Ages own net net'' where
  settled slip s hs hne := h'.settled slip s (h.settled slip s hs hne) hne
  expects _ _ _ hown he := h'.expects _ _ _ hown (h.expects _ _ _ hown he)
  keyed hk := h'.keyed (h.keyed hk)
  shut _ _ hs := h'.shut _ _ (h.shut _ _ hs)

/-- A slip that is made on the way is nobody's concern before. -/
theorem trans_of_new (h : Ages own net net') {new : SlipId} (h' : Ages (some new) net' net'')
    (hnew : net.slips.length ≤ new) : Ages own net net'' where
  settled slip s hs hne := h'.settled slip s (h.settled slip s hs hne) hne
  expects box key slip hown he := by
    refine h'.expects _ _ _ (fun heq => ?_) (h.expects _ _ _ hown he)
    cases heq
    exact absurd he.lt (Nat.not_lt.mpr hnew)
  keyed hk := h'.keyed (h.keyed hk)
  shut _ _ hs := h'.shut _ _ (h.shut _ _ hs)

/-- Mailboxes change, but no table does, and no slip. -/
theorem of_mailboxes (hlength : net'.mailboxes.length = net.mailboxes.length)
    (hages : ∀ (box : MailboxId) (b b' : Mailbox), net.mailboxes[box]? = some b →
      net'.mailboxes[box]? = some b' → b.Ages b')
    (hslips : net'.slips = net.slips) : Ages own net net' := by
  have hafter : ∀ (box : MailboxId) (b : Mailbox), net.mailboxes[box]? = some b →
      ∃ b', net'.mailboxes[box]? = some b' ∧ b.Ages b' := by
    intro box b found
    have hlt := hlength ▸ lt_length_of_getElem? found
    exact ⟨_, List.getElem?_eq_getElem hlt, hages _ _ _ found (List.getElem?_eq_getElem hlt)⟩
  constructor
  · intro slip s hs _
    rw [hslips]
    exact hs
  · rintro box key slip - ⟨s, hs, hne, hwaits⟩
    refine ⟨s, hslips ▸ hs, hne, fun hblank => ?_⟩
    obtain ⟨b, found, hmem⟩ := hwaits hblank
    obtain ⟨b', found', hb⟩ := hafter box b found
    exact ⟨b', found', hb.replies ▸ hmem⟩
  · intro hkeyed box b' found'
    have hlt := hlength ▸ lt_length_of_getElem? found'
    have found := List.getElem?_eq_getElem hlt
    unfold Mailbox.Keyed
    rw [(hages _ _ _ found found').replies]
    exact hkeyed _ _ found
  · rintro box node ⟨b, found, hid, hshut⟩
    obtain ⟨b', found', hb⟩ := hafter box b found
    exact ⟨b', found', hb.id.trans hid, hb.shut hshut⟩

/-- What is neither mailbox nor slip does not matter. -/
theorem of_eq (hmailboxes : net'.mailboxes = net.mailboxes) (hslips : net'.slips = net.slips) :
    Ages own net net' := by
  refine of_mailboxes (congrArg List.length hmailboxes) (fun box b b' found found' => ?_) hslips
  rw [hmailboxes, found] at found'
  cases found'
  exact .refl b

/-- A note in the journal touches neither tables nor slips. -/
theorem note (net : Network) (now : Nat) (what : Occurrence) : Ages own net (net.note now what) :=
  of_eq rfl rfl

/-- The network ages as the one mailbox does that is changed. -/
theorem modifyMailbox (net : Network) (box : MailboxId) {f : Mailbox → Mailbox}
    (hf : ∀ b : Mailbox, b.Ages (f b)) : Ages own net (net.modifyMailbox box f) := by
  refine of_mailboxes (List.length_modify ..) (fun k b b' found found' => ?_) rfl
  obtain ⟨c, hc, rfl⟩ := getElem?_modify_eq_some_iff.mp found'
  obtain rfl := Option.some.inj (found.symm.trans hc)
  split
  · exact hf b
  · exact .refl b

/-- A mailbox in hand is changed and put back. -/
theorem putBack (b' : Mailbox) (found : net.mailboxes[box]? = some b) (hb : b.Ages b')
    (hmailboxes : net'.mailboxes = net.mailboxes.set box b') (hslips : net'.slips = net.slips) :
    Ages own net net' := by
  rw [set_eq_modify (fun _ => b') found] at hmailboxes
  refine of_mailboxes (hmailboxes ▸ List.length_modify ..) (fun k c c' hc hc' => ?_) hslips
  rw [hmailboxes] at hc'
  obtain ⟨d, hd, rfl⟩ := getElem?_modify_eq_some_iff.mp hc'
  obtain rfl := Option.some.inj (hc.symm.trans hd)
  split
  · next heq =>
    subst heq
    rw [found] at hc
    cases hc
    exact hb
  · exact .refl c

/-- A slip is changed, by its owner or without giving it up. -/
theorem modifySlip (net : Network) (slip : SlipId) {f : Slip → Slip}
    (hf : ∀ s, s ≠ .blank → f s = s) (hown : own = some slip ∨ f .blank ≠ .abandoned) :
    Ages own net (net.modifySlip slip f) := by
  constructor
  · intro slip' s hs hne
    refine getElem?_modify_eq_some_iff.mpr ⟨s, hs, ?_⟩
    split
    · exact hf s hne
    · rfl
  · rintro box key slip' hother ⟨s, hs, hne, hwaits⟩
    refine ⟨_, getElem?_modify_eq_some_iff.mpr ⟨s, hs, rfl⟩, ?_⟩
    split
    · next heq =>
      subst heq
      by_cases hblank : s = .blank
      · exact ⟨hblank ▸ hown.resolve_left hother, fun _ => hwaits hblank⟩
      · rw [hf s hblank]
        exact ⟨hne, hwaits⟩
    · exact ⟨hne, hwaits⟩
  · exact id
  · exact fun _ _ => id

/-- A caller leaves the table, and is done with its slip. Its key is its own, so nobody else
leaves. -/
theorem strike (net : Network) (hkeyed : net.Keyed) (hwaits : net.Awaits box key slip)
    (hown : own = some slip ∨ net.slips[slip]? ≠ some .blank) :
    Ages own net (net.modifyMailbox box (·.strike key)) := by
  obtain ⟨b, found, hmem⟩ := hwaits
  constructor
  · exact fun _ _ hs _ => hs
  · rintro box' key' slip' hother ⟨s, hs, hne, hwaits'⟩
    refine ⟨s, hs, hne, fun hblank => ?_⟩
    obtain ⟨c, hc, hmem'⟩ := hwaits' hblank
    refine ⟨_, getElem?_modify_eq_some_iff.mpr ⟨c, hc, rfl⟩, ?_⟩
    split
    · next heq =>
      subst heq
      obtain rfl := Option.some.inj (hc.symm.trans found)
      refine List.mem_filter.mpr ⟨hmem', ?_⟩
      -- the entry with the key that is struck has another slip
      simp only [ne_eq, decide_not, Bool.not_eq_true', decide_eq_false_iff_not]
      rintro rfl
      obtain rfl := (hkeyed _ _ found).eq hmem hmem'
      rcases hown with hown | hsettled
      · exact hother hown
      · exact hsettled (hblank ▸ hs)
    · exact hmem'
  · intro _ k c' hc'
    obtain ⟨c, hc, rfl⟩ := getElem?_modify_eq_some_iff.mp hc'
    split
    · exact (hkeyed _ _ hc).strike key
    · exact hkeyed _ _ hc
  · rintro k node ⟨c, hc, hid, hshut⟩
    refine ⟨_, getElem?_modify_eq_some_iff.mpr ⟨c, hc, rfl⟩, ?_⟩
    split
    · refine ⟨hid, hshut.closed, hshut.requests, hshut.takers, ?_⟩
      show c.replies.filter _ = []
      rw [hshut.replies, List.filter_nil]
    · exact ⟨hid, hshut⟩

/-- A new mailbox, with an empty table. -/
theorem enroll (net : Network) (registry : Registry MailboxId) {b : Mailbox} (hb : b.replies = []) :
    Ages own net { net with registry, mailboxes := net.mailboxes ++ [b] } := by
  constructor
  · exact fun _ _ hs _ => hs
  · rintro box key slip - ⟨s, hs, hne, hwaits⟩
    refine ⟨s, hs, hne, fun hblank => ?_⟩
    obtain ⟨c, hc, hmem⟩ := hwaits hblank
    exact ⟨c, getElem?_concat_of_some b hc, hmem⟩
  · intro hkeyed box c hc
    rcases getElem?_concat_eq_some_iff.mp hc with hc | ⟨-, rfl⟩
    · exact hkeyed _ _ hc
    · rw [Mailbox.Keyed, hb]
      exact List.nodup_nil
  · rintro box node ⟨c, hc, hshut⟩
    exact ⟨c, getElem?_concat_of_some b hc, hshut⟩

end Ages

/-! ## Nodes -/

/-- The slips after a mailbox is closed. -/
theorem slips_closeMailbox (now : Nat) (found : net.mailboxes[box]? = some b) (slip : SlipId) :
    (net.closeMailbox now box).slips[slip]? =
      if slip ∈ b.slips then net.slips[slip]?.map Slip.voided else net.slips[slip]? := by
  rw [closeMailbox, found]
  exact getElem?_foldl_modify Slip.voided_voided b.slips net.slips slip

/-- Closing a mailbox changes no other mailbox. -/
theorem mailboxes_closeMailbox (now : Nat) (found : net.mailboxes[box]? = some b) :
    (net.closeMailbox now box).mailboxes = net.mailboxes.modify box Mailbox.close := by
  rw [closeMailbox, found]
  exact set_eq_modify Mailbox.close found

/-- When a mailbox is closed, the slips in its table become void, so that their callers may still look.
-/
theorem closeMailbox_ages (now : Nat) (box : MailboxId) (net : Network) :
    Ages own net (net.closeMailbox now box) := by
  cases found : net.mailboxes[box]? with
  | none =>
    rw [closeMailbox, found]
    exact .refl net
  | some b =>
    have hmailboxes := mailboxes_closeMailbox now found
    have hslips := slips_closeMailbox now found
    constructor
    · intro slip s hs hne
      rw [hslips, hs]
      simp [Slip.voided_of_ne_blank hne]
    · rintro box' key slip - ⟨s, hs, hne, hwaits⟩
      rw [Expects, hslips, hs]
      split
      · exact ⟨s.voided, rfl, s.voided_ne_abandoned hne, fun hblank =>
          absurd hblank s.voided_ne_blank⟩
      · next hnot =>
        refine ⟨s, rfl, hne, fun hblank => ?_⟩
        obtain ⟨c, hc, hmem⟩ := hwaits hblank
        rw [Awaits, hmailboxes]
        refine ⟨_, getElem?_modify_eq_some_iff.mpr ⟨c, hc, rfl⟩, ?_⟩
        split
        · next heq =>
          -- the slips in the table that is closed are void
          subst heq
          obtain rfl := Option.some.inj (hc.symm.trans found)
          exact absurd (List.mem_map.mpr ⟨_, hmem, rfl⟩) hnot
        · exact hmem
    · intro hkeyed k c' hc'
      rw [hmailboxes] at hc'
      obtain ⟨c, hc, rfl⟩ := getElem?_modify_eq_some_iff.mp hc'
      split
      · exact List.nodup_nil
      · exact hkeyed _ _ hc
    · rintro k node ⟨c, hc, hid, hshut⟩
      rw [Shut, hmailboxes]
      refine ⟨_, getElem?_modify_eq_some_iff.mpr ⟨c, hc, rfl⟩, ?_⟩
      split
      · exact ⟨hid, c.isShut_close⟩
      · exact ⟨hid, hshut⟩

/-- A node that is registered again has its old mailbox closed, and a new and empty one. -/
theorem register_ages (now : Nat) (node : PeerId) (net : Network) :
    Ages own net (net.register now node) := by
  unfold register
  have henroll : Ages own net { net with
      registry := net.registry.set node net.mailboxes.length
      mailboxes := net.mailboxes ++ [{ id := node }] } := .enroll net _ rfl
  cases net.registry.get? node with
  | none => exact henroll
  | some box => exact henroll.trans (closeMailbox_ages now box _)

/-- A shut down closes the one mailbox of the node. -/
theorem shutdown_ages (now : Nat) (node : PeerId) (net : Network) :
    Ages own net (net.shutdown now node) := by
  unfold shutdown
  split
  · next box _ =>
    have hremove : Ages own net { net with registry := net.registry.remove node } := .of_eq rfl rfl
    exact hremove.trans (closeMailbox_ages now box _)
  · exact .refl net

/-- So do shut downs of several nodes, one after the other. -/
theorem foldl_shutdown_ages (now : Nat) (nodes : List PeerId) (net : Network) :
    Ages own net (nodes.foldl (fun net id => net.shutdown now id) net) := by
  induction nodes generalizing net with
  | nil => exact .refl net
  | cons node nodes ih => exact (shutdown_ages now node net).trans (ih _)

/-- A clear shuts down all nodes that are registered. -/
theorem clear_ages (now : Nat) (net : Network) : Ages own net (net.clear now) :=
  foldl_shutdown_ages now net.nodes net

/-! ## Switches and detours -/

/-- Switches are read, and never touch a table. -/
theorem setSwitches_ages (box : MailboxId) (f : Switches → Switches) (net : Network) :
    Ages own net (net.setSwitches box f) :=
  .modifyMailbox net box fun _ => ⟨rfl, rfl, fun h => ⟨h.1, h.2, h.3, h.4⟩⟩

/-- A detour is for requests in queues, so tables stay as they are. -/
theorem divert_ages (owner : TaskId) (other : PeerId) (net : Network) :
    Ages own net (net.divert owner other) := by
  refine .of_mailboxes (List.length_map _) (fun box b b' found found' => ?_) rfl
  rw [divert, List.getElem?_map, found] at found'
  cases found'
  refine ⟨rfl, rfl, fun h => ⟨h.closed, ?_, h.takers, h.replies⟩⟩
  show b.requests.map _ = []
  rw [h.requests, List.map_nil]

/-! ## Takers -/

/-- A request that is received is in no table, whether it is kept, held back or raised. -/
theorem receive_ages (now : Nat) (box : MailboxId) (b : Mailbox) (r : Request) (net : Network) :
    Ages own net (net.receive now box b r).1 := by
  unfold receive
  split
  · exact .note net now _
  · dsimp only
    split <;> exact .refl net

/-- A look of a taker takes and drops requests, and leaves the table alone. -/
theorem takeFrom_ages (now : Nat) (t : TaskId) (box : MailboxId) (net : Network) :
    Ages own net (net.takeFrom now t box).1 := by
  unfold takeFrom
  split
  · exact .refl net
  · next b found =>
    dsimp only
    split
    · refine .putBack { b with wakeUp := false } found ?_ rfl rfl
      exact ⟨rfl, rfl, fun h => ⟨h.1, h.2, h.3, h.4⟩⟩
    · next hopen =>
      -- a mailbox that gives something away is not shut
      have hages {b' : Mailbox} (hid : b'.id = b.id) (hreplies : b'.replies = b.replies) :
          b.Ages b' := ⟨hid, hreplies, fun h => absurd h.closed hopen⟩
      obtain ⟨journal, hnoted⟩ := foldl_note_eq now (.dropped box t)
        (b.requests.takeWhile (net.drops b.id)) net
      rw [hnoted]
      split
      · exact .putBack ({ b with wakeUp := false, requests := [] }.join t) found
          (hages rfl rfl) rfl rfl
      · next r rest _ =>
        refine .trans ?_ (receive_ages now box _ r _)
        exact .putBack { b with wakeUp := false, requests := rest } found
          (hages rfl rfl) rfl rfl

/-- Neither does a taker that begins touch a table. -/
theorem beginTake_ages (now : Nat) (t : TaskId) (node : PeerId) (net : Network) :
    Ages own net (net.beginTake now t node).1 := by
  unfold beginTake
  split
  · exact .refl net
  · next box _ =>
    dsimp only
    split
    · exact takeFrom_ages now t box net
    · exact .refl net

/-- Nor one that goes on. -/
theorem turnTake_ages (now : Nat) (t : TaskId) (stage : Taking) (net : Network) :
    Ages own net (net.turnTake now t stage).1 := by
  cases stage with
  | delayed box wake =>
    rw [turnTake]
    split
    · exact takeFrom_ages now t box net
    · exact .refl net
  | looking box =>
    rw [turnTake]
    split
    · exact takeFrom_ages now t box net
    · exact .refl net
  | holding box r wake =>
    rw [turnTake]
    split <;> exact .refl net

/-- Nor one that is cancelled. -/
theorem cancelTake_ages (t : TaskId) (stage : Taking) (net : Network) :
    Ages own net (net.cancelTake t stage) := by
  cases stage with
  | looking box => exact .modifyMailbox net box (Mailbox.leave_ages t)
  | delayed box wake => exact .refl net
  | holding box r wake => exact .refl net

/-! ## Senders -/

/-- Whoever looks at its own slip leaves the others alone. -/
theorem checkSlip_ages (now : Nat) (deadline : Nat) (hkeyed : net.Keyed)
    (hwaits : net.Expects box r.key slip) :
    Ages (some slip) net (net.checkSlip now box r slip deadline).1 := by
  obtain ⟨s, hs, -, hwaits⟩ := hwaits
  unfold checkSlip
  split
  · exact .refl net
  · exact .refl net
  · next b hblank _ =>
    split
    · have hblank : s = .blank := Option.some.inj (hs.symm.trans hblank)
      exact .strike net hkeyed (hwaits hblank) (.inl rfl)
    · exact .refl net
  · exact .refl net

/-- A request is put into the mailbox, and its caller into the table. -/
theorem Ages.push {b' : Mailbox} (found : net.mailboxes[box]? = some b)
    (hnone : b.slip? key = none) (hpush : (b.enter key net.slips.length).push? r = some b') :
    Ages own net { net with
      mailboxes := net.mailboxes.set box b'
      slips := net.slips ++ [Slip.blank] } := by
  obtain ⟨hreplies, hid⟩ := push?_eq_some hpush
  have hset := set_eq_modify (fun _ => b') found
  have hopen : b.closed ≠ true := by
    intro hclosed
    have hrefused : (b.enter key net.slips.length).push? r = none := if_pos hclosed
    cases hrefused.symm.trans hpush
  constructor
  · exact fun _ _ hs _ => getElem?_concat_of_some _ hs
  · rintro box' key' slip - ⟨s, hs, hne, hwaits⟩
    refine ⟨s, getElem?_concat_of_some _ hs, hne, fun hblank => ?_⟩
    obtain ⟨c, hc, hmem⟩ := hwaits hblank
    rw [Awaits, hset]
    refine ⟨_, getElem?_modify_eq_some_iff.mpr ⟨c, hc, rfl⟩, ?_⟩
    split
    · next heq =>
      subst heq
      obtain rfl := Option.some.inj (hc.symm.trans found)
      rw [hreplies]
      exact List.mem_append_left _ hmem
    · exact hmem
  · intro hkeyed k c' hc'
    rw [hset] at hc'
    obtain ⟨c, hc, rfl⟩ := getElem?_modify_eq_some_iff.mp hc'
    split
    · unfold Mailbox.Keyed
      rw [hreplies]
      exact (hkeyed _ _ found).enter hnone
    · exact hkeyed _ _ hc
  · rintro k node ⟨c, hc, hshut⟩
    rw [Shut, hset]
    refine ⟨_, getElem?_modify_eq_some_iff.mpr ⟨c, hc, rfl⟩, ?_⟩
    split
    · next heq =>
      subst heq
      obtain rfl := Option.some.inj (hc.symm.trans found)
      exact absurd hshut.2.closed hopen
    · exact hshut

/-- The caller that has been entered finds its slip blank, and is in the table. -/
theorem expects_of_push {b' : Mailbox} (found : net.mailboxes[box]? = some b)
    (hpush : (b.enter key net.slips.length).push? r = some b') :
    Expects { net with
      mailboxes := net.mailboxes.set box b'
      slips := net.slips ++ [Slip.blank] } box key net.slips.length := by
  refine ⟨.blank, List.getElem?_concat_length, nofun, fun _ => ⟨b', ?_, ?_⟩⟩
  · exact List.getElem?_set_self (lt_length_of_getElem? found)
  · rw [(push?_eq_some hpush).1]
    exact List.mem_append_right _ (List.mem_singleton.mpr rfl)

/-- A sender that is admitted is entered with a new slip, so no old entry is touched. -/
theorem enqueue_ages (now : Nat) (hkeyed : net.Keyed) (found : net.mailboxes[box]? = some b) :
    Ages own net (net.enqueue now box b r).1 := by
  unfold enqueue
  split
  · exact .refl net
  · next hnone =>
    dsimp only
    split
    · exact .refl net
    · next b' hpush =>
      have hpushed : Ages own net _ := .push found hnone hpush
      have hentered := hpushed.trans (.note _ now (.sent box r))
      have hexpects := expects_of_push found hpush
      exact hentered.trans_of_new (checkSlip_ages now _ (hentered.keyed hkeyed) hexpects)
        (Nat.le_refl _)

/-- A sender that tries touches no entry but its own. -/
theorem trySend_ages (now : Nat) (box : MailboxId) (r : Request) (hkeyed : net.Keyed) :
    Ages own net (net.trySend now box r).1 := by
  unfold trySend
  split
  · exact .refl net
  · next b found =>
    split
    · exact .refl net
    · exact enqueue_ages now hkeyed found

/-- Whoever gets a turn leaves all slips alone but the one with which it waits. -/
theorem turnSend_ages (now : Nat) {stage : Sending} (hkeyed : net.Keyed)
    (hexpects : ∀ box r slip deadline, stage = .waiting box r slip deadline →
      net.Expects box r.key slip) : Ages stage.slip? net (net.turnSend now stage).1 := by
  cases stage with
  | blocked box r wake =>
    rw [turnSend]
    split
    · exact trySend_ages now box r hkeyed
    · exact .refl net
  | waiting box r slip deadline => exact checkSlip_ages now deadline hkeyed (hexpects _ _ _ _ rfl)

/-- A sender that begins touches no entry but its own. -/
theorem beginSend_ages (now : Nat) (r : Request) (hkeyed : net.Keyed) :
    Ages own net (net.beginSend now r).1 := by
  unfold beginSend
  split
  · exact .refl net
  · next box _ => exact trySend_ages now box r hkeyed

/-- A sender that is cancelled abandons its own slip, and no other. -/
theorem cancelSend_ages (stage : Sending) (net : Network) :
    Ages stage.slip? net (net.cancelSend stage) := by
  cases stage with
  | blocked box r wake => exact .refl net
  | waiting box r slip deadline =>
    refine .modifySlip net slip (fun s hs => ?_) (.inl rfl)
    cases s with
    | blank => exact absurd rfl hs
    | _ => rfl

/-! ## Replies -/

/-- A reply strikes the caller that it reaches, and that caller's slip is filled by then. -/
theorem deliver_ages (now : Nat) (r : Request) (outcome : Outcome) (hkeyed : net.Keyed) :
    Ages own net (net.deliver now r outcome) := by
  unfold deliver
  split
  · exact .refl net
  · next box _ =>
    split
    · exact .refl net
    · next slip hslip =>
      obtain ⟨b, found, hlookup⟩ := Option.bind_eq_some_iff.mp hslip
      have hwaits : net.Awaits box r.key slip := ⟨b, found, Mailbox.mem_of_slip? hlookup⟩
      -- the slip is filled before its caller leaves the table
      have hfill : Ages own net (net.modifySlip slip (·.fill outcome)) := by
        refine .modifySlip net slip (fun s hs => ?_) (.inr nofun)
        cases s with
        | blank => exact absurd rfl hs
        | _ => rfl
      refine (hfill.trans (.strike _ (hfill.keyed hkeyed) hwaits (.inr ?_))).trans (.note _ now _)
      intro hblank
      obtain ⟨s, -, hs⟩ := getElem?_modify_eq_some_iff.mp hblank
      rw [if_pos rfl] at hs
      cases s <;> cases hs

/-- A reply that begins touches no entry but the one of the caller that it reaches. -/
theorem beginReply_ages (now : Nat) (r : Request) (outcome : Outcome) (hkeyed : net.Keyed) :
    Ages own net (net.beginReply now r outcome).1 := by
  have hdelay (outcome : Outcome) : Ages own net (beginReply.delay now r outcome net).1 := by
    have hroll : Ages own net net.roll.2 := .of_eq rfl rfl
    unfold beginReply.delay
    dsimp only
    split
    · exact hroll.trans (deliver_ages now r outcome (hroll.keyed hkeyed))
    · exact hroll
  unfold beginReply
  split
  · split
    · exact hdelay _
    · exact .note net now _
  · exact hdelay _

/-- Neither does one that goes on. -/
theorem turnReply_ages (now : Nat) (stage : Replying) (hkeyed : net.Keyed) :
    Ages own net (net.turnReply now stage).1 := by
  unfold turnReply
  split
  · exact deliver_ages now stage.request stage.outcome hkeyed
  · exact .refl net

end Network

end Replica
