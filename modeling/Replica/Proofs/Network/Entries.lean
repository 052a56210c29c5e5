import Replica.Proofs.Network.Closings
import Replica.Proofs.Network.Effects
import Replica.Proofs.Network.Queues

/-!
# Who is in a table

Whoever is in a table can still be given something: no slip in a table is void, and no node has a
mailbox that is closed (`ListedOpen`). So a sender that ends is in no table any more, whichever way it ends
(`checkSlip_ended`, `trySend_ended`); and what becomes of one that comes to a mailbox depends on nothing
but its key being in the table, and on the mailbox being open.
-/

namespace Replica.Network

variable {net net' : Network} {box : MailboxId} {b : Mailbox} {r : Request} {t : TaskId} {now : Nat}
variable {slip : SlipId} {deadline : Nat} {node : PeerId} {puts : MailboxId → Request → Prop}

/-! ## Tables and nodes -/

/-- No slip in a table is void, and each node has one mailbox, which is open. -/
structure ListedOpen (net : Network) : Prop where
  void : ∀ box key slip, net.Awaits box key slip → net.slips[slip]? ≠ some .void
  sorted : net.registry.Sorted
  opened : ∀ node box b, net.registry.get? node = some box → net.mailboxes[box]? = some b →
    b.closed = false

theorem listedOpen_fresh (settings : Settings) (dice : Nat → UInt64) : ListedOpen { settings, dice } where
  void _ _ _ h := by
    obtain ⟨_, found, _⟩ := h
    cases found
  sorted := Registry.sorted_nil
  opened _ _ _ hget := by cases hget

/-- What a call does: the nodes keep their mailboxes, nobody closes one, and no slip becomes void. -/
theorem ListedOpen.steady (h : net.ListedOpen) (hsteady : Steady net net')
    (hvoid : ∀ box key slip, net'.Awaits box key slip → net'.slips[slip]? = some .void →
      net.Awaits box key slip ∧ net.slips[slip]? = some .void) : net'.ListedOpen where
  void box key slip hw hs := h.void _ _ _ (hvoid _ _ _ hw hs).1 (hvoid _ _ _ hw hs).2
  sorted := hsteady.registry ▸ h.sorted
  opened node box b' hget found' := by
    have hpost := hsteady.posts box
    rw [found', Option.map_some] at hpost
    obtain ⟨b, found, heq⟩ := Option.map_eq_some_iff.mp hpost.symm
    have hclosed : b.closed = b'.closed := congrArg (·.2.1) heq
    exact hclosed.symm.trans (h.opened node box b (hsteady.registry ▸ hget) found)

theorem Effect.listedOpen (h : Effect puts net net') (hnet : net.ListedOpen) : net'.ListedOpen := by
  refine hnet.steady h.steady fun box key slip hw hvoid => ?_
  cases h with
  | put now hputs found hfree hpush =>
    have hbefore : net.slips[slip]? = some .void := by
      rcases getElem?_concat_eq_some_iff.mp hvoid with hs | ⟨-, hblank⟩
      · exact hs
      · cases hblank
    rcases (EntersCaller.push found hpush).awaits _ _ _ hw with hw | ⟨-, -, rfl⟩
    · exact ⟨hw, hbefore⟩
    -- the slip that is entered was not there before
    · exact absurd (lt_length_of_getElem? hbefore) (Nat.lt_irrefl _)
  | strike box' key' => exact ⟨(strike_keepsReplies box' key' net).awaits _ _ _ hw, hvoid⟩
  | mark slip' f hf =>
    obtain ⟨s, hs, heq⟩ := getElem?_modify_eq_some_iff.mp hvoid
    refine ⟨hw, hs.trans (congrArg some ?_)⟩
    split at heq
    · exact hf s heq
    · exact heq
  | roll => exact ⟨hw, hvoid⟩
  | remark now h => exact ⟨hw, hvoid⟩
  | leave t box' =>
    have hkeeps : KeepsReplies net (net.modifyMailbox box' (·.leave t)) :=
      .modifyMailbox net box' (fun b => (leave_replies t b).2)
        fun b => (leave_replies t b).1 ▸ List.Subset.refl _
    exact ⟨hkeeps.awaits _ _ _ hw, hvoid⟩

theorem Effects.listedOpen (h : Effects puts net net') (hnet : net.ListedOpen) : net'.ListedOpen := by
  induction h with
  | refl => exact hnet
  | tail _ hlast ih => exact hlast.listedOpen ih

/-! ## Takers -/

theorem Glance.slips {result : Network × TakeProgress} (h : Glance now t box net result) :
    result.1.slips = net.slips := by
  cases h with
  | nowhere => rfl
  | shut => rfl
  | waits => rfl
  | @takes b dropped rest r =>
    let taken : Mailbox := { b with wakeUp := false, requests := rest }
    rcases receive_cases now box taken r (net.handBack now box taken
        (dropped.map (.dropped box t) ++ [.taken box t r])) with ⟨-, h⟩ | ⟨-, h⟩ | ⟨-, wake, h⟩ <;>
      rw [h] <;> rfl

theorem takeFrom_listedOpen (now : Nat) (t : TaskId) (box : MailboxId) (hnet : net.ListedOpen) :
    (net.takeFrom now t box).1.ListedOpen := by
  have hglance := takeFrom_glance now t box net
  refine hnet.steady hglance.steady fun box' key slip hw hvoid => ?_
  exact ⟨(takeFrom_keepsReplies now t box net).awaits _ _ _ hw, hglance.slips ▸ hvoid⟩

theorem beginTake_listedOpen (now : Nat) (t : TaskId) (node : PeerId) (hnet : net.ListedOpen) :
    (net.beginTake now t node).1.ListedOpen := by
  unfold beginTake
  split
  · exact hnet
  · next box _ =>
    dsimp only
    split
    · exact takeFrom_listedOpen now t box hnet
    · exact hnet

theorem turnTake_listedOpen (now : Nat) (t : TaskId) (stage : Taking) (hnet : net.ListedOpen) :
    (net.turnTake now t stage).1.ListedOpen := by
  cases stage with
  | delayed box wake =>
    rw [turnTake]
    split
    · exact takeFrom_listedOpen now t box hnet
    · exact hnet
  | looking box =>
    rw [turnTake]
    split
    · exact takeFrom_listedOpen now t box hnet
    · exact hnet
  | holding box r wake =>
    rw [turnTake]
    split <;> exact hnet

/-! ## Nodes -/

/-- Closing a mailbox that no node has. Its own table is empty from then on, and its slips are in no
other one. -/
theorem closeMailbox_listedOpen (now : Nat) (hnet : net.ListedOpen) (hord : net.SlipsUnique)
    (hfree : ∀ node, net.registry.get? node ≠ some box) : (net.closeMailbox now box).ListedOpen := by
  cases found : net.mailboxes[box]? with
  | none =>
    rw [closeMailbox, found]
    exact hnet
  | some b =>
    have hmailboxes := mailboxes_closeMailbox now found
    constructor
    · intro box' key slip hw hvoid
      have hbefore := (closeMailbox_keepsReplies now box net).awaits _ _ _ hw
      rw [slips_closeMailbox now found] at hvoid
      split at hvoid
      · next hmem =>
        obtain ⟨⟨key', slip'⟩, hentry, rfl⟩ := List.mem_map.mp hmem
        obtain ⟨rfl, -⟩ := hord.apart _ _ _ _ _ hbefore ⟨b, found, hentry⟩
        obtain ⟨c, hc, hwaits⟩ := hw
        rw [hmailboxes] at hc
        obtain ⟨d, -, rfl⟩ := getElem?_modify_eq_some_iff.mp hc
        rw [if_pos rfl] at hwaits
        cases hwaits
      · exact hnet.void _ _ _ hbefore hvoid
    · rw [registry_closeMailbox]
      exact hnet.sorted
    · intro node box' c hget hc
      rw [registry_closeMailbox] at hget
      rw [hmailboxes] at hc
      obtain ⟨d, hd, rfl⟩ := getElem?_modify_eq_some_iff.mp hc
      have hne : box ≠ box' := fun heq => hfree node (heq ▸ hget)
      rw [if_neg hne]
      exact hnet.opened node box' d hget hd

theorem register_listedOpen (now : Nat) (node : PeerId) (hnet : net.ListedOpen) (hord : net.SlipsUnique) :
    (net.register now node).ListedOpen := by
  have henroll : ListedOpen { net with
      registry := net.registry.set node net.mailboxes.length
      mailboxes := net.mailboxes ++ [{ id := node }] } := by
    refine ⟨fun box key slip hw => ?_, hnet.sorted.set, fun other box b hget found => ?_⟩
    · exact hnet.void _ _ _ ((KeepsReplies.enroll net { id := node } rfl).awaits _ _ _ hw)
    · rcases getElem?_concat_eq_some_iff.mp found with found | ⟨-, rfl⟩
      · rw [Registry.get?_set] at hget
        split at hget
        · cases hget
          exact absurd (lt_length_of_getElem? found) (Nat.lt_irrefl _)
        · exact hnet.opened other box b hget found
      · rfl
  unfold register
  cases hold : net.registry.get? node with
  | none => exact henroll
  | some box =>
    refine closeMailbox_listedOpen now henroll
      ((KeepsReplies.enroll net { id := node } rfl).slipsUnique hord) fun other hget => ?_
    -- the node has got a new mailbox, and no other node has had the old one
    obtain ⟨b, found, hid⟩ := hord.serves hold
    rw [Registry.get?_set] at hget
    split at hget
    · cases hget
      exact absurd (lt_length_of_getElem? found) (Nat.lt_irrefl _)
    · next hne => exact hne (Serves.unique ⟨b, found, hid⟩ (hord.serves hget))

theorem shutdown_listedOpen (now : Nat) (node : PeerId) (hnet : net.ListedOpen) (hord : net.SlipsUnique) :
    (net.shutdown now node).ListedOpen := by
  unfold shutdown
  split
  · next box hget =>
    have hget? (other : PeerId) (box' : MailboxId)
        (h : (net.registry.remove node).get? other = some box') :
        other ≠ node ∧ net.registry.get? other = some box' := by
      rcases eq_or_ne other node with rfl | hne
      · cases hnet.sorted.get?_remove_self.symm.trans h
      · exact ⟨hne, (Registry.get?_remove_of_ne hne).symm.trans h⟩
    have hremove : ListedOpen { net with registry := net.registry.remove node } :=
      ⟨hnet.void, hnet.sorted.remove, fun other box' b h => hnet.opened other box' b (hget? _ _ h).2⟩
    have hord' : SlipsUnique { net with registry := net.registry.remove node } :=
      ⟨hord.known, hord.apart, hord.unwritten,
        fun other box' hmem => hord.registered other box' (Registry.mem_of_mem_remove hmem)⟩
    refine closeMailbox_listedOpen now hremove hord' fun other h => ?_
    obtain ⟨hne, hother⟩ := hget? other box h
    exact hne ((hord.serves hother).unique (hord.serves hget))
  · exact hnet

theorem clear_listedOpen (now : Nat) (hnet : net.ListedOpen) (hord : net.SlipsUnique) :
    (net.clear now).ListedOpen := by
  suffices hall : ∀ (nodes : List PeerId) (net : Network), net.ListedOpen → net.SlipsUnique →
      (nodes.foldl (fun net id => net.shutdown now id) net).ListedOpen from hall net.nodes net hnet hord
  intro nodes
  induction nodes with
  | nil => exact fun _ hnet _ => hnet
  | cons node nodes ih =>
    exact fun net hnet hord => ih _ (shutdown_listedOpen now node hnet hord)
      ((shutdown_keepsReplies now node net).slipsUnique hord)

theorem setSwitches_listedOpen (box : MailboxId) (f : Switches → Switches) (hnet : net.ListedOpen) :
    (net.setSwitches box f).ListedOpen where
  void box' key slip hw :=
    hnet.void _ _ _ ((setSwitches_keepsReplies box f net).awaits _ _ _ hw)
  sorted := hnet.sorted
  opened node box' b' hget found' := by
    obtain ⟨b, found, rfl⟩ := getElem?_modify_eq_some_iff.mp found'
    have hopen := hnet.opened node box' b hget found
    split <;> exact hopen

theorem divert_listedOpen (owner : TaskId) (other : PeerId) (hnet : net.ListedOpen) :
    (net.divert owner other).ListedOpen where
  void box' key slip hw :=
    hnet.void _ _ _ ((divert_keepsReplies owner other net).awaits _ _ _ hw)
  sorted := hnet.sorted
  opened node box' b' hget found' := by
    obtain ⟨b, found, rfl⟩ := Option.map_eq_some_iff.mp (List.getElem?_map.symm.trans found')
    exact hnet.opened node box' b hget found

/-! ## Senders that end -/

/-- A sender that was in the table ends, and is in no table then. -/
theorem checkSlip_ended {outcome : Outcome} (hnet : net.ListedOpen) (hord : net.SlipsUnique)
    (hexpects : net.Expects box r.key slip)
    (h : (net.checkSlip now box r slip deadline).2 = .ended outcome) (box' : MailboxId)
    (key : RequestKey) : ¬ (net.checkSlip now box r slip deadline).1.Awaits box' key slip := by
  unfold checkSlip at h ⊢
  split
  · next found => exact fun hw => hord.unwritten _ _ _ _ hw found
  · next found _ => exact fun hw => hnet.void _ _ _ hw found
  · next found hbox =>
    split
    · intro hw
      obtain ⟨s, hs, -, hwaits⟩ := hexpects
      have hwaits := hwaits (Option.some.inj (hs.symm.trans found))
      have hbefore := (strike_keepsReplies box r.key net).awaits _ _ _ hw
      obtain ⟨rfl, rfl⟩ := hord.apart _ _ _ _ _ hbefore hwaits
      -- it was in the table under the key that has been struck
      obtain ⟨c', hc', hmem⟩ := hw
      obtain ⟨c, hc, rfl⟩ := getElem?_modify_eq_some_iff.mp hc'
      rw [if_pos rfl] at hmem
      simpa using (List.mem_filter.mp hmem).2
    · next hearly =>
      simp only [found, hbox, if_neg hearly] at h
      cases h
  · next hnone hvoid hblank =>
    split at h
    · next found => exact absurd found (hnone _)
    · next found hbox => exact absurd hbox (hvoid _ found)
    · next found hbox => exact absurd hbox (hblank _ found)
    · cases h

/-- A sender that has entered nothing before ends, and is in no table then. -/
theorem trySend_ended {outcome : Outcome} (hnet : net.ListedOpen) (hord : net.SlipsUnique)
    (h : (net.trySend now box r).2 = .ended outcome) (box' : MailboxId) (key : RequestKey) :
    ¬ (net.trySend now box r).1.Awaits box' key net.slips.length := by
  have hnew : ¬ net.Awaits box' key net.slips.length := fun hw =>
    Nat.lt_irrefl _ (hord.known _ _ _ hw)
  unfold trySend at h ⊢
  split
  · exact hnew
  · next b found =>
    simp only [found] at h
    split
    · exact hnew
    · next hfree =>
      rw [if_neg hfree] at h
      unfold enqueue at h ⊢
      split
      · exact hnew
      · next hnone =>
        simp only [hnone] at h
        dsimp only
        split
        · exact hnew
        · next b' hpush =>
          simp only [hpush] at h
          -- the sender has been entered, and has looked at its slip at once
          have hput : Effect (fun _ _ => True) net _ :=
            .put now trivial found (Bool.eq_false_iff.mpr hfree) hpush
          have henters := (EntersCaller.push found hpush).keeps (.note _ now (.sent box r))
          exact checkSlip_ended (hput.listedOpen hnet) (henters.slipsUnique hord)
            (expects_of_push found hpush) h box' key

/-- Nobody who looks at a slip, and finds no outcome on it, is told that the key is in use. -/
theorem checkSlip_ne_invalid (h : ∀ outcome, ¬ net.Written slip outcome) (message : String) :
    (net.checkSlip now box r slip deadline).2 ≠ .ended (.error (.invalidArgument message)) := by
  unfold checkSlip
  split
  · next outcome found => exact absurd found (h outcome)
  · nofun
  · split <;> nofun
  · nofun

/-- A sender that is told that its key is in use has changed nothing. -/
theorem trySend_invalid {message : String}
    (h : (net.trySend now box r).2 = .ended (.error (.invalidArgument message))) :
    (net.trySend now box r).1 = net := by
  unfold trySend at h ⊢
  split at h
  · cases h
  · next b found =>
    split at h
    · cases h
    · next hfree =>
      rw [if_neg hfree]
      unfold enqueue at h ⊢
      split at h
      · rfl
      · dsimp only at h ⊢
        split at h
        · cases h
        · next b' hpush =>
          -- the slip is new, and nothing is written on it
          refine absurd h (checkSlip_ne_invalid (fun outcome hw => ?_) message)
          rcases getElem?_concat_eq_some_iff.mp hw with hs | ⟨-, hblank⟩
          · exact Nat.lt_irrefl _ (lt_length_of_getElem? hs)
          · cases hblank

/-! ## Those who stay -/

/-- A sender that looks at its slip removes nobody else from a table. -/
theorem checkSlip_awaits {other : SlipId} {box' : MailboxId} {key : RequestKey} (hkeyed : net.Keyed)
    (hexpects : net.Expects box r.key slip) (hw : net.Awaits box' key other) (hne : other ≠ slip) :
    (net.checkSlip now box r slip deadline).1.Awaits box' key other := by
  unfold checkSlip
  split
  · exact hw
  · exact hw
  · next hblank _ =>
    split
    · obtain ⟨s, hs, -, hwaits⟩ := hexpects
      obtain ⟨b, found, hmem⟩ := hwaits (Option.some.inj (hs.symm.trans hblank))
      obtain ⟨c, hc, hmem'⟩ := hw
      refine ⟨_, getElem?_modify_eq_some_iff.mpr ⟨c, hc, rfl⟩, ?_⟩
      split
      · next heq =>
        subst heq
        obtain rfl := Option.some.inj (hc.symm.trans found)
        refine List.mem_filter.mpr ⟨hmem', decide_eq_true ?_⟩
        -- no two callers wait under one key
        rintro rfl
        exact hne ((hkeyed _ _ found).eq hmem' hmem)
      · exact hmem'
    · exact hw
  · exact hw

/-- Whoever is in a table stays there when a caller is entered. -/
theorem push_awaits {other : SlipId} {box' : MailboxId} {key : RequestKey} {b' : Mailbox}
    (found : net.mailboxes[box]? = some b)
    (hpush : (b.enter r.key net.slips.length).push? r = some b') (hw : net.Awaits box' key other) :
    Awaits { net with
      mailboxes := net.mailboxes.set box b'
      slips := net.slips ++ [Slip.blank] } box' key other := by
  obtain ⟨c, hc, hmem⟩ := hw
  rw [Awaits, set_eq_modify (fun _ => b') found]
  refine ⟨_, getElem?_modify_eq_some_iff.mpr ⟨c, hc, rfl⟩, ?_⟩
  split
  · next heq =>
    subst heq
    obtain rfl := Option.some.inj (hc.symm.trans found)
    rw [(push?_eq_some hpush).1]
    exact List.mem_append_left _ hmem
  · exact hmem

/-- A sender that comes to a mailbox removes nobody from a table. -/
theorem trySend_awaits {other : SlipId} {box' : MailboxId} {key : RequestKey} (hkeyed : net.Keyed)
    (hord : net.SlipsUnique) (hw : net.Awaits box' key other) :
    (net.trySend now box r).1.Awaits box' key other := by
  unfold trySend
  split
  · exact hw
  · next b found =>
    split
    · exact hw
    · unfold enqueue
      split
      · exact hw
      · next hnone =>
        dsimp only
        split
        · exact hw
        · next b' hpush =>
          have hages : Ages none net _ := .push found hnone hpush
          exact checkSlip_awaits (hages.keyed hkeyed) (expects_of_push found hpush)
            (push_awaits found hpush hw) (Nat.ne_of_lt (hord.known _ _ _ hw))

/-! ## Senders that come to a mailbox -/

/-- A sender whose key is in the table changes nothing. -/
theorem enqueue_of_inFlight (h : b.slip? r.key = some slip) :
    net.enqueue now box b r = (net, .ended (.error (inFlight r.key b))) := by
  simp only [enqueue, h]

/-- The sender has been entered with a new slip, and its request is the last one in the mailbox. -/
structure Enters (now : Nat) (box : MailboxId) (b : Mailbox) (r : Request) (net : Network)
    (result : Network × SendProgress) : Prop where
  enters : EntersCaller box r.key net result.1
  queued : ∃ b' : Mailbox, result.1.mailboxes[box]? = some b' ∧ b'.requests = b.requests ++ [r]
  waits : net.settings.replyTimeout ≠ 0 → result.1.Awaits box r.key net.slips.length ∧
    result.2 = .waiting
      (.waiting box r net.slips.length (now + net.settings.replyTimeout.toNat))
  /-- Nobody waits for a reply that is overdue at once. -/
  overdue : net.settings.replyTimeout = 0 → result.2 = .ended (.error (net.overdue r.key b))

/-- A sender whose key is not in the table of an open mailbox is entered. -/
theorem enqueue_of_free (found : net.mailboxes[box]? = some b) (hnone : b.slip? r.key = none)
    (hopen : b.closed = false) : Enters now box b r net (net.enqueue now box b r) := by
  obtain ⟨b', hpush⟩ : ∃ b', (b.enter r.key net.slips.length).push? r = some b' :=
    ⟨_, if_neg (Bool.eq_false_iff.mp hopen)⟩
  obtain ⟨-, hrequests⟩ := push?_requests hpush
  obtain ⟨hreplies, hid⟩ := push?_eq_some hpush
  let entered : Network := { net with
    mailboxes := net.mailboxes.set box b'
    slips := net.slips ++ [Slip.blank] }.note now (.sent box r)
  have henters : EntersCaller box r.key net entered :=
    (EntersCaller.push found hpush).keeps (.note _ now (.sent box r))
  have hbox : entered.mailboxes[box]? = some b' :=
    List.getElem?_set_self (lt_length_of_getElem? found)
  have hslip : entered.slips[net.slips.length]? = some .blank := List.getElem?_concat_length
  have hmem : (r.key, net.slips.length) ∈ b'.replies := by
    rw [hreplies]
    exact List.mem_append_right _ (List.mem_singleton.mpr rfl)
  have hresult : net.enqueue now box b r =
      if now + net.settings.replyTimeout.toNat ≤ now then
        (entered.modifyMailbox box (·.strike r.key), .ended (.error (net.overdue r.key b)))
      else (entered, .waiting
        (.waiting box r net.slips.length (now + net.settings.replyTimeout.toNat))) := by
    have hcheck : net.enqueue now box b r = entered.checkSlip now box r net.slips.length
        (now + net.settings.replyTimeout.toNat) := by
      simp only [enqueue, hnone, hpush]
      rfl
    have hoverdue : entered.overdue r.key b' = net.overdue r.key b := by
      simp only [Network.overdue, hid]
      rfl
    rw [hcheck]
    simp only [checkSlip, hslip, hbox, hoverdue]
  rw [hresult]
  split
  · next hover =>
    have hzero : net.settings.replyTimeout = 0 :=
      UInt64.toNat_inj.mp (Nat.le_zero.mp (Nat.le_of_add_le_add_left hover))
    refine ⟨henters.keeps (strike_keepsReplies box r.key entered), ?_, fun h => absurd hzero h,
      fun _ => rfl⟩
    exact ⟨_, getElem?_modify_eq_some_iff.mpr ⟨b', hbox, rfl⟩, by rw [if_pos rfl]; exact hrequests⟩
  · next hlater =>
    refine ⟨henters, ⟨b', hbox, hrequests⟩, fun _ => ⟨⟨b', hbox, hmem⟩, rfl⟩, fun hzero => ?_⟩
    exact absurd (by rw [hzero]; exact Nat.le_refl _) hlater

end Replica.Network
