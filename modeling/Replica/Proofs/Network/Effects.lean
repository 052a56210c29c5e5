import Mathlib.Logic.Relation
import Replica.Proofs.Network.Turns

/-!
# What calls do to a network, one thing after the other

Whatever a call that sends or replies does to a network comes down to a few effects: it puts a request
into a mailbox, strikes a caller from a table, writes on a slip, takes a number from the random source,
or makes a remark in the journal (`Effect`). A taker looks into its mailbox, and what may come of that is
the relation `Glance`. What every effect and every glance keeps, calls keep; nodes, switches and settings
are the first example (`Steady`).
-/

namespace Replica

/-- Nothing but a remark: no request was moved, nobody worked, and nobody asked for the end. -/
inductive Occurrence.IsRemark : Occurrence → Prop where
  | answered (box : MailboxId) (r : Request) (outcome : Outcome) (slip : SlipId) :
    IsRemark (.answered box r outcome slip)
  | raised (e : ServerError) : IsRemark (.raised e)

/-- A call of somebody who sends, takes or replies writes it. -/
inductive Occurrence.IsTraffic : Occurrence → Prop where
  | sent (box : MailboxId) (r : Request) : IsTraffic (.sent box r)
  | taken (box : MailboxId) (t : TaskId) (r : Request) : IsTraffic (.taken box t r)
  | dropped (box : MailboxId) (t : TaskId) (r : Request) : IsTraffic (.dropped box t r)
  | answered (box : MailboxId) (r : Request) (outcome : Outcome) (slip : SlipId) :
    IsTraffic (.answered box r outcome slip)
  | raised (e : ServerError) : IsTraffic (.raised e)

namespace Slip

/-- A slip that is void after it was filled was void before, since filling never voids a slip. -/
theorem void_of_fill (outcome : Outcome) (s : Slip) (h : s.fill outcome = .void) : s = .void := by
  cases s with
  | void => rfl
  | _ => cases h

/-- A slip that is void after its caller went away was void before. -/
theorem void_of_abandon (s : Slip) (h : s.abandon = .void) : s = .void := by
  cases s with
  | void => rfl
  | _ => cases h

end Slip

namespace Network

variable {net net' net'' : Network} {box : MailboxId} {b : Mailbox} {r : Request} {t : TaskId}
variable {now : Nat} {puts : MailboxId → Request → Prop}

/-! ## Senders and repliers -/

/-- One thing that a call does to the network; `puts` says which requests it may put where. -/
inductive Effect (puts : MailboxId → Request → Prop) (net : Network) : Network → Prop where
  /-- A sender that is not blocked enters its slip and puts its request into the mailbox. -/
  | put (now : Nat) {box : MailboxId} {b b' : Mailbox} {r : Request} (hputs : puts box r)
    (found : net.mailboxes[box]? = some b) (hfree : b.isBlocked = false)
    (hpush : (b.enter r.key net.slips.length).push? r = some b') :
    Effect puts net ({ net with
      mailboxes := net.mailboxes.set box b'
      slips := net.slips ++ [Slip.blank] }.note now (.sent box r))
  | strike (box : MailboxId) (key : RequestKey) :
    Effect puts net (net.modifyMailbox box (·.strike key))
  /-- Something is done to a slip. It does not become void: that is left to whoever closes a mailbox. -/
  | mark (slip : SlipId) (f : Slip → Slip) (hf : ∀ s, f s = .void → s = .void) :
    Effect puts net (net.modifySlip slip f)
  | roll : Effect puts net net.roll.2
  | remark (now : Nat) {what : Occurrence} (h : what.IsRemark) : Effect puts net (net.note now what)
  /-- A taker that waited gives up. -/
  | leave (t : TaskId) (box : MailboxId) : Effect puts net (net.modifyMailbox box (·.leave t))

/-- Some effects, one after the other. -/
abbrev Effects (puts : MailboxId → Request → Prop) : Network → Network → Prop :=
  Relation.ReflTransGen (Effect puts)

/-- A caller that looks at its slip strikes itself from the table or marks its slip, or does nothing. -/
theorem checkSlip_effects (now : Nat) (box : MailboxId) (r : Request) (slip : SlipId) (deadline : Nat)
    (net : Network) : Effects puts net (net.checkSlip now box r slip deadline).1 := by
  unfold checkSlip
  split
  · exact .refl
  · exact .refl
  · split
    · exact .single (.strike box r.key)
    · exact .refl
  · exact .refl

/-- Whoever gets into a mailbox puts its request there, and enters itself in the table before that. -/
theorem trySend_effects (now : Nat) (hputs : puts box r) : Effects puts net (net.trySend now box r).1 := by
  unfold trySend
  split
  · exact .refl
  · next b found =>
    split
    · exact .refl
    · next hfree =>
      unfold enqueue
      split
      · exact .refl
      · dsimp only
        split
        · exact .refl
        · next b' hpush =>
          have hput := Effect.put now hputs found (Bool.eq_false_iff.mpr hfree) hpush
          exact (Relation.ReflTransGen.single hput).trans (checkSlip_effects now box r _ _ _)

/-- The first turn of a sender puts its request into no other mailbox than that of the node it is
addressed to. -/
theorem beginSend_effects (now : Nat)
    (hputs : ∀ box, net.registry.get? r.replier = some box → puts box r) :
    Effects puts net (net.beginSend now r).1 := by
  unfold beginSend
  split
  · exact .refl
  · next box hbox => exact trySend_effects now (hputs box hbox)

/-- A later turn of a sender puts its request only into the mailbox at which the sender was blocked. -/
theorem turnSend_effects (now : Nat) {stage : Sending}
    (hputs : ∀ box r wake, stage = .blocked box r wake → puts box r) :
    Effects puts net (net.turnSend now stage).1 := by
  cases stage with
  | blocked box r wake =>
    rw [turnSend]
    split
    · exact trySend_effects now (hputs box r wake rfl)
    · exact .refl
  | waiting box r slip deadline => exact checkSlip_effects now box r slip deadline net

/-- A sender that is cancelled only abandons its slip. -/
theorem cancelSend_effects (stage : Sending) (net : Network) :
    Effects puts net (net.cancelSend stage) := by
  cases stage with
  | blocked box r wake => exact .refl
  | waiting box r slip deadline => exact .single (.mark slip .abandon Slip.void_of_abandon)

/-- Handing an outcome over strikes the caller and fills its slip, if there is one. -/
theorem deliver_effects (now : Nat) (r : Request) (outcome : Outcome) (net : Network) :
    Effects puts net (net.deliver now r outcome) := by
  unfold deliver
  split
  · exact .refl
  · next box _ =>
    split
    · exact .refl
    · next slip _ =>
      have hstrike : Effects puts net (net.modifyMailbox box (·.strike r.key)) :=
        .single (.strike box r.key)
      exact (hstrike.tail (.mark slip (.fill outcome) (Slip.void_of_fill outcome))).tail
        (.remark now (.answered box r outcome slip))

/-- A reply that begins raises an error, or draws a number for its latency and may hand the outcome
over. -/
theorem beginReply_effects (now : Nat) (r : Request) (outcome : Outcome) (net : Network) :
    Effects puts net (net.beginReply now r outcome).1 := by
  have hdelay (outcome : Outcome) : Effects puts net (beginReply.delay now r outcome net).1 := by
    have hroll : Effects puts net net.roll.2 := .single .roll
    unfold beginReply.delay
    dsimp only
    split
    · exact hroll.trans (deliver_effects now r outcome _)
    · exact hroll
  unfold beginReply
  split
  · split
    · exact hdelay _
    · exact .single (.remark now (.raised _))
  · exact hdelay _

/-- A later turn of a replier hands the outcome over, or does nothing because it is too early. -/
theorem turnReply_effects (now : Nat) (stage : Replying) (net : Network) :
    Effects puts net (net.turnReply now stage).1 := by
  unfold turnReply
  split
  · exact deliver_effects now stage.request stage.outcome net
  · exact .refl

/-- A taker that is cancelled only leaves the line at its mailbox. -/
theorem cancelTake_effects (t : TaskId) (stage : Taking) (net : Network) :
    Effects puts net (net.cancelTake t stage) := by
  cases stage with
  | looking box => exact .single (.leave t box)
  | delayed box wake => exact .refl
  | holding box r wake => exact .refl

/-! ## Takers -/

/-- Notes that are written one after the other are found at the end of the journal in this order. -/
theorem foldl_note {α : Type} (now : Nat) (what : α → Occurrence) (l : List α) (net : Network) :
    l.foldl (fun net a => net.note now (what a)) net =
      { net with journal := net.journal ++ l.map fun a => ⟨now, what a⟩ } := by
  induction l generalizing net with
  | nil => simp
  | cons a l ih =>
    rw [List.foldl_cons, ih]
    simp [note]

/-- The network after a taker has had a mailbox in hand: the mailbox is put back, and what was taken
out of it is noted. -/
def handBack (now : Nat) (box : MailboxId) (b : Mailbox) (written : List Occurrence) (net : Network) :
    Network :=
  { net with
    mailboxes := net.mailboxes.set box b
    journal := net.journal ++ written.map fun what => ⟨now, what⟩ }

/-- What comes of a taker that looks into its mailbox. -/
inductive Glance (now : Nat) (t : TaskId) (box : MailboxId) (net : Network) :
    Network × TakeProgress → Prop where
  | nowhere (hnone : net.mailboxes[box]? = none) :
    Glance now t box net (net, .waiting (.looking box))
  | shut {b : Mailbox} (found : net.mailboxes[box]? = some b) (hclosed : b.closed = true) :
    Glance now t box net
      (net.handBack now box { b with wakeUp := false } [], .ended (.error (.shutdown b.id)))
  /-- It drops all that is there, and waits. -/
  | waits {b : Mailbox} (found : net.mailboxes[box]? = some b) (hopen : b.closed = false)
    (hdropped : ∀ r ∈ b.requests, net.drops b.id r = true) :
    Glance now t box net
      (net.handBack now box ({ b with wakeUp := false, requests := [] }.join t)
        (b.requests.map (.dropped box t)), .waiting (.looking box))
  /-- It drops some requests and takes the first other one. -/
  | takes {b : Mailbox} {dropped rest : List Request} {r : Request}
    (found : net.mailboxes[box]? = some b) (hopen : b.closed = false)
    (hsplit : b.requests = dropped ++ r :: rest) (hdropped : ∀ d ∈ dropped, net.drops b.id d = true)
    (hkept : net.drops b.id r = false) :
    Glance now t box net
      ((net.handBack now box { b with wakeUp := false, requests := rest }
        (dropped.map (.dropped box t) ++ [.taken box t r])).receive now box
          { b with wakeUp := false, requests := rest } r)

/-- A taker's look at a mailbox comes to one of the cases of `Glance`. -/
theorem takeFrom_glance (now : Nat) (t : TaskId) (box : MailboxId) (net : Network) :
    Glance now t box net (net.takeFrom now t box) := by
  unfold takeFrom
  split
  · next hnone => exact .nowhere hnone
  · next b found =>
    dsimp only
    split
    · next hclosed =>
      have hshut : { net with mailboxes := net.mailboxes.set box { b with wakeUp := false } } =
          net.handBack now box { b with wakeUp := false } [] := by simp [handBack]
      rw [hshut]
      exact .shut found hclosed
    · next hopen =>
      have hopen := Bool.eq_false_iff.mpr hopen
      have hsplit := List.takeWhile_append_dropWhile (p := net.drops b.id) (l := b.requests)
      have hdropped : ∀ r ∈ b.requests.takeWhile (net.drops b.id), net.drops b.id r = true :=
        fun r hr => (List.all_eq_true.mp List.all_takeWhile) r hr
      rw [foldl_note]
      split
      · next hrest =>
        rw [hrest, List.append_nil] at hsplit
        rw [hsplit] at hdropped ⊢
        have hwaits : Glance now t box net _ := .waits found hopen hdropped
        rwa [handBack, List.map_map] at hwaits
      · next r rest hrest =>
        rw [hrest] at hsplit
        have hkept : net.drops b.id r = false := by
          have hne : b.requests.dropWhile (net.drops b.id) ≠ [] := by rw [hrest]; nofun
          have hhead := List.head_dropWhile_not (net.drops b.id) hne
          simpa [hrest] using hhead
        have htakes : Glance now t box net _ := .takes found hopen hsplit.symm hdropped hkept
        rw [handBack, List.map_append, List.map_map, ← List.append_assoc] at htakes
        exact htakes

/-- What comes of a taker that has a request in hand. -/
theorem receive_cases (now : Nat) (box : MailboxId) (b : Mailbox) (r : Request) (net : Network) :
    (r.replier ≠ b.id ∧ net.receive now box b r =
      (net.note now (.raised (misrouted b.id r)), .ended (.error (misrouted b.id r)))) ∨
    (r.replier = b.id ∧ net.receive now box b r = (net, .ended (.ok r))) ∨
    (r.replier = b.id ∧ ∃ wake, net.receive now box b r = (net, .waiting (.holding box r wake))) := by
  unfold receive
  by_cases hid : r.replier = b.id
  · rw [if_neg (not_not_intro hid)]
    dsimp only
    by_cases hdelay : (net.switchesOf r.requestor).delayFrom = 0
    · exact .inr (.inl ⟨hid, if_pos hdelay⟩)
    · exact .inr (.inr ⟨hid, _, if_neg hdelay⟩)
  · exact .inl ⟨hid, if_pos hid⟩

/-! ## What stays -/

/-- Nodes, switches and settings stay as they are, and no mailbox is closed. -/
structure Steady (net net' : Network) : Prop where
  settings : net'.settings = net.settings
  registry : net'.registry = net.registry
  posts : ∀ box : MailboxId, net'.mailboxes[box]?.map (fun b => (b.id, b.closed, b.switches)) =
    net.mailboxes[box]?.map fun b => (b.id, b.closed, b.switches)

namespace Steady

theorem refl (net : Network) : Steady net net := ⟨rfl, rfl, fun _ => rfl⟩

theorem trans (h : Steady net net') (h' : Steady net' net'') : Steady net net'' :=
  ⟨h'.settings.trans h.settings, h'.registry.trans h.registry,
    fun box => (h'.posts box).trans (h.posts box)⟩

theorem note (net : Network) (now : Nat) (what : Occurrence) : Steady net (net.note now what) :=
  ⟨rfl, rfl, fun _ => rfl⟩

/-- A mailbox in hand is changed and put back, and neither its node nor its switches have changed. -/
theorem putBack {b' : Mailbox} (found : net.mailboxes[box]? = some b)
    (hb : (b'.id, b'.closed, b'.switches) = (b.id, b.closed, b.switches))
    (hsettings : net'.settings = net.settings) (hregistry : net'.registry = net.registry)
    (hmailboxes : net'.mailboxes = net.mailboxes.set box b') : Steady net net' := by
  refine ⟨hsettings, hregistry, fun k => ?_⟩
  rw [hmailboxes, List.getElem?_set]
  split
  · next heq =>
    subst heq
    rw [if_pos (lt_length_of_getElem? found), found, Option.map_some, Option.map_some, hb]
  · rfl

/-- A change of one mailbox is steady if it leaves the owner, the closing and the switches of the
mailbox alone. -/
theorem modifyMailbox (net : Network) (box : MailboxId) {f : Mailbox → Mailbox}
    (hf : ∀ b, ((f b).id, (f b).closed, (f b).switches) = (b.id, b.closed, b.switches)) :
    Steady net (net.modifyMailbox box f) := by
  refine ⟨rfl, rfl, fun k => ?_⟩
  show (net.mailboxes.modify box f)[k]?.map _ = _
  rw [List.getElem?_modify]
  cases net.mailboxes[k]? with
  | none => rfl
  | some b => by_cases hk : box = k <;> simp [hk, hf]

/-- A node that a mailbox serves goes on being served by it. -/
theorem serves {node : PeerId} (h : Steady net net') (hs : net.Serves box node) :
    net'.Serves box node := by
  obtain ⟨b, found, rfl⟩ := hs
  have hpost := h.posts box
  rw [found, Option.map_some] at hpost
  obtain ⟨b', found', heq⟩ := Option.map_eq_some_iff.mp hpost
  exact ⟨b', found', congrArg Prod.fst heq⟩

/-- A node reads the same switches as before. -/
theorem switchesOf (h : Steady net net') (id : PeerId) : net'.switchesOf id = net.switchesOf id := by
  unfold Network.switchesOf mailbox?
  rw [h.registry]
  cases net.registry.get? id with
  | none => rfl
  | some box =>
    have hpost := congrArg (Option.map fun p => p.2.2) (h.posts box)
    rw [Option.map_map, Option.map_map] at hpost
    exact congrArg (·.getD {}) hpost

end Steady

/-- Waking somebody changes nothing that takers and senders see of the node. -/
theorem wakeOne_post (b : Mailbox) : (b.wakeOne.id, b.wakeOne.closed, b.wakeOne.switches) =
    (b.id, b.closed, b.switches) := by
  unfold Mailbox.wakeOne
  split <;> rfl

/-- Neither does a request that is pushed into the mailbox. -/
theorem push?_post {b' : Mailbox} (h : b.push? r = some b') :
    (b'.id, b'.closed, b'.switches) = (b.id, b.closed, b.switches) := by
  unfold Mailbox.push? at h
  split at h
  · cases h
  · cases h
    exact wakeOne_post _

/-- Neither does a taker that leaves the line. -/
theorem leave_post (t : TaskId) (b : Mailbox) :
    ((b.leave t).id, (b.leave t).closed, (b.leave t).switches) = (b.id, b.closed, b.switches) := by
  unfold Mailbox.leave
  split
  · rfl
  · exact wakeOne_post b

/-- No effect of a call touches nodes, switches or settings. -/
theorem Effect.steady (h : Effect puts net net') : Steady net net' := by
  cases h with
  | put now hputs found hfree hpush => exact .putBack found ((push?_post hpush).trans rfl) rfl rfl rfl
  | strike box key => exact .modifyMailbox net box fun _ => rfl
  | mark slip f hf => exact ⟨rfl, rfl, fun _ => rfl⟩
  | roll => exact ⟨rfl, rfl, fun _ => rfl⟩
  | remark now h => exact .note net now _
  | leave t box => exact .modifyMailbox net box (leave_post t)

/-- So calls of senders and repliers do not touch them. -/
theorem Effects.steady (h : Effects puts net net') : Steady net net' := by
  induction h with
  | refl => exact .refl net
  | tail _ hlast ih => exact ih.trans hlast.steady

/-- What a taker hands back after a look is steady as long as the mailbox has the same owner and
switches. -/
theorem handBack_steady (now : Nat) {b : Mailbox} (b' : Mailbox) (written : List Occurrence)
    (found : net.mailboxes[box]? = some b)
    (hb : (b'.id, b'.closed, b'.switches) = (b.id, b.closed, b.switches)) :
    Steady net (net.handBack now box b' written) :=
  .putBack found hb rfl rfl rfl

/-- A request that is received leaves nodes, switches and settings alone, even when it is in the wrong
place. -/
theorem receive_steady (now : Nat) (box : MailboxId) (b : Mailbox) (r : Request) (net : Network) :
    Steady net (net.receive now box b r).1 := by
  rcases receive_cases now box b r net with ⟨-, h⟩ | ⟨-, h⟩ | ⟨-, wake, h⟩
  · rw [h]
    exact .note net now _
  · rw [h]
    exact .refl net
  · rw [h]
    exact .refl net

/-- So does a whole look of a taker. -/
theorem Glance.steady {result : Network × TakeProgress} (h : Glance now t box net result) :
    Steady net result.1 := by
  cases h with
  | nowhere => exact .refl net
  | shut found hclosed => exact handBack_steady now _ _ found rfl
  | waits found hopen hdropped => exact handBack_steady now _ _ found rfl
  | @takes b dropped rest r found hopen hsplit hdropped hkept =>
    let taken : Mailbox := { b with wakeUp := false, requests := rest }
    exact (handBack_steady now taken _ found rfl).trans (receive_steady now box taken r _)

/-! ## The story -/

/-- What has happened, without the times. -/
def story (net : Network) : List Occurrence := net.journal.map (·.what)

/-- The story grows by what is noted. -/
theorem story_note (net : Network) (now : Nat) (what : Occurrence) :
    (net.note now what).story = net.story ++ [what] := List.map_append

/-- What a taker writes in its look is added to the story. -/
theorem handBack_story (now : Nat) (box : MailboxId) (b : Mailbox) (written : List Occurrence)
    (net : Network) : (net.handBack now box b written).story = net.story ++ written := by
  simp [story, handBack, Function.comp_def]

/-- Nothing has been written but what calls write. -/
def WritesTraffic (net net' : Network) : Prop :=
  ∃ written, net'.story = net.story ++ written ∧ ∀ what ∈ written, what.IsTraffic

namespace WritesTraffic

theorem of_eq (h : net'.journal = net.journal) : WritesTraffic net net' :=
  ⟨[], by rw [story, h, List.append_nil, story], List.forall_mem_nil _⟩

theorem refl (net : Network) : WritesTraffic net net := of_eq rfl

theorem trans (h : WritesTraffic net net') (h' : WritesTraffic net' net'') : WritesTraffic net net'' := by
  obtain ⟨written, hstory, hwritten⟩ := h
  obtain ⟨written', hstory', hwritten'⟩ := h'
  refine ⟨written ++ written', ?_, List.forall_mem_append.mpr ⟨hwritten, hwritten'⟩⟩
  rw [hstory', hstory, List.append_assoc]

theorem note (net : Network) (now : Nat) {what : Occurrence} (h : what.IsTraffic) :
    WritesTraffic net (net.note now what) :=
  ⟨[what], story_note net now what, List.forall_mem_singleton.mpr h⟩

end WritesTraffic

/-- Each effect writes nothing but traffic: what is sent, answered or raised. -/
theorem Effect.writesTraffic (h : Effect puts net net') : WritesTraffic net net' := by
  cases h with
  | put now hputs found hfree hpush => exact ⟨_, List.map_append, List.forall_mem_singleton.mpr (.sent _ _)⟩
  | strike box key => exact .of_eq rfl
  | mark slip f hf => exact .of_eq rfl
  | roll => exact .of_eq rfl
  | remark now h =>
    cases h with
    | answered box r outcome slip => exact .note net now (.answered box r outcome slip)
    | raised e => exact .note net now (.raised e)
  | leave t box => exact .of_eq rfl

/-- So do the effects of a call together. -/
theorem Effects.writesTraffic (h : Effects puts net net') : WritesTraffic net net' := by
  induction h with
  | refl => exact .refl net
  | tail _ hlast ih => exact ih.trans hlast.writesTraffic

/-- A reply that begins writes only traffic. -/
theorem beginReply_writesTraffic (now : Nat) (r : Request) (outcome : Outcome) (net : Network) :
    WritesTraffic net (net.beginReply now r outcome).1 := by
  have heffects : Effects (fun _ _ => False) net _ := beginReply_effects now r outcome net
  exact heffects.writesTraffic

/-- A reply that goes on writes only traffic. -/
theorem turnReply_writesTraffic (now : Nat) (stage : Replying) (net : Network) :
    WritesTraffic net (net.turnReply now stage).1 := by
  have heffects : Effects (fun _ _ => False) net _ := turnReply_effects now stage net
  exact heffects.writesTraffic

/-- A look of a taker writes what it takes and drops, and the error if it finds a stray request. -/
theorem Glance.writesTraffic {result : Network × TakeProgress} (h : Glance now t box net result) :
    WritesTraffic net result.1 := by
  have hdropped (dropped : List Request) :
      ∀ what ∈ dropped.map (Occurrence.dropped box t), what.IsTraffic :=
    List.forall_mem_map.mpr fun r _ => .dropped box t r
  cases h with
  | nowhere => exact .refl net
  | shut found hclosed => exact ⟨[], handBack_story now box _ [] net, List.forall_mem_nil _⟩
  | waits found hopen _ => exact ⟨_, handBack_story now box _ _ net, hdropped _⟩
  | @takes b dropped rest r found hopen hsplit _ hkept =>
    let taken : Mailbox := { b with wakeUp := false, requests := rest }
    have hback : WritesTraffic net (net.handBack now box taken
        (dropped.map (.dropped box t) ++ [.taken box t r])) :=
      ⟨_, handBack_story now box taken _ net,
        List.forall_mem_append.mpr ⟨hdropped dropped, List.forall_mem_singleton.mpr (.taken box t r)⟩⟩
    refine hback.trans ?_
    rcases receive_cases now box taken r (net.handBack now box taken
        (dropped.map (.dropped box t) ++ [.taken box t r])) with ⟨-, h⟩ | ⟨-, h⟩ | ⟨-, wake, h⟩
    · rw [h]
      exact .note _ now (.raised _)
    · rw [h]
      exact .refl _
    · rw [h]
      exact .refl _

/-- A taker that begins writes only traffic. -/
theorem beginTake_writesTraffic (now : Nat) (t : TaskId) (node : PeerId) (net : Network) :
    WritesTraffic net (net.beginTake now t node).1 := by
  unfold beginTake
  split
  · exact .refl net
  · next box _ =>
    dsimp only
    split
    · exact (takeFrom_glance now t box net).writesTraffic
    · exact .refl net

/-- A taker that goes on writes only traffic. -/
theorem turnTake_writesTraffic (now : Nat) (t : TaskId) (stage : Taking) (net : Network) :
    WritesTraffic net (net.turnTake now t stage).1 := by
  cases stage with
  | delayed box wake =>
    rw [turnTake]
    split
    · exact (takeFrom_glance now t box net).writesTraffic
    · exact .refl net
  | looking box =>
    rw [turnTake]
    split
    · exact (takeFrom_glance now t box net).writesTraffic
    · exact .refl net
  | holding box r wake =>
    rw [turnTake]
    split <;> exact .refl net

end Network

end Replica
