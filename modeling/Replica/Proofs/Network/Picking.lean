import Replica.Proofs.Network.Effects

/-!
# Which request a taker picks

A taker drops the requests of barred requestors, and picks the first other request. It goes round by round:
each round takes one request out of the mailbox, and drops it and goes round again, or keeps it; if there is
nothing left the taker waits (`Rounds`). So it makes no more rounds than there are requests
(`Rounds.le_length`), and whatever order they are in, it drops the longest possible beginning of them and
leaves the others where they are (`Picks`).
-/

namespace Replica.Network

variable {net net' : Network} {box k : MailboxId} {b : Mailbox} {r : Request} {t : TaskId} {id : PeerId}
variable {now n : Nat} {rest dropped : List Request} {result : Network × TakeProgress}

/-! ## Switches of requestors -/

/-- The node is registered, and its requests are dropped when they are taken. -/
def Bars (id : PeerId) (net : Network) : Prop :=
  ∃ b, net.mailbox? id = some b ∧ b.switches.dropFrom = true

/-- For how long requests of the node are held back when they are taken. Nobody holds back requests of a node
that is not registered. -/
def holdback (id : PeerId) (net : Network) : Nat :=
  match net.mailbox? id with
  | some b => Sleep.span b.switches.delayFrom.toNat
  | none => 0

theorem drops_iff : net.drops id r = true ↔ r.replier = id ∧ net.Bars r.requestor := by
  rw [drops, Bool.and_eq_true, beq_iff_eq, switchesOf, Bars]
  cases net.mailbox? r.requestor with
  | none => simp
  | some b => simp

theorem span_delayFrom (id : PeerId) (net : Network) :
    Sleep.span (net.switchesOf id).delayFrom.toNat = net.holdback id := by
  rw [switchesOf, holdback]
  cases net.mailbox? id with
  | none => rfl
  | some b => rfl

/-- The same nodes are registered, and all switches are as they were. -/
structure SameNodes (net net' : Network) : Prop where
  registry : net'.registry = net.registry
  switches : ∀ k : MailboxId,
    net'.mailboxes[k]?.map (·.switches) = net.mailboxes[k]?.map (·.switches)

namespace SameNodes

theorem refl (net : Network) : SameNodes net net := ⟨rfl, fun _ => rfl⟩

theorem trans {net'' : Network} (h : SameNodes net net') (h' : SameNodes net' net'') :
    SameNodes net net'' :=
  ⟨h'.registry.trans h.registry, fun k => (h'.switches k).trans (h.switches k)⟩

theorem of_steady (h : Steady net net') : SameNodes net net' := by
  refine ⟨h.registry, fun k => ?_⟩
  have hpost := congrArg (Option.map fun p => p.2.2) (h.posts k)
  rw [Option.map_map, Option.map_map] at hpost
  exact hpost

theorem mailbox? (h : SameNodes net net') (id : PeerId) :
    (net'.mailbox? id).map (·.switches) = (net.mailbox? id).map (·.switches) := by
  rw [Network.mailbox?, Network.mailbox?, h.registry]
  cases net.registry.get? id with
  | none => rfl
  | some box => exact h.switches box

theorem switchesOf (h : SameNodes net net') (id : PeerId) : net'.switchesOf id = net.switchesOf id :=
  congrArg (·.getD {}) (h.mailbox? id)

theorem drops (h : SameNodes net net') (id : PeerId) (r : Request) :
    net'.drops id r = net.drops id r := by
  rw [Network.drops, h.switchesOf, Network.drops]

theorem holdback (h : SameNodes net net') (id : PeerId) : net'.holdback id = net.holdback id := by
  rw [← span_delayFrom, h.switchesOf, span_delayFrom]

end SameNodes

/-! ## Rounds -/

/-- A taker goes round and round, and takes a request out of the mailbox `n` times. -/
inductive Rounds (now : Nat) (t : TaskId) (box : MailboxId) :
    Network → Nat → Network × TakeProgress → Prop where
  /-- Nothing is left, and it waits. -/
  | waits {net : Network} {b : Mailbox} (found : net.mailboxes[box]? = some b)
    (hopen : b.closed = false) (hempty : b.requests = []) :
    Rounds now t box net 0
      (net.handBack now box ({ b with wakeUp := false }.join t) [], .waiting (.looking box))
  /-- It drops the first request, and goes round again. -/
  | drops {net : Network} {b : Mailbox} {r : Request} {rest : List Request} {n : Nat}
    {result : Network × TakeProgress} (found : net.mailboxes[box]? = some b)
    (hopen : b.closed = false) (hrequests : b.requests = r :: rest) (hdrops : net.drops b.id r = true)
    (hrest : Rounds now t box
      (net.handBack now box { b with wakeUp := false, requests := rest } [.dropped box t r]) n result) :
    Rounds now t box net (n + 1) result
  /-- It keeps the first request. -/
  | keeps {net : Network} {b : Mailbox} {r : Request} {rest : List Request}
    (found : net.mailboxes[box]? = some b) (hopen : b.closed = false)
    (hrequests : b.requests = r :: rest) (hkeeps : net.drops b.id r = false) :
    Rounds now t box net 1
      ((net.handBack now box { b with wakeUp := false, requests := rest } [.taken box t r]).receive now box
        { b with wakeUp := false, requests := rest } r)

theorem mailboxes_handBack {b' : Mailbox} {written : List Occurrence}
    (found : net.mailboxes[box]? = some b) :
    (net.handBack now box b' written).mailboxes[box]? = some b' := by
  simp [handBack, lt_length_of_getElem? found]

theorem handBack_handBack (now : Nat) (box : MailboxId) (b b' : Mailbox) (written written' : List Occurrence)
    (net : Network) : (net.handBack now box b written).handBack now box b' written' =
      net.handBack now box b' (written ++ written') := by
  simp [handBack]

/-- What a taker drops does not depend on what is in the mailbox. -/
theorem drops_handBack (now : Nat) (b' : Mailbox) (found : net.mailboxes[box]? = some b)
    (hpost : (b'.id, b'.closed, b'.switches) = (b.id, b.closed, b.switches)) (written : List Occurrence)
    (id : PeerId) (r : Request) : (net.handBack now box b' written).drops id r = net.drops id r := by
  exact (SameNodes.of_steady (handBack_steady now b' written found hpost)).drops id r

/-- A taker that drops all that is there makes a round for each request, and waits. -/
theorem rounds_waits (found : net.mailboxes[box]? = some b) (hopen : b.closed = false)
    (hdrops : ∀ r ∈ b.requests, net.drops b.id r = true) :
    Rounds now t box net b.requests.length
      (net.handBack now box ({ b with wakeUp := false, requests := [] }.join t)
        (b.requests.map (.dropped box t)), .waiting (.looking box)) := by
  generalize hqueue : b.requests = queue at hdrops
  induction queue generalizing net b with
  | nil =>
    obtain ⟨id, requests, takers, wakeUp, replies, closed, switches⟩ := b
    cases hqueue
    exact .waits found hopen rfl
  | cons r rest ih =>
    have hsame := drops_handBack now { b with wakeUp := false, requests := rest } found rfl
      [.dropped box t r] b.id
    have hrest := ih (b := { b with wakeUp := false, requests := rest }) (mailboxes_handBack found) hopen rfl
      fun d hd => (hsame d).trans (hdrops d (List.mem_cons_of_mem _ hd))
    rw [handBack_handBack] at hrest
    exact .drops found hopen hqueue (hdrops r List.mem_cons_self) hrest

/-- A taker that comes to a request that it keeps makes a round for it and for each one before it. -/
theorem rounds_keeps (found : net.mailboxes[box]? = some b) (hopen : b.closed = false)
    (hsplit : b.requests = dropped ++ r :: rest) (hdrops : ∀ d ∈ dropped, net.drops b.id d = true)
    (hkeeps : net.drops b.id r = false) :
    Rounds now t box net (dropped.length + 1)
      ((net.handBack now box { b with wakeUp := false, requests := rest }
        (dropped.map (.dropped box t) ++ [.taken box t r])).receive now box
          { b with wakeUp := false, requests := rest } r) := by
  induction dropped generalizing net b with
  | nil => exact .keeps found hopen hsplit hkeeps
  | cons d dropped ih =>
    have hsame := drops_handBack now { b with wakeUp := false, requests := dropped ++ r :: rest } found rfl
      [.dropped box t d] b.id
    have hrest := ih (b := { b with wakeUp := false, requests := dropped ++ r :: rest })
      (mailboxes_handBack found) hopen rfl
      (fun x hx => (hsame x).trans (hdrops x (List.mem_cons_of_mem _ hx))) ((hsame r).trans hkeeps)
    rw [handBack_handBack] at hrest
    exact .drops found hopen hsplit (hdrops d List.mem_cons_self) hrest

/-- There is at most one round for each request. -/
theorem Rounds.le_length (h : Rounds now t box net n result) (found : net.mailboxes[box]? = some b) :
    n ≤ b.requests.length := by
  induction h generalizing b with
  | waits => exact Nat.zero_le _
  | drops found' hopen hrequests hdrops hrest ih =>
    cases found.symm.trans found'
    rw [hrequests]
    exact Nat.succ_le_succ (ih (mailboxes_handBack found))
  | keeps found' hopen hrequests =>
    cases found.symm.trans found'
    rw [hrequests]
    exact Nat.succ_le_succ (Nat.zero_le _)

/-- What a taker that finds its mailbox open does, it does in rounds, one for each request at most. -/
theorem takeFrom_rounds (now : Nat) (t : TaskId) (found : net.mailboxes[box]? = some b)
    (hopen : b.closed = false) :
    ∃ n ≤ b.requests.length, Rounds now t box net n (net.takeFrom now t box) := by
  suffices hrounds : ∃ n, Rounds now t box net n (net.takeFrom now t box) by
    obtain ⟨n, hn⟩ := hrounds
    exact ⟨n, hn.le_length found, hn⟩
  have hglance := takeFrom_glance now t box net
  generalize net.takeFrom now t box = result at hglance
  cases hglance with
  | nowhere hnone => cases found.symm.trans hnone
  | shut found' hclosed =>
    cases found.symm.trans found'
    cases hopen.symm.trans hclosed
  | waits found' _ hdropped =>
    cases found.symm.trans found'
    exact ⟨_, rounds_waits found hopen hdropped⟩
  | takes found' _ hsplit hdropped hkept =>
    cases found.symm.trans found'
    exact ⟨_, rounds_keeps found hopen hsplit hdropped hkept⟩

/-! ## What is picked -/

/-- A taker has gone through the requests `queue` of its mailbox: it has dropped some, picked the next one
if there was one, and left the others in their order. Nobody's slip was written on, nobody was struck from a
table, and the other mailboxes are as they were. -/
structure Picks (t : TaskId) (box : MailboxId) (queue dropped : List Request) (picked : Option Request)
    (rest : List Request) (net net' : Network) : Prop where
  split : queue = dropped ++ picked.toList ++ rest
  content : net'.mailboxes[box]?.map (fun b => (b.requests, b.closed)) = some (rest, false)
  story : ∃ raised, net'.story = net.story ++ dropped.map (.dropped box t) ++
    picked.toList.map (.taken box t) ++ raised ∧ ∀ what ∈ raised, ∃ e, what = .raised e
  slips : net'.slips = net.slips
  tables : ∀ k : MailboxId, net'.mailboxes[k]?.map (·.replies) = net.mailboxes[k]?.map (·.replies)
  others : ∀ k : MailboxId, k ≠ box → net'.mailboxes[k]? = net.mailboxes[k]?
  steady : Steady net net'

theorem picks_handBack (now : Nat) (b' : Mailbox) (picked : Option Request)
    (found : net.mailboxes[box]? = some b) (hopen : b.closed = false)
    (hsplit : b.requests = dropped ++ picked.toList ++ b'.requests) (hreplies : b'.replies = b.replies)
    (hpost : (b'.id, b'.closed, b'.switches) = (b.id, b.closed, b.switches)) :
    Picks t box b.requests dropped picked b'.requests net
      (net.handBack now box b' (dropped.map (.dropped box t) ++ picked.toList.map (.taken box t))) where
  split := hsplit
  content := by
    have hclosed : b'.closed = false := (congrArg (·.2.1) hpost).trans hopen
    rw [mailboxes_handBack found, Option.map_some, hclosed]
  story := by
    refine ⟨[], ?_, List.forall_mem_nil _⟩
    rw [handBack_story, List.append_nil, List.append_assoc]
  slips := rfl
  tables k := by
    rw [handBack, List.getElem?_set]
    split
    · next hk =>
      subst hk
      rw [if_pos (lt_length_of_getElem? found), found, Option.map_some, Option.map_some, hreplies]
    · rfl
  others k hk := by
    rw [handBack, List.getElem?_set_ne (Ne.symm hk)]
  steady := handBack_steady now b' _ found hpost

/-- A complaint about what was picked changes nothing. -/
theorem Picks.raise {queue : List Request} {picked : Option Request} (now : Nat) (e : ServerError)
    (h : Picks t box queue dropped picked rest net net') :
    Picks t box queue dropped picked rest net (net'.note now (.raised e)) where
  split := h.split
  content := h.content
  story := by
    obtain ⟨raised, hstory, hraised⟩ := h.story
    refine ⟨raised ++ [.raised e], ?_, List.forall_mem_append.mpr ⟨hraised, fun what hwhat => ⟨e, ?_⟩⟩⟩
    · rw [story_note, hstory, List.append_assoc]
    · exact List.mem_singleton.mp hwhat
  slips := h.slips
  tables := h.tables
  others := h.others
  steady := h.steady.trans (.note net' now _)

/-- What comes of a taker that looks into an open mailbox: all requests are dropped and it waits, or it has
one in hand that is not to be dropped. That one is for another node, or handed over, or held back for as
long as its requestor says. -/
theorem takeFrom_picks (now : Nat) (t : TaskId) (found : net.mailboxes[box]? = some b)
    (hopen : b.closed = false) :
    ((∀ r ∈ b.requests, net.drops b.id r = true) ∧
      Picks t box b.requests b.requests none [] net (net.takeFrom now t box).1 ∧
      (net.takeFrom now t box).2 = .waiting (.looking box)) ∨
    ∃ dropped r rest, (∀ d ∈ dropped, net.drops b.id d = true) ∧ net.drops b.id r = false ∧
      Picks t box b.requests dropped (some r) rest net (net.takeFrom now t box).1 ∧
      ((r.replier ≠ b.id ∧ (net.takeFrom now t box).2 = .ended (.error (misrouted b.id r))) ∨
        (r.replier = b.id ∧ net.holdback r.requestor = 0 ∧
          (net.takeFrom now t box).2 = .ended (.ok r)) ∨
        (r.replier = b.id ∧ (net.takeFrom now t box).2 =
          .waiting (.holding box r (now + net.holdback r.requestor)))) := by
  have hglance := takeFrom_glance now t box net
  generalize net.takeFrom now t box = result at hglance
  cases hglance with
  | nowhere hnone => cases found.symm.trans hnone
  | shut found' hclosed =>
    cases found.symm.trans found'
    cases hopen.symm.trans hclosed
  | waits found' _ hdropped =>
    cases found.symm.trans found'
    have hsplit : b.requests = b.requests ++ (none : Option Request).toList ++
        ({ b with wakeUp := false, requests := [] }.join t).requests := by simp [Mailbox.join]
    have hpicks := picks_handBack (t := t) now _ none found hopen hsplit rfl rfl
    rw [Option.toList_none, List.map_nil, List.append_nil] at hpicks
    exact .inl ⟨hdropped, hpicks, rfl⟩
  | @takes _ dropped rest r found' _ hsplit hdropped hkept =>
    cases found.symm.trans found'
    refine .inr ⟨dropped, r, rest, hdropped, hkept, ?_⟩
    let left : Mailbox := { b with wakeUp := false, requests := rest }
    have hpicks : Picks t box b.requests dropped (some r) rest net
        (net.handBack now box left (dropped.map (.dropped box t) ++ [.taken box t r])) :=
      picks_handBack now left (some r) found hopen (by simpa using hsplit) rfl rfl
    have hholdback : Sleep.span ((net.handBack now box left
        (dropped.map (.dropped box t) ++ [.taken box t r])).switchesOf r.requestor).delayFrom.toNat =
          net.holdback r.requestor := by
      rw [hpicks.steady.switchesOf, span_delayFrom]
    unfold receive
    by_cases hid : r.replier = b.id
    · rw [if_neg (not_not_intro hid)]
      dsimp only
      split
      · next hzero =>
        rw [hzero] at hholdback
        exact ⟨hpicks, .inr (.inl ⟨hid, hholdback.symm, rfl⟩)⟩
      · rw [Sleep.wake, hholdback]
        exact ⟨hpicks, .inr (.inr ⟨hid, rfl⟩)⟩
    · rw [if_pos hid]
      exact ⟨hpicks.raise now _, .inl ⟨hid, rfl⟩⟩

end Replica.Network
