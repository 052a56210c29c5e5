import Replica.Proofs.Network.Replies

/-!
# Turns of senders and repliers

What one turn can come to, as a relation between the network before it and its result: for a sender
that has entered nothing yet (`Admission`), for one that looks at its slip (`Look`), and for somebody
who replies (`ReplyTurn`). Nothing that uses these relations opens the functions again.
-/

namespace Replica

/-- The outcome on the slip that the sender looks at. -/
def Sending.read? (net : Network) : Sending → Option Outcome
  | .blocked .. => none
  | .waiting _ _ slip _ =>
    match net.slips[slip]? with
    | some (.filled outcome) => some outcome
    | _ => none

namespace Network

variable {net net' net'' : Network} {box : MailboxId} {b : Mailbox} {r : Request}
variable {key : RequestKey} {slip : SlipId} {outcome : Outcome} {deadline : Nat}

/-! ## A caller is entered -/

/-- A caller is entered under the key in the table of the mailbox, with a new slip; it may have left
again. -/
structure EntersCaller (box : MailboxId) (key : RequestKey) (net net' : Network) : Prop where
  slips : net'.slips.length = net.slips.length + 1
  awaits : ∀ box' key' slip, net'.Awaits box' key' slip →
    net.Awaits box' key' slip ∨ (box' = box ∧ key' = key ∧ slip = net.slips.length)
  written : ∀ slip outcome, net'.Written slip outcome ↔ net.Written slip outcome
  serves : ∀ box node, net.Serves box node → net'.Serves box node
  registry : ∀ node box, (node, box) ∈ net'.registry →
    (node, box) ∈ net.registry ∨ net'.Serves box node

/-- A caller that was entered stays so while replies are kept. -/
theorem EntersCaller.keeps (h : EntersCaller box key net net') (h' : KeepsReplies net' net'') :
    EntersCaller box key net net'' where
  slips := h'.slips.trans h.slips
  awaits box' key' slip hw := h.awaits _ _ _ (h'.awaits _ _ _ hw)
  written slip outcome := (h'.written slip outcome).trans (h.written slip outcome)
  serves box node hs := h'.serves _ _ (h.serves _ _ hs)
  registry node box hmem := by
    rcases h'.registry node box hmem with hmem | hs
    · exact (h.registry node box hmem).imp_right (h'.serves _ _)
    · exact .inr hs

/-- What is written on a slip is written on one that was handed out. -/
theorem Written.lt (h : net.Written slip outcome) : slip < net.slips.length :=
  lt_length_of_getElem? h

/-- Slips are unique after a caller was entered: it has a new one. -/
theorem EntersCaller.slipsUnique (h : EntersCaller box key net net') (hnet : net.SlipsUnique) :
    net'.SlipsUnique where
  known box' key' slip hw := by
    rw [h.slips]
    rcases h.awaits _ _ _ hw with hw | ⟨-, -, rfl⟩
    · exact Nat.lt_succ_of_lt (hnet.known _ _ _ hw)
    · exact Nat.lt_succ_self _
  apart box₁ box₂ key₁ key₂ slip h₁ h₂ := by
    rcases h.awaits _ _ _ h₁ with h₁ | ⟨rfl, rfl, rfl⟩ <;>
      rcases h.awaits _ _ _ h₂ with h₂ | ⟨rfl, rfl, heq⟩
    · exact hnet.apart _ _ _ _ _ h₁ h₂
    -- the slip of the new caller is beyond all slips that were handed out before
    · exact absurd (hnet.known _ _ _ h₁) (heq ▸ Nat.lt_irrefl _)
    · exact absurd (hnet.known _ _ _ h₂) (Nat.lt_irrefl _)
    · exact ⟨rfl, rfl⟩
  unwritten box' key' slip outcome hw hwritten := by
    have hwritten := (h.written _ _).mp hwritten
    rcases h.awaits _ _ _ hw with hw | ⟨-, -, rfl⟩
    · exact hnet.unwritten _ _ _ _ hw hwritten
    · exact Nat.lt_irrefl _ hwritten.lt
  registered node box hmem := by
    rcases h.registry node box hmem with hmem | hs
    · exact h.serves _ _ (hnet.registered node box hmem)
    · exact hs

/-! ## Senders -/

/-- What comes of a sender that looks at its slip. -/
inductive Look (box : MailboxId) (r : Request) (slip : SlipId) (deadline : Nat) (net : Network) :
    Network × SendProgress → Prop where
  /-- It reads the outcome. -/
  | reads (outcome : Outcome) (h : net.Written slip outcome) :
    Look box r slip deadline net (net, .ended outcome)
  /-- It goes on waiting. -/
  | waits (h : ∀ outcome, ¬ net.Written slip outcome) :
    Look box r slip deadline net (net, .waiting (.waiting box r slip deadline))
  /-- It ends without having read anything. -/
  | leaves {net' : Network} (e : ServerError) (h : ∀ outcome, ¬ net.Written slip outcome)
    (hkeeps : KeepsReplies net net') : Look box r slip deadline net (net', .ended (.error e))

/-- Striking a caller keeps replies. -/
theorem strike_keepsReplies (box : MailboxId) (key : RequestKey) (net : Network) :
    KeepsReplies net (net.modifyMailbox box (·.strike key)) :=
  .modifyMailbox net box (fun _ => rfl) (fun _ => List.filter_subset_self _)

/-- A caller that looks at its slip has read it, goes on waiting, or gives up. -/
theorem checkSlip_look (now : Nat) (box : MailboxId) (r : Request) (slip : SlipId) (deadline : Nat)
    (net : Network) : Look box r slip deadline net (net.checkSlip now box r slip deadline) := by
  unfold checkSlip
  split
  · next outcome found => exact .reads outcome found
  · next found _ =>
    exact .leaves _ (fun outcome hw => nomatch found.symm.trans hw) (.refl net)
  · next found _ =>
    have hblank (outcome : Outcome) : ¬ net.Written slip outcome :=
      fun hw => nomatch found.symm.trans hw
    split
    · exact .leaves _ hblank (strike_keepsReplies box r.key net)
    · exact .waits hblank
  · next hread _ _ => exact .waits hread

/-- What comes of a sender that has entered nothing yet. -/
inductive Admission (box : MailboxId) (r : Request) (net : Network) :
    Network × SendProgress → Prop where
  | blocked (wake : Nat) : Admission box r net (net, .waiting (.blocked box r wake))
  | refused (e : ServerError) : Admission box r net (net, .ended (.error e))
  | entered {net' : Network} (deadline : Nat) (h : EntersCaller box r.key net net') :
    Admission box r net (net', .waiting (.waiting box r net.slips.length deadline))
  /-- It has entered its request, but does not wait any longer. -/
  | overdue {net' : Network} (e : ServerError) (h : EntersCaller box r.key net net') :
    Admission box r net (net', .ended (.error e))

/-- A request that is pushed leaves the table alone. -/
theorem push?_eq_some {b' : Mailbox} (h : b.push? r = some b') :
    b'.replies = b.replies ∧ b'.id = b.id := by
  unfold Mailbox.push? at h
  split at h
  · cases h
  · cases h
    exact wakeOne_replies _

/-- A caller's slip is entered, together with its request. -/
theorem EntersCaller.push {b' : Mailbox} (found : net.mailboxes[box]? = some b)
    (hpush : (b.enter key net.slips.length).push? r = some b') :
    EntersCaller box key net { net with
      mailboxes := net.mailboxes.set box b'
      slips := net.slips ++ [Slip.blank] } := by
  obtain ⟨hreplies, hid⟩ := push?_eq_some hpush
  have hset := set_eq_modify (fun _ => b') found
  -- only the table of the one mailbox is longer, by the entry with the new slip
  constructor
  · exact List.length_append
  · intro box' key' slip hw
    obtain ⟨c', hc, hmem⟩ := hw
    rw [hset] at hc
    obtain ⟨c, hold, rfl⟩ := getElem?_modify_eq_some_iff.mp hc
    split at hmem
    · next heq =>
      subst heq
      rw [hreplies] at hmem
      rcases List.mem_append.mp hmem with hmem | hmem
      · exact .inl ⟨b, found, hmem⟩
      · cases List.mem_singleton.mp hmem
        exact .inr ⟨rfl, rfl, rfl⟩
    · exact .inl ⟨c, hold, hmem⟩
  · intro slip outcome
    have hblank : (Slip.blank : Slip) ≠ .filled outcome := nofun
    exact getElem?_concat_eq_some_iff.trans (or_iff_left fun h => hblank h.2)
  · intro box' node hs
    obtain ⟨c, hold, rfl⟩ := hs
    refine ⟨_, (congrArg (·[box']?) hset).trans (getElem?_modify_eq_some_iff.mpr ⟨c, hold, rfl⟩), ?_⟩
    split
    · next heq =>
      subst heq
      rw [Option.some.inj (hold.symm.trans found)]
      exact hid
    · rfl
  · exact fun _ _ => .inl

/-- A sender at a mailbox is entered with its request, or refused: the mailbox is closed, or the key is
in use. -/
theorem enqueue_admission (now : Nat) (found : net.mailboxes[box]? = some b) :
    Admission box r net (net.enqueue now box b r) := by
  unfold enqueue
  split
  · exact .refused _
  · dsimp only
    split
    · exact .refused _
    · next b' hpush =>
      have henters := (EntersCaller.push found hpush).keeps (.note _ now (.sent box r))
      -- the slip is new, so the caller that looks at it at once finds nothing
      have hblank (outcome : Outcome) : ¬ net.Written net.slips.length outcome :=
        fun hw => Nat.lt_irrefl _ hw.lt
      have hlook := checkSlip_look now box r net.slips.length
        (now + net.settings.replyTimeout.toNat) ({ net with
          mailboxes := net.mailboxes.set box b'
          slips := net.slips ++ [Slip.blank] } |>.note now (.sent box r))
      revert hlook
      generalize checkSlip _ _ _ _ _ _ = result
      intro hlook
      cases hlook with
      | reads outcome h => exact absurd ((henters.written _ _).mp h) (hblank outcome)
      | waits _ => exact .entered _ henters
      | leaves e _ hkeeps => exact .overdue e (henters.keeps hkeeps)

/-- A sender that has entered nothing is admitted, refused, blocked or told that the node is not there.
-/
theorem trySend_admission (now : Nat) (box : MailboxId) (r : Request) (net : Network) :
    Admission box r net (net.trySend now box r) := by
  unfold trySend
  split
  · exact .refused _
  · next b found =>
    split
    · exact .blocked _
    · exact enqueue_admission now found

/-- A sender that is cancelled keeps replies, its own slip apart. -/
theorem cancelSend_keepsReplies (stage : Sending) (net : Network) :
    KeepsReplies net (net.cancelSend stage) := by
  cases stage with
  | blocked box r wake => exact .refl net
  | waiting box r slip deadline => exact .modifySlip net slip fun _ _ => filled_abandon_iff

/-! ## Replies -/

/-- The slip of the caller that a reply to the request reaches by now. -/
def caller? (r : Request) (net : Network) : Option SlipId :=
  (net.registry.get? r.replier).bind fun box => net.mailboxes[box]?.bind (·.slip? r.key)

/-- The caller with the slip waits no more, and nothing but the outcome may have been written, on
that slip only. -/
structure ReachesCaller (slip : SlipId) (outcome : Outcome) (net net' : Network) : Prop where
  slips : net'.slips.length = net.slips.length
  awaits : ∀ box key slip', net'.Awaits box key slip' → net.Awaits box key slip' ∧ slip' ≠ slip
  written : ∀ slip' outcome', net'.Written slip' outcome' →
    net.Written slip' outcome' ∨ (slip' = slip ∧ outcome' = outcome)
  keeps : ∀ slip' outcome', net.Written slip' outcome' → net'.Written slip' outcome'
  serves : ∀ box node, net.Serves box node → net'.Serves box node
  registry : ∀ node box, (node, box) ∈ net'.registry → (node, box) ∈ net.registry

/-- Slips are unique after a reply has reached a caller. -/
theorem ReachesCaller.slipsUnique (h : ReachesCaller slip outcome net net') (hnet : net.SlipsUnique) :
    net'.SlipsUnique where
  known box key slip' hw := h.slips ▸ hnet.known _ _ _ (h.awaits _ _ _ hw).1
  apart box₁ box₂ key₁ key₂ slip' h₁ h₂ :=
    hnet.apart _ _ _ _ _ (h.awaits _ _ _ h₁).1 (h.awaits _ _ _ h₂).1
  unwritten box key slip' outcome' hw hwritten := by
    obtain ⟨hw, hne⟩ := h.awaits _ _ _ hw
    rcases h.written _ _ hwritten with hwritten | ⟨heq, -⟩
    · exact hnet.unwritten _ _ _ _ hw hwritten
    · exact hne heq
  registered node box hmem := h.serves _ _ (hnet.registered node box (h.registry node box hmem))

/-- A slip that is filled after a reply was filled before or has this reply. -/
theorem filled_fill {s : Slip} {outcome' : Outcome} (h : s.fill outcome = .filled outcome') :
    s = .filled outcome' ∨ outcome' = outcome := by
  cases s with
  | blank =>
    cases h
    exact .inr rfl
  | filled _ => exact .inl h
  | void => exact .inl h
  | abandoned => exact .inl h

/-- A caller that is reached waits under the request's key at the node that replies. -/
theorem awaits_of_caller? (hnet : net.SlipsUnique) (h : net.caller? r = some slip) :
    ∃ box, net.Awaits box r.key slip ∧ net.Serves box r.replier := by
  obtain ⟨box, hbox, h⟩ := Option.bind_eq_some_iff.mp h
  obtain ⟨b, found, h⟩ := Option.bind_eq_some_iff.mp h
  obtain ⟨l₁, l₂, heq, -⟩ := List.lookup_eq_some_iff.mp h
  exact ⟨box, ⟨b, found, heq ▸ by simp⟩, hnet.serves hbox⟩

/-- A reply that nobody waits for does nothing. -/
theorem deliver_of_none (now : Nat) (outcome : Outcome) (h : net.caller? r = none) :
    net.deliver now r outcome = net := by
  unfold deliver
  unfold caller? at h
  split
  · rfl
  · next box hbox =>
    rw [hbox, Option.bind_some] at h
    rw [h]

/-- A reply reaches the caller that waits under its key. -/
theorem deliver_reaches (now : Nat) (outcome : Outcome) (hnet : net.SlipsUnique)
    (h : net.caller? r = some slip) :
    ReachesCaller slip outcome net (net.deliver now r outcome) := by
  obtain ⟨box, hbox, hslip⟩ := Option.bind_eq_some_iff.mp h
  obtain ⟨b, found, hlookup⟩ := Option.bind_eq_some_iff.mp hslip
  obtain ⟨l₁, l₂, heq, -⟩ := List.lookup_eq_some_iff.mp hlookup
  have hwaits : net.Awaits box r.key slip := ⟨b, found, heq ▸ by simp⟩
  have hstrike := strike_keepsReplies box r.key net
  unfold deliver
  simp only [hbox, hslip]
  constructor
  · exact List.length_modify ..
  · intro box' key' slip' hw
    obtain ⟨c', hc', hmem⟩ := hw
    obtain ⟨c, hc, rfl⟩ := getElem?_modify_eq_some_iff.mp hc'
    have hbefore : net.Awaits box' key' slip' := hstrike.awaits _ _ _ ⟨_, hc', hmem⟩
    refine ⟨hbefore, fun heq => ?_⟩
    -- the slip is in no other place, and its own place is struck
    subst heq
    obtain ⟨rfl, rfl⟩ := hnet.apart _ _ _ _ _ hwaits hbefore
    rw [if_pos rfl] at hmem
    simpa using (List.mem_filter.mp hmem).2
  · intro slip' outcome' hwritten
    obtain ⟨s, hs, hfill⟩ := getElem?_modify_eq_some_iff.mp hwritten
    split at hfill
    · next heq =>
      subst heq
      exact (filled_fill hfill).imp (fun hs' => hs.trans (congrArg some hs')) fun ho => ⟨rfl, ho⟩
    · exact .inl (hs.trans (congrArg some hfill))
  · intro slip' outcome' hwritten
    refine getElem?_modify_eq_some_iff.mpr ⟨_, hwritten, ?_⟩
    split <;> rfl
  · exact hstrike.serves
  · exact fun _ _ => id

/-- What comes of a turn of somebody who replies. -/
inductive ReplyTurn (r : Request) (outcome : Outcome) (net : Network) :
    Network × ReplyProgress → Prop where
  | waits {net' : Network} (wake : Nat) (h : KeepsReplies net net') :
    ReplyTurn r outcome net (net', .waiting ⟨r, outcome, wake⟩)
  | refused {net' : Network} (e : ServerError) (h : KeepsReplies net net') :
    ReplyTurn r outcome net (net', .ended (.error e))
  | missed {net' : Network} (hcaller : net.caller? r = none) (h : KeepsReplies net net') :
    ReplyTurn r outcome net (net', .ended (.ok ()))
  | reached {net' : Network} (slip : SlipId) (hcaller : net.caller? r = some slip)
    (h : ReachesCaller slip outcome net net') : ReplyTurn r outcome net (net', .ended (.ok ()))

/-- Handing an outcome over reaches whoever waits, or nobody. -/
theorem deliver_turn (now : Nat) (r : Request) (outcome : Outcome) (hnet : net.SlipsUnique) :
    ReplyTurn r outcome net (net.deliver now r outcome, .ended (.ok ())) := by
  cases hcaller : net.caller? r with
  | none =>
    rw [deliver_of_none now outcome hcaller]
    exact .missed hcaller (.refl net)
  | some slip => exact .reached slip hcaller (deliver_reaches now outcome hnet hcaller)

/-- A reply whose latency has been drawn is handed over at once, or sleeps for that long. -/
theorem delay_turn (now : Nat) (r : Request) (outcome : Outcome) (hnet : net.SlipsUnique) :
    ReplyTurn r outcome net (beginReply.delay now r outcome net) := by
  have hroll : KeepsReplies net net.roll.2 := .of_eq rfl rfl rfl
  unfold beginReply.delay
  dsimp only
  split
  · -- drawing a number changes nothing that a delivery looks at
    have hturn := deliver_turn now r outcome (hroll.slipsUnique hnet)
    cases hturn with
    | missed hcaller h => exact .missed hcaller (hroll.trans h)
    | reached slip hcaller h => exact .reached slip hcaller ⟨h.1, h.2, h.3, h.4, h.5, h.6⟩
  · exact .waits _ hroll

/-- Whoever has an outcome that answers the request waits out the latency. -/
theorem beginReply_of_answers {now : Nat} (h : answers r outcome = true) :
    net.beginReply now r outcome = beginReply.delay now r outcome net := by
  cases outcome with
  | ok reply => rw [beginReply, if_pos h]
  | error e => rfl

/-- A reply that begins is refused, handed over at once, or sleeps. -/
theorem beginReply_turn (now : Nat) (r : Request) (outcome : Outcome) (hnet : net.SlipsUnique) :
    ReplyTurn r outcome net (net.beginReply now r outcome) := by
  unfold beginReply
  split
  · split
    · exact delay_turn now r _ hnet
    · exact .refused _ (.note net now _)
  · exact delay_turn now r _ hnet

/-- A reply that goes on is handed over or sleeps on. -/
theorem turnReply_turn (now : Nat) (stage : Replying) (hnet : net.SlipsUnique) :
    ReplyTurn stage.request stage.outcome net (net.turnReply now stage) := by
  unfold turnReply
  split
  · exact deliver_turn now stage.request stage.outcome hnet
  · exact .waits stage.wake (.refl net)

end Network

end Replica
