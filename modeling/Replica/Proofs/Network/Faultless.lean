import Replica.Network.Replying
import Replica.Network.Sending
import Replica.Network.Taking
import Replica.Proofs.Network.Closings
import Replica.Proofs.Network.Effects

/-!
# A node without faults

While no switch is set anywhere, no reply is delayed and nobody gives up, a node's mailbox and the slips of
its callers are known in full (`Plain`): the slips of callers that were answered are filled, those of the
others are blank and in the mailbox's table, in the order of the calls. Each call on the network says what
it makes of that.
-/

namespace Replica.Network

variable {net : Network} {node : PeerId} {box : MailboxId} {settings : Settings} {now : Nat} {t : TaskId}
variable {answered : List Outcome} {queue rest : List Request} {callers keys : List RequestKey}
variable {takers : List TaskId} {r : Request} {key : RequestKey} {outcome : Outcome} {slip : Nat}

/-- The table of callers with the keys, whose slips are numbered from the given one on. -/
def table : Nat → List RequestKey → List (RequestKey × SlipId)
  | _, [] => []
  | slip, key :: keys => (key, slip) :: table (slip + 1) keys

theorem table_concat (slip : Nat) (keys : List RequestKey) (key : RequestKey) :
    table slip (keys ++ [key]) = table slip keys ++ [(key, slip + keys.length)] := by
  induction keys generalizing slip with
  | nil => rfl
  | cons first keys ih =>
    have hslip : slip + 1 + keys.length = slip + (keys.length + 1) := by omega
    rw [List.cons_append, table, ih, hslip]
    rfl

theorem mem_of_mem_table {p : RequestKey × SlipId} (h : p ∈ table slip keys) : p.1 ∈ keys := by
  induction keys generalizing slip with
  | nil => cases h
  | cons first keys ih =>
    rcases List.mem_cons.mp h with rfl | h
    · exact List.mem_cons_self
    · exact List.mem_cons_of_mem first (ih h)

theorem lookup_table (h : key ∉ keys) : (table slip keys).lookup key = none := by
  rw [List.lookup_eq_none_iff]
  intro p hp
  rw [bne_iff_ne]
  rintro rfl
  exact h (mem_of_mem_table hp)

theorem filter_table (h : key ∉ keys) : (table slip keys).filter (·.1 ≠ key) = table slip keys := by
  rw [List.filter_eq_self]
  intro p hp
  rw [decide_eq_true_iff]
  rintro rfl
  exact h (mem_of_mem_table hp)

theorem modify_append_cons {α : Type} (l : List α) (a : α) (l' : List α) (f : α → α) :
    (l ++ a :: l').modify l.length f = l ++ f a :: l' := by
  induction l with
  | nil => rfl
  | cons b l ih =>
    rw [List.cons_append, List.length_cons, List.modify_succ_cons, ih]
    rfl

/-- The mailbox of the node has the queue, the callers that wait for an answer, and the takers that wait
for a request; the callers before them have the answers. -/
structure Plain (node : PeerId) (box : MailboxId) (settings : Settings) (answered : List Outcome)
    (queue : List Request) (callers : List RequestKey) (takers : List TaskId) (net : Network) : Prop where
  set : net.settings = settings
  registered : net.registry.get? node = some box
  calm : ∀ b ∈ net.mailboxes, b.switches = {}
  mailbox : ∃ wakeUp, net.mailboxes[box]? = some
    { id := node, requests := queue, takers, wakeUp, replies := table answered.length callers }
  slips : net.slips = answered.map .filled ++ callers.map fun _ => .blank

theorem switchesOf_of_calm (h : ∀ b ∈ net.mailboxes, b.switches = {}) (id : PeerId) :
    net.switchesOf id = {} := by
  unfold switchesOf
  cases hget : net.mailbox? id with
  | none => rfl
  | some b =>
    obtain ⟨k, -, hk⟩ := Option.bind_eq_some_iff.mp hget
    exact h b (List.mem_of_getElem? hk)

namespace Plain

/-- All that changes is the mailbox. -/
theorem put (h : Plain node box settings answered queue callers takers net) {net' : Network}
    {b : Mailbox} {queue' : List Request} {takers' : List TaskId} {wakeUp : Bool}
    (hb : b =
      { id := node, requests := queue', takers := takers', wakeUp, replies := table answered.length callers })
    (hset : net'.settings = net.settings) (hregistry : net'.registry = net.registry)
    (hslips : net'.slips = net.slips) (hmailboxes : net'.mailboxes = net.mailboxes.set box b) :
    Plain node box settings answered queue' callers takers' net' where
  set := hset.trans h.set
  registered := by rw [hregistry, h.registered]
  calm c hc := by
    rw [hmailboxes] at hc
    rcases List.mem_or_eq_of_mem_set hc with hc | rfl
    · exact h.calm c hc
    · rw [hb]
  mailbox := by
    obtain ⟨_, found⟩ := h.mailbox
    refine ⟨wakeUp, ?_⟩
    rw [hmailboxes, List.getElem?_set_self (lt_length_of_getElem? found), hb]
  slips := hslips.trans h.slips

theorem note (h : Plain node box settings answered queue callers takers net) (now : Nat)
    (what : Occurrence) : Plain node box settings answered queue callers takers (net.note now what) :=
  ⟨h.set, h.registered, h.calm, h.mailbox, h.slips⟩

/-! ## Callers -/

theorem checkSlip_answered (h : Plain node box settings answered queue callers takers net)
    (hslip : answered[slip]? = some outcome) (deadline : Nat) :
    net.checkSlip now box r slip deadline = (net, .ended outcome) := by
  have hfilled : net.slips[slip]? = some (.filled outcome) := by
    rw [h.slips, List.getElem?_append_left, List.getElem?_map, hslip]
    · rfl
    · rw [List.length_map]
      exact lt_length_of_getElem? hslip
  rw [checkSlip, hfilled]

theorem slip_blank (h : Plain node box settings answered queue callers takers net)
    (hge : answered.length ≤ slip) (hlt : slip < answered.length + callers.length) :
    net.slips[slip]? = some .blank := by
  have hlength : (answered.map Slip.filled).length ≤ slip := by rwa [List.length_map]
  rw [h.slips, List.getElem?_append_right hlength, List.getElem?_map, List.length_map,
    List.getElem?_eq_getElem (Nat.sub_lt_left_of_lt_add hge hlt)]
  rfl

theorem checkSlip_blank (h : Plain node box settings answered queue callers takers net)
    (hge : answered.length ≤ slip) (hlt : slip < answered.length + callers.length) {deadline : Nat}
    (htime : now < deadline) :
    net.checkSlip now box r slip deadline = (net, .waiting (.waiting box r slip deadline)) := by
  obtain ⟨_, found⟩ := h.mailbox
  rw [checkSlip, h.slip_blank hge hlt, found]
  exact if_neg (by omega)

/-- A new caller waits, and its request is the last in the queue. Nobody waits for requests any more. -/
theorem beginSend (h : Plain node box settings answered queue callers takers net)
    (hreplier : r.replier = node) (hkey : r.key ∉ callers) (htime : 0 < settings.replyTimeout.toNat)
    (now : Nat) :
    Plain node box settings answered (queue ++ [r]) (callers ++ [r.key]) takers.tail
        (net.beginSend now r).1 ∧
      (net.beginSend now r).2 = .waiting
        (.waiting box r (answered.length + callers.length) (now + settings.replyTimeout.toNat)) := by
  obtain ⟨wakeUp, found⟩ := h.mailbox
  let slip : Nat := answered.length + callers.length
  have hslips : net.slips.length = slip := by simp [h.slips, slip]
  obtain ⟨woken, hpush⟩ : ∃ woken, (Mailbox.enter r.key net.slips.length
      { id := node, requests := queue, takers, wakeUp, replies := table answered.length callers }).push?
        r = some
          { id := node, requests := queue ++ [r], takers := takers.tail, wakeUp := woken,
            replies := table answered.length (callers ++ [r.key]) } := by
    rw [hslips, table_concat]
    cases takers with
    | nil => exact ⟨true, rfl⟩
    | cons taker takers => exact ⟨wakeUp, rfl⟩
  let b : Mailbox :=
    { id := node, requests := queue ++ [r], takers := takers.tail, wakeUp := woken,
      replies := table answered.length (callers ++ [r.key]) }
  let sent : Network := { net with
    mailboxes := net.mailboxes.set box b
    slips := net.slips ++ [Slip.blank] }
  have hsent : Plain node box settings answered (queue ++ [r]) (callers ++ [r.key]) takers.tail
      (sent.note now (.sent box r)) := by
    refine ⟨h.set, h.registered, fun c hc => ?_, ⟨woken, ?_⟩, ?_⟩
    · rcases List.mem_or_eq_of_mem_set hc with hc | rfl
      · exact h.calm c hc
      · rfl
    · exact List.getElem?_set_self (lt_length_of_getElem? found)
    · show net.slips ++ [Slip.blank] = _
      rw [h.slips, List.append_assoc, List.map_append]
      rfl
  have hbegin : net.beginSend now r = (sent.note now (.sent box r)).checkSlip now box r slip
      (now + net.settings.replyTimeout.toNat) := by
    have hnone : (table answered.length callers).lookup r.key = none := lookup_table hkey
    rw [Network.beginSend, hreplier, h.registered]
    show net.trySend now box r = _
    rw [trySend, found]
    show net.enqueue now box _ r = _
    rw [enqueue, Mailbox.slip?, hnone]
    dsimp only
    rw [hpush]
    dsimp only
    rw [hslips]
  have hblank : (sent.note now (.sent box r)).checkSlip now box r slip
      (now + settings.replyTimeout.toNat) = _ :=
    hsent.checkSlip_blank (Nat.le_add_right _ _) (by simp) (Nat.lt_add_of_pos_right htime)
  rw [hbegin, h.set, hblank]
  exact ⟨hsent, rfl⟩

/-! ## Takers -/

theorem drops_eq (h : Plain node box settings answered queue callers takers net) (r : Request) :
    net.drops node r = false := by
  rw [drops, switchesOf_of_calm h.calm, Bool.and_false]

/-- A taker gets the first request of the queue. -/
theorem takeFrom_cons (h : Plain node box settings answered (r :: rest) callers takers net)
    (hreplier : r.replier = node) (now : Nat) (t : TaskId) :
    Plain node box settings answered rest callers takers (net.takeFrom now t box).1 ∧
      (net.takeFrom now t box).2 = .ended (.ok r) := by
  obtain ⟨wakeUp, found⟩ := h.mailbox
  let b : Mailbox :=
    { id := node, requests := rest, takers, wakeUp := false, replies := table answered.length callers }
  let taken : Network := { net with mailboxes := net.mailboxes.set box b }
  have hput : Plain node box settings answered rest callers takers taken := h.put rfl rfl rfl rfl rfl
  have htaken := hput.note now (.taken box t r)
  have htake : net.takeFrom now t box = (taken.note now (.taken box t r)).receive now box b r := by
    have hdrops := h.drops_eq r
    rw [takeFrom, found]
    simp [hdrops, taken, b]
  rw [htake, receive, if_neg (not_not_intro hreplier), switchesOf_of_calm htaken.calm]
  exact ⟨htaken, rfl⟩

theorem takeFrom_nil (h : Plain node box settings answered [] callers takers net) (now : Nat)
    (t : TaskId) :
    Plain node box settings answered [] callers (takers ++ [t]) (net.takeFrom now t box).1 ∧
      (net.takeFrom now t box).2 = .waiting (.looking box) := by
  obtain ⟨wakeUp, found⟩ := h.mailbox
  rw [takeFrom, found]
  exact ⟨h.put rfl rfl rfl rfl rfl, rfl⟩

theorem beginTake_eq (h : Plain node box settings answered queue callers takers net) (now : Nat)
    (t : TaskId) : net.beginTake now t node = net.takeFrom now t box := by
  rw [beginTake, h.registered]
  show (if (net.switchesOf node).delayTo = 0 then _ else _) = _
  rw [switchesOf_of_calm h.calm]
  rfl

theorem isWoken_eq (h : Plain node box settings answered queue callers takers net) (t : TaskId) :
    net.isWoken t box = decide (t ∉ takers) := by
  obtain ⟨wakeUp, found⟩ := h.mailbox
  rw [isWoken, found]

/-! ## Replies -/

/-- The first caller that waits is answered. -/
theorem deliver (h : Plain node box settings answered queue (r.key :: keys) takers net)
    (hreplier : r.replier = node) (hkey : r.key ∉ keys) (now : Nat) (outcome : Outcome) :
    Plain node box settings (answered ++ [outcome]) queue keys takers (net.deliver now r outcome) := by
  obtain ⟨wakeUp, found⟩ := h.mailbox
  let b : Mailbox :=
    { id := node, requests := queue, takers, wakeUp, replies := table answered.length (r.key :: keys) }
  have hslip : b.slip? r.key = some answered.length := List.lookup_cons_self
  have hdeliver : net.deliver now r outcome = ((net.modifyMailbox box (·.strike r.key)).modifySlip
      answered.length (·.fill outcome)).note now (.answered box r outcome answered.length) := by
    rw [Network.deliver, hreplier, h.registered]
    dsimp only
    rw [found, Option.bind_some, hslip]
  have hstrike : (table answered.length (r.key :: keys)).filter (·.1 ≠ r.key) =
      table (answered ++ [outcome]).length keys := by
    rw [table, List.filter_cons_of_neg (by simp), filter_table hkey, List.length_append]
    rfl
  rw [hdeliver]
  refine ⟨h.set, h.registered, fun c hc => ?_, ⟨wakeUp, ?_⟩, ?_⟩
  · obtain ⟨k, hk⟩ := List.getElem?_of_mem hc
    obtain ⟨c', found', rfl⟩ := getElem?_modify_eq_some_iff.mp hk
    have hcalm := h.calm c' (List.mem_of_getElem? found')
    split <;> exact hcalm
  · show (net.mailboxes.modify box _)[box]? = _
    rw [List.getElem?_modify_eq, found]
    show some (Mailbox.strike r.key _) = _
    rw [Mailbox.strike, hstrike]
  · have hslips := modify_append_cons (answered.map Slip.filled) Slip.blank
      (keys.map fun _ => Slip.blank) (·.fill outcome)
    rw [List.length_map] at hslips
    show net.slips.modify answered.length _ = _
    rw [h.slips, List.map_append, List.append_assoc]
    exact hslips

/-- There is no latency, so that whoever replies need not wait. -/
theorem beginReply (h : Plain node box settings answered queue (r.key :: keys) takers net)
    (hreplier : r.replier = node) (hkey : r.key ∉ keys) (hlatency : settings.latency = 0) (now : Nat)
    (hanswers : answers r outcome = true) :
    Plain node box settings (answered ++ [outcome]) queue keys takers
        (net.beginReply now r outcome).1 ∧
      (net.beginReply now r outcome).2 = .ended (.ok ()) := by
  have hdelay : net.beginReply now r outcome = Network.beginReply.delay now r outcome net := by
    cases outcome with
    | ok reply => rw [Network.beginReply, if_pos hanswers]
    | error e => rfl
  have hlatency : Latency.sampleAny net.roll.2.settings.latency net.roll.1 = 0 := by
    show Latency.sampleAny net.settings.latency _ = 0
    rw [h.set, hlatency]
    rfl
  have hroll : Plain node box settings answered queue (r.key :: keys) takers net.roll.2 :=
    ⟨h.set, h.registered, h.calm, h.mailbox, h.slips⟩
  rw [hdelay, Network.beginReply.delay]
  dsimp only
  rw [if_pos hlatency]
  exact ⟨hroll.deliver hreplier hkey now outcome, rfl⟩

end Plain

end Replica.Network
