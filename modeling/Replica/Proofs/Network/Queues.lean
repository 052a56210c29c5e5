import Replica.Proofs.Network.Turns

/-!
# What is queued, and what the journal says of it

The journal says which requests were put into a mailbox, taken out of it, and discarded when it was
closed. Whatever happens on a network is recorded there (`Recorded`), and what is written adds up
(`Moves`): the requests that were in a mailbox, followed by those that were put in, are those that
have left it, followed by those that are in it now. Nothing is put into a mailbox that is closed.

Requests are compared without their detours, which they may be given while they are queued.
-/

namespace Replica

/-- The request without its detour. -/
def Request.plain (r : Request) : Request := { r with detour := none }

/-- A detour is all that a detour changes. -/
theorem Request.plain_divert (owner : TaskId) (other : PeerId) (r : Request) :
    (r.divert owner other).plain = r.plain := by
  unfold divert
  split <;> rfl

namespace Occurrence

/-- The request that was put into the mailbox. -/
def pushed? (box : MailboxId) : Occurrence → Option Request
  | sent box' r => if box' = box then some r else none
  | _ => none

/-- The request that a taker took out of the mailbox. -/
def popped? (box : MailboxId) : Occurrence → Option Request
  | taken box' _ r | dropped box' _ r => if box' = box then some r else none
  | _ => none

/-- The requests that have left the mailbox. -/
def removed (box : MailboxId) : Occurrence → List Request
  | taken box' _ r | dropped box' _ r => if box' = box then [r] else []
  | discarded box' requests => if box' = box then requests else []
  | _ => []

/-- No request was moved. -/
def IsAside (what : Occurrence) : Prop :=
  ∀ box, what.pushed? box = none ∧ what.removed box = []

end Occurrence

namespace Network

variable {net net' net'' : Network} {box k : MailboxId} {b b' : Mailbox} {r : Request} {t : TaskId}
variable {written written' : List Occurrence} {now : Nat}

/-! ## The journal -/

/-- What was put into the mailbox, in order. -/
def pushes (box : MailboxId) (written : List Occurrence) : List Request :=
  (written.filterMap (·.pushed? box)).map Request.plain

/-- What takers took out of the mailbox, in order. -/
def pops (box : MailboxId) (written : List Occurrence) : List Request :=
  (written.filterMap (·.popped? box)).map Request.plain

/-- What has left the mailbox, in order. -/
def removals (box : MailboxId) (written : List Occurrence) : List Request :=
  (written.flatMap (·.removed box)).map Request.plain

@[simp] theorem pushes_nil : pushes box [] = [] := rfl

@[simp] theorem removals_nil : removals box [] = [] := rfl

/-- What is pushed in two stories is pushed story by story. -/
theorem pushes_append :
    pushes box (written ++ written') = pushes box written ++ pushes box written' := by
  simp [pushes]

/-- What is removed in two stories is removed story by story. -/
theorem removals_append :
    removals box (written ++ written') = removals box written ++ removals box written' := by
  simp [removals]

/-- What takers took out has left. -/
theorem pops_sublist_removals (box : MailboxId) (written : List Occurrence) :
    (pops box written).Sublist (removals box written) := by
  refine List.Sublist.map _ ?_
  induction written with
  | nil => exact List.Sublist.slnil
  | cons what written ih =>
    have hwhat : (what.popped? box).toList.Sublist (what.removed box) := by
      cases what with
      | taken box' t r =>
        by_cases hbox : box' = box <;> simp [Occurrence.popped?, Occurrence.removed, hbox]
      | dropped box' t r =>
        by_cases hbox : box' = box <;> simp [Occurrence.popped?, Occurrence.removed, hbox]
      | _ => exact List.nil_sublist _
    rw [List.flatMap_cons, List.filterMap_cons]
    cases hpopped : what.popped? box with
    | none => exact ih.trans (List.sublist_append_right _ _)
    | some r =>
      rw [hpopped] at hwhat
      exact hwhat.append ih

/-! ## The relation -/

/-- What is in the mailbox, in order. -/
def contents (box : MailboxId) (net : Network) : List Request :=
  ((net.mailboxes[box]?.map (·.requests)).getD []).map Request.plain

def IsClosed (net : Network) (box : MailboxId) : Prop :=
  ∃ b, net.mailboxes[box]? = some b ∧ b.closed = true

/-- The contents of a mailbox are what is queued there, detours apart. -/
theorem contents_of_found (found : net.mailboxes[box]? = some b) :
    net.contents box = b.requests.map Request.plain := by
  rw [contents, found]
  rfl

/-- What was written says how requests have moved. -/
structure Moves (written : List Occurrence) (net net' : Network) : Prop where
  balance : ∀ box, net.contents box ++ pushes box written =
    removals box written ++ net'.contents box
  closed : ∀ box, net.IsClosed box → pushes box written = [] ∧ net'.IsClosed box

/-- The journal has become longer, by what says how requests have moved. -/
def Recorded (net net' : Network) : Prop :=
  ∃ written, net'.journal.map (·.what) = net.journal.map (·.what) ++ written ∧
    Moves written net net'

/-- If two steps are written as they move requests, so are both together. -/
theorem Moves.trans (h : Moves written net net') (h' : Moves written' net' net'') :
    Moves (written ++ written') net net'' where
  balance box := by
    rw [pushes_append, removals_append, ← List.append_assoc, h.balance, List.append_assoc,
      h'.balance, List.append_assoc]
  closed box hbox := by
    obtain ⟨hnone, hclosed⟩ := h.closed box hbox
    obtain ⟨hnone', hclosed'⟩ := h'.closed box hclosed
    rw [pushes_append, hnone, hnone']
    exact ⟨rfl, hclosed'⟩

/-- No request has moved. -/
theorem Moves.of_same (hcontents : ∀ box, net'.contents box = net.contents box)
    (hclosed : ∀ box, net.IsClosed box → net'.IsClosed box) : Moves [] net net' where
  balance box := by rw [pushes_nil, removals_nil, List.append_nil, List.nil_append, hcontents]
  closed box hbox := ⟨rfl, hclosed box hbox⟩

/-- What has left a new network's mailbox was put in before, in that order. -/
theorem Moves.removals_prefix_pushes (h : Moves written net net') (hempty : net.contents box = []) :
    removals box written <+: pushes box written := by
  have hbalance := h.balance box
  rw [hempty, List.nil_append] at hbalance
  exact ⟨net'.contents box, hbalance.symm⟩

/-- Nothing leaves a mailbox that is closed and empty. -/
theorem Moves.removals_eq_nil (h : Moves written net net') (hclosed : net.IsClosed box)
    (hempty : net.contents box = []) : removals box written = [] := by
  have hleft := h.removals_prefix_pushes hempty
  rw [(h.closed box hclosed).1] at hleft
  exact List.prefix_nil.mp hleft

namespace Recorded

/-- What is recorded step by step is recorded. -/
theorem trans (h : Recorded net net') (h' : Recorded net' net'') : Recorded net net'' := by
  obtain ⟨written, hjournal, h⟩ := h
  obtain ⟨written', hjournal', h'⟩ := h'
  refine ⟨written ++ written', ?_, h.trans h'⟩
  rw [hjournal', hjournal, List.append_assoc]

/-- No request has moved, and nothing was written. -/
theorem of_same (hjournal : net'.journal = net.journal)
    (hcontents : ∀ box, net'.contents box = net.contents box)
    (hclosed : ∀ box, net.IsClosed box → net'.IsClosed box) : Recorded net net' := by
  refine ⟨[], ?_, .of_same hcontents hclosed⟩
  rw [hjournal, List.append_nil]

/-- Where neither mailboxes nor the journal have changed, there is nothing to record. -/
theorem of_eq (hmailboxes : net'.mailboxes = net.mailboxes) (hjournal : net'.journal = net.journal) :
    Recorded net net' := by
  refine of_same hjournal (fun box => ?_) (fun box hbox => ?_)
  · rw [contents, contents, hmailboxes]
  · rw [IsClosed, hmailboxes]
    exact hbox

theorem refl (net : Network) : Recorded net net := of_eq rfl rfl

/-- Something is noted that has moved no request. -/
theorem note (net : Network) (now : Nat) {what : Occurrence} (h : what.IsAside) :
    Recorded net (net.note now what) := by
  refine ⟨[what], ?_, fun box => ?_, fun box hbox => ⟨?_, hbox⟩⟩
  · exact List.map_append
  · show net.contents box ++ pushes box [what] = removals box [what] ++ net.contents box
    simp [pushes, removals, h box]
  · simp [pushes, h box]

/-- A mailbox in hand is changed and put back, and what has become of its requests is written. -/
theorem putBack (b' : Mailbox) (found : net.mailboxes[box]? = some b) (written : List Occurrence)
    (hmailboxes : net'.mailboxes = net.mailboxes.set box b')
    (hjournal : net'.journal.map (·.what) = net.journal.map (·.what) ++ written)
    (hhere : b.requests.map Request.plain ++ pushes box written =
      removals box written ++ b'.requests.map Request.plain)
    (hothers : ∀ k, k ≠ box → pushes k written = [] ∧ removals k written = [])
    (hclosed : b.closed = true → pushes box written = [] ∧ b'.closed = true) :
    Recorded net net' := by
  have hlt := lt_length_of_getElem? found
  have hself : net'.mailboxes[box]? = some b' := by
    rw [hmailboxes, List.getElem?_set_self hlt]
  have hne : ∀ k, k ≠ box → net'.mailboxes[k]? = net.mailboxes[k]? := by
    intro k hk
    rw [hmailboxes, List.getElem?_set_ne hk.symm]
  refine ⟨written, hjournal, fun k => ?_, fun k hk => ?_⟩
  · by_cases heq : k = box
    · subst heq
      rw [contents_of_found found, contents_of_found hself]
      exact hhere
    · obtain ⟨hpushes, hremovals⟩ := hothers k heq
      rw [hpushes, hremovals, List.append_nil, List.nil_append, contents, contents, hne k heq]
  · obtain ⟨c, hc, hcc⟩ := hk
    by_cases heq : k = box
    · subst heq
      obtain rfl := Option.some.inj (hc.symm.trans found)
      exact ⟨(hclosed hcc).1, b', hself, (hclosed hcc).2⟩
    · exact ⟨(hothers k heq).1, c, (hne k heq).trans hc, hcc⟩

/-- A mailbox is changed, and not in its requests. -/
theorem modifyMailbox (net : Network) (box : MailboxId) {f : Mailbox → Mailbox}
    (hrequests : ∀ b, (f b).requests = b.requests) (hclosed : ∀ b, (f b).closed = b.closed) :
    Recorded net (net.modifyMailbox box f) := by
  cases found : net.mailboxes[box]? with
  | none =>
    refine of_eq ?_ rfl
    show net.mailboxes.modify box f = net.mailboxes
    rw [List.modify_eq_set_getElem?, found]
    rfl
  | some b =>
    refine putBack (f b) found [] (set_eq_modify f found).symm (List.append_nil _).symm ?_
      (fun _ _ => ⟨rfl, rfl⟩) fun h => ⟨rfl, (hclosed b).trans h⟩
    rw [hrequests]
    simp

end Recorded

/-! ## Nodes and switches -/

/-- What was in a mailbox that is closed is recorded as discarded. -/
theorem closeMailbox_recorded (now : Nat) (box : MailboxId) (net : Network) :
    Recorded net (net.closeMailbox now box) := by
  unfold closeMailbox
  split
  · exact .refl net
  · next b found =>
    refine .putBack b.close found [.discarded box b.requests] rfl List.map_append ?_ ?_
      fun _ => ⟨rfl, rfl⟩
    · simp [pushes, removals, Occurrence.pushed?, Occurrence.removed, Mailbox.close]
    · intro k hk
      simp [pushes, removals, Occurrence.pushed?, Occurrence.removed, Ne.symm hk]

/-- A node that is registered again discards what was in its old mailbox, and has a new one without
requests. -/
theorem register_recorded (now : Nat) (node : PeerId) (net : Network) :
    Recorded net (net.register now node) := by
  have henroll : Recorded net { net with
      registry := net.registry.set node net.mailboxes.length
      mailboxes := net.mailboxes ++ [{ id := node }] } := by
    refine .of_same rfl (fun box => ?_) (fun box ⟨b, found, hclosed⟩ => ?_)
    · unfold contents
      rw [List.getElem?_append]
      split
      · rfl
      · next hge =>
        -- the new mailbox has no requests in it
        have hnone : net.mailboxes[box]? = none := List.getElem?_eq_none (Nat.not_lt.mp hge)
        rw [hnone, List.getElem?_singleton]
        split <;> rfl
    · exact ⟨b, getElem?_concat_of_some _ found, hclosed⟩
  unfold register
  cases net.registry.get? node with
  | none => exact henroll
  | some box => exact henroll.trans (closeMailbox_recorded now box _)

/-- A shut down is recorded as the closing of the mailbox. -/
theorem shutdown_recorded (now : Nat) (node : PeerId) (net : Network) :
    Recorded net (net.shutdown now node) := by
  unfold shutdown
  split
  · next box _ =>
    have hremove : Recorded net { net with registry := net.registry.remove node } := .of_eq rfl rfl
    exact hremove.trans (closeMailbox_recorded now box _)
  · exact .refl net

/-- A clear is recorded as shut downs, one after the other. -/
theorem clear_recorded (now : Nat) (net : Network) : Recorded net (net.clear now) := by
  have hall (nodes : List PeerId) :
      Recorded net (nodes.foldl (fun net id => net.shutdown now id) net) := by
    induction nodes generalizing net with
    | nil => exact .refl net
    | cons node nodes ih => exact (shutdown_recorded now node net).trans (ih _)
  exact hall net.nodes

/-- Switches move no requests. -/
theorem setSwitches_recorded (box : MailboxId) (f : Switches → Switches) (net : Network) :
    Recorded net (net.setSwitches box f) :=
  .modifyMailbox net box (fun _ => rfl) (fun _ => rfl)

/-- A detour changes requests where they are, and moves none. -/
theorem divert_recorded (owner : TaskId) (other : PeerId) (net : Network) :
    Recorded net (net.divert owner other) := by
  refine .of_same rfl (fun box => ?_) (fun box ⟨b, found, hclosed⟩ => ?_)
  · rw [contents, contents, divert, List.getElem?_map]
    cases net.mailboxes[box]? with
    | none => rfl
    | some b => simp [Request.plain_divert]
  · exact ⟨_, List.getElem?_map.trans (congrArg (Option.map _) found), hclosed⟩

/-! ## Takers -/

/-- Notes on the elements of a list are written in the order of the list. -/
theorem journal_foldl_note {α : Type} (now : Nat) (what : α → Occurrence) (l : List α)
    (net : Network) :
    ((l.foldl (fun net a => net.note now (what a)) net).journal.map (·.what)) =
      net.journal.map (·.what) ++ l.map what := by
  induction l generalizing net with
  | nil => exact (List.append_nil _).symm
  | cons a l ih =>
    rw [List.foldl_cons, ih, note, List.map_append, List.map_cons, List.append_assoc]
    rfl

/-- A request that is received has left the mailbox already, so nothing is moved. -/
theorem receive_recorded (now : Nat) (box : MailboxId) (b : Mailbox) (r : Request) (net : Network) :
    Recorded net (net.receive now box b r).1 := by
  unfold receive
  split
  · exact .note net now fun _ => ⟨rfl, rfl⟩
  · dsimp only
    split <;> exact .refl net

/-- Requests that are dropped leave their mailbox, and no other. -/
theorem moves_dropped (box k : MailboxId) (t : TaskId) (requests : List Request) :
    pushes k (requests.map (.dropped box t)) = [] ∧
      removals k (requests.map (.dropped box t)) =
        if box = k then requests.map Request.plain else [] := by
  constructor
  · simp [pushes, Occurrence.pushed?, List.filterMap_map]
  · unfold removals
    rw [List.flatMap_map]
    by_cases hk : box = k
    · simp [Occurrence.removed, hk, List.flatMap_singleton']
    · simp [Occurrence.removed, hk]

/-- What a taker drops or takes in its look is written down as it leaves the queue. -/
theorem takeFrom_recorded (now : Nat) (t : TaskId) (box : MailboxId) (net : Network) :
    Recorded net (net.takeFrom now t box).1 := by
  unfold takeFrom
  split
  · exact .refl net
  · next b found =>
    dsimp only
    split
    · next hclosed =>
      refine .putBack { b with wakeUp := false } found [] rfl (List.append_nil _).symm ?_
        (fun _ _ => ⟨rfl, rfl⟩) fun h => ⟨rfl, h⟩
      simp
    · next hopen =>
      have hsplit := List.takeWhile_append_dropWhile (p := net.drops b.id) (l := b.requests)
      have hjournal := journal_foldl_note now (.dropped box t)
        (b.requests.takeWhile (net.drops b.id)) net
      obtain ⟨journal, hnoted⟩ := foldl_note_eq now (.dropped box t)
        (b.requests.takeWhile (net.drops b.id)) net
      rw [hnoted] at hjournal ⊢
      generalize b.requests.takeWhile (net.drops b.id) = dropped at hsplit hjournal
      split
      · next hrest =>
        rw [hrest, List.append_nil] at hsplit
        refine .putBack ({ b with wakeUp := false, requests := [] }.join t) found _ rfl
          hjournal ?_ (fun k hk => ?_) fun h => absurd h hopen
        · obtain ⟨hpushes, hremovals⟩ := moves_dropped box box t dropped
          rw [hpushes, hremovals, if_pos rfl, hsplit]
          rfl
        · obtain ⟨hpushes, hremovals⟩ := moves_dropped box k t dropped
          exact ⟨hpushes, hremovals.trans (if_neg hk.symm)⟩
      · next r rest hrest =>
        rw [hrest] at hsplit
        refine .trans ?_ (receive_recorded now box _ r _)
        refine .putBack { b with wakeUp := false, requests := rest } found
          (dropped.map (.dropped box t) ++ [.taken box t r]) rfl ?_ ?_ (fun k hk => ?_)
          fun h => absurd h hopen
        · show (journal ++ [_]).map _ = _
          rw [List.map_append, hjournal, List.append_assoc]
          rfl
        · obtain ⟨hpushes, hremovals⟩ := moves_dropped box box t dropped
          rw [pushes_append, removals_append, hpushes, hremovals, if_pos rfl, ← hsplit]
          simp [pushes, removals, Occurrence.pushed?, Occurrence.removed]
        · obtain ⟨hpushes, hremovals⟩ := moves_dropped box k t dropped
          rw [pushes_append, removals_append, hpushes, hremovals, if_neg hk.symm]
          simp [pushes, removals, Occurrence.pushed?, Occurrence.removed, Ne.symm hk]

/-- A taker that begins has recorded what it took or dropped. -/
theorem beginTake_recorded (now : Nat) (t : TaskId) (node : PeerId) (net : Network) :
    Recorded net (net.beginTake now t node).1 := by
  unfold beginTake
  split
  · exact .refl net
  · next box _ =>
    dsimp only
    split
    · exact takeFrom_recorded now t box net
    · exact .refl net

/-- A taker that goes on has recorded it too. -/
theorem turnTake_recorded (now : Nat) (t : TaskId) (stage : Taking) (net : Network) :
    Recorded net (net.turnTake now t stage).1 := by
  cases stage with
  | delayed box wake =>
    rw [turnTake]
    split
    · exact takeFrom_recorded now t box net
    · exact .refl net
  | looking box =>
    rw [turnTake]
    split
    · exact takeFrom_recorded now t box net
    · exact .refl net
  | holding box r wake =>
    rw [turnTake]
    split <;> exact .refl net

/-- Waking somebody moves no request. -/
theorem wakeOne_requests (b : Mailbox) :
    b.wakeOne.requests = b.requests ∧ b.wakeOne.closed = b.closed := by
  unfold Mailbox.wakeOne
  split <;> exact ⟨rfl, rfl⟩

/-- Leaving the line moves no request. -/
theorem leave_requests (t : TaskId) (b : Mailbox) :
    (b.leave t).requests = b.requests ∧ (b.leave t).closed = b.closed := by
  unfold Mailbox.leave
  split
  · exact ⟨rfl, rfl⟩
  · exact wakeOne_requests b

/-- A taker that is cancelled moves no request: what it held back has been recorded as taken. -/
theorem cancelTake_recorded (t : TaskId) (stage : Taking) (net : Network) :
    Recorded net (net.cancelTake t stage) := by
  cases stage with
  | looking box =>
    exact .modifyMailbox net box (fun b => (leave_requests t b).1) (fun b => (leave_requests t b).2)
  | delayed box wake => exact .refl net
  | holding box r wake => exact .refl net

/-! ## Senders -/

/-- Striking a caller moves no request. -/
theorem strike_recorded (box : MailboxId) (key : RequestKey) (net : Network) :
    Recorded net (net.modifyMailbox box (·.strike key)) :=
  .modifyMailbox net box (fun _ => rfl) (fun _ => rfl)

/-- A caller that looks at its slip moves no request. -/
theorem checkSlip_recorded (now : Nat) (box : MailboxId) (r : Request) (slip : SlipId)
    (deadline : Nat) (net : Network) : Recorded net (net.checkSlip now box r slip deadline).1 := by
  unfold checkSlip
  split
  · exact .refl net
  · exact .refl net
  · split
    · exact strike_recorded box r.key net
    · exact .refl net
  · exact .refl net

/-- A request is pushed to the end of the queue, and only into a mailbox that is open. -/
theorem push?_requests {b' : Mailbox} (h : b.push? r = some b') :
    b.closed = false ∧ b'.requests = b.requests ++ [r] := by
  unfold Mailbox.push? at h
  split at h
  · cases h
  · next hopen =>
    cases h
    exact ⟨Bool.eq_false_iff.mpr hopen, (wakeOne_requests _).1⟩

/-- A request that is enqueued is recorded as sent. -/
theorem enqueue_recorded (now : Nat) (found : net.mailboxes[box]? = some b) :
    Recorded net (net.enqueue now box b r).1 := by
  unfold enqueue
  split
  · exact .refl net
  · dsimp only
    split
    · exact .refl net
    · next b' hpush =>
      obtain ⟨hopen, hrequests⟩ := push?_requests hpush
      refine .trans ?_ (checkSlip_recorded now box r net.slips.length _ _)
      refine .putBack b' found [.sent box r] rfl List.map_append ?_ (fun k hk => ?_)
        fun hclosed => ?_
      · rw [hrequests]
        simp [pushes, removals, Occurrence.pushed?, Occurrence.removed, Mailbox.enter]
      · simp [pushes, removals, Occurrence.pushed?, Occurrence.removed, Ne.symm hk]
      · rw [show b.closed = false from hopen] at hclosed
        cases hclosed

/-- A sender that tries has recorded its request if it got in. -/
theorem trySend_recorded (now : Nat) (box : MailboxId) (r : Request) (net : Network) :
    Recorded net (net.trySend now box r).1 := by
  unfold trySend
  split
  · exact .refl net
  · next b found =>
    split
    · exact .refl net
    · exact enqueue_recorded now found

/-- So has a sender that begins. -/
theorem beginSend_recorded (now : Nat) (r : Request) (net : Network) :
    Recorded net (net.beginSend now r).1 := by
  unfold beginSend
  split
  · exact .refl net
  · next box _ => exact trySend_recorded now box r net

/-- So has a sender that was blocked and goes on. -/
theorem turnSend_recorded (now : Nat) (stage : Sending) (net : Network) :
    Recorded net (net.turnSend now stage).1 := by
  cases stage with
  | blocked box r wake =>
    rw [turnSend]
    split
    · exact trySend_recorded now box r net
    · exact .refl net
  | waiting box r slip deadline => exact checkSlip_recorded now box r slip deadline net

/-- A sender that is cancelled leaves its request where it is. -/
theorem cancelSend_recorded (stage : Sending) (net : Network) :
    Recorded net (net.cancelSend stage) := by
  cases stage <;> exact .of_eq rfl rfl

/-! ## Replies -/

/-- Handing an outcome over moves no request. -/
theorem deliver_recorded (now : Nat) (r : Request) (outcome : Outcome) (net : Network) :
    Recorded net (net.deliver now r outcome) := by
  unfold deliver
  split
  · exact .refl net
  · next box _ =>
    split
    · exact .refl net
    · next slip _ =>
      have hslip : Recorded (net.modifyMailbox box (·.strike r.key))
          ((net.modifyMailbox box (·.strike r.key)).modifySlip slip (·.fill outcome)) :=
        .of_eq rfl rfl
      exact ((strike_recorded box r.key net).trans hslip).trans (.note _ now fun _ => ⟨rfl, rfl⟩)

/-- Neither does a reply that begins. -/
theorem beginReply_recorded (now : Nat) (r : Request) (outcome : Outcome) (net : Network) :
    Recorded net (net.beginReply now r outcome).1 := by
  have hdelay (outcome : Outcome) : Recorded net (beginReply.delay now r outcome net).1 := by
    have hroll : Recorded net net.roll.2 := .of_eq rfl rfl
    unfold beginReply.delay
    dsimp only
    split
    · exact hroll.trans (deliver_recorded now r outcome _)
    · exact hroll
  unfold beginReply
  split
  · split
    · exact hdelay _
    · exact .note net now fun _ => ⟨rfl, rfl⟩
  · exact hdelay _

/-- Neither does a reply that goes on. -/
theorem turnReply_recorded (now : Nat) (stage : Replying) (net : Network) :
    Recorded net (net.turnReply now stage).1 := by
  unfold turnReply
  split
  · exact deliver_recorded now stage.request stage.outcome net
  · exact .refl net

end Network

end Replica
