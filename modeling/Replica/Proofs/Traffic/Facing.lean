import Replica.Proofs.Traffic.Deadlines
import Replica.Proofs.Traffic.Tasks

/-!
# What senders face

A sender that is under way is blocked at its mailbox or waits for its slip there. If it waits, then nothing
has been done to its slip, and it is in the table of its mailbox, which is open; or its mailbox has been
closed, and its slip is void; or an outcome is on its slip (`Sending.Faces`). That is so in all traffic that
is reached (`Traffic.SendsAt.faces`), and it decides how the next turn of the sender ends, if it does
(`Sending.Faces.ends`): it is cut off from its node, or an outcome has been handed over to it, or it gives
up at an open mailbox.
-/

namespace Replica

open Network

/-! ## Stations -/

namespace Sending

/-- What a sender that is under way has before it. -/
inductive Faces (net : Network) : Sending → Prop where
  | blocked {box : MailboxId} {node : PeerId} (r : Request) (wake : Nat) (h : net.Serves box node) :
    Faces net (.blocked box r wake)
  | pending {box : MailboxId} {node : PeerId} {r : Request} {slip : SlipId} (deadline : Nat)
    (h : net.Pending box node r.key slip) : Faces net (.waiting box r slip deadline)
  /-- Its mailbox was closed before anything was handed over to it. -/
  | void {box : MailboxId} {node : PeerId} {slip : SlipId} (r : Request) (deadline : Nat)
    (hshut : net.Shut box node) (hvoid : net.slips[slip]? = some .void) :
    Faces net (.waiting box r slip deadline)
  | handed {slip : SlipId} {outcome : Outcome} (box : MailboxId) (r : Request) (deadline : Nat)
    (h : net.Written slip outcome) : Faces net (.waiting box r slip deadline)

/-- The sender's mailbox is closed, and no outcome has been handed over to the sender. -/
inductive CutOff (net : Network) : Sending → Prop where
  | blocked {box : MailboxId} (r : Request) (wake : Nat) (h : net.IsClosed box) :
    CutOff net (.blocked box r wake)
  | waiting {box : MailboxId} {slip : SlipId} (r : Request) (deadline : Nat) (h : net.IsClosed box)
    (hnone : ∀ outcome, ¬ net.Written slip outcome) : CutOff net (.waiting box r slip deadline)

/-- The outcome has been handed over to the sender. -/
inductive Handed (net : Network) (outcome : Outcome) : Sending → Prop where
  | intro {slip : SlipId} (box : MailboxId) (r : Request) (deadline : Nat)
    (h : net.Written slip outcome) : Handed net outcome (.waiting box r slip deadline)

/-- How the last turn of a sender ends. -/
inductive Ends (now : Nat) (net : Network) : Sending → Outcome → Prop where
  | cutOff {stage : Sending} (node : PeerId) (h : stage.CutOff net) :
    Ends now net stage (.error (.nodeNotFound node))
  | handed {stage : Sending} {outcome : Outcome} (h : stage.Handed net outcome) :
    Ends now net stage outcome
  | overdue {box : MailboxId} {slip : SlipId} {deadline : Nat} (r : Request) (what : String)
    (hopen : ¬ net.IsClosed box) (hblank : net.slips[slip]? = some .blank) (hdue : deadline ≤ now) :
    Ends now net (.waiting box r slip deadline) (.error (.timeout what net.settings.replyTimeout))
  /-- It is entered, and its reply is overdue at once. -/
  | hasty {box : MailboxId} (r : Request) (wake : Nat) (what : String) (hopen : ¬ net.IsClosed box)
    (hzero : net.settings.replyTimeout = 0) :
    Ends now net (.blocked box r wake) (.error (.timeout what net.settings.replyTimeout))
  /-- Its key is in use. -/
  | inUse {box : MailboxId} (r : Request) (wake : Nat) (what : String) (hopen : ¬ net.IsClosed box) :
    Ends now net (.blocked box r wake) (.error (.invalidArgument what))

end Sending

variable {net net' : Network} {box : MailboxId} {b : Mailbox} {r r' : Request} {slip : SlipId}
variable {stage stage' : Sending} {outcome outcome' : Outcome} {now wake deadline : Nat} {node : PeerId}

/-! ## Coming to a mailbox -/

namespace Network

/-- A sender that comes to a closed mailbox finds nobody there. -/
theorem trySend_of_closed (now : Nat) (r : Request) (hsealed : net.Sealed)
    (found : net.mailboxes[box]? = some b) (hclosed : b.closed = true) :
    net.trySend now box r = (net, .ended (.error (notFoundAt b))) := by
  have hnone : b.slip? r.key = none := by
    rw [Mailbox.slip?, (hsealed box b found hclosed).replies]
    rfl
  simp [trySend, found, Mailbox.isBlocked, hclosed, enqueue, hnone, Mailbox.push?, Mailbox.enter]

/-- A sender that comes to an open mailbox and ends there at once has found its key in use, or has no time
to wait for a reply. -/
theorem trySend_ended_of_open (found : net.mailboxes[box]? = some b) (hopen : b.closed = false)
    (h : (net.trySend now box r).2 = .ended outcome) :
    (outcome = .error (inFlight r.key b) ∧ (net.trySend now box r).1 = net) ∨
      (net.settings.replyTimeout = 0 ∧ outcome = .error (net.overdue r.key b)) := by
  simp only [trySend, found] at h ⊢
  split at h
  · cases h
  · next hfree =>
    rw [if_neg hfree]
    cases hkey : b.slip? r.key with
    | some slip =>
      rw [enqueue_of_inFlight hkey] at h ⊢
      cases h
      exact .inl ⟨rfl, rfl⟩
    | none =>
      have henters : Enters now box b r net _ := enqueue_of_free found hkey hopen
      by_cases hzero : net.settings.replyTimeout = 0
      · cases (henters.overdue hzero).symm.trans h
        exact .inr ⟨hzero, rfl⟩
      · cases (henters.waits hzero).2.symm.trans h

/-- How a sender ends in its first turn. It has been entered only if it has no time to wait. -/
inductive EndsAtOnce (net : Network) (r : Request) (net' : Network) : Outcome → Prop where
  | notFound (hnone : net.registry.get? r.replier = none) (hsame : net' = net) :
    EndsAtOnce net r net' (.error (.nodeNotFound r.replier))
  | inUse (what : String) (hsame : net' = net) : EndsAtOnce net r net' (.error (.invalidArgument what))
  | hasty (what : String) (hzero : net.settings.replyTimeout = 0) :
    EndsAtOnce net r net' (.error (.timeout what 0))

theorem beginSend_ended (hord : net.SlipsUnique) (hup : net.ListedOpen)
    (h : (net.beginSend now r).2 = .ended outcome) :
    EndsAtOnce net r (net.beginSend now r).1 outcome := by
  unfold beginSend at h ⊢
  split at h
  · next hnone =>
    cases h
    exact .notFound hnone rfl
  · next box hbox =>
    obtain ⟨b, found, -⟩ := hord.serves hbox
    rcases trySend_ended_of_open found (hup.opened _ _ _ hbox found) h with ⟨rfl, hsame⟩ | ⟨hzero, rfl⟩
    · exact .inUse _ hsame
    · rw [overdue, hzero]
      exact .hasty _ hzero

/-- Nothing has been done to the slip of a sender that has just been entered. -/
theorem trySend_blank {box' : MailboxId}
    (h : (net.trySend now box r).2 = .waiting (.waiting box' r' slip deadline)) :
    (net.trySend now box r).1.slips[slip]? = some .blank := by
  unfold trySend at h ⊢
  split at h
  · cases h
  · split at h
    · cases h
    · next hfree =>
      rw [if_neg hfree]
      unfold enqueue at h ⊢
      split at h
      · cases h
      · dsimp only at h ⊢
        split at h
        · cases h
        · obtain ⟨hsame, hstage⟩ := checkSlip_waiting h
          rw [hsame]
          cases hstage
          exact List.getElem?_concat_length

theorem beginSend_blank
    (h : (net.beginSend now r).2 = .waiting (.waiting box r' slip deadline)) :
    (net.beginSend now r).1.slips[slip]? = some .blank := by
  unfold beginSend at h ⊢
  split at h
  · cases h
  · exact trySend_blank h

/-- A sender that waits after its turn has just been entered, or has changed nothing. -/
theorem turnSend_waits (h : (net.turnSend now stage).2 = .waiting (.waiting box r slip deadline)) :
    (net.turnSend now stage).1.slips[slip]? = some .blank ∨
      ((net.turnSend now stage).1 = net ∧ stage = .waiting box r slip deadline) := by
  cases stage with
  | blocked box' r' wake =>
    unfold turnSend at h ⊢
    dsimp only at h ⊢
    split at h
    · next hwake =>
      rw [if_pos hwake]
      exact .inl (trySend_blank h)
    · cases h
  | waiting box' r' slip' deadline' =>
    obtain ⟨hsame, hstage⟩ := checkSlip_waiting h
    exact .inr ⟨hsame, hstage.symm⟩

theorem not_isClosed_of_open (found : net.mailboxes[box]? = some b) (hopen : b.closed = false) :
    ¬ net.IsClosed box := by
  rintro ⟨b', found', hclosed⟩
  obtain rfl := Option.some.inj (found.symm.trans found')
  cases hopen.symm.trans hclosed

/-- What is on a slip stays on it, and what is closed stays closed. -/
structure Settles (net net' : Network) : Prop where
  slips : ∀ (slip : SlipId) (s : Slip), net.slips[slip]? = some s → s ≠ .blank →
    net'.slips[slip]? = some s
  closed : ∀ box, net.IsClosed box → net'.IsClosed box

theorem Settles.refl (net : Network) : Settles net net := ⟨fun _ _ hs _ => hs, fun _ => id⟩

theorem Settles.trans {net'' : Network} (h : Settles net net') (h' : Settles net' net'') :
    Settles net net'' :=
  ⟨fun slip s hs hne => h'.slips slip s (h.slips slip s hs hne) hne,
    fun box hclosed => h'.closed box (h.closed box hclosed)⟩

end Network

/-! ## Turns of senders -/

namespace Sending

theorem Handed.unique (h : stage.Handed net outcome) (h' : stage.Handed net outcome') :
    outcome = outcome' := by
  cases h with
  | intro box r deadline h =>
    cases h' with
    | intro _ _ _ h' =>
      cases h.symm.trans h'
      rfl

/-- A sender to which an outcome has been handed over ends in its next turn. -/
theorem Handed.turn (h : stage.Handed net outcome) (now : Nat) :
    (net.turnSend now stage).2 = .ended outcome := by
  cases h with
  | @intro slip box r deadline hwritten =>
    have hread : net.slips[slip]? = some (.filled outcome) := hwritten
    simp only [turnSend, checkSlip, hread]

theorem CutOff.not_handed (h : stage.CutOff net) : ¬ stage.Handed net outcome := by
  rintro ⟨box, r, deadline, hwritten⟩
  cases h with
  | waiting r deadline h hnone => exact hnone _ hwritten

namespace Faces

/-- A sender whose mailbox was closed looks at its slip. -/
theorem checkSlip_of_void (now deadline : Nat) (r : Request) (hshut : net.Shut box node)
    (hvoid : net.slips[slip]? = some .void) :
    net.checkSlip now box r slip deadline = (net, .ended (.error (.nodeNotFound node))) := by
  obtain ⟨b, found, rfl, -⟩ := hshut
  simp only [checkSlip, hvoid, found, notFoundAt]

/-- What a sender faces decides how its turn ends. -/
theorem ends (h : stage.Faces net) (hsealed : net.Sealed)
    (hended : (net.turnSend now stage).2 = .ended outcome) : stage.Ends now net outcome := by
  cases h with
  | @blocked box node r wake hserves =>
    obtain ⟨b, found, -⟩ := hserves
    rw [turnSend] at hended
    split at hended
    · cases hclosed : b.closed with
      | true =>
        rw [trySend_of_closed now r hsealed found hclosed] at hended
        cases hended
        exact .cutOff b.id (.blocked r wake ⟨b, found, hclosed⟩)
      | false =>
        have hopen := not_isClosed_of_open found hclosed
        rcases trySend_ended_of_open found hclosed hended with ⟨rfl, -⟩ | ⟨hzero, rfl⟩
        · exact .inUse r wake _ hopen
        · exact .hasty r wake _ hopen hzero
    · cases hended
  | pending deadline hpending =>
    rw [turnSend, checkSlip_of_pending now deadline hpending] at hended
    split at hended
    · next hdue =>
      cases hended
      exact .overdue _ _ (hsealed.not_isClosed hpending.awaits) hpending.blank hdue
    · cases hended
  | void r deadline hshut hvoid =>
    rw [turnSend, checkSlip_of_void now deadline r hshut hvoid] at hended
    cases hended
    refine .cutOff _ (.waiting r deadline hshut.isClosed fun outcome hwritten => ?_)
    cases hvoid.symm.trans hwritten
  | @handed slip _ box r deadline hwritten =>
    have hread : net.slips[slip]? = some (.filled _) := hwritten
    simp only [turnSend, checkSlip, hread] at hended
    cases hended
    exact .handed (.intro box r deadline hwritten)

/-- A sender that is cut off stays where it is, or ends. -/
theorem turn_cutOff (h : stage.Faces net) (hsealed : net.Sealed) (hcut : stage.CutOff net)
    (hwaits : (net.turnSend now stage).2 = .waiting stage') : stage' = stage := by
  cases hcut with
  | blocked r wake hclosed =>
    obtain ⟨b, found, hclosed⟩ := hclosed
    rw [turnSend] at hwaits
    split at hwaits
    · rw [trySend_of_closed now r hsealed found hclosed] at hwaits
      cases hwaits
    · cases hwaits
      rfl
  | waiting r deadline hclosed hnone =>
    cases h with
    | pending deadline hpending => exact absurd hclosed (hsealed.not_isClosed hpending.awaits)
    | void r deadline hshut hvoid =>
      rw [turnSend, checkSlip_of_void now deadline r hshut hvoid] at hwaits
      cases hwaits
    | handed box r deadline hwritten => exact absurd hwritten (hnone _)

end Faces

/-! ### What lasts -/

/-- A sender that is cut off stays so. -/
theorem CutOff.settles (h : stage.CutOff net) (hfaces : stage.Faces net) (hsealed : net.Sealed)
    (hsettles : Settles net net') : stage.CutOff net' := by
  cases h with
  | blocked r wake hclosed => exact .blocked r wake (hsettles.closed _ hclosed)
  | waiting r deadline hclosed hnone =>
    refine .waiting r deadline (hsettles.closed _ hclosed) fun outcome hwritten => ?_
    cases hfaces with
    | pending deadline hpending => exact hsealed.not_isClosed hpending.awaits hclosed
    | void r deadline hshut hvoid => cases (hsettles.slips _ _ hvoid nofun).symm.trans hwritten
    | handed box r deadline hwritten => exact hnone _ hwritten

theorem Handed.settles (h : stage.Handed net outcome) (hsettles : Settles net net') :
    stage.Handed net' outcome := by
  cases h with
  | intro box r deadline hwritten => exact .intro box r deadline (hsettles.slips _ _ hwritten nofun)

theorem CutOff.divert (h : stage.CutOff net) (owner : TaskId) (other : PeerId) :
    (stage.divert owner other).CutOff net := by
  cases h with
  | blocked r wake hclosed => exact .blocked _ wake hclosed
  | waiting r deadline hclosed hnone => exact .waiting _ deadline hclosed hnone

theorem Handed.divert (h : stage.Handed net outcome) (owner : TaskId) (other : PeerId) :
    (stage.divert owner other).Handed net outcome := by
  cases h with
  | intro box r deadline hwritten => exact .intro box _ deadline hwritten

end Sending

/-! ## Traffic that is reached -/

namespace Traffic

variable {x : Traffic} {i : Nat} {call : SendCall} {event : Event} {t : TaskId} {node : PeerId}

theorem Lawful.settles (h : x.Lawful) (events : List Event) :
    Settles x.network (x.run events).network := by
  induction events generalizing x with
  | nil => exact .refl x.network
  | cons event events ih =>
    obtain ⟨own, honward, -⟩ := step_onward h.accounted h.tabled event
    have hstep : Settles x.network (x.step event).network :=
      ⟨honward.ages.settled, fun box => closed_stable box x event⟩
    exact hstep.trans (ih (h.step event))

/-- A call whose slip is void waits at a mailbox that is closed. -/
def Warned (x : Traffic) : Prop :=
  ∀ (i : Nat) (call : SendCall) (box : MailboxId) (r : Request) (slip : SlipId) (deadline : Nat),
    x.sends[i]? = some call → call.state = .underWay (.waiting box r slip deadline) →
      x.network.slips[slip]? = some .void → ∃ node, x.network.Shut box node

/-- What others do makes a slip in a table void only with its mailbox. -/
theorem Warned.beside (h : x.Warned) (hx : x.Lawful) (hother : ¬ event.IsOf i)
    (found : x.sends[i]? = some call) (hstate : call.state = .underWay (.waiting box r slip deadline))
    (hvoid : (x.step event).network.slips[slip]? = some .void) :
    ∃ node, (x.step event).network.Shut box node := by
  obtain ⟨own, honward, howner⟩ := step_onward hx.accounted hx.tabled event
  have hown : own ≠ some slip := by
    intro heq
    obtain ⟨j, other, hj, hofj⟩ := howner slip heq
    have hi : x.Owns i slip call :=
      ⟨found, (hx.accounted.senders i call found).waiting _ _ _ _ hstate⟩
    exact hother (hx.accounted.apart j i slip other call hj hi ▸ hofj)
  obtain ⟨s, hs, hlooks, hwaits⟩ := hx.tabled.expects i call box r slip deadline found hstate
  cases s with
  | blank => exact honward.void box _ slip hown (hwaits rfl) hs hvoid
  | filled outcome => cases (honward.ages.settled _ _ hs (by rintro ⟨⟩)).symm.trans hvoid
  | void =>
    obtain ⟨node, hshut⟩ := h i call box r slip deadline found hstate hs
    exact ⟨node, honward.ages.shut _ _ hshut⟩
  | abandoned => exact absurd rfl hlooks

/-- A new slip is blank, and a call that gets a turn and waits then finds its slip blank, or has waited
before. -/
theorem Warned.step (h : x.Warned) (hx : x.Lawful) (event : Event) : (x.step event).Warned := by
  intro i call' box r slip deadline found' hstate' hvoid
  rcases begins_or_sendStep found' with ⟨now, t, asked, rfl, rfl⟩ | ⟨call, found, hstep⟩
  · have hblank := beginSend_blank (CallState.eq_waiting_of_ofProgress hstate')
    cases hblank.symm.trans hvoid
  · cases hstep with
    | stays hidle =>
      refine h.beside hx (fun hof => ?_) found hstate' hvoid
      rw [hstate'] at hidle
      cases hidle hof
    | diverts owner other =>
      obtain ⟨stage, hstate, hdivert⟩ := CallState.mapStage_eq_underWay hstate'
      obtain ⟨r', rfl, -⟩ := Sending.divert_eq_waiting hdivert
      exact h.beside hx (by rintro (⟨_, hof⟩ | hof) <;> cases hof) found hstate hvoid
    | turns now hstate =>
      have hnetwork : (x.step (.turnSend now i)).network = (x.network.turnSend now _).1 :=
        congrArg network (turnSend_eq found hstate now)
      rw [hnetwork] at hvoid ⊢
      rcases turnSend_waits (CallState.eq_waiting_of_ofProgress hstate') with hblank | ⟨hsame, rfl⟩
      · cases hblank.symm.trans hvoid
      · rw [hsame] at hvoid ⊢
        exact h i call box r slip deadline found hstate hvoid
    | cancels _ => cases hstate'

theorem warned_stable : Stable fun x => x.Lawful ∧ x.Warned :=
  fun _ event h => ⟨h.1.step event, h.2.step h.1 event⟩

theorem warned_reached (settings : Settings) (dice : Nat → UInt64) (events : List Event) :
    (reached settings dice events).Warned := by
  have hnew : Warned { network := { settings, dice } } :=
    fun i call box r slip deadline found => nomatch found
  exact (warned_stable.run ⟨lawful_reached settings dice [], hnew⟩ events).2

/-- A task that sends has one of these before it. -/
theorem SendsAt.faces (h : x.SendsAt t stage) (hx : x.Lawful) (hwarned : x.Warned) :
    stage.Faces x.network := by
  obtain ⟨i, call, found, -, hstate⟩ := h
  cases stage with
  | blocked box r wake =>
    exact .blocked r wake ((hx.accounted.senders i call found).blocked _ _ _ hstate).2.2
  | waiting box r slip deadline =>
    obtain ⟨s, hs, hlooks, hwaits⟩ := hx.tabled.expects i call box r slip deadline found hstate
    cases s with
    | blank =>
      obtain ⟨b, hbox, hmem⟩ := hwaits rfl
      exact .pending deadline ⟨⟨b, hbox, rfl⟩, ⟨b, hbox, hmem⟩, hs⟩
    | filled outcome => exact .handed box r deadline hs
    | void =>
      obtain ⟨node, hshut⟩ := hwarned i call box r slip deadline found hstate hs
      exact .void r deadline hshut hs
    | abandoned => exact absurd rfl hlooks

end Traffic

end Replica
