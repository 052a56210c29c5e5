import Replica.Proofs.Network.Aging

/-!
# Calls on a mailbox that is closed

A sender whose mailbox has been closed can go on as soon as its time has come: at once if it waits
for a reply, at the end of the interval if it is blocked. Then it ends, since its node is not there,
and leaves the network as it was (`Leaving`). A taker ends in the same way, since its node is shut
down (`Departing`). Whatever else happens in the meantime keeps this.
-/

namespace Replica.Network

variable {net net' : Network} {box : MailboxId} {node other : PeerId} {now wake : Nat}
variable {slip : SlipId} {own : Option SlipId} {t owner : TaskId} {b : Mailbox} {r : Request}

/-- The sender has been released, and its time comes at `wake`. -/
inductive Leaving (net : Network) (node : PeerId) : Nat → Sending → Prop where
  /-- It waits for a reply, and will find its slip void. -/
  | waiting {box : MailboxId} {r : Request} {slip : SlipId} {deadline : Nat}
    (hshut : net.Shut box node) (hvoid : net.slips[slip]? = some .void) :
    Leaving net node 0 (.waiting box r slip deadline)
  /-- It has sent nothing yet, and will find the mailbox closed. -/
  | blocked {box : MailboxId} {r : Request} {wake : Nat} (hshut : net.Shut box node) :
    Leaving net node wake (.blocked box r wake)

/-- The taker has been released, and its time comes at `wake`. -/
inductive Departing (net : Network) (node : PeerId) : Nat → Taking → Prop where
  | looking {box : MailboxId} (hshut : net.Shut box node) : Departing net node 0 (.looking box)
  | delayed {box : MailboxId} {wake : Nat} (hshut : net.Shut box node) :
    Departing net node wake (.delayed box wake)

/-! ## Senders -/

/-- A mailbox that is shut takes no request. -/
theorem trySend_of_shut (now : Nat) (r : Request) (h : net.Shut box node) :
    net.trySend now box r = (net, .ended (.error (.nodeNotFound node))) := by
  obtain ⟨b, found, rfl, hshut⟩ := h
  have hfree : b.isBlocked = false := by simp [Mailbox.isBlocked, hshut.closed]
  have hnone : b.slip? r.key = none := by
    rw [Mailbox.slip?, hshut.replies]
    rfl
  have hfull : (b.enter r.key net.slips.length).push? r = none := if_pos hshut.closed
  simp only [trySend, found, hfree, enqueue, hnone, hfull, notFoundAt, Bool.false_eq_true, if_false]

namespace Leaving

variable {stage : Sending}

theorem ages (h : Leaving net node wake stage) (hages : Ages own net net') :
    Leaving net' node wake stage := by
  cases h with
  | waiting hshut hvoid =>
    exact .waiting (hages.shut _ _ hshut) (hages.settled _ _ hvoid nofun)
  | blocked hshut => exact .blocked (hages.shut _ _ hshut)

theorem divert (h : Leaving net node wake stage) (owner : TaskId) (other : PeerId) :
    Leaving net node wake (stage.divert owner other) := by
  cases h with
  | waiting hshut hvoid => exact .waiting hshut hvoid
  | blocked hshut => exact .blocked hshut

theorem ready (h : Leaving net node wake stage) (hwake : wake ≤ now) :
    net.sendReady now stage = true := by
  cases h with
  | waiting hshut hvoid => simp [sendReady, hvoid]
  | blocked hshut =>
    obtain ⟨b, found, -, hshut⟩ := hshut
    have hfree : b.isBlocked = false := by simp [Mailbox.isBlocked, hshut.closed]
    simp [sendReady, hwake, found, hfree]

/-- The turn for which it is time. -/
theorem turn (h : Leaving net node wake stage) (hwake : wake ≤ now) :
    net.turnSend now stage = (net, .ended (.error (.nodeNotFound node))) := by
  cases h with
  | waiting hshut hvoid =>
    obtain ⟨b, found, rfl, -⟩ := hshut
    simp only [turnSend, checkSlip, hvoid, found, notFoundAt]
  | blocked hshut =>
    rw [turnSend, if_pos hwake]
    exact trySend_of_shut now _ hshut

/-- A turn that comes too early. -/
theorem early (h : Leaving net node wake stage) (hwake : now < wake) :
    net.turnSend now stage = (net, .waiting stage) := by
  cases h with
  | waiting hshut hvoid => exact absurd hwake (Nat.not_lt_zero _)
  | blocked hshut =>
    rw [turnSend]
    exact if_neg (Nat.not_le.mpr hwake)

theorem read?_eq_none (h : Leaving net node wake stage) : stage.read? net = none := by
  cases h with
  | waiting hshut hvoid => simp only [Sending.read?, hvoid]
  | blocked hshut => rfl

end Leaving

/-! ## Takers -/

theorem takeFrom_of_shut (now : Nat) (t : TaskId) (h : net.Shut box node) :
    (net.takeFrom now t box).2 = .ended (.error (.shutdown node)) := by
  obtain ⟨b, found, rfl, hshut⟩ := h
  simp only [takeFrom, found, hshut.closed, if_true]

theorem isWoken_of_shut (t : TaskId) (h : net.Shut box node) : net.isWoken t box = true := by
  obtain ⟨b, found, -, hshut⟩ := h
  simp [isWoken, found, hshut.takers]

namespace Departing

variable {stage : Taking}

theorem ages (h : Departing net node wake stage) (hages : Ages own net net') :
    Departing net' node wake stage := by
  cases h with
  | looking hshut => exact .looking (hages.shut _ _ hshut)
  | delayed hshut => exact .delayed (hages.shut _ _ hshut)

theorem divert (h : Departing net node wake stage) (owner : TaskId) (other : PeerId) :
    Departing net node wake (stage.divert owner other) := by
  cases h with
  | looking hshut => exact .looking hshut
  | delayed hshut => exact .delayed hshut

theorem ready (h : Departing net node wake stage) (hwake : wake ≤ now) (t : TaskId) :
    net.takeReady now t stage = true := by
  cases h with
  | looking hshut => exact isWoken_of_shut t hshut
  | delayed hshut => exact decide_eq_true hwake

theorem turn (h : Departing net node wake stage) (hwake : wake ≤ now) (t : TaskId) :
    (net.turnTake now t stage).2 = .ended (.error (.shutdown node)) := by
  cases h with
  | looking hshut =>
    rw [turnTake, if_pos (isWoken_of_shut t hshut)]
    exact takeFrom_of_shut now t hshut
  | delayed hshut =>
    rw [turnTake, if_pos hwake]
    exact takeFrom_of_shut now t hshut

theorem early (h : Departing net node wake stage) (hwake : now < wake) (t : TaskId) :
    net.turnTake now t stage = (net, .waiting stage) := by
  cases h with
  | looking hshut => exact absurd hwake (Nat.not_lt_zero _)
  | delayed hshut =>
    rw [turnTake]
    exact if_neg (Nat.not_le.mpr hwake)

end Departing

end Replica.Network
