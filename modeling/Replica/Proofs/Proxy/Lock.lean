import Mathlib.Data.List.Basic
import Replica.Proxy.Entry

/-!
# The create lock as a queue

Whoever holds the lock of an entry, followed by those who wait for it, is one queue. Taking the lock
joins the queue at its end (`queue_lock`), giving it up leaves it at its head (`queue_unlock`), and
giving up waiting leaves it anywhere (`queue_leave`). This needs that nobody waits for a lock that is
free, which all three keep.

None of them touches the peer, the slot or the lifecycle of the entry.
-/

namespace Replica.ProxyEntry

/-- The holder of the lock and those who wait for it, first come first served. -/
def queue (e : ProxyEntry) : List TaskId := e.owner.toList ++ e.line

/-- Nobody waits for a lock that is free. -/
def NoLineIfFree (e : ProxyEntry) : Prop := e.owner = none → e.line = []

theorem NoLineIfFree.fresh (peer : Peer) : (fresh peer).NoLineIfFree := fun _ => rfl

variable {e : ProxyEntry} {t : TaskId}

/-! ## The queue -/

/-- The owner of the lock is first in the queue. -/
theorem queue_of_owner (h : e.owner = some t) : e.queue = t :: e.line := by
  simp [queue, h]

/-- Whoever asks for the lock comes last in the queue. -/
theorem NoLineIfFree.queue_lock (h : e.NoLineIfFree) : (e.lock t).queue = e.queue ++ [t] := by
  unfold lock
  split
  · next ho => simp [queue, ho, h ho]
  · next u ho => simp [queue, ho]

/-- Whoever gives up the lock was first in the queue. -/
theorem NoLineIfFree.queue_unlock (h : e.NoLineIfFree) : e.unlock.queue = e.queue.tail := by
  cases ho : e.owner with
  | none => simp [queue, unlock, ho, h ho]
  | some u =>
    unfold unlock
    split
    · next hl => simp [queue, ho, hl]
    · next v rest hl => simp [queue, ho, hl]

/-- Whoever leaves is missing from the queue, and nobody else is. -/
theorem NoLineIfFree.queue_leave (h : e.NoLineIfFree) : (e.leave t).queue = e.queue.erase t := by
  unfold leave
  split
  · next ho => rw [h.queue_unlock, queue_of_owner ho, List.tail_cons, List.erase_cons_head]
  · next ho =>
    cases hu : e.owner with
    | none => simp [queue, hu, h hu]
    | some u =>
      have hne : u ≠ t := fun heq => ho (heq ▸ hu)
      simp [queue, hu, List.erase_cons_tail, hne]

/-- A lock that is asked for has an owner. -/
theorem NoLineIfFree.lock (_ : e.NoLineIfFree) : (e.lock t).NoLineIfFree := by
  unfold ProxyEntry.lock
  split
  · exact fun hn => by cases hn
  · next u ho => exact fun hn => by cases ho.symm.trans hn

/-- A lock that is handed on goes to the first in line. -/
theorem NoLineIfFree.unlock (_ : e.NoLineIfFree) : e.unlock.NoLineIfFree := by
  unfold ProxyEntry.unlock
  split
  · next hl => exact fun _ => hl
  · exact fun hn => by cases hn

/-- A call that leaves hands the lock on if it has it. -/
theorem NoLineIfFree.leave (h : e.NoLineIfFree) : (e.leave t).NoLineIfFree := by
  unfold ProxyEntry.leave
  split
  · exact h.unlock
  · intro hn
    simp [h hn]

/-! ## What the lock leaves alone -/

@[simp] theorem lock_peer : (e.lock t).peer = e.peer := by unfold lock; split <;> rfl

@[simp] theorem lock_slot : (e.lock t).slot = e.slot := by unfold lock; split <;> rfl

@[simp] theorem lock_lifecycle : (e.lock t).lifecycle = e.lifecycle := by unfold lock; split <;> rfl

/-- The holder keeps the lock when somebody else asks for it. -/
theorem lock_owner_of_some {u : TaskId} (h : e.owner = some u) : (e.lock t).owner = some u := by
  simp [lock, h]

@[simp] theorem unlock_peer : e.unlock.peer = e.peer := by unfold unlock; split <;> rfl

@[simp] theorem unlock_slot : e.unlock.slot = e.slot := by unfold unlock; split <;> rfl

@[simp] theorem unlock_lifecycle : e.unlock.lifecycle = e.lifecycle := by
  unfold unlock; split <;> rfl

@[simp] theorem leave_peer : (e.leave t).peer = e.peer := by unfold leave; split <;> simp

@[simp] theorem leave_slot : (e.leave t).slot = e.slot := by unfold leave; split <;> simp

@[simp] theorem leave_lifecycle : (e.leave t).lifecycle = e.lifecycle := by
  unfold leave; split <;> simp

/-- The holder keeps the lock when somebody else gives up waiting. -/
theorem leave_owner_of_ne {u : TaskId} (h : e.owner = some u) (hne : u ≠ t) :
    (e.leave t).owner = some u := by
  simp [leave, h, hne]

end Replica.ProxyEntry
