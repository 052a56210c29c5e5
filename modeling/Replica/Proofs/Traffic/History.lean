import Replica.Proofs.Network.Queues
import Replica.Proofs.Traffic.Steps

/-!
# The history of the traffic

What the events of a run have written into the journal of their own accord, without the notes that
others make. It says how requests have moved (`run_moves`): whoever takes requests out of a mailbox
takes out what was put into that mailbox, in that order.
-/

namespace Replica.Traffic

open Network

variable {x : Traffic} {net' : Network} {box : MailboxId}

/-- What the event writes into the journal, unless it is a note. -/
def wrote (x : Traffic) : Event → List Occurrence
  | .note .. => []
  | event => ((x.step event).network.journal.map (·.what)).drop x.network.journal.length

/-- What the events have written, one after the other. -/
def history (x : Traffic) : List Event → List Occurrence
  | [] => []
  | event :: events => x.wrote event ++ (x.step event).history events

/-- What is recorded is found at the end of the journal. -/
theorem moves_of_recorded (h : Recorded x.network net') :
    Moves ((net'.journal.map (·.what)).drop x.network.journal.length) x.network net' := by
  obtain ⟨written, hjournal, hmoves⟩ := h
  have hlength : x.network.journal.length = (x.network.journal.map (·.what)).length :=
    (List.length_map _).symm
  rw [hjournal, hlength, List.drop_left]
  exact hmoves

theorem wrote_of_ne {event : Event} (h : ∀ now what, event ≠ .note now what) :
    x.wrote event = ((x.step event).network.journal.map (·.what)).drop x.network.journal.length := by
  unfold wrote
  split
  · next now what => exact absurd rfl (h now what)
  · rfl

theorem step_recorded (event : Event) (h : ∀ now what, event ≠ .note now what) :
    Recorded x.network (x.step event).network := by
  have hstep := x.stepsTo_step event
  generalize x.step event = y at hstep ⊢
  cases hstep with
  | idles _ => exact .refl _
  | register now node => exact register_recorded now node x.network
  | shutdown now node => exact shutdown_recorded now node x.network
  | clear now => exact clear_recorded now x.network
  | setSwitches box f => exact setSwitches_recorded box f x.network
  | divert owner other => exact divert_recorded owner other x.network
  | note now what => exact absurd rfl (h now what)
  | beginSend now t r => exact beginSend_recorded now r x.network
  | turnSend now _ _ => exact turnSend_recorded now _ x.network
  | cancelSend _ _ => exact cancelSend_recorded _ x.network
  | beginTake now t node => exact beginTake_recorded now t node x.network
  | turnTake now _ _ => exact turnTake_recorded now _ _ x.network
  | cancelTake _ _ => exact cancelTake_recorded _ _ x.network
  | beginReply now t r outcome => exact beginReply_recorded now r outcome x.network
  | turnReply now _ _ => exact turnReply_recorded now _ x.network
  | cancelReply _ _ => exact .refl _

theorem step_moves (x : Traffic) (event : Event) :
    Moves (x.wrote event) x.network (x.step event).network := by
  by_cases h : ∃ now what, event = .note now what
  · obtain ⟨now, what, rfl⟩ := h
    exact .of_same (fun _ => rfl) (fun _ => id)
  · have hnot : ∀ now what, event ≠ .note now what := fun now what heq => h ⟨now, what, heq⟩
    rw [wrote_of_ne hnot]
    exact moves_of_recorded (step_recorded event hnot)

/-- The history says how requests have moved. -/
theorem run_moves (x : Traffic) (events : List Event) :
    Moves (x.history events) x.network (x.run events).network := by
  induction events generalizing x with
  | nil => exact .of_same (fun _ => rfl) (fun _ => id)
  | cons event events ih => exact (step_moves x event).trans (ih (x.step event))

/-- What takers have taken out of a mailbox was put into it, in that order. -/
theorem pops_sublist_pushes (settings : Settings) (dice : Nat → UInt64) (events : List Event)
    (box : MailboxId) :
    (pops box (history { network := { settings, dice } } events)).Sublist
      (pushes box (history { network := { settings, dice } } events)) := by
  have hmoves := run_moves { network := { settings, dice } } events
  exact (pops_sublist_removals box _).trans (hmoves.removals_prefix_pushes rfl).sublist

/-- Nothing is taken out of a mailbox that is closed and empty. -/
theorem pops_eq_nil (hclosed : x.network.IsClosed box) (hempty : x.network.contents box = [])
    (events : List Event) : pops box (x.history events) = [] := by
  have hnone := (run_moves x events).removals_eq_nil hclosed hempty
  have hsub := pops_sublist_removals box (x.history events)
  rw [hnone] at hsub
  exact List.sublist_nil.mp hsub

end Replica.Traffic
