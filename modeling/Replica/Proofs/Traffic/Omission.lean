import Mathlib.Data.List.InsertIdx
import Replica.Proofs.Traffic.Departures

/-!
# Runs without a call

A call that sends and never enters anything in a table might as well not have been made: without it,
the run leads to the same network and the same other calls (`reached_without`). A call of the other run
has the same number, or the one before, if it began later (`renumber`).
-/

namespace Replica.Traffic

open Network

variable {x : Traffic} {i j : Nat} {call : SendCall} {slip : SlipId} {event : Event}

/-! ## Calls and their numbers -/

/-- The number of another call if the `i`-th one is left out. -/
def renumber (i j : Nat) : Nat := if j < i then j else j - 1

theorem getElem?_renumber {α : Type} {l : List α} (h : j ≠ i) :
    (l.eraseIdx i)[renumber i j]? = l[j]? := by
  unfold renumber
  split
  · next hlt => exact List.getElem?_eraseIdx_of_lt hlt
  · next hge =>
    have hlt : i < j := lt_of_le_of_ne (Nat.le_of_not_lt hge) (Ne.symm h)
    rw [List.getElem?_eraseIdx_of_ge (Nat.le_sub_one_of_lt hlt),
      Nat.sub_add_cancel (Nat.one_le_of_lt hlt)]

theorem modify_renumber {α : Type} {l : List α} {f : α → α} (h : j ≠ i) :
    (l.eraseIdx i).modify (renumber i j) f = (l.modify j f).eraseIdx i := by
  unfold renumber
  split
  · next hlt => exact (List.eraseIdx_modify_of_gt f j i l hlt).symm
  · next hge =>
    exact (List.eraseIdx_modify_of_lt f j i l
      (lt_of_le_of_ne (Nat.le_of_not_lt hge) (Ne.symm h))).symm

/-- How many calls that send begin with the event. -/
def Event.begun : Event → Nat
  | .beginSend .. => 1
  | _ => 0

/-- The event in a run without the `i`-th call that sends, unless it is one of that call. By now `n`
such calls have begun. -/
def Event.without? (i n : Nat) : Event → Option Event
  | .beginSend now t r => if n = i then none else some (.beginSend now t r)
  | .turnSend now j => if j = i then none else some (.turnSend now (renumber i j))
  | .cancelSend j => if j = i then none else some (.cancelSend (renumber i j))
  | event => some event

/-- The run without the `i`-th call that sends. -/
def without (i n : Nat) : List Event → List Event
  | [] => []
  | event :: events => (event.without? i n).toList ++ without i (n + event.begun) events

/-- The traffic without the `i`-th call that sends. -/
def dropSend (i : Nat) (x : Traffic) : Traffic := { x with sends := x.sends.eraseIdx i }

theorem length_sends_step (x : Traffic) (event : Event) :
    (x.step event).sends.length = x.sends.length + event.begun := by
  have hstep := x.stepsTo_step event
  generalize x.step event = y at hstep ⊢
  cases hstep with
  | idles hidle => cases hidle <;> rfl
  | beginSend now t r => exact List.length_append
  | divert owner other => exact List.length_map _
  | turnSend now _ _ => exact List.length_modify ..
  | cancelSend _ _ => exact List.length_modify ..
  | _ => rfl

/-! ## Calls and their slips -/

/-- A slip stays with its call. -/
theorem Owns.step (h : x.Owns i slip call) (ha : x.Accounted) (event : Event) :
    ∃ call', (x.step event).Owns i slip call' := by
  obtain ⟨found, hslip⟩ := h
  obtain ⟨call', found', hstep⟩ := exists_sendStep found event
  refine ⟨call', found', ?_⟩
  cases hstep with
  | stays _ => exact hslip
  | diverts owner other => exact hslip
  | turns now hstate =>
    -- whoever has a slip enters nothing
    cases (ha.turnSend_sends found hstate now).1 with
    | keeps _ hsame => exact hsame.trans hslip
    | enters _ _ _ hnone _ => cases hnone.symm.trans hslip
  | cancels _ => exact hslip

theorem Owns.run (h : x.Owns i slip call) (ha : x.Accounted) (events : List Event) :
    ∃ call', (x.run events).Owns i slip call' := by
  induction events generalizing x call with
  | nil => exact ⟨call, h⟩
  | cons event events ih =>
    obtain ⟨call', h'⟩ := h.step ha event
    exact ih h' (ha.step event)

/-- The call has entered nothing. -/
def Unentered (x : Traffic) (i : Nat) : Prop :=
  ∀ call, x.sends[i]? = some call → call.slip? = none

/-- Whoever has entered nothing at the end has entered nothing before. -/
theorem Unentered.of_run {events : List Event} (h : (x.run events).Unentered i) (ha : x.Accounted) :
    x.Unentered i := by
  intro call found
  cases hslip : call.slip? with
  | none => rfl
  | some slip =>
    obtain ⟨call', found', hslip'⟩ := Owns.run ⟨found, hslip⟩ ha events
    cases (h call' found').symm.trans hslip'

/-- A sender that comes to a mailbox and enters nothing changes nothing. -/
theorem network_eq_of_unentered {net : Network} {box : MailboxId} {r : Request} {read : Option Outcome}
    {result : Network × SendProgress} (h : Admission box r net result)
    (hnone : (call.after net read result).slip? = none) : result.1 = net := by
  cases h with
  | blocked wake => rfl
  | refused e => rfl
  | entered deadline henters =>
    cases hnone.symm.trans (SendCall.after_slip?_of_enters henters read _ call)
  | overdue e henters => cases hnone.symm.trans (SendCall.after_slip?_of_enters henters read _ call)

/-- What a turn of a call does that enters nothing. -/
theorem turnSend_network_eq {stage : Sending} {now : Nat} (found : x.sends[i]? = some call)
    (hstate : call.state = .underWay stage) (ha : x.Accounted)
    (hnone : (call.after x.network (stage.read? x.network) (x.network.turnSend now stage)).slip? =
      none) : (x.network.turnSend now stage).1 = x.network := by
  cases stage with
  | blocked box r wake =>
    rw [Network.turnSend] at hnone ⊢
    split
    · next hwake =>
      rw [if_pos hwake] at hnone
      exact network_eq_of_unentered (trySend_admission now box r x.network) hnone
    · rfl
  | waiting box r slip deadline =>
    -- a call that waits has a slip, and keeps it
    have hslip := (ha.senders i call found).waiting _ _ _ _ hstate
    obtain ⟨hsends, -⟩ := ha.turnSend_sends found hstate now
    cases hsends with
    | keeps _ hsame => cases hnone.symm.trans (hsame.trans hslip)
    | enters _ _ _ hbefore _ => cases hbefore.symm.trans hslip

/-! ## Runs -/

/-- An event of the call itself changes nothing but the call. -/
theorem dropSend_step_of_own (ha : x.Accounted) (hown : event.without? i x.sends.length = none)
    (hnone : (x.step event).Unentered i) : (x.step event).dropSend i = x.dropSend i := by
  have hstep := x.stepsTo_step event
  generalize x.step event = y at hstep hnone ⊢
  cases hstep with
  | idles _ => rfl
  | beginSend now t r =>
    obtain rfl : x.sends.length = i := by simpa [Event.without?] using hown
    have hnetwork : (x.network.beginSend now r).1 = x.network := by
      have hnone := hnone _ List.getElem?_concat_length
      unfold Network.beginSend at hnone ⊢
      split
      · rfl
      · next box hget =>
        simp only [hget] at hnone
        exact network_eq_of_unentered (trySend_admission now box r x.network) hnone
    simp [dropSend, beginSend, hnetwork, List.eraseIdx_append_of_length_le,
      List.eraseIdx_of_length_le]
  | @turnSend now j call stage found hstate =>
    obtain rfl : j = i := by simpa [Event.without?] using hown
    have hnetwork := turnSend_network_eq found hstate ha
      (hnone _ (getElem?_modify_eq_some_iff.mpr ⟨call, found, if_pos rfl⟩))
    simp only [dropSend, List.eraseIdx_modify_of_eq, hnetwork]
  | @cancelSend j call stage found hstate =>
    obtain rfl : j = i := by simpa [Event.without?] using hown
    have hslip := hnone _ (getElem?_modify_eq_some_iff.mpr ⟨call, found, if_pos rfl⟩)
    have hnetwork : x.network.cancelSend stage = x.network := by
      cases stage with
      | blocked box r wake => rfl
      | waiting box r slip deadline =>
        cases hslip.symm.trans ((ha.senders j call found).waiting _ _ _ _ hstate)
    simp only [dropSend, List.eraseIdx_modify_of_eq, hnetwork]
  | _ => cases hown

/-- An event of another call does the same without the call. -/
theorem dropSend_step_of_other {event' : Event}
    (hother : event.without? i x.sends.length = some event') :
    (x.dropSend i).step event' = (x.step event).dropSend i := by
  cases event with
  | beginSend now t r =>
    obtain ⟨hne, rfl⟩ : x.sends.length ≠ i ∧ .beginSend now t r = event' := by
      simpa [Event.without?] using hother
    have herase (call : SendCall) : (x.sends ++ [call]).eraseIdx i = x.sends.eraseIdx i ++ [call] := by
      rcases Nat.lt_or_gt_of_ne hne with hlt | hlt
      · rw [List.eraseIdx_of_length_le (Nat.le_of_lt hlt), List.eraseIdx_of_length_le]
        rw [List.length_append]
        exact hlt
      · exact List.eraseIdx_append_of_lt_length hlt _
    simp only [dropSend, step, beginSend, herase]
  | turnSend now j =>
    obtain ⟨hne, rfl⟩ : j ≠ i ∧ .turnSend now (renumber i j) = event' := by
      simpa [Event.without?] using hother
    rw [step, step, turnSend, turnSend, dropSend, getElem?_renumber hne]
    split
    · simp only [dropSend, modify_renumber hne]
    · rfl
  | cancelSend j =>
    obtain ⟨hne, rfl⟩ : j ≠ i ∧ .cancelSend (renumber i j) = event' := by
      simpa [Event.without?] using hother
    rw [step, step, cancelSend, cancelSend, dropSend, getElem?_renumber hne]
    split
    · simp only [dropSend, modify_renumber hne]
    · rfl
  | divert owner other =>
    cases hother
    simp only [step, dropSend, divert, List.eraseIdx_map]
  | turnTake now j =>
    cases hother
    show (x.dropSend i).turnTake now j = (x.turnTake now j).dropSend i
    unfold turnTake dropSend
    dsimp only
    split <;> rfl
  | cancelTake j =>
    cases hother
    show (x.dropSend i).cancelTake j = (x.cancelTake j).dropSend i
    unfold cancelTake dropSend
    dsimp only
    split <;> rfl
  | turnReply now j =>
    cases hother
    show (x.dropSend i).turnReply now j = (x.turnReply now j).dropSend i
    unfold turnReply dropSend
    dsimp only
    split <;> rfl
  | cancelReply j =>
    cases hother
    show (x.dropSend i).cancelReply j = (x.cancelReply j).dropSend i
    unfold cancelReply dropSend
    dsimp only
    split <;> rfl
  | _ =>
    cases hother
    rfl

/-- One event, and the same traffic without the call. -/
theorem step_dropSend (ha : x.Accounted) (hnone : (x.step event).Unentered i) :
    (x.dropSend i).run (event.without? i x.sends.length).toList = (x.step event).dropSend i := by
  cases hevent : event.without? i x.sends.length with
  | none => exact (dropSend_step_of_own ha hevent hnone).symm
  | some event' => exact dropSend_step_of_other hevent

theorem run_dropSend (ha : x.Accounted) (events : List Event) (hnone : (x.run events).Unentered i) :
    (x.dropSend i).run (without i x.sends.length events) = (x.run events).dropSend i := by
  induction events generalizing x with
  | nil => rfl
  | cons event events ih =>
    have hstep := step_dropSend ha (Unentered.of_run (x := x.step event) hnone (ha.step event))
    rw [without, run_append, hstep, ← length_sends_step]
    exact ih (ha.step event) hnone

/-- Without a call that has entered nothing, the run leads to the same traffic but for that call. -/
theorem reached_without (settings : Settings) (dice : Nat → UInt64) (events : List Event)
    (hnone : (reached settings dice events).Unentered i) :
    reached settings dice (without i 0 events) = (reached settings dice events).dropSend i :=
  run_dropSend (.new settings dice) events hnone

end Replica.Traffic
