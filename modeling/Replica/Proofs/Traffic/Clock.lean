import Mathlib.Data.List.Induction
import Replica.Proofs.Traffic.Departures

/-!
# Runs under a clock

All events of a run that look at the clock see the time that it shows, and the clock moves on only when
no call can go on (`Timely`). So whatever a call is ready for happens before the clock moves on. At which
time something comes to hold is read off the run (`Becomes`); what holds from then on comes to hold at
one time only (`Becomes.unique`).
-/

namespace Replica.Traffic

variable {x : Traffic} {start time time' now later : Nat} {event : Event}
variable {events before after : List Event} {P Q : Traffic → Prop}

/-- The time that the event sees, if it looks at the clock. -/
def Event.time? : Event → Option Nat
  | .register now _ | .shutdown now _ | .clear now | .note now _ | .beginSend now _ _
  | .turnSend now _ | .beginTake now _ _ | .turnTake now _ | .beginReply now _ _ _
  | .turnReply now _ => some now
  | .setSwitches _ _ | .divert _ _ | .cancelSend _ | .cancelTake _ | .cancelReply _ => none

/-! ## The clock -/

/-- The clock shows `start` when the events begin, and `now` when they are over. -/
inductive Timely (x : Traffic) (start : Nat) : List Event → Nat → Prop where
  | start : Timely x start [] start
  | happens {events : List Event} {now : Nat} {event : Event} (h : Timely x start events now)
    (hnow : event.time? = none ∨ event.time? = some now) : Timely x start (events ++ [event]) now
  /-- The clock moves on over instants at which no call can go on. -/
  | passes {events : List Event} {now later : Nat} (h : Timely x start events now)
    (hlater : now ≤ later)
    (hquiet : ∀ instant, now ≤ instant → instant < later → (x.run events).IsQuiet instant) :
    Timely x start events later

namespace Timely

theorem le (h : x.Timely start events now) : start ≤ now := by
  induction h with
  | start => exact Nat.le_refl _
  | happens _ _ ih => exact ih
  | passes _ hlater _ ih => exact ih.trans hlater

/-- Before an event that sees the time the clock has shown it, and after the event it goes on from
there. -/
theorem split (h : x.Timely start (before ++ event :: after) now) (htime : event.time? = some time) :
    x.Timely start before time ∧ ((x.run before).step event).Timely time after now := by
  generalize hevents : before ++ event :: after = events at h
  induction h generalizing after with
  | start => simp at hevents
  | @happens events now last h hnow ih =>
    rcases List.eq_nil_or_concat after with rfl | ⟨after, last', rfl⟩
    · obtain ⟨rfl, heq⟩ := List.append_inj' hevents rfl
      cases heq
      rcases hnow with hnone | hsome
      · cases hnone.symm.trans htime
      · obtain rfl := Option.some.inj (htime.symm.trans hsome)
        exact ⟨h, .start⟩
    · rw [List.concat_eq_append, ← List.cons_append, ← List.append_assoc] at hevents
      obtain ⟨rfl, heq⟩ := List.append_inj' hevents rfl
      cases heq
      obtain ⟨hbefore, hafter⟩ := ih rfl
      rw [List.concat_eq_append]
      exact ⟨hbefore, .happens hafter hnow⟩
  | passes h hlater hquiet ih =>
    subst hevents
    obtain ⟨hbefore, hafter⟩ := ih rfl
    rw [run_append] at hquiet
    exact ⟨hbefore, .passes hafter hlater hquiet⟩

/-- One run after the other. -/
theorem trans {mid : Nat} (h : x.Timely start before mid) (h' : (x.run before).Timely mid after now) :
    x.Timely start (before ++ after) now := by
  induction h' with
  | start =>
    rw [List.append_nil]
    exact h
  | happens _ hnow ih =>
    rw [← List.append_assoc]
    exact .happens ih hnow
  | passes _ hlater hquiet ih =>
    rw [← run_append] at hquiet
    exact .passes ih hlater hquiet

end Timely

/-! ## Keeping time -/

/-- A call that can go on can go on later, too. -/
theorem IsQuiet.earlier (h : x.IsQuiet later) (hle : now ≤ later) : x.IsQuiet now where
  sends i call stage found hstate := by
    have hstuck := h.sends i call stage found hstate
    cases stage with
    | blocked box r wake =>
      simp only [Network.sendReady, Bool.and_eq_false_iff, decide_eq_false_iff_not] at hstuck ⊢
      exact hstuck.imp_left fun hlater hnow => hlater (hnow.trans hle)
    | waiting box r slip deadline =>
      simp only [Network.sendReady, Bool.or_eq_false_iff, decide_eq_false_iff_not] at hstuck ⊢
      exact hstuck.imp_right fun hlater hnow => hlater (hnow.trans hle)
  takes i call stage found hstate := by
    have hstuck := h.takes i call stage found hstate
    cases stage with
    | looking box => exact hstuck
    | delayed box wake =>
      simp only [Network.takeReady, decide_eq_false_iff_not] at hstuck ⊢
      exact fun hnow => hstuck (hnow.trans hle)
    | holding box r wake =>
      simp only [Network.takeReady, decide_eq_false_iff_not] at hstuck ⊢
      exact fun hnow => hstuck (hnow.trans hle)

/-- Whether no call can go on at the time. -/
def isQuiet (now : Nat) (x : Traffic) : Bool :=
  (x.sends.all fun call => (call.state.stage?.map (x.network.sendReady now)) ≠ some true) &&
    x.takes.all fun call => (call.state.stage?.map (x.network.takeReady now call.task)) ≠ some true

theorem isQuiet_of_eq_true (h : x.isQuiet now = true) : x.IsQuiet now := by
  simp only [isQuiet, Bool.and_eq_true, List.all_eq_true, decide_eq_true_eq] at h
  obtain ⟨hsends, htakes⟩ := h
  constructor
  · intro i call stage found hstate
    have hstuck := hsends call (List.mem_of_getElem? found)
    rw [hstate] at hstuck
    simpa [CallState.stage?] using hstuck
  · intro i call stage found hstate
    have hstuck := htakes call (List.mem_of_getElem? found)
    rw [hstate] at hstuck
    simpa [CallState.stage?] using hstuck

/-- The time that the clock shows after the events, unless one of them comes too early or too late. -/
def keepsTime? (x : Traffic) (now : Nat) : List Event → Option Nat
  | [] => some now
  | event :: events =>
    match event.time? with
    | none => (x.step event).keepsTime? now events
    | some time =>
      if time = now ∨ now < time ∧ x.isQuiet (time - 1) then (x.step event).keepsTime? time events
      else none

theorem timely_of_keepsTime? (h : x.keepsTime? start events = some now) :
    x.Timely start events now := by
  induction events generalizing x start with
  | nil =>
    cases h
    exact .start
  | cons event events ih =>
    have hfirst {time : Nat} (hclock : x.Timely start [] time)
        (hnow : event.time? = none ∨ event.time? = some time)
        (hrest : (x.step event).keepsTime? time events = some now) :
        x.Timely start ([event] ++ events) now :=
      Timely.trans (.happens hclock hnow) (ih hrest)
    rw [keepsTime?] at h
    split at h
    · next hnone => exact hfirst .start (.inl hnone) h
    · next time htime =>
      split at h
      · next hclock =>
        refine hfirst ?_ (.inr htime) h
        rcases hclock with rfl | ⟨hlt, hquiet⟩
        · exact .start
        · exact .passes .start hlt.le fun instant _ hinstant =>
            (isQuiet_of_eq_true hquiet).earlier (Nat.le_sub_one_of_lt hinstant)
      · cases h

/-! ## When something comes to hold -/

/-- With an event at the time, something comes to hold that did not hold before. -/
def Becomes (x : Traffic) (events : List Event) (time : Nat) (P : Traffic → Prop) : Prop :=
  ∃ before event after, events = before ++ event :: after ∧ event.time? = some time ∧
    ¬ P (x.run before) ∧ P ((x.run before).step event)

/-- It comes to hold with the last event, or has done so before. -/
theorem becomes_concat_iff : x.Becomes (events ++ [event]) time P ↔
    x.Becomes events time P ∨
      (event.time? = some time ∧ ¬ P (x.run events) ∧ P ((x.run events).step event)) := by
  constructor
  · rintro ⟨before, first, after, hevents, htime, hnot, hholds⟩
    rcases List.eq_nil_or_concat after with rfl | ⟨after, last, rfl⟩
    · obtain ⟨rfl, heq⟩ := List.append_inj' hevents rfl
      cases heq
      exact .inr ⟨htime, hnot, hholds⟩
    · rw [List.concat_eq_append, ← List.cons_append, ← List.append_assoc] at hevents
      obtain ⟨rfl, -⟩ := List.append_inj' hevents rfl
      exact .inl ⟨before, first, after, rfl, htime, hnot, hholds⟩
  · rintro (⟨before, first, after, rfl, hrest⟩ | ⟨htime, hnot, hholds⟩)
    · exact ⟨before, first, after ++ [event], by simp, hrest⟩
    · exact ⟨events, event, [], rfl, htime, hnot, hholds⟩

theorem Becomes.exists_event (h : x.Becomes events time P) :
    ∃ event ∈ events, event.time? = some time := by
  obtain ⟨before, event, after, rfl, htime, -⟩ := h
  exact ⟨event, List.mem_append_right _ List.mem_cons_self, htime⟩

theorem Becomes.concat (h : x.Becomes events time P) (event : Event) :
    x.Becomes (events ++ [event]) time P :=
  becomes_concat_iff.mpr (.inl h)

theorem Becomes.holds (h : x.Becomes events time P) (hstable : Stable P) : P (x.run events) := by
  obtain ⟨before, event, after, rfl, -, -, hholds⟩ := h
  rw [run_append]
  exact hstable.run hholds after

/-- What has not come to hold at the end has not come to hold before. -/
theorem not_becomes (h : ¬ P (x.run events)) (hstable : Stable P) (time : Nat) :
    ¬ x.Becomes events time P :=
  fun hbecomes => h (hbecomes.holds hstable)

/-- It comes to hold at one time only. -/
theorem Becomes.unique (h : x.Becomes events time P) (h' : x.Becomes events time' P)
    (hstable : Stable P) : time = time' := by
  induction events using List.reverseRecOn with
  | nil =>
    obtain ⟨before, event, after, hevents, -⟩ := h
    exact absurd hevents (by simp)
  | append_singleton events event ih =>
    rcases becomes_concat_iff.mp h with h | ⟨htime, hnot, -⟩ <;>
      rcases becomes_concat_iff.mp h' with h' | ⟨htime', hnot', -⟩
    · exact ih h h'
    · exact absurd (h.holds hstable) hnot'
    · exact absurd (h'.holds hstable) hnot
    · exact Option.some.inj (htime.symm.trans htime')

end Replica.Traffic
