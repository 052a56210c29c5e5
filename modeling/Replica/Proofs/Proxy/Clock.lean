import Mathlib.Data.Nat.Find
import Replica.Proofs.Proxy.OneByOne

/-!
# Runs of a proxy map under a clock

Here every event of a run comes with the time at which it happens, those that do not look at the clock
included. The clock moves on only when no call can go on (`Timely`), so whatever a call is ready for happens
before the clock moves on.

`Becomes` says at which time something comes to hold in a run. What holds unless somebody can go on can be
brought about by turns that are taken as soon as they can be taken (`exists_turns`).
-/

namespace Replica.ProxyMap

variable {m : ProxyMap} {t : TaskId} {start time now later : Nat} {event : Event}
variable {events before after : List (Nat × Event)} {P : ProxyMap → Prop}

/-- The time that the event sees, if it looks at the clock. -/
def Event.time? : Event → Option Nat
  | .begin now _ _ | .turn now _ _ => some now
  | .register _ | .cancel _ => none

/-- The map after events at given times. -/
def runAt (m : ProxyMap) (events : List (Nat × Event)) : ProxyMap := m.run (events.map (·.2))

theorem runAt_append : m.runAt (before ++ after) = (m.runAt before).runAt after := by
  simp only [runAt, List.map_append, run_append]

theorem runAt_concat : m.runAt (events ++ [(time, event)]) = (m.runAt events).step event := by
  simp only [runAt, List.map_append, List.map_cons, List.map_nil, run_concat]

/-! ## The clock -/

/-- The clock shows `start` when the events begin, and `now` when they are over. -/
inductive Timely (m : ProxyMap) (start : Nat) : List (Nat × Event) → Nat → Prop where
  | start : Timely m start [] start
  | happens {events : List (Nat × Event)} {now : Nat} {event : Event} (h : Timely m start events now)
    (hnow : event.time? = none ∨ event.time? = some now) : Timely m start (events ++ [(now, event)]) now
  /-- The clock moves on over instants at which no call can go on. -/
  | passes {events : List (Nat × Event)} {now later : Nat} (h : Timely m start events now)
    (hlater : now ≤ later)
    (hquiet : ∀ instant, now ≤ instant → instant < later →
      ∀ t, (m.runAt events).isReady instant t = false) : Timely m start events later

namespace Timely

theorem le (h : m.Timely start events now) : start ≤ now := by
  induction h with
  | start => exact Nat.le_refl _
  | happens _ _ ih => exact ih
  | passes _ hlater _ ih => exact ih.trans hlater

/-- One run after the other. -/
theorem trans {mid : Nat} (h : m.Timely start before mid) (h' : (m.runAt before).Timely mid after now) :
    m.Timely start (before ++ after) now := by
  induction h' with
  | start =>
    rw [List.append_nil]
    exact h
  | happens _ hnow ih =>
    rw [← List.append_assoc]
    exact .happens ih hnow
  | passes _ hlater hquiet ih =>
    rw [← runAt_append] at hquiet
    exact .passes ih hlater hquiet

end Timely

/-- A call that can go on can go on later, too. -/
theorem isReady_later (hready : m.isReady now t = true) (hle : now ≤ later) :
    m.isReady later t = true := by
  unfold isReady at hready ⊢
  split at hready
  · exact hready
  · simp only [decide_eq_true_eq] at hready ⊢
    exact hready.trans hle
  · obtain ⟨job, hjob, hgoes⟩ := List.any_eq_true.mp hready
    refine List.any_eq_true.mpr ⟨job, hjob, ?_⟩
    cases job with
    | locking e => exact hgoes
    | closing e h wake =>
      simp only [retirementReady, decide_eq_true_eq] at hgoes ⊢
      exact hgoes.trans hle
    | finished e => cases hgoes
  · cases hready

theorem not_isReady_earlier (hready : m.isReady later t = false) (hle : now ≤ later) :
    m.isReady now t = false := by
  cases hnow : m.isReady now t with
  | false => rfl
  | true => exact absurd (isReady_later hnow hle) (Bool.eq_false_iff.mp hready)

/-! ## Keeping time -/

/-- Whether no call can go on at the time. -/
def isQuiet (now : Nat) (m : ProxyMap) : Bool :=
  (List.range m.tasks.length).all fun t => !m.isReady now t

theorem not_isReady_of_isQuiet (hquiet : m.isQuiet now = true) (t : TaskId) :
    m.isReady now t = false := by
  by_cases hlt : t < m.tasks.length
  · simpa using List.all_eq_true.mp hquiet t (List.mem_range.mpr hlt)
  · have hnone : m.stage? t = none := by
      simp [stage?, List.getElem?_eq_none (Nat.not_lt.mp hlt)]
    simp [isReady, hnone]

/-- The time that the clock shows after the events, unless one of them comes too early or too late. -/
def keepsTime? (m : ProxyMap) (now : Nat) : List (Nat × Event) → Option Nat
  | [] => some now
  | (time, event) :: events =>
    if (event.time? = none ∨ event.time? = some time) ∧
        (time = now ∨ now < time ∧ m.isQuiet (time - 1) = true) then
      (m.step event).keepsTime? time events
    else none

theorem timely_of_keepsTime? (h : m.keepsTime? start events = some now) :
    m.Timely start events now := by
  induction events generalizing m start with
  | nil =>
    cases h
    exact .start
  | cons first events ih =>
    obtain ⟨time, event⟩ := first
    rw [keepsTime?] at h
    split at h
    · next hfirst =>
      obtain ⟨hsees, hclock⟩ := hfirst
      have hreaches : m.Timely start [] time := by
        rcases hclock with rfl | ⟨hlt, hquiet⟩
        · exact .start
        · refine .passes .start hlt.le fun instant _ hinstant t => ?_
          exact not_isReady_earlier (not_isReady_of_isQuiet hquiet t) (Nat.le_sub_one_of_lt hinstant)
      exact Timely.trans (.happens hreaches hsees) (ih h)
    · cases h

/-! ## When something comes to hold -/

/-- With an event at the time, something comes to hold that did not hold before. -/
def Becomes (m : ProxyMap) (events : List (Nat × Event)) (time : Nat) (P : ProxyMap → Prop) : Prop :=
  ∃ before event after, events = before ++ (time, event) :: after ∧
    ¬ P (m.runAt before) ∧ P ((m.runAt before).step event)

/-- It comes to hold with the last event, or has done so before. -/
theorem becomes_concat_iff : m.Becomes (events ++ [(now, event)]) time P ↔
    m.Becomes events time P ∨ (time = now ∧ ¬ P (m.runAt events) ∧ P ((m.runAt events).step event)) := by
  constructor
  · rintro ⟨before, first, after, hevents, hnot, hholds⟩
    rcases List.eq_nil_or_concat after with rfl | ⟨after, last, rfl⟩
    · obtain ⟨rfl, heq⟩ := List.append_inj' hevents rfl
      cases heq
      exact .inr ⟨rfl, hnot, hholds⟩
    · rw [List.concat_eq_append, ← List.cons_append, ← List.append_assoc] at hevents
      obtain ⟨rfl, -⟩ := List.append_inj' hevents rfl
      exact .inl ⟨before, first, after, rfl, hnot, hholds⟩
  · rintro (⟨before, first, after, rfl, hrest⟩ | ⟨rfl, hnot, hholds⟩)
    · exact ⟨before, first, after ++ [(now, event)], by simp, hrest⟩
    · exact ⟨events, event, [], rfl, hnot, hholds⟩

theorem Becomes.holds (h : m.Becomes events time P)
    (hstable : ∀ before after, P (m.runAt before) → P (m.runAt (before ++ after))) :
    P (m.runAt events) := by
  obtain ⟨before, event, after, rfl, -, hholds⟩ := h
  rw [← runAt_concat] at hholds
  rw [List.append_cons]
  exact hstable _ after hholds

/-- What lasts comes to hold at one time only. -/
theorem Becomes.unique {time' : Nat} (h : m.Becomes events time P) (h' : m.Becomes events time' P)
    (hstable : ∀ before after, P (m.runAt before) → P (m.runAt (before ++ after))) : time = time' := by
  induction events using List.reverseRecOn with
  | nil =>
    obtain ⟨before, event, after, hevents, -⟩ := h
    exact absurd hevents (by simp)
  | append_singleton events last ih =>
    rcases becomes_concat_iff.mp h with h | ⟨htime, hnot, -⟩ <;>
      rcases becomes_concat_iff.mp h' with h' | ⟨htime', hnot', -⟩
    · exact ih h h'
    · exact absurd (h.holds hstable) hnot'
    · exact absurd (h'.holds hstable) hnot
    · exact htime.trans htime'.symm

/-! ## Carrying on -/

/-- The turns as events. -/
def turnsAt (factory : Factory) (turns : List (Nat × TaskId)) : List (Nat × Event) :=
  turns.map fun x => (x.1, .turn x.1 factory x.2)

/-- Something that holds unless somebody can go on, now or later, is brought about by turns alone, each of
them taken as soon as it can be taken. -/
theorem exists_turns (factory : Factory) {I : ProxyMap → Prop}
    (hturn : ∀ m now t, I m → I (m.turn now factory t))
    (hgoes : ∀ m, I m → P m ∨ ∃ now t, m.isReady now t = true) (hm : m.Separate) (hI : I m) (now : Nat) :
    ∃ turns later, m.Timely now (turnsAt factory turns) later ∧ P (m.runAt (turnsAt factory turns)) := by
  induction heffort : m.effort using Nat.strongRecOn generalizing m now with
  | ind n ih =>
    rcases hgoes m hI with hP | ⟨instant, u, hready⟩
    · exact ⟨[], now, .start, hP⟩
    · -- the first instant from now on at which somebody can go on
      have hsome : ∃ instant, now ≤ instant ∧ ∃ t, m.isReady instant t = true :=
        ⟨max now instant, Nat.le_max_left _ _, u, isReady_later hready (Nat.le_max_right _ _)⟩
      classical
      obtain ⟨hle, t, hready⟩ := Nat.find_spec hsome
      have hquiet : ∀ i, now ≤ i → i < Nat.find hsome → ∀ t, m.isReady i t = false := fun i hi hlt t =>
        Bool.eq_false_iff.mpr fun hready => Nat.find_min hsome hlt ⟨hi, t, hready⟩
      obtain ⟨turns, later, hclock, hP⟩ := ih _ (heffort ▸ effort_turn factory hm hready) hm.turn
        (hturn m (Nat.find hsome) t hI) (Nat.find hsome) rfl
      have hfirst : m.Timely now [(Nat.find hsome, .turn (Nat.find hsome) factory t)] (Nat.find hsome) :=
        .happens (.passes .start hle hquiet) (.inr rfl)
      exact ⟨(Nat.find hsome, t) :: turns, later, hfirst.trans hclock, hP⟩

end Replica.ProxyMap
