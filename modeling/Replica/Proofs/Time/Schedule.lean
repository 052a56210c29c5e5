import Mathlib.Data.List.Basic
import Replica.Time.Schedule

/-!
# Settling

What giving turns until nobody can go on comes to. The state that is reached is the state after some
sequence of turns, each given to a task that could go on (`turns_induction`), so whatever turns keep,
settling keeps. If turns come to an end within the schedule's bound, then nobody can go on afterwards
(`settle_isQuiet`).
-/

namespace Replica.Schedule

variable {σ : Type} (schedule : Schedule σ)

/-! ## The line -/

theorem mem_line_giveTurn {t u : TaskId} {m : Moment σ} :
    u ∈ (schedule.giveTurn t m).line ↔ u ∈ m.line := by
  simp only [giveTurn, List.partition_eq_filter_filter, List.mem_append, List.mem_filter,
    Function.comp_apply, Bool.not_eq_true']
  rw [← and_or_left]
  exact and_iff_left (Bool.eq_false_or_eq_true _)

/-- With nobody in line yet, everybody who has begun joins it. -/
theorem mem_line_enlist {m : Moment σ} (hm : m.line = []) {t : TaskId} :
    t ∈ (schedule.enlist m).line ↔ t < schedule.size m.state := by
  simp [enlist, hm, List.mem_range']

/-- The task whose turn it is can go on. -/
theorem isReady_of_next? {m : Moment σ} {t : TaskId} (h : schedule.next? m = some t) :
    schedule.isReady m.now t m.state = true :=
  List.find?_some (p := fun t => schedule.isReady m.now t m.state) h

/-! ## What turns keep -/

/-- What each turn of a task that can go on keeps, any number of turns keeps. -/
theorem turns_induction {P : σ → Prop} {now : Nat}
    (hturn : ∀ t s, schedule.isReady now t s = true → P s → P (schedule.turn now t s))
    (fuel : Nat) {m : Moment σ} (hnow : m.now = now) (hm : P m.state) :
    P (schedule.turns fuel m).state := by
  induction fuel generalizing m with
  | zero => exact hm
  | succ fuel ih =>
    simp only [turns]
    cases hnext : schedule.next? m with
    | none => exact hm
    | some t =>
      have hready := hnow ▸ schedule.isReady_of_next? hnext
      exact ih hnow (by simpa only [giveTurn, hnow] using hturn t m.state hready hm)

theorem settle_induction {P : σ → Prop} {m : Moment σ}
    (hturn : ∀ t s, schedule.isReady m.now t s = true → P s → P (schedule.turn m.now t s))
    (hm : P m.state) : P (schedule.settle m).state :=
  schedule.turns_induction hturn _ rfl hm

/-! ## Quiet -/

/-- Turns come to an end, as long as `P` holds: a task that can go on has begun, its turn begins no
other, and there is less `left` after it. -/
structure Ends (now : Nat) (P : σ → Prop) (left : σ → Nat) : Prop where
  begun : ∀ t s, P s → schedule.isReady now t s = true → t < schedule.size s
  kept : ∀ t s, P s → schedule.isReady now t s = true → P (schedule.turn now t s)
  size_turn : ∀ t s, P s → schedule.isReady now t s = true →
    schedule.size (schedule.turn now t s) = schedule.size s
  left_turn : ∀ t s, P s → schedule.isReady now t s = true →
    left (schedule.turn now t s) < left s

variable {schedule} {now : Nat} {P : σ → Prop} {left : σ → Nat}

/-- With enough turns for what is left, nobody can go on afterwards. -/
theorem Ends.turns_isQuiet (h : schedule.Ends now P left) (fuel : Nat) {m : Moment σ}
    (hnow : m.now = now) (hm : P m.state) (hfuel : left m.state ≤ fuel)
    (hline : ∀ t < schedule.size m.state, t ∈ m.line) :
    schedule.IsQuiet now (schedule.turns fuel m).state := by
  induction fuel generalizing m with
  | zero =>
    intro t
    refine Bool.eq_false_iff.mpr fun hready => ?_
    have := h.left_turn t m.state hm hready
    omega
  | succ fuel ih =>
    simp only [turns]
    cases hnext : schedule.next? m with
    | none =>
      intro t
      refine Bool.eq_false_iff.mpr fun hready => ?_
      -- whoever could go on would be in line, and nobody in line can
      have ht : t ∈ m.line := hline t (h.begun t m.state hm hready)
      exact absurd (hnow ▸ hready) (List.find?_eq_none.mp hnext t ht)
    | some t =>
      have hready := hnow ▸ schedule.isReady_of_next? hnext
      have hstate : (schedule.giveTurn t m).state = schedule.turn now t m.state := by
        rw [giveTurn, hnow]
      have hless := h.left_turn t m.state hm hready
      refine ih hnow (hstate ▸ h.kept t m.state hm hready) (by rw [hstate]; omega) fun u hu => ?_
      rw [hstate, h.size_turn t m.state hm hready] at hu
      exact schedule.mem_line_giveTurn.mpr (hline u hu)

/-- Settling ends when nobody can go on, if the bound on turns covers what is left. -/
theorem Ends.settle_isQuiet {m : Moment σ} (h : schedule.Ends m.now P left) (hm : P m.state)
    (hfuel : left m.state ≤ schedule.effort m.state) (hline : m.line = []) :
    schedule.IsQuiet m.now (schedule.settle m).state :=
  h.turns_isQuiet _ (m := schedule.enlist m) rfl hm hfuel
    fun _ ht => (schedule.mem_line_enlist hline).mpr ht

end Replica.Schedule
