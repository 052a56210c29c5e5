import Mathlib.Data.List.Perm.Subperm
import Mathlib.Logic.Function.Iterate
import Replica.Proofs.Time.Schedule

/-!
# Time in ticks

Waiting stops only at the instants at which somebody wakes. If turns come to an end and nobody wakes
unannounced (`Punctual`), that is the same as stopping at every single millisecond (`wait_eq_ticks`), so
what holds of settling at every tick holds of waiting.
-/

namespace Replica.Schedule

variable {σ : Type} (schedule : Schedule σ)

/-! ## Being in line -/

/-- Of those who have begun, the first so many are in line. -/
structure InLine (m : Moment σ) : Prop where
  length_le : m.line.length ≤ schedule.size m.state
  mem : ∀ t < m.line.length, t ∈ m.line

/-- Everybody waits, in line. -/
structure Rested (P : σ → Prop) (m : Moment σ) : Prop where
  holds : P m.state
  quiet : schedule.IsQuiet m.now m.state
  length_eq : m.line.length = schedule.size m.state
  mem : ∀ t < m.line.length, t ∈ m.line

/-- Turns come to an end, and whoever sleeps is announced: nobody wakes before the alarm. -/
structure Punctual (P : σ → Prop) : Prop where
  ends : ∀ now, schedule.Ends now P schedule.effort
  later : ∀ now s instant, schedule.IsQuiet now s → schedule.alarm? s = some instant → now < instant
  asleep : ∀ now later s, schedule.IsQuiet now s → now ≤ later →
    (∀ instant, schedule.alarm? s = some instant → later < instant) → schedule.IsQuiet later s

variable {schedule} {P : σ → Prop} {m : Moment σ}

theorem Rested.inLine (h : schedule.Rested P m) : schedule.InLine m :=
  ⟨Nat.le_of_eq h.length_eq, h.mem⟩

theorem InLine.length_enlist (h : schedule.InLine m) :
    (schedule.enlist m).line.length = schedule.size m.state := by
  have := h.length_le
  simp only [enlist, List.length_append, List.length_range']
  omega

theorem InLine.mem_enlist (h : schedule.InLine m) {t : TaskId} (ht : t < schedule.size m.state) :
    t ∈ (schedule.enlist m).line := by
  simp only [enlist, List.mem_append, List.mem_range'_1]
  rcases Nat.lt_or_ge t m.line.length with hlt | hge
  · exact .inl (h.mem t hlt)
  · exact .inr ⟨hge, Nat.lt_of_lt_of_le ht (by omega)⟩

/-- With as many in line as have begun, there is nobody else in line. -/
theorem InLine.lt_of_mem_enlist (h : schedule.InLine m) {t : TaskId}
    (ht : t ∈ (schedule.enlist m).line) : t < schedule.size m.state := by
  have hsub : List.range (schedule.size m.state) ⊆ (schedule.enlist m).line :=
    fun u hu => h.mem_enlist (List.mem_range.mp hu)
  have hperm := (List.subperm_of_subset List.nodup_range hsub).perm_of_length_le (by simp [h.length_enlist])
  exact List.mem_range.mp (hperm.mem_iff.mpr ht)

theorem length_line_giveTurn (t : TaskId) : (schedule.giveTurn t m).line.length = m.line.length := by
  simp only [giveTurn, List.partition_eq_filter_filter, List.length_append]
  exact (List.length_eq_length_filter_add _).symm

/-! ## Turns -/

theorem now_turns (fuel : Nat) : (schedule.turns fuel m).now = m.now := by
  induction fuel generalizing m with
  | zero => rfl
  | succ fuel ih =>
    simp only [turns]
    split
    · rfl
    · exact ih

theorem now_settle : (schedule.settle m).now = m.now := now_turns _

theorem line_turns (fuel : Nat) : (schedule.turns fuel m).line.length = m.line.length ∧
    ∀ t, t ∈ (schedule.turns fuel m).line ↔ t ∈ m.line := by
  induction fuel generalizing m with
  | zero => exact ⟨rfl, fun t => Iff.rfl⟩
  | succ fuel ih =>
    simp only [turns]
    split
    · exact ⟨rfl, fun t => Iff.rfl⟩
    · next u _ =>
      obtain ⟨hlength, hmem⟩ := ih (m := schedule.giveTurn u m)
      exact ⟨hlength.trans (length_line_giveTurn u),
        fun t => (hmem t).trans (schedule.mem_line_giveTurn)⟩

theorem turns_of_isQuiet (h : schedule.IsQuiet m.now m.state) (fuel : Nat) :
    schedule.turns fuel m = m := by
  cases fuel with
  | zero => rfl
  | succ fuel =>
    have hnext : schedule.next? m = none := List.find?_eq_none.mpr fun t _ => by simp [h t]
    simp only [turns, hnext]

theorem enlist_of_length_eq (hlength : m.line.length = schedule.size m.state) : schedule.enlist m = m := by
  simp [enlist, hlength]

/-- Settling changes nothing when everybody waits. -/
theorem settle_of_isQuiet (h : schedule.IsQuiet m.now m.state)
    (hlength : m.line.length = schedule.size m.state) : schedule.settle m = m := by
  rw [settle, enlist_of_length_eq hlength, turns_of_isQuiet h]

namespace Punctual

variable (hp : schedule.Punctual P)

include hp

/-- What holds of more states than are of interest holds of these. -/
theorem of_imp {Q : σ → Prop} (himp : ∀ s, Q s → P s)
    (hkept : ∀ now t s, Q s → Q (schedule.turn now t s)) : schedule.Punctual Q where
  ends now :=
    { begun := fun t s hs => (hp.ends now).begun t s (himp s hs)
      kept := fun t s hs _ => hkept now t s hs
      size_turn := fun t s hs => (hp.ends now).size_turn t s (himp s hs)
      left_turn := fun t s hs => (hp.ends now).left_turn t s (himp s hs) }
  later := hp.later
  asleep := hp.asleep

/-- Everybody waits after settling. -/
theorem settle_rested (hline : schedule.InLine m) (hm : P m.state) :
    schedule.Rested P (schedule.settle m) := by
  have hends := hp.ends m.now
  have hsize : schedule.size (schedule.settle m).state = schedule.size m.state ∧
      P (schedule.settle m).state :=
    schedule.settle_induction (P := fun s => schedule.size s = schedule.size m.state ∧ P s)
      (fun t s hready hs => ⟨(hends.size_turn t s hs.2 hready).trans hs.1, hends.kept t s hs.2 hready⟩)
      ⟨rfl, hm⟩
  obtain ⟨hlength, hmem⟩ := line_turns (m := schedule.enlist m) (schedule.effort m.state)
  have hfull : (schedule.settle m).line.length = schedule.size m.state :=
    hlength.trans hline.length_enlist
  refine ⟨hsize.2, ?_, hfull.trans hsize.1.symm, fun t ht => ?_⟩
  · rw [now_settle]
    exact hends.turns_isQuiet _ (m := schedule.enlist m) rfl hm (Nat.le_refl _) fun t ht => hline.mem_enlist ht
  · exact (hmem t).mpr (hline.mem_enlist (hfull ▸ ht))

end Punctual

/-! ## Ticks -/

/-- Lets one millisecond pass. -/
def tick (schedule : Schedule σ) (m : Moment σ) : Moment σ := schedule.settle { m with now := m.now + 1 }

namespace Punctual

variable (hp : schedule.Punctual P)

include hp

theorem tick_rested (hm : schedule.Rested P m) : schedule.Rested P (schedule.tick m) :=
  hp.settle_rested (m := { m with now := m.now + 1 }) ⟨hm.inLine.length_le, hm.inLine.mem⟩ hm.holds

theorem ticks_rested (hm : schedule.Rested P m) (k : Nat) :
    schedule.Rested P (schedule.tick^[k] m) := by
  induction k with
  | zero => exact hm
  | succ k ih =>
    rw [Function.iterate_succ_apply']
    exact hp.tick_rested ih

/-- Before the next stop, ticks do nothing but count. -/
theorem ticks_eq_of_lt_nextStop (hm : schedule.Rested P m) (target k : Nat)
    (hk : m.now + k < schedule.nextStop target m) :
    schedule.tick^[k] m = { m with now := m.now + k } := by
  induction k with
  | zero => rfl
  | succ k ih =>
    rw [Function.iterate_succ_apply', ih (by omega), tick]
    -- no alarm goes off before the next stop
    have hquiet : schedule.IsQuiet (m.now + (k + 1)) m.state := by
      apply hp.asleep m.now _ m.state hm.quiet (Nat.le_add_right _ _)
      intro instant halarm
      have hlater := hp.later m.now m.state instant hm.quiet halarm
      simp only [nextStop, halarm] at hk
      split at hk <;> omega
    exact settle_of_isQuiet hquiet hm.length_eq

/-- Going to the next stop is going there in ticks. -/
theorem settle_nextStop (hm : schedule.Rested P m) {target : Nat} (htarget : m.now < target) :
    m.now < schedule.nextStop target m ∧ schedule.nextStop target m ≤ target ∧
      schedule.settle { m with now := schedule.nextStop target m } =
        schedule.tick^[schedule.nextStop target m - m.now] m := by
  have hbounds : m.now < schedule.nextStop target m ∧ schedule.nextStop target m ≤ target := by
    simp only [nextStop]
    split
    · split <;> omega
    · omega
  refine ⟨hbounds.1, hbounds.2, ?_⟩
  obtain ⟨k, hk⟩ : ∃ k, schedule.nextStop target m = m.now + (k + 1) :=
    ⟨schedule.nextStop target m - m.now - 1, by omega⟩
  rw [hk, Nat.add_sub_cancel_left, Function.iterate_succ_apply',
    hp.ticks_eq_of_lt_nextStop hm target k (by omega)]
  rfl

theorem advance_eq_ticks (target fuel : Nat) (hm : schedule.Rested P m) (hnow : m.now ≤ target)
    (hfuel : target - m.now ≤ fuel) :
    schedule.advance target fuel m = schedule.tick^[target - m.now] m := by
  induction fuel generalizing m with
  | zero =>
    have hzero : target - m.now = 0 := by omega
    rw [hzero]
    rfl
  | succ fuel ih =>
    rw [advance]
    split
    · next hlt =>
      obtain ⟨hlater, hle, heq⟩ := hp.settle_nextStop hm hlt
      have hthere := hp.ticks_rested hm (schedule.nextStop target m - m.now)
      rw [← heq] at hthere
      have hstop : (schedule.settle { m with now := schedule.nextStop target m }).now =
          schedule.nextStop target m := now_settle
      rw [ih hthere (by omega) (by omega), hstop, heq, ← Function.iterate_add_apply]
      congr 1
      omega
    · next hge =>
      have hzero : target - m.now = 0 := by omega
      rw [hzero]
      rfl

/-- Waiting is letting one millisecond pass after the other. -/
theorem wait_eq_ticks (hm : schedule.Rested P m) (ms : Nat) :
    schedule.wait ms m = schedule.tick^[ms] m := by
  rw [wait, hp.advance_eq_ticks _ ms hm (Nat.le_add_right _ _) (by omega), Nat.add_sub_cancel_left]

end Punctual

end Replica.Schedule
