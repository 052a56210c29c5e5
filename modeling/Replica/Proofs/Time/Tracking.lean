import Replica.Proofs.Time.Ticks

/-!
# Tracking some of the tasks

Some tasks of a system are its own, and another system goes along with their turns and with nobody else's
(`Tracks`). Then giving turns in the one system comes to giving turns in the other, in the same order
(`Tracks.turns`): the turns of the rest neither let the own tasks go on nor stop them, so they leave the
order in which these stand in line alone.

Two systems that are tracked by one and the same other system thus come to the same end, whatever the
rest of each does (`Tracks.settled_alike`).
-/

namespace Replica.Schedule

variable {σ σ' : Type} {schedule : Schedule σ} {other : Schedule σ'} {own : TaskId → Bool}
variable {number : TaskId → TaskId} {now : Nat} {R : σ → σ' → Prop} {m : Moment σ} {n : Moment σ'}

/-- The other system goes along with the own tasks of the first, under their numbers, and the rest does
not matter to it. -/
structure Tracks (schedule : Schedule σ) (other : Schedule σ') (now : Nat) (own : TaskId → Bool)
    (number : TaskId → TaskId) (R : σ → σ' → Prop) : Prop where
  ready : ∀ s s' t, R s s' → own t = true →
    other.isReady now (number t) s' = schedule.isReady now t s
  own_turn : ∀ s s' t, R s s' → own t = true → schedule.isReady now t s = true →
    R (schedule.turn now t s) (other.turn now (number t) s')
  rest_turn : ∀ s s' t, R s s' → own t = false → schedule.isReady now t s = true →
    R (schedule.turn now t s) s'

/-- The numbers of the own tasks, in the order in which these stand in line. -/
def ownLine (own : TaskId → Bool) (number : TaskId → TaskId) (line : List TaskId) : List TaskId :=
  (line.filter own).map number

/-! ## Lines -/

/-- Whoever moves to the end of the line moves to the end of the line of the own tasks. -/
theorem ownLine_partition {stays : TaskId → Bool} {line : List TaskId} (stays' : TaskId → Bool)
    (h : ∀ u, own u = true → stays u = stays' (number u)) :
    ownLine own number (line.filter stays ++ line.filter fun u => !stays u) =
      (ownLine own number line).filter stays' ++
        (ownLine own number line).filter fun u => !stays' u := by
  have hfilter : ∀ p p' : TaskId → Bool, (∀ u, own u = true → p u = p' (number u)) →
      ((line.filter p).filter own).map number = ((line.filter own).map number).filter p' := by
    intro p p' hp
    rw [List.filter_map, List.filter_filter, List.filter_filter]
    congr 1
    apply List.filter_congr
    intro u _
    cases hu : own u with
    | false => simp
    | true => simp [hp u hu]
  simp only [ownLine, List.filter_append, List.map_append, hfilter stays stays' h]
  rw [hfilter (fun u => !stays u) (fun u => !stays' u) fun u hu => by rw [h u hu]]

/-- If the first in line who can go on is an own task, then it is the first of the own tasks who can. -/
theorem find?_ownLine {ready ready' : TaskId → Bool} {line : List TaskId} {t : TaskId}
    (h : ∀ u, own u = true → ready' (number u) = ready u) (hfind : line.find? ready = some t)
    (hown : own t = true) : (ownLine own number line).find? ready' = some (number t) := by
  induction line with
  | nil => cases hfind
  | cons u line ih =>
    rw [List.find?_cons] at hfind
    split at hfind
    · next hready =>
      cases hfind
      simp [ownLine, hown, h t hown, hready]
    · next hready =>
      have hrest := ih hfind
      cases hu : own u with
      | false => simpa [ownLine, hu] using hrest
      | true =>
        have hu' : ready' (number u) = false := (h u hu).trans hready
        simpa [ownLine, hu, hu'] using hrest

/-! ## Turns -/

/-- A turn of the rest leaves the line of the own tasks as it is. -/
theorem Tracks.ownLine_rest (h : Tracks schedule other now own number R) (hnow : m.now = now)
    {s' : σ'} {t : TaskId} (hR : R m.state s') (hrest : own t = false)
    (hready : schedule.isReady now t m.state = true) :
    ownLine own number (schedule.giveTurn t m).line = ownLine own number m.line := by
  have hafter := h.rest_turn m.state s' t hR hrest hready
  simp only [giveTurn, List.partition_eq_filter_filter]
  refine (ownLine_partition (fun _ => true) fun u hu => ?_).trans (by simp)
  rw [hnow, ← h.ready _ _ u hR hu, ← h.ready _ _ u hafter hu]
  exact beq_self_eq_true _

/-- A turn of an own task moves the line of the own tasks as it does in the other system. -/
theorem Tracks.ownLine_own (h : Tracks schedule other now own number R) (hnow : m.now = now)
    (hnow' : n.now = now) {t : TaskId} (hR : R m.state n.state) (hown : own t = true)
    (hready : schedule.isReady now t m.state = true) (hline : n.line = ownLine own number m.line) :
    (other.giveTurn (number t) n).line = ownLine own number (schedule.giveTurn t m).line := by
  have hafter := h.own_turn m.state n.state t hR hown hready
  simp only [giveTurn, List.partition_eq_filter_filter, hnow, hnow', hline]
  refine (ownLine_partition _ fun u hu => ?_).symm
  rw [← h.ready _ _ u hR hu, ← h.ready _ _ u hafter hu]

/-- Giving turns comes to giving turns in the other system. -/
theorem Tracks.turns (h : Tracks schedule other now own number R) (hnow : m.now = now)
    (hnow' : n.now = now) (hR : R m.state n.state) (hline : n.line = ownLine own number m.line)
    (fuel : Nat) : ∃ fuel', R (schedule.turns fuel m).state (other.turns fuel' n).state ∧
      (other.turns fuel' n).line = ownLine own number (schedule.turns fuel m).line := by
  induction fuel generalizing m n with
  | zero => exact ⟨0, hR, hline⟩
  | succ fuel ih =>
    cases hnext : schedule.next? m with
    | none =>
      refine ⟨0, ?_⟩
      simp only [Schedule.turns, hnext]
      exact ⟨hR, hline⟩
    | some t =>
      have hready : schedule.isReady now t m.state = true := hnow ▸ schedule.isReady_of_next? hnext
      simp only [Schedule.turns, hnext]
      cases hown : own t with
      | false =>
        have hafter : R (schedule.giveTurn t m).state n.state := by
          simpa only [giveTurn, hnow] using h.rest_turn _ _ t hR hown hready
        exact ih (m := schedule.giveTurn t m) hnow hnow' hafter
          (hline.trans (h.ownLine_rest hnow hR hown hready).symm)
      | true =>
        have hnext' : other.next? n = some (number t) := by
          rw [next?, hline, hnow']
          rw [next?, hnow] at hnext
          exact find?_ownLine (fun u hu => h.ready _ _ u hR hu) hnext hown
        have hafter : R (schedule.giveTurn t m).state (other.giveTurn (number t) n).state := by
          simpa only [giveTurn, hnow, hnow'] using h.own_turn _ _ t hR hown hready
        have hline' := h.ownLine_own hnow hnow' hR hown hready hline
        obtain ⟨fuel', hstate, hline''⟩ := ih (m := schedule.giveTurn t m)
          (n := other.giveTurn (number t) n) hnow hnow' hafter hline'
        refine ⟨fuel' + 1, ?_⟩
        simp only [Schedule.turns, hnext']
        exact ⟨hstate, hline''⟩

/-! ## The end of turns -/

/-- Nobody in line can go on. -/
def Still (schedule : Schedule σ) (m : Moment σ) : Prop :=
  ∀ t ∈ m.line, schedule.isReady m.now t m.state = false

theorem turns_of_still (h : schedule.Still m) (fuel : Nat) : schedule.turns fuel m = m := by
  cases fuel with
  | zero => rfl
  | succ fuel =>
    have hnext : schedule.next? m = none := List.find?_eq_none.mpr fun t ht => by simp [h t ht]
    simp only [Schedule.turns, hnext]

theorem turns_add (k j : Nat) : schedule.turns (k + j) m = schedule.turns j (schedule.turns k m) := by
  induction k generalizing m with
  | zero => rw [Nat.zero_add, Schedule.turns]
  | succ k ih =>
    rw [Nat.add_right_comm]
    simp only [Schedule.turns]
    cases hnext : schedule.next? m with
    | none => exact (turns_of_still (fun t ht => by simpa using List.find?_eq_none.mp hnext t ht) j).symm
    | some t => exact ih

/-- However many turns it took, there is one end. -/
theorem turns_unique {k j : Nat} (hk : schedule.Still (schedule.turns k m))
    (hj : schedule.Still (schedule.turns j m)) : schedule.turns k m = schedule.turns j m := by
  rcases Nat.le_total k j with hle | hle
  · obtain ⟨i, rfl⟩ := Nat.exists_eq_add_of_le hle
    rw [turns_add, turns_of_still hk]
  · obtain ⟨i, rfl⟩ := Nat.exists_eq_add_of_le hle
    rw [turns_add, turns_of_still hj]

/-- When everybody waits in the one system, the own tasks wait in the other. -/
theorem Tracks.still (h : Tracks schedule other now own number R) (hnow' : n.now = now)
    (hR : R m.state n.state) (hline : n.line = ownLine own number m.line)
    (hquiet : schedule.IsQuiet now m.state) : other.Still n := by
  intro t' ht'
  rw [hline] at ht'
  obtain ⟨t, ht, rfl⟩ := List.mem_map.mp ht'
  rw [hnow', h.ready _ _ t hR (List.mem_filter.mp ht).2]
  exact hquiet t

/-- Two systems that are tracked by the same other one come to the same end. -/
theorem Tracks.settled_alike {τ : Type} {schedule₂ : Schedule τ} {own₂ : TaskId → Bool}
    {number₂ : TaskId → TaskId} {R₂ : τ → σ' → Prop} {m₂ : Moment τ} {s' : σ'} {fuel fuel₂ : Nat}
    (h : Tracks schedule other now own number R) (h₂ : Tracks schedule₂ other now own₂ number₂ R₂)
    (hnow : m.now = now) (hnow₂ : m₂.now = now) (hR : R m.state s') (hR₂ : R₂ m₂.state s')
    (hline : ownLine own number m.line = ownLine own₂ number₂ m₂.line)
    (hquiet : schedule.IsQuiet now (schedule.turns fuel m).state)
    (hquiet₂ : schedule₂.IsQuiet now (schedule₂.turns fuel₂ m₂).state) :
    ∃ s, R (schedule.turns fuel m).state s ∧ R₂ (schedule₂.turns fuel₂ m₂).state s ∧
      ownLine own number (schedule.turns fuel m).line =
        ownLine own₂ number₂ (schedule₂.turns fuel₂ m₂).line := by
  let n : Moment σ' := { now, state := s', line := ownLine own number m.line }
  obtain ⟨k, hstate, hline'⟩ := h.turns (n := n) hnow rfl hR rfl fuel
  obtain ⟨k₂, hstate₂, hline₂⟩ := h₂.turns (n := n) hnow₂ rfl hR₂ hline fuel₂
  have hsame : other.turns k n = other.turns k₂ n :=
    turns_unique (h.still (now_turns k) hstate hline' hquiet)
      (h₂.still (now_turns k₂) hstate₂ hline₂ hquiet₂)
  exact ⟨(other.turns k n).state, hstate, hsame ▸ hstate₂, hline'.symm.trans (hsame ▸ hline₂)⟩

end Replica.Schedule
