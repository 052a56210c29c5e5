import Replica.Proofs.Applied.Reads

/-!
# When waiting reads are released

A read that is not given up is answered if and only if the cursor had its index when the read began,
or an accepted update brings the cursor there later (`answered_iff_reached`). Refused updates,
updates that only raise the term, and other reads of the same index, given up or not, make no
difference.

A read that waits stays at that stage until an accepted update reaches it (`Waiting.run`); from then
on it has passed, and nothing but its own cancellation takes that back (`Passed.run`).
-/

namespace Replica

namespace Reads

variable {ρ α : Type} {answer : Reads ρ α → ρ → α} {rs : Reads ρ α} {t : TaskId} {index : Int64}

/-! ## Reaching an index -/

/-- The update is accepted, and the cursor is at or above `index` afterwards. -/
def ReachesBy (index : Int64) (next : LogPosition) (rs : Reads ρ α) : Prop :=
  (∃ changed, (rs.update next).2 = .ok changed) ∧
    index ≤ (rs.update next).1.cursor.applied.index

/-- One of the updates among the events is accepted and brings the cursor to `index`. -/
def Reaches (answer : Reads ρ α → ρ → α) (index : Int64) (rs : Reads ρ α)
    (events : List (Event ρ)) : Prop :=
  ∃ before next after, events = before ++ .update next :: after ∧
    ReachesBy index next (run answer rs before)

theorem not_reaches_nil : ¬ Reaches answer index rs [] := by
  rintro ⟨before, next, after, heq, -⟩
  simp at heq

theorem reaches_cons {event : Event ρ} {events : List (Event ρ)} :
    Reaches answer index rs (event :: events) ↔
      (∃ next, event = .update next ∧ ReachesBy index next rs) ∨
        Reaches answer index (step answer rs event) events := by
  constructor
  · rintro ⟨before, next, after, heq, hreach⟩
    cases before with
    | nil =>
      cases heq
      exact .inl ⟨next, rfl, hreach⟩
    | cons first before =>
      cases heq
      exact .inr ⟨before, next, after, rfl, hreach⟩
  · rintro (⟨next, rfl, hreach⟩ | ⟨before, next, after, rfl, hreach⟩)
    · exact ⟨[], next, events, rfl, hreach⟩
    · exact ⟨event :: before, next, after, rfl, hreach⟩

/-! ## Waiting and having passed -/

/-- The read waits for `index`. -/
def Waiting (t : TaskId) (index : Int64) (rs : Reads ρ α) : Prop :=
  ∃ r, rs.reads[t]? = some r ∧ r.index = index ∧ r.stage = .waiting

/-- The read has been released, and may have been answered. -/
def Passed (t : TaskId) (rs : Reads ρ α) : Prop :=
  ∃ r, rs.reads[t]? = some r ∧ (r.stage = .released ∨ ∃ a, r.stage = .answered a)

theorem Waiting.answer?_eq_none (h : Waiting t index rs) : rs.answer? t = none := by
  obtain ⟨⟨_, _, stage⟩, hr, -, hstage⟩ := h
  cases hstage
  simp only [answer?, hr]

/-- Once it has had its turn, a read that has passed is answered. -/
theorem Passed.isSome_answer? (h : Passed t rs) (hturn : rs.isReleased t = false) :
    (rs.answer? t).isSome := by
  obtain ⟨⟨_, _, stage⟩, hr, hstage⟩ := h
  rcases hstage with hstage | ⟨a, hstage⟩
  · cases hstage
    simp [isReleased, hr] at hturn
  · cases hstage
    simp [answer?, hr]

/-- Only its cancellation takes back that a read has passed. -/
theorem Passed.step (hc : Consistent rs) (h : Passed t rs) {event : Event ρ}
    (hne : event ≠ .cancel t) : Passed t (step answer rs event) := by
  obtain ⟨r, hr, hstage⟩ := h
  -- only reads that wait are released, so an update leaves this one alone
  have hnw : r.stage ≠ .waiting := by
    rcases hstage with hs | ⟨a, hs⟩ <;> simp [hs]
  cases event with
  | update next =>
    show Passed t (rs.update next).1
    cases hres : (rs.update next).2 with
    | error e =>
      rw [update_eq_of_error hres]
      exact ⟨r, hr, hstage⟩
    | ok changed =>
      refine ⟨r, ?_, hstage⟩
      rw [hc.reads_update hres, List.getElem?_map, hr]
      simp [release_stage_of_ne hnw]
  | begin index request =>
    show Passed t (rs.begin (answer rs) index request)
    unfold Reads.begin
    split <;> exact ⟨r, getElem?_concat_of_some _ hr, hstage⟩
  | turn u =>
    refine ⟨_, getElem?_modify_eq_some_iff.mpr ⟨r, hr, rfl⟩, ?_⟩
    split
    · split
      · exact .inr ⟨_, rfl⟩
      · exact hstage
    · exact hstage
  | cancel u =>
    show Passed t (rs.cancel u).1
    unfold Reads.cancel
    have hut : u ≠ t := fun e => hne (e ▸ rfl)
    split
    · split
      · exact ⟨r, getElem?_modify_eq_some_iff.mpr ⟨r, hr, if_neg hut⟩, hstage⟩
      · exact ⟨r, hr, hstage⟩
    · exact ⟨r, hr, hstage⟩

theorem Passed.run (hc : Consistent rs) (h : Passed t rs) {events : List (Event ρ)}
    (hne : .cancel t ∉ events) : Passed t (run answer rs events) := by
  induction events generalizing rs with
  | nil => exact h
  | cons event events ih =>
    have hhead : event ≠ .cancel t := fun e => hne (e ▸ List.mem_cons_self)
    exact ih (hc.step answer event) (h.step hc hhead) fun hmem => hne (List.mem_cons_of_mem _ hmem)

/-- An update releases a waiting read if it reaches the read's index, and else leaves it waiting. -/
theorem Waiting.update (hc : Consistent rs) (h : Waiting t index rs) (next : LogPosition) :
    (ReachesBy index next rs → Passed t (rs.update next).1) ∧
      (¬ ReachesBy index next rs → Waiting t index (rs.update next).1) := by
  obtain ⟨r, hr, rfl, hw⟩ := h
  cases hres : (rs.update next).2 with
  | error e =>
    refine ⟨fun hreach => ?_, fun _ => ?_⟩
    · obtain ⟨⟨changed, hok⟩, -⟩ := hreach
      cases hres.symm.trans hok
    · rw [update_eq_of_error hres]
      exact ⟨r, hr, rfl, hw⟩
  | ok changed =>
    have hreads : (rs.update next).1.reads[t]? =
        some (if r.index ≤ next.index then release r else r) := by
      rw [hc.reads_update hres, List.getElem?_map, hr]
      rfl
    -- an update that is taken reaches the index exactly if its position does
    have hreach : ReachesBy r.index next rs ↔ r.index ≤ next.index := by
      rw [ReachesBy, update_applied_of_ok hres]
      exact and_iff_right ⟨changed, hres⟩
    rw [hreach]
    refine ⟨fun hle => ?_, fun hgt => ?_⟩
    · rw [if_pos hle] at hreads
      exact ⟨_, hreads, .inl (by simp [release, hw])⟩
    · rw [if_neg hgt] at hreads
      exact ⟨r, hreads, rfl, hw⟩

/-- No event but an update releases a waiting read. -/
theorem Waiting.step_of_ne_update (h : Waiting t index rs) {event : Event ρ}
    (hne : event ≠ .cancel t) (hup : ∀ next, event ≠ .update next) :
    Waiting t index (step answer rs event) := by
  obtain ⟨r, hr, hindex, hw⟩ := h
  cases event with
  | update next => exact absurd rfl (hup next)
  | begin index request =>
    show Waiting t _ (rs.begin (answer rs) index request)
    unfold Reads.begin
    split <;> exact ⟨r, getElem?_concat_of_some _ hr, hindex, hw⟩
  | turn u =>
    refine ⟨r, getElem?_modify_eq_some_iff.mpr ⟨r, hr, ?_⟩, hindex, hw⟩
    simp [hw]
  | cancel u =>
    show Waiting t _ (rs.cancel u).1
    unfold Reads.cancel
    have hut : u ≠ t := fun e => hne (e ▸ rfl)
    split
    · split
      · exact ⟨r, getElem?_modify_eq_some_iff.mpr ⟨r, hr, if_neg hut⟩, hindex, hw⟩
      · exact ⟨r, hr, hindex, hw⟩
    · exact ⟨r, hr, hindex, hw⟩

/-- A read that waits and is not cancelled has passed after the events that reach its index, and
waits on after all others. -/
theorem Waiting.run (answer : Reads ρ α → ρ → α) (hc : Consistent rs)
    (h : Waiting t index rs) {events : List (Event ρ)}
    (hne : .cancel t ∉ events) :
    (Reaches answer index rs events → Passed t (run answer rs events)) ∧
      (¬ Reaches answer index rs events → Waiting t index (run answer rs events)) := by
  induction events generalizing rs with
  | nil => exact ⟨fun hreach => absurd hreach not_reaches_nil, fun _ => h⟩
  | cons event events ih =>
    have hhead : event ≠ .cancel t := fun e => hne (e ▸ List.mem_cons_self)
    have htail : .cancel t ∉ events := fun hmem => hne (List.mem_cons_of_mem _ hmem)
    have hc' : Consistent (step answer rs event) := hc.step answer event
    rw [reaches_cons]
    -- either this event reaches the index and the read has passed, or all is left to the rest
    by_cases hnow : ∃ next, event = .update next ∧ ReachesBy index next rs
    · refine ⟨fun _ => ?_, fun hnot => absurd (.inl hnow) hnot⟩
      obtain ⟨next, rfl, hreach⟩ := hnow
      exact ((h.update hc next).1 hreach).run hc' htail
    · rw [or_iff_right hnow]
      have hwait : Waiting t index (step answer rs event) := by
        cases event with
        | update next => exact (h.update hc next).2 fun hreach => hnow ⟨next, rfl, hreach⟩
        | begin index request => exact h.step_of_ne_update hhead (by simp)
        | turn u => exact h.step_of_ne_update hhead (by simp)
        | cancel u => exact h.step_of_ne_update hhead (by simp)
      exact ih hc' hwait htail

/-! ## New reads -/

/-- A read is answered at once if the cursor has its index, and waits otherwise. -/
theorem begin_cases (answer : ρ → α) (index : Int64) (request : ρ) (rs : Reads ρ α) :
    (index ≤ rs.cursor.applied.index ∧ Passed rs.reads.length (rs.begin answer index request)) ∨
      (¬ index ≤ rs.cursor.applied.index ∧
        Waiting rs.reads.length index (rs.begin answer index request)) := by
  unfold Reads.begin
  split
  · next hreached =>
    exact .inl ⟨of_decide_eq_true hreached, _, List.getElem?_concat_length, .inr ⟨_, rfl⟩⟩
  · next hbehind =>
    exact .inr ⟨fun hle => hbehind (decide_eq_true hle), _, List.getElem?_concat_length, rfl, rfl⟩

/-- What has become of a read after the events since it began, none of which cancels it. -/
theorem Consistent.passed_or_waiting (answer : Reads ρ α → ρ → α) (hc : Consistent rs)
    (index : Int64) (request : ρ) {events : List (Event ρ)} (hne : .cancel rs.reads.length ∉ events) :
    let began := rs.begin (answer rs) index request
    let reached := index ≤ rs.cursor.applied.index ∨ Reaches answer index began events
    (reached → Passed rs.reads.length (Reads.run answer began events)) ∧
      (¬ reached → Waiting rs.reads.length index (Reads.run answer began events)) := by
  have hc' : Consistent (rs.begin (answer rs) index request) := hc.begin _ index request
  rcases begin_cases (answer rs) index request rs with ⟨hle, hpass⟩ | ⟨hnle, hwait⟩
  · exact ⟨fun _ => hpass.run hc' hne, fun hnot => absurd (.inl hle) hnot⟩
  · have hrun := hwait.run answer hc' hne
    exact ⟨fun hreach => hrun.1 (hreach.resolve_left hnle), fun hnot => hrun.2 (mt .inr hnot)⟩

/-! ## Turns of released reads -/

theorem isReleased_iff : rs.isReleased t = true ↔
    ∃ r, rs.reads[t]? = some r ∧ r.stage = .released := by
  unfold isReleased
  split
  · next hr => simp [hr]
  · next hr =>
    simp only [Bool.false_eq_true, false_iff]
    rintro ⟨⟨index, request, stage⟩, hr', rfl⟩
    exact hr index request hr'

/-- The reads that have been released and not had their turns. -/
def unturned (rs : Reads ρ α) : Nat :=
  rs.reads.countP fun r => match r.stage with
    | .released => true
    | _ => false

/-- Every released read needs one turn, and releases nobody by it. -/
theorem schedule_ends (answer : Reads ρ α → ρ → α) (now : Nat) :
    (schedule answer).Ends now (fun _ => True) unturned where
  begun t rs _ hready := by
    obtain ⟨r, hr, -⟩ := isReleased_iff.mp hready
    exact lt_length_of_getElem? hr
  kept _ _ _ _ := trivial
  size_turn t rs _ _ := List.length_modify ..
  left_turn t rs _ hready := by
    obtain ⟨r, hr, hstage⟩ := isReleased_iff.mp hready
    exact countP_modify_lt hr (by simp [hstage]) (by simp [hstage])

/-- Settling gives turns to the released reads, until none is left. -/
theorem settle_eq_run (answer : Reads ρ α → ρ → α) (rs : Reads ρ α) :
    ∃ turns : List TaskId,
      ((schedule answer).settle { state := rs }).state = run answer rs (turns.map .turn) ∧
        ∀ t, (run answer rs (turns.map .turn)).isReleased t = false := by
  obtain ⟨turns, hturns⟩ : ∃ turns : List TaskId,
      ((schedule answer).settle { state := rs }).state = run answer rs (turns.map .turn) := by
    refine Schedule.settle_induction (P := fun s => ∃ turns : List TaskId,
      s = run answer rs (turns.map .turn)) (schedule answer) ?_ ⟨[], rfl⟩
    rintro t s - ⟨turns, rfl⟩
    refine ⟨turns ++ [t], ?_⟩
    rw [List.map_append, run_append]
    rfl
  refine ⟨turns, hturns, fun t => ?_⟩
  rw [← hturns]
  exact (schedule_ends answer 0).settle_isQuiet (m := { state := rs }) trivial
    List.countP_le_length rfl t

theorem not_reaches_turns {turns : List TaskId} :
    ¬ Reaches answer index rs (turns.map .turn) := by
  rintro ⟨before, next, after, heq, -⟩
  have hmem : Event.update next ∈ turns.map (.turn : TaskId → Event ρ) :=
    heq ▸ List.mem_append_right _ List.mem_cons_self
  simp at hmem

end Reads

/-! ## Waiting for a position -/

namespace Waits

/-- What a wait is answered with. -/
def position (ws : Waits) (_ : Unit) : LogPosition := ws.cursor.applied

/-- The waits after a sequence of events, from the beginning. -/
def run (events : List (Reads.Event Unit)) : Waits := Reads.run position {} events

/-- A wait that is not given up is never answered before the cursor has its index or an accepted
update brings it there, and after that it is answered as soon as everybody who was woken has had a
turn, in whatever order. -/
theorem answered_iff_reached (before after : List (Reads.Event Unit)) (index : Int64)
    (uncancelled : .cancel (run before).reads.length ∉ after) :
    let start := run before
    let t := start.reads.length
    let ws := run (before ++ .begin index () :: after)
    let reached := index ≤ start.cursor.applied.index ∨
      Reads.Reaches position index (start.waitFor index) after
    ((ws.answer? t).isSome → reached) ∧
      (∀ now, schedule.IsQuiet now ws → reached → (ws.answer? t).isSome) ∧
      (((schedule.settle { state := ws }).state.answer? t).isSome ↔ reached) := by
  intro start t ws reached
  have hc : Reads.Consistent start := Reads.Consistent.initial.run position before
  have hws : ws = Reads.run position (start.waitFor index) after := Reads.run_append ..
  have hcases := hc.passed_or_waiting position index () uncancelled
  have hpass : reached → Reads.Passed t ws := hws ▸ hcases.1
  have hwait : ¬ reached → Reads.Waiting t index ws := hws ▸ hcases.2
  obtain ⟨turns, hsettle, hquiet⟩ := Reads.settle_eq_run position ws
  have hcws : Reads.Consistent ws := Reads.Consistent.initial.run position _
  have hturns : .cancel t ∉ turns.map (Reads.Event.turn (ρ := Unit)) := by simp
  have hstate : (schedule.settle { state := ws }).state =
      Reads.run position ws (turns.map .turn) := hsettle
  refine ⟨fun hans => ?_, fun now hq hreached => ?_, fun hans => ?_, fun hreached => ?_⟩
  · by_contra hnot
    simp [(hwait hnot).answer?_eq_none] at hans
  · exact (hpass hreached).isSome_answer? (hq t)
  · by_contra hnot
    -- turns alone reach no index, so the read waits on
    have hstill := ((hwait hnot).run position hcws hturns).2 Reads.not_reaches_turns
    rw [hstate, hstill.answer?_eq_none] at hans
    cases hans
  · rw [hstate]
    exact ((hpass hreached).run hcws hturns).isSome_answer? (hquiet t)

/-- Two waits share an entry. The first is given up, an update falls short, one is refused, and one
raises the term: the second wait is answered by the last of them. -/
theorem answered_beside_cancelled_wait :
    let before : List (Reads.Event Unit) := [.update ⟨1, 2⟩, .begin 5 ()]
    let after : List (Reads.Event Unit) :=
      [.cancel 0, .update ⟨1, 4⟩, .update ⟨1, 3⟩, .update ⟨2, 5⟩]
    .cancel (run before).reads.length ∉ after ∧
      ((schedule.settle { state := run (before ++ .begin 5 () :: after) }).state.answer? 1).isSome :=
  ⟨by decide,
    (answered_iff_reached [.update ⟨1, 2⟩, .begin 5 ()]
      [.cancel 0, .update ⟨1, 4⟩, .update ⟨1, 3⟩, .update ⟨2, 5⟩] 5 (by decide)).2.2.mpr
      (.inr ⟨[.cancel 0, .update ⟨1, 4⟩, .update ⟨1, 3⟩], ⟨2, 5⟩, [], rfl, ⟨true, by decide⟩,
        by decide⟩)⟩

/-- The greatest index can be waited for. -/
example : (run [.begin Int64.maxValue (), .update ⟨0, Int64.maxValue⟩, .turn 0]).answer? 0 =
    some ⟨0, Int64.maxValue⟩ := by decide

end Waits

end Replica
