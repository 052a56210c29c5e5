import Mathlib.Data.Set.Card
import Replica.Proofs.Applied.Release

/-!
# Which indices are waited for

The entries at a cursor tell which indices reads wait for. An index gets an entry when a read has to
wait for it, and loses it when an accepted update reaches it; nothing else touches it, also not the
cancellation of every read that waits for it (`mem_indices_step`). So the entries are always those of
the indices that are owed (`mem_indices_run`).

All of them lie above the index of the cursor. An update that leaves the cursor where it is therefore
finds nothing to complete, and at the greatest index there is nothing left to wait for.
-/

namespace Replica

namespace Cursor

variable {c : Cursor} {k : Int64}

/-- The indices that have an entry. -/
def indices (c : Cursor) : List Int64 := c.pending.map (·.index)

theorem mem_indices_wait {index : Int64} {reader : TaskId} :
    k ∈ (c.wait index reader).indices ↔ k = index ∨ k ∈ c.indices := by
  unfold indices wait
  induction c.pending with
  | nil => simp [join]
  | cons entry rest ih =>
    simp only [join]
    split
    · next heq => simp [← heq]
    · split
      · simp
      · simp only [List.map_cons, List.mem_cons] at ih ⊢
        rw [ih]
        exact or_left_comm

/-- Completing leaves the indices above that of the cursor. -/
theorem mem_indices_complete (h : Sorted c.pending) :
    k ∈ c.complete.1.indices ↔ k ∈ c.indices ∧ c.applied.index < k := by
  simp only [indices, List.mem_map, mem_pending_complete h]
  constructor
  · rintro ⟨entry, ⟨hmem, hlt⟩, rfl⟩
    exact ⟨⟨entry, hmem, rfl⟩, hlt⟩
  · rintro ⟨⟨entry, hmem, rfl⟩, hlt⟩
    exact ⟨entry, ⟨hmem, hlt⟩, rfl⟩

/-- The entry stays when a read gives up. -/
theorem indices_abandon (c : Cursor) (reader : TaskId) :
    (c.abandon reader).indices = c.indices := by
  simp [indices, abandon]

theorem Sorted.pairwise_indices (h : Sorted c.pending) : c.indices.Pairwise (· < ·) :=
  List.pairwise_map.mpr h

theorem Sorted.nodup_indices (h : Sorted c.pending) : c.indices.Nodup :=
  h.pairwise_indices.imp fun hlt => Int64.ne_of_lt hlt

/-- Where no entry is at or below the cursor's index, completing finds none. -/
theorem complete_of_ahead (h : Sorted c.pending)
    (hahead : ∀ entry ∈ c.pending, c.applied.index < entry.index) : c.complete = (c, []) := by
  have hleft : c.pending.filter (·.index ≤ c.applied.index) = [] :=
    List.filter_eq_nil_iff.mpr fun entry hmem => by simpa using hahead entry hmem
  have hright : c.pending.filter (c.applied.index < ·.index) = c.pending :=
    List.filter_eq_self.mpr fun entry hmem => by simpa using hahead entry hmem
  rw [complete, split_eq_filter h, hleft, hright, List.flatMap_nil]

end Cursor

namespace Reads

variable {ρ α : Type} {answer : Reads ρ α → ρ → α} {rs : Reads ρ α} {k : Int64}

/-! ## One event -/

/-- The event begins a read that has to wait for the index. -/
def Event.Demands (k : Int64) (rs : Reads ρ α) (event : Event ρ) : Prop :=
  ∃ request, event = .begin k request ∧ rs.cursor.applied.index < k

/-- The event is an accepted update after which the cursor has the index. -/
def Event.Supplies (k : Int64) (rs : Reads ρ α) (event : Event ρ) : Prop :=
  ∃ next, event = .update next ∧ ReachesBy k next rs

theorem Consistent.mem_indices_update (hc : Consistent rs) (next : LogPosition) :
    k ∈ (rs.update next).1.cursor.indices ↔ k ∈ rs.cursor.indices ∧ ¬ ReachesBy k next rs := by
  cases hres : (rs.update next).2 with
  | error e =>
    have hnot : ¬ ReachesBy k next rs := by
      rintro ⟨⟨changed, hok⟩, -⟩
      cases hres.symm.trans hok
    rw [update_eq_of_error hres, and_iff_left hnot]
  | ok changed =>
    have hreach : ReachesBy k next rs ↔ k ≤ next.index := by
      rw [ReachesBy, update_applied_of_ok hres]
      exact and_iff_right ⟨changed, hres⟩
    have hcompleted : k ∈ (rs.update next).1.cursor.indices ↔
        k ∈ rs.cursor.indices ∧ next.index < k := by
      rw [update_eq_of_ok hres]
      exact Cursor.mem_indices_complete (c := { rs.cursor with applied := next }) hc.sorted
    rw [hcompleted, hreach, Int64.not_le]

theorem mem_indices_begin {answer : ρ → α} {index : Int64} {request : ρ} :
    k ∈ (rs.begin answer index request).cursor.indices ↔
      k ∈ rs.cursor.indices ∨ (k = index ∧ rs.cursor.applied.index < index) := by
  unfold Reads.begin
  split
  · next hreached =>
    have hle : index ≤ rs.cursor.applied.index := of_decide_eq_true hreached
    rw [or_iff_left fun h => Int64.not_lt.mpr hle h.2]
  · next hbehind =>
    have hlt : rs.cursor.applied.index < index := by
      simpa [Cursor.hasReached, Int64.not_le] using hbehind
    rw [Cursor.mem_indices_wait, and_iff_left hlt]
    exact or_comm

theorem indices_cancel (rs : Reads ρ α) (t : TaskId) :
    (rs.cancel t).1.cursor.indices = rs.cursor.indices := by
  unfold Reads.cancel
  split
  · split
    · exact Cursor.indices_abandon rs.cursor t
    · rfl
  · rfl

/-- An index has an entry after an event if a read has just had to wait for it, or if it had one before
and was not reached. -/
theorem Consistent.mem_indices_step (hc : Consistent rs) (answer : Reads ρ α → ρ → α)
    (event : Event ρ) : k ∈ (Reads.step answer rs event).cursor.indices ↔
      (k ∈ rs.cursor.indices ∧ ¬ event.Supplies k rs) ∨ event.Demands k rs := by
  -- only updates reach indices, and only new reads demand them
  cases event with
  | update next =>
    have hsupplies : (Event.update next : Event ρ).Supplies k rs ↔ ReachesBy k next rs := by
      constructor
      · rintro ⟨_, heq, hreach⟩
        cases heq
        exact hreach
      · exact fun hreach => ⟨next, rfl, hreach⟩
    have hdemands : ¬ (Event.update next : Event ρ).Demands k rs := nofun
    rw [or_iff_left hdemands, hsupplies]
    exact hc.mem_indices_update next
  | begin index request =>
    have hsupplies : ¬ (Event.begin index request).Supplies k rs := nofun
    have hdemands : (Event.begin index request).Demands k rs ↔
        k = index ∧ rs.cursor.applied.index < index := by
      constructor
      · rintro ⟨_, heq, hlt⟩
        cases heq
        exact ⟨rfl, hlt⟩
      · rintro ⟨rfl, hlt⟩
        exact ⟨request, rfl, hlt⟩
    rw [and_iff_left hsupplies, hdemands]
    exact mem_indices_begin
  | turn t =>
    have hsupplies : ¬ (Event.turn t : Event ρ).Supplies k rs := nofun
    have hdemands : ¬ (Event.turn t : Event ρ).Demands k rs := nofun
    rw [or_iff_left hdemands, and_iff_left hsupplies]
    rfl
  | cancel t =>
    have hsupplies : ¬ (Event.cancel t : Event ρ).Supplies k rs := nofun
    have hdemands : ¬ (Event.cancel t : Event ρ).Demands k rs := nofun
    rw [or_iff_left hdemands, and_iff_left hsupplies]
    exact iff_of_eq (congrArg (k ∈ ·) (indices_cancel rs t))

/-! ## Runs -/

/-- One of the events begins a read that has to wait for the index, and no accepted update reaches the
index after that. Whether the read is given up does not matter. -/
def Owed (answer : Reads ρ α → ρ → α) (k : Int64) (rs : Reads ρ α) (events : List (Event ρ)) : Prop :=
  ∃ before request after, events = before ++ .begin k request :: after ∧
    (run answer rs before).cursor.applied.index < k ∧
    ¬ Reaches answer k (step answer (run answer rs before) (.begin k request)) after

theorem not_owed_nil : ¬ Owed answer k rs [] := by
  rintro ⟨before, request, after, heq, -⟩
  simp at heq

theorem owed_cons {event : Event ρ} {events : List (Event ρ)} :
    Owed answer k rs (event :: events) ↔
      (event.Demands k rs ∧ ¬ Reaches answer k (step answer rs event) events) ∨
        Owed answer k (step answer rs event) events := by
  constructor
  · rintro ⟨before, request, after, heq, hlt, hnot⟩
    cases before with
    | nil =>
      cases heq
      exact .inl ⟨⟨request, rfl, hlt⟩, hnot⟩
    | cons first before =>
      cases heq
      exact .inr ⟨before, request, after, rfl, hlt, hnot⟩
  · rintro (⟨⟨request, rfl, hlt⟩, hnot⟩ | ⟨before, request, after, rfl, hlt, hnot⟩)
    · exact ⟨[], request, events, rfl, hlt, hnot⟩
    · exact ⟨event :: before, request, after, rfl, hlt, hnot⟩

/-- An index has an entry after the events if it is owed by them, or if it had one before and was not
reached. -/
theorem Consistent.mem_indices_run (hc : Consistent rs) (events : List (Event ρ)) :
    k ∈ (Reads.run answer rs events).cursor.indices ↔
      (k ∈ rs.cursor.indices ∧ ¬ Reaches answer k rs events) ∨ Owed answer k rs events := by
  induction events generalizing rs with
  | nil =>
    rw [or_iff_left not_owed_nil, and_iff_left not_reaches_nil]
    rfl
  | cons event events ih =>
    have hreaches : Reaches answer k rs (event :: events) ↔
        event.Supplies k rs ∨ Reaches answer k (Reads.step answer rs event) events := reaches_cons
    show k ∈ (Reads.run answer (Reads.step answer rs event) events).cursor.indices ↔ _
    rw [ih (hc.step answer event), hc.mem_indices_step answer event, owed_cons, hreaches, not_or,
      or_and_right, and_assoc, or_assoc]

/-- What the entries at the cursor are after the events. -/
structure Tallied (answer : Reads ρ α → ρ → α) (events : List (Event ρ)) : Prop where
  ahead : ∀ k ∈ (run answer {} events).cursor.indices,
    (run answer {} events).cursor.applied.index < k
  /-- Each index has one entry, and the entries stand in the order of their indices. -/
  ascending : (run answer {} events).cursor.indices.Pairwise (· < ·)
  owed : ∀ k, k ∈ (run answer {} events).cursor.indices ↔ Owed answer k {} events
  counted : {k | Owed answer k {} events}.encard = (run answer {} events).cursor.pendingReads
  /-- An update that finds the cursor at its position already changes nothing. -/
  settled : (run answer {} events).update (run answer {} events).cursor.applied =
    (run answer {} events, .ok false)
  /-- At the greatest index nothing is waited for, and every new read is answered at once. -/
  exhausted : (run answer {} events).cursor.applied.index = Int64.maxValue →
    (run answer {} events).cursor.pending = [] ∧
      ∀ k request, step answer (run answer {} events) (.begin k request) =
        { run answer {} events with
          reads := (run answer {} events).reads ++
            [⟨k, request, .answered (answer (run answer {} events) request)⟩] }

/-- After any updates, accepted or refused, and any reads, given up or not, the entries at the cursor
are those of the indices that are owed, all of them above the cursor's own. -/
theorem entries_are_owed (answer : Reads ρ α → ρ → α) (events : List (Event ρ)) :
    Tallied answer events := by
  have hc : Consistent (run answer {} events) := Consistent.initial.run answer events
  have howed (k : Int64) : k ∈ (run answer {} events).cursor.indices ↔ Owed answer k {} events := by
    rw [Consistent.initial.mem_indices_run, or_iff_right]
    exact fun h => List.not_mem_nil h.1
  constructor
  · intro k hk
    obtain ⟨entry, hmem, rfl⟩ := List.mem_map.mp hk
    exact hc.ahead entry hmem
  · exact Cursor.Sorted.pairwise_indices hc.sorted
  · exact howed
  · have hset : {k | Owed answer k {} events} =
        ((run answer {} events).cursor.indices.toFinset : Set Int64) := by
      ext k
      simp [howed]
    rw [hset, Set.encard_coe_eq_coe_finsetCard,
      List.toFinset_card_of_nodup (Cursor.Sorted.nodup_indices hc.sorted), Cursor.indices,
      List.length_map]
    rfl
  · generalize run answer {} events = rs at hc
    have hcomplete : rs.cursor.complete = (rs.cursor, []) :=
      Cursor.complete_of_ahead hc.sorted hc.ahead
    rw [Reads.update, Cursor.update, LogPosition.cmp_self, hcomplete]
    rfl
  · intro hmax
    generalize run answer {} events = rs at hc hmax
    refine ⟨List.eq_nil_iff_forall_not_mem.mpr fun entry hmem => ?_, fun k request => ?_⟩
    · have hlt := hc.ahead entry hmem
      rw [hmax] at hlt
      exact Int64.not_lt.mpr (Int64.le_maxValue entry.index) hlt
    · have hreached : rs.cursor.hasReached k = true := by
        simp [Cursor.hasReached, hmax, Int64.le_maxValue]
      rw [step, Reads.begin, if_pos hreached]

/-- Two reads have waited for one index and were given up, another one was released when the term rose,
and an update was refused: of the entries, that of the reads that were given up is left. -/
example : (Waits.run [.begin 7 (), .begin 7 (), .update ⟨1, 5⟩, .cancel 0, .cancel 1, .begin 6 (),
    .update ⟨1, 4⟩, .update ⟨2, 6⟩]).cursor.indices = [7] := by decide

end Reads

end Replica
