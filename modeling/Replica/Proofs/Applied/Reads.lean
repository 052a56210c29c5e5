import Replica.Applied.Reads
import Replica.Proofs.Applied.Cursor
import Replica.Proofs.Places
import Replica.Proofs.Time.Schedule

/-!
# Runs of reads at a cursor

A run is any sequence of updates, new reads, turns and cancellations, in any order. What holds in
every state of a run is `Consistent`: the entries are sorted and lie ahead of the cursor, and a
read that waits is found in the entry of its index.

From this follows what each event does to a read. Only an accepted update releases reads, and it
releases exactly the waiting ones that it reaches (`Consistent.reads_update`).
-/

namespace Replica

theorem LogPosition.cmp_self {a : LogPosition} : a.cmp a = .eq := by
  rw [cmp, Std.compare_self, Std.compare_self]
  rfl

/-- Positions that compare as equal are equal. -/
theorem LogPosition.eq_of_cmp_eq {a b : LogPosition} (h : a.cmp b = .eq) : a = b := by
  obtain ⟨hterm, hindex⟩ := Ordering.then_eq_eq.mp h
  have hterm : a.term = b.term := Std.LawfulEqOrd.eq_of_compare hterm
  have hindex : a.index = b.index := Std.LawfulEqOrd.eq_of_compare hindex
  cases a
  cases b
  congr

/-- An accepted update leaves the cursor at the new position, also if it was there already. -/
theorem Cursor.update_eq_ok {c c' : Cursor} {next : LogPosition} {changed : Bool}
    {readers : List TaskId} (h : c.update next = .ok (changed, c', readers)) :
    (c', readers) = { c with applied := next }.complete := by
  unfold Cursor.update at h
  split at h
  · cases h
  · next heq =>
    cases h
    rw [LogPosition.eq_of_cmp_eq heq]
    rfl
  · cases h
    rfl

namespace Reads

variable {ρ α : Type}

/-! ## Runs -/

/-- Something that happens to the reads at a cursor. -/
inductive Event (ρ : Type) where
  | update (next : LogPosition)
  | begin (index : Int64) (request : ρ)
  | turn (t : TaskId)
  | cancel (t : TaskId)
  deriving DecidableEq

/-- The reads after an event. Reads are answered by `answer`, from the state at that time. -/
def step (answer : Reads ρ α → ρ → α) (rs : Reads ρ α) : Event ρ → Reads ρ α
  | .update next => (rs.update next).1
  | .begin index request => rs.begin (answer rs) index request
  | .turn t => rs.turn (answer rs) t
  | .cancel t => (rs.cancel t).1

/-- The reads after a sequence of events. -/
def run (answer : Reads ρ α → ρ → α) (rs : Reads ρ α) (events : List (Event ρ)) : Reads ρ α :=
  events.foldl (step answer) rs

theorem run_append (answer : Reads ρ α → ρ → α) (rs : Reads ρ α) (before after : List (Event ρ)) :
    run answer rs (before ++ after) = run answer (run answer rs before) after :=
  List.foldl_append

/-! ## Consistency -/

/-- What holds of the reads and the cursor at all times. -/
structure Consistent (rs : Reads ρ α) : Prop where
  sorted : Cursor.Sorted rs.cursor.pending
  /-- No entry is at or below the cursor's index. -/
  ahead : ∀ p ∈ rs.cursor.pending, rs.cursor.applied.index < p.index
  /-- A read is found in no other entry than the one for its index. -/
  listed : ∀ k t, Cursor.Listed k t rs.cursor.pending → ∃ r, rs.reads[t]? = some r ∧ r.index = k
  /-- A read that waits is found in an entry. -/
  enrolled : ∀ t r, rs.reads[t]? = some r → r.stage = .waiting →
    Cursor.Listed r.index t rs.cursor.pending

theorem Consistent.initial : Consistent ({} : Reads ρ α) := by
  constructor <;> simp [Cursor.Sorted, Cursor.Listed]

variable {rs : Reads ρ α}

/-- The index under which a read is found is its own. -/
theorem Consistent.index_of_listed (h : Consistent rs) {k : Int64} {t : TaskId} {r : Read ρ α}
    (hr : rs.reads[t]? = some r) (hk : Cursor.Listed k t rs.cursor.pending) : r.index = k := by
  obtain ⟨r', hr', hindex⟩ := h.listed k t hk
  cases hr.symm.trans hr'
  exact hindex

/-! ## Updates -/

theorem release_release (r : Read ρ α) : release (release r) = release r := by
  obtain ⟨index, request, stage⟩ := r
  cases stage <;> rfl

@[simp] theorem release_index (r : Read ρ α) : (release r).index = r.index := by
  unfold release
  split <;> rfl

theorem release_stage_of_ne {r : Read ρ α} (h : r.stage ≠ .waiting) : release r = r := by
  unfold release
  split
  · next hw => exact absurd hw h
  · rfl

theorem release_stage_ne_waiting (r : Read ρ α) : (release r).stage ≠ .waiting := by
  obtain ⟨index, request, stage⟩ := r
  cases stage <;> simp [release]

/-- The state after an accepted update, spelled out. -/
theorem update_eq_of_ok {next : LogPosition} {changed : Bool}
    (hok : (rs.update next).2 = .ok changed) :
    (rs.update next).1 =
      { cursor := { rs.cursor with applied := next }.complete.1
        reads := ({ rs.cursor with applied := next }.complete.2).foldl
          (fun reads t => reads.modify t release) rs.reads } := by
  unfold update at hok ⊢
  split at hok
  · cases hok
  · next heq =>
    rw [← Cursor.update_eq_ok heq]

/-- A refused update changes nothing. -/
theorem update_eq_of_error {next : LogPosition} {e : ServerError}
    (herr : (rs.update next).2 = .error e) : (rs.update next).1 = rs := by
  unfold update at herr ⊢
  split at herr
  · rfl
  · cases herr

theorem update_applied_of_ok {next : LogPosition} {changed : Bool}
    (hok : (rs.update next).2 = .ok changed) : (rs.update next).1.cursor.applied = next := by
  rw [update_eq_of_ok hok]
  rfl

/-- An accepted update releases the waiting reads that it reaches, and no others. -/
theorem Consistent.reads_update (h : Consistent rs) {next : LogPosition} {changed : Bool}
    (hok : (rs.update next).2 = .ok changed) :
    (rs.update next).1.reads =
      rs.reads.map fun r => if r.index ≤ next.index then release r else r := by
  rw [update_eq_of_ok hok]
  refine List.ext_getElem? fun t => ?_
  rw [getElem?_foldl_modify release_release, List.getElem?_map]
  have hmem : t ∈ ({ rs.cursor with applied := next }.complete).2 ↔
      ∃ k ≤ next.index, Cursor.Listed k t rs.cursor.pending :=
    Cursor.mem_readers_complete (c := { rs.cursor with applied := next }) h.sorted
  cases hr : rs.reads[t]? with
  | none => simp
  | some r =>
    split
    · next hreached =>
      obtain ⟨k, hle, hk⟩ := hmem.mp hreached
      have hle : r.index ≤ next.index := h.index_of_listed hr hk ▸ hle
      simp [hle]
    · next hmissed =>
      -- a read that is found in no such entry does not wait, or is not reached
      by_cases hle : r.index ≤ next.index
      · have hstage : r.stage ≠ .waiting := fun hw =>
          hmissed (hmem.mpr ⟨r.index, hle, h.enrolled t r hr hw⟩)
        simp [release_stage_of_ne hstage]
      · simp [hle]

theorem Consistent.update (h : Consistent rs) (next : LogPosition) :
    Consistent (rs.update next).1 := by
  cases hres : (rs.update next).2 with
  | error e => rwa [update_eq_of_error hres]
  | ok changed =>
    have hreads := h.reads_update hres
    have hcursor : (rs.update next).1.cursor = { rs.cursor with applied := next }.complete.1 := by
      rw [update_eq_of_ok hres]
    have hsorted : Cursor.Sorted { rs.cursor with applied := next }.pending := h.sorted
    -- what is pending then is what was pending before and lies ahead of the new index
    constructor
    case sorted =>
      rw [hcursor]
      exact Cursor.sorted_complete hsorted
    case ahead =>
      intro p hp
      rw [hcursor] at hp
      rw [update_applied_of_ok hres]
      exact ((Cursor.mem_pending_complete hsorted).mp hp).2
    case listed =>
      intro k t hk
      rw [hcursor] at hk
      obtain ⟨r, hr, hindex⟩ := h.listed k t ((Cursor.listed_complete hsorted).mp hk).1
      rw [hreads, List.getElem?_map, hr]
      refine ⟨_, rfl, ?_⟩
      dsimp only
      split
      · exact (release_index r).trans hindex
      · exact hindex
    case enrolled =>
      intro t r hr hw
      rw [hreads, List.getElem?_map] at hr
      obtain ⟨r₀, hr₀, rfl⟩ := Option.map_eq_some_iff.mp hr
      rw [hcursor]
      split at hw
      · exact absurd hw (release_stage_ne_waiting r₀)
      · next hle =>
        rw [if_neg hle]
        exact (Cursor.listed_complete hsorted).mpr
          ⟨h.enrolled t r₀ hr₀ hw, Int64.not_le.mp hle⟩

/-! ## New reads, turns and cancellations -/

theorem Consistent.begin (h : Consistent rs) (answer : ρ → α) (index : Int64) (request : ρ) :
    Consistent (rs.begin answer index request) := by
  unfold Reads.begin
  split
  · constructor
    case sorted => exact h.sorted
    case ahead => exact h.ahead
    case listed =>
      intro k t hk
      obtain ⟨r, hr, hindex⟩ := h.listed k t hk
      exact ⟨r, getElem?_concat_of_some _ hr, hindex⟩
    case enrolled =>
      intro t r hr hw
      rcases getElem?_concat_eq_some_iff.mp hr with hr | ⟨-, rfl⟩
      · exact h.enrolled t r hr hw
      · cases hw
  · next hbehind =>
    -- the read has to wait, so its index lies ahead of the cursor
    have hahead : rs.cursor.applied.index < index := by
      simpa [Cursor.hasReached, Int64.not_le] using hbehind
    constructor
    case sorted => exact Cursor.sorted_join h.sorted
    case ahead =>
      intro p hp
      rcases Cursor.index_of_mem_join hp with heq | ⟨q, hq, heq⟩
      · exact heq ▸ hahead
      · exact heq ▸ h.ahead q hq
    case listed =>
      intro k t hk
      rcases Cursor.listed_join.mp hk with ⟨rfl, rfl⟩ | hk
      · exact ⟨_, List.getElem?_concat_length, rfl⟩
      · obtain ⟨r, hr, hindex⟩ := h.listed k t hk
        exact ⟨r, getElem?_concat_of_some _ hr, hindex⟩
    case enrolled =>
      intro t r hr hw
      refine Cursor.listed_join.mpr ?_
      rcases getElem?_concat_eq_some_iff.mp hr with hr | ⟨rfl, rfl⟩
      · exact .inr (h.enrolled t r hr hw)
      · exact .inl ⟨rfl, rfl⟩

/-- A read whose stage changes keeps its index, so the entries stay in order as long as it does not
begin to wait. -/
theorem Consistent.modify (h : Consistent rs) {t : TaskId} {f : Read ρ α → Read ρ α}
    (hindex : ∀ r, (f r).index = r.index)
    (hstage : ∀ r, (f r).stage = .waiting → r.stage = .waiting) :
    Consistent { rs with reads := rs.reads.modify t f } := by
  constructor
  case sorted => exact h.sorted
  case ahead => exact h.ahead
  case listed =>
    intro k u hk
    obtain ⟨r, hr, rfl⟩ := h.listed k u hk
    refine ⟨_, getElem?_modify_eq_some_iff.mpr ⟨r, hr, rfl⟩, ?_⟩
    split
    · exact hindex r
    · rfl
  case enrolled =>
    intro u r hr hw
    obtain ⟨r₀, hr₀, rfl⟩ := getElem?_modify_eq_some_iff.mp hr
    split at hw
    · next heq =>
      rw [if_pos heq, hindex]
      exact h.enrolled u r₀ hr₀ (hstage r₀ hw)
    · next hne =>
      rw [if_neg hne]
      exact h.enrolled u r₀ hr₀ hw

theorem Consistent.turn (h : Consistent rs) (answer : ρ → α) (t : TaskId) :
    Consistent (rs.turn answer t) := by
  refine h.modify (fun r => ?_) (fun r hw => ?_)
  · split <;> rfl
  · split at hw
    · cases hw
    · exact hw

theorem Consistent.cancel (h : Consistent rs) (t : TaskId) : Consistent (rs.cancel t).1 := by
  unfold Reads.cancel
  split
  · split
    · have hm := h.modify (t := t) (f := fun r => { r with stage := .cancelled })
        (fun _ => rfl) (fun _ hw => by cases hw)
      constructor
      case sorted => exact Cursor.sorted_abandon h.sorted
      case ahead =>
        intro p hp
        obtain ⟨q, hq, rfl⟩ := List.mem_map.mp hp
        exact h.ahead q hq
      case listed => exact fun k u hk => hm.listed k u hk.of_abandon
      case enrolled =>
        intro u r hr hw
        -- a read that waits afterwards is not the one that was given up
        have hne : u ≠ t := by
          rintro rfl
          obtain ⟨r₀, -, rfl⟩ := getElem?_modify_eq_some_iff.mp hr
          simp at hw
        exact (Cursor.listed_abandon hne).mpr (hm.enrolled u r hr hw)
    · exact h
  · exact h

/-- Every event keeps the reads consistent. -/
theorem Consistent.step (h : Consistent rs) (answer : Reads ρ α → ρ → α) (event : Event ρ) :
    Consistent (step answer rs event) := by
  cases event with
  | update next => exact h.update next
  | begin index request => exact h.begin _ index request
  | turn t => exact h.turn _ t
  | cancel t => exact h.cancel t

theorem Consistent.run (h : Consistent rs) (answer : Reads ρ α → ρ → α) (events : List (Event ρ)) :
    Consistent (run answer rs events) := by
  induction events generalizing rs with
  | nil => exact h
  | cons event events ih => exact ih (h.step answer event)

end Reads

end Replica
