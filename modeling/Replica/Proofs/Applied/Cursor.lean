import Mathlib.Data.List.Basic
import Replica.Applied.Cursor

/-!
# The entries at a cursor

What the operations of a cursor do to the entries of waiting reads, as long as these are kept in
the order of their indices. Completing takes out those at or below the cursor's index, also where
that is the greatest index there is (`split_eq_filter`). A read that joins is found under its own
index (`listed_join`), and a read that gives up leaves all others where they were
(`listed_abandon`).
-/

namespace Replica

namespace Cursor

/-! ## The order of indices -/

/-- Up to an index and below the next one is the same, unless there is no next one. -/
theorem lt_nextIndex_iff {index next k : Int64} (h : nextIndex? index = some next) :
    k < next ↔ k ≤ index := by
  unfold nextIndex? at h
  split at h
  · cases h
  · next hmax =>
    cases h
    have hlt : index.toInt < 2 ^ 63 - 1 := by
      have hle : index.toInt ≤ 2 ^ 63 - 1 := index.toInt_le
      have hne : index.toInt ≠ 2 ^ 63 - 1 := fun e =>
        hmax (Int64.toInt_inj.mp (e.trans Int64.toInt_maxValue.symm))
      omega
    have hge := index.le_toInt
    have hone : Int64.toInt 1 = 1 := by decide
    have hsucc : (index + 1).toInt = index.toInt + 1 := by
      rw [Int64.toInt_add, hone, Int.bmod_def]
      omega
    rw [Int64.lt_iff_toInt_lt, Int64.le_iff_toInt_le, hsucc]
    omega

/-- Only the greatest index has no next one. -/
theorem le_of_nextIndex_eq_none {index : Int64} (h : nextIndex? index = none) (k : Int64) :
    k ≤ index := by
  unfold nextIndex? at h
  split at h
  · next hmax => rw [hmax]; exact Int64.le_maxValue k
  · cases h

/-! ## Sorted entries -/

/-- The entries stand in the order of their indices, with one entry for each index. -/
def Sorted (entries : List PendingRead) : Prop := entries.Pairwise (·.index < ·.index)

/-- In a sorted list, cutting at an index is filtering by it. -/
theorem Sorted.cut_eq_filter {entries : List PendingRead} (h : Sorted entries) (k : Int64) :
    entries.takeWhile (·.index < k) = entries.filter (·.index < k) ∧
      entries.dropWhile (·.index < k) = entries.filter (k ≤ ·.index) := by
  induction entries with
  | nil => exact ⟨rfl, rfl⟩
  | cons p rest ih =>
    obtain ⟨hp, hrest⟩ := List.pairwise_cons.mp h
    by_cases hk : p.index < k
    · obtain ⟨htake, hdrop⟩ := ih hrest
      simp [hk, Int64.not_le.mpr hk, htake, hdrop]
    · have hnone : ∀ q ∈ rest, ¬ q.index < k := fun q hq hlt =>
        hk (Int64.lt_trans (hp q hq) hlt)
      have hfilter : rest.filter (·.index < k) = [] :=
        List.filter_eq_nil_iff.mpr (by simpa using hnone)
      have hall : rest.filter (k ≤ ·.index) = rest :=
        List.filter_eq_self.mpr (by simpa using hnone)
      simp [hk, Int64.not_lt.mp hk, hfilter, hall]

/-- Completing splits the entries at the cursor's index, whether or not there is a next index. -/
theorem split_eq_filter {c : Cursor} (h : Sorted c.pending) :
    c.split = (c.pending.filter (·.index ≤ c.applied.index),
      c.pending.filter (c.applied.index < ·.index)) := by
  unfold split
  cases hnext : nextIndex? c.applied.index with
  | some next =>
    obtain ⟨htake, hdrop⟩ := h.cut_eq_filter next
    have hbelow (k : Int64) : k < next ↔ k ≤ c.applied.index := lt_nextIndex_iff hnext
    have habove (k : Int64) : next ≤ k ↔ c.applied.index < k := by
      rw [← Int64.not_lt, hbelow, Int64.not_le]
    simp only [htake, hdrop]
    simp only [hbelow, habove]
  | none =>
    -- no index lies above the greatest one, so every entry is at or below the cursor
    have hall := le_of_nextIndex_eq_none hnext
    have hleft : c.pending.filter (·.index ≤ c.applied.index) = c.pending :=
      List.filter_eq_self.mpr (by simp [hall])
    have hright : c.pending.filter (c.applied.index < ·.index) = [] :=
      List.filter_eq_nil_iff.mpr (by simp [hall])
    rw [hleft, hright]

/-! ## Who waits for which index -/

/-- `reader` is found in the entry for `index`. -/
def Listed (index : Int64) (reader : TaskId) (entries : List PendingRead) : Prop :=
  ∃ p ∈ entries, p.index = index ∧ reader ∈ p.readers

theorem mem_pending_complete {c : Cursor} (h : Sorted c.pending) {p : PendingRead} :
    p ∈ c.complete.1.pending ↔ p ∈ c.pending ∧ c.applied.index < p.index := by
  simp [complete, split_eq_filter h]

/-- The reads that are still found after completing: those ahead of the cursor. -/
theorem listed_complete {c : Cursor} (h : Sorted c.pending) {k : Int64} {t : TaskId} :
    Listed k t c.complete.1.pending ↔ Listed k t c.pending ∧ c.applied.index < k := by
  simp only [Listed, mem_pending_complete h]
  constructor
  · rintro ⟨p, ⟨hp, hlt⟩, rfl, ht⟩
    exact ⟨⟨p, hp, rfl, ht⟩, hlt⟩
  · rintro ⟨⟨p, hp, rfl, ht⟩, hlt⟩
    exact ⟨p, ⟨hp, hlt⟩, rfl, ht⟩

/-- The reads that are released by completing: those that the cursor has reached. -/
theorem mem_readers_complete {c : Cursor} (h : Sorted c.pending) {t : TaskId} :
    t ∈ c.complete.2 ↔ ∃ k ≤ c.applied.index, Listed k t c.pending := by
  simp only [complete, split_eq_filter h, List.mem_flatMap, List.mem_filter, decide_eq_true_eq,
    Listed]
  constructor
  · rintro ⟨p, ⟨hp, hle⟩, ht⟩
    exact ⟨p.index, hle, p, hp, rfl, ht⟩
  · rintro ⟨k, hle, p, hp, rfl, ht⟩
    exact ⟨p, ⟨hp, hle⟩, ht⟩

theorem sorted_complete {c : Cursor} (h : Sorted c.pending) : Sorted c.complete.1.pending := by
  simp only [complete, split_eq_filter h]
  exact List.Pairwise.filter _ h

/-! ## Joining and giving up -/

/-- A read that joins is found under its index, and all others where they were. -/
theorem listed_join {index k : Int64} {reader t : TaskId} {entries : List PendingRead} :
    Listed k t (join index reader entries) ↔ (k = index ∧ t = reader) ∨ Listed k t entries := by
  induction entries with
  | nil => simp [Listed, join, eq_comm]
  | cons p rest ih =>
    simp only [Listed] at ih
    simp only [join, Listed]
    split
    · next heq =>
      subst heq
      simp only [List.exists_mem_cons_iff, List.mem_append, List.mem_singleton, and_or_left,
        eq_comm (a := k)]
      exact or_right_comm.trans or_comm
    · split
      · simp [eq_comm (a := k)]
      · simp only [List.exists_mem_cons_iff, ih]
        exact or_left_comm

/-- Joining makes no entry but the one for the index. -/
theorem index_of_mem_join {index : Int64} {reader : TaskId} {entries : List PendingRead}
    {p : PendingRead} (h : p ∈ join index reader entries) :
    p.index = index ∨ ∃ q ∈ entries, q.index = p.index := by
  induction entries with
  | nil =>
    simp only [join, List.mem_singleton] at h
    exact .inl (h ▸ rfl)
  | cons q rest ih =>
    simp only [join] at h
    split at h
    · next heq =>
      rcases List.mem_cons.mp h with rfl | h
      · exact .inl heq
      · exact .inr ⟨p, List.mem_cons_of_mem _ h, rfl⟩
    · split at h
      · rcases List.mem_cons.mp h with rfl | h
        · exact .inl rfl
        · exact .inr ⟨p, h, rfl⟩
      · rcases List.mem_cons.mp h with rfl | h
        · exact .inr ⟨p, List.mem_cons_self, rfl⟩
        · rcases ih h with h | ⟨q, hq, h⟩
          · exact .inl h
          · exact .inr ⟨q, List.mem_cons_of_mem _ hq, h⟩

theorem sorted_join {index : Int64} {reader : TaskId} {entries : List PendingRead}
    (h : Sorted entries) : Sorted (join index reader entries) := by
  induction entries with
  | nil => exact List.pairwise_singleton _ _
  | cons q rest ih =>
    obtain ⟨hq, hrest⟩ := List.pairwise_cons.mp h
    simp only [join]
    split
    · exact List.pairwise_cons.mpr ⟨hq, hrest⟩
    · next hne =>
      split
      · next hlt =>
        refine List.pairwise_cons.mpr ⟨fun p hp => ?_, h⟩
        rcases List.mem_cons.mp hp with rfl | hp
        · exact hlt
        · exact Int64.lt_trans hlt (hq p hp)
      · next hge =>
        -- the first entry stays in front, since the index lies above its own
        have hlt : q.index < index :=
          Int64.lt_of_le_of_ne (Int64.not_lt.mp hge) hne
        refine List.pairwise_cons.mpr ⟨fun p hp => ?_, ih hrest⟩
        rcases index_of_mem_join hp with h | ⟨r, hr, h⟩
        · exact h ▸ hlt
        · exact h ▸ hq r hr

/-- A read that gives up leaves all others where they were. -/
theorem listed_abandon {c : Cursor} {reader t : TaskId} (hne : t ≠ reader) {k : Int64} :
    Listed k t (c.abandon reader).pending ↔ Listed k t c.pending := by
  simp [Listed, abandon, List.mem_erase_of_ne hne]

/-- A read that gives up makes nobody wait. -/
theorem Listed.of_abandon {c : Cursor} {reader t : TaskId} {k : Int64}
    (h : Listed k t (c.abandon reader).pending) : Listed k t c.pending := by
  obtain ⟨p, hp, hk, ht⟩ := h
  obtain ⟨q, hq, rfl⟩ := List.mem_map.mp hp
  exact ⟨q, hq, hk, List.mem_of_mem_erase ht⟩

theorem sorted_abandon {c : Cursor} {reader : TaskId} (h : Sorted c.pending) :
    Sorted (c.abandon reader).pending := by
  simpa [abandon, Sorted, List.pairwise_map] using h

end Cursor

end Replica
