import Mathlib.Data.Prod.Lex
import Mathlib.Order.Bounds.Basic
import Replica.Proofs.Applied.Reads
import Replica.Proofs.Machine.Applied

/-!
# The applied position as a running maximum

Positions are pairs of integers in lexicographic order. A call moves the cursor to the greater one of
where it stands and where the call would have it (`applied_afterCall_eq`), so after a list of calls it
stands at the greatest position of all, those of refused calls included (`isGreatest_runCalls`). The
answers to the calls depend on the order of the list; the position that is reached does not.

`applied_is_running_maximum` says this of a machine that starts before the first entry, with the answer
to each call in terms of the greatest position before it.
-/

namespace Replica

namespace LogPosition

/-- The term and the index as integers, ordered by the first and then by the second. -/
def key (p : LogPosition) : ℤ ×ₗ ℤ := toLex (p.term.toInt, p.index.toInt)

theorem key_injective : Function.Injective key := by
  intro a b h
  obtain ⟨hterm, hindex⟩ := Prod.mk.inj (toLex.injective h)
  obtain ⟨term, index⟩ := a
  obtain ⟨term', index'⟩ := b
  exact congrArg₂ LogPosition.mk (Int64.toInt_inj.mp hterm) (Int64.toInt_inj.mp hindex)

/-- The lexicographic order. -/
instance : LinearOrder LogPosition := LinearOrder.lift' key key_injective

variable {a b : LogPosition}

theorem lt_iff : a < b ↔ a.term < b.term ∨ (a.term = b.term ∧ a.index < b.index) := by
  show a.key < b.key ↔ _
  rw [key, key, Prod.Lex.toLex_lt_toLex, Int64.lt_iff_toInt_lt, Int64.lt_iff_toInt_lt, Int64.toInt_inj]

theorem cmp_eq_lt : a.cmp b = .lt ↔ a < b := by rw [cmp_eq_lt_iff, lt_iff]

theorem cmp_eq_gt : a.cmp b = .gt ↔ b < a := by rw [cmp_eq_gt_iff, lt_iff, eq_comm]

theorem cmp_eq_eq : a.cmp b = .eq ↔ a = b := ⟨eq_of_cmp_eq, fun h => h ▸ cmp_self⟩

end LogPosition

namespace Machine

variable {σ : Type} {m : Machine σ}

/-! ## One call -/

/-- What is said of a position that is behind the cursor. -/
def behind (applied next : LogPosition) : ServerError :=
  .invariantViolation
    ("applied index moved backward: " ++ applied.display ++ " -> " ++ next.display)

/-- What the machine answers when it is to move the cursor. -/
def verdict (applied next : LogPosition) : Except ServerError Bool :=
  if applied < next then .ok true else if next = applied then .ok false
    else .error (behind applied next)

/-- Whoever asks for something else than whether the cursor moves has it unless the position is
behind. -/
theorem verdict_map {α : Type} (applied next : LogPosition) (a : α) :
    (verdict applied next).map (fun _ => a) =
      if applied ≤ next then .ok a else .error (behind applied next) := by
  rw [verdict]
  rcases lt_trichotomy applied next with h | rfl | h
  · rw [if_pos h, if_pos h.le]
    rfl
  · rw [if_neg (lt_irrefl _), if_pos rfl, if_pos le_rfl]
    rfl
  · rw [if_neg h.not_gt, if_neg h.ne, if_neg h.not_ge]
    rfl

theorem advance_eq_verdict (m : Machine σ) (next : LogPosition) :
    (m.advance next).2 = verdict m.applied next := by
  unfold advance Reads.update Cursor.update
  show _ = verdict m.reads.cursor.applied next
  unfold verdict
  cases hcmp : next.cmp m.reads.cursor.applied with
  | lt =>
    have h := LogPosition.cmp_eq_lt.mp hcmp
    rw [if_neg h.not_gt, if_neg h.ne]
    rfl
  | eq => rw [LogPosition.cmp_eq_eq.mp hcmp, if_neg (lt_irrefl _), if_pos rfl]
  | gt => rw [if_pos (LogPosition.cmp_eq_gt.mp hcmp)]

theorem markApplied_eq_verdict (m : Machine σ) (next : LogPosition) :
    (m.markApplied next).2 = (verdict m.applied next).map fun _ => () := by
  rw [← advance_eq_verdict, markApplied]
  cases hadvance : m.advance next with
  | mk after result => cases result <;> rfl

/-- An entry that is applied by default is answered with its payload. -/
theorem apply_eq_verdict {trx : Transaction} {entry : LogEntry} (h : trx.entry = some entry) :
    (m.apply {} trx).2 = (verdict m.applied entry.position).map fun _ => entry.data := by
  rw [← advance_eq_verdict, apply, h]
  dsimp only
  cases hadvance : m.advance entry.position with
  | mk after result => cases result <;> rfl

/-- What a call leaves of the cursor and the reads. -/
theorem reads_afterCall (m : Machine σ) (call : LogCall) :
    (m.afterCall call).reads = match call.position? with
      | some next => (m.reads.update next).1
      | none => m.reads := by
  have hadvance : ∀ next, (m.advance next).1.reads = (m.reads.update next).1 := by
    intro next
    rw [advance]
    cases m.reads.update next with
    | mk reads result => cases result <;> rfl
  cases call with
  | advance next => exact hadvance next
  | markApplied next =>
    refine Eq.trans ?_ (hadvance next)
    rw [afterCall, markApplied]
    cases m.advance next with
    | mk after result => cases result <;> rfl
  | apply trx =>
    rw [afterCall, LogCall.position?, apply]
    cases trx.entry with
    | none => rfl
    | some entry =>
      refine Eq.trans ?_ (hadvance entry.position)
      dsimp only
      cases m.advance entry.position with
      | mk after result => cases result <;> rfl

/-- A call is refused if it brings no position, or one that is behind the cursor. -/
theorem isAccepted_eq_false_iff {call : LogCall} : call.isAccepted m = false ↔
    ∀ next, call.position? = some next → next < m.applied := by
  rw [← Bool.not_eq_true, isAccepted_iff, not_exists]
  refine forall_congr' fun next => ?_
  rw [not_and, not_not, LogPosition.cmp_eq_lt]

/-- A call that is refused leaves the cursor and the reads as they were. -/
theorem reads_afterCall_of_refused {call : LogCall} (h : call.isAccepted m = false) :
    (m.afterCall call).reads = m.reads := by
  rw [reads_afterCall]
  cases hpos : call.position? with
  | none => rfl
  | some next =>
    have hlt : next.cmp m.reads.cursor.applied = .lt :=
      LogPosition.cmp_eq_lt.mpr (isAccepted_eq_false_iff.mp h next hpos)
    dsimp only
    rw [Reads.update, Cursor.update, hlt]

/-- The cursor goes to the greater one of its position and the one that the call brings. -/
theorem applied_afterCall_eq (m : Machine σ) (call : LogCall) :
    (m.afterCall call).applied = match call.position? with
      | some next => max next m.applied
      | none => m.applied := by
  cases hpos : call.position? with
  | none =>
    have hrefused : call.isAccepted m = false :=
      isAccepted_eq_false_iff.mpr fun next hnext => by cases hpos.symm.trans hnext
    exact congrArg (·.cursor.applied) (reads_afterCall_of_refused hrefused)
  | some next =>
    have hmoved : (m.afterCall call).applied = (m.advance next).1.applied := by
      have hreads : (m.afterCall call).reads = (m.afterCall (.advance next)).reads := by
        rw [reads_afterCall, reads_afterCall, hpos, LogCall.position?]
      exact congrArg (·.cursor.applied) hreads
    rw [hmoved, applied_advance]
    dsimp only
    by_cases hgt : m.applied < next
    · rw [if_pos (LogPosition.cmp_eq_gt.mpr hgt), max_eq_left hgt.le]
    · rw [if_neg (by rwa [LogPosition.cmp_eq_gt]), max_eq_right (not_lt.mp hgt)]

/-! ## Lists of calls -/

/-- The positions that the calls bring. -/
def positions (calls : List LogCall) : Set LogPosition :=
  {p | ∃ call ∈ calls, call.position? = some p}

theorem positions_concat (calls : List LogCall) (call : LogCall) :
    positions (calls ++ [call]) = match call.position? with
      | some next => insert next (positions calls)
      | none => positions calls := by
  ext p
  cases hpos : call.position? with
  | none => simp [positions, or_and_right, exists_or, hpos]
  | some next => simp [positions, or_and_right, exists_or, hpos, or_comm, eq_comm]

theorem positions_perm {calls calls' : List LogCall} (h : calls.Perm calls') :
    positions calls = positions calls' := by
  ext p
  simp [positions, h.mem_iff]

/-- After a list of calls the cursor stands at the greatest position that there was. -/
theorem isGreatest_runCalls (m : Machine σ) (calls : List LogCall) :
    IsGreatest (insert m.applied (positions calls)) (m.runCalls calls).applied := by
  induction calls using List.reverseRecOn with
  | nil => simp [positions, runCalls]
  | append_singleton calls call ih =>
    rw [runCalls_concat, applied_afterCall_eq, positions_concat]
    cases call.position? with
    | none => exact ih
    | some next =>
      dsimp only
      rw [Set.insert_comm]
      exact ih.insert next

/-- The cursor of a machine that starts before the first entry is the running maximum.

After any list of calls it stands at the greatest of the initial position and all positions that the
calls bring, in whatever order. A call is answered by how its position compares with the greatest one
before it: whether the cursor moves, or else that the position is behind. A default application gives
an entry's payload back just if the position is not behind, and refuses a transaction without an
entry. Whatever is refused leaves the cursor and the waiting reads as they were. -/
theorem applied_is_running_maximum (m : Machine σ) (hm : m.applied = .initial) :
    (∀ calls, IsGreatest (insert .initial (positions calls)) (m.runCalls calls).applied) ∧
    (∀ calls calls', calls.Perm calls' → (m.runCalls calls').applied = (m.runCalls calls).applied) ∧
    ∀ before top, IsGreatest (insert .initial (positions before)) top →
      (∀ p, ((m.runCalls before).advance p).2 =
        if top < p then .ok true else if p = top then .ok false else .error (behind top p)) ∧
      (∀ p, ((m.runCalls before).markApplied p).2 =
        if top ≤ p then .ok () else .error (behind top p)) ∧
      (∀ trx : Transaction, ((m.runCalls before).apply {} trx).2 =
        match trx.entry with
        | none => .error (.invalidArgument "transaction has no log entry")
        | some entry =>
          if top ≤ entry.position then .ok entry.data else .error (behind top entry.position)) ∧
      ∀ call : LogCall,
        (call.isAccepted (m.runCalls before) = false ↔ ∀ p, call.position? = some p → p < top) ∧
        (call.isAccepted (m.runCalls before) = false →
          ((m.runCalls before).afterCall call).reads = (m.runCalls before).reads) := by
  have hgreatest : ∀ calls, IsGreatest (insert .initial (positions calls))
      (m.runCalls calls).applied := fun calls => hm ▸ isGreatest_runCalls m calls
  refine ⟨hgreatest, fun calls calls' hperm => ?_, fun before top htop => ?_⟩
  · have hcalls := hgreatest calls
    rw [positions_perm hperm] at hcalls
    exact (hgreatest calls').unique hcalls
  · obtain rfl := htop.unique (hgreatest before)
    refine ⟨fun p => ?_, fun p => ?_, fun trx => ?_, fun call => ⟨isAccepted_eq_false_iff, ?_⟩⟩
    · exact advance_eq_verdict _ p
    · rw [markApplied_eq_verdict, verdict_map]
    · cases hentry : trx.entry with
      | none => rw [apply, hentry]
      | some entry => rw [apply_eq_verdict hentry, verdict_map]
    · exact reads_afterCall_of_refused

section

private def blankAt (term index : Int64) : LogEntry := ⟨term, index, .empty⟩

/-- A new machine with two reads that wait. -/
private def awaited : Machine Unit :=
  (({ state := () } : Machine Unit).queryStale .plain .empty 5).queryStale .plain .empty 9

/-- Positions out of order, negative ones and the greatest index among them, by all three kinds of
call; one of the calls brings no position. -/
private def mixed : List LogCall :=
  [.advance ⟨-3, 9⟩, .apply (.ofEntry (blankAt 2 Int64.minValue)), .markApplied ⟨1, Int64.maxValue⟩,
    .apply {}, .markApplied ⟨0, -1⟩]

/-- All calls but one are refused, and the greatest position has the smallest index. -/
theorem applied_is_running_maximum_of_mixed_calls :
    awaited.applied = .initial ∧
      (awaited.runCalls mixed).applied = ⟨2, Int64.minValue⟩ ∧
      (awaited.runCalls mixed.reverse).applied = ⟨2, Int64.minValue⟩ ∧
      ((awaited.runCalls mixed).advance ⟨1, 0⟩).2 = .error (behind ⟨2, Int64.minValue⟩ ⟨1, 0⟩) ∧
      ((awaited.runCalls mixed).apply {} (.ofEntry (blankAt 3 0))).2 = .ok .empty ∧
      ((awaited.runCalls mixed).afterCall (.advance ⟨1, 0⟩)).reads =
        (awaited.runCalls mixed).reads := by
  have hstart : awaited.applied = .initial := rfl
  obtain ⟨hgreatest, hperm, hanswers⟩ := applied_is_running_maximum awaited hstart
  have htop : (awaited.runCalls mixed).applied = ⟨2, Int64.minValue⟩ := by decide
  have hnow := htop ▸ hgreatest mixed
  obtain ⟨hadvance, -, happly, hrefused⟩ := hanswers mixed ⟨2, Int64.minValue⟩ hnow
  refine ⟨hstart, htop, ?_, ?_, ?_, ?_⟩
  · exact (hperm mixed mixed.reverse (List.reverse_perm mixed).symm).trans htop
  · rw [hadvance, if_neg (by decide), if_neg (by decide)]
  · exact (happly _).trans (if_pos (by decide))
  · obtain ⟨hiff, hsame⟩ := hrefused (.advance ⟨1, 0⟩)
    exact hsame (hiff.mpr fun p hp => by cases hp; decide)

end

end Machine

end Replica
