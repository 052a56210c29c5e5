import Mathlib.Data.List.Induction
import Replica.Machine.Basic
import Replica.Proofs.Applied.Reads

/-!
# The applied position of a machine

Positions are compared by their terms first, and a call that would move the cursor back is refused.
So the position never goes back (`cmp_run_ne_lt`). Its index does, by a call that raises the term and
brings a smaller index, and in no other way (`index_afterCall_lt`).

Reads go by the index alone. What was applied once is therefore served for as long as no call raises
the term to a position with an index below (`stale_reads_stable`).
-/

namespace Replica

namespace LogPosition

variable {a b c : LogPosition}

theorem cmp_eq_lt_iff :
    a.cmp b = .lt ↔ a.term < b.term ∨ (a.term = b.term ∧ a.index < b.index) := by
  rw [cmp, Ordering.then_eq_lt, Std.compare_eq_lt, Std.compare_eq_lt, Std.compare_eq_iff_eq]

theorem cmp_eq_gt_iff :
    a.cmp b = .gt ↔ b.term < a.term ∨ (a.term = b.term ∧ b.index < a.index) := by
  rw [cmp, Ordering.then_eq_gt, Std.compare_eq_gt, Std.compare_eq_gt, Std.compare_eq_iff_eq]

/-- What is not before a position is not before an earlier one. -/
theorem cmp_ne_lt_trans (h : b.cmp a ≠ .lt) (h' : c.cmp b ≠ .lt) : c.cmp a ≠ .lt := by
  rw [Ne, cmp_eq_lt_iff] at h h' ⊢
  grind

end LogPosition

namespace Machine

variable {σ : Type} {m : Machine σ} {next : LogPosition} {index : Int64}

/-! ## Calls that move the cursor -/

/-- A call by which the applied position is moved. -/
inductive LogCall where
  | advance (next : LogPosition)
  | markApplied (next : LogPosition)
  /-- A transaction is applied as the defaults have it. -/
  | apply (trx : Transaction)

namespace LogCall

/-- Where the call is to move the cursor. -/
def position? : LogCall → Option LogPosition
  | advance next => some next
  | markApplied next => some next
  | apply trx => trx.entry.map LogEntry.position

/-- Whether the machine takes the call. -/
def isAccepted (m : Machine σ) : LogCall → Bool
  | advance next => (m.advance next).2.isOk
  | markApplied next => (m.markApplied next).2.isOk
  | apply trx => (m.apply {} trx).2.isOk

end LogCall

/-- The machine after a call. -/
def afterCall (m : Machine σ) : LogCall → Machine σ
  | .advance next => (m.advance next).1
  | .markApplied next => (m.markApplied next).1
  | .apply trx => (m.apply {} trx).1

/-- The machine after a sequence of calls. -/
def runCalls (m : Machine σ) (calls : List LogCall) : Machine σ := calls.foldl afterCall m

theorem runCalls_cons (m : Machine σ) (call : LogCall) (calls : List LogCall) :
    m.runCalls (call :: calls) = (m.afterCall call).runCalls calls := rfl

theorem runCalls_concat (m : Machine σ) (calls : List LogCall) (call : LogCall) :
    m.runCalls (calls ++ [call]) = (m.runCalls calls).afterCall call :=
  List.foldl_append

/-! ## One call -/

/-- The cursor goes to a later position, and stays where it is otherwise. -/
theorem applied_advance :
    (m.advance next).1.applied = if next.cmp m.applied = .gt then next else m.applied := by
  unfold advance Reads.update Cursor.update
  show _ = if next.cmp m.reads.cursor.applied = .gt then next else m.reads.cursor.applied
  cases next.cmp m.reads.cursor.applied <;> rfl

theorem isOk_advance : (m.advance next).2.isOk = true ↔ next.cmp m.applied ≠ .lt := by
  unfold advance Reads.update Cursor.update applied
  cases next.cmp m.reads.cursor.applied <;> simp [Except.isOk, Except.toBool]

theorem applied_markApplied :
    (m.markApplied next).1.applied = (m.advance next).1.applied := by
  unfold markApplied
  split <;> next heq => rw [heq]

theorem isOk_markApplied :
    (m.markApplied next).2.isOk = (m.advance next).2.isOk := by
  unfold markApplied
  split <;> next heq => rw [heq]; rfl

/-- An entry that is applied by default moves the cursor and does nothing else. -/
theorem apply_default {trx : Transaction} {entry : LogEntry} (h : trx.entry = some entry) :
    (m.apply {} trx).1.applied = (m.advance entry.position).1.applied ∧
      (m.apply {} trx).2.isOk = (m.advance entry.position).2.isOk := by
  unfold apply
  rw [h]
  dsimp only
  split <;> next heq => rw [heq]; exact ⟨rfl, rfl⟩

theorem apply_missing {trx : Transaction} (h : trx.entry = none) :
    (m.apply {} trx).1 = m ∧ (m.apply {} trx).2.isOk = false := by
  unfold apply
  rw [h]
  exact ⟨rfl, rfl⟩

theorem applied_afterCall (call : LogCall) :
    (m.afterCall call).applied = m.applied ∨ ∃ next, call.position? = some next ∧
      next.cmp m.applied = .gt ∧ (m.afterCall call).applied = next := by
  -- the three calls move the cursor alike, as far as they bring a position
  suffices hmoved : ∀ next, call.position? = some next →
      (m.afterCall call).applied = (m.advance next).1.applied by
    cases hpos : call.position? with
    | none =>
      left
      cases call with
      | advance next => cases hpos
      | markApplied next => cases hpos
      | apply trx => exact congrArg applied (apply_missing (Option.map_eq_none_iff.mp hpos)).1
    | some next =>
      rw [hmoved next hpos, applied_advance]
      split
      · next hgt => exact .inr ⟨next, rfl, hgt, rfl⟩
      · exact .inl rfl
  intro next hpos
  cases call with
  | advance p =>
    cases hpos
    rfl
  | markApplied p =>
    cases hpos
    exact applied_markApplied
  | apply trx =>
    obtain ⟨entry, hentry, rfl⟩ := Option.map_eq_some_iff.mp hpos
    exact (apply_default hentry).1

/-- A call is taken if it brings a position that is not behind the cursor. -/
theorem isAccepted_iff {call : LogCall} : call.isAccepted m = true ↔
    ∃ next, call.position? = some next ∧ next.cmp m.applied ≠ .lt := by
  cases call with
  | advance p => simp [LogCall.isAccepted, LogCall.position?, isOk_advance]
  | markApplied p =>
    simp [LogCall.isAccepted, LogCall.position?, isOk_markApplied, isOk_advance]
  | apply trx =>
    cases hentry : trx.entry with
    | none => simp [LogCall.isAccepted, LogCall.position?, hentry, (apply_missing hentry).2]
    | some entry =>
      simp [LogCall.isAccepted, LogCall.position?, hentry, (apply_default hentry).2, isOk_advance]

/-- No call moves the position back. -/
theorem cmp_afterCall_ne_lt (call : LogCall) : (m.afterCall call).applied.cmp m.applied ≠ .lt := by
  rcases applied_afterCall (m := m) call with hsame | ⟨next, -, hgt, hmoved⟩
  · rw [hsame, LogPosition.cmp_self]
    nofun
  · rw [hmoved, hgt]
    nofun

/-- A call brings the index below another one only by raising the term. -/
theorem index_afterCall_lt {call : LogCall} (h : index ≤ m.applied.index)
    (hlt : (m.afterCall call).applied.index < index) :
    ∃ next, call.position? = some next ∧ m.applied.term < next.term ∧ next.index < index := by
  rcases applied_afterCall (m := m) call with hsame | ⟨next, hpos, hgt, hmoved⟩
  · rw [hsame] at hlt
    grind
  · rw [hmoved] at hlt
    rw [LogPosition.cmp_eq_gt_iff] at hgt
    exact ⟨next, hpos, by grind, hlt⟩

/-- A call that raises the term is taken, whatever its index. -/
theorem applied_of_raises {call : LogCall} (hpos : call.position? = some next)
    (hraises : m.applied.term < next.term) :
    call.isAccepted m = true ∧ (m.afterCall call).applied = next := by
  have hgt : next.cmp m.applied = .gt := LogPosition.cmp_eq_gt_iff.mpr (.inl hraises)
  refine ⟨isAccepted_iff.mpr ⟨next, hpos, by simp [hgt]⟩, ?_⟩
  cases call with
  | advance p =>
    cases hpos
    exact applied_advance.trans (if_pos hgt)
  | markApplied p =>
    cases hpos
    exact applied_markApplied.trans (applied_advance.trans (if_pos hgt))
  | apply trx =>
    obtain ⟨entry, hentry, rfl⟩ := Option.map_eq_some_iff.mp hpos
    exact (apply_default hentry).1.trans (applied_advance.trans (if_pos hgt))

/-! ## Reads -/

/-- The index has been applied, and whoever reads at it or waits for it need not wait. -/
structure Serves (index : Int64) (m : Machine σ) : Prop where
  reached : index ≤ m.applied.index
  query : ∀ (app : Application σ) (request : Payload),
    (m.queryStale app request index).reads.answer? m.reads.reads.length =
      some (app.query request m.state)
  wait : ∀ waits : Waits, waits.cursor = m.reads.cursor →
    (waits.waitFor index).answer? waits.reads.length = some m.applied

/-- A read of an index that has been applied is answered when it begins. -/
theorem answer?_begin_of_le {ρ α : Type} {rs : Reads ρ α} (h : index ≤ rs.cursor.applied.index)
    (answer : ρ → α) (request : ρ) :
    (rs.begin answer index request).answer? rs.reads.length = some (answer request) := by
  have hreached : rs.cursor.hasReached index = true := decide_eq_true h
  simp [Reads.begin, hreached, Reads.answer?]

theorem serves_iff : m.Serves index ↔ index ≤ m.applied.index := by
  refine ⟨Serves.reached, fun h => ⟨h, fun app request => ?_, fun waits hcursor => ?_⟩⟩
  · exact answer?_begin_of_le h _ request
  · have hle : index ≤ waits.cursor.applied.index := by rwa [hcursor]
    rw [Waits.waitFor, answer?_begin_of_le hle, hcursor]
    rfl

/-! ## Sequences of calls -/

/-- The position never goes back. -/
theorem cmp_run_ne_lt (calls : List LogCall) : (m.runCalls calls).applied.cmp m.applied ≠ .lt := by
  induction calls generalizing m with
  | nil =>
    rw [runCalls, List.foldl_nil, LogPosition.cmp_self]
    nofun
  | cons call calls ih =>
    rw [runCalls_cons]
    exact LogPosition.cmp_ne_lt_trans (cmp_afterCall_ne_lt call) ih

/-- No call raises the term to a position with an index below. -/
def Spares (index : Int64) (m : Machine σ) (calls : List LogCall) : Prop :=
  ∀ before call after next, calls = before ++ call :: after → call.position? = some next →
    (m.runCalls before).applied.term < next.term → index ≤ next.index

theorem Spares.of_append {before after : List LogCall} (h : m.Spares index (before ++ after)) :
    m.Spares index before := by
  intro before' call after' next heq
  exact h before' call (after' ++ after) next (by rw [heq, List.append_assoc, List.cons_append])

theorem Spares.le_applied {calls : List LogCall} (h : m.Spares index calls)
    (hm : index ≤ m.applied.index) : index ≤ (m.runCalls calls).applied.index := by
  induction calls using List.reverseRecOn with
  | nil => exact hm
  | append_singleton calls call ih =>
    rw [runCalls_concat]
    by_contra hlt
    obtain ⟨next, hpos, hraises, hbelow⟩ := index_afterCall_lt (ih h.of_append) (Int64.not_le.mp hlt)
    have hle := h calls call [] next rfl hpos hraises
    grind

/-- No call moves the position back; a call that is taken lowers the index if and only if it raises
the term and brings a smaller index. An index that has been applied goes on being served through all
of a sequence of calls if and only if none of them raises the term to a position with an index
below. -/
theorem stale_reads_stable (m : Machine σ) :
    (∀ calls, (m.runCalls calls).applied.cmp m.applied ≠ .lt) ∧
    (∀ call, call.isAccepted m = true →
      ((m.afterCall call).applied.index < m.applied.index ↔
        ∃ next, call.position? = some next ∧ m.applied.term < next.term ∧
          next.index < m.applied.index)) ∧
    ∀ index calls, index ≤ m.applied.index →
      ((∀ before after, calls = before ++ after → (m.runCalls before).Serves index) ↔
        m.Spares index calls) := by
  refine ⟨cmp_run_ne_lt, fun call _ => ⟨fun hlt => ?_, ?_⟩, fun index calls hm => ⟨?_, ?_⟩⟩
  · exact index_afterCall_lt (Int64.le_refl _) hlt
  · rintro ⟨next, hpos, hraises, hbelow⟩
    rwa [(applied_of_raises hpos hraises).2]
  -- a call that raises the term takes the index with it, so that has to be high enough
  · intro hserves before call after next heq hpos hraises
    have hafter := (hserves (before ++ [call]) after (by simp [heq])).reached
    rwa [runCalls_concat, (applied_of_raises hpos hraises).2] at hafter
  · intro hspares before after heq
    rw [heq] at hspares
    exact serves_iff.mpr (hspares.of_append.le_applied hm)

/-- A machine with its cursor at index 10 of the first term. -/
private def atTen : Machine Unit := runCalls { state := () } [.advance ⟨1, 10⟩]

/-- The term is raised to an index that is smaller but high enough, and a call is refused. -/
theorem stale_reads_stable_while_spared :
    (5 : Int64) ≤ atTen.applied.index ∧
      (LogCall.advance ⟨2, 7⟩).isAccepted atTen = true ∧
      (atTen.afterCall (.advance ⟨2, 7⟩)).applied.index < atTen.applied.index ∧
      (atTen.runCalls [.advance ⟨2, 7⟩, .markApplied ⟨1, 30⟩]).Serves 5 := by
  obtain ⟨-, hfalls, hserved⟩ := stale_reads_stable atTen
  refine ⟨by decide, by decide, ?_, ?_⟩
  · exact (hfalls (.advance ⟨2, 7⟩) (by decide)).mpr ⟨⟨2, 7⟩, rfl, by decide, by decide⟩
  · refine (hserved 5 [.advance ⟨2, 7⟩, .markApplied ⟨1, 30⟩] (by decide)).mpr ?_ _ [] (by simp)
    intro before call after next heq hpos hraises
    rcases before with - | ⟨first, - | ⟨second, before⟩⟩
    · cases heq
      cases hpos
      decide
    · cases heq
      cases hpos
      exact absurd hraises (by decide)
    · exact absurd (congrArg List.length heq) (by simp)

/-- A call that raises the term is taken and lowers the index. Reads of an index that was applied
before it have to wait. -/
theorem index_falls_when_term_rises :
    (LogCall.advance ⟨1, 10⟩).isAccepted ({ state := () } : Machine Unit) = true ∧
      (5 : Int64) ≤ atTen.applied.index ∧
      (LogCall.advance ⟨2, 3⟩).isAccepted atTen = true ∧
      let later := atTen.afterCall (.advance ⟨2, 3⟩)
      later.applied.index < 5 ∧
        ((later.queryStale .plain .empty 5).reads.answer? later.reads.reads.length) = none ∧
        ((Waits.waitFor 5 { cursor := later.reads.cursor }).answer? 0) = none := by
  decide

end Machine

end Replica
