import Replica.Proofs.Applied.Answers
import Replica.Proofs.Machine.Applied

/-!
# Reads of a machine that applies entries

A machine applies transactions while reads begin, get their turns and are given up, in any order.
An answer stays as it is, so every read that is answered has one point of the run at which that
happens; `untilAnswered` is the run up to there.

If the indices of the applied entries rise, the cursor never goes back to a smaller index, and a read
gets its answer from a state in which all entries that it asked for have been applied, also if its
turn comes late (`answered_when_reached`).
-/

namespace Replica.Machine

variable {σ : Type}

/-! ## Calls -/

/-- A call on a machine that applies entries and answers reads, or the turn of a read. -/
inductive ServiceCall where
  | apply (trx : Transaction)
  | queryStale (request : Payload) (index : Int64)
  | turn (t : TaskId)
  | cancel (t : TaskId)

namespace ServiceCall

/-- The entry that is to be applied. -/
def entry? : ServiceCall → Option LogEntry
  | apply trx => trx.entry
  | _ => none

end ServiceCall

/-- The entries that the calls bring, in order. -/
def entries (calls : List ServiceCall) : List LogEntry := calls.filterMap ServiceCall.entry?

/-- The entries of two lists of calls are those of the one and then of the other. -/
@[simp] theorem entries_append (before after : List ServiceCall) :
    entries (before ++ after) = entries before ++ entries after :=
  List.filterMap_append

/-- The calls that come first have the entries that come first. -/
theorem entries_isPrefix {before calls : List ServiceCall} (h : before <+: calls) :
    entries before <+: entries calls := by
  obtain ⟨after, rfl⟩ := h
  exact ⟨entries after, (entries_append before after).symm⟩

variable (app : Application σ)

/-- The machine after a call. -/
def serve (m : Machine σ) : ServiceCall → Machine σ
  | .apply trx => (m.apply app trx).1
  | .queryStale request index => m.queryStale app request index
  | .turn t => (schedule app).turn 0 t m
  | .cancel t => (m.cancel t).1

/-- The machine after a sequence of calls. -/
def serveAll (m : Machine σ) (calls : List ServiceCall) : Machine σ := calls.foldl (serve app) m

/-- Calls may be served in two parts. -/
theorem serveAll_append (m : Machine σ) (before after : List ServiceCall) :
    m.serveAll app (before ++ after) = (m.serveAll app before).serveAll app after :=
  List.foldl_append

/-- The last call is served by the machine that the others have led to. -/
theorem serveAll_concat (m : Machine σ) (calls : List ServiceCall) (call : ServiceCall) :
    m.serveAll app (calls ++ [call]) = (m.serveAll app calls).serve app call :=
  List.foldl_append

/-- The calls before the one by which the read `t` is answered; all of them if it is not. -/
def untilAnswered (t : TaskId) : Machine σ → List ServiceCall → List ServiceCall
  | _, [] => []
  | m, call :: calls =>
    if ((m.serve app call).reads.answer? t).isSome then []
    else call :: untilAnswered t (m.serve app call) calls

/-- Whether the transaction is applied, if the call brings one. -/
def accepts (m : Machine σ) : ServiceCall → Bool
  | .apply trx => (m.apply app trx).2.isOk
  | _ => true

/-- Whether all transactions are applied. -/
def acceptsAll : Machine σ → List ServiceCall → Bool
  | _, [] => true
  | m, call :: calls => m.accepts app call && acceptsAll (m.serve app call) calls

/-- Every transaction is applied, and the indices of the entries rise, from zero on. The terms of the
entries do not fall then, since the cursor takes no position of a smaller term. -/
structure InOrder (m : Machine σ) (calls : List ServiceCall) : Prop where
  accepted : m.acceptsAll app calls = true
  nonneg : ∀ entry ∈ entries calls, 0 ≤ entry.index
  ascending : (entries calls).Pairwise (·.index < ·.index)

variable {app} {m : Machine σ} {call : ServiceCall} {calls before after : List ServiceCall}
  {t u : TaskId} {a : Payload}

/-- A list of calls is accepted if each of its two parts is. -/
theorem acceptsAll_append : m.acceptsAll app (before ++ after) =
    (m.acceptsAll app before && (m.serveAll app before).acceptsAll app after) := by
  induction before generalizing m with
  | nil => rfl
  | cons call before ih =>
    rw [List.cons_append, acceptsAll, ih, acceptsAll, Bool.and_assoc]
    rfl

/-- Calls that come first are in order if all are. -/
theorem InOrder.of_append (h : m.InOrder app (before ++ after)) : m.InOrder app before where
  accepted := (Bool.and_eq_true_iff.mp (acceptsAll_append ▸ h.accepted)).1
  nonneg entry hentry := h.nonneg entry (by simp [hentry])
  ascending := (List.pairwise_append.mp (entries_append before after ▸ h.ascending)).1

/-- The last call of an orderly list is accepted. -/
theorem InOrder.accepts_last (h : m.InOrder app (calls ++ [call])) :
    (m.serveAll app calls).accepts app call = true := by
  have hlast := (Bool.and_eq_true_iff.mp (acceptsAll_append ▸ h.accepted)).2
  rwa [acceptsAll, acceptsAll, Bool.and_true] at hlast

/-! ## One call -/

/-- A machine that advances releases the reads that the position reaches, and keeps its state. -/
theorem reads_advance (next : LogPosition) (m : Machine σ) :
    (m.advance next).1.reads = (m.reads.update next).1 ∧ (m.advance next).1.state = m.state := by
  unfold advance
  split <;> next heq => rw [heq]; exact ⟨rfl, rfl⟩

/-- If the machine may advance, it has the position. -/
theorem applied_advance_of_isOk {next : LogPosition} (h : (m.advance next).2.isOk = true) :
    (m.advance next).1.applied = next := by
  rw [applied_advance]
  split
  · rfl
  · next hgt =>
    -- neither ahead of the cursor nor behind it
    cases hcmp : next.cmp m.applied with
    | lt => exact absurd hcmp (isOk_advance.mp h)
    | eq => exact (LogPosition.eq_of_cmp_eq hcmp).symm
    | gt => exact absurd hcmp hgt

/-- Once the application has acted on an entry, all that is left is to move the cursor. -/
theorem apply_of_consume {trx : Transaction} {entry : LogEntry} {state : σ} {reply : Payload}
    (hentry : trx.entry = some entry) (hconsume : app.consume entry m.state = .ok (state, reply)) :
    (m.apply app trx).1 = ({ m with state }.advance entry.position).1 ∧
      (m.apply app trx).2.isOk = ({ m with state }.advance entry.position).2.isOk := by
  unfold apply
  rw [hentry]
  dsimp only
  rw [hconsume]
  dsimp only
  split <;> next heq => rw [heq]; exact ⟨rfl, rfl⟩

/-- An entry that the application refuses changes nothing, nor does a transaction without one. -/
theorem apply_of_refused {trx : Transaction}
    (h : ∀ entry result, trx.entry = some entry → app.consume entry m.state ≠ .ok result) :
    (m.apply app trx).1 = m ∧ (m.apply app trx).2.isOk = false := by
  unfold apply
  split
  · exact ⟨rfl, rfl⟩
  · next entry hentry =>
    split
    · exact ⟨rfl, rfl⟩
    · next hconsume => exact absurd hconsume (h entry _ hentry)

/-- A transaction is applied to an entry that the application takes, or changes nothing. -/
theorem apply_cases (app : Application σ) (m : Machine σ) (trx : Transaction) :
    (∃ entry state reply, trx.entry = some entry ∧
      app.consume entry m.state = .ok (state, reply) ∧
      (m.apply app trx).1 = ({ m with state }.advance entry.position).1 ∧
      (m.apply app trx).2.isOk = ({ m with state }.advance entry.position).2.isOk) ∨
    ((m.apply app trx).1 = m ∧ (m.apply app trx).2.isOk = false) := by
  by_cases h : ∃ entry result, trx.entry = some entry ∧ app.consume entry m.state = .ok result
  · obtain ⟨entry, ⟨state, reply⟩, hentry, hconsume⟩ := h
    exact .inl ⟨entry, state, reply, hentry, hconsume, apply_of_consume hentry hconsume⟩
  · refine .inr (apply_of_refused fun entry result hentry hconsume => ?_)
    exact h ⟨entry, result, hentry, hconsume⟩

/-- A transaction that is applied: the application has acted on its entry, and the cursor is there. -/
theorem apply_of_isOk {trx : Transaction} (h : (m.apply app trx).2.isOk = true) :
    ∃ entry reply, trx.entry = some entry ∧
      app.consume entry m.state = .ok ((m.apply app trx).1.state, reply) ∧
      (m.apply app trx).1.applied = entry.position := by
  rcases apply_cases app m trx with ⟨entry, state, reply, hentry, hconsume, hm, hok⟩ | ⟨-, hfails⟩
  · refine ⟨entry, reply, hentry, ?_, ?_⟩
    · rw [hm, (reads_advance _ _).2]
      exact hconsume
    · rw [hm]
      exact applied_advance_of_isOk (hok ▸ h)
  · cases hfails.symm.trans h

/-- A call applies an entry, or changes neither the state nor the position. -/
theorem serve_cases (hok : m.accepts app call = true) :
    (∃ entry reply, call.entry? = some entry ∧
      app.consume entry m.state = .ok ((m.serve app call).state, reply) ∧
      (m.serve app call).applied = entry.position) ∨
    (call.entry? = none ∧ (m.serve app call).state = m.state ∧
      (m.serve app call).applied = m.applied) := by
  cases call with
  | apply trx => exact .inl (apply_of_isOk hok)
  | queryStale request index =>
    refine .inr ⟨rfl, rfl, ?_⟩
    show (m.reads.begin _ index request).cursor.applied = _
    unfold Reads.begin
    split <;> rfl
  | turn t => exact .inr ⟨rfl, rfl, rfl⟩
  | cancel t =>
    refine .inr ⟨rfl, rfl, ?_⟩
    show (m.reads.cancel t).1.cursor.applied = _
    unfold Reads.cancel
    split
    · split <;> rfl
    · rfl

/-- A call is an event at the cursor, or fails before it comes to that. -/
theorem reads_serve (app : Application σ) (m : Machine σ) (call : ServiceCall) :
    (m.serve app call).reads = m.reads ∨ ∃ event, (m.serve app call).reads =
      Reads.step (fun _ request => app.query request m.state) m.reads event := by
  cases call with
  | apply trx =>
    rcases apply_cases app m trx with ⟨entry, state, reply, -, -, hm, -⟩ | ⟨hsame, -⟩
    · refine .inr ⟨.update entry.position, ?_⟩
      show (m.apply app trx).1.reads = _
      rw [hm, (reads_advance _ _).1]
      rfl
    · exact .inl (congrArg Machine.reads hsame)
  | queryStale request index => exact .inr ⟨.begin index request, rfl⟩
  | turn t => exact .inr ⟨.turn t, rfl⟩
  | cancel t => exact .inr ⟨.cancel t, rfl⟩

/-- Serving a call keeps the reads consistent. -/
theorem consistent_serve (app : Application σ) (hc : m.reads.Consistent) (call : ServiceCall) :
    (m.serve app call).reads.Consistent := by
  rcases reads_serve app m call with hsame | ⟨event, hstep⟩
  · rwa [hsame]
  · rw [hstep]
    exact hc.step _ event

/-- An answer stays as it is. -/
theorem answer?_serve (hc : m.reads.Consistent) (ha : m.reads.answer? t = some a)
    (call : ServiceCall) : (m.serve app call).reads.answer? t = some a := by
  rcases reads_serve app m call with hsame | ⟨event, hstep⟩
  · rwa [hsame]
  · rw [hstep]
    exact hc.answer?_step _ event ha

/-- A read that was answered keeps its answer. -/
theorem answer?_serveAll (app : Application σ) (hc : m.reads.Consistent)
    (ha : m.reads.answer? t = some a) (calls : List ServiceCall) :
    (m.serveAll app calls).reads.answer? t = some a := by
  induction calls generalizing m with
  | nil => exact ha
  | cons call calls ih => exact ih (consistent_serve app hc call) (answer?_serve hc ha call)

/-! ## The point at which a read is answered -/

/-- A call after which the read is not answered is one of those until the answer. -/
theorem untilAnswered_cons_of_none (h : (m.serve app call).reads.answer? t = none) :
    m.untilAnswered app t (call :: calls) =
      call :: (m.serve app call).untilAnswered app t calls := by
  rw [untilAnswered, h]
  rfl

/-- The calls until the answer are those that come first. -/
theorem untilAnswered_isPrefix (m : Machine σ) (calls : List ServiceCall) :
    m.untilAnswered app t calls <+: calls := by
  induction calls generalizing m with
  | nil => exact List.prefix_refl _
  | cons call calls ih =>
    unfold untilAnswered
    split
    · exact List.nil_prefix
    · exact List.cons_prefix_cons.mpr ⟨rfl, ih _⟩

/-- As long as a read is not answered, its answer lies ahead. -/
theorem isPrefix_untilAnswered (hc : m.reads.Consistent)
    (hnone : (m.serveAll app before).reads.answer? t = none) :
    before <+: m.untilAnswered app t (before ++ after) := by
  induction before generalizing m with
  | nil => exact List.nil_prefix
  | cons call before ih =>
    have hc' := consistent_serve app hc call
    have hfirst : (m.serve app call).reads.answer? t = none := by
      cases ha : (m.serve app call).reads.answer? t with
      | none => rfl
      | some a => cases hnone.symm.trans (answer?_serveAll app hc' ha before)
    rw [List.cons_append, untilAnswered_cons_of_none hfirst]
    exact List.cons_prefix_cons.mpr ⟨rfl, ih hc' hnone⟩

/-- Once a read is answered, its answer lies behind. -/
theorem untilAnswered_isPrefix_of_answered (hc : m.reads.Consistent)
    (hsome : (m.serveAll app before).reads.answer? t = some a) (after : List ServiceCall) :
    m.untilAnswered app t (before ++ after) <+: before := by
  induction before generalizing m with
  | nil =>
    cases after with
    | nil => exact List.prefix_refl _
    | cons call after =>
      rw [List.nil_append, untilAnswered, answer?_serve hc hsome call]
      exact List.prefix_refl _
  | cons call before ih =>
    rw [List.cons_append, untilAnswered]
    split
    · exact List.nil_prefix
    · exact List.cons_prefix_cons.mpr ⟨rfl, ih (consistent_serve app hc call) hsome⟩

/-- The call after those is the one that answers. -/
theorem untilAnswered_spec (hc : m.reads.Consistent) (hnone : m.reads.answer? t = none)
    (hsome : (m.serveAll app calls).reads.answer? t = some a) :
    ∃ call after, calls = m.untilAnswered app t calls ++ call :: after ∧
      (m.serveAll app (m.untilAnswered app t calls)).reads.answer? t = none ∧
      ((m.serveAll app (m.untilAnswered app t calls)).serve app call).reads.answer? t = some a := by
  induction calls generalizing m with
  | nil => cases hnone.symm.trans hsome
  | cons call calls ih =>
    have hc' := consistent_serve app hc call
    cases hfirst : (m.serve app call).reads.answer? t with
    | some b =>
      have hlater := answer?_serveAll app hc' hfirst calls
      refine ⟨call, calls, ?_⟩
      rw [untilAnswered, hfirst]
      exact ⟨rfl, hnone, hfirst.trans (hlater.symm.trans hsome)⟩
    | none =>
      obtain ⟨next, after, heq, hbefore, hafter⟩ := ih hc' hfirst hsome
      rw [untilAnswered_cons_of_none hfirst]
      exact ⟨next, after, congrArg (call :: ·) heq, hbefore, hafter⟩

/-! ## Runs in order -/

/-- The index of the last of the entries. -/
def lastIndex (entries : List LogEntry) : Int64 :=
  (entries.getLast?.map LogEntry.index).getD invalidIndex

/-- The last index is that of the last entry. -/
theorem lastIndex_concat (entries : List LogEntry) (entry : LogEntry) :
    lastIndex (entries ++ [entry]) = entry.index := by
  simp [lastIndex]

/-- Entries that come later have greater indices. -/
theorem lastIndex_lt {past rest : List LogEntry} (hnonneg : ∀ entry ∈ rest, 0 ≤ entry.index)
    (hascending : (past ++ rest).Pairwise (·.index < ·.index)) {entry : LogEntry}
    (hentry : entry ∈ rest) : lastIndex past < entry.index := by
  rcases List.eq_nil_or_concat past with rfl | ⟨init, last, rfl⟩
  · exact Int64.lt_of_lt_of_le (by decide : invalidIndex < 0) (hnonneg entry hentry)
  · rw [List.concat_eq_append] at hascending ⊢
    rw [lastIndex_concat]
    exact (List.pairwise_append.mp hascending).2.2 last (by simp) entry hentry

/-- What holds all through a run in order: the cursor stands at the last entry, and has the index of
every read that waits for its turn. -/
structure CaughtUp (m : Machine σ) (calls : List ServiceCall) : Prop where
  consistent : m.reads.Consistent
  due : m.reads.Due
  applied : m.applied.index = lastIndex (entries calls)

/-- A machine without reads has caught up with no calls. -/
theorem caughtUp_of_fresh (h : m.reads = {}) : m.CaughtUp [] := by
  refine ⟨h ▸ .initial, h ▸ ?_, ?_⟩
  · intro t r hr
    cases hr
  · rw [Machine.applied, h]
    rfl

/-- A machine that serves a call, with an entry that is not behind, has caught up with it too. -/
theorem CaughtUp.serve (h : m.CaughtUp calls) (hok : m.accepts app call = true)
    (hahead : ∀ entry, call.entry? = some entry → m.applied.index ≤ entry.index) :
    (m.serve app call).CaughtUp (calls ++ [call]) := by
  have hindex : (m.serve app call).applied.index = lastIndex (entries (calls ++ [call])) ∧
      m.applied.index ≤ (m.serve app call).applied.index := by
    rcases serve_cases hok with ⟨entry, reply, hentry, -, happlied⟩ | ⟨hnone, -, happlied⟩
    · rw [happlied, entries_append, entries, entries, List.filterMap_cons_some hentry,
        List.filterMap_nil, lastIndex_concat]
      exact ⟨rfl, hahead entry hentry⟩
    · rw [happlied, h.applied, entries_append, entries, entries, List.filterMap_cons_none hnone,
        List.filterMap_nil, List.append_nil]
      exact ⟨rfl, Int64.le_refl _⟩
  refine ⟨consistent_serve app h.consistent call, ?_, hindex.1⟩
  rcases reads_serve app m call with hsame | ⟨event, hstep⟩
  · exact hsame ▸ h.due
  · have hle := hindex.2
    rw [Machine.applied, Machine.applied, hstep] at hle
    exact hstep ▸ h.due.step h.consistent hle

/-- So a machine that begins without reads has caught up with calls in order. -/
theorem InOrder.caughtUp (hfresh : m.reads = {}) (h : m.InOrder app calls) :
    (m.serveAll app calls).CaughtUp calls := by
  induction calls using List.reverseRecOn with
  | nil => exact caughtUp_of_fresh hfresh
  | append_singleton calls call ih =>
    have hpast := ih h.of_append
    rw [serveAll_concat]
    refine hpast.serve h.accepts_last fun entry hentry => ?_
    rw [hpast.applied]
    have hnonneg : ∀ e ∈ entries [call], 0 ≤ e.index := fun e he => h.nonneg e (by simp [he])
    refine Int64.le_of_lt (lastIndex_lt hnonneg ?_ ?_)
    · exact entries_append calls [call] ▸ h.ascending
    · simp [entries, hentry]

/-! ## Reads -/

/-- A read keeps its index and its request. -/
theorem read_serveAll (app : Application σ) (hc : m.reads.Consistent) {r : Read Payload Payload}
    (hr : m.reads.reads[t]? = some r) (calls : List ServiceCall) :
    ∃ r', (m.serveAll app calls).reads.reads[t]? = some r' ∧ r'.index = r.index ∧
      r'.request = r.request := by
  induction calls generalizing m r with
  | nil => exact ⟨r, hr, rfl, rfl⟩
  | cons call calls ih =>
    have hc' := consistent_serve app hc call
    rcases reads_serve app m call with hsame | ⟨event, hstep⟩
    · exact ih hc' (hsame ▸ hr)
    · obtain ⟨r', hr', hchange⟩ := hc.change (fun _ request => app.query request m.state) event hr
      obtain ⟨r'', hr'', hindex, hrequest⟩ := ih hc' (hstep ▸ hr')
      exact ⟨r'', hr'', hindex.trans hchange.index_eq, hrequest.trans hchange.request_eq⟩

/-- The read that is begun. -/
theorem read_queryStale (app : Application σ) (m : Machine σ) (request : Payload) (index : Int64) :
    ∃ r, (m.queryStale app request index).reads.reads[m.reads.reads.length]? = some r ∧
      r.index = index ∧ r.request = request := by
  unfold queryStale Reads.begin
  split <;> exact ⟨_, List.getElem?_concat_length, rfl, rfl⟩

/-- What the read is that a call has begun, after further calls. -/
theorem read_of_issued (hc : (m.serveAll app before).reads.Consistent) (request : Payload)
    (index : Int64) (calls : List ServiceCall) :
    ∃ r, (m.serveAll app (before ++ .queryStale request index :: calls)).reads.reads[
        (m.serveAll app before).reads.reads.length]? = some r ∧
      r.index = index ∧ r.request = request := by
  obtain ⟨r, hr, hindex, hrequest⟩ := read_queryStale app (m.serveAll app before) request index
  obtain ⟨r', hr', hindex', hrequest'⟩ :=
    read_serveAll app (consistent_serve app hc (.queryStale request index)) hr calls
  rw [serveAll_append]
  exact ⟨r', hr', hindex'.trans hindex, hrequest'.trans hrequest⟩

/-- A read that was not issued is not answered. -/
theorem answer?_length (m : Machine σ) : m.reads.answer? m.reads.reads.length = none := by
  simp [Reads.answer?]

/-- What comes next after a list goes on with what comes next after a prefix of it. -/
theorem concat_eq_of_isPrefix {α : Type} {init past after rest : List α} {a b : α}
    (h : init <+: past) (heq : past ++ a :: rest = init ++ b :: after) :
    ∃ between, past ++ [a] = init ++ b :: between := by
  obtain ⟨between, rfl⟩ := h
  rw [List.append_assoc] at heq ⊢
  have hnext := List.append_cancel_left heq
  cases between with
  | nil =>
    cases hnext
    exact ⟨[], rfl⟩
  | cons first between =>
    cases hnext
    exact ⟨between ++ [a], rfl⟩

/-- In a run in order, a read is answered from a state in which all entries of the run up to its
index have been applied. -/
theorem answered_when_reached (hfresh : m.reads = {}) (h : m.InOrder app calls) {request : Payload}
    {index : Int64} (hcalls : calls = before ++ .queryStale request index :: after)
    (hanswered : (m.serveAll app calls).reads.answer? (m.serveAll app before).reads.reads.length =
      some a) :
    let past := m.untilAnswered app (m.serveAll app before).reads.reads.length calls
    before <+: past ∧ a = app.query request (m.serveAll app past).state ∧
      ∀ entry ∈ entries calls, entry.index ≤ index → entry ∈ entries past := by
  intro past
  have hc : m.reads.Consistent := (caughtUp_of_fresh hfresh).consistent
  have hnone : m.reads.answer? (m.serveAll app before).reads.reads.length = none := by
    simp [hfresh, Reads.answer?]
  have hbefore : before <+: past := by
    show before <+: m.untilAnswered app _ calls
    rw [hcalls]
    exact isPrefix_untilAnswered hc (answer?_length _)
  obtain ⟨call, rest, hsplit, hpast, hnext⟩ := untilAnswered_spec hc hnone hanswered
  change calls = past ++ call :: rest at hsplit
  have hcaughtUp : (m.serveAll app past).CaughtUp past := (hsplit ▸ h).of_append.caughtUp hfresh
  rcases reads_serve app (m.serveAll app past) call with hsame | ⟨event, hstep⟩
  · rw [hsame] at hnext
    cases hpast.symm.trans hnext
  rw [hstep] at hnext
  obtain ⟨r, hr, hreached, hanswer, -⟩ :=
    hcaughtUp.consistent.answered_cases hcaughtUp.due hpast hnext
  -- the read is the one that was begun after the calls before
  obtain ⟨between, hbetween⟩ := concat_eq_of_isPrefix hbefore (hsplit.symm.trans hcalls)
  obtain ⟨rfl, rfl⟩ : r.index = index ∧ r.request = request := by
    obtain ⟨issued, hissued, hindex, hrequest⟩ := read_of_issued
      ((hcalls ▸ h).of_append.caughtUp hfresh).consistent request index between
    rw [← hbetween, serveAll_concat, hstep, hr] at hissued
    cases hissued
    exact ⟨hindex, hrequest⟩
  refine ⟨hbefore, hanswer, fun entry hentry hle => ?_⟩
  -- what is applied later has a greater index than the cursor has by then
  rw [hsplit, entries_append] at hentry
  rcases List.mem_append.mp hentry with hentry | hentry
  · exact hentry
  · have hascending := h.ascending
    rw [hsplit, entries_append] at hascending
    have hlt := lastIndex_lt
      (fun e he => h.nonneg e (hsplit ▸ by simp [he])) hascending hentry
    rw [← hcaughtUp.applied] at hlt
    exact absurd (Int64.le_trans hle hreached) (Int64.not_le.mpr hlt)

end Replica.Machine
