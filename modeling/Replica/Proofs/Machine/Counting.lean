import Mathlib.Algebra.Ring.Int.Defs
import Replica.Machine.Counter
import Replica.Proofs.Machine.StaleReads

/-!
# A counter that is read while it counts

The total of a counter is the sum of the integers in the entries that have been applied, wrapped
once at 64 bits (`total_serveAll`). A read shows the sum over a prefix of the entries of the run,
which has all entries that the read asked for and all that were applied when it began; reads that
are answered later show prefixes that are no shorter (`reads_show_prefixes`).
-/

namespace Replica.Counter

open Machine (ServiceCall entries)

variable {m : Machine Counter} {calls : List ServiceCall}

/-- The integer that the payload of an entry spells. -/
def amount (entry : LogEntry) : Int := (Text.Integer.ofBytes? entry.data.bytes).getD 0

/-- The sum of the integers in the entries, wrapped at 64 bits. -/
def wrappingSum (entries : List LogEntry) : Int64 := .ofInt (entries.map amount).sum

theorem wrappingSum_concat (entries : List LogEntry) (entry : LogEntry) :
    wrappingSum (entries ++ [entry]) = wrappingSum entries + .ofInt (amount entry) := by
  simp [wrappingSum, Int64.ofInt_add]

/-- An entry that is counted adds its integer to the total. -/
theorem total_of_consume {entry : LogEntry} {c c' : Counter} {reply : Payload}
    (h : c.consume entry = .ok (c', reply)) : c'.total = c.total + .ofInt (amount entry) := by
  unfold consume at h
  split at h
  · cases h
  · next delta hdelta =>
    cases h
    obtain ⟨n, hn, hrange⟩ := Option.bind_eq_some_iff.mp hdelta
    have hdelta : delta = .ofInt n := by
      unfold Text.Integer.toInt64? at hrange
      split at hrange
      · exact (Option.some.inj hrange).symm
      · cases hrange
    rw [amount, hn, hdelta]
    rfl

/-- In a run in which all transactions are applied, the total is the sum of their integers. -/
theorem total_serveAll (hzero : m.state.total = 0) (h : m.InOrder application calls) :
    (m.serveAll application calls).state.total = wrappingSum (entries calls) := by
  induction calls using List.reverseRecOn with
  | nil => exact hzero
  | append_singleton calls call ih =>
    have htotal := ih h.of_append
    rw [Machine.serveAll_concat, Machine.entries_append]
    rcases Machine.serve_cases h.accepts_last with
      ⟨entry, reply, hentry, hconsume, -⟩ | ⟨hnone, hsame, -⟩
    · have hcall : entries [call] = [entry] := by simp [entries, hentry]
      rw [hcall, wrappingSum_concat, ← htotal]
      exact total_of_consume hconsume
    · have hcall : entries [call] = [] := by simp [entries, hnone]
      rw [hcall, List.append_nil, hsame, htotal]

/-- In a run in order from the start of the cursor and a total of zero, every read that is answered
shows the sum over those entries that were applied up to some point of the run. They are a prefix of
all entries, and have among them the entries that were applied when the read began and all entries of
the run up to the index of the read. A read that is answered at a time when another one is not shows
no more of the entries than the other will. -/
theorem reads_show_prefixes (hfresh : m.reads = {}) (hzero : m.state.total = 0)
    (horder : m.InOrder application calls) :
    let shown := fun t => entries (m.untilAnswered application t calls)
    (∀ before request index after answer, calls = before ++ .queryStale request index :: after →
      let t := (m.serveAll application before).reads.reads.length
      (m.serveAll application calls).reads.answer? t = some answer →
        answer = .ofString (toString (wrappingSum (shown t)).toInt) ∧
        shown t <+: entries calls ∧ entries before <+: shown t ∧
        ∀ entry ∈ entries calls, entry.index ≤ index → entry ∈ shown t) ∧
    ∀ before after t u, calls = before ++ after →
      ((m.serveAll application before).reads.answer? t).isSome →
      (m.serveAll application before).reads.answer? u = none → shown t <+: shown u := by
  intro shown
  constructor
  · intro before request index after answer hcalls t hanswered
    obtain ⟨hbefore, hanswer, hreached⟩ :=
      Machine.answered_when_reached hfresh horder hcalls hanswered
    have hpast : m.untilAnswered application t calls <+: calls := Machine.untilAnswered_isPrefix m calls
    refine ⟨?_, Machine.entries_isPrefix hpast, Machine.entries_isPrefix hbefore, hreached⟩
    obtain ⟨rest, hrest⟩ := hpast
    rw [hanswer, ← total_serveAll hzero (hrest ▸ horder).of_append]
    rfl
  · intro before after t u hcalls ht hu
    obtain ⟨a, ha⟩ := Option.isSome_iff_exists.mp ht
    have hc : m.reads.Consistent := (Machine.caughtUp_of_fresh hfresh).consistent
    refine Machine.entries_isPrefix ?_
    rw [hcalls]
    exact (Machine.untilAnswered_isPrefix_of_answered hc ha after).trans
      (Machine.isPrefix_untilAnswered hc hu)

section

/-- The entry at an index, with an integer in ASCII digits. -/
private def entryAt (index : Int64) (digits : List UInt8) : LogEntry := ⟨1, index, ⟨digits⟩⟩

/-- A launched counter. -/
private def launched : Machine Counter :=
  (({ state := {} } : Machine Counter).launch application "s1" ⟨1⟩ ⟨"/tmp"⟩).1

/-- Two reads of one index, one of which is given up, and a read of a later index. The first gets its
turn only after one more entry. -/
private def overlapping : List ServiceCall :=
  [.apply (.ofEntry (entryAt 0 [0x35])), .queryStale .empty 2, .queryStale .empty 2,
    .queryStale .empty 3, .cancel 1, .apply (.ofEntry (entryAt 2 [0x2D, 0x37])),
    .apply (.ofEntry (entryAt 4 [0x33])), .turn 0, .apply (.ofEntry (entryAt 5 [0x38])), .turn 2]

theorem reads_show_prefixes_while_overlapping :
    launched.reads = {} ∧ launched.state.total = 0 ∧ launched.InOrder application overlapping ∧
      let shown := fun t => entries (launched.untilAnswered application t overlapping)
      let last := launched.serveAll application overlapping
      last.reads.answer? 0 = some (.ofString (toString (wrappingSum (shown 0)).toInt)) ∧
        wrappingSum (shown 0) = 1 ∧ entryAt 2 [0x2D, 0x37] ∈ shown 0 ∧
        last.reads.answer? 1 = none ∧ shown 0 <+: shown 2 := by
  have horder : launched.InOrder application overlapping := ⟨by decide, by decide, by decide⟩
  obtain ⟨hshown, hmore⟩ := reads_show_prefixes rfl rfl horder
  have hanswered : ((launched.serveAll application overlapping).reads.answer? 0).isSome := by decide
  obtain ⟨answer, hanswer⟩ := Option.isSome_iff_exists.mp hanswered
  obtain ⟨hsum, -, -, hreached⟩ := hshown [_] .empty 2 _ answer rfl hanswer
  refine ⟨rfl, rfl, horder, hsum ▸ hanswer, by decide, hreached _ (by decide) (by decide), by decide,
    hmore (overlapping.take 8) (overlapping.drop 8) 0 2 rfl (by decide) (by decide)⟩

end

end Replica.Counter
