import Replica.Proofs.Proxy.Forgiving
import Replica.Proofs.Proxy.Standings

/-!
# Closing is concurrent

A close of an open map, with nothing but look-ups under way, goes for all registered entries at once, and
waits for all of them (`Closes`). At each of them it asks the proxy to close in the very instant in which the
last look-up leaves, whatever goes on at the other entries, and it ends at the latest time at which it is done
with one of them. If there is nothing to wait for, that is the time at which it has begun.

The look-ups that it waits for are those from before: on a closed map nobody begins to look at an entry, so
the last one leaves at one time only (`LastLeaves.unique`).
-/

namespace Replica.ProxyMap

variable {t u : TaskId} {m : ProxyMap} {e : EntryId} {start time time' now later : Nat}
variable {factory : Factory} {event : Event} {events after : List (Nat × Event)} {sts : List Standing}
variable {es : List EntryId} {earlier : List Diagnostic} {left left' : EntryId → Nat → Prop}
variable {jobs : List Retirement} {a : ProxyAnswer}

/-! ## The last look-up -/

/-- The time at which the last look-up at the entry leaves, or `start` if nobody looks at it then. -/
def LastLeaves (m : ProxyMap) (start : Nat) (events : List (Nat × Event)) (e : EntryId) (time : Nat) : Prop :=
  (m.Unlooked e ∧ time = start) ∨ m.Becomes events time (Unlooked e)

/-- Nobody begins to look at an entry of a closed map. -/
theorem Unlooked.run (hu : m.Unlooked e) (hm : m.Consistent) (hclosed : m.closed = true)
    (events : List Event) : (m.run events).Unlooked e := by
  have hboth : (m.run events).closed = true ∧ (m.run events).Unlooked e :=
    hm.run_induct (P := fun m => m.closed = true ∧ m.Unlooked e)
      (fun hm hmoves hP => hmoves.induct (P := fun m => m.closed = true ∧ m.Unlooked e)
        (fun _ _ hm hmove hP => ⟨(hmove.grows hm).closed hP.1, fun u hl => by
          rcases hmove.looksAt_of hl with hl | ⟨-, -, -, hopen, -⟩
          · exact hP.2 u hl
          · cases hP.1.symm.trans hopen⟩) hm hP) ⟨hclosed, hu⟩
  exact hboth.2

/-- The last look-up leaves at one time only. -/
theorem LastLeaves.unique (hm : m.Consistent) (hclosed : m.closed = true)
    (h : m.LastLeaves start events e time) (h' : m.LastLeaves start events e time') : time = time' := by
  have hstable : ∀ before after, (m.runAt before).Unlooked e → (m.runAt (before ++ after)).Unlooked e := by
    intro before after hu
    rw [runAt_append]
    exact hu.run (hm.run _) ((Grows.run hm _).closed hclosed) _
  have hnever : m.Unlooked e → ∀ time, ¬ m.Becomes events time (Unlooked e) := by
    rintro hu time ⟨before, event, rest, -, hnot, -⟩
    exact hnot (hstable [] before hu)
  rcases h with ⟨hu, rfl⟩ | h <;> rcases h' with ⟨hu', rfl⟩ | h'
  · rfl
  · exact absurd h' (hnever hu time')
  · exact absurd h (hnever hu' time)
  · exact h.unique h' hstable

/-- Whoever has left has left when more has happened, and the last look-up may leave with the last event. -/
theorem lastLeaves_concat (h : m.LastLeaves start events e time) (last : Nat × Event) :
    m.LastLeaves start (events ++ [last]) e time :=
  h.imp_right fun hbecomes => becomes_concat_iff.mpr (.inl hbecomes)

/-! ## Where a close stands -/

/-- Where a close stands with its entries, each on its own: it is under way until it is done with all of them,
and then it has ended at the latest time at which it was done with one, or at `start` if there was none. What
it has reported, in the order in which it happened, is what it has reported about its entries. -/
structure Closes (es : List EntryId) (earlier : List Diagnostic) (start : Nat) (t : TaskId)
    (left : EntryId → Nat → Prop) (now : Nat) (m : ProxyMap) (sts : List Standing) : Prop where
  entries : List.Forall₂ (fun e => Stands (left e) now e m) es sts
  underway : (∃ st ∈ sts, st.ended = none) → m.stage? t = some (.retiring (sts.map (·.job)) .done)
  ended : (∀ st ∈ sts, st.ended ≠ none) → ∃ time, m.stage? t = some (.finished time .done) ∧
    (start :: sts.filterMap (·.ended)).max? = some time
  log : ∃ reports, m.log = earlier ++ reports ∧ reports.Perm (sts.flatMap (·.report))

theorem Closes.mono (hc : Closes es earlier start t left now m sts)
    (hleft : ∀ e time, left e time → left' e time) : Closes es earlier start t left' now m sts where
  entries := hc.entries.imp fun e _ hst => hst.of_spared (.refl e m) (hleft e)
  underway := hc.underway
  ended := hc.ended
  log := hc.log

/-- If a close becomes done with everything now, the latest time at which it was done with something is
now. -/
theorem Proceeds.latest {sts' : List Standing} {m' : ProxyMap} (h : Proceeds now es m m' sts sts')
    (hall : List.Forall₂ (fun e => Stands (left e) now e m') es sts')
    (hover : ∀ st ∈ sts', st.ended ≠ none) (hstart : start ≤ now)
    (hbusy : (∃ st ∈ sts, st.ended = none) ∨ now = start) :
    (start :: sts'.filterMap (·.ended)).max? = some now := by
  rw [List.max?_eq_some_iff]
  constructor
  · rcases hbusy with ⟨st, hst, hnone⟩ | rfl
    · -- the close is done with this one now
      obtain ⟨st', hst', hended⟩ := exists_of_mem_left h.ended hst
      rcases hended with hsame | ⟨-, hnow⟩
      · exact absurd (hsame.trans hnone) (hover st' hst')
      · exact List.mem_cons_of_mem _ (List.mem_filterMap.mpr ⟨st', hst', hnow⟩)
    · exact List.mem_cons_self
  · intro time htime
    rcases List.mem_cons.mp htime with rfl | htime
    · exact hstart
    · obtain ⟨st, hst, hended⟩ := List.mem_filterMap.mp htime
      obtain ⟨e, -, hstands⟩ := exists_of_mem_right hall hst
      exact hstands.ended_le hended

/-- A close that has its turn while it is not done with all entries, or that has just begun. -/
theorem continueRetiring_closes (hs : m.Shutting t) (hnodup : es.Nodup)
    (hstage : m.stage? t = some (.retiring (sts.map (·.job)) .done))
    (hall : List.Forall₂ (fun e => Stands (left e) now e m) es sts)
    (hlog : ∃ reports, m.log = earlier ++ reports ∧ reports.Perm (sts.flatMap (·.report)))
    (hstart : start ≤ now) (hbusy : (∃ st ∈ sts, st.ended = none) ∨ now = start) :
    ∃ sts', Closes es earlier start t left now
      (m.continueRetiring now t (sts.map (·.job)) .done) sts' := by
  obtain ⟨sts', hjobs, hall', hproceeds⟩ := turnRetirements_stands hnodup [] hs hstage hall
  have hmid : ((m.turnRetirements now t (sts.map (·.job))).1.setStage t
      (.retiring (sts'.map (·.job)) .done)).stage? t = some (.retiring (sts'.map (·.job)) .done) :=
    stage?_setStage_self (stage?_turnRetirements.trans hstage)
  have hlog' : ∃ reports, (m.turnRetirements now t (sts.map (·.job))).1.log = earlier ++ reports ∧
      reports.Perm (sts'.flatMap (·.report)) := by
    obtain ⟨reports, hreports, hperm⟩ := hlog
    obtain ⟨new, hnew, hperm'⟩ := hproceeds.log
    refine ⟨reports ++ new, ?_, (hperm.append_right new).trans hperm'.symm⟩
    rw [← List.append_assoc, ← hreports]
    exact hnew
  have hdone : (sts'.map (·.job)).all Retirement.isFinished = true ↔ ∀ st ∈ sts', st.ended ≠ none := by
    rw [List.all_map, List.all_eq_true]
    refine forall₂_congr fun st hst => ?_
    obtain ⟨e, -, hstands⟩ := exists_of_mem_right hall' hst
    rw [Function.comp_apply, hstands.isFinished_eq, Option.isSome_iff_ne_none]
  refine ⟨sts', ?_⟩
  simp only [continueRetiring, hjobs]
  split
  · next hfinished =>
    have hover := hdone.mp hfinished
    have hfinish : (m.turnRetirements now t (sts.map (·.job))).1.finish now t .done =
        ((m.turnRetirements now t (sts.map (·.job))).1.setStage t
          (.retiring (sts'.map (·.job)) .done)).setStage t (.finished now .done) :=
      setStage_setStage.symm
    refine ⟨?_, ?_, fun _ => ⟨now, ?_, ?_⟩, hlog'⟩
    · rw [hfinish]
      exact hall'.imp fun e st hst => hst.of_spared (spared_setStage e hmid (.inl rfl)) fun _ => id
    · rintro ⟨st, hst, hnone⟩
      exact absurd hnone (hover st hst)
    · rw [hfinish]
      exact stage?_setStage_self hmid
    · exact hproceeds.latest hall' hover hstart hbusy
  · next hunfinished =>
    refine ⟨hall', fun _ => hmid, fun hover => absurd (hdone.mpr hover) hunfinished, hlog'⟩

/-! ## What happens to a close -/

/-- The clock does not move on over a turn of the close. -/
theorem Closes.passes (hc : Closes es earlier start t left now m sts) (hs : m.Shutting t) (hle : now ≤ later)
    (hquiet : ∀ instant, now ≤ instant → instant < later → m.isReady instant t = false) :
    Closes es earlier start t left later m sts := by
  refine ⟨(forall₂_mem hc.entries).imp fun e st hmem => ?_, hc.underway, hc.ended, hc.log⟩
  obtain ⟨⟨-, hmem⟩, hst⟩ := hmem
  by_cases hbusy : ∃ st ∈ sts, st.ended = none
  · have hstage := hc.underway hbusy
    refine hst.passes (t := t) hle (fun hunlooked hjob => ?_) fun instant hnow hlt => ?_
    · have hlisted := List.mem_map.mpr ⟨st, hmem, hjob⟩
      obtain ⟨entry, found⟩ := hs.consistent.exists_entry (e := e) hstage
        (List.mem_filterMap.mpr ⟨_, hlisted, rfl⟩)
      exact owns_of_owner found (hs.owner_of_unlooked ⟨_, _, hstage, hlisted⟩ found hunlooked)
    · have hidle := hquiet instant hnow hlt
      simp only [isReady, hstage] at hidle
      exact Bool.eq_false_iff.mpr (List.any_eq_false.mp hidle _ (List.mem_map_of_mem hmem))
  · have hfinished : st.job.isFinished = true := by
      rw [hst.isFinished_eq, Option.isSome_iff_ne_none]
      exact fun hnone => hbusy ⟨st, hmem, hnone⟩
    refine hst.passes (t := t) hle (fun _ hjob => ?_) fun instant _ _ => ?_
    · rw [hjob] at hfinished
      cases hfinished
    · cases hjob : st.job with
      | locking | closing =>
        rw [hjob] at hfinished
        cases hfinished
      | finished => rfl

/-- What happens to a close that is not cancelled. -/
theorem Closes.step (hc : Closes es earlier start t left now m sts) (hs : m.Shutting t) (hnodup : es.Nodup)
    (hfound : ∀ e ∈ es, ∃ entry, m.entries[e]? = some entry) (hstart : start ≤ now)
    (htime : event.time? = none ∨ event.time? = some now) (hcancel : event ≠ .cancel t)
    (hleft : ∀ e time, left e time → left' e time)
    (hlast : ∀ e, ¬ m.Unlooked e → (m.step event).Unlooked e → left' e now) :
    ∃ sts', Closes es earlier start t left' now (m.step event) sts' := by
  by_cases hturn : ∃ time factory, event = .turn time factory t
  · obtain ⟨time, factory, rfl⟩ := hturn
    obtain rfl : time = now := by
      rcases htime with hnone | hsome
      · cases hnone
      · exact Option.some.inj hsome
    by_cases hbusy : ∃ st ∈ sts, st.ended = none
    · have hstage := hc.underway hbusy
      have hstep : m.step (.turn time factory t) =
          m.continueRetiring time t (sts.map (·.job)) .done := by
        simp only [ProxyMap.step, ProxyMap.turn, hstage]
      obtain ⟨sts', hc'⟩ := continueRetiring_closes hs hnodup hstage hc.entries hc.log hstart (.inl hbusy)
      rw [hstep]
      exact ⟨sts', hc'.mono hleft⟩
    · obtain ⟨ended, hstage, -⟩ := hc.ended fun st hst hnone => hbusy ⟨st, hst, hnone⟩
      have hstep : m.step (.turn time factory t) = m := turn_of_idle hstage (.inr ⟨ended, _, rfl⟩)
      rw [hstep]
      exact ⟨sts, hc.mono hleft⟩
  -- what other calls do changes neither where the close stands nor what it has reported
  · have hturn : ∀ time factory, event ≠ .turn time factory t := fun time factory heq =>
      hturn ⟨time, factory, heq⟩
    have hkept : ∀ {s}, m.stage? t = some s → (m.step event).stage? t = some s ∧
        (m.step event).log = m.log := fun hstage => hs.kept_step hstage hturn hcancel
    have hlog : (m.step event).log = m.log := by
      by_cases hbusy : ∃ st ∈ sts, st.ended = none
      · exact (hkept (hc.underway hbusy)).2
      · obtain ⟨ended, hstage, -⟩ := hc.ended fun st hst hnone => hbusy ⟨st, hst, hnone⟩
        exact (hkept hstage).2
    refine ⟨sts, (forall₂_mem hc.entries).imp fun e st hst => ?_, fun hbusy => ?_, fun hover => ?_, ?_⟩
    · exact hst.2.step hs (hfound e hst.1.1) hturn hcancel (hleft e) (hlast e)
    · exact (hkept (hc.underway hbusy)).1
    · obtain ⟨ended, hstage, hlatest⟩ := hc.ended hover
      exact ⟨ended, (hkept hstage).1, hlatest⟩
    · rw [hlog]
      exact hc.log

/-! ## How a close begins -/

/-- Each entry is registered once. -/
theorem Consistent.values_nodup (hm : m.Consistent) : m.registry.values.Nodup := by
  have hpairs : m.registry.Pairwise fun x y => x.2 ≠ y.2 := by
    refine List.Pairwise.imp_of_mem (fun {x y} hx hy hlt heq => ?_) hm.sorted
    have hget := hm.sorted.get?_of_mem hx
    rw [heq] at hget
    have hid := hm.id_unique hget (hm.sorted.get?_of_mem hy)
    rw [hid] at hlt
    exact absurd hlt (lt_irrefl _)
  exact List.pairwise_map.mpr hpairs

theorem foldl_lock_kept (t : TaskId) (targets : List EntryId) (m : ProxyMap) (e : EntryId) :
    (targets.foldl (fun m e => m.modifyEntry e (.lock t)) m).log = m.log ∧
      ((targets.foldl (fun m e => m.modifyEntry e (.lock t)) m).IsClosed e → m.IsClosed e) := by
  induction targets generalizing m with
  | nil => exact ⟨rfl, id⟩
  | cons x targets ih =>
    obtain ⟨hlog, hback⟩ := ih (m.modifyEntry x (.lock t))
    refine ⟨hlog, fun hx => ?_⟩
    obtain ⟨entry', found', hstate⟩ := hback hx
    obtain ⟨entry, found, rfl⟩ := getElem?_modify_eq_some_iff.mp found'
    refine ⟨entry, found, ?_⟩
    split at hstate
    · rwa [ProxyEntry.lock_lifecycle] at hstate
    · exact hstate

/-- The close is in every line: it is going to retire the entries, and nobody else is. -/
theorem shutting_awaiting (hm : m.Consistent) (hlive : m.Live) (hordered : m.Ordered)
    (hlooks : ∀ u jobs a, m.stage? u ≠ some (.retiring jobs a)) : m.awaiting.Shutting m.tasks.length := by
  have hbar := (bar_moves (fun _ => True) m).consistent hm
  have hawait := awaiting_moves (fun _ => True) hm
  have hmoves : Moves (fun _ => True) m.tasks.length m m.awaiting := (bar_moves _ m).trans hawait
  have hboth : m.awaiting.Live ∧ m.awaiting.Ordered :=
    hmoves.induct (P := fun m => m.Live ∧ m.Ordered)
      (fun _ _ hm hmove hP => ⟨hmove.live hm hP.1, hmove.ordered hm hP.1 hP.2⟩) hm ⟨hlive, hordered⟩
  refine ⟨hmoves.consistent hm, hboth.2, (hawait.grows hbar).closed rfl, fun u jobs a hu => ?_⟩
  by_contra hne
  exact hlooks u jobs a ((hmoves.stage?_of_ne hm hne).symm.trans hu)

/-- The step in which a close begins. -/
theorem begin_closes (factory : Factory) (hm : m.Consistent) (hlive : m.Live) (hordered : m.Ordered)
    (hopen : m.closed = false) (hlooks : ∀ u jobs a, m.stage? u ≠ some (.retiring jobs a)) :
    (m.begin start factory .close).Shutting m.tasks.length ∧
      ∃ sts, Closes m.registry.values m.log start m.tasks.length
        ((m.begin start factory .close).LastLeaves start []) start (m.begin start factory .close) sts := by
  have hs := shutting_awaiting hm hlive hordered hlooks
  have hadvances : Advances (fun _ => True) m.tasks.length m.awaiting
      (m.awaiting.continueRetiring start m.tasks.length (m.registry.values.map .locking) .done) :=
    continueRetiring_advances _ start hs.consistent stage?_awaiting
  rw [begin_close_eq start factory hopen]
  refine ⟨hs.advances hadvances, ?_⟩
  have hjobs : m.registry.values.map Retirement.locking =
      (m.registry.values.map fun e => ({ job := .locking e } : Standing)).map (·.job) := by
    rw [List.map_map]
    rfl
  have hstage := stage?_awaiting (m := m)
  have hall : List.Forall₂
      (fun e => Stands (fun time => m.awaiting.Unlooked e ∧ time = start) start e m.awaiting)
      m.registry.values (m.registry.values.map fun e => { job := .locking e }) := by
    refine List.forall₂_map_right_iff.mpr (List.forall₂_same.mpr fun e he => ?_)
    obtain ⟨id, hget⟩ := hm.sorted.mem_values_iff.mp he
    refine hs.consistent.stands_of_open (fun hclosed => ?_) fun hunlooked => ⟨hunlooked, rfl⟩
    exact (hlive hopen id e hget).1 ((foldl_lock_kept _ _ m.bar e).2 hclosed)
  have hlog : ∃ reports, m.awaiting.log = m.log ++ reports ∧ reports.Perm
      ((m.registry.values.map fun e => ({ job := .locking e } : Standing)).flatMap (·.report)) := by
    refine ⟨[], ?_, ?_⟩
    · rw [List.append_nil]
      exact (foldl_lock_kept _ _ m.bar 0).1
    · rw [List.flatMap_map]
      simp
  rw [hjobs] at hstage hadvances ⊢
  obtain ⟨sts, hc⟩ := continueRetiring_closes hs hm.values_nodup hstage hall hlog (Nat.le_refl start)
    (.inr rfl)
  exact ⟨sts, hc.mono fun e time hleft => .inl ⟨fun u hl => hleft.1 u (hadvances.looksAt_of hl), hleft.2⟩⟩

/-! ## Runs -/

section

variable {name : String} {before : List Event}

/-- A close that is not cancelled, at any later time. -/
theorem closes_run (hopen : (reached name before).closed = false)
    (hlooks : ∀ u jobs a, (reached name before).stage? u ≠ some (.retiring jobs a))
    (hclock : ((reached name before).begin start factory .close).Timely start after now)
    (hcancel : ∀ time, (time, .cancel (reached name before).tasks.length) ∉ after) :
    (((reached name before).begin start factory .close).runAt after).Shutting
      (reached name before).tasks.length ∧
    ∃ sts, Closes (reached name before).registry.values (reached name before).log start
      (reached name before).tasks.length
      (((reached name before).begin start factory .close).LastLeaves start after) now
      (((reached name before).begin start factory .close).runAt after) sts := by
  have hm := Consistent.reached name before
  induction hclock with
  | start =>
    exact begin_closes factory hm (Live.reached name before) (Ordered.reached name before) hopen hlooks
  | @happens after now event h hnow ih =>
    obtain ⟨hs, sts, hc⟩ := ih fun time hmem => hcancel time (List.mem_append_left _ hmem)
    have hordered :
        ((((reached name before).begin start factory .close).runAt after).step event).Ordered := by
      have hreached := Ordered.reached name
        (before ++ .begin start factory .close :: (after ++ [(now, event)]).map (·.2))
      rw [reached_append_cons] at hreached
      rw [← runAt_concat]
      exact hreached
    have hfound : ∀ e ∈ (reached name before).registry.values, ∃ entry,
        (((reached name before).begin start factory .close).runAt after).entries[e]? = some entry := by
      intro e he
      obtain ⟨id, hget⟩ := hm.sorted.mem_values_iff.mp he
      obtain ⟨entry, found, -⟩ := hm.registered id e hget
      obtain ⟨entry', found', -⟩ := (Grows.run hm (.begin start factory .close :: after.map (·.2))).entries e
        entry found
      exact ⟨entry', found'⟩
    have hlast : event ≠ .cancel (reached name before).tasks.length := fun heq =>
      hcancel now (List.mem_append_right _ (heq ▸ List.mem_cons_self))
    rw [runAt_concat]
    refine ⟨hs.step event hordered, hc.step hs hm.values_nodup hfound h.le hnow hlast ?_ ?_⟩
    · exact fun e time hleft => lastLeaves_concat hleft _
    · exact fun e hnot hholds => .inr (becomes_concat_iff.mpr (.inr ⟨rfl, hnot, hholds⟩))
  | passes h hlater hquiet ih =>
    obtain ⟨hs, sts, hc⟩ := ih hcancel
    exact ⟨hs, sts, hc.passes hs hlater fun instant hnow hlt => hquiet instant hnow hlt _⟩

end

/-! ## How a close ends -/

/-- The call has something to retire. -/
def Underway (t : TaskId) (m : ProxyMap) : Prop :=
  ∃ jobs a, m.stage? t = some (.retiring jobs a) ∧ ∃ job ∈ jobs, job.isFinished = false

/-- As long as a call has something to retire somebody can go on, at some time. -/
theorem Underway.exists_ready (hx : m.Underway t) (hm : m.Consistent) : ∃ now u, m.isReady now u = true := by
  obtain ⟨jobs, a, hs, job, hjob, hunfinished⟩ := hx
  cases job with
  | locking e => exact Retires.exists_ready ⟨jobs, a, hs, hjob⟩ hm
  | closing e h wake =>
    refine ⟨wake, t, ?_⟩
    simp only [isReady, hs]
    exact List.any_eq_true.mpr ⟨_, hjob, by simp [retirementReady]⟩
  | finished e => cases hunfinished

/-- A call that has its turn ends, or has something to retire still. -/
theorem Underway.turn (hx : m.Underway t) (hm : m.Consistent) (now : Nat) (factory : Factory) (u : TaskId) :
    (m.turn now factory u).Underway t ∨ ((m.turn now factory u).ended? t).isSome := by
  obtain ⟨jobs, a, hs, hbusy⟩ := hx
  rcases eq_or_ne u t with rfl | hne
  · have hkept : (m.turnRetirements now u jobs).1.stage? u = _ := stage?_turnRetirements.trans hs
    simp only [ProxyMap.turn, hs, continueRetiring]
    split
    · have hended := ended?_eq_some_iff.mpr (stage?_setStage_self (s := .finished now a) hkept)
      exact .inr (Option.isSome_iff_exists.mpr ⟨(now, a), hended⟩)
    · next hunfinished =>
      left
      rw [List.all_eq_true] at hunfinished
      push Not at hunfinished
      obtain ⟨job, hjob, hnot⟩ := hunfinished
      exact ⟨_, a, stage?_setStage_self hkept, job, hjob, Bool.eq_false_iff.mpr hnot⟩
  · have hadvances : Advances (fun _ => False) u m (m.turn now factory u) := turn_advances hm
    exact .inl ⟨jobs, a, (hadvances.moves.stage?_of_ne hm (Ne.symm hne)).trans hs, hbusy⟩

/-- From any moment on it comes to its end with turns that are taken when they can be taken. -/
theorem Closes.returns (hc : Closes es earlier start t left now m sts) (hm : m.Consistent) (hsep : m.Separate)
    (factory : Factory) : ∃ turns later, m.Timely now (turnsAt factory turns) later ∧
      ((m.runAt (turnsAt factory turns)).ended? t).isSome := by
  refine exists_turns factory (I := fun m => m.Consistent ∧ (m.Underway t ∨ (m.ended? t).isSome))
    (P := fun m => (m.ended? t).isSome) (fun m now u hI => ?_) (fun m hI => ?_) hsep ⟨hm, ?_⟩ now
  · obtain ⟨hm, hgoes⟩ := hI
    refine ⟨hm.step (.turn now factory u), ?_⟩
    rcases hgoes with hx | hended
    · exact hx.turn hm now factory u
    · obtain ⟨⟨time, a⟩, hended⟩ := Option.isSome_iff_exists.mp hended
      exact .inr (Option.isSome_iff_exists.mpr ⟨(time, a), ended?_run hm hended [.turn now factory u]⟩)
  · exact hI.2.symm.imp_right fun hx => hx.exists_ready hI.1
  · by_cases hbusy : ∃ st ∈ sts, st.ended = none
    · left
      refine ⟨_, _, hc.underway hbusy, ?_⟩
      obtain ⟨st, hst, hnone⟩ := hbusy
      obtain ⟨e, -, hstands⟩ := exists_of_mem_right hc.entries hst
      exact ⟨st.job, List.mem_map_of_mem hst, by rw [hstands.isFinished_eq, hnone]; rfl⟩
    · right
      obtain ⟨time, hstage, -⟩ := hc.ended fun st hst hnone => hbusy ⟨st, hst, hnone⟩
      exact Option.isSome_iff_exists.mpr ⟨(time, .done), ended?_eq_some_iff.mpr hstage⟩

/-! ## The main result -/

/-- A close of an open map with nothing but look-ups under way stands with each of its entries on its own, and
with all of them together as `Closes` says, at any time and whatever happens in between, if it is not
cancelled. It comes to its end, and without the proxies that fail to close everything would come to the same
but for what is reported. -/
theorem closing_is_concurrent (name : String) (before : List Event) (start now : Nat) (factory : Factory)
    (after : List (Nat × Event)) (hopen : (reached name before).closed = false)
    (hlooks : ∀ u jobs a, (reached name before).stage? u ≠ some (.retiring jobs a))
    (hclock : ((reached name before).begin start factory .close).Timely start after now)
    (hcancel : ∀ time, (time, .cancel (reached name before).tasks.length) ∉ after) :
    let m := reached name before
    let begun := m.begin start factory .close
    (∃ sts, Closes m.registry.values m.log start m.tasks.length (begun.LastLeaves start after) now
      (begun.runAt after) sts) ∧
    (∀ e time time', begun.LastLeaves start after e time → begun.LastLeaves start after e time' →
      time = time') ∧
    (∀ factory', ∃ turns later, (begun.runAt after).Timely now (turnsAt factory' turns) later ∧
      (((begun.runAt after).runAt (turnsAt factory' turns)).ended? m.tasks.length).isSome) ∧
    m.forgiving.run (m.forgivingAll (.begin start factory .close :: after.map (·.2))) =
      (begun.runAt after).forgiving := by
  intro m begun
  have hm : m.Consistent := Consistent.reached name before
  obtain ⟨hs, sts, hc⟩ := closes_run hopen hlooks hclock hcancel
  have hbegun : begun.Shutting m.tasks.length :=
    (begin_closes factory hm (Live.reached name before) (Ordered.reached name before) hopen hlooks).1
  have hsep : (begun.runAt after).Separate := by
    have hreached := Separate.reached name (before ++ .begin start factory .close :: after.map (·.2))
    rwa [reached_append_cons] at hreached
  refine ⟨⟨sts, hc⟩, fun e time time' => ?_, hc.returns hs.consistent hsep, ?_⟩
  · exact LastLeaves.unique hbegun.consistent hbegun.closed
  · exact run_forgiving m (.begin start factory .close :: after.map (·.2))

/-- What the factory makes of each peer: a proxy that fails to close, one that is made at the second attempt,
and none. -/
def bustling : Factory := fun creations peer =>
  match peer.id.name with
  | "a" => { closeDelay := 9, closeFailure := some (.connection "a" "reset") }
  | "b" =>
    if creations.any fun c => c.peer.id.name = "b" then { delay := 3, closeDelay := 4 }
    else { delay := 5, failure := some (.connection "b" "refused") }
  | _ => { delay := 6, failure := some (.connection "c" "refused") }

/-- One proxy is cached, two look-ups wait for the second one, another one for the third one, and nobody has
looked up the last peer. -/
def bustle : List Event :=
  [.register ⟨⟨"a"⟩, "x"⟩, .register ⟨⟨"b"⟩, "x"⟩, .register ⟨⟨"c"⟩, "x"⟩, .register ⟨⟨"d"⟩, "x"⟩,
    .begin 0 bustling (.lookUp ⟨"a"⟩), .turn 0 bustling 0, .begin 0 bustling (.lookUp ⟨"b"⟩),
    .begin 0 bustling (.lookUp ⟨"c"⟩), .begin 1 bustling (.lookUp ⟨"b"⟩)]

/-- What happens after the close has begun at the time 2. -/
def bustleEnd : List (Nat × Event) :=
  [(3, .begin 3 bustling (.lookUp ⟨"d"⟩)), (5, .turn 5 bustling 1), (5, .turn 5 bustling 3),
    (6, .turn 6 bustling 2), (6, .turn 6 bustling 4), (8, .turn 8 bustling 3), (8, .turn 8 bustling 4),
    (11, .turn 11 bustling 4), (12, .turn 12 bustling 4)]

/-- The proxy that was cached is asked to close at once, and the one that is made meanwhile as soon as it is
there. The close ends when the slower one of the two is done, and one failure is reported. -/
theorem closing_is_concurrent_in_bustle :
    let begun := (reached "m" bustle).begin 2 bustling .close
    ((begun.runAt bustleEnd).ended? 4 = some (12, .done) ∧
      (begun.runAt bustleEnd).creations.map (·.closeCalls) = [[2], [], [], [8]] ∧
      (begun.runAt bustleEnd).log.length = 1) ∧
    ∃ sts, Closes [0, 1, 2, 3] [] 2 4 (begun.LastLeaves 2 bustleEnd) 12 (begun.runAt bustleEnd) sts := by
  have hlooks : ∀ u jobs a, (reached "m" bustle).stage? u ≠ some (.retiring jobs a) := by
    have hstages : (reached "m" bustle).tasks.map (·.stage) =
        [.finished 0 (.proxy (.ok 0)), .creating 1 1 5, .creating 2 2 6, .locking 1] := by decide
    intro u jobs a hu
    rw [stage?, ← List.getElem?_map, hstages] at hu
    simpa using List.mem_of_getElem? hu
  have hcancel : ∀ time, (time, .cancel 4) ∉ bustleEnd := by
    intro time hmem
    simp [bustleEnd] at hmem
  have hclock : ((reached "m" bustle).begin 2 bustling .close).Timely 2 bustleEnd 12 :=
    timely_of_keepsTime? (by decide)
  have htheorem := closing_is_concurrent "m" bustle 2 12 bustling bustleEnd (by decide) hlooks hclock hcancel
  exact ⟨by decide, htheorem.1⟩

end Replica.ProxyMap
