import Replica.Proofs.Proxy.Amending
import Replica.Proofs.Proxy.Yielding

/-!
# A close that goes on at once

When a close gets its turns depends on what it has to do for all peers, so two maps of which a peer has the
same part need not give the close its turns at the same points of an instant. It makes no difference: at the
locks of the peer there are only closes behind it, so it does not matter to the calls on the peer whether
the close goes on before them or after them (`hurry_turn`).

`hasten` lets the first close do all that it can do at the instant, which is at most two things
(`hurry_hasten`). What a peer's part comes to when its close is hastened is the same whenever that is done
(`hasten_hurry`, `hasten_turn`).
-/

namespace Replica

namespace ProxyMap

variable {m : ProxyMap} {id : PeerId} {e : EntryId} {h : Handle} {t u : TaskId} {now : Nat}
variable {factory : Factory} {entry : ProxyEntry} {s : ProxyStage} {call : ProxyCall}
variable {job : Retirement} {target : Option PeerId} {n : Nat}

/-! ## Maps that come about -/

/-- Some run leads to the map. -/
def IsReached (m : ProxyMap) : Prop := ∃ name events, m = reached name events

namespace IsReached

/-- A run goes on with any event. -/
theorem step (hm : m.IsReached) (event : Event) : (m.step event).IsReached := by
  obtain ⟨name, events, rfl⟩ := hm
  exact ⟨name, events ++ [event], (run_concat ..).symm⟩

theorem separate (hm : m.IsReached) : m.Separate := by
  obtain ⟨name, events, rfl⟩ := hm
  exact .reached name events

/-- What holds at every moment of a run holds of the maps that are reached. -/
theorem consistent (hm : m.IsReached) : m.Consistent := by
  obtain ⟨name, events, rfl⟩ := hm
  exact .reached name events

/-- In these maps closes come last in every line. -/
theorem yielding (hm : m.IsReached) : m.Yielding := by
  obtain ⟨name, events, rfl⟩ := hm
  exact .reached name events

/-- At most one close has anything to do for a peer. -/
theorem oneClose (hm : m.IsReached) : m.OneClose := by
  obtain ⟨name, events, rfl⟩ := hm
  exact .reached name events

theorem turn (hm : m.IsReached) (now : Nat) (factory : Factory) (t : TaskId) :
    (m.turn now factory t).IsReached :=
  hm.step (.turn now factory t)

end IsReached

/-! ## Counting calls -/

/-- The number of the `n`-th call on the peer, or of the `n`-th close. -/
def nth (target : Option PeerId) (n : Nat) (m : ProxyMap) : TaskId :=
  m.calls.findIdxNth (fun call => decide (call.target? = target)) n

/-- The calls in a peer's part are those that concern the peer, in their order. -/
theorem calls_part : (m.part id).calls = m.calls.filter (·.concerns id) := by
  simp only [calls, part, partBy, List.map_map, List.filter_map]
  rfl

/-- A call's number in the part counts the calls before it that concern the peer. -/
theorem ranks_call : (m.ranks id).call t = m.calls.countPBefore (·.concerns id) t :=
  (countPBefore_map (f := ProxyTask.call) (p := ProxyCall.concerns id)).symm

/-- Calls that concern the peer are counted alike in its part. -/
theorem nth_part (h : target.all (· = id)) (n : Nat) :
    (m.part id).nth target n = (m.ranks id).call (m.nth target n) := by
  rw [nth, calls_part, ranks_call]
  refine findIdxNth_filter (fun call hcall => ?_) n
  rw [ProxyCall.concerns, of_decide_eq_true hcall]
  exact h

/-- The calls are those of the tasks, whatever their stages. -/
theorem calls_eq_some_iff : m.calls[t]? = some call ↔ ∃ s, m.tasks[t]? = some ⟨call, s⟩ := by
  simp only [calls, List.getElem?_map, Option.map_eq_some_iff]
  constructor
  · rintro ⟨⟨call, s⟩, htask, rfl⟩
    exact ⟨s, htask⟩
  · rintro ⟨s, htask⟩
    exact ⟨_, htask, rfl⟩

/-- Only a close is a call on no particular peer. -/
theorem target?_eq_none_iff : call.target? = none ↔ call = .close := by
  cases call <;> simp [ProxyCall.target?]

/-- No close comes before the first one. -/
theorem first_close_le (ht : m.calls[t]? = some .close) : m.nth none 0 ≤ t := by
  rw [nth, List.findIdxNth_zero]
  obtain ⟨hlt, heq⟩ := List.getElem?_eq_some_iff.mp ht
  by_contra hbefore
  have hnot := List.not_of_lt_findIdx (Nat.not_le.mp hbefore)
  rw [heq] at hnot
  cases hnot

/-- A call that is counted is on the peer, or a close. -/
theorem nth_cases (target : Option PeerId) (n : Nat) (m : ProxyMap) :
    (∃ call s, m.tasks[m.nth target n]? = some ⟨call, s⟩ ∧ call.target? = target) ∨
      m.nth target n = m.calls.length := by
  rcases Nat.lt_or_ge (m.nth target n) m.calls.length with hlt | hge
  · left
    have hfound := List.pos_findIdxNth_getElem (h := hlt)
    obtain ⟨s, htask⟩ := calls_eq_some_iff.mp (List.getElem?_eq_getElem hlt)
    exact ⟨_, s, htask, of_decide_eq_true hfound⟩
  · exact .inr (Nat.le_antisymm List.findIdxNth_le_length hge)

/-- The first close, if there is one. -/
theorem first_close (m : ProxyMap) :
    (∃ s, m.tasks[m.nth none 0]? = some ⟨.close, s⟩) ∨ m.nth none 0 = m.calls.length := by
  refine (nth_cases none 0 m).imp_left ?_
  rintro ⟨call, s, htask, hcall⟩
  cases target?_eq_none_iff.mp hcall
  exact ⟨s, htask⟩

/-! ## What a close does -/

/-- Nothing changes at a call that was never made. -/
theorem setStage_of_none (hnone : m.stage? t = none) : m.setStage t s = m := by
  have hlen : m.tasks.length ≤ t := by simpa [stage?] using hnone
  have htasks : m.tasks.modify t (fun task => { task with stage := s }) = m.tasks := by
    rw [List.modify_eq_set_getElem?, List.getElem?_eq_none hlen]
    rfl
  exact congrArg (fun tasks => { m with tasks }) htasks

/-- A close that was never made does not go on. -/
theorem goOnClosing_of_none (hnone : m.stage? t = none) : m.goOnClosing now t = m.hush := by
  unfold goOnClosing
  simp only [duties, hnone, Option.elim_none, turnRetirements, List.filter_nil]
  exact congrArg hush (setStage_of_none hnone)

/-- A close with nothing left to do for the peer does not go on. -/
theorem goOnClosing_of_no_duty (hstage : m.stage? t = some (.retiring [] .done)) :
    m.goOnClosing now t = m.hush := by
  unfold goOnClosing
  rw [duties_of_stage hstage]
  exact congrArg hush (setStage_self hstage)

/-- A close with one entry to retire. -/
theorem goOnClosing_of_one_duty (hstage : m.stage? t = some (.retiring [job] .done)) :
    m.goOnClosing now t = ((m.turnRetirement now t job).1.setStage t
      (.retiring ([(m.turnRetirement now t job).2].filter (!·.isFinished)) .done)).hush := by
  unfold goOnClosing
  rw [duties_of_stage hstage]
  rfl

/-- A close that waits for the lock, or for its proxy, does not go on. -/
theorem goOnClosing_of_idle (hstage : m.stage? t = some (.retiring [job] .done))
    (hidle : m.retirementReady now t job = false) (hjob : job.isFinished = false) :
    m.goOnClosing now t = m.hush := by
  rw [goOnClosing_of_one_duty hstage, turnRetirement_of_idle hidle,
    List.filter_cons_of_pos (by simp [hjob]), List.filter_nil, setStage_self hstage]

end ProxyMap

/-- What a close does that gets the lock of an entry. -/
def Amendment.atLock (now : Nat) (t : TaskId) (e : EntryId) (y : ProxyEntry) (script : Script) :
    Amendment :=
  match y.retire.2 with
  | none => ⟨e, fun y => y.retire.1.unlock, 0, id, t, .retiring [] .done⟩
  | some h => ⟨e, fun y => y.retire.1.unlock, h, .askToClose now, t,
      .retiring [.closing e h (now + script.closeDelay)] .done⟩

/-- What a close does when a proxy has closed. -/
def Amendment.atEnd (now : Nat) (t : TaskId) (e : EntryId) (h : Handle) : Amendment :=
  ⟨e, id, h, .hasClosed now, t, .retiring [] .done⟩

/-- An entry always changes as a close retires it, so it can be told from one that was left alone. -/
theorem ProxyEntry.retire_unlock_ne_id : (fun y : ProxyEntry => y.retire.1.unlock) ≠ id := by
  intro heq
  have howner := congrArg ProxyEntry.owner (congrFun heq { ProxyEntry.fresh default with owner := some 0 })
  cases howner

/-- Retiring an entry leaves its line as it was. -/
theorem ProxyEntry.retire_line (y : ProxyEntry) : y.retire.1.line = y.line := by
  unfold retire
  split <;> rfl

/-- A creation always changes as it is asked to close. -/
theorem Creation.askToClose_ne_id (now : Nat) : Creation.askToClose now ≠ id := by
  intro heq
  have hcalls := congrArg Creation.closeCalls (congrFun heq ⟨default, 0, {}, 0, none, [], none⟩)
  cases hcalls

namespace Amendment

variable {m : ProxyMap} {e : EntryId} {h : Handle} {t u : TaskId} {now : Nat} {y : ProxyEntry}
variable {script : Script}

theorem atLock_call : (atLock now t e y script).call = t := by
  unfold atLock
  split <;> rfl

theorem atLock_entry : (atLock now t e y script).entry = e := by
  unfold atLock
  split <;> rfl

theorem atLock_onEntry : (atLock now t e y script).onEntry = fun y => y.retire.1.unlock := by
  unfold atLock
  split <;> rfl

/-- Once it has the lock, a close has at most one more thing to do at the entry. -/
theorem atLock_effort : (atLock now t e y script).stage.effort ≤ 1 := by
  unfold atLock
  split <;> simp [ProxyStage.effort, Retirement.effort]

/-- A close that gets the lock is not seen by a call that does not wait for it. -/
theorem Apart.atLock (hne : t ≠ u) (found : m.entries[e]? = some y) (howner : y.owner = some t)
    (hline : u ∉ y.line)
    (hscript : ∀ h, y.retire.2 = some h → m.creations[h]?.map (·.script) = some script) :
    (Amendment.atLock now t e y script).Apart now u y script m where
  call := by rwa [atLock_call]
  note := by
    unfold Amendment.atLock
    split
    · exact .nothing now
    · exact .askToClose now
  entry := by
    rw [atLock_entry, atLock_onEntry]
    refine .inr ⟨found, by simp [howner, hne], fun hu => hline ?_⟩
    have hmem := ProxyEntry.mem_queue_iff.mpr (.inl hu)
    rwa [ProxyEntry.queue_unlock, ProxyEntry.retire_line] at hmem
  proxy := by
    unfold Amendment.atLock
    split
    · exact .inl rfl
    · next h htaken => exact .inr (hscript h htaken)

/-- What can be told from a call that does not see the close. -/
theorem Apart.found (hx : (Amendment.atLock now t e y script).Apart now u y script m) :
    m.entries[e]? = some y ∧
      ∀ h, y.retire.2 = some h → m.creations[h]?.map (·.script) = some script := by
  have hentry := hx.entry
  rw [atLock_entry, atLock_onEntry] at hentry
  refine ⟨(hentry.resolve_left ProxyEntry.retire_unlock_ne_id).1, fun h htaken => ?_⟩
  have hproxy := hx.proxy
  simp only [Amendment.atLock, htaken] at hproxy
  exact hproxy.resolve_left (Creation.askToClose_ne_id now)

/-- A close that learns that a proxy is closed is not seen by any other call. -/
theorem Apart.atEnd (hne : t ≠ u) (hscript : m.creations[h]?.map (·.script) = some script) :
    (Amendment.atEnd now t e h).Apart now u y script m :=
  ⟨hne, .hasClosed now, .inl rfl, .inr hscript⟩

/-- Notes of errors do not matter to whether a change is seen. -/
theorem Apart.hush {x : Amendment} (hx : x.Apart now t y script m) : x.Apart now t y script m.hush :=
  ⟨hx.call, hx.note, hx.entry, hx.proxy⟩

end Amendment

namespace ProxyMap

variable {m : ProxyMap} {id : PeerId} {e : EntryId} {h : Handle} {t u : TaskId} {now : Nat}
variable {factory : Factory} {entry : ProxyEntry} {s : ProxyStage} {call : ProxyCall}
variable {job : Retirement} {target : Option PeerId} {n : Nat}

/-- A close that holds the lock retires the entry, and asks the proxy to close if there is one. -/
theorem goOnClosing_atLock {y : ProxyEntry} {script : Script}
    (hstage : m.stage? t = some (.retiring [.locking e] .done)) (found : m.entries[e]? = some y)
    (howner : y.owner = some t)
    (hscript : ∀ h, y.retire.2 = some h → m.creations[h]?.map (·.script) = some script) :
    m.goOnClosing now t = (m.amend (.atLock now t e y script)).hush := by
  have howns : m.owns e t = true := by simp [owns, found, howner]
  rw [goOnClosing_of_one_duty hstage]
  simp only [turnRetirement, howns, if_true, retire_eq_match found, Amendment.atLock]
  cases htaken : y.retire.2 with
  | none =>
    have hcreations : m.creations.modify 0 id = m.creations := List.modify_id _ _
    exact congrArg (fun creations => ({ m.modifyEntry e (fun y => y.retire.1.unlock) with
      creations }.setStage t (.retiring [] .done)).hush) hcreations.symm
  | some h =>
    obtain ⟨c, hc, hs⟩ := Option.map_eq_some_iff.mp (hscript h htaken)
    simp only [hc, Option.map_some, Option.getD_some, hs]
    rfl

/-- A close whose proxy has closed notes it, and is done with the entry. -/
theorem goOnClosing_atEnd {wake : Nat}
    (hstage : m.stage? t = some (.retiring [.closing e h wake] .done)) (hwake : wake ≤ now) :
    m.goOnClosing now t = (m.amend (.atEnd now t e h)).hush := by
  have hentries : m.entries.modify e id = m.entries := List.modify_id _ _
  rw [goOnClosing_of_one_duty hstage]
  simp only [turnRetirement, hwake, if_true]
  exact congrArg (fun entries => ({ m.modifyCreation h (Creation.hasClosed now) with
    entries }.setStage t (.retiring [] .done)).hush) hentries.symm

/-! ## What the first close does to a peer -/

/-- A close has one entry of the peer to retire at most. -/
theorem IsReached.one_duty (hm : m.IsReached) (id : PeerId) (htask : m.tasks[t]? = some ⟨.close, s⟩) :
    s.jobs.filter (m.regards id) = [] ∨ ∃ job, s.jobs.filter (m.regards id) = [job] ∧
      job.Within id m ∧ job.isFinished = false := by
  have hstage := stage?_eq_some_iff.mpr ⟨_, htask⟩
  have hclose : m.calls[t]? = some .close := calls_eq_some_iff.mpr ⟨s, htask⟩
  have hsingle : (s.jobs.filter (m.regards id)).length ≤ 1 := by
    have hcount := hm.oneClose.single t id hclose
    rw [duties_of_stage hstage, List.countP_map] at hcount
    rw [← List.countP_eq_length_filter]
    refine (List.countP_mono_left fun job _ hr => ?_).trans hcount
    exact (Bool.and_eq_true_iff.mp hr).2
  match hjobs : s.jobs.filter (m.regards id) with
  | [] => exact .inl rfl
  | [job] =>
    have hmem : job ∈ s.jobs.filter (m.regards id) := hjobs ▸ List.mem_singleton_self job
    obtain ⟨hjob, hr⟩ := List.mem_filter.mp hmem
    refine .inr ⟨job, rfl, within_of_regards ?_ hr, (regards_iff.mp hr).1⟩
    exact hm.separate.hasEntry_of_duty hclose ((duties_of_stage hstage).symm ▸ hjob)
  | job :: job' :: jobs => simp [hjobs] at hsingle

/-- Behind a close that holds a lock there are only closes. -/
theorem IsReached.close_of_mem_line (hm : m.IsReached) (found : m.entries[e]? = some entry)
    (howner : entry.owner = some t) (hclose : m.calls[t]? = some .close) (hu : u ∈ entry.line) :
    m.calls[u]? = some .close := by
  have hlast := hm.yielding.last e entry found
  rw [ProxyEntry.queue, howner] at hlast
  exact (List.pairwise_cons.mp hlast).1 u hu hclose

/-- The first close goes on. -/
def hurry (now : Nat) (m : ProxyMap) : ProxyMap := m.goOnClosing now (m.nth none 0)

/-- The first close goes on as far as it can. -/
def hasten (now : Nat) (m : ProxyMap) : ProxyMap := (m.hurry now).hurry now

/-- The first close goes on in the part as it does in the map. -/
theorem hurry_part_eq : (m.part id).hurry now =
    (m.part id).goOnClosing now ((m.ranks id).call (m.nth none 0)) := by
  rw [hurry, nth_part rfl]

/-- What the first close does for the peer is a change that no call on the peer sees. It does the same
wherever it stands as it does and finds what it finds. -/
structure Hurries (id : PeerId) (now : Nat) (m : ProxyMap) (x : Amendment) (y : ProxyEntry)
    (script : Script) : Prop where
  call : x.call = (m.part id).nth none 0
  goes : (m.part id).hurry now = (m.part id).amend x
  effort : ∃ s, (m.part id).stage? ((m.part id).nth none 0) = some s ∧ x.stage.effort < s.effort
  apart : ∀ t, m.HasCall id t → m.calls[t]? ≠ some .close →
    x.Apart now ((m.ranks id).call t) y script (m.part id)
  alike : ∀ m' u, m'.nth none 0 = (m.part id).nth none 0 →
    m'.stage? (m'.nth none 0) = (m.part id).stage? ((m.part id).nth none 0) →
    x.Apart now u y script m' → m'.hurry now = (m'.amend x).hush

/-- A look-up or reset of the peer is not the first close, in the part neither. -/
theorem call_first_close_ne (hclose : m.calls[m.nth none 0]? = some .close) (ht : m.HasCall id t)
    (hne : m.calls[t]? ≠ some .close) : (m.ranks id).call (m.nth none 0) ≠ (m.ranks id).call t := by
  obtain ⟨s, htask⟩ := calls_eq_some_iff.mp hclose
  intro heq
  exact hne (call_inj ht ⟨_, htask, rfl⟩ heq ▸ hclose)

/-- The first close gets the lock. -/
theorem IsReached.hurries_atLock (hm : m.IsReached) (now : Nat)
    (hclose : m.calls[m.nth none 0]? = some .close)
    (hstage : (m.part id).stage? ((m.ranks id).call (m.nth none 0)) =
      some (.retiring [.locking ((m.ranks id).entry e)] .done))
    (found : m.entries[e]? = some entry) (hid : entry.peer.id = id)
    (howner : entry.owner = some (m.nth none 0)) :
    ∃ x y script, Hurries id now m x y script := by
  let ρ := m.ranks id
  have found' := part_entry found hid
  have howner' : (entry.rename ρ).owner = some (ρ.call (m.nth none 0)) := by
    simp [ProxyEntry.rename, howner]
  obtain ⟨script, hscript⟩ : ∃ script, ∀ h, (entry.rename ρ).retire.2 = some h →
      (m.part id).creations[h]?.map (·.script) = some script := by
    rw [ProxyEntry.rename_retire]
    cases htaken : entry.retire.2 with
    | none => exact ⟨{}, by rintro _ ⟨⟩⟩
    | some h =>
      obtain ⟨c, made, hpeer⟩ := (hm.separate.entries e entry found).slot h (retire_taken htaken)
      refine ⟨c.script, fun h' hh' => ?_⟩
      cases hh'
      rw [part_creation made (hpeer.trans hid)]
      rfl
  refine ⟨.atLock now (ρ.call (m.nth none 0)) (ρ.entry e) (entry.rename ρ) script, entry.rename ρ,
    script, ?_⟩
  constructor
  case call => rw [Amendment.atLock_call, nth_part rfl]
  case goes =>
    rw [hurry_part_eq]
    exact goOnClosing_atLock hstage found' howner' hscript
  case effort =>
    rw [nth_part rfl]
    exact ⟨_, hstage, Nat.lt_succ_of_le Amendment.atLock_effort⟩
  case apart =>
    intro t ht hne
    refine .atLock (call_first_close_ne hclose ht hne) found' howner' (fun hmem => hne ?_) hscript
    -- whoever waits behind the close is a close as well
    obtain ⟨u, hu, heq⟩ := List.mem_map.mp hmem
    have hu' := (hm.separate.entries e entry found).queue u (ProxyEntry.mem_queue_iff.mpr (.inr hu))
    rw [hid] at hu'
    exact call_inj ht hu' heq ▸ hm.close_of_mem_line found howner hclose hu
  case alike =>
    intro m' u hnth hsame hx
    obtain ⟨found'', hscript'⟩ := hx.found
    rw [hurry, hnth, nth_part rfl]
    rw [hnth, nth_part rfl, hstage] at hsame
    exact goOnClosing_atLock hsame found'' howner' hscript'

/-- The first close goes on after the proxy has closed. -/
theorem IsReached.hurries_atEnd {wake : Nat} (hclose : m.calls[m.nth none 0]? = some .close)
    (hstage : (m.part id).stage? ((m.ranks id).call (m.nth none 0)) =
      some (.retiring [.closing ((m.ranks id).entry e) ((m.ranks id).proxy h) wake] .done))
    (hproxy : m.HasProxy id h) (hwake : wake ≤ now) :
    ∃ x y script, Hurries id now m x y script := by
  obtain ⟨c, made, hpeer⟩ := hproxy
  have hscript : (m.part id).creations[(m.ranks id).proxy h]?.map (·.script) = some c.script := by
    rw [part_creation made hpeer]
    rfl
  refine ⟨.atEnd now ((m.ranks id).call (m.nth none 0)) ((m.ranks id).entry e) ((m.ranks id).proxy h),
    default, c.script, ?_⟩
  constructor
  case call => exact (nth_part rfl 0).symm
  case goes =>
    rw [hurry_part_eq]
    exact goOnClosing_atEnd hstage hwake
  case effort =>
    rw [nth_part rfl]
    exact ⟨_, hstage, Nat.zero_lt_one⟩
  case apart => exact fun t ht hne => .atEnd (call_first_close_ne hclose ht hne) hscript
  case alike =>
    intro m' u hnth hsame _
    rw [hurry, hnth, nth_part rfl]
    rw [hnth, nth_part rfl, hstage] at hsame
    exact goOnClosing_atEnd hsame hwake

/-- Without a close there is nobody to hurry. -/
theorem hurry_of_no_close (hnone : m.nth none 0 = m.calls.length) :
    (m.part id).hurry now = m.part id := by
  refine goOnClosing_of_none ?_
  rw [nth_part rfl, hnone, calls, List.length_map, ← length_part_tasks]
  exact stage?_length

/-- The first close has nothing to do for the peer, or what it does is not seen. -/
theorem IsReached.hurry_cases (hm : m.IsReached) (id : PeerId) (now : Nat) :
    (m.part id).hurry now = m.part id ∨ ∃ x y script, Hurries id now m x y script := by
  rcases first_close m with ⟨s, htask⟩ | hnone
  · have hclose : m.calls[m.nth none 0]? = some .close := calls_eq_some_iff.mpr ⟨s, htask⟩
    have hc : m.HasCall id (m.nth none 0) := ⟨_, htask, rfl⟩
    have hstage := part_stage?_close id htask
    rcases hm.one_duty id htask with hjobs | ⟨job, hjobs, hjob, hunfinished⟩
    · rw [hjobs] at hstage
      exact .inl (hurry_part_eq.trans (goOnClosing_of_no_duty hstage))
    · rw [hjobs, List.map_singleton] at hstage
      have hready' := part_retirementReady now hm.separate hc hjob
      cases hready : m.retirementReady now (m.nth none 0) job with
      | false =>
        exact .inl (hurry_part_eq.trans
          (goOnClosing_of_idle hstage (hready'.trans hready) (by simpa using hunfinished)))
      | true =>
        right
        cases job with
        | locking e =>
          obtain ⟨entry, found, hid⟩ := hjob
          exact hm.hurries_atLock now hclose hstage found hid
            (by simpa [retirementReady, owns, found] using hready)
        | closing e h wake =>
          exact IsReached.hurries_atEnd hclose hstage hjob.2 (by simpa [retirementReady] using hready)
        | finished e => cases hunfinished
  · exact .inl (hurry_of_no_close hnone)

/-! ## Hastening -/

/-- What the first close leaves of a part is a part as well. -/
theorem IsReached.hurried (hm : m.IsReached) (id : PeerId) (now : Nat) :
    ∃ m' : ProxyMap, m'.IsReached ∧ m'.calls = m.calls ∧ m'.part id = (m.part id).hurry now := by
  rcases first_close m with ⟨s, htask⟩ | hnone
  · let factory : Factory := fun _ _ => {}
    refine ⟨m.turn now factory (m.nth none 0), hm.turn now factory _, calls_turn, ?_⟩
    rw [part_turn_close id now factory hm.separate htask, hurry_part_eq]
  · exact ⟨m, hm, rfl, (hurry_of_no_close hnone).symm⟩

/-- What the first close has left to do for the peer. -/
def remaining (m : ProxyMap) : Nat := (m.stage? (m.nth none 0)).elim 0 ProxyStage.effort

/-- Which close is the first depends on the calls only. -/
theorem nth_of_calls {m' : ProxyMap} (h : m'.calls = m.calls) : m'.nth target n = m.nth target n := by
  rw [nth, h, nth]

/-- The first close has at most two things left to do for a peer: to get the lock, and to see its proxy
closed. -/
theorem IsReached.remaining_le (hm : m.IsReached) (id : PeerId) : (m.part id).remaining ≤ 2 := by
  unfold remaining
  rw [nth_part rfl]
  rcases first_close m with ⟨s, htask⟩ | hnone
  · rw [part_stage?_close id htask]
    rcases hm.one_duty id htask with hjobs | ⟨job, hjobs, -⟩
    · rw [hjobs]
      exact Nat.zero_le 2
    · rw [hjobs]
      cases job <;> simp [Retirement.rename, ProxyStage.effort, Retirement.effort]
  · rw [hnone, calls, List.length_map, ← length_part_tasks, stage?_length]
    exact Nat.zero_le 2

/-- The first close has less left to do once it has gone on. -/
theorem Hurries.remaining_lt {x : Amendment} {y : ProxyEntry} {script : Script}
    (hx : Hurries id now m x y script) : ((m.part id).hurry now).remaining < (m.part id).remaining := by
  obtain ⟨s, hstage, hless⟩ := hx.effort
  have hcalls : ((m.part id).amend x).calls = (m.part id).calls := calls_setStage
  have hstage' : ((m.part id).amend x).stage? x.call = some x.stage :=
    stage?_setStage_self (m := ((m.part id).modifyEntry _ _).modifyCreation _ _) (hx.call ▸ hstage)
  rw [hx.goes, remaining, remaining, nth_of_calls hcalls, ← hx.call, hstage', hx.call, hstage]
  exact hless

/-- After that the first close has nothing left that it could do. -/
theorem IsReached.hurry_hasten (hm : m.IsReached) (id : PeerId) (now : Nat) :
    ((m.part id).hasten now).hurry now = (m.part id).hasten now := by
  obtain ⟨m₁, hm₁, -, h₁⟩ := hm.hurried id now
  obtain ⟨m₂, hm₂, -, h₂⟩ := hm₁.hurried id now
  have hle := hm.remaining_le id
  unfold hasten
  rw [← h₁, ← h₂]
  rcases hm₂.hurry_cases id now with hidle | ⟨x₂, y₂, script₂, hx₂⟩
  · exact hidle
  -- the first close would have gone on three times, with two things to do
  · have hless₂ := hx₂.remaining_lt
    rcases hm₁.hurry_cases id now with hidle | ⟨x₁, y₁, script₁, hx₁⟩
    · rw [h₂, hidle, hidle]
    · have hless₁ := hx₁.remaining_lt
      rcases hm.hurry_cases id now with hidle | ⟨x, y, script, hx⟩
      · rw [h₂, h₁, hidle, hidle, hidle]
      · have hless := hx.remaining_lt
        rw [← h₁] at hless
        rw [← h₂] at hless₁
        omega

/-- A close that has gone on once can be hastened just as far. -/
theorem IsReached.hasten_hurry (hm : m.IsReached) (id : PeerId) (now : Nat) :
    ((m.part id).hurry now).hasten now = (m.part id).hasten now :=
  hm.hurry_hasten id now

/-! ## Turns of others -/

/-- A change of one call's stage is not seen at another one. -/
theorem stage?_setStage_of_ne (hne : t ≠ u) : (m.setStage t s).stage? u = m.stage? u := by
  simp [stage?, setStage, hne]

/-- A try to make a proxy is not seen in the stage of another call. -/
theorem stage?_create_of_ne (hne : t ≠ u) : (m.create now factory t e).stage? u = m.stage? u := by
  cases found : m.entries[e]? with
  | none => simp only [create, found]
  | some entry =>
    rcases create_cases found with ⟨answer, -, heq⟩ | ⟨lifecycle, script, heq⟩
    · rw [heq]
      exact stage?_setStage_of_ne (m := m.modifyEntry e .unlock) hne
    · rw [heq]
      exact stage?_setStage_of_ne (m := (m.addCreation _).modifyEntry e _) hne

/-- The turn of a call leaves all others where they stand. -/
theorem stage?_turn_of_ne (now : Nat) (factory : Factory) (hne : t ≠ u) :
    (m.turn now factory t).stage? u = m.stage? u := by
  unfold turn
  split
  · split
    · exact stage?_create_of_ne hne
    · rfl
  · split
    · unfold conclude
      split
      · split
        · exact stage?_setStage_of_ne hne
        · exact stage?_setStage_of_ne hne
      · rfl
    · rfl
  · dsimp only [continueRetiring]
    split
    · exact (stage?_setStage_of_ne hne).trans stage?_turnRetirements
    · exact (stage?_setStage_of_ne hne).trans stage?_turnRetirements
  · rfl

/-- A call that makes a proxy holds the lock of its entry, in the part as in the map. -/
theorem IsReached.part_creating {wake : Nat} (hm : m.IsReached) (htask : m.tasks[t]? = some ⟨call, s⟩)
    (hcall : call.target? = some id)
    (hstage : (m.part id).stage? ((m.ranks id).call t) = some (.creating e h wake)) :
    (∃ entry, (m.part id).entries[e]? = some entry ∧ entry.owner = some ((m.ranks id).call t)) ∧
      ∃ c, (m.part id).creations[h]? = some c := by
  rw [part_stage? htask hcall] at hstage
  cases s with
  | creating e₀ h₀ wake₀ =>
    cases hstage
    have hwithin := hm.separate.tasks t _ htask
    simp only [ProxyTask.Within, hcall] at hwithin
    obtain ⟨⟨entry, found, hid⟩, c, made, hpeer⟩ := hwithin
    obtain ⟨howner, -⟩ := (hm.consistent.fits e₀ entry found).making t h₀
      ⟨wake, stage?_eq_some_iff.mpr ⟨call, htask⟩⟩
    exact ⟨⟨_, part_entry found hid, by simp [ProxyEntry.rename, howner]⟩, _, part_creation made hpeer⟩
  | locking | retiring | finished | cancelled => cases hstage

/-- A call on a peer is no close. -/
theorem ne_close_of_target (htask : m.tasks[t]? = some ⟨call, s⟩) (hcall : call.target? = some id) :
    m.calls[t]? ≠ some .close := by
  intro heq
  obtain ⟨s', htask'⟩ := calls_eq_some_iff.mp heq
  cases htask.symm.trans htask'
  cases hcall

/-- The entries in a peer's part are the peer's. -/
theorem part_peer (found : (m.part id).entries[e]? = some entry) : entry.peer.id = id := by
  obtain ⟨y, hy, rfl⟩ := List.mem_map.mp (List.mem_of_getElem? found)
  simpa using (List.mem_filter.mp hy).2

/-- Whether the first close goes on before a call on the peer or after it makes no difference to the peer. -/
theorem IsReached.hurry_turn (hm : m.IsReached) (now : Nat) (hfactory : Factory.AgreeOn id factory factory)
    (htask : m.tasks[t]? = some ⟨call, s⟩) (hcall : call.target? = some id) :
    (m.part id).hurry now = m.part id ∨
      (((m.part id).turn now factory ((m.ranks id).call t)).hush).hurry now =
        (((m.part id).hurry now).turn now factory ((m.ranks id).call t)).hush := by
  refine (hm.hurry_cases id now).imp_right ?_
  rintro ⟨x, y, script, hx⟩
  have hc : m.HasCall id t := ⟨_, htask, ProxyCall.concerns_of_target? hcall⟩
  have hapart := hx.apart t hc (ne_close_of_target htask hcall)
  obtain ⟨hturn, hafter⟩ := hapart.turn hfactory (fun e entry found => part_peer found)
    fun e h wake hstage => hm.part_creating htask hcall hstage
  have hcalls : ((m.part id).turn now factory ((m.ranks id).call t)).hush.calls = (m.part id).calls :=
    calls_turn
  have hother : (m.ranks id).call t ≠ (m.part id).nth none 0 := fun heq => hapart.call (hx.call.trans heq.symm)
  rw [hx.goes, hturn]
  refine hx.alike _ _ (nth_of_calls hcalls) ?_ hafter.hush
  rw [nth_of_calls hcalls]
  exact stage?_turn_of_ne now factory hother

/-- A turn leaves a call what it is, and leaves it its number in the part. -/
theorem task_of_calls (id : PeerId) {m' : ProxyMap} (hcalls : m'.calls = m.calls)
    (htask : m.tasks[t]? = some ⟨call, s⟩) :
    (∃ s', m'.tasks[t]? = some ⟨call, s'⟩) ∧ (m'.ranks id).call t = (m.ranks id).call t := by
  refine ⟨?_, by rw [ranks_call, ranks_call, hcalls]⟩
  rw [← calls_eq_some_iff, hcalls]
  exact calls_eq_some_iff.mpr ⟨s, htask⟩

/-- It makes no difference for a call on the peer whether the first close has gone on before its turn,
as long as it goes on as far as it can afterwards. -/
theorem IsReached.hasten_turn_hurry (hm : m.IsReached) (now : Nat)
    (hfactory : Factory.AgreeOn id factory factory) (htask : m.tasks[t]? = some ⟨call, s⟩)
    (hcall : call.target? = some id) :
    ((((m.part id).hurry now).turn now factory ((m.ranks id).call t)).hush).hasten now =
      (((m.part id).turn now factory ((m.ranks id).call t)).hush).hasten now := by
  rcases hm.hurry_turn now hfactory htask hcall with hidle | hswap
  · rw [hidle]
  · rw [← hswap, ← part_turn hm.separate hfactory htask hcall]
    exact (hm.turn now factory t).hasten_hurry id now

/-- If the close is hastened after the turn of a call on the peer, it does not matter whether it was before. -/
theorem IsReached.hasten_turn (hm : m.IsReached) (now : Nat) (hfactory : Factory.AgreeOn id factory factory)
    (htask : m.tasks[t]? = some ⟨call, s⟩) (hcall : call.target? = some id) :
    ((((m.part id).hasten now).turn now factory ((m.ranks id).call t)).hush).hasten now =
      ((m.turn now factory t).part id).hasten now := by
  obtain ⟨m', hm', hcalls, hpart⟩ := hm.hurried id now
  obtain ⟨⟨s', htask'⟩, hrank⟩ := task_of_calls id hcalls htask
  have hsecond := hm'.hasten_turn_hurry now hfactory htask' hcall
  rw [hpart, hrank] at hsecond
  rw [part_turn hm.separate hfactory htask hcall, ← hm.hasten_turn_hurry now hfactory htask hcall]
  exact hsecond

/-- The close does not let a call on the peer go on, and does not stop it. -/
theorem IsReached.isReady_hurry (hm : m.IsReached) (now later : Nat) (htask : m.tasks[t]? = some ⟨call, s⟩)
    (hcall : call.target? = some id) :
    ((m.part id).hurry now).isReady later ((m.ranks id).call t) =
      (m.part id).isReady later ((m.ranks id).call t) := by
  rcases hm.hurry_cases id now with hidle | ⟨x, y, script, hx⟩
  · rw [hidle]
  · rw [hx.goes]
    exact (hx.apart t ⟨_, htask, ProxyCall.concerns_of_target? hcall⟩
      (ne_close_of_target htask hcall)).isReady later

/-- A call on the peer can go on just when it could have without the close. -/
theorem IsReached.isReady_hasten (hm : m.IsReached) (now later : Nat) (htask : m.tasks[t]? = some ⟨call, s⟩)
    (hcall : call.target? = some id) :
    ((m.part id).hasten now).isReady later ((m.ranks id).call t) = m.isReady later t := by
  obtain ⟨m', hm', hcalls, hpart⟩ := hm.hurried id now
  obtain ⟨⟨s', htask'⟩, hrank⟩ := task_of_calls id hcalls htask
  have hsecond := hm'.isReady_hurry now later htask' hcall
  rw [hpart, hrank] at hsecond
  rw [hasten, hsecond, hm.isReady_hurry now later htask hcall, part_isReady hm.separate htask hcall]

/-- When the close waits, it does not go on if it is hastened. -/
theorem IsReached.hasten_of_waiting (hm : m.IsReached) (id : PeerId) {now : Nat}
    (hwaits : m.isReady now (m.nth none 0) = false) : (m.part id).hasten now = m.part id := by
  have hidle : (m.part id).hurry now = m.part id := by
    rcases first_close m with ⟨s, htask⟩ | hnone
    · exact hurry_part_eq.trans (goOnClosing_of_not_ready hm.separate htask hwaits)
    · exact hurry_of_no_close hnone
  rw [hasten, hidle, hidle]

end ProxyMap

end Replica
