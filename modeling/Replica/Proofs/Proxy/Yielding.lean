import Mathlib.Data.List.Induction
import Replica.Proofs.Proxy.Closing
import Replica.Proofs.Proxy.PartOfCalls
import Replica.Proofs.Proxy.Settling

/-!
# Closes come last

A close bars the map to look-ups and resets, so in the line of an entry nobody but closes stands behind it
(`Yielding`). It is the first close that retires what is registered, of each peer one entry, and the
closes after it have nothing to do (`OneClose`).
-/

namespace Replica.ProxyMap

variable {may : Loss → Prop} {m m' : ProxyMap} {id : PeerId} {e : EntryId} {t u : TaskId} {now : Nat}
variable {factory : Factory} {entry : ProxyEntry} {s s₀ : ProxyStage} {call : ProxyCall}
variable {job : Retirement} {jobs : List Retirement} {a : ProxyAnswer}
variable {f : ProxyEntry → ProxyEntry} {creations : List Creation}

/-! ## Behind a close -/

/-- Behind a close there are only closes, and none stands in any line while the map is open. -/
structure Yielding (m : ProxyMap) : Prop where
  barred : m.closed = false → ∀ t, m.calls[t]? = some .close → m.wanted t = []
  last : ∀ (e : EntryId) (entry : ProxyEntry), m.entries[e]? = some entry →
    entry.queue.Pairwise fun t u => m.calls[t]? = some .close → m.calls[u]? = some .close

/-- On a new map nobody waits. -/
theorem Yielding.empty (name : String) : Yielding { name := name } where
  barred _ t ht := by cases ht
  last e entry found := by cases found

/-- What happens at an entry changes no call. -/
theorem calls_act : (m.act e f creations t s).calls = m.calls :=
  calls_setStage (m := { m.modifyEntry e f with creations })

/-- Only the call that it happens to may want other locks. -/
theorem wanted_act (hstage : m.stage? t = some s₀) :
    (m.act e f creations t s).wanted u = if t = u then s.locks else m.wanted u := by
  simp only [wanted, stage?_act hstage]
  split <;> rfl

/-- A task's call is found under its number. -/
theorem calls_of_task (htask : m.tasks[t]? = some ⟨call, s⟩) : m.calls[t]? = some call := by
  simp [calls, htask]

/-- Whoever stands in line has begun, and wants the lock. -/
theorem Consistent.wanted_of_mem (hm : m.Consistent) (found : m.entries[e]? = some entry)
    (hu : u ∈ entry.queue) : e ∈ m.wanted u := by
  have hcount := (hm.fits e entry found).demand u
  have hpos := List.count_pos_iff.mpr hu
  rw [hcount] at hpos
  exact List.count_pos_iff.mp hpos

/-- Only a call that was made wants a lock. -/
theorem lt_length_of_wanted (h : e ∈ m.wanted u) : u < m.calls.length := by
  by_contra hge
  have hnone : m.tasks[u]? = none := by
    simp only [calls, List.length_map] at hge
    exact List.getElem?_eq_none (Nat.not_lt.mp hge)
  simp [wanted, stage?, hnone] at h

/-- What happens at one entry keeps closes last if the queue there does, and no close comes to a lock of
an open map. -/
theorem Yielding.act (hy : m.Yielding) (hstage : m.stage? t = some s₀)
    (hlocks : m.closed = false → m.calls[t]? = some .close → s₀.locks = [] → s.locks = [])
    (hqueue : ∀ entry, m.entries[e]? = some entry →
      (f entry).queue.Pairwise fun t u => m.calls[t]? = some .close → m.calls[u]? = some .close) :
    (m.act e f creations t s).Yielding where
  barred hopen u hu := by
    rw [calls_act] at hu
    rw [wanted_act hstage]
    have hbarred := hy.barred hopen u hu
    split
    · next htu =>
      subst htu
      exact hlocks hopen hu ((wanted_eq hstage).symm.trans hbarred)
    · exact hbarred
  last x new hnew := by
    simp only [calls_act]
    obtain ⟨old, hold, rfl⟩ := getElem?_modify_eq_some_iff.mp hnew
    split
    · next hex =>
      subst hex
      exact hqueue old hold
    · exact hy.last x old hold

/-- Whoever stands in line moves up, or leaves it. -/
theorem Yielding.shorten (hy : m.Yielding) (hstage : m.stage? t = some s₀)
    (hlocks : s₀.locks = [] → s.locks = [])
    (hqueue : ∀ entry, m.entries[e]? = some entry → (f entry).queue.Sublist entry.queue) :
    (m.act e f creations t s).Yielding :=
  hy.act hstage (fun _ _ => hlocks) fun entry found =>
    List.Pairwise.sublist (hqueue entry found) (hy.last e entry found)

/-- A call gets in line: a close, or any call while the map is open. -/
theorem Yielding.lengthen (hy : m.Yielding) (hm : m.Consistent) (hstage : m.stage? t = some s₀)
    (hcall : m.calls[t]? = some .close ∧ m.closed = true ∨
      m.closed = false ∧ m.calls[t]? ≠ some .close) :
    (m.act e (.lock t) creations t s).Yielding := by
  refine hy.act hstage (fun hopen hclose _ => ?_) fun entry found => ?_
  · rcases hcall with ⟨-, hclosed⟩ | ⟨-, hne⟩
    · exact absurd (hopen.symm.trans hclosed) (by decide)
    · exact absurd hclose hne
  · rw [(hm.fits e entry found).noLineIfFree.queue_lock, List.pairwise_append]
    refine ⟨hy.last e entry found, List.pairwise_singleton _ _, fun u hu t' ht' hclose => ?_⟩
    rw [List.mem_singleton.mp ht']
    rcases hcall with ⟨hclose', -⟩ | ⟨hopen, -⟩
    · exact hclose'
    · have hwanted := hm.wanted_of_mem found hu
      rw [hy.barred hopen u hclose] at hwanted
      cases hwanted

/-- A call may go to a stage where it wants no lock, if it wanted none. -/
theorem Yielding.setStage (hy : m.Yielding) (hstage : m.stage? t = some s₀)
    (hlocks : s₀.locks = [] → s.locks = []) : (m.setStage t s).Yielding := by
  have hact : m.setStage t s = m.act m.entries.length id m.creations t s := by
    have hnone : m.entries.modify m.entries.length id = m.entries := List.modify_id _ _
    simp only [ProxyMap.act, modifyEntry, hnone]
  rw [hact]
  exact hy.shorten hstage hlocks fun entry found => .refl _

/-- A new entry has nobody at its lock. -/
theorem Yielding.enrol (hy : m.Yielding) (peer : Peer) : (m.enrol peer).Yielding where
  barred := hy.barred
  last x entry found := by
    rcases getElem?_concat_eq_some_iff.mp found with found | ⟨-, rfl⟩
    · exact hy.last x entry found
    · exact .nil

/-- An advance of a call keeps closes last. -/
theorem Advance.yielding (h : Advance may t m m') (hm : m.Consistent) (hy : m.Yielding) :
    m'.Yielding := by
  have htail : ∀ (g : ProxyEntry → ProxyEntry) entry, (g entry).queue = entry.queue →
      (g entry).unlock.queue.Sublist entry.queue := by
    intro g entry hqueue
    rw [ProxyEntry.queue_unlock, ← hqueue]
    exact List.sublist_append_right _ _
  have horder : ∀ (e : EntryId) (entry : ProxyEntry), m.entries[e]? = some entry →
      entry.NoLineIfFree := fun e entry found =>
    (hm.fits e entry found).noLineIfFree
  cases h with
  | start stage found owner empty isOpen =>
    exact hy.shorten stage (fun h => by cases h) fun entry found => .refl _
  | answer stage found owner cached =>
    exact hy.shorten stage (fun _ => rfl) fun entry _ => htail id entry rfl
  | @succeed e h now wake entry c stage found made =>
    exact hy.shorten stage (fun _ => rfl) fun entry _ =>
      htail (fun y => (y.install h).1) entry (ProxyEntry.install_queue h)
  | fail stage found made failure =>
    exact hy.shorten stage (fun _ => rfl) fun entry _ => htail ProxyEntry.giveUp entry rfl
  | leave loses stage looking found =>
    refine hy.shorten stage (fun _ => rfl) fun entry found => ?_
    rw [(horder _ entry found).queue_leave]
    exact List.erase_sublist
  | retire stage found owner done =>
    exact hy.shorten stage (fun h => by simp [List.filterMap_append] at h) fun entry _ =>
      htail (fun y => y.retire.1) entry ProxyEntry.retire_queue
  | @closed e h now wake pre post a stage =>
    have hconcluded : (m.concludeClose now h).Yielding := ⟨hy.barred, hy.last⟩
    have hstage : (m.concludeClose now h).stage? t =
        some (.retiring (pre ++ .closing e h wake :: post) a) := stage
    exact hconcluded.setStage hstage fun hnone => by simpa [List.filterMap_cons] using hnone
  | finish stage free ended => exact hy.setStage stage fun _ => (isCalm_of_ended ended).2
  | abandon loses stage found =>
    refine hy.shorten stage (fun h => by simp at h) fun entry found => ?_
    rw [(horder _ entry found).queue_leave]
    exact List.erase_sublist

/-- So does every move. -/
theorem Move.yielding (h : Move may t m m') (hm : m.Consistent) (hy : m.Yielding) : m'.Yielding := by
  cases h with
  | advance h => exact h.yielding hm hy
  | enrol absent => exact hy.enrol _
  | shut => exact ⟨(fun hopen => by cases hopen), hy.last⟩
  | call call new =>
    refine ⟨fun hopen u hu => ?_, fun e entry found => ?_⟩
    · simp only [wanted, stage?_call]
      split
      · rfl
      · next hne =>
        refine hy.barred hopen u ?_
        simp only [calls, List.map_append, List.map_cons, List.map_nil] at hu
        rcases getElem?_concat_eq_some_iff.mp hu with hu | ⟨heq, -⟩
        · exact hu
        · exact absurd (by simpa using heq) hne
    · refine (hy.last e entry found).imp_of_mem fun {t u} ht hu hyields => ?_
      have hlt := lt_length_of_wanted (hm.wanted_of_mem found ht)
      have hlt' := lt_length_of_wanted (hm.wanted_of_mem found hu)
      simp only [calls, List.map_append] at hlt hlt' hyields ⊢
      rw [List.getElem?_append_left hlt, List.getElem?_append_left hlt']
      exact hyields
  | join task isOpen registered found =>
    refine hy.lengthen hm (stage?_eq_some_iff.mpr ⟨_, task⟩) (.inr ⟨isOpen, ?_⟩)
    simp [calls_of_task task]
  | await task isClosed found =>
    exact hy.lengthen hm (stage?_eq_some_iff.mpr ⟨_, task⟩) (.inl ⟨calls_of_task task, isClosed⟩)
  | @renew call id e entry a b task resets isOpen registered found =>
    refine Yielding.enrol (m := m.act e (.lock t) m.creations t (.retiring [.locking e] b)) ?_ _
    refine hy.lengthen hm (stage?_eq_some_iff.mpr ⟨_, task⟩) (.inr ⟨isOpen, ?_⟩)
    rw [calls_of_task task]
    rintro ⟨⟩
    exact resets

/-- So closes come last at every moment. -/
theorem Yielding.reached (name : String) (events : List Event) : (reached name events).Yielding := by
  apply (Consistent.empty name).run_induct (P := Yielding)
  · intro t m m' hm hmoves hy
    exact hmoves.induct (fun _ _ hm hmove hy => hmove.yielding hm hy) hm hy
  · exact .empty name

/-! ## What calls are there -/

/-- Asking for locks changes no call. -/
theorem calls_foldl_lock {targets : List EntryId} :
    (targets.foldl (fun m e => m.modifyEntry e (.lock t)) m).calls = m.calls := by
  rw [calls, tasks_foldl_lock, calls]

/-- Beginning to retire changes no call. -/
theorem calls_beginRetiring {targets : List EntryId} : (m.beginRetiring now t targets a).calls = m.calls :=
  calls_continueRetiring.trans calls_foldl_lock

/-- Nor does beginning a reset. -/
theorem calls_beginReset : (m.beginReset now t id a).calls = m.calls := by
  have hrenew : (m.renew id).1.calls = m.calls := by
    unfold renew
    split
    · rfl
    · split
      · rfl
      · split <;> rfl
  exact calls_beginRetiring.trans hrenew

/-- Nor does beginning a look-up. -/
theorem calls_beginLookUp : (m.beginLookUp now factory t id).calls = m.calls := by
  unfold beginLookUp
  split
  · exact calls_setStage
  · split
    · exact calls_setStage
    · next e _ =>
      split
      · exact calls_setStage
      · have hqueued : ((m.modifyEntry e (.lock t)).setStage t (.locking e)).calls = m.calls :=
          calls_setStage (m := m.modifyEntry e (.lock t))
        dsimp only
        split
        · exact calls_create.trans hqueued
        · exact hqueued

/-- A new call comes after all others. -/
theorem calls_begin : (m.begin now factory call).calls = m.calls ++ [call] := by
  have henter : (m.enter call).calls = m.calls ++ [call] := by simp [calls, enter]
  unfold begin
  cases call with
  | lookUp id => exact calls_beginLookUp.trans henter
  | reset id => exact calls_beginReset.trans henter
  | repair id error reconnect =>
    dsimp only
    split
    · exact calls_beginReset.trans henter
    · exact calls_setStage.trans henter
  | close =>
    dsimp only
    split
    · exact calls_setStage.trans henter
    · exact (calls_beginRetiring (m := m.bar)).trans henter

/-- A call that is cancelled has been made all the same. -/
theorem calls_cancel : (m.cancel t).1.calls = m.calls := by
  unfold cancel
  split
  · exact calls_setStage (m := m.modifyEntry _ (.leave t))
  · exact calls_setStage (m := m.modifyEntry _ (.leave t))
  · refine calls_setStage.trans ?_
    rw [calls, tasks_foldl_abandon, calls]
  · rfl

/-! ## The first close -/

/-- Only the first close has anything to retire, and of each peer it retires one entry at most. -/
structure OneClose (m : ProxyMap) : Prop where
  opened : m.closed = false → .close ∉ m.calls
  first : ∀ t u, t < u → m.calls[t]? = some .close → m.calls[u]? = some .close → m.duties u = []
  single : ∀ t id, m.calls[t]? = some .close →
    ((m.duties t).map Retirement.entry).countP (m.isFor id) ≤ 1

/-- On a new map there is no close. -/
theorem OneClose.empty (name : String) : OneClose { name := name } where
  opened _ h := by cases h
  first t u _ ht := by cases ht
  single t id ht := by cases ht

/-- What a close has to do is read off its stage. -/
theorem duties_of_stage (hstage : m.stage? t = some s) : m.duties t = s.jobs := by
  simp [duties, hstage]

/-- What a close has to do is some peer's. -/
theorem Separate.hasEntry_of_duty (hm : m.Separate) (hclose : m.calls[t]? = some .close)
    (hjob : job ∈ m.duties t) : ∃ k, job.Within k m := by
  simp only [calls, List.getElem?_map, Option.map_eq_some_iff] at hclose
  obtain ⟨⟨call, s⟩, htask, rfl⟩ := hclose
  rw [duties_of_stage (stage?_eq_some_iff.mpr ⟨_, htask⟩)] at hjob
  exact within_of_retires (hm.tasks t _ htask) hjob

/-- A retirement stays with its entry. -/
theorem entry_turnRetirement : (m.turnRetirement now t job).2.entry = job.entry := by
  cases job with
  | locking e =>
    simp only [turnRetirement]
    split
    · cases found : m.entries[e]? with
      | none => simp [retire, found, Retirement.entry]
      | some entry =>
        rw [retire_eq_match found]
        cases entry.retire.2 <;> rfl
    · rfl
  | closing e h wake =>
    simp only [turnRetirement]
    split <;> rfl
  | finished e => rfl

/-- A turn leaves retirements with their entries. -/
theorem entries_turnRetirements :
    (m.turnRetirements now t jobs).2.map Retirement.entry = jobs.map Retirement.entry := by
  induction jobs generalizing m with
  | nil => rfl
  | cons job jobs ih => simp only [turnRetirements, List.map_cons, entry_turnRetirement, ih]

/-- A close that goes on has the same entries to see to, or nothing more to do. -/
theorem duties_continueRetiring (hstage : m.stage? t = some s) :
    (m.continueRetiring now t jobs a).duties t = [] ∨
      ((m.continueRetiring now t jobs a).duties t).map Retirement.entry = jobs.map Retirement.entry := by
  have hstage' : (m.turnRetirements now t jobs).1.stage? t = some s := stage?_turnRetirements.trans hstage
  dsimp only [continueRetiring]
  split
  · exact .inl (duties_of_stage (stage?_setStage_self hstage'))
  · right
    rw [duties_of_stage (stage?_setStage_self hstage')]
    exact entries_turnRetirements

/-- An entry stays with its peer. -/
theorem isFor_of_grows {k : PeerId} (hgrows : Grows m m') (he : m.HasEntry k e) :
    m'.isFor id e = m.isFor id e := by
  obtain ⟨entry, found, hid⟩ := he
  obtain ⟨entry', found', hpeer, -⟩ := hgrows.entries _ entry found
  rw [isFor_of_hasEntry id ⟨entry, found, hid⟩, isFor_of_hasEntry id ⟨entry', found', hpeer ▸ hid⟩]

/-- A close that begins has nothing to retire unless the map was open. -/
theorem duties_begin_close (now : Nat) (factory : Factory) :
    (m.begin now factory .close).duties m.tasks.length = [] ∨ m.closed = false ∧
      ((m.begin now factory .close).duties m.tasks.length).map Retirement.entry = m.registry.values := by
  have hstage : (m.enter .close).stage? m.tasks.length = some (.retiring [] .done) :=
    stage?_eq_some_iff.mpr ⟨_, tasks_enter _⟩
  unfold begin
  dsimp only
  split
  · exact .inl (duties_of_stage (stage?_setStage_self hstage))
  · next hopen =>
    refine (duties_continueRetiring (s := .retiring [] .done) ?_).imp_right fun h =>
      ⟨by simpa using hopen, h.trans ?_⟩
    · rw [stage?_foldl_lock]
      exact hstage
    · simp [Function.comp_def, Retirement.entry]

/-- A map is closed as soon as a close has begun. -/
theorem closed_begin_close (now : Nat) (factory : Factory) (hc : m.Consistent) :
    (m.begin now factory .close).closed = true := by
  cases hopen : m.closed with
  | true =>
    have hmoves : Moves (fun _ => True) m.tasks.length m (m.begin now factory .close) := begin_moves hc
    exact (hmoves.grows hc).closed hopen
  | false =>
    obtain ⟨mid, hfirst, -, hrest⟩ := begin_close_moves (fun _ => True) now factory hc hopen
    have hbar := (bar_moves (fun _ => True) m).consistent hc
    have hmid := hfirst.consistent hbar
    exact (hrest.moves.grows hmid).closed ((hfirst.grows hbar).closed rfl)

namespace OneClose

/-- What leaves the closes to what they retire, and begins none. -/
theorem frame (ho : m.OneClose) (hm : m.Separate) (hgrows : Grows m m') (new : List ProxyCall)
    (hcalls : m'.calls = m.calls ++ new) (hnew : .close ∉ new)
    (hduties : ∀ u, m.calls[u]? = some .close →
      m'.duties u = [] ∨ (m'.duties u).map Retirement.entry = (m.duties u).map Retirement.entry) :
    m'.OneClose := by
  have hold : ∀ u : TaskId, m'.calls[u]? = some ProxyCall.close → m.calls[u]? = some ProxyCall.close := by
    intro u hu
    rw [hcalls, List.getElem?_append] at hu
    split at hu
    · exact hu
    · exact absurd (List.mem_of_getElem? hu) hnew
  refine ⟨fun hopen hmem => ?_, fun t u hlt ht hu => ?_, fun t id ht => ?_⟩
  · cases hclosed : m.closed with
    | true => exact absurd (hopen.symm.trans (hgrows.closed hclosed)) (by decide)
    | false =>
      rw [hcalls] at hmem
      exact (List.mem_append.mp hmem).elim (ho.opened hclosed) hnew
  · have hnone := ho.first t u hlt (hold t ht) (hold u hu)
    rcases hduties u (hold u hu) with hd | hd
    · exact hd
    · simpa [hnone] using hd
  · rcases hduties t (hold t ht) with hd | hd
    · simp [hd]
    · refine (Nat.le_of_eq ?_).trans (ho.single t id (hold t ht))
      rw [hd]
      apply List.countP_congr
      intro e he
      obtain ⟨job, hjob, rfl⟩ := List.mem_map.mp he
      obtain ⟨k, hk⟩ := hm.hasEntry_of_duty (hold t ht) hjob
      rw [isFor_of_grows hgrows hk.hasEntry]

/-- The first close begins. -/
theorem begin_close (now : Nat) (factory : Factory) (ho : m.OneClose) (hm : m.Separate) (hc : m.Consistent) :
    (m.begin now factory .close).OneClose := by
  have hmoves : Moves (fun _ => True) m.tasks.length m (m.begin now factory .close) := begin_moves hc
  have hgrows := hmoves.grows hc
  have hlength : m.calls.length = m.tasks.length := by simp [calls]
  have hcalls : ∀ u, (m.begin now factory .close).calls[u]? = some .close →
      m.calls[u]? = some .close ∨ u = m.tasks.length := by
    intro u hu
    rw [calls_begin] at hu
    exact (getElem?_concat_eq_some_iff.mp hu).imp_right fun h => h.1.trans hlength
  have hsame : ∀ u, m.calls[u]? = some .close → (m.begin now factory .close).duties u = m.duties u := by
    intro u hu
    have hne : u ≠ m.tasks.length := hlength ▸ Nat.ne_of_lt (lt_length_of_getElem? hu)
    rw [duties, duties, hmoves.stage?_of_ne hc hne]
  have hnew := duties_begin_close now factory (m := m)
  have hclosed := closed_begin_close now factory hc
  refine ⟨fun hopen => absurd (hopen.symm.trans hclosed) (by decide), fun t u hlt ht hu => ?_,
    fun t id ht => ?_⟩
  · rcases hcalls u hu with hu | rfl
    · have ht : m.calls[t]? = some .close := (hcalls t ht).resolve_right fun heq => by
        have hlt' : u < m.tasks.length := hlength ▸ lt_length_of_getElem? hu
        exact Nat.lt_asymm hlt' (heq ▸ hlt)
      rw [hsame u hu, ho.first t u hlt ht hu]
    · have ht : m.calls[t]? = some .close := (hcalls t ht).resolve_right (Nat.ne_of_lt hlt)
      refine hnew.resolve_right fun h => ho.opened h.1 (List.mem_of_getElem? ht)
  · have hcount : ∀ targets : List EntryId, (∀ e ∈ targets, ∃ k, m.HasEntry k e) →
        targets.countP ((m.begin now factory .close).isFor id) = targets.countP (m.isFor id) := by
      intro targets htargets
      apply List.countP_congr
      intro e he
      obtain ⟨k, hk⟩ := htargets e he
      rw [isFor_of_grows hgrows hk]
    rcases hcalls t ht with ht | rfl
    · rw [hsame t ht, hcount]
      · exact ho.single t id ht
      · intro e he
        obtain ⟨job, hjob, rfl⟩ := List.mem_map.mp he
        obtain ⟨k, hk⟩ := hm.hasEntry_of_duty ht hjob
        exact ⟨k, hk.hasEntry⟩
    · rcases hnew with hd | ⟨-, hd⟩
      · simp [hd]
      · rw [hd, hcount, List.countP_eq_length_filter, hm.values_filter]
        · cases m.registry.get? id <;> simp
        · exact fun e he => hm.exists_hasEntry he

/-- Every event leaves at most one close with anything to do. -/
theorem step (ho : m.OneClose) (hm : m.Separate) (hc : m.Consistent) (event : Event) :
    (m.step event).OneClose := by
  have hmoves := step_moves (fun _ => True) hc event fun _ _ => trivial
  have hgrows := hmoves.grows hc
  cases event with
  | register peer =>
    refine ho.frame hm hgrows [] ?_ (by simp) fun u _ => .inr ?_
    · rw [List.append_nil]
      simp only [ProxyMap.step, register]
      split <;> rfl
    · simp only [ProxyMap.step, register]
      split <;> rfl
  | begin now factory call =>
    by_cases hcall : call = .close
    · subst hcall
      exact begin_close now factory ho hm hc
    · refine ho.frame hm hgrows [call] calls_begin (by simpa using Ne.symm hcall) fun u hu => .inr ?_
      have hlt : u < m.tasks.length := by simpa [calls] using lt_length_of_getElem? hu
      have hstage : (m.step (.begin now factory call)).stage? u = m.stage? u :=
        hmoves.stage?_of_ne hc (Nat.ne_of_lt hlt)
      rw [duties, duties, hstage]
  | turn now factory t =>
    refine ho.frame hm hgrows [] (calls_turn.trans (List.append_nil _).symm) (by simp) fun u hu => ?_
    by_cases hut : u = t
    · subst hut
      simp only [calls, List.getElem?_map, Option.map_eq_some_iff] at hu
      obtain ⟨⟨call, s⟩, htask, rfl⟩ := hu
      have hwithin : s.Retires m := hm.tasks u _ htask
      have hstage := stage?_eq_some_iff.mpr ⟨_, htask⟩
      simp only [ProxyMap.step, ProxyMap.turn, hstage]
      cases s with
      | retiring jobs a =>
        rw [duties_of_stage hstage]
        exact duties_continueRetiring hstage
      | locking e => exact hwithin.elim
      | creating e h wake => exact hwithin.elim
      | finished | cancelled => exact .inr rfl
    · have hstage : (m.step (.turn now factory t)).stage? u = m.stage? u := hmoves.stage?_of_ne hc hut
      rw [duties, duties, hstage]
      exact .inr rfl
  | cancel t =>
    refine ho.frame hm hgrows [] (calls_cancel.trans (List.append_nil _).symm) (by simp) fun u hu => ?_
    by_cases hut : u = t
    · subst hut
      rcases cancel_cases (m := m) (t := u) with hsame | hcancelled
      · rw [ProxyMap.step, duties, duties, hsame]
        exact .inr rfl
      · exact .inl (duties_of_stage hcancelled)
    · rw [duties, duties, show (m.step (.cancel t)).stage? u = m.stage? u from hmoves.stage?_of_ne hc hut]
      exact .inr rfl

/-- So it is at every moment of a run. -/
theorem reached (name : String) (events : List Event) : (reached name events).OneClose := by
  induction events using List.reverseRecOn with
  | nil => exact .empty name
  | append_singleton events event ih =>
    rw [reached_concat]
    exact ih.step (Separate.reached name events) (Consistent.reached name events) event

end OneClose

end Replica.ProxyMap
