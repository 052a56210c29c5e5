import Replica.Proofs.Proxy.PartOfTurns

/-!
# What calls and cancellations do to a peer's part

A call on the peer that begins or is cancelled does to the peer's part of the map what it does to the map
(`part_begin`, `part_cancel`), and a call on another peer does nothing to it. Of the entries that a close
retires, the part has only the one that is registered for the peer (`part_begin_close`).
-/

namespace Replica.ProxyMap

variable {m : ProxyMap} {id k : PeerId} {e : EntryId} {t : TaskId} {now : Nat}
variable {factory factory' : Factory} {s : ProxyStage} {call : ProxyCall} {a : ProxyAnswer}
variable {targets : List EntryId} {job : Retirement} {jobs : List Retirement}

/-! ## Locks -/

/-- Whether the entry is the peer's. -/
def isFor (id : PeerId) (m : ProxyMap) (e : EntryId) : Bool := m.entries[e]?.any (·.peer.id = id)

/-- An entry is for the one peer that it belongs to. -/
theorem isFor_of_hasEntry (id : PeerId) (he : m.HasEntry k e) : m.isFor id e = decide (k = id) := by
  obtain ⟨entry, found, rfl⟩ := he
  simp [isFor, found]

/-- Asking for a lock does not change whose entries are whose. -/
theorem isFor_lock : (m.modifyEntry e (.lock t)).isFor id = m.isFor id := by
  funext x
  unfold isFor modifyEntry
  rw [List.getElem?_modify]
  cases m.entries[x]? with
  | none => rfl
  | some entry =>
    by_cases hx : e = x
    · simp [hx, ProxyEntry.lock_peer]
    · simp [hx]

/-- Neither does asking for several locks. -/
theorem isFor_foldl_lock : (targets.foldl (fun m e => m.modifyEntry e (.lock t)) m).isFor id = m.isFor id := by
  induction targets generalizing m with
  | nil => rfl
  | cons e targets ih => exact ih.trans isFor_lock

/-- Whoever goes for the lock of an entry has something to do for its peer. -/
theorem filter_regards_locking : (targets.map Retirement.locking).filter (m.regards id) =
    (targets.filter (m.isFor id)).map .locking := by
  rw [List.filter_map]
  rfl

/-- Asking for the lock of the peer's entry does the same in the peer's part. -/
theorem part_lock (he : m.HasEntry id e) : (m.modifyEntry e (.lock t)).part id =
    (m.part id).modifyEntry ((m.ranks id).entry e) (.lock ((m.ranks id).call t)) := by
  obtain ⟨entry, found, hid⟩ := he
  exact part_modifyEntry (fun _ => ProxyEntry.lock_peer) found hid ProxyEntry.rename_lock

/-- Asking for the lock of another peer's entry is not seen in the part. -/
theorem part_lock_of_ne (he : m.HasEntry k e) (hk : k ≠ id) :
    (m.modifyEntry e (.lock t)).part id = m.part id :=
  part_modifyEntry_of_ne (fun _ => ProxyEntry.lock_peer) fun _ found => he.eq found ▸ hk

/-- Numbers in the part stay when locks are asked for. -/
theorem ranks_foldl_lock :
    (targets.foldl (fun m e => m.modifyEntry e (.lock t)) m).ranks id = m.ranks id := by
  induction targets generalizing m with
  | nil => rfl
  | cons e targets ih => exact ih.trans (ranks_modifyEntry fun _ => ProxyEntry.lock_peer)

/-- A call goes for the locks of entries of all peers. -/
theorem part_foldl_lock (id : PeerId) (t : TaskId) (htargets : ∀ e ∈ targets, ∃ k, m.HasEntry k e) :
    (targets.foldl (fun m e => m.modifyEntry e (.lock t)) m).part id =
      ((targets.filter (m.isFor id)).map (m.ranks id).entry).foldl
        (fun m' e => m'.modifyEntry e (.lock ((m.ranks id).call t))) (m.part id) := by
  induction targets generalizing m with
  | nil => rfl
  | cons e targets ih =>
    have hkeeps : Keeps m (m.modifyEntry e (.lock t)) := keeps_modifyEntry fun _ => ProxyEntry.lock_peer
    have hranks : (m.modifyEntry e (.lock t)).ranks id = m.ranks id :=
      ranks_modifyEntry fun _ => ProxyEntry.lock_peer
    have hrest := ih (m := m.modifyEntry e (.lock t)) fun x hx => by
      obtain ⟨k, hk⟩ := htargets x (List.mem_cons_of_mem _ hx)
      exact ⟨k, hkeeps.entry k x hk⟩
    rw [isFor_lock, hranks] at hrest
    obtain ⟨k, he⟩ := htargets e List.mem_cons_self
    have hfor := isFor_of_hasEntry id he
    rw [List.foldl_cons, hrest]
    by_cases hk : k = id
    · rw [List.filter_cons_of_pos (by simp [hfor, hk]), List.map_cons, List.foldl_cons,
        part_lock (hk ▸ he)]
    · rw [List.filter_cons_of_neg (by simp [hfor, hk]), part_lock_of_ne he hk]

/-! ## Look-ups -/

/-- A look-up of the peer goes for a lock. -/
theorem part_queue (htask : m.tasks[t]? = some ⟨call, s⟩) (hcall : call.target? = some id)
    (he : m.HasEntry id e) : ((m.modifyEntry e (.lock t)).setStage t (.locking e)).part id =
      ((m.part id).modifyEntry ((m.ranks id).entry e) (.lock ((m.ranks id).call t))).setStage
        ((m.ranks id).call t) (.locking ((m.ranks id).entry e)) := by
  have hranks : (m.modifyEntry e (.lock t)).ranks id = m.ranks id :=
    ranks_modifyEntry fun _ => ProxyEntry.lock_peer
  rw [part_setStage (m := m.modifyEntry e (.lock t)) htask (ProxyCall.concerns_of_target? hcall),
    hranks, part_lock he]
  simp only [partOfStage, hcall]
  rfl

/-- A look-up of the peer begins in the part as it does in the map. -/
theorem part_beginLookUp (now : Nat) (hm : m.Separate) (hfactory : Factory.AgreeOn id factory factory')
    (htask : m.tasks[t]? = some ⟨.lookUp id, s⟩) : (m.beginLookUp now factory t id).part id =
      (m.part id).beginLookUp now factory' ((m.ranks id).call t) id := by
  have hfinish : ∀ a, (m.finish now t a).part id = _ := fun a => part_finish htask rfl
  have hclosed : (m.part id).closed = m.closed := rfl
  unfold beginLookUp
  simp only [part_get?, part_ids, hclosed, if_true]
  split
  · exact hfinish _
  · cases hget : m.registry.get? id with
    | none => exact hfinish _
    | some e =>
      obtain ⟨entry, found, hpeer⟩ := hm.registry _ (Registry.mem_of_get? hget)
      simp only at found hpeer
      have he : m.HasEntry id e := ⟨entry, found, hpeer⟩
      simp only [Option.map_some, found, part_entry found hpeer, Option.bind_some,
        ProxyEntry.rename_slot]
      cases hslot : entry.slot with
      | some h => exact hfinish _
      | none =>
        -- both go for the lock, and get it or do not
        have hqueued := hm.queue htask rfl he
        have hkeeps : Keeps m ((m.modifyEntry e (.lock t)).setStage t (.locking e)) :=
          (keeps_modifyEntry fun _ => ProxyEntry.lock_peer).trans keeps_setStage
        have htask' : ((m.modifyEntry e (.lock t)).setStage t (.locking e)).tasks[t]? =
            some ⟨.lookUp id, .locking e⟩ := getElem?_modify_eq_some_iff.mpr ⟨_, htask, if_pos rfl⟩
        have hranks : ((m.modifyEntry e (.lock t)).setStage t (.locking e)).ranks id = m.ranks id :=
          ranks_setStage.trans (ranks_modifyEntry fun _ => ProxyEntry.lock_peer)
        have hpart := part_queue htask rfl he
        have hc : m.HasCall id t := ⟨_, htask, ProxyCall.concerns_of_target? rfl⟩
        have howns := part_owns hqueued (hkeeps.entry id e he) (hkeeps.call id t hc)
        have hcreate :
            (((m.modifyEntry e (.lock t)).setStage t (.locking e)).create now factory t e).part id = _ :=
          part_create hqueued hfactory htask' rfl (hkeeps.entry id e he)
        rw [hpart, hranks] at howns hcreate
        simp only [Option.map_none, howns]
        split
        · exact hcreate
        · exact hpart

/-- A look-up of another peer. -/
theorem part_beginLookUp_of_ne (hm : m.Separate) (htask : m.tasks[t]? = some ⟨.lookUp k, s⟩)
    (hk : k ≠ id) : (m.beginLookUp now factory t k).part id = m.part id := by
  have hc : (ProxyCall.lookUp k).concerns id = false := by
    simp [ProxyCall.concerns, ProxyCall.target?, hk]
  have hfinish : ∀ a, (m.finish now t a).part id = m.part id := fun a => part_finish_of_ne htask hc
  unfold beginLookUp
  split
  · exact hfinish _
  · split
    · exact hfinish _
    · next e hget =>
      have he := hm.registry _ (Registry.mem_of_get? hget)
      split
      · exact hfinish _
      · have hqueued := hm.queue htask rfl he
        have htask' : ((m.modifyEntry e (.lock t)).setStage t (.locking e)).tasks[t]? =
            some ⟨.lookUp k, .locking e⟩ := getElem?_modify_eq_some_iff.mpr ⟨_, htask, if_pos rfl⟩
        have hpart : ((m.modifyEntry e (.lock t)).setStage t (.locking e)).part id = m.part id := by
          refine (part_setStage_of_ne fun task htask'' => ?_).trans (part_lock_of_ne he hk)
          cases htask.symm.trans htask''
          exact hc
        have hkeeps : Keeps m ((m.modifyEntry e (.lock t)).setStage t (.locking e)) :=
          (keeps_modifyEntry fun _ => ProxyEntry.lock_peer).trans keeps_setStage
        dsimp only
        split
        · exact (part_create_of_ne hqueued htask' hc (hkeeps.entry k e he) hk).trans hpart
        · exact hpart

/-! ## Resets -/

/-- A fresh entry for the peer. -/
theorem part_renew (hm : m.Separate) : (m.part id).renew id =
    ((m.renew id).1.part id, (m.renew id).2.map ((m.renew id).1.ranks id).entry) := by
  have hclosed : (m.part id).closed = m.closed := rfl
  unfold renew
  simp only [part_get?, hclosed, if_true]
  cases hget : m.registry.get? id with
  | none => rfl
  | some e =>
    obtain ⟨entry, found, hpeer⟩ := hm.registry _ (Registry.mem_of_get? hget)
    simp only at found hpeer
    simp only [Option.map_some, found, part_entry found hpeer]
    by_cases hclosed' : m.closed = true
    · rw [if_pos hclosed', if_pos hclosed']
      rfl
    · have hrank : ((m.enrol entry.peer).ranks id).entry e = (m.ranks id).entry e :=
        countPBefore_append (Nat.le_of_lt (HasEntry.lt ⟨entry, found, hpeer⟩))
      have henrol := part_enrol hm hpeer
      rw [enrol, enrol, hpeer] at henrol
      rw [enrol, hpeer] at hrank
      simp only [if_neg hclosed', ProxyEntry.rename_peer, Option.map_some, hrank, henrol]
      rfl

/-- A fresh entry for another peer. -/
theorem part_renew_of_ne (hm : m.Separate) (hk : k ≠ id) : (m.renew k).1.part id = m.part id := by
  unfold renew
  split
  · rfl
  · next e hget =>
    split
    · rfl
    · obtain ⟨entry, found, hpeer⟩ := hm.registry _ (Registry.mem_of_get? hget)
      simp only at found hpeer
      have henrol : (m.enrol entry.peer).part id = m.part id :=
        part_enrol_of_ne hm (hpeer ▸ hk) (by simp [hpeer, hget])
      rw [enrol, hpeer] at henrol
      simp only [found]
      exact henrol

/-- A reset of the peer goes for locks. -/
theorem part_beginRetiring (hm : m.Separate) (htask : m.tasks[t]? = some ⟨call, s⟩)
    (hcall : call.target? = some id) (htargets : ∀ e ∈ targets, m.HasEntry id e) :
    (m.beginRetiring now t targets a).part id = ((m.part id).beginRetiring now ((m.ranks id).call t)
      (targets.map (m.ranks id).entry) (a.rename (m.ranks id))).hush := by
  have hc : m.HasCall id t := ⟨_, htask, ProxyCall.concerns_of_target? hcall⟩
  obtain ⟨hlocked, hkeeps⟩ := hm.foldl_lock fun e he => ⟨id, htargets e he, hc⟩
  have hall : targets.filter (m.isFor id) = targets :=
    List.filter_eq_self.mpr fun e he => by simp [isFor_of_hasEntry id (htargets e he)]
  have hpart := part_foldl_lock id t fun e he => ⟨id, htargets e he⟩
  rw [hall] at hpart
  unfold beginRetiring
  have hcontinue := part_continueRetiring now (targets.map .locking) a hlocked
    (by rw [tasks_foldl_lock]; exact htask) hcall fun job hjob => by
      obtain ⟨e, he, rfl⟩ := List.mem_map.mp hjob
      exact hkeeps.entry id e (htargets e he)
  rw [hcontinue, ranks_foldl_lock, hpart, List.map_map, List.map_map]
  rfl

/-- A reset of the peer begins in the part as it does in the map. -/
theorem part_beginReset (now : Nat) (a : ProxyAnswer) (hm : m.Separate) (htask : m.tasks[t]? = some ⟨call, s⟩)
    (hcall : call.target? = some id) (ha : ∀ ρ, a.rename ρ = a) : (m.beginReset now t id a).part id =
      ((m.part id).beginReset now ((m.ranks id).call t) id a).hush := by
  obtain ⟨hrenewed, hkeeps, htasks, hentry⟩ := hm.renew id
  have htask' : (m.renew id).1.tasks[t]? = some ⟨call, s⟩ := by
    rw [htasks]
    exact htask
  have hcalls : ((m.renew id).1.ranks id).call = (m.ranks id).call := by
    simp only [ranks, htasks]
  have htargets : ∀ e ∈ (m.renew id).2.toList, (m.renew id).1.HasEntry id e := fun e he =>
    hkeeps.entry id e (hentry e (Option.mem_toList.mp he))
  have hmap : ((m.renew id).2.map ((m.renew id).1.ranks id).entry).toList =
      (m.renew id).2.toList.map ((m.renew id).1.ranks id).entry := by
    cases (m.renew id).2 <;> rfl
  unfold beginReset
  rw [part_renew hm]
  dsimp only
  rw [hmap, part_beginRetiring hrenewed htask' hcall htargets, ha, hcalls]

/-- A reset of another peer goes on. -/
theorem part_continueRetiring_of_ne (hm : m.Separate) (htask : m.tasks[t]? = some ⟨call, s⟩)
    (hcall : call.concerns id = false) (hjobs : ∀ job ∈ jobs, job.Within k m) (hk : k ≠ id) :
    (m.continueRetiring now t jobs a).part id = m.part id := by
  have htask' : (m.turnRetirements now t jobs).1.tasks[t]? = some ⟨call, s⟩ := by
    rw [tasks_turnRetirements]
    exact htask
  have hturned : (m.turnRetirements now t jobs).1.part id = m.part id :=
    part_turnRetirements_of_ne hm hjobs hk
  dsimp only [continueRetiring]
  split
  · exact (part_finish_of_ne htask' hcall).trans hturned
  · refine (part_setStage_of_ne fun task htask'' => ?_).trans hturned
    cases htask'.symm.trans htask''
    exact hcall

/-- A reset of another peer begins without being seen in the part. -/
theorem part_beginReset_of_ne (hm : m.Separate) (htask : m.tasks[t]? = some ⟨call, s⟩)
    (hcall : call.target? = some k) (hk : k ≠ id) : (m.beginReset now t k a).part id = m.part id := by
  have hc : call.concerns id = false := by simp [ProxyCall.concerns, hcall, hk]
  obtain ⟨hrenewed, hkeeps, htasks, hentry⟩ := hm.renew k
  have htask' : (m.renew k).1.tasks[t]? = some ⟨call, s⟩ := by
    rw [htasks]
    exact htask
  have htargets : ∀ e ∈ (m.renew k).2.toList, (m.renew k).1.HasEntry k e := fun e he =>
    hkeeps.entry k e (hentry e (Option.mem_toList.mp he))
  obtain ⟨hlocked, hkeeps'⟩ := hrenewed.foldl_lock (t := t) fun e he =>
    ⟨k, htargets e he, _, htask', ProxyCall.concerns_of_target? hcall⟩
  have hnone : (m.renew k).2.toList.filter ((m.renew k).1.isFor id) = [] :=
    List.filter_eq_nil_iff.mpr fun e he => by simp [isFor_of_hasEntry id (htargets e he), hk]
  have hpart := part_foldl_lock id t fun e he => ⟨k, htargets e he⟩
  rw [hnone] at hpart
  unfold beginReset beginRetiring
  refine (part_continueRetiring_of_ne hlocked (by rw [tasks_foldl_lock]; exact htask') hc
    (fun job hjob => ?_) hk).trans (hpart.trans (part_renew_of_ne hm hk))
  obtain ⟨e, he, rfl⟩ := List.mem_map.mp hjob
  exact hkeeps'.entry k e (htargets e he)

/-! ## Beginnings -/

/-- The number of a call that has just begun. -/
theorem ranks_enter_length (m : ProxyMap) (id : PeerId) (call : ProxyCall) :
    ((m.enter call).ranks id).call m.tasks.length = (m.part id).tasks.length :=
  (countPBefore_append (Nat.le_refl _)).trans length_part_tasks.symm

/-- A call on the peer begins. -/
theorem part_begin (hm : m.Separate) (hfactory : Factory.AgreeOn id factory factory')
    (hcall : call.target? = some id) :
    (m.begin now factory call).part id = ((m.part id).begin now factory' call).hush := by
  have hentered := hm.enter call
  have htask := tasks_enter (m := m) call
  have hpart := part_enter hm (ProxyCall.concerns_of_target? hcall)
  have hnumber := ranks_enter_length m id call
  unfold begin
  cases call with
  | lookUp id' =>
    cases hcall
    have hbegin := part_beginLookUp now hentered hfactory htask
    rw [hpart, hnumber] at hbegin
    exact hush_part.symm.trans (congrArg hush hbegin)
  | reset id' =>
    cases hcall
    have hbegin := part_beginReset now .done hentered htask rfl fun _ => rfl
    rw [hpart, hnumber] at hbegin
    exact hbegin
  | repair id' error reconnect =>
    cases hcall
    have hbegin := part_beginReset now (.repaired true) hentered htask rfl fun _ => rfl
    have hfinish : ((m.enter (.repair id error reconnect)).finish now m.tasks.length
        (.repaired false)).part id = _ :=
      part_finish htask rfl
    rw [hpart, hnumber] at hbegin hfinish
    dsimp only
    split
    · exact hbegin
    · exact hfinish
  | close => cases hcall

/-- A call on another peer begins. -/
theorem part_begin_of_ne (hm : m.Separate) (hcall : call.target? = some k) (hk : k ≠ id) :
    (m.begin now factory call).part id = m.part id := by
  have hc : call.concerns id = false := by simp [ProxyCall.concerns, hcall, hk]
  have hentered := hm.enter call
  have htask := tasks_enter (m := m) call
  have hpart := part_enter_of_ne hm hc
  unfold begin
  cases call with
  | lookUp k' =>
    cases hcall
    exact (part_beginLookUp_of_ne hentered htask hk).trans hpart
  | reset k' =>
    cases hcall
    exact (part_beginReset_of_ne hentered htask rfl hk).trans hpart
  | repair k' error reconnect =>
    cases hcall
    dsimp only
    split
    · exact (part_beginReset_of_ne hentered htask rfl hk).trans hpart
    · exact (part_finish_of_ne htask hc).trans hpart
  | close => cases hcall

/-- What the beginning of a close comes to for a peer. -/
def beginClosing (now : Nat) (id : PeerId) (m : ProxyMap) : ProxyMap :=
  if m.closed then m.enter .close
  else
    let targets := (m.registry.get? id).toList
    ((targets.foldl (fun m' e => m'.modifyEntry e (.lock m.tasks.length)) m.bar).setStage m.tasks.length
      (.retiring (targets.map .locking) .done)).goOnClosing now m.tasks.length

/-- The part of a map that is barred is barred. -/
theorem part_bar (hm : m.Separate) : m.bar.part id = (m.part id).bar := by
  have hentered : (m.enter .close).part id = (m.part id).enter .close := part_enter hm rfl
  exact congrArg (fun m' : ProxyMap => { m' with closed := true }) hentered

/-- Of the registered entries, one is the peer's, if it is registered at all. -/
theorem Separate.values_filter (hm : m.Separate) :
    m.registry.values.filter (m.isFor id) = (m.registry.get? id).toList := by
  rw [← hm.sorted.filter_eq, Registry.values, List.filter_map]
  congr 1
  apply List.filter_congr
  intro p hp
  exact isFor_of_hasEntry id (hm.registry p hp)

/-- The entry of the peer that a close goes for is the one that the part has registered. -/
theorem registered_of_part (hm : m.Separate) : (m.registry.values.filter (m.isFor id)).map (m.ranks id).entry =
    ((m.part id).registry.get? id).toList := by
  rw [hm.values_filter, part_get?]
  cases m.registry.get? id <;> simp

/-- A close has the entries of all peers to retire. -/
theorem Separate.setStage_locking (hm : m.Separate) (htask : m.tasks[t]? = some ⟨.close, s⟩)
    (htargets : ∀ e ∈ targets, ∃ k, m.HasEntry k e) :
    (m.setStage t (.retiring (targets.map .locking) a)).Separate := by
  apply hm.setStage
  intro task htask'
  cases htask.symm.trans htask'
  intro job hjob
  obtain ⟨e, he, rfl⟩ := List.mem_map.mp hjob
  exact htargets e he

/-- A close begins in the part with the peer's own entry only. -/
theorem part_begin_close (hm : m.Separate) :
    (m.begin now factory .close).part id = (m.part id).beginClosing now id := by
  have hentered := hm.enter .close
  have htask := tasks_enter (m := m) .close
  have hnumber := ranks_enter_length m id .close
  have hpart : (m.enter .close).part id = (m.part id).enter .close := part_enter hm rfl
  have hclosed : (m.part id).closed = m.closed := rfl
  unfold begin beginClosing
  dsimp only
  rw [hclosed]
  split
  · -- there is nothing to retire, and so it does not matter that the close is over
    refine (part_setStage htask rfl).trans ?_
    rw [hpart, hnumber]
    exact setStage_self (stage?_eq_some_iff.mpr ⟨.close, tasks_enter .close⟩)
  · have hvalues : ∀ e ∈ m.registry.values, ∃ k, m.bar.HasEntry k e := fun e he => hm.exists_hasEntry he
    obtain ⟨hlocked, hkeeps⟩ := hm.bar.foldl_lock (t := m.tasks.length) fun e he => by
      obtain ⟨k, hk⟩ := hvalues e he
      exact ⟨k, hk, _, htask, rfl⟩
    have hpart' := part_foldl_lock id m.tasks.length hvalues
    generalize hmid : m.registry.values.foldl (fun m' e => m'.modifyEntry e (.lock m.tasks.length)) m.bar = mid
      at hlocked hkeeps hpart'
    have hranks : mid.ranks id = m.bar.ranks id := hmid ▸ ranks_foldl_lock
    have hfor : mid.isFor id = m.isFor id := hmid ▸ isFor_foldl_lock
    have htask' : mid.tasks[m.tasks.length]? = some ⟨.close, .retiring [] .done⟩ := by
      rw [← hmid, tasks_foldl_lock]
      exact htask
    -- what the close has to retire of the peer
    have htargets : ((m.registry.values.map Retirement.locking).filter (mid.regards id)).map
        (Retirement.rename (mid.ranks id)) = ((m.part id).registry.get? id).toList.map Retirement.locking := by
      rw [filter_regards_locking, hfor, ← registered_of_part hm, List.map_map, List.map_map, hranks]
      rfl
    have hqueued : (mid.setStage m.tasks.length
        (.retiring (m.registry.values.map .locking) .done)).Separate :=
      hlocked.setStage_locking htask' fun e he => by
        obtain ⟨k, hk⟩ := hvalues e he
        exact ⟨k, hkeeps.entry k e hk⟩
    have hstage : (mid.setStage m.tasks.length
        (.retiring (m.registry.values.map .locking) .done)).stage? m.tasks.length =
          some (.retiring (m.registry.values.map .locking) .done) :=
      stage?_setStage_self (stage?_eq_some_iff.mpr ⟨_, htask'⟩)
    have hturn := part_turn_close id now factory hqueued
      (getElem?_modify_eq_some_iff.mpr ⟨_, htask', if_pos rfl⟩)
    rw [turn, hstage] at hturn
    simp only [continueRetiring_setStage] at hturn
    rw [part_setStage htask' rfl, ranks_setStage, hranks, hpart', part_bar hm] at hturn
    have hnumber' : (m.bar.ranks id).call m.tasks.length = (m.part id).tasks.length := hnumber
    have hregistered : (m.registry.values.filter (m.bar.isFor id)).map (m.bar.ranks id).entry =
        ((m.part id).registry.get? id).toList := registered_of_part (m := m) hm
    have hstage' : mid.partOfStage (m.bar.ranks id) id .close
        (.retiring (m.registry.values.map .locking) .done) =
        .retiring (((m.part id).registry.get? id).toList.map .locking) .done :=
      congrArg (ProxyStage.retiring · .done) (hranks ▸ htargets)
    rw [hnumber', hregistered, hstage'] at hturn
    subst hmid
    exact hturn

/-! ## Cancellations -/

/-- The cancellation of a close, of which nothing is kept. -/
def cancelClosing (c : TaskId) (m : ProxyMap) : ProxyMap :=
  ((m.duties c).foldl (abandonRetirement c) m).setStage c (.retiring [] .done)

/-- A call on the peer that leaves the line does the same in the part. -/
theorem part_leave (hm : m.Separate) (he : m.HasEntry id e) (ht : m.HasCall id t) :
    (m.modifyEntry e (.leave t)).part id =
      (m.part id).modifyEntry ((m.ranks id).entry e) (.leave ((m.ranks id).call t)) := by
  obtain ⟨entry, found, hid⟩ := he
  refine part_modifyEntry (fun _ => ProxyEntry.leave_peer) found hid ?_
  refine ProxyEntry.rename_leave fun u hu heq => call_inj ht ?_ heq
  exact hid ▸ (hm.entries e entry found).queue u hu

/-- A call that leaves another peer's line is not seen in the part. -/
theorem part_leave_of_ne (he : m.HasEntry k e) (hk : k ≠ id) :
    (m.modifyEntry e (.leave t)).part id = m.part id :=
  part_modifyEntry_of_ne (fun _ => ProxyEntry.leave_peer) fun _ found => he.eq found ▸ hk

/-- Numbers stay when a retirement is abandoned. -/
theorem ranks_abandonRetirement : (abandonRetirement t m job).ranks id = m.ranks id := by
  cases job with
  | locking e => exact ranks_modifyEntry fun _ => ProxyEntry.leave_peer
  | closing | finished => rfl

/-- Numbers stay when several are. -/
theorem ranks_foldl_abandon : (jobs.foldl (abandonRetirement t) m).ranks id = m.ranks id := by
  induction jobs generalizing m with
  | nil => rfl
  | cons job jobs ih => exact ih.trans ranks_abandonRetirement

/-- What is a peer's stays the peer's when a retirement is abandoned. -/
theorem keeps_abandonRetirement : Keeps m (abandonRetirement t m job) := by
  cases job with
  | locking e => exact keeps_modifyEntry fun _ => ProxyEntry.leave_peer
  | closing | finished => exact .refl m

/-- A retirement of the peer that is abandoned is abandoned in the part. -/
theorem part_abandonRetirement (hm : m.Separate) (ht : m.HasCall id t) (hjob : job.Within id m) :
    (abandonRetirement t m job).part id =
      abandonRetirement ((m.ranks id).call t) (m.part id) (job.rename (m.ranks id)) := by
  cases job with
  | locking e => exact part_leave hm hjob ht
  | closing | finished => rfl

/-- A retirement of another peer that is abandoned is not seen in the part. -/
theorem part_abandonRetirement_of_ne (hjob : job.Within k m) (hk : k ≠ id) :
    (abandonRetirement t m job).part id = m.part id := by
  cases job with
  | locking e => exact part_leave_of_ne hjob hk
  | closing | finished => rfl

/-- Abandoning a retirement changes no task. -/
theorem tasks_abandonRetirement : (abandonRetirement t m job).tasks = m.tasks := by
  cases job <;> rfl

/-- Neither does abandoning several. -/
theorem tasks_foldl_abandon : (jobs.foldl (abandonRetirement t) m).tasks = m.tasks := by
  induction jobs generalizing m with
  | nil => rfl
  | cons job jobs ih => exact ih.trans tasks_abandonRetirement

/-- Who is done with a retirement has nothing to give up. -/
theorem foldl_abandon_filter :
    (jobs.filter (!·.isFinished)).foldl (abandonRetirement t) m = jobs.foldl (abandonRetirement t) m := by
  induction jobs generalizing m with
  | nil => rfl
  | cons job jobs ih => cases job <;> exact ih

/-- Peers stay separate when a retirement is abandoned. -/
theorem Separate.abandonRetirement (hm : m.Separate) : (abandonRetirement t m job).Separate := by
  cases job with
  | locking e => exact hm.leave
  | closing | finished => exact hm

/-- A call gives up retirements of all peers. -/
theorem part_foldl_abandon (hm : m.Separate) (ht : m.HasCall id t)
    (hjobs : ∀ job ∈ jobs, ∃ k, job.Within k m) : (jobs.foldl (abandonRetirement t) m).part id =
      ((jobs.filter (m.regards id)).map (.rename (m.ranks id))).foldl
        (abandonRetirement ((m.ranks id).call t)) (m.part id) := by
  induction jobs generalizing m with
  | nil => rfl
  | cons job jobs ih =>
    have hkeeps : Keeps m (abandonRetirement t m job) := keeps_abandonRetirement
    have hrest := ih (m := abandonRetirement t m job) hm.abandonRetirement (hkeeps.call id t ht)
      fun job' hjob' => by
        obtain ⟨k, hk⟩ := hjobs job' (List.mem_cons_of_mem _ hjob')
        exact ⟨k, hkeeps.retirement hk⟩
    have hfilter : jobs.filter ((abandonRetirement t m job).regards id) = jobs.filter (m.regards id) := by
      apply List.filter_congr
      intro job' hjob'
      obtain ⟨k, hk⟩ := hjobs job' (List.mem_cons_of_mem _ hjob')
      rw [regards_of_within id hk, regards_of_within id (hkeeps.retirement hk)]
    rw [ranks_abandonRetirement, hfilter] at hrest
    obtain ⟨k, hjob⟩ := hjobs job List.mem_cons_self
    have hregards := regards_of_within id hjob
    rw [List.foldl_cons, hrest]
    by_cases hk : k = id
    · subst hk
      cases hfinished : job.isFinished with
      | true =>
        rw [List.filter_cons_of_neg (by simp [hregards, hfinished])]
        cases job with
        | finished e => rfl
        | locking | closing => cases hfinished
      | false =>
        rw [List.filter_cons_of_pos (by simp [hregards, hfinished]), List.map_cons, List.foldl_cons,
          part_abandonRetirement hm ht hjob]
    · rw [List.filter_cons_of_neg (by simp [hregards, hk]), part_abandonRetirement_of_ne hjob hk]

/-- A call on the peer is cancelled. -/
theorem part_cancel (hm : m.Separate) (htask : m.tasks[t]? = some ⟨call, s⟩)
    (hcall : call.target? = some id) :
    (m.cancel t).1.part id = ((m.part id).cancel ((m.ranks id).call t)).1 := by
  have hc : m.HasCall id t := ⟨_, htask, ProxyCall.concerns_of_target? hcall⟩
  have hstage : m.stage? t = some s := stage?_eq_some_iff.mpr ⟨call, htask⟩
  have hwithin := hm.tasks t _ htask
  simp only [ProxyTask.Within, hcall] at hwithin
  have hcancelled : ∀ m' : ProxyMap, m'.tasks = m.tasks → m'.ranks id = m.ranks id →
      (m'.setStage t .cancelled).part id = (m'.part id).setStage ((m.ranks id).call t) .cancelled := by
    intro m' htasks hranks
    rw [part_setStage (htasks ▸ htask) (ProxyCall.concerns_of_target? hcall), hranks]
    simp only [partOfStage, hcall]
    rfl
  have hleft : ∀ e, m.HasEntry id e → ((m.modifyEntry e (.leave t)).setStage t .cancelled).part id =
      ((m.part id).modifyEntry ((m.ranks id).entry e) (.leave ((m.ranks id).call t))).setStage
        ((m.ranks id).call t) .cancelled := fun e he => by
    rw [hcancelled (m.modifyEntry e (.leave t)) rfl (ranks_modifyEntry fun _ => ProxyEntry.leave_peer),
      part_leave hm he hc]
  unfold cancel
  rw [hstage, part_stage? htask hcall]
  cases s with
  | locking e => exact hleft e hwithin
  | creating e h wake => exact hleft e hwithin.1
  | finished time a => rfl
  | cancelled => rfl
  | retiring jobs a =>
    have hfilter : jobs.filter (m.regards id) = jobs.filter (!·.isFinished) :=
      List.filter_congr fun job hjob => by simp [regards_of_within id (hwithin.1 job hjob)]
    have hmap : (jobs.filter (!·.isFinished)).map (Retirement.rename (m.ranks id)) =
        (jobs.map (.rename (m.ranks id))).filter (!·.isFinished) := by
      simp [List.filter_map, Function.comp_def]
    have habandoned := part_foldl_abandon hm hc fun job hjob => ⟨id, hwithin.1 job hjob⟩
    rw [hfilter, hmap, foldl_abandon_filter] at habandoned
    refine (hcancelled _ tasks_foldl_abandon ranks_foldl_abandon).trans ?_
    rw [habandoned]
    rfl

/-- A call on another peer is cancelled. -/
theorem part_cancel_of_ne (hm : m.Separate) (htask : m.tasks[t]? = some ⟨call, s⟩)
    (hcall : call.target? = some k) (hk : k ≠ id) : (m.cancel t).1.part id = m.part id := by
  have hc : call.concerns id = false := by simp [ProxyCall.concerns, hcall, hk]
  have hstage : m.stage? t = some s := stage?_eq_some_iff.mpr ⟨call, htask⟩
  have hwithin := hm.tasks t _ htask
  simp only [ProxyTask.Within, hcall] at hwithin
  have hcancelled : ∀ m' : ProxyMap, m'.tasks = m.tasks →
      (m'.setStage t .cancelled).part id = m'.part id := by
    intro m' htasks
    refine part_setStage_of_ne fun task htask' => ?_
    cases htask.symm.trans (htasks ▸ htask')
    exact hc
  unfold cancel
  rw [hstage]
  cases s with
  | locking e => exact (hcancelled (m.modifyEntry e (.leave t)) rfl).trans (part_leave_of_ne hwithin hk)
  | creating e h wake => exact (hcancelled (m.modifyEntry e (.leave t)) rfl).trans (part_leave_of_ne hwithin.1 hk)
  | finished time a => rfl
  | cancelled => rfl
  | retiring jobs a =>
    refine (hcancelled _ tasks_foldl_abandon).trans ?_
    have hjobs := hwithin.1
    clear hcancelled hwithin hstage htask
    induction jobs generalizing m with
    | nil => rfl
    | cons job jobs ih =>
      refine (ih hm.abandonRetirement fun job' hjob' => ?_).trans
        (part_abandonRetirement_of_ne (hjobs job List.mem_cons_self) hk)
      exact keeps_abandonRetirement.retirement (hjobs job' (List.mem_cons_of_mem _ hjob'))

/-- A close is cancelled. -/
theorem part_cancel_close (hm : m.Separate) (htask : m.tasks[t]? = some ⟨.close, s⟩) :
    (m.cancel t).1.part id = (m.part id).cancelClosing ((m.ranks id).call t) := by
  have hc : m.HasCall id t := ⟨_, htask, rfl⟩
  have hstage : m.stage? t = some s := stage?_eq_some_iff.mpr ⟨.close, htask⟩
  have hwithin : s.Retires m := hm.tasks t _ htask
  have hduties := part_duties_close id htask
  -- of a close that is over nothing is given up
  have hover : s.jobs = [] → m.part id = (m.part id).cancelClosing ((m.ranks id).call t) := by
    intro hnone
    have hpart := part_stage?_close id htask
    rw [hnone] at hpart hduties
    unfold cancelClosing
    rw [hduties]
    exact (setStage_self hpart).symm
  unfold cancel
  rw [hstage]
  cases s with
  | locking e => exact hwithin.elim
  | creating e h wake => exact hwithin.elim
  | finished time a => exact hover rfl
  | cancelled => exact hover rfl
  | retiring jobs a =>
    unfold cancelClosing
    rw [hduties]
    refine (part_setStage (tasks_foldl_abandon ▸ htask) rfl).trans ?_
    rw [ranks_foldl_abandon, part_foldl_abandon hm hc hwithin]
    rfl

end Replica.ProxyMap
