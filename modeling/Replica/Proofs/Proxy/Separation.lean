import Mathlib.Data.List.Induction
import Replica.Proofs.Proxy.Belonging

/-!
# Peers are kept apart

Whatever happens in a proxy map, what is a peer's refers only to what is that peer's own
(`Separate.reached`): every turn, and every call that begins or is cancelled, keeps the map separate.
-/

namespace Replica.ProxyMap

variable {m m' : ProxyMap} {id : PeerId} {e : EntryId} {h : Handle} {t : TaskId} {now : Nat}
variable {factory : Factory} {entry : ProxyEntry} {s : ProxyStage}
variable {job : Retirement} {jobs : List Retirement} {a : ProxyAnswer}

/-! ## Look-ups -/

/-- The entry of a peer has this peer. -/
theorem HasEntry.eq (h : m.HasEntry id e) (found : m.entries[e]? = some entry) : entry.peer.id = id := by
  obtain ⟨entry', found', hid⟩ := h
  cases found.symm.trans found'
  exact hid

/-- Preparing an entry fails, or changes nothing but its lifecycle. -/
theorem prepare_cases (entry : ProxyEntry) : (∃ err, entry.prepare = .error err) ∨
    ∃ lifecycle, entry.prepare = .ok { entry with lifecycle } := by
  unfold ProxyEntry.prepare
  split
  · exact .inr ⟨entry.lifecycle, rfl⟩
  · cases entry.lifecycle.transition .starting with
    | error err => exact .inl ⟨err, rfl⟩
    | ok lifecycle => exact .inr ⟨lifecycle, rfl⟩

/-- A look-up that gets the lock gives it up and ends, or calls the factory. Which of the two it does is
up to the entry. -/
theorem create_alike (name : String) (entry : ProxyEntry) :
    (∃ answer, (∀ h, answer = .ok h → entry.slot = some h) ∧
      ∀ (m : ProxyMap) now factory t e, m.name = name → m.entries[e]? = some entry →
        m.create now factory t e = (m.modifyEntry e .unlock).finish now t (.proxy answer)) ∨
    ∃ lifecycle, ∀ (m : ProxyMap) now (factory : Factory) t e, m.name = name →
      m.entries[e]? = some entry → m.create now factory t e =
        ((m.addCreation ⟨entry.peer, e, factory m.creations entry.peer, now, none, [], none⟩).modifyEntry e
          fun y => { y with lifecycle }).setStage t
            (.creating e m.creations.length (now + (factory m.creations entry.peer).delay)) := by
  cases hslot : entry.slot with
  | some h =>
    refine .inl ⟨.ok h, fun k hk => by cases hk; rfl, fun m now factory t e _ found => ?_⟩
    simp only [create, found, hslot]
  | none =>
    by_cases hover : entry.lifecycle.state.isClosingOrClosed = true
    · refine .inl ⟨.error (.alreadyClosed (name ++ ": proxy for " ++ entry.peer.display) entry.lifecycle.state),
        nofun, fun m now factory t e hname found => ?_⟩
      simp only [create, found, hslot, if_pos hover, hname]
    · rcases prepare_cases entry with ⟨err, hprepare⟩ | ⟨lifecycle, hprepare⟩
      · refine .inl ⟨.error err, nofun, fun m now factory t e _ found => ?_⟩
        simp only [create, found, hslot, if_neg hover, hprepare]
      · refine .inr ⟨lifecycle, fun m now factory t e _ found => ?_⟩
        unfold create
        simp only [found, hslot, if_neg hover]
        rw [hprepare]
        dsimp only
        rw [set_eq_modify (fun y => { y with lifecycle }) found]
        rfl

/-- A try at an entry is answered at once, or a creation for the entry's peer begins. -/
theorem create_cases (found : m.entries[e]? = some entry) :
    (∃ answer, (∀ h, answer = .ok h → entry.slot = some h) ∧
      m.create now factory t e = (m.modifyEntry e .unlock).finish now t (.proxy answer)) ∨
    ∃ lifecycle script, m.create now factory t e =
      ((m.addCreation { peer := entry.peer, entry := e, script, calledAt := now }).modifyEntry e
        fun y => { y with lifecycle }).setStage t (.creating e m.creations.length (now + script.delay)) := by
  rcases create_alike m.name entry with ⟨answer, hslot, hcreate⟩ | ⟨lifecycle, hcreate⟩
  · exact .inl ⟨answer, hslot, hcreate m now factory t e rfl found⟩
  · exact .inr ⟨lifecycle, factory m.creations entry.peer, hcreate m now factory t e rfl found⟩

/-- A try leaves peers separate. -/
theorem Separate.create (hm : m.Separate) (hstage : m.stage? t = some (.locking e)) :
    (m.create now factory t e).Separate := by
  obtain ⟨call, id, htask, hid, entry, found, hpeer⟩ := hm.of_locking hstage
  rcases create_cases found with ⟨answer, hslot, heq⟩ | ⟨lifecycle, script, heq⟩
  · rw [heq]
    refine hm.unlock.finish fun task id' htask' hid' => ?_
    cases htask.symm.trans htask'
    cases hid.symm.trans hid'
    cases answer with
    | error err => trivial
    | ok h => exact hpeer ▸ (hm.entries e entry found).slot h (hslot h rfl)
  · rw [heq]
    have hadded := hm.addCreation (c := { peer := entry.peer, entry := e, script, calledAt := now })
      ⟨entry, found, rfl⟩
    have hprepared := hadded.relock (e := e) (f := fun y => { y with lifecycle }) (fun _ => rfl)
      (fun _ => rfl) fun _ _ hu => .inl hu
    apply hprepared.setStage
    intro task htask'
    cases htask.symm.trans htask'
    simp only [ProxyTask.Within, hid]
    refine ⟨?_, ?_⟩
    · exact ⟨_, getElem?_modify_eq_some_iff.mpr ⟨entry, found, if_pos rfl⟩, hpeer⟩
    · exact ⟨_, getElem?_concat_eq_some_iff.mpr (.inr ⟨rfl, rfl⟩), hpeer⟩

/-- The factory has made the proxy. -/
theorem conclude_of_made {c : Creation} (found : m.entries[e]? = some entry)
    (made : m.creations[h]? = some c) (hfailure : c.script.failure = none) :
    m.conclude now t e h = ((m.modifyEntry e fun y => (y.install h).1.unlock).modifyCreation h
      (Creation.ended .created)).finish now t (.proxy (entry.install h).2) := by
  simp only [conclude, found, made, hfailure]
  rw [set_eq_modify (fun y => (y.install h).1.unlock) found]
  rfl

/-- The factory has failed. -/
theorem conclude_of_failed {c : Creation} {err : PeerError} (found : m.entries[e]? = some entry)
    (made : m.creations[h]? = some c) (hfailure : c.script.failure = some err) :
    m.conclude now t e h = ((m.modifyEntry e fun y => y.giveUp.unlock).modifyCreation h
      (Creation.ended .failed)).finish now t (.proxy (.error err)) := by
  simp only [conclude, found, made, hfailure]
  rw [set_eq_modify (fun y => y.giveUp.unlock) found]
  rfl

/-- So does the end of a creation. -/
theorem Separate.conclude (hm : m.Separate) {wake : Nat}
    (hstage : m.stage? t = some (.creating e h wake)) : (m.conclude now t e h).Separate := by
  obtain ⟨call, id, htask, hid, ⟨entry, found, hpeer⟩, c, made, hmade⟩ := hm.of_creating hstage
  cases hfailure : c.script.failure with
  | some err =>
    rw [conclude_of_failed found made hfailure]
    refine Separate.finish (Separate.modifyCreation ?_ fun c => ⟨rfl, rfl⟩) fun _ _ _ _ => trivial
    exact hm.relock (fun y => ProxyEntry.unlock_peer) (fun y => ProxyEntry.unlock_slot)
      fun y u hu => .inl (ProxyEntry.mem_queue_unlock (e := y.giveUp) hu)
  | none =>
    rw [conclude_of_made found made hfailure]
    have hpeers : ∀ y : ProxyEntry, (y.install h).1.unlock.peer = y.peer := fun y => by simp
    refine Separate.finish (Separate.modifyCreation (hm.modifyEntry hpeers ?_) fun c => ⟨rfl, rfl⟩) ?_
    · intro entry' found'
      cases found.symm.trans found'
      refine ⟨fun k hk => ?_, fun u hu => ?_⟩
      · rw [hpeers, hpeer]
        have hslot : (entry.install h).1.unlock.slot = some h := by simp [ProxyEntry.install_slot]
        cases hslot.symm.trans hk
        exact ⟨c, made, hmade⟩
      · rw [hpeers]
        have hqueue := ProxyEntry.mem_queue_unlock hu
        rw [ProxyEntry.install_queue] at hqueue
        exact (hm.entries e entry found).queue u hqueue
    · intro task id' htask' hid'
      cases htask.symm.trans htask'
      cases hid.symm.trans hid'
      cases hs : (entry.install h).2 with
      | error err => trivial
      | ok k =>
        obtain rfl := ProxyEntry.install_answer hs
        exact ⟨c.ended .created, getElem?_modify_eq_some_iff.mpr ⟨c, made, if_pos rfl⟩, hmade⟩

/-! ## Retirements -/

/-- A proxy is taken from an entry only as it is retired with one in its slot. -/
theorem retire_taken {k : Handle} (htaken : entry.retire.2 = some k) : entry.slot = some k := by
  unfold ProxyEntry.retire at htaken
  split at htaken
  · cases htaken
  · exact htaken

/-- A retirement that gets the lock closes the entry, and asks the proxy that was in it to close. -/
theorem retire_eq_match (found : m.entries[e]? = some entry) :
    m.retire now e =
      match entry.retire.2 with
      | none => (m.modifyEntry e fun y => y.retire.1.unlock, .finished e)
      | some h =>
        ((m.modifyEntry e fun y => y.retire.1.unlock).modifyCreation h (Creation.askToClose now),
          .closing e h (now + (m.creations[h]?.map (·.script.closeDelay)).getD 0)) := by
  unfold retire
  simp only [found]
  rw [set_eq_modify (fun y : ProxyEntry => y.retire.1.unlock) found]
  rfl

/-- Retiring an entry leaves peers separate, and the retirement is within the same peer. -/
theorem Separate.retire (hm : m.Separate) : (m.retire now e).1.Separate ∧ Keeps m (m.retire now e).1 ∧
    ∀ id, m.HasEntry id e → (m.retire now e).2.Within id (m.retire now e).1 := by
  cases found : m.entries[e]? with
  | none =>
    simp only [ProxyMap.retire, found]
    exact ⟨hm, .refl m, fun id hid => hid⟩
  | some entry =>
    have hpeers : ∀ y : ProxyEntry, y.retire.1.unlock.peer = y.peer := fun y => by simp
    have hkeeps : Keeps m (m.modifyEntry e fun y => y.retire.1.unlock) := keeps_modifyEntry hpeers
    have hclosed : (m.modifyEntry e fun y => y.retire.1.unlock).Separate := by
      apply hm.modifyEntry hpeers
      intro entry' found'
      have hwithin := hm.entries e entry' found'
      refine ⟨fun k hk => ?_, fun u hu => ?_⟩
      · rw [hpeers]
        rw [ProxyEntry.unlock_slot] at hk
        exact hwithin.slot k (ProxyEntry.slot_of_retire hk)
      · rw [hpeers]
        have hqueue := ProxyEntry.mem_queue_unlock hu
        rw [ProxyEntry.retire_queue] at hqueue
        exact hwithin.queue u hqueue
    rw [retire_eq_match found]
    cases htaken : entry.retire.2 with
    | none => exact ⟨hclosed, hkeeps, fun id hid => hkeeps.entry id e hid⟩
    | some h =>
      have hasked : Keeps m ((m.modifyEntry e fun y => y.retire.1.unlock).modifyCreation h
          (Creation.askToClose now)) := hkeeps.trans (keeps_modifyCreation fun c => rfl)
      refine ⟨hclosed.modifyCreation fun _ => ⟨rfl, rfl⟩, hasked, fun id hid => ?_⟩
      have hproxy := (hm.entries e entry found).slot h (retire_taken htaken)
      rw [hid.eq found] at hproxy
      exact ⟨hasked.entry id e hid, hasked.proxy id h hproxy⟩

/-- Asking for locks changes no task. -/
theorem tasks_foldl_lock {targets : List EntryId} :
    (targets.foldl (fun m e => m.modifyEntry e (.lock t)) m).tasks = m.tasks := by
  induction targets generalizing m with
  | nil => rfl
  | cons e targets ih => exact ih

/-- Retiring an entry changes no task. -/
theorem tasks_retire : (m.retire now e).1.tasks = m.tasks := by
  unfold retire
  split
  · rfl
  · dsimp only
    split <;> rfl

/-- A turn of a retirement changes no task. -/
theorem tasks_turnRetirement : (m.turnRetirement now t job).1.tasks = m.tasks := by
  cases job with
  | locking e =>
    simp only [turnRetirement]
    split
    · exact tasks_retire
    · rfl
  | closing e h wake =>
    simp only [turnRetirement]
    split <;> rfl
  | finished e => rfl

/-- Neither do the turns of several. -/
theorem tasks_turnRetirements : (m.turnRetirements now t jobs).1.tasks = m.tasks := by
  induction jobs generalizing m with
  | nil => rfl
  | cons job jobs ih => exact ih.trans tasks_turnRetirement

/-- Noting the end of a close leaves peers separate. -/
theorem Separate.concludeClose (hm : m.Separate) (now : Nat) (h : Handle) :
    (m.concludeClose now h).Separate ∧ Keeps m (m.concludeClose now h) := by
  have hseparate := hm.modifyCreation (h := h) (g := Creation.hasClosed now) fun _ => ⟨rfl, rfl⟩
  have hkeeps := keeps_modifyCreation (m := m) (h := h) (g := Creation.hasClosed now) fun _ => rfl
  -- what is reported does not matter
  refine ⟨⟨hseparate.sorted, hseparate.registry, fun e entry found => ?_, hseparate.creations, hseparate.tasks⟩,
    ⟨hkeeps.entry, hkeeps.proxy, hkeeps.call⟩⟩
  have hwithin := hseparate.entries e entry found
  exact ⟨hwithin.slot, hwithin.queue⟩

/-- A turn of a retirement leaves it within its peer. -/
theorem Separate.turnRetirement (hm : m.Separate) (now : Nat) (t : TaskId) (job : Retirement) :
    (m.turnRetirement now t job).1.Separate ∧
    Keeps m (m.turnRetirement now t job).1 ∧
    ∀ id, job.Within id m → (m.turnRetirement now t job).2.Within id (m.turnRetirement now t job).1 := by
  cases job with
  | locking e =>
    simp only [ProxyMap.turnRetirement]
    split
    · exact hm.retire
    · exact ⟨hm, .refl m, fun id hid => hid⟩
  | closing e h wake =>
    simp only [ProxyMap.turnRetirement]
    split
    · obtain ⟨hseparate, hkeeps⟩ := hm.concludeClose now h
      exact ⟨hseparate, hkeeps, fun id hid => hkeeps.entry id e hid.1⟩
    · exact ⟨hm, .refl m, fun id hid => hid⟩
  | finished e => exact ⟨hm, .refl m, fun id hid => hid⟩

/-- The turns of several leave each of them within its peer. -/
theorem Separate.turnRetirements (hm : m.Separate) (now : Nat) (t : TaskId) (jobs : List Retirement) :
    (m.turnRetirements now t jobs).1.Separate ∧ Keeps m (m.turnRetirements now t jobs).1 ∧
    ∀ job' ∈ (m.turnRetirements now t jobs).2,
      ∃ job ∈ jobs, ∀ id, job.Within id m → job'.Within id (m.turnRetirements now t jobs).1 := by
  induction jobs generalizing m with
  | nil => exact ⟨hm, .refl m, List.forall_mem_nil _⟩
  | cons job jobs ih =>
    obtain ⟨hfirst, hkeeps, hwithin⟩ := hm.turnRetirement now t job
    obtain ⟨hrest, hkeeps', hwithin'⟩ := ih hfirst
    refine ⟨hrest, hkeeps.trans hkeeps', fun job' hjob' => ?_⟩
    rcases List.mem_cons.mp hjob' with rfl | hjob'
    · exact ⟨job, List.mem_cons_self, fun id hid => hkeeps'.retirement (hwithin id hid)⟩
    · obtain ⟨old, hold, hid⟩ := hwithin' job' hjob'
      exact ⟨old, List.mem_cons_of_mem _ hold, fun id h => hid id (hkeeps.retirement h)⟩

/-- A call that goes on retiring leaves peers separate. -/
theorem Separate.continueRetiring (hm : m.Separate)
    (ht : ∀ task, m.tasks[t]? = some task →
      ProxyTask.Within m { task with stage := .retiring jobs a }) :
    (m.continueRetiring now t jobs a).Separate := by
  obtain ⟨hturned, hkeeps, hwithin⟩ := hm.turnRetirements now t jobs
  have htasks : (m.turnRetirements now t jobs).1.tasks = m.tasks := tasks_turnRetirements
  unfold ProxyMap.continueRetiring
  dsimp only
  split
  · refine hturned.finish fun task id htask hid => ?_
    have hold := ht task (htasks ▸ htask)
    simp only [ProxyTask.Within, hid] at hold
    exact hkeeps.answer hold.2
  · apply hturned.setStage
    intro task htask
    have hold := ht task (htasks ▸ htask)
    unfold ProxyTask.Within at hold ⊢
    split at hold
    · next id hid =>
      simp only at hid
      rw [hid]
      refine ⟨fun job' hjob' => ?_, hkeeps.answer hold.2⟩
      obtain ⟨job, hjob, hstays⟩ := hwithin job' hjob'
      exact hstays id (hold.1 job hjob)
    · next hid =>
      simp only at hid
      rw [hid]
      intro job' hjob'
      obtain ⟨job, hjob, hstays⟩ := hwithin job' hjob'
      obtain ⟨id, hid⟩ := hold job hjob
      exact ⟨id, hstays id hid⟩

/-! ## Calls -/

/-- A call goes for the locks of entries that it is about. -/
theorem Separate.foldl_lock {targets : List EntryId} (hm : m.Separate)
    (htargets : ∀ e ∈ targets, ∃ id, m.HasEntry id e ∧ m.HasCall id t) :
    (targets.foldl (fun m e => m.modifyEntry e (.lock t)) m).Separate ∧
      Keeps m (targets.foldl (fun m e => m.modifyEntry e (.lock t)) m) := by
  induction targets generalizing m with
  | nil => exact ⟨hm, .refl m⟩
  | cons e targets ih =>
    have hkeeps : Keeps m (m.modifyEntry e (.lock t)) := keeps_modifyEntry fun _ => ProxyEntry.lock_peer
    have hlocked : (m.modifyEntry e (.lock t)).Separate := by
      apply hm.lock
      intro entry found
      obtain ⟨id, hid, hcall⟩ := htargets e List.mem_cons_self
      exact (hid.eq found).symm ▸ hcall
    obtain ⟨hrest, hkeeps'⟩ := ih hlocked fun x hx => by
      obtain ⟨id, hid, hcall⟩ := htargets x (List.mem_cons_of_mem _ hx)
      exact ⟨id, hkeeps.entry id x hid, hkeeps.call id t hcall⟩
    exact ⟨hrest, hkeeps.trans hkeeps'⟩

/-- A call that begins to retire entries of a peer that it concerns leaves peers separate. -/
theorem Separate.beginRetiring {targets : List EntryId} (hm : m.Separate)
    (htargets : ∀ e ∈ targets, ∃ id, m.HasEntry id e ∧ m.HasCall id t)
    (ht : ∀ task, m.tasks[t]? = some task →
      ProxyTask.Within m { task with stage := .retiring (targets.map .locking) a }) :
    (m.beginRetiring now t targets a).Separate := by
  obtain ⟨hlocked, hkeeps⟩ := hm.foldl_lock htargets
  refine hlocked.continueRetiring fun task htask => hkeeps.task (ht task ?_)
  rwa [tasks_foldl_lock] at htask

/-- A reset swaps in a fresh entry of the same peer. -/
theorem Separate.renew (hm : m.Separate) (id : PeerId) :
    (m.renew id).1.Separate ∧ Keeps m (m.renew id).1 ∧
    (m.renew id).1.tasks = m.tasks ∧ ∀ e ∈ (m.renew id).2, m.HasEntry id e := by
  unfold ProxyMap.renew
  split
  · exact ⟨hm, .refl m, rfl, nofun⟩
  · next e hget =>
    split
    · exact ⟨hm, .refl m, rfl, nofun⟩
    · obtain ⟨entry, found, hpeer⟩ := hm.registry _ (Registry.mem_of_get? hget)
      simp only at found hpeer
      simp only [found]
      have henrolled := hm.enrol entry.peer
      have hkeeps : Keeps m (m.enrol entry.peer) := keeps_enrol entry.peer
      rw [ProxyMap.enrol, hpeer] at henrolled hkeeps
      exact ⟨henrolled, hkeeps, trivial, fun x hx => by cases hx; exact ⟨entry, found, hpeer⟩⟩

/-- A reset begins with an entry of its own peer. -/
theorem Separate.beginReset (hm : m.Separate) {call : ProxyCall} (ha : a.Within id m)
    (htask : m.tasks[t]? = some ⟨call, s⟩) (hcall : call.target? = some id) :
    (m.beginReset now t id a).Separate := by
  obtain ⟨hrenewed, hkeeps, htasks, hentry⟩ := hm.renew id
  have hrenewed_task : (m.renew id).1.tasks[t]? = some ⟨call, s⟩ := htasks ▸ htask
  apply hrenewed.beginRetiring
  · intro e he
    have hid := hentry e (Option.mem_toList.mp he)
    exact ⟨id, hkeeps.entry id e hid, _, hrenewed_task, ProxyCall.concerns_of_target? hcall⟩
  · intro task htask'
    cases hrenewed_task.symm.trans htask'
    simp only [ProxyTask.Within, hcall]
    refine ⟨fun job hjob => ?_, hkeeps.answer ha⟩
    obtain ⟨e, he, rfl⟩ := List.mem_map.mp hjob
    exact hkeeps.entry id e (hentry e (Option.mem_toList.mp he))

/-- A look-up goes for the lock of an entry of its peer. -/
theorem Separate.queue (hm : m.Separate) {call : ProxyCall} (htask : m.tasks[t]? = some ⟨call, s⟩)
    (hcall : call.target? = some id) (he : m.HasEntry id e) :
    ((m.modifyEntry e (.lock t)).setStage t (.locking e)).Separate := by
  have hlocked : (m.modifyEntry e (.lock t)).Separate := by
    apply hm.lock
    intro entry found
    exact (he.eq found).symm ▸ ⟨_, htask, ProxyCall.concerns_of_target? hcall⟩
  apply hlocked.setStage
  intro task htask'
  cases htask.symm.trans htask'
  simp only [ProxyTask.Within, hcall]
  exact (keeps_modifyEntry fun _ => ProxyEntry.lock_peer).entry id e he

/-- A look-up begins at the entry of its own peer. -/
theorem Separate.beginLookUp (hm : m.Separate) (htask : m.tasks[t]? = some ⟨.lookUp id, s⟩) :
    (m.beginLookUp now factory t id).Separate := by
  have hrefused : ∀ err, (m.finish now t (.proxy (.error err))).Separate := fun err =>
    hm.finish fun _ _ _ _ => trivial
  unfold ProxyMap.beginLookUp
  split
  · exact hrefused _
  · split
    · exact hrefused _
    · next e hget =>
      obtain ⟨entry, found, hpeer⟩ := hm.registry _ (Registry.mem_of_get? hget)
      simp only at found hpeer
      simp only [found, Option.bind_some]
      split
      · next h hslot =>
        refine hm.finish fun task id' htask' hid' => ?_
        cases htask.symm.trans htask'
        cases hid'
        exact hpeer ▸ (hm.entries e entry found).slot h hslot
      · have hqueued := hm.queue htask rfl ⟨entry, found, hpeer⟩
        split
        · exact hqueued.create (stage?_setStage_self (m := m.modifyEntry e (.lock t))
            (stage?_eq_some_iff.mpr ⟨_, htask⟩))
        · exact hqueued

/-- A map that is barred is as separate as before. -/
theorem Separate.bar (hm : m.Separate) : m.bar.Separate := by
  have hentered := hm.enter .close
  refine ⟨hentered.sorted, hentered.registry, fun e entry found => ?_, hentered.creations, hentered.tasks⟩
  exact ⟨(hentered.entries e entry found).slot, (hentered.entries e entry found).queue⟩

/-- Every entry that is registered is some peer's. -/
theorem Separate.exists_hasEntry (hm : m.Separate) (he : e ∈ m.registry.values) :
    ∃ id, m.HasEntry id e := by
  obtain ⟨⟨id, x⟩, hmem, rfl⟩ := List.mem_map.mp he
  exact ⟨id, hm.registry _ hmem⟩

/-- Every call leaves peers separate as it begins. -/
theorem Separate.begin (hm : m.Separate) (call : ProxyCall) : (m.begin now factory call).Separate := by
  have hentered := hm.enter call
  have htask : (m.enter call).tasks[m.tasks.length]? = some ⟨call, .retiring [] .done⟩ :=
    tasks_enter call
  unfold ProxyMap.begin
  dsimp only
  cases call with
  | lookUp id => exact hentered.beginLookUp htask
  | reset id => exact hentered.beginReset trivial htask rfl
  | repair id error reconnect =>
    dsimp only
    split
    · exact hentered.beginReset trivial htask rfl
    · exact hentered.finish fun _ _ _ _ => trivial
  | close =>
    dsimp only
    split
    · exact hentered.finish fun _ _ _ _ => trivial
    · -- a close is about all entries that are registered
      have hvalues : ∀ e ∈ m.registry.values, ∃ id, (m.enter .close).HasEntry id e :=
        fun e he => hm.exists_hasEntry he
      refine hm.bar.beginRetiring (fun e he => ?_) fun task htask' => ?_
      · obtain ⟨id, hid⟩ := hvalues e he
        exact ⟨id, hid, _, htask, rfl⟩
      · cases htask.symm.trans htask'
        intro job hjob
        obtain ⟨e, he, rfl⟩ := List.mem_map.mp hjob
        exact hvalues e he

/-- Every turn does. -/
theorem Separate.turn (hm : m.Separate) : (m.turn now factory t).Separate := by
  unfold ProxyMap.turn
  split
  · next e hstage =>
    split
    · exact hm.create hstage
    · exact hm
  · next e h wake hstage =>
    split
    · exact hm.conclude hstage
    · exact hm
  · next jobs a hstage =>
    obtain ⟨call, htask⟩ := stage?_eq_some_iff.mp hstage
    refine hm.continueRetiring fun task htask' => ?_
    cases htask.symm.trans htask'
    exact hm.tasks t _ htask
  · exact hm

/-- A call that is cancelled is at no entry any more. -/
theorem Separate.cancelled (hm : m.Separate) : (m.setStage t .cancelled).Separate := by
  apply hm.setStage
  intro task _
  unfold ProxyTask.Within
  split <;> trivial

/-- Cancelling a call leaves peers separate. -/
theorem Separate.cancel (hm : m.Separate) : (m.cancel t).1.Separate := by
  unfold ProxyMap.cancel
  split
  · exact hm.leave.cancelled
  · exact hm.leave.cancelled
  · next jobs a _ =>
    suffices hleft : (jobs.foldl (abandonRetirement t) m).Separate from hleft.cancelled
    clear * - hm
    induction jobs generalizing m with
    | nil => exact hm
    | cons job jobs ih =>
      apply ih
      cases job with
      | locking e => exact hm.leave
      | closing | finished => exact hm
  · exact hm

/-- Registering a peer leaves peers separate. -/
theorem Separate.register (hm : m.Separate) (peer : Peer) : (m.register peer).Separate := by
  unfold ProxyMap.register
  split
  · exact hm
  · exact hm.enrol peer

/-! ## Runs -/

/-- Every event does. -/
theorem Separate.step (hm : m.Separate) (event : Event) : (m.step event).Separate := by
  cases event with
  | register peer => exact hm.register peer
  | begin now factory call => exact hm.begin call
  | turn now factory t => exact hm.turn
  | cancel t => exact hm.cancel

/-- Whatever happens, the peers are kept apart. -/
theorem Separate.reached (name : String) (events : List Event) : (reached name events).Separate := by
  induction events using List.reverseRecOn with
  | nil => exact .empty name
  | append_singleton events event ih =>
    rw [ProxyMap.reached, run_concat]
    exact ih.step event

end Replica.ProxyMap
