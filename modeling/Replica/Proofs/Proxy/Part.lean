import Replica.Proofs.Proxy.Renaming
import Replica.Proofs.Ranks

/-!
# The part of a proxy map that a peer has

What a proxy map is to one peer (`part`): the peer's entries, its proxies and the calls on it, numbered
among themselves, and of closes what they still have to retire of the peer. The ids of the other peers are
there as well, since they are told to whoever looks up a peer that is not registered. What is reported is
left out.

A change of something that is the peer's changes its part in the same way, and any other change leaves the
part alone.
-/

namespace Replica

/-- What a call has to retire. -/
def ProxyStage.jobs : ProxyStage → List Retirement
  | .retiring jobs _ => jobs
  | _ => []

namespace ProxyMap

/-- The numbers that entries, proxies and calls have among those of the peer. Closes count as calls. -/
def ranks (id : PeerId) (m : ProxyMap) : Renaming where
  entry := m.entries.countPBefore (·.peer.id = id)
  proxy := m.creations.countPBefore (·.peer.id = id)
  call := m.tasks.countPBefore (·.call.concerns id)

/-- Whether an entry of the peer is still to be retired. -/
def regards (id : PeerId) (m : ProxyMap) (job : Retirement) : Bool :=
  !job.isFinished && m.entries[job.entry]?.any (·.peer.id = id)

/-- What a call at the stage is to a peer, under other numbers. -/
def partOfStage (ρ : Renaming) (id : PeerId) (m : ProxyMap) (call : ProxyCall) (s : ProxyStage) :
    ProxyStage :=
  match call.target? with
  | some _ => s.rename ρ
  | none => .retiring ((s.jobs.filter (m.regards id)).map (.rename ρ)) .done

def partOfTask (ρ : Renaming) (id : PeerId) (m : ProxyMap) (task : ProxyTask) : ProxyTask :=
  { task with stage := m.partOfStage ρ id task.call task.stage }

/-- What the map is to a peer, under other numbers. -/
def partBy (ρ : Renaming) (id : PeerId) (m : ProxyMap) : ProxyMap where
  name := m.name
  closed := m.closed
  registry := m.registry.mapValues fun k e => if k = id then ρ.entry e else 0
  entries := (m.entries.filter (·.peer.id = id)).map (.rename ρ)
  creations := (m.creations.filter (·.peer.id = id)).map (.rename ρ)
  tasks := (m.tasks.filter (·.call.concerns id)).map (m.partOfTask ρ id)

/-- What the map is to a peer. -/
def part (id : PeerId) (m : ProxyMap) : ProxyMap := m.partBy (m.ranks id) id

variable {m : ProxyMap} {id : PeerId} {ρ : Renaming} {e x : EntryId} {h : Handle} {t : TaskId}
variable {f : ProxyEntry → ProxyEntry} {g : Creation → Creation} {entry : ProxyEntry} {c : Creation}
variable {s : ProxyStage} {call : ProxyCall}

/-! ## What is where -/

/-- An entry of the peer is found in the part under its number there. -/
theorem part_entry (found : m.entries[e]? = some entry) (hid : entry.peer.id = id) :
    (m.part id).entries[(m.ranks id).entry e]? = some (entry.rename (m.ranks id)) := by
  have hrank := getElem?_filter_countPBefore (p := fun y : ProxyEntry => decide (y.peer.id = id)) found
    (by simpa using hid)
  exact List.getElem?_map.trans (congrArg (Option.map (ProxyEntry.rename (m.ranks id))) hrank)

/-- So is a proxy of the peer. -/
theorem part_creation (made : m.creations[h]? = some c) (hid : c.peer.id = id) :
    (m.part id).creations[(m.ranks id).proxy h]? = some (c.rename (m.ranks id)) := by
  have hrank := getElem?_filter_countPBefore (p := fun d : Creation => decide (d.peer.id = id)) made
    (by simpa using hid)
  exact List.getElem?_map.trans (congrArg (Option.map (Creation.rename (m.ranks id))) hrank)

/-- So is a call that concerns the peer, with the part of its stage that the peer has. -/
theorem part_task (htask : m.tasks[t]? = some ⟨call, s⟩) (hc : call.concerns id = true) :
    (m.part id).tasks[(m.ranks id).call t]? = some ⟨call, m.partOfStage (m.ranks id) id call s⟩ := by
  have hrank := getElem?_filter_countPBefore
    (p := fun task : ProxyTask => task.call.concerns id) htask hc
  exact List.getElem?_map.trans (congrArg (Option.map _) hrank)

/-- A call on the peer stands where it stands, under other numbers. -/
theorem part_stage? (htask : m.tasks[t]? = some ⟨call, s⟩) (hcall : call.target? = some id) :
    (m.part id).stage? ((m.ranks id).call t) = some (s.rename (m.ranks id)) := by
  have hpart := part_task htask (ProxyCall.concerns_of_target? hcall)
  simp only [partOfStage, hcall] at hpart
  exact stage?_eq_some_iff.mpr ⟨call, hpart⟩

/-- In the part, every peer stays registered, and only the one peer with its own entry. -/
theorem part_registry : (m.part id).registry =
    m.registry.mapValues fun k x => if k = id then (m.ranks id).entry x else 0 := rfl

/-- A peer is found in the part exactly if it is found in the map. -/
theorem part_get? (k : PeerId) : (m.part id).registry.get? k =
    (m.registry.get? k).map fun x => if k = id then (m.ranks id).entry x else 0 := by
  rw [part_registry, Registry.get?_mapValues]

/-- The part lists the same ids. -/
theorem part_ids : (m.part id).ids = m.ids := by
  rw [ids, part_registry, Registry.ids_mapValues]
  rfl

/-- The part has as many entries as the peer. -/
theorem length_part_entries :
    (m.part id).entries.length = (m.ranks id).entry m.entries.length := by
  simp only [part, partBy, List.length_map, ranks, countPBefore_length_eq]

/-- It has as many creations as were made for the peer. -/
theorem length_part_creations :
    (m.part id).creations.length = (m.ranks id).proxy m.creations.length := by
  simp only [part, partBy, List.length_map, ranks, countPBefore_length_eq]

/-- It has as many calls as concern the peer. -/
theorem length_part_tasks : (m.part id).tasks.length = (m.ranks id).call m.tasks.length := by
  simp only [part, partBy, List.length_map, ranks, countPBefore_length_eq]

/-! ## Changes of one place -/

/-- Numbers depend on whose entries are whose, and not on what is in them. -/
theorem ranks_modifyEntry (hf : ∀ y, (f y).peer = y.peer) :
    (m.modifyEntry e f).ranks id = m.ranks id := by
  have hranks : (m.entries.modify e f).countPBefore (·.peer.id = id) =
      m.entries.countPBefore (·.peer.id = id) := funext fun i => countPBefore_modify fun y => by rw [hf]
  simp only [ranks, modifyEntry, hranks]

/-- Nor do they depend on how creations have gone. -/
theorem ranks_modifyCreation (hg : ∀ c, (g c).peer = c.peer) :
    (m.modifyCreation h g).ranks id = m.ranks id := by
  have hranks : (m.creations.modify h g).countPBefore (·.peer.id = id) =
      m.creations.countPBefore (·.peer.id = id) := funext fun i => countPBefore_modify fun c => by rw [hg]
  simp only [ranks, modifyCreation, hranks]

/-- Nor on how far calls have come. -/
theorem ranks_setStage : (m.setStage t s).ranks id = m.ranks id := by
  have hranks : (m.tasks.modify t fun task => { task with stage := s }).countPBefore
      (·.call.concerns id) = m.tasks.countPBefore (·.call.concerns id) :=
    funext fun i => countPBefore_modify fun _ => rfl
  simp only [ranks, setStage, hranks]

/-- Which retirements regard the peer depends on whose entries are whose. -/
theorem regards_modifyEntry (hf : ∀ y, (f y).peer = y.peer) :
    (m.modifyEntry e f).regards id = m.regards id := by
  funext job
  simp only [regards, modifyEntry, List.getElem?_modify]
  split <;> cases m.entries[job.entry]? <;> simp [hf]

/-- So does the part that a peer has in a task. -/
theorem partOfTask_modifyEntry (hf : ∀ y, (f y).peer = y.peer) :
    (m.modifyEntry e f).partOfTask ρ id = m.partOfTask ρ id := by
  funext task
  simp only [partOfTask, partOfStage, regards_modifyEntry hf]

/-- A change of an entry of the peer. -/
theorem part_modifyEntry {f' : ProxyEntry → ProxyEntry} (hf : ∀ y, (f y).peer = y.peer)
    (found : m.entries[e]? = some entry) (hid : entry.peer.id = id)
    (hrename : (f entry).rename (m.ranks id) = f' (entry.rename (m.ranks id))) :
    (m.modifyEntry e f).part id = (m.part id).modifyEntry ((m.ranks id).entry e) f' := by
  have hentries : ((m.entries.modify e f).filter (·.peer.id = id)).map (.rename (m.ranks id)) =
      ((m.entries.filter (·.peer.id = id)).map (.rename (m.ranks id))).modify
        ((m.ranks id).entry e) f' := by
    rw [filter_modify_of_pos (fun y => by rw [hf]) found (by simpa using hid)]
    exact map_modify (getElem?_filter_countPBefore found (by simpa using hid)) hrename
  simp only [part, ranks_modifyEntry hf]
  simp only [partBy, partOfTask_modifyEntry hf]
  simp only [modifyEntry, hentries]

/-- A change of another peer's entry. -/
theorem part_modifyEntry_of_ne (hf : ∀ y, (f y).peer = y.peer)
    (hne : ∀ entry, m.entries[e]? = some entry → entry.peer.id ≠ id) :
    (m.modifyEntry e f).part id = m.part id := by
  have hentries : (m.entries.modify e f).filter (·.peer.id = id) =
      m.entries.filter (·.peer.id = id) :=
    filter_modify_of_neg (fun y => by rw [hf]) fun y hy => by simpa using hne y hy
  simp only [part, ranks_modifyEntry hf]
  simp only [partBy, partOfTask_modifyEntry hf]
  simp only [modifyEntry, hentries]

/-- A change of a proxy of the peer. -/
theorem part_modifyCreation {g' : Creation → Creation} (hg : ∀ c, (g c).peer = c.peer)
    (made : m.creations[h]? = some c) (hid : c.peer.id = id)
    (hrename : (g c).rename (m.ranks id) = g' (c.rename (m.ranks id))) :
    (m.modifyCreation h g).part id = (m.part id).modifyCreation ((m.ranks id).proxy h) g' := by
  have hcreations : ((m.creations.modify h g).filter (·.peer.id = id)).map (.rename (m.ranks id)) =
      ((m.creations.filter (·.peer.id = id)).map (.rename (m.ranks id))).modify
        ((m.ranks id).proxy h) g' := by
    rw [filter_modify_of_pos (fun y => by rw [hg]) made (by simpa using hid)]
    exact map_modify (getElem?_filter_countPBefore made (by simpa using hid)) hrename
  simp only [part, ranks_modifyCreation hg]
  simp only [partBy, modifyCreation, hcreations]
  rfl

/-- A change of another peer's proxy. -/
theorem part_modifyCreation_of_ne (hg : ∀ c, (g c).peer = c.peer)
    (hne : ∀ c, m.creations[h]? = some c → c.peer.id ≠ id) :
    (m.modifyCreation h g).part id = m.part id := by
  have hcreations : (m.creations.modify h g).filter (·.peer.id = id) =
      m.creations.filter (·.peer.id = id) :=
    filter_modify_of_neg (fun y => by rw [hg]) fun y hy => by simpa using hne y hy
  simp only [part, ranks_modifyCreation hg]
  simp only [partBy, modifyCreation, hcreations]
  rfl

/-- A call on the peer, or a close, goes on. -/
theorem part_setStage {s₀ : ProxyStage} (htask : m.tasks[t]? = some ⟨call, s₀⟩)
    (hc : call.concerns id = true) :
    (m.setStage t s).part id =
      (m.part id).setStage ((m.ranks id).call t) (m.partOfStage (m.ranks id) id call s) := by
  have htasks : ((m.tasks.modify t fun task => { task with stage := s }).filter
      (·.call.concerns id)).map (m.partOfTask (m.ranks id) id) =
      ((m.tasks.filter (·.call.concerns id)).map (m.partOfTask (m.ranks id) id)).modify
        ((m.ranks id).call t) fun task =>
          { task with stage := m.partOfStage (m.ranks id) id call s } := by
    have hrank := getElem?_filter_countPBefore (p := fun task : ProxyTask => task.call.concerns id)
      htask hc
    rw [filter_modify_of_pos (p := fun task : ProxyTask => task.call.concerns id)
      (f := fun task => { task with stage := s }) (fun _ => rfl) htask hc]
    exact map_modify hrank rfl
  simp only [part, ranks_setStage]
  exact congrArg (fun tasks => { m.partBy (m.ranks id) id with tasks }) htasks

/-- A call on another peer goes on. -/
theorem part_setStage_of_ne (hne : ∀ task, m.tasks[t]? = some task → task.call.concerns id = false) :
    (m.setStage t s).part id = m.part id := by
  have htasks : ((m.tasks.modify t fun task => { task with stage := s }).filter
      (·.call.concerns id)).map (m.partOfTask (m.ranks id) id) =
      (m.tasks.filter (·.call.concerns id)).map (m.partOfTask (m.ranks id) id) :=
    congrArg _ (filter_modify_of_neg (fun _ => rfl) hne)
  simp only [part, ranks_setStage]
  exact congrArg (fun tasks => { m.partBy (m.ranks id) id with tasks }) htasks

/-! ## What is new -/

/-- An entry is one peer's only. -/
theorem HasEntry.unique {id' : PeerId} (h : m.HasEntry id e) (h' : m.HasEntry id' e) : id = id' := by
  obtain ⟨entry, found, rfl⟩ := h
  exact h'.eq found

/-- A retirement regards the peer as long as it is not over and is of an entry of the peer. -/
theorem regards_iff {job : Retirement} :
    m.regards id job = true ↔ job.isFinished = false ∧ m.HasEntry id job.entry := by
  simp only [regards, Bool.and_eq_true, Bool.not_eq_true', HasEntry]
  cases m.entries[job.entry]? <;> simp

/-- What a close retires are entries of peers. -/
theorem within_of_retires {job : Retirement} (hs : s.Retires m) (hjob : job ∈ s.jobs) :
    ∃ k, job.Within k m := by
  cases s with
  | retiring jobs a => exact hs job hjob
  | locking | creating | finished | cancelled => cases hjob

/-- What a close still has to retire of a peer is within what is the peer's. -/
theorem within_of_regards {job : Retirement} (hjob : ∃ k, job.Within k m)
    (hr : m.regards id job = true) : job.Within id m := by
  obtain ⟨k, hk⟩ := hjob
  obtain ⟨-, hid⟩ := regards_iff.mp hr
  exact hid.unique hk.hasEntry ▸ hk

namespace AgreeOn

variable {ρ' : Renaming}

/-- Numberings that agree on the peer give the same part of a task. -/
theorem partOfTask {task : ProxyTask} (ha : AgreeOn id m ρ ρ') (hw : task.Within m)
    (hc : task.call.concerns id = true) : m.partOfTask ρ id task = m.partOfTask ρ' id task := by
  suffices hstage : m.partOfStage ρ id task.call task.stage =
      m.partOfStage ρ' id task.call task.stage by
    rw [ProxyMap.partOfTask, hstage]
    rfl
  cases hk : task.call.target? with
  | some k =>
    have hid : k = id := by simpa [ProxyCall.concerns, hk] using hc
    simp only [ProxyTask.Within, hk] at hw
    simp only [ProxyMap.partOfStage, hk]
    exact ha.stage (hid ▸ hw)
  | none =>
    simp only [ProxyTask.Within, hk] at hw
    simp only [ProxyMap.partOfStage, hk]
    congr 1
    refine List.map_congr_left fun job hjob => ?_
    obtain ⟨hmem, hr⟩ := List.mem_filter.mp hjob
    exact ha.retirement (within_of_regards (within_of_retires hw hmem) hr)

/-- Under renamings that agree on what the peer has, its part is the same. -/
theorem partBy (ha : AgreeOn id m ρ ρ') (hm : m.Separate) : m.partBy ρ id = m.partBy ρ' id := by
  have hregistry : (m.registry.mapValues fun k e => if k = id then ρ.entry e else 0) =
      m.registry.mapValues fun k e => if k = id then ρ'.entry e else 0 := by
    apply List.map_congr_left
    intro p hp
    dsimp only
    split
    · next hid => rw [ha.entry p.2 (hid ▸ hm.registry p hp)]
    · rfl
  have hentries : (m.entries.filter (·.peer.id = id)).map (ProxyEntry.rename ρ) =
      (m.entries.filter (·.peer.id = id)).map (ProxyEntry.rename ρ') := by
    apply List.map_congr_left
    intro entry hentry
    obtain ⟨hmem, hid⟩ := List.mem_filter.mp hentry
    obtain ⟨e, found⟩ := List.getElem?_of_mem hmem
    exact ha.proxyEntry (hm.entries e entry found) (by simpa using hid)
  have hcreations : (m.creations.filter (·.peer.id = id)).map (Creation.rename ρ) =
      (m.creations.filter (·.peer.id = id)).map (Creation.rename ρ') := by
    apply List.map_congr_left
    intro c hc
    obtain ⟨hmem, hid⟩ := List.mem_filter.mp hc
    obtain ⟨h, made⟩ := List.getElem?_of_mem hmem
    have hid : c.peer.id = id := by simpa using hid
    exact ha.creation (hid ▸ hm.creations h c made)
  have htasks : (m.tasks.filter (·.call.concerns id)).map (m.partOfTask ρ id) =
      (m.tasks.filter (·.call.concerns id)).map (m.partOfTask ρ' id) := by
    apply List.map_congr_left
    intro task htask
    obtain ⟨hmem, hc⟩ := List.mem_filter.mp htask
    obtain ⟨t, ht⟩ := List.getElem?_of_mem hmem
    exact ha.partOfTask (hm.tasks t task ht) hc
  simp only [ProxyMap.partBy, hregistry, hentries, hcreations, htasks]

end AgreeOn

theorem HasEntry.lt (h : m.HasEntry id e) : e < m.entries.length := by
  obtain ⟨entry, found, -⟩ := h
  exact lt_length_of_getElem? found

theorem HasProxy.lt (hh : m.HasProxy id h) : h < m.creations.length := by
  obtain ⟨c, made, -⟩ := hh
  exact lt_length_of_getElem? made

theorem HasCall.lt (h : m.HasCall id t) : t < m.tasks.length := by
  obtain ⟨task, htask, -⟩ := h
  exact lt_length_of_getElem? htask

/-- A call of the factory for the peer. -/
theorem part_addCreation (hm : m.Separate) (hid : c.peer.id = id) :
    (m.addCreation c).part id = (m.part id).addCreation (c.rename (m.ranks id)) := by
  have ha : AgreeOn id m ((m.addCreation c).ranks id) (m.ranks id) :=
    ⟨fun _ _ => rfl, fun k hk => countPBefore_append (Nat.le_of_lt hk.lt), fun _ _ => rfl⟩
  have hcreations : ((m.creations ++ [c]).filter (·.peer.id = id)).map (Creation.rename (m.ranks id)) =
      (m.creations.filter (·.peer.id = id)).map (.rename (m.ranks id)) ++ [c.rename (m.ranks id)] := by
    simp [hid]
  calc (m.addCreation c).part id
    _ = { m.partBy ((m.addCreation c).ranks id) id with
          creations := ((m.creations ++ [c]).filter (·.peer.id = id)).map (.rename (m.ranks id)) } := rfl
    _ = (m.part id).addCreation (c.rename (m.ranks id)) := by rw [hcreations, ha.partBy hm]; rfl

/-- A call of the factory for another peer. -/
theorem part_addCreation_of_ne (hm : m.Separate) (hid : c.peer.id ≠ id) :
    (m.addCreation c).part id = m.part id := by
  have ha : AgreeOn id m ((m.addCreation c).ranks id) (m.ranks id) :=
    ⟨fun _ _ => rfl, fun k hk => countPBefore_append (Nat.le_of_lt hk.lt), fun _ _ => rfl⟩
  have hcreations : (m.creations ++ [c]).filter (·.peer.id = id) =
      m.creations.filter (·.peer.id = id) := by
    simp [hid]
  calc (m.addCreation c).part id
    _ = { m.partBy ((m.addCreation c).ranks id) id with
          creations := ((m.creations ++ [c]).filter (·.peer.id = id)).map (.rename (m.ranks id)) } := rfl
    _ = m.part id := by rw [hcreations, ha.partBy hm]; rfl

/-- A call on the peer, or a close, begins. -/
theorem part_enter (hm : m.Separate) (hc : call.concerns id = true) :
    (m.enter call).part id = (m.part id).enter call := by
  have ha : AgreeOn id m ((m.enter call).ranks id) (m.ranks id) :=
    ⟨fun _ _ => rfl, fun _ _ => rfl, fun u hu => countPBefore_append (Nat.le_of_lt hu.lt)⟩
  -- a call that has not done anything yet has nothing to retire
  have hnew : ∀ ρ, m.partOfTask ρ id ⟨call, .retiring [] .done⟩ = ⟨call, .retiring [] .done⟩ := by
    intro ρ
    unfold partOfTask partOfStage
    cases call <;> rfl
  have htasks : ((m.enter call).tasks.filter (·.call.concerns id)).map
      (m.partOfTask ((m.enter call).ranks id) id) =
      (m.tasks.filter (·.call.concerns id)).map (m.partOfTask ((m.enter call).ranks id) id) ++
        [⟨call, .retiring [] .done⟩] := by
    simp [enter, hc, hnew]
  calc (m.enter call).part id
    _ = { m.partBy ((m.enter call).ranks id) id with
          tasks := ((m.enter call).tasks.filter (·.call.concerns id)).map
            (m.partOfTask ((m.enter call).ranks id) id) } := rfl
    _ = (m.partBy ((m.enter call).ranks id) id).enter call := by rw [htasks]; rfl
    _ = (m.part id).enter call := by rw [ha.partBy hm]; rfl

/-- A call on another peer begins. -/
theorem part_enter_of_ne (hm : m.Separate) (hc : call.concerns id = false) :
    (m.enter call).part id = m.part id := by
  have ha : AgreeOn id m ((m.enter call).ranks id) (m.ranks id) :=
    ⟨fun _ _ => rfl, fun _ _ => rfl, fun u hu => countPBefore_append (Nat.le_of_lt hu.lt)⟩
  have htasks : (m.enter call).tasks.filter (·.call.concerns id) =
      m.tasks.filter (·.call.concerns id) := by
    simp [enter, hc]
  calc (m.enter call).part id
    _ = { m.partBy ((m.enter call).ranks id) id with
          tasks := ((m.enter call).tasks.filter (·.call.concerns id)).map
            (m.partOfTask ((m.enter call).ranks id) id) } := rfl
    _ = m.partBy ((m.enter call).ranks id) id := by rw [htasks]; rfl
    _ = m.part id := ha.partBy hm

/-- A new entry changes nothing for the retirements that there are. -/
theorem regards_enrol {job : Retirement} {peer : Peer} (hw : ∃ k, job.Within k m) :
    (m.enrol peer).regards id job = m.regards id job := by
  obtain ⟨k, hk⟩ := hw
  simp only [regards, enrol, List.getElem?_append_left hk.hasEntry.lt]

/-- Nor for the tasks. -/
theorem partOfTask_enrol {task : ProxyTask} {peer : Peer} (hw : task.Within m) :
    (m.enrol peer).partOfTask ρ id task = m.partOfTask ρ id task := by
  cases hk : task.call.target? with
  | some k => simp only [partOfTask, partOfStage, hk]
  | none =>
    simp only [ProxyTask.Within, hk] at hw
    have hjobs : task.stage.jobs.filter ((m.enrol peer).regards id) =
        task.stage.jobs.filter (m.regards id) :=
      List.filter_congr fun job hjob => regards_enrol (within_of_retires hw hjob)
    simp only [partOfTask, partOfStage, hk, hjobs]

/-- What registering a peer comes to, up to the entry that is made for it. -/
theorem part_enrol_eq (hm : m.Separate) (peer : Peer) :
    (m.enrol peer).part id = { m.part id with
      registry := (m.part id).registry.set peer.id
        (if peer.id = id then (m.part id).entries.length else 0)
      entries := (m.part id).entries ++ if peer.id = id then [.fresh peer] else [] } := by
  have ha : AgreeOn id m ((m.enrol peer).ranks id) (m.ranks id) :=
    ⟨fun x hx => countPBefore_append (Nat.le_of_lt hx.lt), fun _ _ => rfl, fun _ _ => rfl⟩
  have hlength : ((m.enrol peer).ranks id).entry m.entries.length = (m.part id).entries.length :=
    (countPBefore_append (Nat.le_refl _)).trans length_part_entries.symm
  have hregistry : ((m.enrol peer).registry.mapValues fun k x =>
      if k = id then ((m.enrol peer).ranks id).entry x else 0) =
      (m.registry.mapValues fun k x => if k = id then ((m.enrol peer).ranks id).entry x else 0).set
        peer.id (if peer.id = id then (m.part id).entries.length else 0) := by
    rw [← hlength]
    exact Registry.mapValues_set
  have hentries : ((m.enrol peer).entries.filter (·.peer.id = id)).map
      (ProxyEntry.rename ((m.enrol peer).ranks id)) =
      (m.entries.filter (·.peer.id = id)).map (.rename ((m.enrol peer).ranks id)) ++
        if peer.id = id then [.fresh peer] else [] := by
    by_cases hid : peer.id = id
    · simp [enrol, ProxyEntry.fresh, hid]
      rfl
    · simp [enrol, ProxyEntry.fresh, hid]
  have htasks : (m.tasks.filter (·.call.concerns id)).map
      ((m.enrol peer).partOfTask ((m.enrol peer).ranks id) id) =
      (m.tasks.filter (·.call.concerns id)).map (m.partOfTask ((m.enrol peer).ranks id) id) := by
    apply List.map_congr_left
    intro task htask
    obtain ⟨t, ht⟩ := List.getElem?_of_mem (List.mem_filter.mp htask).1
    exact partOfTask_enrol (hm.tasks t task ht)
  calc (m.enrol peer).part id
    _ = { m.partBy ((m.enrol peer).ranks id) id with
          registry := (m.enrol peer).registry.mapValues fun k x =>
            if k = id then ((m.enrol peer).ranks id).entry x else 0
          entries := ((m.enrol peer).entries.filter (·.peer.id = id)).map
            (ProxyEntry.rename ((m.enrol peer).ranks id))
          tasks := (m.tasks.filter (·.call.concerns id)).map
            ((m.enrol peer).partOfTask ((m.enrol peer).ranks id) id) } := rfl
    _ = { m.partBy ((m.enrol peer).ranks id) id with
          registry := (m.partBy ((m.enrol peer).ranks id) id).registry.set peer.id
            (if peer.id = id then (m.part id).entries.length else 0)
          entries := (m.partBy ((m.enrol peer).ranks id) id).entries ++
            if peer.id = id then [.fresh peer] else [] } := by rw [hregistry, hentries, htasks]; rfl
    _ = _ := by rw [ha.partBy hm]; rfl

/-- A fresh entry for the peer. -/
theorem part_enrol (hm : m.Separate) {peer : Peer} (hid : peer.id = id) :
    (m.enrol peer).part id = (m.part id).enrol peer := by
  rw [part_enrol_eq hm, if_pos hid, if_pos hid]
  rfl

/-- A fresh entry for another peer that is registered already. -/
theorem part_enrol_of_ne (hm : m.Separate) {peer : Peer} (hne : peer.id ≠ id)
    (hget : (m.registry.get? peer.id).isSome = true) : (m.enrol peer).part id = m.part id := by
  obtain ⟨x, hx⟩ := Option.isSome_iff_exists.mp hget
  have hzero : (m.part id).registry.get? peer.id = some 0 := by
    simp [part_get?, hx, hne]
  have hsorted : (m.part id).registry.Sorted := by
    rw [part_registry]
    exact hm.sorted.mapValues
  have hsame : (m.part id).registry.set peer.id 0 = (m.part id).registry := hsorted.set_of_get? hzero
  rw [part_enrol_eq hm, if_neg hne, if_neg hne, hsame, List.append_nil]

/-- Registering a peer comes to the same for maps of which another peer has the same part. -/
theorem part_register {m' : ProxyMap} (hm : m.Separate) (hm' : m'.Separate)
    (hpart : m.part id = m'.part id) (peer : Peer) :
    (m.register peer).part id = (m'.register peer).part id := by
  have hcontains : m.contains peer.id = m'.contains peer.id := by
    have hget := congrArg (fun s : ProxyMap => (s.registry.get? peer.id).isSome) hpart
    simp only [part_get?, Option.isSome_map] at hget
    exact hget
  unfold register
  rw [hcontains]
  split
  · exact hpart
  · exact (part_enrol_eq hm peer).trans ((hpart ▸ part_enrol_eq hm' peer).symm)

end ProxyMap

end Replica
