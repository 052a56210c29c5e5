import Replica.Proofs.Proxy.Events

/-!
# What belongs to a peer

Every entry, every proxy and every call but a close is some peer's. In a map that is `Separate`, whatever
is a peer's refers only to what is that peer's own: an entry caches a proxy of its peer, calls on its peer
or closes stand in its line, and a call on a peer goes for the entries of the peer and is answered with its
proxies. Only closes go for the entries of several peers.

Each change of one place keeps a map separate, if what is put there is within what is the peer's.
-/

namespace Replica

/-- The peer that a call is about. A close is about all of them. -/
def ProxyCall.target? : ProxyCall → Option PeerId
  | .lookUp id | .reset id | .repair id _ _ => some id
  | .close => none

/-- Whether the call is about the peer, or about all of them. -/
def ProxyCall.concerns (id : PeerId) (call : ProxyCall) : Bool := call.target?.all (· = id)

/-- A call on a peer concerns the peer. -/
theorem ProxyCall.concerns_of_target? {call : ProxyCall} {id : PeerId} (h : call.target? = some id) :
    call.concerns id = true := by
  simp [concerns, h]

/-- The entry that a retirement is about. -/
def Retirement.entry : Retirement → EntryId
  | .locking e | .closing e _ _ | .finished e => e

namespace ProxyEntry

variable {e : ProxyEntry} {t u : TaskId}

/-- In the queue are the owner of the lock and those in line. -/
theorem mem_queue_iff : u ∈ e.queue ↔ e.owner = some u ∨ u ∈ e.line := by
  simp [queue]

/-- Asking for the lock adds nobody else to the queue. -/
theorem mem_queue_lock (h : u ∈ (e.lock t).queue) : u = t ∨ u ∈ e.queue := by
  unfold lock at h
  split at h <;> simp_all [queue]
  grind

/-- Those behind the holder of the lock are left. -/
theorem queue_unlock (e : ProxyEntry) : e.unlock.queue = e.line := by
  unfold unlock queue
  split <;> simp [*]

/-- Giving up the lock adds nobody to the queue. -/
theorem mem_queue_unlock (h : u ∈ e.unlock.queue) : u ∈ e.queue := by
  rw [queue_unlock] at h
  exact List.mem_append_right _ h

/-- Leaving the line adds nobody to the queue. -/
theorem mem_queue_leave (h : u ∈ (e.leave t).queue) : u ∈ e.queue := by
  unfold leave at h
  split at h
  · exact mem_queue_unlock h
  · rcases mem_queue_iff.mp h with howner | hline
    · exact mem_queue_iff.mpr (.inl howner)
    · exact mem_queue_iff.mpr (.inr (List.mem_of_mem_erase hline))

@[simp] theorem giveUp_peer : e.giveUp.peer = e.peer := rfl

@[simp] theorem retire_peer : e.retire.1.peer = e.peer := by unfold retire; split <;> rfl

/-- Whatever is in the slot of a closed entry was there before. -/
theorem slot_of_retire {h : Handle} (hs : e.retire.1.slot = some h) : e.slot = some h := by
  unfold retire at hs
  split at hs
  · exact hs
  · cases hs

theorem retire_queue : e.retire.1.queue = e.queue := by unfold retire; split <;> rfl

@[simp] theorem install_peer (h : Handle) : (e.install h).1.peer = e.peer := by
  unfold install; dsimp only; split <;> rfl

@[simp] theorem install_slot (h : Handle) : (e.install h).1.slot = some h := by
  unfold install; dsimp only; split <;> rfl

/-- A proxy that is installed leaves the queue as it was. -/
theorem install_queue (h : Handle) : (e.install h).1.queue = e.queue := by
  unfold install; dsimp only; split <;> rfl

/-- Installing a proxy answers with this proxy, or not at all. -/
theorem install_answer {h k : Handle} (hk : (e.install h).2 = .ok k) : k = h := by
  unfold install at hk
  dsimp only at hk
  split at hk <;> cases hk
  rfl

end ProxyEntry

namespace ProxyMap

variable {m m' : ProxyMap} {id : PeerId} {e : EntryId} {h : Handle} {t : TaskId} {now : Nat}
variable {factory : Factory} {f : ProxyEntry → ProxyEntry}

/-! ## What is a peer's -/

def HasEntry (id : PeerId) (e : EntryId) (m : ProxyMap) : Prop :=
  ∃ entry, m.entries[e]? = some entry ∧ entry.peer.id = id

def HasProxy (id : PeerId) (h : Handle) (m : ProxyMap) : Prop :=
  ∃ c, m.creations[h]? = some c ∧ c.peer.id = id

def HasCall (id : PeerId) (t : TaskId) (m : ProxyMap) : Prop :=
  ∃ task, m.tasks[t]? = some task ∧ task.call.concerns id = true

/-- What is a peer's stays the peer's. -/
structure Keeps (m m' : ProxyMap) : Prop where
  entry : ∀ id e, m.HasEntry id e → m'.HasEntry id e
  proxy : ∀ id h, m.HasProxy id h → m'.HasProxy id h
  call : ∀ id t, m.HasCall id t → m'.HasCall id t

end ProxyMap

/-- The retirement is of an entry of the peer, and of a proxy of the peer. -/
def Retirement.Within (id : PeerId) (m : ProxyMap) : Retirement → Prop
  | .locking e | .finished e => m.HasEntry id e
  | .closing e h _ => m.HasEntry id e ∧ m.HasProxy id h

/-- The entry of a peer's retirement is the peer's. -/
theorem Retirement.Within.hasEntry {id : PeerId} {m : ProxyMap} {job : Retirement}
    (hjob : job.Within id m) : m.HasEntry id job.entry := by
  cases job with
  | locking e | finished e => exact hjob
  | closing e h wake => exact hjob.1

def ProxyAnswer.Within (id : PeerId) (m : ProxyMap) : ProxyAnswer → Prop
  | .proxy (.ok h) => m.HasProxy id h
  | _ => True

def ProxyStage.Within (id : PeerId) (m : ProxyMap) : ProxyStage → Prop
  | .locking e => m.HasEntry id e
  | .creating e h _ => m.HasEntry id e ∧ m.HasProxy id h
  | .retiring jobs a => (∀ job ∈ jobs, job.Within id m) ∧ a.Within id m
  | .finished _ a => a.Within id m
  | .cancelled => True

/-- The call retires entries of all peers, and does nothing else. -/
def ProxyStage.Retires (m : ProxyMap) : ProxyStage → Prop
  | .locking _ | .creating .. => False
  | .retiring jobs _ => ∀ job ∈ jobs, ∃ id, job.Within id m
  | .finished .. | .cancelled => True

/-- A call on a peer stays within what is the peer's. A close may retire entries of all peers. -/
def ProxyTask.Within (m : ProxyMap) (task : ProxyTask) : Prop :=
  match task.call.target? with
  | some id => task.stage.Within id m
  | none => task.stage.Retires m

structure ProxyEntry.Within (m : ProxyMap) (entry : ProxyEntry) : Prop where
  slot : ∀ h, entry.slot = some h → m.HasProxy entry.peer.id h
  queue : ∀ t ∈ entry.queue, m.HasCall entry.peer.id t

namespace ProxyMap

variable {m m' : ProxyMap} {id : PeerId} {e : EntryId} {h : Handle} {t : TaskId} {now : Nat}
variable {factory : Factory} {f : ProxyEntry → ProxyEntry} {entry : ProxyEntry} {s : ProxyStage}
variable {job : Retirement} {jobs : List Retirement} {a : ProxyAnswer}

/-- What is a peer's refers only to what is the peer's own. -/
structure Separate (m : ProxyMap) : Prop where
  sorted : m.registry.Sorted
  registry : ∀ p ∈ m.registry, m.HasEntry p.1 p.2
  entries : ∀ (e : EntryId) (entry : ProxyEntry), m.entries[e]? = some entry → entry.Within m
  creations : ∀ (h : Handle) (c : Creation), m.creations[h]? = some c → m.HasEntry c.peer.id c.entry
  tasks : ∀ (t : TaskId) (task : ProxyTask), m.tasks[t]? = some task → task.Within m

/-- On a new map there is nothing that could be shared. -/
theorem Separate.empty (name : String) : Separate { name := name } where
  sorted := Registry.sorted_nil
  registry p hp := by cases hp
  entries e entry h := by cases h
  creations h c hc := by cases hc
  tasks t task h := by cases h

/-! ## What is a peer's stays the peer's -/

theorem Keeps.refl (m : ProxyMap) : Keeps m m := ⟨fun _ _ h => h, fun _ _ h => h, fun _ _ h => h⟩

namespace Keeps

/-- What is kept in two steps stays the peer's. -/
theorem trans {m'' : ProxyMap} (h : Keeps m m') (h' : Keeps m' m'') : Keeps m m'' where
  entry id e he := h'.entry id e (h.entry id e he)
  proxy id k hk := h'.proxy id k (h.proxy id k hk)
  call id t ht := h'.call id t (h.call id t ht)

/-- A retirement stays within its peer. -/
theorem retirement (hk : Keeps m m') (hj : job.Within id m) : job.Within id m' := by
  cases job with
  | locking e | finished e => exact hk.entry id e hj
  | closing e h wake => exact ⟨hk.entry id e hj.1, hk.proxy id h hj.2⟩

/-- An answer stays within its peer. -/
theorem answer (hk : Keeps m m') (ha : a.Within id m) : a.Within id m' := by
  cases a with
  | proxy result =>
    cases result with
    | ok h => exact hk.proxy id h ha
    | error e => trivial
  | done | repaired => trivial

/-- A call stays within its peer at the stage that it has reached. -/
theorem stage (hk : Keeps m m') (hs : s.Within id m) : s.Within id m' := by
  cases s with
  | locking e => exact hk.entry id e hs
  | creating e h wake => exact ⟨hk.entry id e hs.1, hk.proxy id h hs.2⟩
  | retiring jobs a => exact ⟨fun job hjob => hk.retirement (hs.1 job hjob), hk.answer hs.2⟩
  | finished time a => exact hk.answer hs
  | cancelled => trivial

/-- A task stays within its peers. -/
theorem task {task : ProxyTask} (hk : Keeps m m') (ht : task.Within m) : task.Within m' := by
  unfold ProxyTask.Within at ht ⊢
  split at ht
  · exact hk.stage ht
  · cases hs : task.stage with
    | locking | creating => rw [hs] at ht; exact ht
    | finished | cancelled => trivial
    | retiring jobs a =>
      rw [hs] at ht
      intro job hjob
      obtain ⟨id, hwithin⟩ := ht job hjob
      exact ⟨id, hk.retirement hwithin⟩

/-- An entry keeps its queue within its peer. -/
theorem proxyEntry (hk : Keeps m m') (he : entry.Within m) : entry.Within m' where
  slot h hslot := hk.proxy _ h (he.slot h hslot)
  queue t ht := hk.call _ t (he.queue t ht)

end Keeps

/-! ## Changes of one place -/

/-- The map with one more call of the factory. -/
def addCreation (c : Creation) (m : ProxyMap) : ProxyMap := { m with creations := m.creations ++ [c] }

/-- An entry that is modified stays with its peer. -/
theorem keeps_modifyEntry (hf : ∀ y, (f y).peer = y.peer) : Keeps m (m.modifyEntry e f) where
  entry id x hx := by
    obtain ⟨entry, found, rfl⟩ := hx
    refine ⟨_, getElem?_modify_eq_some_iff.mpr ⟨entry, found, rfl⟩, ?_⟩
    split
    · rw [hf]
    · rfl
  proxy id h hh := hh
  call id t ht := ht

/-- So does a creation. -/
theorem keeps_modifyCreation {g : Creation → Creation} (hg : ∀ c, (g c).peer = c.peer) :
    Keeps m (m.modifyCreation h g) where
  entry id x hx := hx
  proxy id k hk := by
    obtain ⟨c, hc, rfl⟩ := hk
    refine ⟨_, getElem?_modify_eq_some_iff.mpr ⟨c, hc, rfl⟩, ?_⟩
    split
    · rw [hg]
    · rfl
  call id t ht := ht

/-- The stage of a call does not matter to whose call it is. -/
theorem keeps_setStage : Keeps m (m.setStage t s) where
  entry id x hx := hx
  proxy id k hk := hk
  call id u hu := by
    obtain ⟨task, htask, hcall⟩ := hu
    refine ⟨_, getElem?_modify_eq_some_iff.mpr ⟨task, htask, rfl⟩, ?_⟩
    split <;> exact hcall

/-- A new creation takes nothing from anybody. -/
theorem keeps_addCreation {c : Creation} : Keeps m (m.addCreation c) where
  entry id x hx := hx
  proxy id k hk := by
    obtain ⟨d, hd, hid⟩ := hk
    exact ⟨d, getElem?_concat_of_some c hd, hid⟩
  call id t ht := ht

/-- Neither does a new entry. -/
theorem keeps_enrol (peer : Peer) : Keeps m (m.enrol peer) where
  entry id x hx := by
    obtain ⟨entry, found, hid⟩ := hx
    exact ⟨entry, getElem?_concat_of_some _ found, hid⟩
  proxy id k hk := hk
  call id t ht := ht

/-- Neither does a new call. -/
theorem keeps_enter (call : ProxyCall) : Keeps m (m.enter call) where
  entry id x hx := hx
  proxy id k hk := hk
  call id t ht := by
    obtain ⟨task, htask, hcall⟩ := ht
    exact ⟨task, getElem?_concat_of_some _ htask, hcall⟩

namespace Separate

/-- An entry may be modified as long as it stays within its peer. -/
theorem modifyEntry (hm : m.Separate) (hf : ∀ y, (f y).peer = y.peer)
    (he : ∀ entry, m.entries[e]? = some entry → (f entry).Within m) :
    (m.modifyEntry e f).Separate where
  sorted := hm.sorted
  registry p hp := (keeps_modifyEntry hf).entry _ _ (hm.registry p hp)
  entries x new hnew := by
    obtain ⟨old, hold, rfl⟩ := getElem?_modify_eq_some_iff.mp hnew
    apply (keeps_modifyEntry hf).proxyEntry
    split
    · next hex =>
      subst hex
      exact he old hold
    · exact hm.entries x old hold
  creations h c hc := (keeps_modifyEntry hf).entry _ _ (hm.creations h c hc)
  tasks t task htask := (keeps_modifyEntry hf).task (hm.tasks t task htask)

/-- Handing the lock around keeps an entry within what is its peer's. -/
theorem relock (hm : m.Separate) (hf : ∀ y, (f y).peer = y.peer) (hslot : ∀ y, (f y).slot = y.slot)
    (hqueue : ∀ y u, u ∈ (f y).queue → u ∈ y.queue ∨ m.HasCall y.peer.id u) :
    (m.modifyEntry e f).Separate := by
  apply hm.modifyEntry hf
  intro entry found
  have hwithin := hm.entries e entry found
  refine ⟨fun h hh => ?_, fun u hu => ?_⟩
  · rw [hf]
    exact hwithin.slot h ((hslot entry).symm.trans hh)
  · rw [hf]
    exact (hqueue entry u hu).elim (hwithin.queue u) id

/-- The lock is handed on within the peer's calls. -/
theorem unlock (hm : m.Separate) : (m.modifyEntry e .unlock).Separate :=
  hm.relock (fun _ => ProxyEntry.unlock_peer) (fun _ => ProxyEntry.unlock_slot)
    fun _ _ hu => .inl (ProxyEntry.mem_queue_unlock hu)

/-- A call that gives up waiting leaves the others separate. -/
theorem leave (hm : m.Separate) : (m.modifyEntry e (.leave t)).Separate :=
  hm.relock (fun _ => ProxyEntry.leave_peer) (fun _ => ProxyEntry.leave_slot)
    fun _ _ hu => .inl (ProxyEntry.mem_queue_leave hu)

/-- A call may ask for the lock of an entry of a peer that it concerns. -/
theorem lock (hm : m.Separate) (ht : ∀ entry, m.entries[e]? = some entry → m.HasCall entry.peer.id t) :
    (m.modifyEntry e (.lock t)).Separate := by
  apply hm.modifyEntry fun _ => ProxyEntry.lock_peer
  intro entry found
  have hwithin := hm.entries e entry found
  refine ⟨fun h hh => ?_, fun u hu => ?_⟩
  · rw [ProxyEntry.lock_peer]
    exact hwithin.slot h (ProxyEntry.lock_slot.symm.trans hh)
  · rw [ProxyEntry.lock_peer]
    rcases ProxyEntry.mem_queue_lock hu with rfl | hu
    · exact ht entry found
    · exact hwithin.queue u hu

/-- A creation may be modified as long as it stays with its entry and its peer. -/
theorem modifyCreation {g : Creation → Creation} (hm : m.Separate)
    (hg : ∀ c, (g c).peer = c.peer ∧ (g c).entry = c.entry) : (m.modifyCreation h g).Separate where
  sorted := hm.sorted
  registry p hp := hm.registry p hp
  entries e entry found := (keeps_modifyCreation fun c => (hg c).1).proxyEntry (hm.entries e entry found)
  creations k c hc := by
    obtain ⟨d, hd, rfl⟩ := getElem?_modify_eq_some_iff.mp hc
    split
    · rw [(hg d).1, (hg d).2]
      exact hm.creations k d hd
    · exact hm.creations k d hd
  tasks t task htask := (keeps_modifyCreation fun c => (hg c).1).task (hm.tasks t task htask)

/-- A call may come to any stage that is within its peer. -/
theorem setStage (hm : m.Separate)
    (hs : ∀ task, m.tasks[t]? = some task → ProxyTask.Within m { task with stage := s }) :
    (m.setStage t s).Separate where
  sorted := hm.sorted
  registry p hp := hm.registry p hp
  entries e entry found := keeps_setStage.proxyEntry (hm.entries e entry found)
  creations h c hc := hm.creations h c hc
  tasks u task hu := by
    obtain ⟨old, hold, rfl⟩ := getElem?_modify_eq_some_iff.mp hu
    apply keeps_setStage.task
    split
    · next htu =>
      subst htu
      exact hs old hold
    · exact hm.tasks u old hold

/-- A creation may be added for an entry of the same peer. -/
theorem addCreation {c : Creation} (hm : m.Separate) (hc : m.HasEntry c.peer.id c.entry) :
    (m.addCreation c).Separate where
  sorted := hm.sorted
  registry p hp := hm.registry p hp
  entries e entry found := keeps_addCreation.proxyEntry (hm.entries e entry found)
  creations h d hd := by
    rcases getElem?_concat_eq_some_iff.mp hd with hd | ⟨-, rfl⟩
    · exact hm.creations h d hd
    · exact hc
  tasks t task htask := keeps_addCreation.task (hm.tasks t task htask)

/-- A new entry has nobody at its lock, so it shares nothing. -/
theorem enrol (hm : m.Separate) (peer : Peer) : (m.enrol peer).Separate where
  sorted := hm.sorted.set
  registry p hp := by
    rcases Registry.mem_set hp with rfl | hp
    · exact ⟨.fresh peer, getElem?_concat_eq_some_iff.mpr (.inr ⟨rfl, rfl⟩), rfl⟩
    · exact (keeps_enrol peer).entry _ _ (hm.registry p hp)
  entries e entry found := by
    rcases getElem?_concat_eq_some_iff.mp found with found | ⟨-, rfl⟩
    · exact (keeps_enrol peer).proxyEntry (hm.entries e entry found)
    · exact ⟨nofun, fun t ht => by cases ht⟩
  creations h c hc := (keeps_enrol peer).entry _ _ (hm.creations h c hc)
  tasks t task htask := (keeps_enrol peer).task (hm.tasks t task htask)

/-- A new call is at no entry yet. -/
theorem enter (hm : m.Separate) (call : ProxyCall) : (m.enter call).Separate where
  sorted := hm.sorted
  registry p hp := hm.registry p hp
  entries e entry found := (keeps_enter call).proxyEntry (hm.entries e entry found)
  creations h c hc := hm.creations h c hc
  tasks t task htask := by
    rcases getElem?_concat_eq_some_iff.mp htask with htask | ⟨-, rfl⟩
    · exact (keeps_enter call).task (hm.tasks t task htask)
    · unfold ProxyTask.Within
      split
      · exact ⟨List.forall_mem_nil _, trivial⟩
      · exact List.forall_mem_nil _

/-- A call may end with an answer that is right for its peer. -/
theorem finish (hm : m.Separate)
    (ha : ∀ task id, m.tasks[t]? = some task → task.call.target? = some id → a.Within id m) :
    (m.finish now t a).Separate := by
  apply hm.setStage
  intro task htask
  unfold ProxyTask.Within
  split
  · next id hid => exact ha task id htask hid
  · trivial

/-- A look-up at the lock is for the peer of the entry. -/
theorem of_locking (hm : m.Separate) (hstage : m.stage? t = some (.locking e)) :
    ∃ call id, m.tasks[t]? = some ⟨call, .locking e⟩ ∧ call.target? = some id ∧ m.HasEntry id e := by
  obtain ⟨call, htask⟩ := stage?_eq_some_iff.mp hstage
  have hwithin := hm.tasks t _ htask
  unfold ProxyTask.Within at hwithin
  split at hwithin
  · next id hid => exact ⟨call, id, htask, hid, hwithin⟩
  · exact hwithin.elim

/-- A look-up that waits for the factory waits for a proxy of the peer of the entry. -/
theorem of_creating (hm : m.Separate) {wake : Nat} (hstage : m.stage? t = some (.creating e h wake)) :
    ∃ call id, m.tasks[t]? = some ⟨call, .creating e h wake⟩ ∧ call.target? = some id ∧
      m.HasEntry id e ∧ m.HasProxy id h := by
  obtain ⟨call, htask⟩ := stage?_eq_some_iff.mp hstage
  have hwithin := hm.tasks t _ htask
  unfold ProxyTask.Within at hwithin
  split at hwithin
  · next id hid => exact ⟨call, id, htask, hid, hwithin⟩
  · exact hwithin.elim

end Separate

end ProxyMap

end Replica
