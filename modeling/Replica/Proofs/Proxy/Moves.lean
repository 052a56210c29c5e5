import Mathlib.Logic.Relation
import Replica.Proofs.Proxy.Invariant

/-!
# The moves of a proxy map

Whatever happens in a proxy map comes down to a few moves, each of one call. `Advance` has the moves
of a call that is under way, and `Move` those with which calls begin and peers are registered as well.
What the moves keep is shown here and in the modules that build on this one; that events come down to
moves is in `Replica.Proofs.Proxy.Events`.

What is given up when a call is cancelled matters: a reset that has swapped an entry out is the only
one that will ever empty it. So the moves come with what `may` be given up.
-/

namespace Replica

/-- The call resets the peer's proxy. -/
def ProxyCall.Resets (id : PeerId) : ProxyCall → Prop
  | .reset id' => id' = id
  | .repair id' _ _ => id' = id
  | _ => False

/-- The same entry later: closed if it was closed. -/
def ProxyEntry.Becomes (entry entry' : ProxyEntry) : Prop :=
  entry'.peer = entry.peer ∧ (entry.lifecycle.state = .closed → entry'.lifecycle.state = .closed)

/-- The same creation later: successful if it was successful. -/
def Creation.Becomes (c c' : Creation) : Prop :=
  c'.entry = c.entry ∧ (c.outcome = some .created → c'.outcome = some .created)

namespace ProxyMap

/-- What is given up when a call is cancelled. -/
inductive Loss where
  /-- A look-up. -/
  | lookUp
  /-- An entry that a reset or a close was going to retire. -/
  | entry

/-- A call that is under way goes on, or is cancelled. -/
inductive Advance (may : Loss → Prop) (t : TaskId) : ProxyMap → ProxyMap → Prop
  /-- A look-up that holds the lock calls the factory. -/
  | start {m : ProxyMap} {e : EntryId} {entry : ProxyEntry} {script : Script} {now wake : Nat}
      (stage : m.stage? t = some (.locking e)) (found : m.entries[e]? = some entry)
      (owner : entry.owner = some t) (empty : entry.slot = none)
      (isOpen : entry.lifecycle.state ≠ .closed) :
      Advance may t m
        (m.act e (fun y => { y with lifecycle := y.lifecycle.withState .starting })
          (m.creations ++ [{ peer := entry.peer, entry := e, script, calledAt := now }])
          t (.creating e m.creations.length wake))
  /-- A look-up that holds the lock ends without calling the factory. -/
  | answer {m : ProxyMap} {e : EntryId} {entry : ProxyEntry} {now : Nat}
      {result : Except PeerError Handle}
      (stage : m.stage? t = some (.locking e)) (found : m.entries[e]? = some entry)
      (owner : entry.owner = some t) (cached : ∀ h, result = .ok h → entry.slot = some h) :
      Advance may t m (m.act e .unlock m.creations t (.finished now (.proxy result)))
  | succeed {m : ProxyMap} {e : EntryId} {h : Handle} {now wake : Nat} {entry : ProxyEntry}
      {c : Creation}
      (stage : m.stage? t = some (.creating e h wake)) (found : m.entries[e]? = some entry)
      (made : m.creations[h]? = some c) :
      Advance may t m
        (m.act e (fun y => (y.install h).1.unlock) (m.creations.modify h (Creation.ended .created)) t
          (.finished now (.proxy (.ok h))))
  | fail {m : ProxyMap} {e : EntryId} {h : Handle} {now wake : Nat} {entry : ProxyEntry}
      {c : Creation} {err : PeerError}
      (stage : m.stage? t = some (.creating e h wake)) (found : m.entries[e]? = some entry)
      (made : m.creations[h]? = some c) (failure : c.script.failure = some err) :
      Advance may t m
        (m.act e (fun y => y.giveUp.unlock) (m.creations.modify h (Creation.ended .failed)) t
          (.finished now (.proxy (.error err))))
  /-- A look-up is cancelled. -/
  | leave {m : ProxyMap} {e : EntryId} {entry : ProxyEntry} {s : ProxyStage} (loses : may .lookUp)
      (stage : m.stage? t = some s) (looking : s = .locking e ∨ ∃ h wake, s = .creating e h wake)
      (found : m.entries[e]? = some entry) :
      Advance may t m (m.act e (.leave t) m.creations t .cancelled)
  /-- A reset or close that holds the lock of an entry retires it. -/
  | retire {m : ProxyMap} {e : EntryId} {entry : ProxyEntry} {pre post : List Retirement}
      {job : Retirement} {a : ProxyAnswer} {now : Nat}
      (stage : m.stage? t = some (.retiring (pre ++ .locking e :: post) a))
      (found : m.entries[e]? = some entry) (owner : entry.owner = some t)
      (done : job.lock? = none) :
      Advance may t m
        (m.act e (fun y => y.retire.1.unlock) (askToClose now entry.slot m.creations) t
          (.retiring (pre ++ job :: post) a))
  /-- A proxy has closed. -/
  | closed {m : ProxyMap} {e : EntryId} {h : Handle} {now wake : Nat} {pre post : List Retirement}
      {a : ProxyAnswer} (stage : m.stage? t = some (.retiring (pre ++ .closing e h wake :: post) a)) :
      Advance may t m
        ((m.concludeClose now h).setStage t (.retiring (pre ++ .finished e :: post) a))
  /-- A call that holds and wants no lock ends. -/
  | finish {m : ProxyMap} {jobs : List Retirement} {a : ProxyAnswer} {s : ProxyStage}
      (stage : m.stage? t = some (.retiring jobs a)) (free : jobs.filterMap Retirement.lock? = [])
      (ended : s = .cancelled ∨ ∃ now a, s = .finished now a) :
      Advance may t m (m.setStage t s)
  /-- A reset or close gives up an entry. -/
  | abandon {m : ProxyMap} {e : EntryId} {entry : ProxyEntry} {pre post : List Retirement}
      {a : ProxyAnswer} (loses : may .entry)
      (stage : m.stage? t = some (.retiring (pre ++ .locking e :: post) a))
      (found : m.entries[e]? = some entry) :
      Advance may t m
        (m.act e (.leave t) m.creations t (.retiring (pre ++ .finished e :: post) a))

/-- A call goes on, or begins, or a peer is registered. -/
inductive Move (may : Loss → Prop) (t : TaskId) : ProxyMap → ProxyMap → Prop
  | advance {m m' : ProxyMap} (h : Advance may t m m') : Move may t m m'
  | enrol {m : ProxyMap} {peer : Peer} (absent : m.registry.get? peer.id = none) :
      Move may t m (m.enrol peer)
  | call {m : ProxyMap} (call : ProxyCall) (new : t = m.tasks.length) :
      Move may t m { m with tasks := m.tasks ++ [⟨call, .retiring [] .done⟩] }
  | shut {m : ProxyMap} : Move may t m { m with closed := true }
  /-- A look-up goes for the lock of the registered entry. -/
  | join {m : ProxyMap} {id : PeerId} {e : EntryId} {entry : ProxyEntry} {a : ProxyAnswer}
      (task : m.tasks[t]? = some ⟨.lookUp id, .retiring [] a⟩) (isOpen : m.closed = false)
      (registered : m.registry.get? id = some e) (found : m.entries[e]? = some entry) :
      Move may t m (m.act e (.lock t) m.creations t (.locking e))
  /-- A close goes for the lock of one more entry that is registered. -/
  | await {m : ProxyMap} {e : EntryId} {entry : ProxyEntry} {jobs : List Retirement}
      {a b : ProxyAnswer} (task : m.tasks[t]? = some ⟨.close, .retiring jobs a⟩)
      (isClosed : m.closed = true) (found : m.entries[e]? = some entry)
      (listed : e ∈ m.registry.values) :
      Move may t m (m.act e (.lock t) m.creations t (.retiring (jobs ++ [.locking e]) b))
  /-- A reset swaps in a fresh entry and goes for the lock of the old one. -/
  | renew {m : ProxyMap} {call : ProxyCall} {id : PeerId} {e : EntryId} {entry : ProxyEntry}
      {a b : ProxyAnswer} (task : m.tasks[t]? = some ⟨call, .retiring [] a⟩)
      (resets : call.Resets id) (isOpen : m.closed = false)
      (registered : m.registry.get? id = some e) (found : m.entries[e]? = some entry) :
      Move may t m
        ((m.act e (.lock t) m.creations t (.retiring [.locking e] b)).enrol entry.peer)

variable {may : Loss → Prop} {t u : TaskId} {m m' : ProxyMap} {e x : EntryId} {s s₀ : ProxyStage}
variable {pre post : List Retirement} {a b : ProxyAnswer}

/-! ## The invariant -/

/-- A retirement that gets the lock, or gives it up, leaves one place less at it. -/
theorem releases_job {job : Retirement} (h : job.lock? = none) :
    ProxyStage.Releases e (.retiring (pre ++ .locking e :: post) a)
      (.retiring (pre ++ job :: post) b) := by
  intro x
  simp only [ProxyStage.locks_retiring, List.filterMap_append, List.filterMap_cons, h,
    Retirement.lock?_locking, List.count_append, List.count_cons, beq_iff_eq]
  omega

/-- A change of stages that leaves the locks and the factory calls alone keeps the surroundings. -/
theorem around_setStage (h : m.stage? t = some s₀) (hlocks : s.locks = s₀.locks) (hcalm₀ : s₀.IsCalm)
    (hcalm : s.IsCalm) : (m.setStage t s).around x = m.around x := by
  have heq : (m.setStage t s).around x = (m.act x id m.creations t s).around x := rfl
  rw [heq, around_act_of_ne h (by rw [hlocks]) (fun k w => ?_) fun k => rfl]
  exact iff_of_false (hcalm x k w) (hcalm₀ x k w)

/-- A new call comes after all that have a stage. -/
theorem stage?_call {call : ProxyCall} :
    ({ m with tasks := m.tasks ++ [⟨call, s⟩] } : ProxyMap).stage? u =
      if u = m.tasks.length then some s else m.stage? u := by
  unfold stage?
  rcases Nat.lt_trichotomy u m.tasks.length with hlt | rfl | hgt
  · simp [List.getElem?_append_left hlt, Nat.ne_of_lt hlt]
  · simp
  · have hnone : m.tasks[u]? = none := List.getElem?_eq_none (Nat.le_of_lt hgt)
    have hnone' : (m.tasks ++ [⟨call, s⟩])[u]? = none :=
      List.getElem?_eq_none (by simpa using Nat.succ_le_of_lt hgt)
    simp [hnone, hnone', Nat.ne_of_gt hgt]

/-- The next call has no stage yet. -/
theorem stage?_length : m.stage? m.tasks.length = none := by
  simp [stage?]

/-- A call that has not done anything yet does not touch the surroundings of any entry. -/
theorem around_call {call : ProxyCall} :
    ({ m with tasks := m.tasks ++ [⟨call, .retiring [] a⟩] } : ProxyMap).around x = m.around x := by
  refine Surroundings.ext (funext fun u => ?_) (funext fun u => funext fun k => ?_) rfl
  · simp only [around, wanted, stage?_call]
    split
    · next hu =>
      subst hu
      simp [stage?_length]
    · rfl
  · simp only [around, stage?_call]
    split
    · next hu =>
      subst hu
      simp [stage?_length]
    · rfl

/-- A call that has ended makes no proxy and wants no lock. -/
theorem isCalm_of_ended (h : s = .cancelled ∨ ∃ now a, s = .finished now a) :
    s.IsCalm ∧ s.locks = [] := by
  rcases h with rfl | ⟨now, a, rfl⟩
  · exact ⟨nofun, rfl⟩
  · exact ⟨nofun, rfl⟩

/-- An advance keeps the map consistent. -/
theorem Advance.consistent (h : Advance may t m m') (hm : m.Consistent) : m'.Consistent := by
  cases h with
  | start stage found owner empty isOpen =>
    exact hm.start stage found owner empty isOpen rfl rfl rfl rfl
  | answer stage found owner cached => exact hm.unlock stage found owner rfl nofun
  | succeed stage found made => exact hm.succeed stage found made rfl nofun
  | fail stage found made failure => exact hm.fail stage found made (by simp [failure]) rfl nofun
  | @leave e entry s loses stage looking found =>
    -- a look-up goes for one lock only, that of the entry which it looks at
    have hlocks : s.locks = [e] := by
      rcases looking with rfl | ⟨h, wake, rfl⟩ <;> rfl
    refine hm.leave stage found (ProxyStage.releases_of_locks hlocks rfl) (fun x k w hx hs => ?_)
      nofun
    rw [hs, ProxyStage.locks_creating] at hlocks
    exact hx (List.singleton_inj.mp hlocks)
  | retire stage found owner done =>
    exact hm.retire _ stage found owner (releases_job done) nofun nofun
  | @closed e h now wake pre post a stage =>
    refine (hm.concludeClose now h).of_around rfl rfl fun x => ?_
    exact around_setStage (m := m.concludeClose now h) stage (by simp [List.filterMap_cons]) nofun nofun
  | finish stage free ended =>
    obtain ⟨hcalm, hlocks⟩ := isCalm_of_ended ended
    refine hm.of_around rfl rfl fun x => ?_
    exact around_setStage stage (by rw [hlocks, ProxyStage.locks_retiring, free]) nofun hcalm
  | abandon loses stage found =>
    exact hm.leave stage found (releases_job rfl) (fun _ _ _ _ => nofun) nofun

/-- So does every move. -/
theorem Move.consistent (h : Move may t m m') (hm : m.Consistent) : m'.Consistent := by
  cases h with
  | advance h => exact h.consistent hm
  | enrol absent => exact hm.enrol _
  | call call new => exact hm.of_around rfl rfl fun x => around_call
  | shut => exact hm.of_around rfl rfl fun _ => rfl
  | join task isOpen registered found =>
    exact hm.lock (stage?_eq_some_iff.mpr ⟨_, task⟩) found (fun x => by simp [List.count_singleton]) nofun nofun
  | await task isClosed found =>
    refine hm.lock (stage?_eq_some_iff.mpr ⟨_, task⟩) found (fun x => ?_) nofun nofun
    simp [List.count_singleton]
  | @renew call id e entry a b task resets isOpen registered found =>
    have hlock : (m.act e (.lock t) m.creations t (.retiring [.locking e] b)).Consistent := by
      refine hm.lock (stage?_eq_some_iff.mpr ⟨_, task⟩) found (fun x => ?_) nofun nofun
      simp [List.count_singleton]
    exact hlock.enrol entry.peer

/-! ## What only grows -/

/-- No creation is lost, and each stays what it is. -/
def CreationsGrow (cs cs' : List Creation) : Prop :=
  ∀ (h : Handle) (c : Creation), cs[h]? = some c → ∃ c', cs'[h]? = some c' ∧ c.Becomes c'

/-- Calls, entries and creations are never lost, and each stays what it is. -/
structure Grows (m m' : ProxyMap) : Prop where
  closed : m.closed = true → m'.closed = true
  tasks : ∀ (u : TaskId) (c : ProxyCall) (s : ProxyStage), m.tasks[u]? = some ⟨c, s⟩ →
    ∃ s', m'.tasks[u]? = some ⟨c, s'⟩
  entries : ∀ (x : EntryId) (entry : ProxyEntry), m.entries[x]? = some entry →
    ∃ entry', m'.entries[x]? = some entry' ∧ entry.Becomes entry'
  creations : CreationsGrow m.creations m'.creations

theorem CreationsGrow.refl (cs : List Creation) : CreationsGrow cs cs :=
  fun _ c hc => ⟨c, hc, rfl, id⟩

/-- A call stays the call that it is when a stage is set. -/
theorem tasks_setStage {c : ProxyCall} (h : m.tasks[u]? = some ⟨c, s₀⟩) :
    ∃ s', (m.setStage t s).tasks[u]? = some ⟨c, s'⟩ := by
  refine ⟨if t = u then s else s₀, getElem?_modify_eq_some_iff.mpr ⟨⟨c, s₀⟩, h, ?_⟩⟩
  split <;> rfl

namespace Grows

theorem refl (m : ProxyMap) : Grows m m where
  closed h := h
  tasks _ _ s h := ⟨s, h⟩
  entries _ entry h := ⟨entry, h, rfl, id⟩
  creations := .refl _

/-- What has grown in two steps has grown altogether. -/
theorem trans {m₁ m₂ m₃ : ProxyMap} (h : Grows m₁ m₂) (h' : Grows m₂ m₃) : Grows m₁ m₃ where
  closed hc := h'.closed (h.closed hc)
  tasks u c s hs := by
    obtain ⟨s', hs'⟩ := h.tasks u c s hs
    exact h'.tasks u c s' hs'
  entries x entry hx := by
    obtain ⟨entry', hx', hpeer, hstate⟩ := h.entries x entry hx
    obtain ⟨entry'', hx'', hpeer', hstate'⟩ := h'.entries x entry' hx'
    exact ⟨entry'', hx'', hpeer'.trans hpeer, fun hs => hstate' (hstate hs)⟩
  creations k c hc := by
    obtain ⟨c', hc', hentry, hmade⟩ := h.creations k c hc
    obtain ⟨c'', hc'', hentry', hmade'⟩ := h'.creations k c' hc'
    exact ⟨c'', hc'', hentry'.trans hentry, fun hs => hmade' (hmade hs)⟩

/-- What happens at one entry grows the map, if the entry stays its peer's and is not reopened. -/
theorem act {f : ProxyEntry → ProxyEntry} {creations : List Creation} {entry : ProxyEntry}
    (found : m.entries[e]? = some entry) (hpeer : (f entry).peer = entry.peer)
    (hstate : entry.lifecycle.state = .closed → (f entry).lifecycle.state = .closed)
    (hcreations : CreationsGrow m.creations creations) :
    Grows m (m.act e f creations t s) where
  closed h := h
  tasks _ _ _ h := tasks_setStage (m := { m.modifyEntry e f with creations := creations }) h
  entries x old hold := by
    refine ⟨_, getElem?_modify_eq_some_iff.mpr ⟨old, hold, rfl⟩, ?_⟩
    split
    · next hex =>
      subst hex
      cases found.symm.trans hold
      exact ⟨hpeer, hstate⟩
    · exact ⟨rfl, id⟩
  creations := hcreations

end Grows

/-- What a change of one creation must keep for the creations to stay what they are. -/
theorem grows_modify {g : Creation → Creation} {h : Handle} (hentry : ∀ c, (g c).entry = c.entry)
    (houtcome : ∀ c, m.creations[h]? = some c → c.outcome = some .created →
      (g c).outcome = some .created) :
    CreationsGrow m.creations (m.creations.modify h g) := by
  intro k c hc
  refine ⟨_, getElem?_modify_eq_some_iff.mpr ⟨c, hc, rfl⟩, ?_⟩
  split
  · next hk =>
    subst hk
    exact ⟨hentry c, houtcome c hc⟩
  · exact ⟨rfl, id⟩

/-- Asking a proxy to close changes no creation but its own. -/
theorem grows_askToClose {now : Nat} {slot : Option Handle} :
    CreationsGrow m.creations (askToClose now slot m.creations) := by
  cases slot with
  | none => exact .refl _
  | some h => exact grows_modify (Creation.entry_askToClose now) fun _ _ hs => hs

/-- Advances lose no entry, no creation and no call. -/
theorem Advance.grows (h : Advance may t m m') (hm : m.Consistent) : Grows m m' := by
  have hsame := CreationsGrow.refl m.creations
  cases h with
  | start stage found owner empty isOpen =>
    exact .act found rfl (fun hs => absurd hs isOpen)
      fun h c hc => ⟨c, getElem?_concat_of_some _ hc, rfl, id⟩
  | answer stage found owner cached =>
    exact .act found ProxyEntry.unlock_peer (by simp) hsame
  | @succeed e h now wake entry c stage found made =>
    obtain ⟨hmaking, -, hmade⟩ := hm.made_of_creating stage found made
    refine .act found ?_ (fun hs => ?_) (grows_modify (Creation.entry_ended _) fun _ _ _ => rfl)
    · rw [ProxyEntry.unlock_peer, ProxyEntry.install]
      split <;> rfl
    · obtain ⟨-, hstate, -⟩ := (hm.fits e entry found).making t h hmaking
      exact absurd (hstate.symm.trans hs) (by decide)
  | @fail e h now wake entry c err stage found made failure =>
    obtain ⟨hmaking, -, hmade⟩ := hm.made_of_creating stage found made
    obtain ⟨-, hstate, ⟨d, hd, houtcome⟩, -⟩ := (hm.fits e entry found).making t h hmaking
    refine .act found ProxyEntry.unlock_peer (fun hs => ?_)
      (grows_modify (Creation.entry_ended _) fun c' hc' hs => ?_)
    · exact absurd (hstate.symm.trans hs) (by decide)
    -- a creation under way has no outcome, so none is overwritten
    · cases hc'.symm.trans (around_made_eq_some_iff.mp hd).1
      simp [houtcome] at hs
  | leave loses stage looking found => exact .act found ProxyEntry.leave_peer (by simp) hsame
  | @retire e entry pre post job a now stage found owner done =>
    refine .act found ?_ (fun hs => ?_) grows_askToClose
    · rw [ProxyEntry.unlock_peer, ProxyEntry.retire]
      split <;> rfl
    · rw [ProxyEntry.unlock_lifecycle]
      exact (hm.fits e entry found).retire_eq.1
  | @closed e h now wake pre post a stage =>
    exact ⟨id, fun u c s hs => tasks_setStage (m := m.concludeClose now h) hs,
      fun x entry hx => ⟨entry, hx, rfl, id⟩,
      grows_modify (Creation.entry_hasClosed now) fun _ _ hs => hs⟩
  | finish stage free ended =>
    exact ⟨id, fun u c s hs => tasks_setStage hs, fun x entry hx => ⟨entry, hx, rfl, id⟩, hsame⟩
  | abandon loses stage found => exact .act found ProxyEntry.leave_peer (by simp) hsame

/-- A new entry comes after all others. -/
theorem Grows.enrol (peer : Peer) : Grows m (m.enrol peer) where
  closed h := h
  tasks _ _ s h := ⟨s, h⟩
  entries _ entry h := ⟨entry, getElem?_concat_of_some _ h, rfl, id⟩
  creations := .refl _

/-- Moves lose no entry, no creation and no call. -/
theorem Move.grows (h : Move may t m m') (hm : m.Consistent) : Grows m m' := by
  have hsame := CreationsGrow.refl m.creations
  cases h with
  | advance h => exact h.grows hm
  | enrol absent => exact .enrol _
  | call call new =>
    exact ⟨id, fun u c s hs => ⟨s, getElem?_concat_of_some _ hs⟩,
      fun x entry hx => ⟨entry, hx, rfl, id⟩, hsame⟩
  | shut =>
    exact ⟨fun _ => rfl, fun u c s hs => ⟨s, hs⟩, fun x entry hx => ⟨entry, hx, rfl, id⟩, hsame⟩
  | join task isOpen registered found =>
    exact .act found ProxyEntry.lock_peer (by simp) hsame
  | await task isClosed found => exact .act found ProxyEntry.lock_peer (by simp) hsame
  | renew task resets isOpen registered found =>
    exact Grows.trans (.act found ProxyEntry.lock_peer (by simp) hsame) (.enrol _)

/-! ## Other calls -/

/-- A call does not touch where the other calls stand. -/
theorem Advance.stage?_of_ne (h : Advance may t m m') (hu : u ≠ t) : m'.stage? u = m.stage? u := by
  cases h with
  | start stage | answer stage | succeed stage | fail stage | leave _ stage | retire stage
  | abandon _ stage => rw [stage?_act stage, if_neg (Ne.symm hu)]
  | @closed e h now wake pre post a stage =>
    rw [stage?_setStage (m := m.concludeClose now h) stage, if_neg (Ne.symm hu)]
    rfl
  | finish stage => rw [stage?_setStage stage, if_neg (Ne.symm hu)]

/-- A move of one call leaves the stages of the others alone. -/
theorem Move.stage?_of_ne (h : Move may t m m') (hu : u ≠ t) : m'.stage? u = m.stage? u := by
  cases h with
  | advance h => exact h.stage?_of_ne hu
  | enrol | shut => rfl
  | call call new => rw [stage?_call, if_neg (new ▸ hu)]
  | join task | await task => rw [stage?_act (stage?_eq_some_iff.mpr ⟨_, task⟩), if_neg (Ne.symm hu)]
  | @renew call id e entry a b task =>
    show (m.act e _ _ t _).stage? u = _
    rw [stage?_act (stage?_eq_some_iff.mpr ⟨_, task⟩), if_neg (Ne.symm hu)]

end ProxyMap

end Replica
