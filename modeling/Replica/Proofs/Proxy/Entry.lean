import Replica.Proofs.Proxy.Lock

/-!
# One entry and what goes on around it

An entry is seen together with its surroundings: which calls want its lock, which call makes a proxy
for it, and the creations that were made for it. `Fits` says how they fit together. In particular a
proxy that was made for the entry is in its slot, or the entry is closed and the proxy was asked to
close; and no creation begins after one has succeeded.

Each of the things that can happen at an entry leaves it fitting, given what it does to the
surroundings: the lock is taken, handed over or given up (`Fits.lock`, `Fits.unlock`,
`Fits.leave`), a creation begins (`Fits.start`), succeeds (`Fits.succeed`) or fails
(`Fits.fail`), and the entry is retired (`Fits.retire`).
-/

namespace Replica

/-- What goes on around an entry. -/
@[ext]
structure Surroundings where
  /-- How many times a call wants the lock. -/
  demand : TaskId → Nat
  /-- Whether a call is making a proxy. -/
  making : TaskId → Handle → Prop
  /-- The creations for the entry. -/
  made : Handle → Option Creation

namespace ProxyEntry

/-- There is a proxy in the slot while the entry runs, and only then. -/
def SlotFits (e : ProxyEntry) : Prop :=
  (e.slot.isSome ∧ e.lifecycle.state = .running) ∨ (e.slot = none ∧
    (e.lifecycle.state = .new ∨ e.lifecycle.state = .starting ∨ e.lifecycle.state = .closed))

/-- The entry and its surroundings fit together. -/
structure Fits (e : ProxyEntry) (a : Surroundings) : Prop where
  noLineIfFree : e.NoLineIfFree
  /-- In the queue are those who want the lock. -/
  demand : ∀ t, e.queue.count t = a.demand t
  slot : e.SlotFits
  /-- A call that makes a proxy holds the lock, and its creation is the last one. -/
  making : ∀ t h, a.making t h → e.owner = some t ∧ e.lifecycle.state = .starting ∧
    (∃ c, a.made h = some c ∧ c.outcome = none) ∧ ∀ k c, a.made k = some c → k ≤ h
  peer : ∀ h c, a.made h = some c → c.peer = e.peer
  /-- A proxy that was made is in the slot, or it was asked to close. -/
  created : ∀ h c, a.made h = some c → c.outcome = some .created →
    (e.slot = some h ∧ c.closeCalls = []) ∨ (e.lifecycle.state = .closed ∧ c.closeCalls ≠ [])
  /-- A proxy that was not made is not asked to close. -/
  uncreated : ∀ h c, a.made h = some c → c.outcome ≠ some .created → c.closeCalls = []
  failed : ∀ h c, a.made h = some c → c.outcome = some .failed → c.script.failure ≠ none
  cached : ∀ h, e.slot = some h → ∃ c, a.made h = some c ∧ c.outcome = some .created
  /-- No creation begins after one has succeeded. -/
  last : ∀ h k c d, a.made h = some c → a.made k = some d → h < k → c.outcome ≠ some .created

/-- A starting entry caches the proxy and runs. -/
theorem install_eq {e : ProxyEntry} {h : Handle} (hstate : e.lifecycle.state = .starting) :
    e.install h =
      ({ e with slot := some h, lifecycle := e.lifecycle.withState .running }, .ok h) := by
  simp [install, Lifecycle.transition, hstate, Lifecycle.State.mayMoveTo]

/-- A starting entry goes back to the beginning. -/
theorem giveUp_eq {e : ProxyEntry} (hstate : e.lifecycle.state = .starting) :
    e.giveUp = { e with lifecycle := e.lifecycle.withState .new } := by
  simp [giveUp, Lifecycle.compareAndTransition?, hstate, Lifecycle.State.mayMoveTo]

namespace Fits

variable {e e' : ProxyEntry} {a a' : Surroundings} {t : TaskId} {h : Handle}

/-- A new entry fits while nobody knows of it. -/
theorem fresh (peer : Peer) (hdemand : ∀ t, a.demand t = 0) (hmaking : ∀ t h, ¬ a.making t h)
    (hmade : ∀ h, a.made h = none) : (fresh peer).Fits a where
  noLineIfFree := NoLineIfFree.fresh peer
  demand t := (hdemand t).symm
  slot := .inr ⟨rfl, .inl rfl⟩
  making t h hm := absurd hm (hmaking t h)
  peer h c hc := by simp [hmade] at hc
  created h c hc := by simp [hmade] at hc
  uncreated h c hc := by simp [hmade] at hc
  failed h c hc := by simp [hmade] at hc
  cached h hs := by cases hs
  last h k c d hc := by simp [hmade] at hc

/-! ## The states of an entry -/

theorem slot_of_starting (he : e.Fits a) (hs : e.lifecycle.state = .starting) :
    e.slot = none := by
  rcases he.slot with ⟨-, hr⟩ | ⟨hnone, -⟩
  · exact absurd (hs.symm.trans hr) (by decide)
  · exact hnone

theorem slot_of_closed (he : e.Fits a) (hs : e.lifecycle.state = .closed) : e.slot = none := by
  rcases he.slot with ⟨-, hr⟩ | ⟨hnone, -⟩
  · exact absurd (hs.symm.trans hr) (by decide)
  · exact hnone

/-- An entry that is on its way to be closed is closed. -/
theorem isClosingOrClosed_iff (he : e.Fits a) :
    e.lifecycle.state.isClosingOrClosed = true ↔ e.lifecycle.state = .closed := by
  rcases he.slot with ⟨-, hs⟩ | ⟨-, hs | hs | hs⟩ <;> simp [hs, Lifecycle.State.isClosingOrClosed]

/-- An open entry without a proxy is ready for a creation. -/
theorem prepare_eq_ok (he : e.Fits a) (hslot : e.slot = none)
    (hopen : e.lifecycle.state ≠ .closed) :
    e.prepare = .ok { e with lifecycle := e.lifecycle.withState .starting } := by
  unfold prepare
  split
  · next hs =>
    obtain ⟨_, _, ⟨_, _⟩, _, _⟩ := e
    cases hs
    rfl
  · next hs =>
    rcases he.slot with ⟨hsome, -⟩ | ⟨-, hn | hn | hn⟩
    · simp [hslot] at hsome
    · simp [Lifecycle.transition, hn, Lifecycle.State.mayMoveTo, Except.map]
    · exact absurd hn hs
    · exact absurd hn hopen

/-! ## The lock -/

/-- Whatever only hands the lock around leaves the entry fitting, as long as the queue is of those who
want the lock, and nobody loses it while making a proxy. -/
theorem relock (he : e.Fits a) (hpeer : e'.peer = e.peer) (hslot : e'.slot = e.slot)
    (hlife : e'.lifecycle = e.lifecycle) (horder : e'.NoLineIfFree)
    (hdemand : ∀ t, e'.queue.count t = a'.demand t)
    (hmaking : ∀ t h, a'.making t h → a.making t h ∧ e'.owner = some t)
    (hmade : a'.made = a.made) : e'.Fits a' where
  noLineIfFree := horder
  demand := hdemand
  slot := by simpa only [SlotFits, hslot, hlife] using he.slot
  making t h hm := by
    obtain ⟨hbefore, howner⟩ := hmaking t h hm
    obtain ⟨-, hrest⟩ := he.making t h hbefore
    exact ⟨howner, by simpa only [hlife, hmade] using hrest⟩
  peer := by simpa only [hpeer, hmade] using he.peer
  created := by simpa only [hslot, hlife, hmade] using he.created
  uncreated := by simpa only [hmade] using he.uncreated
  failed := by simpa only [hmade] using he.failed
  cached := by simpa only [hslot, hmade] using he.cached
  last := by simpa only [hmade] using he.last

/-- A call asks for the lock. -/
theorem lock (he : e.Fits a) (hdemand : ∀ u, a'.demand u = a.demand u + if t = u then 1 else 0)
    (hmaking : ∀ u h, a'.making u h → a.making u h) (hmade : a'.made = a.made) :
    (e.lock t).Fits a' := by
  refine he.relock lock_peer lock_slot lock_lifecycle he.noLineIfFree.lock (fun u => ?_)
    (fun u h hm => ?_) hmade
  · rw [he.noLineIfFree.queue_lock, List.count_append, he.demand, hdemand, List.count_singleton]
    simp
  · have hbefore := hmaking u h hm
    exact ⟨hbefore, lock_owner_of_some (he.making u h hbefore).1⟩

/-- The holder of the lock hands it over. -/
theorem unlock (he : e.Fits a) (howner : e.owner = some t)
    (hdemand : ∀ u, a.demand u = a'.demand u + if t = u then 1 else 0)
    (hmaking : ∀ u h, ¬ a'.making u h) (hmade : a'.made = a.made) : e.unlock.Fits a' := by
  refine he.relock unlock_peer unlock_slot unlock_lifecycle he.noLineIfFree.unlock (fun u => ?_)
    (fun u h hm => absurd hm (hmaking u h)) hmade
  have hcount := he.demand u
  rw [queue_of_owner howner, List.count_cons, hdemand] at hcount
  rw [he.noLineIfFree.queue_unlock, queue_of_owner howner, List.tail_cons]
  simpa using hcount

/-- A call that wanted the lock wants it no more. -/
theorem leave (he : e.Fits a) (hdemand : ∀ u, a.demand u = a'.demand u + if t = u then 1 else 0)
    (hmaking : ∀ u h, a'.making u h → a.making u h ∧ u ≠ t) (hmade : a'.made = a.made) :
    (e.leave t).Fits a' := by
  refine he.relock leave_peer leave_slot leave_lifecycle he.noLineIfFree.leave (fun u => ?_)
    (fun u h hm => ?_) hmade
  · rw [he.noLineIfFree.queue_leave, List.count_erase, he.demand, hdemand]
    by_cases hu : t = u <;> simp [hu]
  · obtain ⟨hbefore, hne⟩ := hmaking u h hm
    exact ⟨hbefore, leave_owner_of_ne (he.making u h hbefore).1 hne⟩

/-! ## Creations -/

/-- What else is noted in the creations does not matter. -/
theorem note {g : Handle → Creation → Creation} (he : e.Fits a) (hdemand : a'.demand = a.demand)
    (hmaking : a'.making = a.making) (hmade : ∀ k, a'.made k = (a.made k).map (g k))
    (hg : ∀ k c, (g k c).peer = c.peer ∧ (g k c).outcome = c.outcome ∧
      (g k c).closeCalls = c.closeCalls ∧ (g k c).script = c.script) : e.Fits a' := by
  -- creations go back and forth between the surroundings, and take with them all that is read of them
  have hback : ∀ k d, a'.made k = some d → ∃ c, a.made k = some c ∧ d = g k c := by
    intro k d hd
    rw [hmade, Option.map_eq_some_iff] at hd
    obtain ⟨c, hc, rfl⟩ := hd
    exact ⟨c, hc, rfl⟩
  have hforth : ∀ k c, a.made k = some c → a'.made k = some (g k c) := by
    intro k c hc
    rw [hmade, hc, Option.map_some]
  refine ⟨he.noLineIfFree, fun t => hdemand ▸ he.demand t, he.slot, ?_, ?_, ?_, ?_, ?_, ?_, ?_⟩
  · intro t k hm
    obtain ⟨howner, hstate, ⟨c, hc, houtcome⟩, hlatest⟩ := he.making t k (hmaking ▸ hm)
    refine ⟨howner, hstate, ⟨g k c, hforth k c hc, (hg k c).2.1.trans houtcome⟩, fun j d hd => ?_⟩
    obtain ⟨c', hc', -⟩ := hback j d hd
    exact hlatest j c' hc'
  · intro k d hd
    obtain ⟨c, hc, rfl⟩ := hback k d hd
    exact (hg k c).1.trans (he.peer k c hc)
  · intro k d hd hsucc
    obtain ⟨c, hc, rfl⟩ := hback k d hd
    obtain ⟨-, houtcome, hcalls, -⟩ := hg k c
    rw [hcalls]
    exact he.created k c hc (houtcome ▸ hsucc)
  · intro k d hd hne
    obtain ⟨c, hc, rfl⟩ := hback k d hd
    obtain ⟨-, houtcome, hcalls, -⟩ := hg k c
    rw [hcalls]
    exact he.uncreated k c hc (houtcome ▸ hne)
  · intro k d hd hfail
    obtain ⟨c, hc, rfl⟩ := hback k d hd
    obtain ⟨-, houtcome, -, hscript⟩ := hg k c
    rw [hscript]
    exact he.failed k c hc (houtcome ▸ hfail)
  · intro k hk
    obtain ⟨c, hc, hsucc⟩ := he.cached k hk
    exact ⟨g k c, hforth k c hc, (hg k c).2.1.trans hsucc⟩
  · intro j k d d' hd hd' hlt
    obtain ⟨c, hc, rfl⟩ := hback j d hd
    obtain ⟨c', hc', -⟩ := hback k d' hd'
    rw [(hg j c).2.1]
    exact he.last j k c c' hc hc' hlt

/-- Nobody else makes a proxy while a call holds the lock. -/
theorem eq_of_making (he : e.Fits a) (howner : e.owner = some t) {u : TaskId} {k : Handle}
    (hm : a.making u k) : u = t := by
  have hu := (he.making u k hm).1
  rw [howner] at hu
  exact (Option.some.inj hu).symm

/-- Of an open entry without a proxy, no creation has succeeded. -/
theorem not_created (he : e.Fits a) (hslot : e.slot = none) (hopen : e.lifecycle.state ≠ .closed)
    {k : Handle} {d : Creation} (hd : a.made k = some d) : d.outcome ≠ some .created := by
  intro hcreated
  rcases he.created k d hd hcreated with ⟨hs, -⟩ | ⟨hclosed, -⟩
  · simp [hslot] at hs
  · exact hopen hclosed

/-- The last creation for an entry begins or changes, and the entry with it, when no other one has
succeeded. Every change of the slot and the lifecycle is of this kind. -/
theorem recreate {n : Handle} {c : Creation} (he : e.Fits a)
    (horder : e'.NoLineIfFree) (hdemand : ∀ t, e'.queue.count t = a'.demand t)
    (hslot : e'.SlotFits)
    (hmaking : ∀ t h, a'.making t h →
      h = n ∧ e'.owner = some t ∧ e'.lifecycle.state = .starting ∧ c.outcome = none)
    (hmade : ∀ k, a'.made k = if k = n then some c else a.made k)
    (hlatest : ∀ k d, a.made k = some d → k ≤ n)
    (hothers : ∀ k d, a.made k = some d → k ≠ n → d.outcome ≠ some .created)
    (heq : e'.peer = e.peer) (hpeer : c.peer = e.peer)
    (hcreated : c.outcome = some .created →
      (e'.slot = some n ∧ c.closeCalls = []) ∨ (e'.lifecycle.state = .closed ∧ c.closeCalls ≠ []))
    (huncreated : c.outcome ≠ some .created → c.closeCalls = [])
    (hfailed : c.outcome = some .failed → c.script.failure ≠ none)
    (hcached : ∀ k, e'.slot = some k → k = n ∧ c.outcome = some .created) : e'.Fits a' := by
  -- a creation for the entry is the last one, or one from before that has not succeeded
  have hn : a'.made n = some c := by simp [hmade]
  have hcases : ∀ k d, a'.made k = some d → (k = n ∧ c = d) ∨ (k ≠ n ∧ a.made k = some d) := by
    intro k d hd
    rw [hmade] at hd
    split at hd
    · next hk => exact .inl ⟨hk, Option.some.inj hd⟩
    · next hk => exact .inr ⟨hk, hd⟩
  have hlatest' : ∀ k d, a'.made k = some d → k ≤ n := by
    intro k d hd
    rcases hcases k d hd with ⟨rfl, -⟩ | ⟨-, hd⟩
    · exact Nat.le_refl _
    · exact hlatest k d hd
  refine ⟨horder, hdemand, hslot, fun t h hm => ?_, ?_, ?_, ?_, ?_, fun k hk => ?_, ?_⟩
  · obtain ⟨rfl, howner, hstate, houtcome⟩ := hmaking t h hm
    exact ⟨howner, hstate, ⟨c, hn, houtcome⟩, hlatest'⟩
  · intro k d hd
    rcases hcases k d hd with ⟨-, rfl⟩ | ⟨-, hd⟩
    · exact hpeer.trans heq.symm
    · exact (he.peer k d hd).trans heq.symm
  · intro k d hd hsucc
    rcases hcases k d hd with ⟨rfl, rfl⟩ | ⟨hk, hd⟩
    · exact hcreated hsucc
    · exact absurd hsucc (hothers k d hd hk)
  · intro k d hd hne
    rcases hcases k d hd with ⟨-, rfl⟩ | ⟨-, hd⟩
    · exact huncreated hne
    · exact he.uncreated k d hd hne
  · intro k d hd hfail
    rcases hcases k d hd with ⟨-, rfl⟩ | ⟨-, hd⟩
    · exact hfailed hfail
    · exact he.failed k d hd hfail
  · obtain ⟨rfl, hsucc⟩ := hcached k hk
    exact ⟨c, hn, hsucc⟩
  · intro j k d d' hd hd' hlt
    have hk := hlatest' k d' hd'
    rcases hcases j d hd with ⟨rfl, -⟩ | ⟨hj, hd⟩
    · exact absurd hlt (Nat.not_lt.mpr hk)
    · exact hothers j d hd hj

/-- The holder of the lock calls the factory. -/
theorem start {n : Handle} {c : Creation} (he : e.Fits a) (howner : e.owner = some t)
    (hslot : e.slot = none) (hopen : e.lifecycle.state ≠ .closed)
    (hpeer : c.peer = e.peer) (houtcome : c.outcome = none) (hcalls : c.closeCalls = [])
    (hnew : ∀ k d, a.made k = some d → k < n) (hdemand : a'.demand = a.demand)
    (hmaking : ∀ u k, a'.making u k → u = t ∧ k = n)
    (hmade : ∀ k, a'.made k = if k = n then some c else a.made k) :
    ({ e with lifecycle := e.lifecycle.withState .starting } : ProxyEntry).Fits a' := by
  refine he.recreate he.noLineIfFree (fun u => hdemand ▸ he.demand u) (.inr ⟨hslot, .inr (.inl rfl)⟩)
    (fun u k hm => ?_) hmade (fun k d hd => Nat.le_of_lt (hnew k d hd))
    (fun k d hd _ => he.not_created hslot hopen hd) rfl hpeer ?_ (fun _ => hcalls) ?_ ?_
  · obtain ⟨rfl, rfl⟩ := hmaking u k hm
    exact ⟨rfl, howner, rfl, houtcome⟩
  · simp [houtcome]
  · simp [houtcome]
  · simp [hslot]

/-- The factory has made a proxy: it is cached, and the lock is handed over. -/
theorem succeed {c : Creation} (he : e.Fits a) (hm : a.making t h) (hc : a.made h = some c)
    (hdemand : ∀ u, a.demand u = a'.demand u + if t = u then 1 else 0)
    (hmaking : ∀ u k, ¬ a'.making u k)
    (hmade : ∀ k, a'.made k =
      if k = h then some { c with outcome := some .created } else a.made k) :
    (e.install h).1.unlock.Fits a' := by
  obtain ⟨howner, hstate, ⟨c', hc', houtcome⟩, hlatest⟩ := he.making t h hm
  cases hc.symm.trans hc'
  have hslot := he.slot_of_starting hstate
  have hopen : e.lifecycle.state ≠ .closed := by simp [hstate]
  rw [install_eq hstate]
  suffices hbefore : ProxyEntry.Fits
      { e with slot := some h, lifecycle := e.lifecycle.withState .running }
      { demand := a.demand, making := a'.making, made := a'.made } from
    hbefore.unlock (t := t) howner hdemand hmaking rfl
  refine he.recreate he.noLineIfFree he.demand (.inl ⟨rfl, rfl⟩) (fun u k hm => absurd hm (hmaking u k))
    hmade hlatest (fun k d hd _ => he.not_created hslot hopen hd) rfl (he.peer h c hc)
    (fun _ => .inl ⟨rfl, he.uncreated h c hc (by simp [houtcome])⟩) ?_ ?_ fun k hk => ?_
  · exact fun hne => absurd rfl hne
  · exact fun hne => by cases hne
  · cases hk
    exact ⟨rfl, rfl⟩

/-- The factory has failed: the entry is free for another attempt, and the lock is handed over. -/
theorem fail {c : Creation} (he : e.Fits a) (hm : a.making t h) (hc : a.made h = some c)
    (hfailure : c.script.failure ≠ none)
    (hdemand : ∀ u, a.demand u = a'.demand u + if t = u then 1 else 0)
    (hmaking : ∀ u k, ¬ a'.making u k)
    (hmade : ∀ k, a'.made k =
      if k = h then some { c with outcome := some .failed } else a.made k) :
    e.giveUp.unlock.Fits a' := by
  obtain ⟨howner, hstate, ⟨c', hc', houtcome⟩, hlatest⟩ := he.making t h hm
  cases hc.symm.trans hc'
  have hslot := he.slot_of_starting hstate
  have hopen : e.lifecycle.state ≠ .closed := by simp [hstate]
  rw [giveUp_eq hstate]
  suffices hbefore : ProxyEntry.Fits { e with lifecycle := e.lifecycle.withState .new }
      { demand := a.demand, making := a'.making, made := a'.made } from
    hbefore.unlock (t := t) howner hdemand hmaking rfl
  refine he.recreate he.noLineIfFree he.demand (.inr ⟨hslot, .inl rfl⟩)
    (fun u k hm => absurd hm (hmaking u k)) hmade hlatest
    (fun k d hd _ => he.not_created hslot hopen hd) rfl (he.peer h c hc) ?_
    (fun _ => he.uncreated h c hc (by simp [houtcome])) (fun _ => hfailure) ?_
  · exact fun hsucc => by cases hsucc
  · simp [hslot]

/-! ## Retiring -/

/-- A retired entry is closed and empty. -/
theorem retire_eq (he : e.Fits a) :
    e.retire.1.lifecycle.state = .closed ∧ e.retire.1.slot = none ∧ e.retire.2 = e.slot := by
  unfold retire Lifecycle.beginClose?
  split
  · next hnone =>
    split at hnone
    · next hs =>
      have hclosed := he.isClosingOrClosed_iff.mp hs
      exact ⟨hclosed, he.slot_of_closed hclosed, (he.slot_of_closed hclosed).symm⟩
    · cases hnone
  · exact ⟨rfl, rfl, rfl⟩

/-- The holder of the lock retires the entry: the proxy in its slot is asked to close, and the lock
is handed over. -/
theorem retire (he : e.Fits a) (howner : e.owner = some t) (now : Nat)
    (hdemand : ∀ u, a.demand u = a'.demand u + if t = u then 1 else 0)
    (hmaking : ∀ u k, ¬ a'.making u k)
    (hmade : ∀ k, a'.made k = if e.slot = some k then
      (a.made k).map fun c => { c with closeCalls := c.closeCalls ++ [now] } else a.made k) :
    e.retire.1.unlock.Fits a' := by
  obtain ⟨hstate, hslot, -⟩ := he.retire_eq
  have hlock : e.retire.1.owner = e.owner ∧ e.retire.1.line = e.line ∧ e.retire.1.peer = e.peer := by
    unfold ProxyEntry.retire
    split <;> exact ⟨rfl, rfl, rfl⟩
  obtain ⟨hown, hline, hpeer⟩ := hlock
  have horder : e.retire.1.NoLineIfFree := by simpa only [NoLineIfFree, hown, hline] using he.noLineIfFree
  have hqueue : e.retire.1.queue = e.queue := by simp only [queue, hown, hline]
  -- the lock is handed over last, so the demand is still the old one while the creations change
  suffices hbefore : e.retire.1.Fits
      { demand := a.demand, making := a'.making, made := a'.made } from
    hbefore.unlock (t := t) (hown.trans howner) hdemand hmaking rfl
  have hshape : e.retire.1.SlotFits := .inr ⟨hslot, .inr (.inr hstate)⟩
  cases hs : e.slot with
  | none =>
    have hsame : a'.made = a.made := funext fun k => by simp [hmade, hs]
    refine ⟨horder, fun u => hqueue ▸ he.demand u, hshape, fun u k hm => absurd hm (hmaking u k),
      by simpa only [hsame, hpeer] using he.peer, fun k d hd hsucc => ?_,
      by simpa only [hsame] using he.uncreated, by simpa only [hsame] using he.failed,
      by simp [hslot], by simpa only [hsame] using he.last⟩
    rcases he.created k d (hsame ▸ hd) hsucc with ⟨hk, -⟩ | ⟨-, hcalls⟩
    · simp [hs] at hk
    · exact .inr ⟨hstate, hcalls⟩
  | some h =>
    obtain ⟨c, hc, hsucc⟩ := he.cached h hs
    refine he.recreate (n := h) (c := { c with closeCalls := c.closeCalls ++ [now] }) horder
      (fun u => hqueue ▸ he.demand u) hshape (fun u k hm => absurd hm (hmaking u k)) (fun k => ?_)
      (fun k d hd => ?_) (fun k d hd hne hd' => ?_) hpeer (he.peer h c hc)
      (fun _ => .inr ⟨hstate, by simp⟩) (fun hne => absurd hsucc hne) (he.failed h c hc) ?_
    · rw [hmade, hs]
      by_cases hk : k = h
      · simp [hk, hc]
      · simp [hk, Ne.symm hk]
    · exact Nat.not_lt.mp fun hlt => he.last h k c d hc hd hlt hsucc
    · rcases he.created k d hd hd' with ⟨hk, -⟩ | ⟨hclosed, -⟩
      · exact hne (Option.some.inj (hk.symm.trans hs))
      · simp [he.slot_of_closed hclosed] at hs
    · simp [hslot]

end Fits

end ProxyEntry

end Replica
