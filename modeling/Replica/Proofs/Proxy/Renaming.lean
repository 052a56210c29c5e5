import Replica.Proofs.Proxy.Separation

/-!
# Renumbering a proxy map

Entries, proxies and calls are known by their numbers only, so what a proxy map does does not depend on
these. Renumbering goes along with everything that happens at one entry (`rename_lock`, `rename_retire`
and so on), and it comes to the same for two renamings that agree on what a peer has, for all that is
within what the peer has (`AgreeOn`).
-/

namespace Replica

/-- New numbers for entries, proxies and calls. -/
structure Renaming where
  entry : EntryId → EntryId
  proxy : Handle → Handle
  call : TaskId → TaskId

variable (ρ : Renaming)

def ProxyEntry.rename (e : ProxyEntry) : ProxyEntry :=
  { e with slot := e.slot.map ρ.proxy, owner := e.owner.map ρ.call, line := e.line.map ρ.call }

def Creation.rename (c : Creation) : Creation := { c with entry := ρ.entry c.entry }

def Retirement.rename : Retirement → Retirement
  | .locking e => .locking (ρ.entry e)
  | .closing e h wake => .closing (ρ.entry e) (ρ.proxy h) wake
  | .finished e => .finished (ρ.entry e)

def ProxyAnswer.rename : ProxyAnswer → ProxyAnswer
  | .proxy result => .proxy (result.map ρ.proxy)
  | .done => .done
  | .repaired reset => .repaired reset

def ProxyStage.rename : ProxyStage → ProxyStage
  | .locking e => .locking (ρ.entry e)
  | .creating e h wake => .creating (ρ.entry e) (ρ.proxy h) wake
  | .retiring jobs a => .retiring (jobs.map (.rename ρ)) (a.rename ρ)
  | .finished time a => .finished time (a.rename ρ)
  | .cancelled => .cancelled

variable {ρ}

/-- A retirement is over or not, whatever its entry is called. -/
@[simp] theorem Retirement.isFinished_rename (job : Retirement) :
    (job.rename ρ).isFinished = job.isFinished := by
  cases job <;> rfl

/-- The entry of a retirement is renamed with it. -/
@[simp] theorem Retirement.entry_rename (job : Retirement) :
    (job.rename ρ).entry = ρ.entry job.entry := by
  cases job <;> rfl

namespace ProxyEntry

variable {e : ProxyEntry} {t : TaskId}

@[simp] theorem rename_peer : (e.rename ρ).peer = e.peer := rfl

@[simp] theorem rename_lifecycle : (e.rename ρ).lifecycle = e.lifecycle := rfl

@[simp] theorem rename_slot : (e.rename ρ).slot = e.slot.map ρ.proxy := rfl

/-- Asking for a lock is renamed with the call that asks. -/
theorem rename_lock : (e.lock t).rename ρ = (e.rename ρ).lock (ρ.call t) := by
  cases ho : e.owner <;> simp [lock, rename, ho]

/-- So is giving it up. -/
theorem rename_unlock : e.unlock.rename ρ = (e.rename ρ).unlock := by
  cases hl : e.line <;> simp [unlock, rename, hl]

/-- Leaving the line needs that nobody else there gets the same number. -/
theorem rename_leave (h : ∀ u ∈ e.queue, ρ.call u = ρ.call t → u = t) :
    (e.leave t).rename ρ = (e.rename ρ).leave (ρ.call t) := by
  have howner : (e.rename ρ).owner = some (ρ.call t) ↔ e.owner = some t := by
    simp only [rename, Option.map_eq_some_iff]
    constructor
    · rintro ⟨u, hu, heq⟩
      rw [hu, h u (mem_queue_iff.mpr (.inl hu)) heq]
    · exact fun ho => ⟨t, ho, rfl⟩
  have hline : ∀ line : List TaskId, (∀ u ∈ line, ρ.call u = ρ.call t → u = t) →
      (line.erase t).map ρ.call = (line.map ρ.call).erase (ρ.call t) := by
    intro line hinj
    induction line with
    | nil => rfl
    | cons u line ih =>
      have hrest := ih fun v hv => hinj v (List.mem_cons_of_mem u hv)
      by_cases hu : u = t
      · simp [hu]
      · have hne : ρ.call u ≠ ρ.call t := fun heq => hu (hinj u List.mem_cons_self heq)
        rw [List.erase_cons_tail (by simpa using hu), List.map_cons, List.map_cons,
          List.erase_cons_tail (by simpa using hne), hrest]
  unfold leave
  by_cases ho : e.owner = some t
  · rw [if_pos ho, if_pos (howner.mpr ho), rename_unlock]
  · rw [if_neg ho, if_neg fun hr => ho (howner.mp hr)]
    have herase := hline e.line fun u hu => h u (mem_queue_iff.mpr (.inr hu))
    simp [rename, herase]

/-- Preparing an entry does not look at names. -/
theorem rename_prepare : (e.rename ρ).prepare = e.prepare.map (.rename ρ) := by
  unfold prepare
  rw [rename_lifecycle]
  by_cases hs : e.lifecycle.state = .starting
  · rw [if_pos hs, if_pos hs]
    rfl
  · rw [if_neg hs, if_neg hs]
    cases e.lifecycle.transition .starting <;> rfl

/-- Neither does installing a proxy. -/
theorem rename_install (h : Handle) :
    (e.rename ρ).install (ρ.proxy h) = ((e.install h).1.rename ρ, (e.install h).2.map ρ.proxy) := by
  unfold install
  simp only [rename_lifecycle]
  split <;> rfl

theorem rename_giveUp : e.giveUp.rename ρ = (e.rename ρ).giveUp := rfl

/-- Neither does retiring an entry. -/
theorem rename_retire :
    (e.rename ρ).retire = (e.retire.1.rename ρ, e.retire.2.map ρ.proxy) := by
  unfold retire
  simp only [rename_lifecycle]
  split <;> rfl

end ProxyEntry

namespace ProxyMap

variable {m : ProxyMap} {id : PeerId} {ρ' : Renaming} {e : EntryId} {h : Handle} {t : TaskId}

/-! ## Agreement -/

/-- The renamings agree on what the peer has. -/
structure AgreeOn (id : PeerId) (m : ProxyMap) (ρ ρ' : Renaming) : Prop where
  entry : ∀ e, m.HasEntry id e → ρ.entry e = ρ'.entry e
  proxy : ∀ h, m.HasProxy id h → ρ.proxy h = ρ'.proxy h
  call : ∀ t, m.HasCall id t → ρ.call t = ρ'.call t

namespace AgreeOn

/-- A peer's retirement is renamed the same by numberings that agree on the peer. -/
theorem retirement {job : Retirement} (ha : AgreeOn id m ρ ρ') (hj : job.Within id m) :
    job.rename ρ = job.rename ρ' := by
  cases job with
  | locking e | finished e => simp only [Retirement.rename, ha.entry e hj]
  | closing e h wake => simp only [Retirement.rename, ha.entry e hj.1, ha.proxy h hj.2]

/-- So is an answer about the peer. -/
theorem answer {a : ProxyAnswer} (ha : AgreeOn id m ρ ρ') (hw : a.Within id m) :
    a.rename ρ = a.rename ρ' := by
  cases a with
  | proxy result =>
    cases result with
    | ok h => simp only [ProxyAnswer.rename, Except.map, ha.proxy h hw]
    | error e => rfl
  | done | repaired => rfl

/-- So is the stage of a call on the peer. -/
theorem stage {s : ProxyStage} (ha : AgreeOn id m ρ ρ') (hs : s.Within id m) :
    s.rename ρ = s.rename ρ' := by
  cases s with
  | locking e => simp only [ProxyStage.rename, ha.entry e hs]
  | creating e h wake => simp only [ProxyStage.rename, ha.entry e hs.1, ha.proxy h hs.2]
  | retiring jobs a =>
    have hjobs : jobs.map (Retirement.rename ρ) = jobs.map (Retirement.rename ρ') :=
      List.map_congr_left fun job hjob => ha.retirement (hs.1 job hjob)
    simp only [ProxyStage.rename, hjobs, ha.answer hs.2]
  | finished time a => simp only [ProxyStage.rename, ha.answer hs]
  | cancelled => rfl

/-- So is a creation for the peer. -/
theorem creation {c : Creation} (ha : AgreeOn id m ρ ρ') (hc : m.HasEntry id c.entry) :
    c.rename ρ = c.rename ρ' := by
  simp only [Creation.rename, ha.entry _ hc]

/-- So is the entry of the peer. -/
theorem proxyEntry {entry : ProxyEntry} (ha : AgreeOn id m ρ ρ') (hw : entry.Within m)
    (hid : entry.peer.id = id) : entry.rename ρ = entry.rename ρ' := by
  subst hid
  have hslot : entry.slot.map ρ.proxy = entry.slot.map ρ'.proxy :=
    Option.map_congr fun h hh => ha.proxy h (hw.slot h hh)
  have howner : entry.owner.map ρ.call = entry.owner.map ρ'.call :=
    Option.map_congr fun t ht =>
      ha.call t (hw.queue t (ProxyEntry.mem_queue_iff.mpr (.inl ht)))
  have hline : entry.line.map ρ.call = entry.line.map ρ'.call :=
    List.map_congr_left fun t ht =>
      ha.call t (hw.queue t (ProxyEntry.mem_queue_iff.mpr (.inr ht)))
  simp only [ProxyEntry.rename, hslot, howner, hline]

end AgreeOn

end ProxyMap

end Replica
