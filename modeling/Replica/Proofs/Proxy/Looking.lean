import Replica.Proofs.Proxy.Events

/-!
# Look-ups and creations

Where look-ups at an entry and creations for it come from: a call looks at an entry from the time it
goes for the lock, which it does only while the map is open and the entry registered, and only calls
that look at an entry make proxies for it.
-/

namespace Replica

/-- The same creation before: for the same entry, and not ended if it has not ended later. -/
def Creation.CameFrom (c₀ c : Creation) : Prop :=
  c₀.entry = c.entry ∧ c₀.script = c.script ∧ (c.outcome = none → c₀.outcome = none)

theorem Creation.cameFrom_ended (outcome : CreationOutcome) (c : Creation) :
    c.CameFrom (c.ended outcome) := ⟨rfl, rfl, nofun⟩

theorem Creation.cameFrom_askToClose (now : Nat) (c : Creation) :
    c.CameFrom (c.askToClose now) := ⟨rfl, rfl, id⟩

theorem Creation.cameFrom_hasClosed (now : Nat) (c : Creation) :
    c.CameFrom (c.hasClosed now) := ⟨rfl, rfl, id⟩

namespace ProxyMap

variable {may : Loss → Prop} {t u : TaskId} {m m' : ProxyMap} {e x : EntryId} {k : Handle} {c : Creation}

/-- Whoever wants a lock is a look-up, or is going to retire the entry. -/
theorem looksAt_or_retires (h : e ∈ m.wanted u) : m.LooksAt u e ∨ m.Retires u e := by
  cases hs : m.stage? u with
  | none => simp [wanted, hs] at h
  | some s =>
    rw [wanted_eq hs] at h
    cases s with
    | locking x =>
      cases List.mem_singleton.mp h
      exact .inl (.inl hs)
    | creating x h' wake =>
      cases List.mem_singleton.mp h
      exact .inl (.inr ⟨_, _, hs⟩)
    | retiring jobs a =>
      obtain ⟨job, hjob, hlock⟩ := List.mem_filterMap.mp h
      cases Retirement.lock?_eq_some_iff.mp hlock
      exact .inr ⟨jobs, a, hs, hjob⟩
    | finished | cancelled => cases h

/-- In the queue are those who look at the entry or are going to retire it. -/
theorem Consistent.mem_queue_iff {entry : ProxyEntry} (hm : m.Consistent) (found : m.entries[e]? = some entry) :
    t ∈ entry.queue ↔ m.LooksAt t e ∨ m.Retires t e := by
  have hwanted : t ∈ entry.queue ↔ e ∈ m.wanted t := by
    rw [← List.count_pos_iff, (hm.fits e entry found).demand, ← List.count_pos_iff]
    rfl
  rw [hwanted]
  refine ⟨looksAt_or_retires, ?_⟩
  rintro ((hs | ⟨h, wake, hs⟩) | ⟨jobs, answer, hs, hmem⟩) <;> rw [wanted_eq hs]
  · exact List.mem_singleton.mpr rfl
  · exact List.mem_singleton.mpr rfl
  · exact List.mem_filterMap.mpr ⟨_, hmem, rfl⟩

theorem LooksAt.of_stage?_eq (h : m.LooksAt t e) (heq : m'.stage? t = m.stage? t) :
    m'.LooksAt t e := by
  unfold LooksAt
  rwa [heq]

theorem Advance.looksAt_of (h : Advance may t m m') (hl : m'.LooksAt u e) : m.LooksAt u e := by
  rcases eq_or_ne u t with rfl | hne
  · cases h with
    | start stage =>
      rcases hl with hs | ⟨h, wake, hs⟩ <;>
        cases hs.symm.trans ((stage?_act stage).trans (if_pos rfl))
      exact .inl stage
    | answer stage | succeed stage | fail stage | leave _ stage | retire stage | abandon _ stage =>
      rcases hl with hs | ⟨h, wake, hs⟩ <;>
        cases hs.symm.trans ((stage?_act stage).trans (if_pos rfl))
    | @closed x h now wake pre post a stage =>
      rcases hl with hs | ⟨h, wake, hs⟩ <;>
        cases hs.symm.trans (stage?_setStage_self (m := m.concludeClose now _) stage)
    | finish stage free ended =>
      rcases ended with rfl | ⟨now, a, rfl⟩ <;> rcases hl with hs | ⟨h, wake, hs⟩ <;>
        cases hs.symm.trans (stage?_setStage_self stage)
  · exact hl.of_stage?_eq (h.stage?_of_ne hne).symm

/-- A look-up begins to look at an entry that is registered in an open map. -/
theorem Move.looksAt_of (h : Move may t m m') (hl : m'.LooksAt u e) :
    m.LooksAt u e ∨ ∃ id s, m.tasks[u]? = some ⟨.lookUp id, s⟩ ∧ m.closed = false ∧
      m.registry.get? id = some e := by
  rcases eq_or_ne u t with rfl | hne
  · cases h with
    | advance h => exact .inl (h.looksAt_of hl)
    | enrol | shut => exact .inl hl
    | call call new =>
      rcases hl with hs | ⟨h, wake, hs⟩ <;> rw [stage?_call, if_pos new] at hs <;> cases hs
    | @join id e' entry a task isOpen registered found =>
      have stage := stage?_eq_some_iff.mpr ⟨_, task⟩
      rcases hl with hs | ⟨h, wake, hs⟩ <;>
        cases hs.symm.trans ((stage?_act stage).trans (if_pos rfl))
      exact .inr ⟨id, _, task, isOpen, registered⟩
    | await task | renew task =>
      have stage := stage?_eq_some_iff.mpr ⟨_, task⟩
      rcases hl with hs | ⟨h, wake, hs⟩ <;>
        cases hs.symm.trans ((stage?_act stage).trans (if_pos rfl))
  · exact .inl (hl.of_stage?_eq (h.stage?_of_ne hne).symm)

theorem creation_of_modify {g : Creation → Creation} {h : Handle}
    (hg : ∀ c₀ : Creation, c₀.CameFrom (g c₀)) (hc : (m.creations.modify h g)[k]? = some c) :
    ∃ c₀, m.creations[k]? = some c₀ ∧ c₀.CameFrom c := by
  obtain ⟨c₀, hc₀, rfl⟩ := getElem?_modify_eq_some_iff.mp hc
  refine ⟨c₀, hc₀, ?_⟩
  split
  · exact hg c₀
  · exact ⟨rfl, rfl, id⟩

/-- A creation was there before, or the call has just begun it for the entry that it looks at. -/
theorem Advance.creation_of (h : Advance may t m m') (hc : m'.creations[k]? = some c) :
    (∃ c₀, m.creations[k]? = some c₀ ∧ c₀.CameFrom c) ∨
      (k = m.creations.length ∧ m.stage? t = some (.locking c.entry) ∧
        ∃ wake, m'.stage? t = some (.creating c.entry k wake)) := by
  have hsame : ∀ {c}, m.creations[k]? = some c → ∃ c₀, m.creations[k]? = some c₀ ∧ c₀.CameFrom c :=
    fun hc => ⟨_, hc, rfl, rfl, id⟩
  cases h with
  | start stage =>
    rcases getElem?_concat_eq_some_iff.mp hc with hc | ⟨rfl, rfl⟩
    · exact .inl (hsame hc)
    · exact .inr ⟨rfl, stage, _, (stage?_act stage).trans (if_pos rfl)⟩
  | answer | leave | finish | abandon => exact .inl (hsame hc)
  | succeed | fail => exact .inl (creation_of_modify (Creation.cameFrom_ended _) hc)
  | @retire x entry =>
    refine .inl ?_
    cases hs : entry.slot with
    | none => exact hsame (by simpa only [act_creations, hs, askToClose] using hc)
    | some h =>
      simp only [act_creations, hs, askToClose] at hc
      exact creation_of_modify (Creation.cameFrom_askToClose _) hc
  | closed => exact .inl (creation_of_modify (Creation.cameFrom_hasClosed _) hc)

theorem Move.creation_of (h : Move may t m m') (hc : m'.creations[k]? = some c) :
    (∃ c₀, m.creations[k]? = some c₀ ∧ c₀.CameFrom c) ∨
      (k = m.creations.length ∧ m.stage? t = some (.locking c.entry) ∧
        ∃ wake, m'.stage? t = some (.creating c.entry k wake)) := by
  cases h with
  | advance h => exact h.creation_of hc
  | _ => exact .inl ⟨c, hc, rfl, rfl, id⟩

/-! ## Entries that nobody looks at -/

/-- Nobody looks at the entry, and nobody ever made a proxy for it. -/
def Untouched (e : EntryId) (m : ProxyMap) : Prop :=
  (∀ t, ¬ m.LooksAt t e) ∧
    ∀ (h : Handle) (c : Creation), m.creations[h]? = some c → c.entry ≠ e

/-- Nobody begins to look at an entry once the map is closed, or as long as it is not registered. -/
theorem Move.untouched (h : Move may t m m')
    (hbarred : m.closed = false → ∀ id, m.registry.get? id ≠ some e) (hu : m.Untouched e) :
    m'.Untouched e := by
  refine ⟨fun u hl => ?_, fun k c hc hce => ?_⟩
  · rcases h.looksAt_of hl with hl | ⟨id, s, -, hopen, hid⟩
    · exact hu.1 u hl
    · exact hbarred hopen id hid
  · rcases h.creation_of hc with ⟨c₀, hc₀, hentry, -⟩ | ⟨-, hstage, -⟩
    · exact hu.2 k c₀ hc₀ (hentry.trans hce)
    · exact hu.1 t (.inl (hce ▸ hstage))

theorem Moves.untouched (h : Moves may t m m') (hm : m.Consistent) (hclosed : m.closed = true)
    (hu : m.Untouched e) : m'.Untouched e := by
  have hboth := h.induct (P := fun m => m.closed = true ∧ m.Untouched e)
    (fun _ _ hm hmove hP => ⟨(hmove.grows hm).closed hP.1, hmove.untouched
      (fun hopen => absurd (hopen.symm.trans hP.1) Bool.false_ne_true) hP.2⟩) hm ⟨hclosed, hu⟩
  exact hboth.2

/-- Nobody looks at an entry that does not exist. -/
theorem Consistent.untouched (hm : m.Consistent) (hnone : m.entries[e]? = none) :
    m.Untouched e := by
  obtain ⟨hdemand, hmade⟩ := hm.quiet e (List.getElem?_eq_none_iff.mp hnone)
  refine ⟨fun t hl => ?_, fun h c hc hce => ?_⟩
  · have hzero := hdemand t
    rcases hl with hs | ⟨h, wake, hs⟩ <;> simp [demand_of_stage? hs] at hzero
  · cases (around_made_eq_some_iff.mpr ⟨hc, hce⟩).symm.trans (hmade h)

end ProxyMap

end Replica
