import Replica.Proofs.Proxy.Events

/-!
# Who retires an entry

An entry that a reset or a close has gone for is closed, or the reset or close is still going to
retire it (`RetiredBy`). An entry that is not registered any more is closed, or the reset that
replaced it is still under way (`Accounted`). Both hold as long as no reset or close is cancelled.
-/

namespace Replica.ProxyMap

variable {may : Loss → Prop} {t u : TaskId} {m m' : ProxyMap} {e x : EntryId} {s s₀ : ProxyStage}
variable {a b : ProxyAnswer} {id : PeerId}

/-- The entry is closed. -/
def IsClosed (e : EntryId) (m : ProxyMap) : Prop :=
  ∃ entry, m.entries[e]? = some entry ∧ entry.lifecycle.state = .closed

theorem IsClosed.grows (h : m.IsClosed e) (hgrows : Grows m m') : m'.IsClosed e := by
  obtain ⟨entry, found, hstate⟩ := h
  obtain ⟨entry', found', -, hclosed⟩ := hgrows.entries e entry found
  exact ⟨entry', found', hclosed hstate⟩

/-- The entry is closed, or the call is going to retire it. -/
def RetiredBy (t : TaskId) (e : EntryId) (m : ProxyMap) : Prop := m.IsClosed e ∨ m.Retires t e

theorem Retires.exists_stage (h : m.Retires t e) : ∃ s, m.stage? t = some s := by
  obtain ⟨jobs, answer, hs, -⟩ := h
  exact ⟨_, hs⟩

/-- Whatever the call that retires an entry does, it does not give it up. -/
theorem Advance.retiredBy (h : Advance (· = .lookUp) t m m') (hm : m.Consistent) (hr : m.Retires t e) :
    m'.RetiredBy t e := by
  obtain ⟨jobs, answer, hs, hmem⟩ := hr
  have hclash : ∀ {s : ProxyStage}, m.stage? t = some s → (∀ jobs a, s ≠ .retiring jobs a) → False :=
    fun hstage hne => hne _ _ (Option.some.inj (hstage.symm.trans hs))
  cases h with
  | start stage | answer stage | succeed stage | fail stage => exact (hclash stage nofun).elim
  | leave loses stage looking =>
    refine (hclash stage fun jobs a heq => ?_).elim
    rcases looking with rfl | ⟨h, wake, rfl⟩ <;> cases heq
  | @retire x entry pre post job a now stage found owner done =>
    cases hs.symm.trans stage
    -- the entry is closed if this was its turn, and is on the list still if it was not
    rcases eq_or_ne e x with rfl | hne
    · refine .inl ⟨_, getElem?_modify_eq_some_iff.mpr ⟨entry, found, if_pos rfl⟩, ?_⟩
      rw [ProxyEntry.unlock_lifecycle]
      exact (hm.fits e entry found).retire_eq.1
    · refine .inr ⟨_, _, (stage?_act stage).trans (if_pos rfl), ?_⟩
      simp only [List.mem_append, List.mem_cons, Retirement.locking.injEq, hne, false_or] at hmem ⊢
      exact hmem.imp_right .inr
  | @closed x h now wake pre post a stage =>
    cases hs.symm.trans stage
    refine .inr ⟨_, _, stage?_setStage_self (m := m.concludeClose now h) stage, ?_⟩
    simp only [List.mem_append, List.mem_cons, reduceCtorEq, false_or] at hmem ⊢
    exact hmem
  | finish stage free ended =>
    cases hs.symm.trans stage
    have hlock := List.filterMap_eq_nil_iff.mp free _ hmem
    cases hlock
  | abandon loses => cases loses

theorem Move.retiredBy (h : Move (· = .lookUp) u m m') (hm : m.Consistent) (hr : m.RetiredBy t e) :
    m'.RetiredBy t e := by
  rcases hr with hclosed | hretires
  · exact .inl (hclosed.grows (h.grows hm))
  · obtain ⟨jobs, answer, hs, hmem⟩ := hretires
    rcases eq_or_ne t u with rfl | hne
    · cases h with
      | advance h => exact h.retiredBy hm ⟨jobs, answer, hs, hmem⟩
      | enrol | shut => exact .inr ⟨jobs, answer, hs, hmem⟩
      | call call new =>
        rw [new, stage?_length] at hs
        cases hs
      | join task =>
        cases hs.symm.trans (stage?_eq_some_iff.mpr ⟨_, task⟩)
        cases hmem
      | await task =>
        have stage := stage?_eq_some_iff.mpr ⟨_, task⟩
        cases hs.symm.trans stage
        exact .inr ⟨_, _, (stage?_act stage).trans (if_pos rfl), List.mem_append_left _ hmem⟩
      | renew task =>
        cases hs.symm.trans (stage?_eq_some_iff.mpr ⟨_, task⟩)
        cases hmem
    · exact .inr ⟨jobs, answer, (h.stage?_of_ne hne).trans hs, hmem⟩

theorem Moves.retiredBy (h : Moves (· = .lookUp) u m m') (hm : m.Consistent) (hr : m.RetiredBy t e) :
    m'.RetiredBy t e :=
  h.induct (fun _ _ hm hmove hr => hmove.retiredBy hm hr) hm hr

/-! ## Entries that were replaced -/

/-- A reset of the peer is going to retire the entry. -/
def Owed (id : PeerId) (e : EntryId) (m : ProxyMap) : Prop :=
  ∃ t call s, m.tasks[t]? = some ⟨call, s⟩ ∧ call.Resets id ∧ m.Retires t e

/-- Every entry is registered, or closed, or a reset is going to retire it. -/
def Accounted (m : ProxyMap) : Prop :=
  ∀ e entry, m.entries[e]? = some entry →
    m.registry.get? entry.peer.id = some e ∨ m.IsClosed e ∨ m.Owed entry.peer.id e

/-- An entry is registered when it is made. -/
theorem Advance.old (h : Advance may t m m') {entry' : ProxyEntry}
    (hx : m'.entries[x]? = some entry') : ∃ entry, m.entries[x]? = some entry := by
  cases h with
  | closed | finish => exact ⟨_, hx⟩
  | _ =>
    obtain ⟨entry, hentry, -⟩ := getElem?_modify_eq_some_iff.mp hx
    exact ⟨entry, hentry⟩

theorem Advance.registry_eq (h : Advance may t m m') : m'.registry = m.registry := by
  cases h <;> rfl

theorem Move.old_or_registered (h : Move may t m m') {entry' : ProxyEntry}
    (hx : m'.entries[x]? = some entry') :
    (∃ entry, m.entries[x]? = some entry) ∨ m'.registry.get? entry'.peer.id = some x := by
  cases h with
  | advance h => exact .inl (h.old hx)
  | enrol =>
    rcases getElem?_concat_eq_some_iff.mp hx with hold | ⟨rfl, rfl⟩
    · exact .inl ⟨_, hold⟩
    · exact .inr (Registry.get?_set.trans (if_pos rfl))
  | call | shut => exact .inl ⟨_, hx⟩
  | join | await =>
    obtain ⟨entry, hentry, -⟩ := getElem?_modify_eq_some_iff.mp hx
    exact .inl ⟨entry, hentry⟩
  | renew =>
    rcases getElem?_concat_eq_some_iff.mp hx with hold | ⟨hlen, rfl⟩
    · obtain ⟨entry, hentry, -⟩ := getElem?_modify_eq_some_iff.mp hold
      exact .inl ⟨entry, hentry⟩
    · exact .inr (Registry.get?_set.trans ((if_pos rfl).trans (congrArg some hlen.symm)))

/-- An entry stays registered until a reset replaces it. -/
theorem Move.registered_or_owed (h : Move may t m m') (hm : m.Consistent)
    (hget : m.registry.get? id = some e) : m'.registry.get? id = some e ∨ m'.Owed id e := by
  cases h with
  | advance h => exact .inl (h.registry_eq ▸ hget)
  | @enrol peer absent =>
    refine .inl (Registry.get?_set.trans ((if_neg fun hid => ?_).trans hget))
    rw [hid, hget] at absent
    cases absent
  | call | shut | join | await => exact .inl hget
  | @renew call id' e' entry a b task resets isOpen registered found =>
    by_cases hid : id' = id
    · subst hid
      cases hget.symm.trans registered
      refine .inr ⟨t, call, .retiring [.locking e] b, ?_, resets, ?_⟩
      · exact getElem?_modify_eq_some_iff.mpr ⟨_, task, if_pos rfl⟩
      · have stage := stage?_eq_some_iff.mpr ⟨call, task⟩
        exact ⟨_, _, (stage?_act stage).trans (if_pos rfl), List.mem_singleton_self _⟩
    -- the fresh entry is for the peer of the entry that it replaces, which is another
    · obtain ⟨old, hold, hold_id⟩ := hm.registered id' e' registered
      cases found.symm.trans hold
      exact .inl (Registry.get?_set.trans ((if_neg (hold_id ▸ hid)).trans hget))

theorem Move.accounted (h : Move (· = .lookUp) t m m') (hm : m.Consistent) (ha : m.Accounted) :
    m'.Accounted := by
  have hgrows := h.grows hm
  intro x entry' hx
  rcases h.old_or_registered hx with ⟨entry, hold⟩ | hregistered
  · obtain ⟨entry'', hx', hpeer, -⟩ := hgrows.entries x entry hold
    cases hx.symm.trans hx'
    rw [hpeer]
    rcases ha x entry hold with hregistered | hclosed | ⟨u, call, s, htask, hresets, hretires⟩
    · exact (h.registered_or_owed hm hregistered).imp_right .inr
    · exact .inr (.inl (hclosed.grows hgrows))
    · obtain ⟨s', htask'⟩ := hgrows.tasks u call s htask
      rcases h.retiredBy hm (.inr hretires) with hclosed | hretires
      · exact .inr (.inl hclosed)
      · exact .inr (.inr ⟨u, call, s', htask', hresets, hretires⟩)
  · exact .inl hregistered

/-! ## Look-ups retire nothing -/

/-- Only resets and closes go for entries in order to retire them. -/
theorem Advance.retires_of (h : Advance may t m m') (hr : m'.Retires t e) : m.Retires t e := by
  obtain ⟨jobs, answer, hs, hmem⟩ := hr
  cases h with
  | start stage | answer stage | succeed stage | fail stage | leave _ stage =>
    cases hs.symm.trans ((stage?_act stage).trans (if_pos rfl))
  | @retire x entry pre post job a now stage found owner done =>
    cases hs.symm.trans ((stage?_act stage).trans (if_pos rfl))
    refine ⟨_, _, stage, ?_⟩
    rcases List.mem_append.mp hmem with hpre | hpost
    · exact List.mem_append_left _ hpre
    · rcases List.mem_cons.mp hpost with rfl | hpost
      · cases done
      · exact List.mem_append_right _ (List.mem_cons_of_mem _ hpost)
  | @closed x h now wake pre post a stage =>
    cases hs.symm.trans (stage?_setStage_self (m := m.concludeClose now h) stage)
    exact ⟨_, _, stage, by simpa using hmem⟩
  | finish stage free ended =>
    rw [stage?_setStage_self stage] at hs
    rcases ended with rfl | ⟨now, a, rfl⟩ <;> cases hs
  | abandon loses stage =>
    cases hs.symm.trans ((stage?_act stage).trans (if_pos rfl))
    refine ⟨_, _, stage, ?_⟩
    simp only [List.mem_append, List.mem_cons, reduceCtorEq, false_or] at hmem ⊢
    exact hmem.imp_right .inr

/-- No look-up is going to retire an entry. -/
def LookUpsSpare (m : ProxyMap) : Prop :=
  ∀ t id s e, m.tasks[t]? = some ⟨.lookUp id, s⟩ → ¬ m.Retires t e

theorem Move.task_of (h : Move may t m m') {c : ProxyCall} (hu : m'.tasks[u]? = some ⟨c, s⟩) :
    (∃ s₀, m.tasks[u]? = some ⟨c, s₀⟩) ∨ (u = m.tasks.length ∧ s = .retiring [] .done) := by
  have hmodify : ∀ {s₁ : ProxyStage},
      (m.tasks.modify t fun task => { task with stage := s₁ })[u]? = some ⟨c, s⟩ →
      ∃ s₀, m.tasks[u]? = some ⟨c, s₀⟩ := by
    intro s₁ hu
    obtain ⟨⟨c₀, s₀⟩, htask, heq⟩ := getElem?_modify_eq_some_iff.mp hu
    refine ⟨s₀, ?_⟩
    split at heq <;> cases heq <;> exact htask
  cases h with
  | advance h => exact .inl (by cases h <;> exact hmodify hu)
  | enrol | shut => exact .inl ⟨s, hu⟩
  | call call new =>
    rcases getElem?_concat_eq_some_iff.mp hu with hu | ⟨hlen, heq⟩
    · exact .inl ⟨s, hu⟩
    · cases heq
      exact .inr ⟨hlen, rfl⟩
  | join | await | renew => exact .inl (hmodify hu)

theorem Move.lookUpsSpare (h : Move may t m m') (hl : m.LookUpsSpare) : m'.LookUpsSpare := by
  intro u id s e hu hr
  rcases h.task_of hu with ⟨s₀, hu₀⟩ | ⟨-, rfl⟩
  · refine hl u id s₀ e hu₀ ?_
    rcases eq_or_ne u t with rfl | hne
    · cases h with
      | advance h => exact h.retires_of hr
      | enrol | shut => exact hr
      | call call new =>
        rw [new, List.getElem?_eq_none (Nat.le_refl _)] at hu₀
        cases hu₀
      | join task =>
        obtain ⟨jobs, answer, hs, hmem⟩ := hr
        cases hs.symm.trans ((stage?_act (stage?_eq_some_iff.mpr ⟨_, task⟩)).trans (if_pos rfl))
      | await task => cases hu₀.symm.trans task
      | renew task resets =>
        cases hu₀.symm.trans task
        cases resets
    · obtain ⟨jobs, answer, hs, hmem⟩ := hr
      exact ⟨jobs, answer, (h.stage?_of_ne hne).symm.trans hs, hmem⟩
  -- a call that has only just begun has nothing to retire yet
  · obtain ⟨jobs, answer, hs, hmem⟩ := hr
    cases (stage?_eq_some_iff.mpr ⟨_, hu⟩).symm.trans hs
    cases hmem

end Replica.ProxyMap
