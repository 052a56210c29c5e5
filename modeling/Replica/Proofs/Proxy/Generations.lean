import Mathlib.Data.List.Induction
import Replica.Proofs.Proxy.Looking
import Replica.Proofs.Proxy.Retiring

/-!
# One proxy for each generation

An entry is one generation of a peer's proxy. A look-up that finds the entry registered stays with it
(`Attends`), whatever becomes of the registry in the meantime. At most one creation for the entry
succeeds, none begins after one has succeeded, and every look-up that stays with the entry and is
answered with a proxy gets that one.

If no look-up of the generation is cancelled and no creation for it fails, then there is exactly one
creation: the first look-up begins one at once, since an entry that is registered in an open map is
open itself (`Live`), and a creation that has not ended is either under way or its look-up was
cancelled.
-/

namespace Replica.ProxyMap

variable {may : Loss → Prop} {t u : TaskId} {m m' : ProxyMap} {e x : EntryId} {h k : Handle}
variable {c : Creation} {now : Nat} {factory : Factory} {id : PeerId}

/-! ## Registered entries are open -/

/-- As long as the map is open, nobody retires a registered entry. -/
def Live (m : ProxyMap) : Prop :=
  m.closed = false → ∀ id e, m.registry.get? id = some e → ¬ m.IsClosed e ∧ ∀ t, ¬ m.Retires t e

theorem Live.empty (name : String) : Live { name := name } := by
  intro _ id e h
  cases h

theorem Advance.closed_eq (h : Advance may t m m') : m'.closed = m.closed := by
  cases h <;> rfl

theorem isClosed_act {f : ProxyEntry → ProxyEntry} {creations : List Creation} {s : ProxyStage}
    {entry : ProxyEntry} (found : m.entries[e]? = some entry)
    (hx : (m.act e f creations t s).IsClosed x) :
    m.IsClosed x ∨ (x = e ∧ (f entry).lifecycle.state = .closed) := by
  obtain ⟨entry', found', hstate⟩ := hx
  obtain ⟨old, hold, rfl⟩ := getElem?_modify_eq_some_iff.mp found'
  split at hstate
  · next hex =>
    subst hex
    cases found.symm.trans hold
    exact .inr ⟨rfl, hstate⟩
  · exact .inl ⟨old, hold, hstate⟩

/-- What keeps the lifecycle of an entry closes none. -/
theorem isClosed_of_act {f : ProxyEntry → ProxyEntry} {creations : List Creation} {s : ProxyStage}
    {entry : ProxyEntry} (found : m.entries[e]? = some entry)
    (hkept : (f entry).lifecycle = entry.lifecycle) (hx : (m.act e f creations t s).IsClosed x) :
    m.IsClosed x := by
  rcases isClosed_act found hx with hx | ⟨rfl, hstate⟩
  · exact hx
  · exact ⟨entry, found, hkept ▸ hstate⟩

/-- An entry is closed by a call that was going to retire it and holds its lock. -/
theorem Advance.isClosed_of (h : Advance may t m m') (hm : m.Consistent) (hx : m'.IsClosed x) :
    m.IsClosed x ∨ (m.Retires t x ∧
      ∃ entry : ProxyEntry, m.entries[x]? = some entry ∧ entry.owner = some t) := by
  cases h with
  | closed | finish => exact .inl hx
  | answer stage found => exact .inl (isClosed_of_act found ProxyEntry.unlock_lifecycle hx)
  | leave _ stage looking found | abandon _ stage found =>
    exact .inl (isClosed_of_act found ProxyEntry.leave_lifecycle hx)
  | start stage found =>
    rcases isClosed_act found hx with hx | ⟨-, hstate⟩
    · exact .inl hx
    · cases hstate
  | @succeed e h now wake entry c stage found made =>
    obtain ⟨hmaking, -, -⟩ := hm.made_of_creating stage found made
    obtain ⟨-, hstarting, -⟩ := (hm.fits e entry found).making t h hmaking
    -- an entry whose proxy is being made is starting, and goes on to running
    rcases isClosed_act found hx with hx | ⟨-, hstate⟩
    · exact .inl hx
    · rw [ProxyEntry.install_eq hstarting, ProxyEntry.unlock_lifecycle] at hstate
      cases hstate
  | @fail e h now wake entry c err stage found made =>
    obtain ⟨hmaking, -, -⟩ := hm.made_of_creating stage found made
    obtain ⟨-, hstarting, -⟩ := (hm.fits e entry found).making t h hmaking
    rcases isClosed_act found hx with hx | ⟨-, hstate⟩
    · exact .inl hx
    · rw [ProxyEntry.giveUp_eq hstarting, ProxyEntry.unlock_lifecycle] at hstate
      cases hstate
  | retire stage found owner =>
    rcases isClosed_act found hx with hx | ⟨rfl, -⟩
    · exact .inl hx
    · exact .inr ⟨⟨_, _, stage, by simp⟩, _, found, owner⟩

/-- Nobody is going to retire an entry that does not exist. -/
theorem Consistent.not_retires (hm : m.Consistent) (hnone : m.entries[e]? = none) (t : TaskId) :
    ¬ m.Retires t e := by
  rintro ⟨jobs, answer, hs, hmem⟩
  obtain ⟨entry, found⟩ := hm.exists_entry hs (List.mem_filterMap.mpr ⟨_, hmem, rfl⟩)
  cases hnone.symm.trans found

theorem isClosed_enrol {peer : Peer} (hx : (m.enrol peer).IsClosed x) : m.IsClosed x := by
  obtain ⟨entry', found', hstate⟩ := hx
  rcases getElem?_concat_eq_some_iff.mp found' with hold | ⟨-, rfl⟩
  · exact ⟨entry', hold, hstate⟩
  · cases hstate

theorem Retires.of_stage?_eq (h : m'.Retires t e) (heq : m'.stage? t = m.stage? t) :
    m.Retires t e := by
  unfold Retires at h ⊢
  rwa [← heq]

/-- Nothing has been done yet to the entry that will be made next. -/
theorem Consistent.next_spared (hm : m.Consistent) :
    ¬ m.IsClosed m.entries.length ∧ ∀ t, ¬ m.Retires t m.entries.length := by
  have hnone : m.entries[m.entries.length]? = none := List.getElem?_eq_none (Nat.le_refl _)
  refine ⟨fun hx => ?_, hm.not_retires hnone⟩
  obtain ⟨entry, found, -⟩ := hx
  cases hnone.symm.trans found

/-- After a renewal, the entry that is registered is the fresh one, or that of another peer. -/
theorem Consistent.get?_renew_cases (hm : m.Consistent) {id' : PeerId} {e' : EntryId} {entry : ProxyEntry}
    {f : ProxyEntry → ProxyEntry} {creations : List Creation} {s : ProxyStage}
    (registered : m.registry.get? id' = some e') (found : m.entries[e']? = some entry)
    (hget : ((m.act e' f creations t s).enrol entry.peer).registry.get? id = some e) :
    e = m.entries.length ∨ m.registry.get? id = some e ∧ e ≠ e' := by
  obtain ⟨old, hold, hpid⟩ := hm.registered id' e' registered
  cases found.symm.trans hold
  rw [ProxyMap.enrol, Registry.get?_set] at hget
  split at hget
  · cases hget
    exact .inl (List.length_modify ..)
  · next hne =>
    refine .inr ⟨hget, ?_⟩
    rintro rfl
    exact hne (by rw [hpid, hm.id_unique registered hget])

theorem Move.live (h : Move may t m m') (hm : m.Consistent) (hl : m.Live) : m'.Live := by
  intro hopen id e hget
  have hother : ∀ u, u ≠ t → m'.Retires u e → m.Retires u e := fun u hu hr =>
    hr.of_stage?_eq (h.stage?_of_ne hu)
  cases h with
  | advance h =>
    obtain ⟨hclosed, hretires⟩ := hl (h.closed_eq ▸ hopen) id e (h.registry_eq ▸ hget)
    refine ⟨fun hx => ?_, fun u hr => ?_⟩
    · exact (h.isClosed_of hm hx).elim hclosed fun hr => hretires t hr.1
    · rcases eq_or_ne u t with rfl | hu
      · exact hretires u (h.retires_of hr)
      · exact hretires u (hother u hu hr)
  | @enrol peer absent =>
    rw [ProxyMap.enrol, Registry.get?_set] at hget
    split at hget
    · cases hget
      exact ⟨fun hx => hm.next_spared.1 (isClosed_enrol hx), hm.next_spared.2⟩
    · obtain ⟨hclosed, hretires⟩ := hl hopen id e hget
      exact ⟨fun hx => hclosed (isClosed_enrol hx), hretires⟩
  | call call new =>
    obtain ⟨hclosed, hretires⟩ := hl hopen id e hget
    refine ⟨hclosed, fun u hr => ?_⟩
    rcases eq_or_ne u t with rfl | hu
    · obtain ⟨jobs, answer, hs, hmem⟩ := hr
      rw [stage?_call, if_pos new] at hs
      cases hs
      cases hmem
    · exact hretires u (hother u hu hr)
  | shut => cases hopen
  | join task isOpen registered found =>
    obtain ⟨hclosed, hretires⟩ := hl hopen id e hget
    refine ⟨fun hx => hclosed (isClosed_of_act found ProxyEntry.lock_lifecycle hx), fun u hr => ?_⟩
    rcases eq_or_ne u t with rfl | hu
    · obtain ⟨jobs, answer, hs, hmem⟩ := hr
      cases hs.symm.trans ((stage?_act (stage?_eq_some_iff.mpr ⟨_, task⟩)).trans (if_pos rfl))
    · exact hretires u (hother u hu hr)
  | await task isClosed => exact absurd (hopen.symm.trans isClosed) Bool.false_ne_true
  | @renew call id' e' entry a b task resets isOpen registered found =>
    have hcases := hm.get?_renew_cases registered found hget
    have hkept : ¬ m.IsClosed e ∧ ∀ u, ¬ m.Retires u e := by
      rcases hcases with rfl | ⟨hget, -⟩
      · exact hm.next_spared
      · exact hl isOpen id e hget
    refine ⟨fun hx => hkept.1 (isClosed_of_act found ProxyEntry.lock_lifecycle (isClosed_enrol hx)),
      fun u hr => ?_⟩
    rcases eq_or_ne u t with rfl | hu
    · obtain ⟨jobs, answer, hs, hmem⟩ := hr
      cases hs.symm.trans ((stage?_act (stage?_eq_some_iff.mpr ⟨_, task⟩)).trans (if_pos rfl))
      cases List.mem_singleton.mp hmem
      rcases hcases with rfl | ⟨-, hne⟩
      · exact absurd (lt_length_of_getElem? found) (lt_irrefl _)
      · exact hne rfl
    · exact hkept.2 u (hother u hu hr)

theorem Moves.live (h : Moves may t m m') (hm : m.Consistent) (hl : m.Live) : m'.Live :=
  h.induct (fun _ _ hm hmove hl => hmove.live hm hl) hm hl

/-! ## Look-ups stay with their entry -/

/-- The proxy was made for the entry. -/
def MadeFor (e : EntryId) (h : Handle) (m : ProxyMap) : Prop :=
  ∃ c, m.creations[h]? = some c ∧ c.entry = e ∧ c.outcome = some .created

theorem MadeFor.grows (hmade : m.MadeFor e h) (hgrows : Grows m m') : m'.MadeFor e h := by
  obtain ⟨c, hc, hce, houtcome⟩ := hmade
  obtain ⟨c', hc', hentry, hkept⟩ := hgrows.creations h c hc
  exact ⟨c', hc', hentry.trans hce, hkept houtcome⟩

/-- A cached proxy was made for the entry. -/
theorem Consistent.madeFor (hm : m.Consistent) {entry : ProxyEntry}
    (found : m.entries[e]? = some entry) (hslot : entry.slot = some h) : m.MadeFor e h := by
  obtain ⟨c, hmade, houtcome⟩ := (hm.fits e entry found).cached h hslot
  obtain ⟨hc, hce⟩ := around_made_eq_some_iff.mp hmade
  exact ⟨c, hc, hce, houtcome⟩

/-- The call is a look-up at the entry, or it was one: if it was answered with a proxy, then with one
that was made for the entry. -/
def Attends (t : TaskId) (e : EntryId) (m : ProxyMap) : Prop :=
  m.LooksAt t e ∨ m.stage? t = some .cancelled ∨
    ∃ now result, m.stage? t = some (.finished now (.proxy result)) ∧
      ∀ h, result = .ok h → m.MadeFor e h

theorem Attends.grows (ha : m.Attends t e) (hgrows : Grows m m')
    (hstage : m'.stage? t = m.stage? t) : m'.Attends t e := by
  rcases ha with hl | hs | ⟨now, result, hs, hmade⟩
  · exact .inl (hl.of_stage?_eq hstage)
  · exact .inr (.inl (hstage.trans hs))
  · exact .inr (.inr ⟨now, result, hstage.trans hs, fun h hh => (hmade h hh).grows hgrows⟩)

theorem Attends.not_retiring (ha : m.Attends t e) {jobs : List Retirement} {a : ProxyAnswer} :
    m.stage? t ≠ some (.retiring jobs a) := by
  intro hs
  rcases ha with (hl | ⟨h, wake, hl⟩) | hl | ⟨now, result, hl, -⟩ <;> cases hs.symm.trans hl

/-- Of an entry that a call looks at, the call knows the stage. -/
theorem Attends.eq_of_looking (ha : m.Attends t e) (hl : m.LooksAt t x) : x = e := by
  rcases ha with (hs | ⟨h, wake, hs⟩) | hs | ⟨now, result, hs, -⟩ <;>
    rcases hl with hs' | ⟨k, wake', hs'⟩ <;> cases hs.symm.trans hs' <;> rfl

theorem Advance.attends (h : Advance may t m m') (hm : m.Consistent) (ha : m.Attends t e) :
    m'.Attends t e := by
  have hgrows := h.grows hm
  cases h with
  | start stage =>
    obtain rfl := ha.eq_of_looking (.inl stage)
    exact .inl (.inr ⟨_, _, (stage?_act stage).trans (if_pos rfl)⟩)
  | answer stage found owner cached =>
    obtain rfl := ha.eq_of_looking (.inl stage)
    refine .inr (.inr ⟨_, _, (stage?_act stage).trans (if_pos rfl), fun h hh => ?_⟩)
    exact (hm.madeFor found (cached h hh)).grows hgrows
  | @succeed x h now wake entry c stage found made =>
    obtain rfl := ha.eq_of_looking (.inr ⟨h, wake, stage⟩)
    refine .inr (.inr ⟨_, _, (stage?_act stage).trans (if_pos rfl), fun k hk => ?_⟩)
    cases hk
    obtain ⟨-, -, hmade⟩ := hm.made_of_creating stage found made
    obtain ⟨-, hce⟩ := around_made_eq_some_iff.mp hmade
    exact ⟨c.ended .created, getElem?_modify_eq_some_iff.mpr ⟨c, made, if_pos rfl⟩, hce, rfl⟩
  | @fail x h now wake entry c err stage =>
    obtain rfl := ha.eq_of_looking (.inr ⟨h, wake, stage⟩)
    exact .inr (.inr ⟨_, _, (stage?_act stage).trans (if_pos rfl), nofun⟩)
  | leave _ stage => exact .inr (.inl ((stage?_act stage).trans (if_pos rfl)))
  | retire stage | closed stage | finish stage | abandon _ stage =>
    exact absurd stage ha.not_retiring

theorem Move.attends (h : Move may t m m') (hm : m.Consistent) (ha : m.Attends u e) :
    m'.Attends u e := by
  rcases eq_or_ne u t with rfl | hu
  · have hgrows := h.grows hm
    cases h with
    | advance h => exact h.attends hm ha
    | enrol absent => exact ha.grows hgrows rfl
    | shut => exact ha.grows hgrows rfl
    | call call new =>
      rcases ha with (hs | ⟨h, wake, hs⟩) | hs | ⟨now, result, hs, -⟩ <;>
        rw [new, stage?_length] at hs <;> cases hs
    | join task | await task | renew task =>
      exact absurd (stage?_eq_some_iff.mpr ⟨_, task⟩) ha.not_retiring
  · exact ha.grows (h.grows hm) (h.stage?_of_ne hu)

theorem Moves.attends (h : Moves may t m m') (hm : m.Consistent) (ha : m.Attends u e) :
    m'.Attends u e :=
  h.induct (fun _ _ hm hmove ha => hmove.attends hm ha) hm ha

end Replica.ProxyMap
