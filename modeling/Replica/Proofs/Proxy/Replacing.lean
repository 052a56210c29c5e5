import Replica.Proofs.Proxy.Ownership
import Replica.Proofs.Proxy.Precedence

/-!
# A reset and the generation that it replaces

A reset swaps an entry out and goes for its lock in one step. The entry is not registered from then on,
and never again, so nobody else comes to retire it; and the reset comes to retire no other entry
(`Replaces`). So of all calls it is this reset that closes the entry, and it closes no other one
(`Exact`), whatever other resets of the same peer are under way.

Meanwhile the peer is registered with an entry that was made by this reset or after it
(`RegisteredPast`).
-/

namespace Replica

/-- The call replaces the entry of the peer, if there is one in an open map. -/
def ProxyCall.Renews (id : PeerId) : ProxyCall → Prop
  | .reset id' => id' = id
  | .repair id' error reconnect => id' = id ∧ (reconnect || error.shouldReconnect) = true
  | _ => False

theorem ProxyCall.Renews.resets {id : PeerId} {call : ProxyCall} (h : call.Renews id) :
    call.Resets id := by
  cases call with
  | lookUp | close => exact h.elim
  | reset id' => exact h
  | repair id' error reconnect => exact h.1

namespace ProxyMap

variable {may : Loss → Prop} {t u : TaskId} {m m' m₀ : ProxyMap} {e x : EntryId} {h : Handle}
variable {id : PeerId} {n : Nat} {entry : ProxyEntry} {b : ProxyAnswer}

/-! ## What the peer is registered with -/

/-- The peer is registered, and not with one of the first `n` entries. -/
def RegisteredPast (n : Nat) (id : PeerId) (m : ProxyMap) : Prop :=
  n ≤ m.entries.length ∧ ∃ e, m.registry.get? id = some e ∧ n ≤ e

/-- A peer keeps its entry, or gets the one that is made just now. -/
theorem Move.registered_of (h : Move may t m m') (hget : m'.registry.get? id = some x) :
    m.registry.get? id = some x ∨ x = m.entries.length := by
  have henrol : ∀ {peer : Peer} {k : Nat}, (m.registry.set peer.id k).get? id = some x →
      m.registry.get? id = some x ∨ x = k := by
    intro peer k hget
    rw [Registry.get?_set] at hget
    split at hget
    · cases hget
      exact .inr rfl
    · exact .inl hget
  cases h with
  | advance h => exact .inl (h.registry_eq ▸ hget)
  | enrol => exact henrol hget
  | call | shut | join | await => exact .inl hget
  | renew => exact (henrol hget).imp_right fun hx => hx.trans (List.length_modify ..)

/-- A peer that is registered stays so. -/
theorem Move.exists_registered (h : Move may t m m') (hget : m.registry.get? id = some e) :
    ∃ x, m'.registry.get? id = some x := by
  have henrol : ∀ {peer : Peer} {k : Nat}, ∃ x, (m.registry.set peer.id k).get? id = some x := by
    intro peer k
    rw [Registry.get?_set]
    split
    · exact ⟨k, rfl⟩
    · exact ⟨e, hget⟩
  cases h with
  | advance h => exact ⟨e, h.registry_eq ▸ hget⟩
  | enrol | renew => exact henrol
  | call | shut | join | await => exact ⟨e, hget⟩

theorem Grows.length_le (h : Grows m m') : m.entries.length ≤ m'.entries.length := by
  refine Nat.not_lt.mp fun hlt => ?_
  obtain ⟨entry', found', -⟩ := h.entries _ _ (List.getElem?_eq_getElem hlt)
  exact absurd (lt_length_of_getElem? found') (Nat.lt_irrefl _)

theorem Move.registeredPast (h : Move may t m m') (hm : m.Consistent) (hr : m.RegisteredPast n id) :
    m'.RegisteredPast n id := by
  obtain ⟨hlen, e, hget, hle⟩ := hr
  obtain ⟨x, hx⟩ := h.exists_registered hget
  refine ⟨hlen.trans (h.grows hm).length_le, x, hx, ?_⟩
  rcases h.registered_of hx with hold | rfl
  · cases hget.symm.trans hold
    exact hle
  · exact hlen

/-! ## Who retires the entry -/

/-- The call has swapped the entry out, and is the only one that may be going to retire it. -/
structure Replaces (t : TaskId) (e : EntryId) (m : ProxyMap) : Prop where
  found : ∃ entry, m.entries[e]? = some entry
  left : ∀ id, m.registry.get? id ≠ some e
  only : ∀ u, m.Retires u e → u = t
  alone : ∀ x, m.Retires t x → x = e
  /-- The call is no close, and has gone for its locks already. -/
  begun : ∃ call s, m.tasks[t]? = some ⟨call, s⟩ ∧ call ≠ .close ∧ ∀ a, s ≠ .retiring [] a

/-- Only a close and a reset that begin go for one more entry, and the entry is registered then. -/
theorem Move.retires_of (h : Move may t m m') (hm : m.Consistent) (hr : m'.Retires u x) :
    m.Retires u x ∨ (u = t ∧ (∃ id, m.registry.get? id = some x) ∧
      ∃ call jobs a, m.tasks[t]? = some ⟨call, .retiring jobs a⟩ ∧ (call = .close ∨ jobs = [])) := by
  rcases eq_or_ne u t with rfl | hne
  · obtain ⟨jobs', answer, hs, hmem⟩ := hr
    cases h with
    | advance h => exact .inl (h.retires_of ⟨jobs', answer, hs, hmem⟩)
    | enrol | shut => exact .inl ⟨jobs', answer, hs, hmem⟩
    | call call new =>
      rw [stage?_call, if_pos new] at hs
      cases hs
      cases hmem
    | join task =>
      cases hs.symm.trans ((stage?_act (stage?_eq_some_iff.mpr ⟨_, task⟩)).trans (if_pos rfl))
    | await task isClosed found listed =>
      have stage := stage?_eq_some_iff.mpr ⟨_, task⟩
      cases hs.symm.trans ((stage?_act stage).trans (if_pos rfl))
      rcases List.mem_append.mp hmem with hmem | hmem
      · exact .inl ⟨_, _, stage, hmem⟩
      · cases List.mem_singleton.mp hmem
        exact .inr ⟨rfl, hm.sorted.mem_values_iff.mp listed, _, _, _, task, .inl rfl⟩
    | renew task resets isOpen registered found =>
      cases hs.symm.trans ((stage?_act (stage?_eq_some_iff.mpr ⟨_, task⟩)).trans (if_pos rfl))
      cases List.mem_singleton.mp hmem
      exact .inr ⟨rfl, ⟨_, registered⟩, _, _, _, task, .inr rfl⟩
  · exact .inl (hr.of_stage?_eq (h.stage?_of_ne hne))

/-- A call has nothing to retire when it begins, and not again. -/
theorem Advance.idle_of (h : Advance may t m m') {a : ProxyAnswer}
    (hs : m'.stage? t = some (.retiring [] a)) : False := by
  have hact : ∀ {s₀ s : ProxyStage} (m₁ : ProxyMap), m₁.stage? t = some s₀ →
      (m₁.setStage t s).stage? t = some (.retiring [] a) → s = .retiring [] a :=
    fun _ stage hs => Option.some.inj ((stage?_setStage_self stage).symm.trans hs)
  cases h with
  | start stage | answer stage | succeed stage | fail stage | leave _ stage =>
    cases Option.some.inj (((stage?_act stage).trans (if_pos rfl)).symm.trans hs)
  | retire stage | abandon _ stage =>
    simpa using Option.some.inj (((stage?_act stage).trans (if_pos rfl)).symm.trans hs)
  | @closed e h now wake pre post a stage =>
    simpa using hact (m.concludeClose now h) stage hs
  | finish stage free ended =>
    rcases ended with rfl | ⟨now, a', rfl⟩ <;> cases hact m stage hs

theorem Move.idle_of (h : Move may t m m') {a : ProxyAnswer}
    (hs : m'.stage? u = some (.retiring [] a)) :
    m.stage? u = some (.retiring [] a) ∨ u = m.tasks.length := by
  rcases eq_or_ne u t with rfl | hne
  · cases h with
    | advance h => exact (h.idle_of hs).elim
    | enrol | shut => exact .inl hs
    | call call new => exact .inr new
    | join task | await task =>
      simpa using ((stage?_act (stage?_eq_some_iff.mpr ⟨_, task⟩)).trans (if_pos rfl)).symm.trans hs
    | renew task =>
      cases ((stage?_act (stage?_eq_some_iff.mpr ⟨_, task⟩)).trans (if_pos rfl)).symm.trans hs
  · exact .inl ((h.stage?_of_ne hne).symm.trans hs)

theorem Move.replaces (h : Move may u m m') (hm : m.Consistent) (hr : m.Replaces t e) :
    m'.Replaces t e := by
  obtain ⟨⟨entry, found⟩, hleft, honly, halone, call, s, htask, hcall, hbusy⟩ := hr
  have hgrows := h.grows hm
  refine ⟨?_, fun id hget => ?_, fun v hr => ?_, fun x hr => ?_, ?_⟩
  · obtain ⟨entry', found', -⟩ := hgrows.entries e entry found
    exact ⟨entry', found'⟩
  · rcases h.registered_of hget with hold | rfl
    · exact hleft id hold
    · exact absurd (lt_length_of_getElem? found) (Nat.lt_irrefl _)
  · rcases h.retires_of hm hr with hr | ⟨-, ⟨id, hget⟩, -⟩
    · exact honly v hr
    · exact absurd hget (hleft id)
  · rcases h.retires_of hm hr with hr | ⟨rfl, -, call', jobs, a, htask', hnew⟩
    · exact halone x hr
    -- the call has gone for its locks, so it goes for no other one
    · cases htask.symm.trans htask'
      rcases hnew with rfl | rfl
      · exact absurd rfl hcall
      · exact absurd rfl (hbusy a)
  · obtain ⟨s', htask'⟩ := hgrows.tasks t call s htask
    refine ⟨call, s', htask', hcall, fun a hs => ?_⟩
    subst hs
    rcases h.idle_of (stage?_eq_some_iff.mpr ⟨call, htask'⟩) with hs | rfl
    · cases hs.symm.trans (stage?_eq_some_iff.mpr ⟨call, htask⟩)
      exact hbusy a rfl
    · exact absurd (lt_length_of_getElem? htask) (Nat.lt_irrefl _)

/-- A reset that has swapped in a fresh entry has replaced the old one. -/
theorem renewed_replaces {call : ProxyCall} {a : ProxyAnswer} (hm : m.Consistent) (hlive : m.Live)
    (task : m.tasks[t]? = some ⟨call, .retiring [] a⟩) (resets : call.Resets id)
    (hopen : m.closed = false) (registered : m.registry.get? id = some e)
    (found : m.entries[e]? = some entry) : (m.renewed t e entry b).Replaces t e := by
  have hmove : Move (fun _ => False) t m (m.renewed t e entry b) :=
    .renew task resets hopen registered found
  have hstage : (m.renewed t e entry b).stage? t = some (.retiring [.locking e] b) :=
    (stage?_act (stage?_eq_some_iff.mpr ⟨call, task⟩)).trans (if_pos rfl)
  have halone : ∀ x, (m.renewed t e entry b).Retires t x → x = e := by
    rintro x ⟨jobs, answer, hs, hmem⟩
    cases hs.symm.trans hstage
    cases List.mem_singleton.mp hmem
    rfl
  refine ⟨?_, fun id' hget => ?_, fun v hr => ?_, halone, ?_⟩
  · obtain ⟨entry', found', -⟩ := (hmove.grows hm).entries e entry found
    exact ⟨entry', found'⟩
  · have hlt := lt_length_of_getElem? found
    obtain ⟨old, hold, hid⟩ := hm.registered id e registered
    cases found.symm.trans hold
    rw [renewed, ProxyMap.enrol, Registry.get?_set, act_entries, List.length_modify] at hget
    split at hget
    · exact absurd (Option.some.inj hget) (Nat.ne_of_gt hlt)
    · next hne => exact hne (hid.trans (hm.id_unique registered hget))
  · by_contra hne
    exact (hlive hopen id e registered).2 v (hr.of_stage?_eq (hmove.stage?_of_ne hne))
  · obtain ⟨call', htask'⟩ := stage?_eq_some_iff.mp hstage
    obtain ⟨s', htask''⟩ := (hmove.grows hm).tasks t call _ task
    cases htask'.symm.trans htask''
    refine ⟨call, _, htask', ?_, by rintro _ ⟨⟩⟩
    rintro rfl
    exact resets

/-- The fresh entry comes after all that there were. -/
theorem renewed_registeredPast (hm : m.Consistent) (registered : m.registry.get? id = some e)
    (found : m.entries[e]? = some entry) :
    (m.renewed t e entry b).RegisteredPast m.entries.length id := by
  obtain ⟨old, hold, hid⟩ := hm.registered id e registered
  cases found.symm.trans hold
  have hlen : (m.act e (.lock t) m.creations t (.retiring [.locking e] b)).entries.length =
      m.entries.length := List.length_modify ..
  refine ⟨?_, m.entries.length, ?_, Nat.le_refl _⟩
  · rw [renewed, ProxyMap.enrol, List.length_append, hlen]
    exact Nat.le_add_right _ _
  · rw [renewed, ProxyMap.enrol, Registry.get?_set, if_pos hid, hlen]

/-! ## What is closed, and by whom -/

/-- An entry is closed by a call that was going to retire it. -/
theorem Move.isClosed_of (h : Move may t m m') (hm : m.Consistent) (hx : m'.IsClosed x) :
    m.IsClosed x ∨ m.Retires t x := by
  cases h with
  | advance h => exact (h.isClosed_of hm hx).imp_right And.left
  | enrol => exact .inl (isClosed_enrol hx)
  | call | shut => exact .inl hx
  | join task isOpen registered found | await task isClosed found =>
    exact .inl (isClosed_of_act found ProxyEntry.lock_lifecycle hx)
  | renew task resets isOpen registered found =>
    exact .inl (isClosed_of_act found ProxyEntry.lock_lifecycle (isClosed_enrol hx))

/-- What else is noted in a creation does not matter. -/
theorem asked_of_modify {g : Creation → Creation} {k : Handle} {c : Creation}
    (hg : ∀ c, (g c).closeCalls = c.closeCalls) (hc : (m.creations.modify k g)[h]? = some c)
    (hcalls : c.closeCalls ≠ []) : Custody.closed.Holds h m := by
  obtain ⟨c₀, hc₀, rfl⟩ := getElem?_modify_eq_some_iff.mp hc
  refine ⟨c₀, hc₀, fun hnone => hcalls ?_⟩
  split
  · rw [hg, hnone]
  · exact hnone

/-- A proxy is asked to close by a call that was going to retire its entry. -/
theorem Advance.asked_of (h : Advance may t m m') (hm : m.Consistent) {k : Handle} {c : Creation}
    (hc : m'.creations[k]? = some c) (hcalls : c.closeCalls ≠ []) :
    Custody.closed.Holds k m ∨ m.Retires t c.entry := by
  cases h with
  | start stage =>
    rcases getElem?_concat_eq_some_iff.mp hc with hc | ⟨-, rfl⟩
    · exact .inl ⟨c, hc, hcalls⟩
    · exact absurd rfl hcalls
  | answer | leave | finish | abandon => exact .inl ⟨c, hc, hcalls⟩
  | succeed | fail => exact .inl (asked_of_modify (g := Creation.ended _) (fun _ => rfl) hc hcalls)
  | closed => exact .inl (asked_of_modify (g := Creation.hasClosed _) (fun _ => rfl) hc hcalls)
  | @retire e entry pre post job a now stage found =>
    cases hslot : entry.slot with
    | none =>
      rw [act_creations, hslot] at hc
      exact .inl ⟨c, hc, hcalls⟩
    | some h =>
      rw [act_creations, hslot] at hc
      obtain ⟨c₁, hc₁, rfl⟩ := getElem?_modify_eq_some_iff.mp hc
      split at hcalls
      -- the proxy in the slot was made for the entry
      · next hk =>
        subst hk
        obtain ⟨c₀, hc₀, hentry, -⟩ := hm.slot found hslot
        cases hc₀.symm.trans hc₁
        refine .inr ?_
        rw [if_pos rfl, Creation.entry_askToClose, hentry]
        exact ⟨_, _, stage, by simp⟩
      · exact .inl ⟨c₁, hc₁, hcalls⟩

theorem Move.asked_of (h : Move may t m m') (hm : m.Consistent) {k : Handle} {c : Creation}
    (hc : m'.creations[k]? = some c) (hcalls : c.closeCalls ≠ []) :
    Custody.closed.Holds k m ∨ m.Retires t c.entry := by
  cases h with
  | advance h => exact h.asked_of hm hc hcalls
  | enrol | call | shut | join | await | renew => exact .inl ⟨c, hc, hcalls⟩

/-- What call `u` closes on the way from one map to the other is entry `e` and its proxy if it is
call `t`, and nothing of the kind if it is another one. -/
structure Exact (t : TaskId) (e : EntryId) (u : TaskId) (m m' : ProxyMap) : Prop where
  entries : ∀ x, m'.IsClosed x → m.IsClosed x ∨ (u = t ↔ x = e)
  proxies : ∀ (k : Handle) (c : Creation), m'.creations[k]? = some c → c.closeCalls ≠ [] →
    Custody.closed.Holds k m ∨ (u = t ↔ c.entry = e)

theorem Exact.refl (t : TaskId) (e : EntryId) (u : TaskId) (m : ProxyMap) : Exact t e u m m where
  entries _ hx := .inl hx
  proxies _ c hc hcalls := .inl ⟨c, hc, hcalls⟩

/-- A call that was going to retire something either is the reset, and then it is its entry, or is
another call, and then it is another entry. -/
theorem Replaces.iff_of_retires (hr : m.Replaces t e) (h : m.Retires u x) : u = t ↔ x = e := by
  constructor
  · rintro rfl
    exact hr.alone x h
  · rintro rfl
    exact hr.only u h

theorem Move.exact (h : Move may u m m') (hm : m.Consistent)
    (hr : m.Replaces t e) (hexact : Exact t e u m₀ m) : Exact t e u m₀ m' where
  entries x hx := by
    rcases h.isClosed_of hm hx with hx | hretires
    · exact hexact.entries x hx
    · exact .inr (hr.iff_of_retires hretires)
  proxies k c hc hcalls := by
    rcases h.asked_of hm hc hcalls with ⟨c₀, hc₀, hcalls₀⟩ | hretires
    · obtain ⟨c', hc', hentry, -⟩ := (h.grows hm).creations k c₀ hc₀
      cases hc.symm.trans hc'
      rw [hentry]
      exact hexact.proxies k c₀ hc₀ hcalls₀
    · exact .inr (hr.iff_of_retires hretires)

/-- Whatever a call does, the reset goes on to be the one that has replaced the entry, and nothing
else closes it. -/
theorem Moves.exact (h : Moves may u m m') (hm : m.Consistent) (hr : m.Replaces t e)
    (hexact : Exact t e u m₀ m) : m'.Replaces t e ∧ Exact t e u m₀ m' :=
  h.induct (P := fun m => m.Replaces t e ∧ Exact t e u m₀ m)
    (fun _ _ hm hmove hP => ⟨hmove.replaces hm hP.1, hmove.exact hm hP.1 hP.2⟩) hm ⟨hr, hexact⟩

end ProxyMap

end Replica
