import Replica.Proofs.Proxy.Surroundings

/-!
# What holds of a proxy map at every moment

Every entry fits its surroundings, what is registered exists, and nothing goes on around an
entry that does not exist (`Consistent`).

What happens at one entry keeps this if the entry still fits (`Consistent.act`). There is one lemma
for each thing that happens there.
-/

namespace Replica.ProxyMap

variable {m : ProxyMap} {t u : TaskId} {e x : EntryId} {s s₀ : ProxyStage} {entry : ProxyEntry}
variable {f : ProxyEntry → ProxyEntry} {creations : List Creation}

/-! ## The invariant -/

/-- What holds at every moment. -/
structure Consistent (m : ProxyMap) : Prop where
  sorted : m.registry.Sorted
  registered : ∀ id e, m.registry.get? id = some e →
    ∃ entry, m.entries[e]? = some entry ∧ entry.peer.id = id
  fits : ∀ e (entry : ProxyEntry), m.entries[e]? = some entry → ProxyEntry.Fits entry (m.around e)
  quiet : ∀ e, m.entries.length ≤ e → m.Quiet e

namespace Consistent

/-- The map with nothing in it. -/
theorem empty (name : String) : Consistent { name := name } where
  sorted := Registry.sorted_nil
  registered id e h := by cases h
  fits e entry h := by simp at h
  quiet e _ := ⟨fun t => rfl, fun h => rfl⟩

/-- An entry that somebody wants to lock exists. -/
theorem exists_entry (hm : m.Consistent) (hstage : m.stage? t = some s) (hmem : e ∈ s.locks) :
    ∃ entry, m.entries[e]? = some entry := by
  by_contra hnone
  have hlen : m.entries.length ≤ e := by
    rw [← List.getElem?_eq_none_iff]
    exact Option.eq_none_iff_forall_ne_some.mpr fun a ha => hnone ⟨a, ha⟩
  have hzero := (hm.quiet e hlen).1 t
  rw [demand_of_stage? hstage] at hzero
  exact List.count_eq_zero.mp hzero hmem

theorem exists_entry_of_made (hm : m.Consistent) {h : Handle} {c : Creation}
    (hc : m.creations[h]? = some c) : ∃ entry, m.entries[c.entry]? = some entry := by
  by_contra hnone
  have hlen : m.entries.length ≤ c.entry := by
    rw [← List.getElem?_eq_none_iff]
    exact Option.eq_none_iff_forall_ne_some.mpr fun a ha => hnone ⟨a, ha⟩
  have hzero := (hm.quiet c.entry hlen).2 h
  rw [around_made_eq_some_iff.mpr ⟨hc, rfl⟩] at hzero
  cases hzero

/-- An id is registered once. -/
theorem id_unique (hm : m.Consistent) {id id' : PeerId} (h : m.registry.get? id = some e)
    (h' : m.registry.get? id' = some e) : id = id' := by
  obtain ⟨entry, hentry, rfl⟩ := hm.registered id e h
  obtain ⟨entry', hentry', rfl⟩ := hm.registered id' e h'
  cases hentry.symm.trans hentry'
  rfl

/-! ## One entry and one call -/

/-- What happens at one entry keeps the invariant if the entry fits its surroundings afterwards. -/
theorem act (hm : m.Consistent) (hentry : m.entries[e]? = some entry) (hpeer : (f entry).peer = entry.peer)
    (hfits : (f entry).Fits ((m.act e f creations t s).around e))
    (hframe : ∀ x, x ≠ e → (m.act e f creations t s).around x = m.around x) :
    (m.act e f creations t s).Consistent where
  sorted := hm.sorted
  registered id x h := by
    obtain ⟨old, hold, hid⟩ := hm.registered id x h
    refine ⟨if e = x then f old else old, getElem?_modify_eq_some_iff.mpr ⟨old, hold, rfl⟩, ?_⟩
    split
    · next hex =>
      subst hex
      cases hentry.symm.trans hold
      rw [hpeer, hid]
    · exact hid
  fits x new hnew := by
    obtain ⟨old, hold, rfl⟩ := getElem?_modify_eq_some_iff.mp hnew
    by_cases hex : e = x
    · subst hex
      cases hentry.symm.trans hold
      simpa using hfits
    · rw [hframe x (Ne.symm hex), if_neg hex]
      exact hm.fits x old hold
  -- an entry that does not exist is another one than the one that is changed
  quiet x hx := by
    rw [act_entries, List.length_modify] at hx
    have hne : x ≠ e := by
      have := lt_length_of_getElem? hentry
      omega
    have hquiet := hm.quiet x hx
    unfold Quiet at hquiet ⊢
    rwa [hframe x hne]

/-- A call asks for a lock. -/
theorem lock (hm : m.Consistent) (hstage : m.stage? t = some s₀)
    (hentry : m.entries[e]? = some entry) (hrel : s.Releases e s₀) (hcalm₀ : s₀.IsCalm)
    (hcalm : s.IsCalm) : (m.act e (.lock t) m.creations t s).Consistent := by
  refine hm.act hentry ProxyEntry.lock_peer ?_ fun x hx => ?_
  · refine (hm.fits e entry hentry).lock (fun u => ?_) (fun u k hk => ?_) rfl
    · rw [around_act_demand hstage]
      split
      · next htu =>
        subst htu
        rw [hrel, demand_of_stage? hstage, if_pos rfl]
      · rfl
    · rw [around_act_making hstage] at hk
      split at hk
      · obtain ⟨wake, hs⟩ := hk
        exact absurd hs (hcalm e k wake)
      · exact hk
  · refine around_act_of_ne hstage ?_ (fun k wake => ?_) fun k => rfl
    · rw [hrel, if_neg (Ne.symm hx), Nat.add_zero]
    · exact iff_of_false (hcalm x k wake) (hcalm₀ x k wake)

/-- A call gives up its place at a lock. -/
theorem leave (hm : m.Consistent) (hstage : m.stage? t = some s₀)
    (hentry : m.entries[e]? = some entry) (hrel : s₀.Releases e s)
    (hcalm₀ : ∀ x k wake, x ≠ e → s₀ ≠ .creating x k wake) (hcalm : s.IsCalm) :
    (m.act e (.leave t) m.creations t s).Consistent := by
  refine hm.act hentry ProxyEntry.leave_peer ?_ fun x hx => ?_
  · refine (hm.fits e entry hentry).leave (demand_of_releases hstage hrel) (fun u k hk => ?_) rfl
    rw [around_act_making hstage] at hk
    split at hk
    · obtain ⟨wake, hs⟩ := hk
      exact absurd hs (hcalm e k wake)
    · next htu => exact ⟨hk, Ne.symm htu⟩
  · exact around_act_of_releases hstage hrel (fun k wake => hcalm₀ x k wake hx) hcalm hx fun k => rfl

/-- Nobody makes a proxy any more after the holder of the lock has given it up. -/
theorem not_making_act (hm : m.Consistent) (hstage : m.stage? t = some s₀)
    (hentry : m.entries[e]? = some entry) (howner : entry.owner = some t) (hcalm : s.IsCalm)
    (u : TaskId) (k : Handle) : ¬ ((m.act e f creations t s).around e).making u k := by
  rw [around_act_making hstage]
  split
  · rintro ⟨wake, hs⟩
    exact hcalm e k wake hs
  · next htu => exact fun hk => htu ((hm.fits e entry hentry).eq_of_making howner hk).symm

/-- The holder of the lock hands it over without having changed anything. -/
theorem unlock (hm : m.Consistent) (hstage : m.stage? t = some (.locking e))
    (hentry : m.entries[e]? = some entry) (howner : entry.owner = some t) (hlocks : s.locks = [])
    (hcalm : s.IsCalm) : (m.act e .unlock m.creations t s).Consistent := by
  have hrel := ProxyStage.releases_of_locks (ProxyStage.locks_locking e) hlocks
  refine hm.act hentry ProxyEntry.unlock_peer ?_ fun x hx => ?_
  · exact (hm.fits e entry hentry).unlock howner (demand_of_releases hstage hrel)
      (hm.not_making_act hstage hentry howner hcalm) rfl
  · exact around_act_of_releases hstage hrel nofun hcalm hx fun k => rfl

/-- The holder of the lock calls the factory. -/
theorem start {c : Creation} {wake : Nat} (hm : m.Consistent)
    (hstage : m.stage? t = some (.locking e)) (hentry : m.entries[e]? = some entry)
    (howner : entry.owner = some t) (hslot : entry.slot = none)
    (hopen : entry.lifecycle.state ≠ .closed) (hce : c.entry = e) (hpeer : c.peer = entry.peer)
    (houtcome : c.outcome = none) (hcalls : c.closeCalls = []) :
    (m.act e (fun y => { y with lifecycle := y.lifecycle.withState .starting })
      (m.creations ++ [c]) t (.creating e m.creations.length wake)).Consistent := by
  refine hm.act hentry rfl ?_ fun x hx => ?_
  -- the entry sees the call move on and one more creation, and no other entry sees either
  · refine (hm.fits e entry hentry).start howner hslot hopen hpeer houtcome hcalls
      (n := m.creations.length) (fun k d hd => ?_) ?_ (fun u k hk => ?_) fun k => ?_
    · exact lt_length_of_getElem? (around_made_eq_some_iff.mp hd).1
    · funext u
      rw [around_act_demand hstage]
      split
      · next htu =>
        subst htu
        rw [demand_of_stage? hstage, ProxyStage.locks_locking, ProxyStage.locks_creating]
      · rfl
    · rw [around_act_making hstage] at hk
      split at hk
      · next htu =>
        obtain ⟨wake, hs⟩ := hk
        cases hs
        exact ⟨htu.symm, rfl⟩
      · next htu =>
        exact absurd ((hm.fits e entry hentry).eq_of_making howner hk).symm htu
    · rw [around_act_made, made_concat]
      simp [hce]
  · refine around_act_of_ne hstage ?_ (fun k wake => ?_) fun k => ?_
    · rw [ProxyStage.locks_locking, ProxyStage.locks_creating]
    · refine iff_of_false (fun hs => ?_) nofun
      cases hs
      exact hx rfl
    · rw [made_concat, if_neg]
      rintro ⟨-, hcx⟩
      exact hx (hcx.symm.trans hce)

/-- What a change of one creation does to the surroundings of the entry it was made for. -/
theorem made_of_modify {g : Creation → Creation} (hg : ∀ c, (g c).entry = c.entry) {h k : Handle}
    {c : Creation} (hc : (m.around e).made h = some c) :
    ((m.act e f (m.creations.modify h g) t s).around e).made k =
      if k = h then some (g c) else (m.around e).made k := by
  rw [around_act_made, made_modify hg]
  split
  · next hk =>
    subst hk
    rw [hc]
    rfl
  · rfl

/-- A change of one creation does not touch the surroundings of other entries. -/
theorem made_of_modify_ne {g : Creation → Creation} (hg : ∀ c, (g c).entry = c.entry) {h k : Handle}
    {c : Creation} (hc : (m.around e).made h = some c) (hx : x ≠ e) :
    (m.creations.modify h g)[k]?.filter (fun c => c.entry = x) = (m.around x).made k := by
  rw [made_modify hg]
  split
  · next hk =>
    subst hk
    have hnone : (m.around x).made k = none := by
      refine Option.eq_none_iff_forall_ne_some.mpr fun d hd => ?_
      obtain ⟨hd, hdx⟩ := around_made_eq_some_iff.mp hd
      obtain ⟨hc, hce⟩ := around_made_eq_some_iff.mp hc
      cases hc.symm.trans hd
      exact hx (hdx.symm.trans hce)
    rw [hnone]
    rfl
  · rfl

/-- The creation that a call is making was made for the entry. -/
theorem made_of_creating (hm : m.Consistent) {h : Handle} {wake : Nat} {c : Creation}
    (hstage : m.stage? t = some (.creating e h wake)) (hentry : m.entries[e]? = some entry)
    (hc : m.creations[h]? = some c) :
    (m.around e).making t h ∧ entry.owner = some t ∧ (m.around e).made h = some c := by
  have hmaking : (m.around e).making t h := ⟨wake, hstage⟩
  obtain ⟨howner, -, ⟨c', hc', -⟩, -⟩ := (hm.fits e entry hentry).making t h hmaking
  refine ⟨hmaking, howner, ?_⟩
  cases hc.symm.trans (around_made_eq_some_iff.mp hc').1
  exact hc'

/-- The factory has made a proxy. -/
theorem succeed (hm : m.Consistent) {h : Handle} {wake : Nat} {c : Creation}
    (hstage : m.stage? t = some (.creating e h wake)) (hentry : m.entries[e]? = some entry)
    (hc : m.creations[h]? = some c) (hlocks : s.locks = []) (hcalm : s.IsCalm) :
    (m.act e (fun y => (y.install h).1.unlock)
      (m.creations.modify h (Creation.ended .created)) t s).Consistent := by
  obtain ⟨hmaking, howner, hmade⟩ := hm.made_of_creating hstage hentry hc
  have hrel := ProxyStage.releases_of_locks (ProxyStage.locks_creating e h wake) hlocks
  refine hm.act hentry ?_ ?_ fun x hx => ?_
  · rw [ProxyEntry.unlock_peer, ProxyEntry.install]
    split <;> rfl
  · exact (hm.fits e entry hentry).succeed hmaking hmade (demand_of_releases hstage hrel)
      (hm.not_making_act hstage hentry howner hcalm)
      fun k => made_of_modify (Creation.entry_ended _) hmade
  · refine around_act_of_releases hstage hrel (fun k w hs => ?_) hcalm hx
      fun k => made_of_modify_ne (Creation.entry_ended _) hmade hx
    cases hs
    exact hx rfl

/-- The factory has failed. -/
theorem fail (hm : m.Consistent) {h : Handle} {wake : Nat} {c : Creation}
    (hstage : m.stage? t = some (.creating e h wake)) (hentry : m.entries[e]? = some entry)
    (hc : m.creations[h]? = some c) (hfailure : c.script.failure ≠ none) (hlocks : s.locks = [])
    (hcalm : s.IsCalm) :
    (m.act e (fun y => y.giveUp.unlock)
      (m.creations.modify h (Creation.ended .failed)) t s).Consistent := by
  obtain ⟨hmaking, howner, hmade⟩ := hm.made_of_creating hstage hentry hc
  have hrel := ProxyStage.releases_of_locks (ProxyStage.locks_creating e h wake) hlocks
  refine hm.act hentry ProxyEntry.unlock_peer ?_ fun x hx => ?_
  · exact (hm.fits e entry hentry).fail hmaking hmade hfailure (demand_of_releases hstage hrel)
      (hm.not_making_act hstage hentry howner hcalm)
      fun k => made_of_modify (Creation.entry_ended _) hmade
  · refine around_act_of_releases hstage hrel (fun k w hs => ?_) hcalm hx
      fun k => made_of_modify_ne (Creation.entry_ended _) hmade hx
    cases hs
    exact hx rfl

/-- The holder of the lock retires the entry. -/
theorem retire (hm : m.Consistent) (now : Nat) (hstage : m.stage? t = some s₀)
    (hentry : m.entries[e]? = some entry) (howner : entry.owner = some t)
    (hrel : s₀.Releases e s) (hcalm₀ : s₀.IsCalm) (hcalm : s.IsCalm) :
    (m.act e (fun y => y.retire.1.unlock) (askToClose now entry.slot m.creations) t s).Consistent := by
  have hpeer : entry.retire.1.unlock.peer = entry.peer := by
    rw [ProxyEntry.unlock_peer, ProxyEntry.retire]
    split <;> rfl
  refine hm.act hentry hpeer ?_ fun x hx => ?_
  · refine (hm.fits e entry hentry).retire howner now (demand_of_releases hstage hrel)
      (hm.not_making_act hstage hentry howner hcalm) fun k => ?_
    cases hs : entry.slot with
    | none => simp [askToClose, around]
    | some h =>
      rw [askToClose, around_act_made, made_modify (Creation.entry_askToClose now)]
      by_cases hk : k = h
      · simp only [hk, if_true]
        rfl
      · simp [hk, Ne.symm hk]
  · refine around_act_of_releases hstage hrel (hcalm₀ x) hcalm hx fun k => ?_
    cases hs : entry.slot with
    | none => rfl
    | some h =>
      obtain ⟨c, hc, -⟩ := (hm.fits e entry hentry).cached h hs
      exact made_of_modify_ne (Creation.entry_askToClose now) hc hx

/-! ## The rest of the map -/

/-- What leaves the entries and their surroundings alone keeps the invariant. -/
theorem of_around {m' : ProxyMap} (hm : m.Consistent) (hregistry : m'.registry = m.registry)
    (hentries : m'.entries = m.entries) (haround : ∀ e, m'.around e = m.around e) :
    m'.Consistent where
  sorted := hregistry ▸ hm.sorted
  registered := by simpa only [hregistry, hentries] using hm.registered
  fits := by simpa only [hentries, haround] using hm.fits
  quiet := by simpa only [hentries, haround, Quiet] using hm.quiet

/-- A proxy has closed. -/
theorem concludeClose (hm : m.Consistent) (now : Nat) (h : Handle) :
    (m.concludeClose now h).Consistent := by
  have hmade : ∀ x k, ((m.concludeClose now h).around x).made k =
      ((m.around x).made k).map (if k = h then Creation.hasClosed now else id) := by
    intro x k
    show (m.creations.modify h (Creation.hasClosed now))[k]?.filter _ = _
    rw [made_modify (Creation.entry_hasClosed now)]
    by_cases hk : k = h <;> simp [hk]
  refine ⟨hm.sorted, hm.registered, fun e entry hentry => ?_, fun e he => ?_⟩
  · refine (hm.fits e entry hentry).note
      (g := fun k => if k = h then Creation.hasClosed now else id) rfl rfl (hmade e) fun k c => ?_
    by_cases hk : k = h <;> simp [hk, Creation.hasClosed]
  · obtain ⟨hdemand, hnone⟩ := hm.quiet e he
    refine ⟨hdemand, fun k => ?_⟩
    rw [hmade, hnone, Option.map_none]

/-- A fresh entry is registered for a peer. -/
theorem enrol (hm : m.Consistent) (peer : Peer) : (m.enrol peer).Consistent where
  sorted := hm.sorted.set
  registered id e h := by
    rw [ProxyMap.enrol, Registry.get?_set] at h
    split at h
    · next hid =>
      cases h
      exact ⟨.fresh peer, getElem?_concat_eq_some_iff.mpr (.inr ⟨rfl, rfl⟩), hid⟩
    · obtain ⟨entry, hentry, hid⟩ := hm.registered id e h
      exact ⟨entry, getElem?_concat_of_some _ hentry, hid⟩
  fits e entry hentry := by
    rcases getElem?_concat_eq_some_iff.mp hentry with hentry | ⟨rfl, rfl⟩
    · exact hm.fits e entry hentry
    · obtain ⟨hdemand, hmade⟩ := hm.quiet _ (Nat.le_refl _)
      exact ProxyEntry.Fits.fresh peer hdemand (fun t h => not_making_of_demand (hdemand t)) hmade
  quiet e he := by
    simp only [ProxyMap.enrol, List.length_append, List.length_singleton] at he
    exact hm.quiet e (by omega)

end Consistent

end Replica.ProxyMap
