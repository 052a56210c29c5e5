import Replica.Proofs.Proxy.Repairing

/-!
# While a map is being shut

From the time at which a close has begun the map is closed, and if nothing else retires entries then, nothing
else ever will (`Shutting`). What the other calls do leaves alone every entry that nobody looks at
(`Shutting.spared_step`).

Once nobody looks at an entry any more, its lock goes to the close (`Shutting.owner_of_unlooked`), and as long
as somebody does, it does not (`Shutting.not_owns`).
-/

namespace Replica.ProxyMap

variable {may : Loss → Prop} {t u : TaskId} {m m' : ProxyMap} {e x : EntryId} {h k : Handle}
variable {now : Nat} {factory : Factory} {call : ProxyCall} {a : ProxyAnswer} {jobs : List Retirement}
variable {entry : ProxyEntry} {s : ProxyStage} {id : PeerId} {event : Event}

/-- Nobody looks at the entry. -/
def Unlooked (e : EntryId) (m : ProxyMap) : Prop := ∀ u, ¬ m.LooksAt u e

/-! ## Entries that are spared -/

/-- Nothing has happened to the entry, to the proxies that were made for it and to those who look at it. -/
structure Spared (e : EntryId) (m m' : ProxyMap) : Prop where
  entry : m'.entries[e]? = m.entries[e]?
  made : (m'.around e).made = (m.around e).made
  looks : ∀ u, m'.LooksAt u e ↔ m.LooksAt u e
  name : m'.name = m.name

namespace Spared

theorem refl (e : EntryId) (m : ProxyMap) : Spared e m m := ⟨rfl, rfl, fun _ => Iff.rfl, rfl⟩

/-- What spares an entry in two steps spares it altogether. -/
theorem trans {m'' : ProxyMap} (h : Spared e m m') (h' : Spared e m' m'') : Spared e m m'' where
  entry := h'.entry.trans h.entry
  made := h'.made.trans h.made
  looks u := (h'.looks u).trans (h.looks u)
  name := h'.name.trans h.name

/-- The same creations were made for an entry that is spared. -/
theorem creation_iff (hx : Spared e m m') {c : Creation} :
    m'.creations[h]? = some c ∧ c.entry = e ↔ m.creations[h]? = some c ∧ c.entry = e := by
  rw [← around_made_eq_some_iff, ← around_made_eq_some_iff, hx.made]

/-- An entry that is spared is closed exactly if it was before. -/
theorem isClosed_iff (hx : Spared e m m') : m'.IsClosed e ↔ m.IsClosed e := by
  unfold IsClosed
  rw [hx.entry]

/-- As long as an entry is spared, nobody comes to look at it, and nobody stops. -/
theorem unlooked_iff (hx : Spared e m m') : m'.Unlooked e ↔ m.Unlooked e :=
  forall_congr' fun u => not_congr (hx.looks u)

end Spared

/-- Whether a call looks at an entry depends on the call's stage only. -/
theorem looksAt_congr (hstage : m'.stage? u = m.stage? u) : m'.LooksAt u e ↔ m.LooksAt u e := by
  unfold LooksAt
  rw [hstage]

/-- A call that retires entries looks at none. -/
theorem not_looksAt_of_retiring (hs : m.stage? t = some (.retiring jobs a)) : ¬ m.LooksAt t e := by
  rintro (hs' | ⟨h, wake, hs'⟩) <;> cases hs.symm.trans hs'

/-- Where a call stands that does not look up anything. -/
theorem spared_setStage (e : EntryId) (hs : m.stage? t = some (.retiring jobs a))
    (hcalm : s.locks = [] ∨ ∃ jobs a, s = .retiring jobs a) : Spared e m (m.setStage t s) where
  entry := rfl
  made := rfl
  looks u := by
    rcases eq_or_ne u t with rfl | hne
    · refine iff_of_false ?_ (not_looksAt_of_retiring hs)
      have hs' := stage?_setStage_self (s := s) hs
      rintro (hlocks | ⟨h, wake, hlocks⟩) <;> cases hs'.symm.trans hlocks <;>
        rcases hcalm with hnone | ⟨jobs, a, heq⟩
      · cases hnone
      · cases heq
      · cases hnone
      · cases heq
    · exact looksAt_congr ((stage?_setStage hs).trans (if_neg (Ne.symm hne)))
  name := rfl

/-! ## Calls that retire nothing -/

/-- A call that retires after an advance did so before. -/
theorem Advance.exists_retiring (h : Advance may t m m') (hs : m'.stage? u = some (.retiring jobs a)) :
    ∃ jobs a, m.stage? u = some (.retiring jobs a) := by
  rcases eq_or_ne u t with rfl | hne
  · cases h with
    | start stage | answer stage | succeed stage | fail stage | leave _ stage =>
      cases hs.symm.trans ((stage?_act stage).trans (if_pos rfl))
    | retire stage | closed stage | finish stage | abandon _ stage => exact ⟨_, _, stage⟩
  · exact ⟨_, _, (h.stage?_of_ne hne).symm.trans hs⟩

/-- An advance leaves the name of the map alone. -/
theorem Advance.name_eq (h : Advance may t m m') : m'.name = m.name := by
  cases h <;> rfl

/-- Only calls that retire entries write into the log. -/
theorem Advance.log_eq (h : Advance may t m m') (hcalm : ∀ jobs a, m.stage? t ≠ some (.retiring jobs a)) :
    m'.log = m.log := by
  cases h with
  | closed stage => exact absurd stage (hcalm _ _)
  | _ => rfl

/-- A look-up leaves alone every entry but the one that it looks at. -/
theorem Advance.spared (h : Advance may u m m') (hm : m.Consistent) (hfree : e ∉ m.wanted u)
    (hcalm : ∀ jobs a, m.stage? u ≠ some (.retiring jobs a)) : Spared e m m' where
  entry := (h.sameAt hm hfree).1.entry
  made := by
    have hother : ∀ {x : EntryId} {s : ProxyStage}, m.stage? u = some s → s.locks = [x] → e ≠ x := by
      rintro x s hs hlocks rfl
      rw [wanted_eq hs, hlocks] at hfree
      exact hfree List.mem_cons_self
    funext k
    cases h with
    | start stage =>
      show (m.creations ++ [_])[k]?.filter _ = _
      rw [made_concat, if_neg fun heq => hother stage rfl heq.2.symm]
    | answer | leave => rfl
    | succeed stage found made | fail stage found made =>
      obtain ⟨-, -, hmade⟩ := hm.made_of_creating stage found made
      exact Consistent.made_of_modify_ne (Creation.entry_ended _) hmade (hother stage rfl)
    | retire stage | closed stage | finish stage | abandon _ stage => exact absurd stage (hcalm _ _)
  looks v := by
    refine ⟨h.looksAt_of, fun hl => ?_⟩
    rcases eq_or_ne v u with rfl | hne
    · refine absurd ?_ hfree
      rcases hl with hs | ⟨h, wake, hs⟩ <;> rw [wanted_eq hs] <;> exact List.mem_cons_self
    · exact hl.of_stage?_eq (h.stage?_of_ne hne)
  name := h.name_eq

/-! ## Calls on a closed map -/

/-- In a map that is closed no entry is renewed. -/
theorem renew_of_closed (hclosed : m.closed = true) (id : PeerId) : m.renew id = (m, none) := by
  unfold renew
  split
  · rfl
  · rw [if_pos hclosed]

/-- On a closed map every call ends at once. -/
theorem begin_of_closed (now : Nat) (factory : Factory) (call : ProxyCall) (hclosed : m.closed = true) :
    ∃ a, m.begin now factory call = m.noted now call a := by
  cases call with
  | lookUp id =>
    have hbegin : m.begin now factory (.lookUp id) = (m.enter (.lookUp id)).finish now m.tasks.length
        (.proxy (.error (.alreadyClosed m.name .closed))) := by
      simp [begin, beginLookUp, enter, hclosed]
    exact ⟨_, hbegin.trans finish_enter⟩
  | reset id =>
    have hbegin : m.begin now factory (.reset id) =
        (m.enter (.reset id)).finish now m.tasks.length .done := by
      show (m.enter (.reset id)).beginReset now m.tasks.length id .done = _
      rw [beginReset, renew_of_closed (m := m.enter (.reset id)) hclosed]
      rfl
    exact ⟨_, hbegin.trans finish_enter⟩
  | repair id error reconnect => exact ⟨_, begin_repair_idle now factory (.inr (.inl hclosed))⟩
  | close =>
    have hbegin : m.begin now factory .close = (m.enter .close).finish now m.tasks.length .done := by
      simp [begin, enter, hclosed]
    exact ⟨_, hbegin.trans finish_enter⟩

/-- A call that is answered at once changes no other call. -/
theorem stage?_noted : (m.noted now call a).stage? u =
    if u = m.tasks.length then some (.finished now a) else m.stage? u :=
  stage?_call

/-- It spares every entry. -/
theorem spared_noted (e : EntryId) (m : ProxyMap) : Spared e m (m.noted now call a) where
  entry := rfl
  made := rfl
  looks u := by
    rcases eq_or_ne u m.tasks.length with rfl | hne
    · refine iff_of_false ?_ ?_
      · rintro (hs | ⟨h, wake, hs⟩) <;> rw [stage?_noted, if_pos rfl] at hs <;> cases hs
      · rintro (hs | ⟨h, wake, hs⟩) <;> cases stage?_length.symm.trans hs
    · exact looksAt_congr (stage?_noted.trans (if_neg hne))
  name := rfl

/-- A new entry spares all others. -/
theorem spared_enrol (found : m.entries[e]? = some entry) (peer : Peer) : Spared e m (m.enrol peer) where
  entry := (getElem?_concat_of_some _ found).trans found.symm
  made := rfl
  looks _ := Iff.rfl
  name := rfl

/-! ## Shutting a map -/

/-- The map is closed, and no call but `t` retires entries. -/
structure Shutting (t : TaskId) (m : ProxyMap) : Prop where
  consistent : m.Consistent
  ordered : m.Ordered
  closed : m.closed = true
  alone : ∀ u jobs a, m.stage? u = some (.retiring jobs a) → u = t

namespace Shutting

/-- A map goes on being shut whatever anybody does in an advance. -/
theorem advance (hs : m.Shutting t) (h : Advance may u m m') : m'.Shutting t where
  consistent := h.consistent hs.consistent
  ordered := h.ordered hs.consistent hs.ordered
  closed := h.closed_eq.trans hs.closed
  alone v jobs a hv := by
    obtain ⟨jobs, a, hv⟩ := h.exists_retiring hv
    exact hs.alone v jobs a hv

/-- So it does in several advances. -/
theorem advances (hs : m.Shutting t) (h : Advances may u m m') : m'.Shutting t := by
  induction h with
  | refl => exact hs
  | tail _ hlast ih => exact ih.advance hlast

/-- Only the close retires entries of a map that is being shut. -/
theorem not_retires (hs : m.Shutting t) (hne : u ≠ t) : ¬ m.Retires u e := by
  rintro ⟨jobs, a, hu, -⟩
  exact hne (hs.alone u jobs a hu)

/-- What is kept when a peer is registered, when a call ends at once, and when calls go on that retire
nothing, is kept by whatever the other calls do. -/
theorem induct_other {P : ProxyMap → Prop} (hs : m.Shutting t)
    (hturn : ∀ now factory, event ≠ .turn now factory t) (hcancel : event ≠ .cancel t)
    (henrol : ∀ peer, P m → P (m.enrol peer)) (hnoted : ∀ now call a, P m → P (m.noted now call a))
    (hadvance : ∀ u m m', u ≠ t → m.Shutting t → Advance (fun _ => True) u m m' → P m → P m') (hP : P m) :
    P (m.step event) := by
  have hadvances : ∀ {u m'}, u ≠ t → Advances (fun _ => True) u m m' → P m' := by
    intro u m' hne h
    suffices hboth : m'.Shutting t ∧ P m' from hboth.2
    induction h with
    | refl => exact ⟨hs, hP⟩
    | tail _ hlast ih => exact ⟨ih.1.advance hlast, hadvance u _ _ hne ih.1 hlast ih.2⟩
  cases event with
  | register peer =>
    rw [ProxyMap.step, register]
    split
    · exact hP
    · exact henrol peer hP
  | begin now factory call =>
    obtain ⟨a, hbegin⟩ := begin_of_closed now factory call hs.closed
    rw [ProxyMap.step, hbegin]
    exact hnoted now call a hP
  | turn now factory u =>
    exact hadvances (fun heq => hturn now factory (heq ▸ rfl)) (turn_advances hs.consistent)
  | cancel u =>
    exact hadvances (fun heq => hcancel (heq ▸ rfl))
      (cancel_advances hs.consistent (fun _ _ => trivial) fun _ _ => trivial)

/-- What other calls do to an entry that nobody looks at. -/
theorem spared_step (hs : m.Shutting t) (hturn : ∀ now factory, event ≠ .turn now factory t)
    (hcancel : event ≠ .cancel t) (found : m.entries[e]? = some entry) (hunlooked : m.Unlooked e) :
    Spared e m (m.step event) := by
  refine hs.induct_other (P := Spared e m) hturn hcancel (fun peer _ => spared_enrol found peer)
    (fun _ _ _ _ => spared_noted e m) (fun u m₁ m₂ hne hs₁ h hspared => hspared.trans ?_) (.refl e m)
  refine h.spared hs₁.consistent (fun hmem => ?_) fun jobs a hu => hne (hs₁.alone u jobs a hu)
  rcases looksAt_or_retires hmem with hl | hr
  · exact hspared.unlooked_iff.mpr hunlooked u hl
  · exact hs₁.not_retires hne hr

/-- Other calls close nothing. -/
theorem isClosed_of_step (hs : m.Shutting t) (hturn : ∀ now factory, event ≠ .turn now factory t)
    (hcancel : event ≠ .cancel t) : (m.step event).IsClosed e → m.IsClosed e := by
  refine hs.induct_other (P := fun m' => m'.IsClosed e → m.IsClosed e) hturn hcancel
    (fun _ _ => isClosed_enrol) (fun _ _ _ _ => id) (fun u m₁ m₂ hne hs₁ h hback hx => hback ?_) id
  exact (h.isClosed_of hs₁.consistent hx).resolve_right fun hr => hs₁.not_retires hne hr.1

/-- Other calls do not touch where the close stands, and report nothing. -/
theorem kept_step (hs : m.Shutting t) (hstage : m.stage? t = some s)
    (hturn : ∀ now factory, event ≠ .turn now factory t) (hcancel : event ≠ .cancel t) :
    (m.step event).stage? t = some s ∧ (m.step event).log = m.log := by
  refine hs.induct_other (P := fun m' => m'.stage? t = some s ∧ m'.log = m.log) hturn hcancel
    (fun _ => id) (fun now call a hkept => ⟨?_, hkept.2⟩) (fun u m₁ m₂ hne hs₁ h hkept => ?_) ⟨hstage, rfl⟩
  · rw [stage?_noted, if_neg]
    · exact hkept.1
    · rintro rfl
      cases stage?_length.symm.trans hstage
  · exact ⟨(h.stage?_of_ne (Ne.symm hne)).trans hkept.1,
      (h.log_eq fun jobs a hu => hne (hs₁.alone u jobs a hu)).trans hkept.2⟩

/-- A close that goes on is the only one that retires entries still. -/
theorem step (hs : m.Shutting t) (event : Event) (hordered : (m.step event).Ordered) :
    (m.step event).Shutting t := by
  refine ⟨hs.consistent.step event, hordered, (Grows.run hs.consistent [event]).closed hs.closed, ?_⟩
  have hown : ∀ {m'}, Advances (fun _ => True) t m m' →
      ∀ u jobs a, m'.stage? u = some (.retiring jobs a) → u = t := fun h => (hs.advances h).alone
  by_cases hturn : ∃ now factory, event = .turn now factory t
  · obtain ⟨now, factory, rfl⟩ := hturn
    exact hown (turn_advances hs.consistent)
  by_cases hcancel : event = .cancel t
  · subst hcancel
    exact hown (cancel_advances hs.consistent (fun _ _ => trivial) fun _ _ => trivial)
  refine hs.induct_other (P := fun m' => ∀ u jobs a, m'.stage? u = some (.retiring jobs a) → u = t)
    (fun now factory heq => hturn ⟨now, factory, heq⟩) hcancel (fun _ => id) ?_ ?_ hs.alone
  · intro now call a halone u jobs b hu
    rw [stage?_noted] at hu
    split at hu
    · cases hu
    · exact halone u jobs b hu
  · intro u m₁ m₂ _ hs₁ h _
    exact (hs₁.advance h).alone

/-! ## The lock -/

/-- The lock of an entry that nobody looks at belongs to the call that is going to retire it. -/
theorem owner_of_unlooked (hs : m.Shutting t) (hr : m.Retires t e) (found : m.entries[e]? = some entry)
    (hunlooked : m.Unlooked e) : entry.owner = some t := by
  have hmem := (hs.consistent.mem_queue_iff found).mpr (.inr hr)
  cases howner : entry.owner with
  | none =>
    have hnoLine := (hs.consistent.fits e entry found).noLineIfFree
    simp [ProxyEntry.queue, howner, hnoLine howner] at hmem
  | some u =>
    have hqueued : u ∈ entry.queue := ProxyEntry.queue_of_owner howner ▸ List.mem_cons_self
    rcases (hs.consistent.mem_queue_iff found).mp hqueued with hl | ⟨jobs, a, hu, -⟩
    · exact absurd hl (hunlooked u)
    · rw [hs.alone u jobs a hu]

/-- As long as somebody looks at an entry, a call that is going to retire it waits. -/
theorem not_owns (hs : m.Shutting t) (hr : m.Retires t e) (hlooked : ¬ m.Unlooked e) :
    m.owns e t = false := by
  refine Bool.eq_false_iff.mpr fun howns => hlooked fun u hl => ?_
  cases found : m.entries[e]? with
  | none => simp [owns, found] at howns
  | some entry =>
    have howner : entry.owner = some t := by simpa [owns, found] using howns
    have hmem := (hs.consistent.mem_queue_iff found).mpr (.inl hl)
    have hpair := hs.ordered.queue e entry found
    rw [ProxyEntry.queue_of_owner howner] at hmem hpair
    rcases List.mem_cons.mp hmem with rfl | hmem
    · exact hl.not_retires hr
    · exact List.rel_of_pairwise_cons hpair hmem hr hl

end Shutting

end Replica.ProxyMap
