import Replica.Proofs.Proxy.Construction

/-!
# Look-ups come before retirements

The lock of an entry goes to those who want it in the order in which they came. A look-up comes for it
only while the entry is registered in an open map, and nobody has come to retire the entry by then
(`Live`). So no look-up ever stands behind a call that is going to retire the entry, and nobody looks at
an entry that is closed (`Ordered`).

So a look-up that holds the lock finds the entry open; what it is answered with is in
`Replica.Proofs.Proxy.Serving`.
-/

namespace Replica

namespace ProxyEntry

variable {e e' : ProxyEntry}

theorem NoLineIfFree.of_lock (h : e.NoLineIfFree) (howner : e'.owner = e.owner) (hline : e'.line = e.line) :
    e'.NoLineIfFree := by
  simpa only [NoLineIfFree, howner, hline] using h

theorem queue_of_lock (howner : e'.owner = e.owner) (hline : e'.line = e.line) :
    e'.queue = e.queue := by
  simp only [queue, howner, hline]

/-- Whoever hands the lock over after other changes leaves the rest of the queue as it was. -/
theorem NoLineIfFree.unlock_sublist (h : e.NoLineIfFree) (e' : ProxyEntry) (howner : e'.owner = e.owner)
    (hline : e'.line = e.line) : e'.unlock.queue.Sublist e.queue := by
  rw [(h.of_lock howner hline).queue_unlock, queue_of_lock howner hline]
  exact List.tail_sublist _

theorem install_lock (h : Handle) (e : ProxyEntry) :
    (e.install h).1.owner = e.owner ∧ (e.install h).1.line = e.line := by
  unfold install
  dsimp only
  split <;> exact ⟨rfl, rfl⟩

theorem retire_lock (e : ProxyEntry) : e.retire.1.owner = e.owner ∧ e.retire.1.line = e.line := by
  unfold retire
  split <;> exact ⟨rfl, rfl⟩

end ProxyEntry

namespace ProxyMap

variable {may : Loss → Prop} {t u : TaskId} {m m' : ProxyMap} {e x : EntryId} {s : ProxyStage}
variable {entry : ProxyEntry} {now : Nat} {factory : Factory}

/-! ## The queue -/

/-- A look-up retires nothing. -/
theorem LooksAt.not_retires (hl : m.LooksAt t e) : ¬ m.Retires t x := by
  rintro ⟨jobs, answer, hs, -⟩
  rcases hl with hs' | ⟨h, wake, hs'⟩ <;> cases hs.symm.trans hs'

/-- Calls that are under way come to no queue; they only leave. -/
theorem Advance.queue_sublist (h : Advance may t m m') (hm : m.Consistent) {entry' : ProxyEntry}
    (found' : m'.entries[x]? = some entry') :
    ∃ entry, m.entries[x]? = some entry ∧ entry'.queue.Sublist entry.queue := by
  have hact : ∀ {e : EntryId} {entry : ProxyEntry} {f : ProxyEntry → ProxyEntry},
      m.entries[e]? = some entry → (f entry).queue.Sublist entry.queue →
      (m.entries.modify e f)[x]? = some entry' →
      ∃ entry, m.entries[x]? = some entry ∧ entry'.queue.Sublist entry.queue := by
    intro e entry f found hsub found'
    obtain ⟨old, hold, rfl⟩ := getElem?_modify_eq_some_iff.mp found'
    refine ⟨old, hold, ?_⟩
    split
    · next hex =>
      subst hex
      cases found.symm.trans hold
      exact hsub
    · exact List.Sublist.refl _
  cases h with
  | start stage found => exact hact found (List.Sublist.refl _) found'
  | @answer e entry now result stage found =>
    exact hact found ((hm.fits e entry found).noLineIfFree.unlock_sublist entry rfl rfl) found'
  | @succeed e h now wake entry c stage found =>
    obtain ⟨howner, hline⟩ := entry.install_lock h
    exact hact found
      ((hm.fits e entry found).noLineIfFree.unlock_sublist (entry.install h).1 howner hline) found'
  | @fail e h now wake entry c err stage found =>
    exact hact found ((hm.fits e entry found).noLineIfFree.unlock_sublist entry.giveUp rfl rfl) found'
  | @leave e entry s loses stage looking found =>
    refine hact found ?_ found'
    rw [(hm.fits e entry found).noLineIfFree.queue_leave]
    exact List.erase_sublist
  | @retire e entry pre post job a now stage found =>
    obtain ⟨howner, hline⟩ := entry.retire_lock
    exact hact found
      ((hm.fits e entry found).noLineIfFree.unlock_sublist entry.retire.1 howner hline) found'
  | closed | finish => exact ⟨entry', found', List.Sublist.refl _⟩
  | @abandon e entry pre post a loses stage found =>
    refine hact found ?_ found'
    rw [(hm.fits e entry found).noLineIfFree.queue_leave]
    exact List.erase_sublist

/-! ## Precedence -/

/-- Look-ups stand before those who are going to retire the entry, and nobody looks at an entry that is
closed. -/
structure Ordered (m : ProxyMap) : Prop where
  queue : ∀ (e : EntryId) (entry : ProxyEntry), m.entries[e]? = some entry →
    entry.queue.Pairwise fun t u => m.Retires t e → ¬ m.LooksAt u e
  closed : ∀ e t, m.IsClosed e → ¬ m.LooksAt t e

theorem Ordered.empty (name : String) : Ordered { name := name } where
  queue e entry found := by cases found
  closed e t hx := by
    obtain ⟨entry, found, -⟩ := hx
    cases found

theorem Advance.retires_of_any (h : Advance may t m m') (hr : m'.Retires u x) : m.Retires u x := by
  rcases eq_or_ne u t with rfl | hu
  · exact h.retires_of hr
  · exact hr.of_stage?_eq (h.stage?_of_ne hu)

theorem Advance.ordered (h : Advance may t m m') (hm : m.Consistent) (ho : m.Ordered) :
    m'.Ordered where
  queue x entry' found' := by
    obtain ⟨entry, found, hsub⟩ := h.queue_sublist hm found'
    exact ((ho.queue x entry found).sublist hsub).imp fun hbefore hr hl =>
      hbefore (h.retires_of_any hr) (h.looksAt_of hl)
  closed x u hx hl := by
    have hl := h.looksAt_of hl
    rcases h.isClosed_of hm hx with hx | ⟨hr, entry, found, howner⟩
    · exact ho.closed x u hx hl
    -- whoever retires the entry is the first in the queue, and all look-ups would stand behind it
    · have hmem := (hm.mem_queue_iff found).mpr (.inl hl)
      have hpair := ho.queue x entry found
      rw [ProxyEntry.queue_of_owner howner] at hmem hpair
      rcases List.mem_cons.mp hmem with rfl | hmem
      · exact hl.not_retires hr
      · exact List.rel_of_pairwise_cons hpair hmem hr hl

/-- Somebody comes for a lock: in order to retire the entry, or in order to look at it when nobody has
come to retire it. -/
theorem Ordered.lock {jobs : List Retirement} {a : ProxyAnswer} (ho : m.Ordered) (hm : m.Consistent)
    (stage : m.stage? t = some (.retiring jobs a)) (found : m.entries[e]? = some entry)
    (hretires : ∀ x, (m.act e (.lock t) m.creations t s).Retires t x → m.Retires t x ∨ x = e)
    (hlooks : ∀ x, (m.act e (.lock t) m.creations t s).LooksAt t x →
      x = e ∧ ¬ m.IsClosed e ∧ ∀ u, ¬ (m.act e (.lock t) m.creations t s).Retires u e) :
    (m.act e (.lock t) m.creations t s).Ordered := by
  have hframe : ∀ u, u ≠ t → (m.act e (.lock t) m.creations t s).stage? u = m.stage? u :=
    fun u hu => (stage?_act stage).trans (if_neg (Ne.symm hu))
  have hidle : ∀ x, ¬ m.LooksAt t x := by
    rintro x (hs | ⟨h, wake, hs⟩) <;> cases stage.symm.trans hs
  -- of two who stood in the queue of an entry before, the first one does not look behind the other
  have hbefore : ∀ {x u v}, (x = e → u = t → m.Retires t e) → (m.Retires u x → ¬ m.LooksAt v x) →
      (m.act e (.lock t) m.creations t s).Retires u x →
      ¬ (m.act e (.lock t) m.creations t s).LooksAt v x := by
    intro x u v hsame hrel hr hl
    rcases eq_or_ne v t with rfl | hv
    · obtain ⟨rfl, -, hnobody⟩ := hlooks x hl
      exact hnobody u hr
    · refine hrel ?_ (hl.of_stage?_eq (hframe v hv).symm)
      rcases eq_or_ne u t with rfl | hu
      · rcases hretires x hr with hr | rfl
        · exact hr
        · exact hsame rfl rfl
      · exact hr.of_stage?_eq (hframe u hu)
  refine ⟨fun x entry' found' => ?_, fun x u hx hl => ?_⟩
  · obtain ⟨old, hold, rfl⟩ := getElem?_modify_eq_some_iff.mp found'
    split
    · next hex =>
      subst hex
      cases found.symm.trans hold
      have hqueue := (hm.fits e entry found).noLineIfFree.queue_lock (t := t)
      rw [hqueue, List.pairwise_append]
      refine ⟨?_, List.pairwise_singleton _ _, fun u hu v hv => ?_⟩
      · refine (ho.queue e entry found).imp_of_mem fun hu _ hrel => hbefore (fun _ hut => ?_) hrel
        subst hut
        exact ((hm.mem_queue_iff found).mp hu).resolve_left (hidle e)
      · cases List.mem_singleton.mp hv
        exact fun hr hl => (hlooks e hl).2.2 u hr
    · next hex =>
      exact (ho.queue x old hold).imp fun hrel => hbefore (fun heq => absurd heq.symm hex) hrel
  · have hclosed := isClosed_of_act found ProxyEntry.lock_lifecycle hx
    rcases eq_or_ne u t with rfl | hu
    · obtain ⟨rfl, hopen, -⟩ := hlooks x hl
      exact hopen hclosed
    · exact ho.closed x u hclosed (hl.of_stage?_eq (hframe u hu).symm)

theorem Ordered.enrol (ho : m.Ordered) (peer : Peer) : (m.enrol peer).Ordered where
  queue e entry found := by
    rcases getElem?_concat_eq_some_iff.mp found with found | ⟨-, rfl⟩
    · exact ho.queue e entry found
    · exact List.Pairwise.nil
  closed e t hx := ho.closed e t (isClosed_enrol hx)

/-- A call that goes for one more lock in order to retire the entry. -/
theorem Ordered.await {jobs : List Retirement} {a b : ProxyAnswer} (ho : m.Ordered)
    (hm : m.Consistent) (stage : m.stage? t = some (.retiring jobs a))
    (found : m.entries[e]? = some entry) :
    (m.act e (.lock t) m.creations t (.retiring (jobs ++ [.locking e]) b)).Ordered := by
  have hstage : (m.act e (.lock t) m.creations t (.retiring (jobs ++ [.locking e]) b)).stage? t =
      some (.retiring (jobs ++ [.locking e]) b) := (stage?_act stage).trans (if_pos rfl)
  refine ho.lock hm stage found (fun x hr => ?_) fun x hl => ?_
  · obtain ⟨jobs', answer, hs, hmem⟩ := hr
    cases hs.symm.trans hstage
    rcases List.mem_append.mp hmem with hmem | hmem
    · exact .inl ⟨jobs, a, stage, hmem⟩
    · cases List.mem_singleton.mp hmem
      exact .inr rfl
  · rcases hl with hs | ⟨h, wake, hs⟩ <;> cases hs.symm.trans hstage

theorem Move.ordered (h : Move may t m m') (hm : m.Consistent) (hl : m.Live) (ho : m.Ordered) :
    m'.Ordered := by
  cases h with
  | advance h => exact h.ordered hm ho
  | enrol absent => exact ho.enrol _
  | shut => exact ⟨ho.queue, ho.closed⟩
  | call call new =>
    -- a call that has only just begun neither looks at an entry nor retires one
    have hsame : ∀ {u x}, ({ m with tasks := m.tasks ++ [⟨call, .retiring [] .done⟩] } : ProxyMap).LooksAt
        u x → m.LooksAt u x := by
      intro u x hlooks
      rcases eq_or_ne u m.tasks.length with rfl | hu
      · rcases hlooks with hs | ⟨h, wake, hs⟩ <;> rw [stage?_call, if_pos rfl] at hs <;> cases hs
      · exact hlooks.of_stage?_eq (stage?_call.trans (if_neg hu)).symm
    refine ⟨fun x entry found => (ho.queue x entry found).imp fun hrel hr hlooks => hrel ?_ (hsame hlooks),
      fun x u hx hlooks => ho.closed x u hx (hsame hlooks)⟩
    obtain ⟨jobs, answer, hs, hmem⟩ := hr
    rw [stage?_call] at hs
    split at hs
    · cases hs
      cases hmem
    · exact ⟨jobs, answer, hs, hmem⟩
  | @join id e entry a task isOpen registered found =>
    have stage := stage?_eq_some_iff.mpr ⟨_, task⟩
    have hstage : (m.act e (.lock t) m.creations t (.locking e)).stage? t = some (.locking e) :=
      (stage?_act stage).trans (if_pos rfl)
    obtain ⟨hopen, hspared⟩ := hl isOpen id e registered
    have hnone : ∀ x, ¬ (m.act e (.lock t) m.creations t (.locking e)).Retires t x := by
      rintro x ⟨jobs, answer, hs, -⟩
      cases hs.symm.trans hstage
    refine ho.lock hm stage found (fun x hr => absurd hr (hnone x)) fun x hlooks => ?_
    obtain rfl : x = e := by
      rcases hlooks with hs | ⟨h, wake, hs⟩ <;> cases hs.symm.trans hstage
      rfl
    refine ⟨rfl, hopen, fun u hr => ?_⟩
    rcases eq_or_ne u t with rfl | hu
    · exact hnone x hr
    · exact hspared u (hr.of_stage?_eq ((stage?_act stage).trans (if_neg (Ne.symm hu))))
  | await task isClosed found => exact ho.await hm (stage?_eq_some_iff.mpr ⟨_, task⟩) found
  | renew task resets isOpen registered found =>
    have stage := stage?_eq_some_iff.mpr ⟨_, task⟩
    exact (ho.await hm stage found : (m.act _ _ _ t (.retiring ([] ++ _) _)).Ordered).enrol _

theorem Ordered.reached (name : String) (events : List Event) : (reached name events).Ordered := by
  have hboth : (ProxyMap.reached name events).Live ∧ (ProxyMap.reached name events).Ordered :=
    (Consistent.empty name).run_induct (P := fun m => m.Live ∧ m.Ordered)
      (fun hm hmoves hP => hmoves.induct (P := fun m => m.Live ∧ m.Ordered)
        (fun _ _ hm hmove hP => ⟨hmove.live hm hP.1, hmove.ordered hm hP.1 hP.2⟩) hm hP)
      ⟨.empty name, .empty name⟩
  exact hboth.2

end ProxyMap

end Replica
