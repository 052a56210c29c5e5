import Mathlib.Data.List.Induction
import Replica.Proofs.Proxy.Generations

/-!
# Single construction

The main result on generations (`single_construction`), and what it takes to say it: which look-ups
found a generation in a run (`LooksUp`), and that a creation that has not ended is under way, or its
look-up was cancelled (`Excused`).
-/

namespace Replica.ProxyMap

variable {may : Loss → Prop} {t u : TaskId} {m m' : ProxyMap} {e x : EntryId} {h k : Handle}
variable {c : Creation} {now : Nat} {factory : Factory} {id : PeerId}

/-! ## The first turn of a look-up -/

/-- The map after a new look-up has gone for the lock of an entry. -/
def queued (id : PeerId) (e : EntryId) (m : ProxyMap) : ProxyMap :=
  (m.enter (.lookUp id)).act e (.lock m.tasks.length) m.creations m.tasks.length (.locking e)

/-- A look-up of a registered peer whose entry has a proxy is answered at once. -/
theorem begin_lookUp_of_slot {entry : ProxyEntry} (hopen : m.closed = false)
    (hget : m.registry.get? id = some e) (found : m.entries[e]? = some entry)
    (hslot : entry.slot = some h) : m.begin now factory (.lookUp id) =
      (m.enter (.lookUp id)).finish now m.tasks.length (.proxy (.ok h)) := by
  simp [begin, beginLookUp, enter, hopen, hget, found, hslot]

/-- A look-up of a registered peer whose entry has no proxy asks for the lock, and tries if it gets it.
-/
theorem begin_lookUp_of_empty {entry : ProxyEntry} (hopen : m.closed = false)
    (hget : m.registry.get? id = some e) (found : m.entries[e]? = some entry)
    (hslot : entry.slot = none) : m.begin now factory (.lookUp id) =
      if (m.queued id e).owns e m.tasks.length then
        (m.queued id e).create now factory m.tasks.length e
      else m.queued id e := by
  have hopen' : (m.enter (.lookUp id)).closed = false := hopen
  have hget' : (m.enter (.lookUp id)).registry.get? id = some e := hget
  have found' : (m.enter (.lookUp id)).entries[e]? = some entry := found
  show (m.enter (.lookUp id)).beginLookUp now factory m.tasks.length id = _
  simp only [beginLookUp, hopen', hget', found', hslot, Bool.false_eq_true, if_false,
    Option.bind_some]
  rfl

/-- A map stays consistent when a look-up queues. -/
theorem Consistent.queued (hm : m.Consistent) (hopen : m.closed = false)
    (hget : m.registry.get? id = some e) : (m.queued id e).Consistent := by
  obtain ⟨entry, found, -⟩ := hm.registered id e hget
  have hcall : Move (fun _ => False) m.tasks.length m (m.enter (.lookUp id)) := .call _ rfl
  have hjoin : Move (fun _ => False) m.tasks.length (m.enter (.lookUp id)) (m.queued id e) :=
    .join (tasks_enter _) hopen hget found
  exact hjoin.consistent (hcall.consistent hm)

/-- The look-up stands in the line of the entry then. -/
theorem stage?_queued : (m.queued id e).stage? m.tasks.length = some (.locking e) :=
  (stage?_act (stage?_eq_some_iff.mpr ⟨_, tasks_enter _⟩)).trans (if_pos rfl)

/-- A look-up attends to the entry that it finds. -/
theorem begin_lookUp_attends (hm : m.Consistent) (hopen : m.closed = false)
    (hget : m.registry.get? id = some e) :
    (m.begin now factory (.lookUp id)).Attends m.tasks.length e := by
  obtain ⟨entry, found, -⟩ := hm.registered id e hget
  cases hslot : entry.slot with
  | some h =>
    rw [begin_lookUp_of_slot hopen hget found hslot]
    have hstage := stage?_eq_some_iff.mpr ⟨_, tasks_enter (m := m) (.lookUp id)⟩
    refine .inr (.inr ⟨_, _, stage?_setStage_self hstage, fun k hk => ?_⟩)
    cases hk
    exact hm.madeFor found hslot
  | none =>
    rw [begin_lookUp_of_empty hopen hget found hslot]
    -- the look-up is in line before it calls the factory, and attends from then on
    have hqueued := hm.queued hopen hget
    have hattends : (m.queued id e).Attends m.tasks.length e := .inl (.inl stage?_queued)
    split
    · next howns =>
      have hcreate : Advances (fun _ => False) m.tasks.length (m.queued id e)
          ((m.queued id e).create now factory m.tasks.length e) :=
        create_advances hqueued stage?_queued howns
      exact hcreate.moves.attends hqueued hattends
    · exact hattends

/-- The factory was called for the entry. -/
def CalledFor (e : EntryId) (k : Handle) (m : ProxyMap) : Prop :=
  ∃ c, m.creations[k]? = some c ∧ c.entry = e

/-- A proxy that was made for an entry was called for. -/
theorem MadeFor.calledFor (h : m.MadeFor e k) : m.CalledFor e k := by
  obtain ⟨c, hc, hce, -⟩ := h
  exact ⟨c, hc, hce⟩

/-- What was called for stays so. -/
theorem CalledFor.grows (h : m.CalledFor e k) (hgrows : Grows m m') : m'.CalledFor e k := by
  obtain ⟨c, hc, hce⟩ := h
  obtain ⟨c', hc', hentry, -⟩ := hgrows.creations k c hc
  exact ⟨c', hc', hentry.trans hce⟩

/-- A look-up that gets the lock of an open entry without a proxy calls the factory. -/
theorem create_creates {entry : ProxyEntry} (hm : m.Consistent) (found : m.entries[e]? = some entry)
    (hslot : entry.slot = none) (hopen : entry.lifecycle.state ≠ .closed) :
    (m.create now factory t e).CalledFor e m.creations.length := by
  have hfits := hm.fits e entry found
  have hnot : entry.lifecycle.state.isClosingOrClosed = false :=
    Bool.eq_false_iff.mpr fun hs => hopen (hfits.isClosingOrClosed_iff.mp hs)
  unfold create
  rw [found]
  simp only [hslot, hnot, Bool.false_eq_true, if_false, hfits.prepare_eq_ok hslot hopen]
  exact ⟨_, List.getElem?_concat_length, rfl⟩

/-- If the factory was called for everybody who looks at an entry, then also for a new look-up: it is
the first one and calls it at once, or there is somebody before it. -/
theorem begin_lookUp_called (hm : m.Consistent) (hlive : m.Live) (hopen : m.closed = false)
    (hget : m.registry.get? id = some e) (hbefore : ∀ u, m.LooksAt u e → ∃ k, m.CalledFor e k) :
    ∃ k, (m.begin now factory (.lookUp id)).CalledFor e k := by
  obtain ⟨entry, found, -⟩ := hm.registered id e hget
  obtain ⟨hnotClosed, hnotRetired⟩ := hlive hopen id e hget
  have hfits := hm.fits e entry found
  have hmoves : Moves (fun _ => False) m.tasks.length m (m.begin now factory (.lookUp id)) :=
    begin_moves hm
  cases hslot : entry.slot with
  | some h => exact ⟨h, (hm.madeFor found hslot).calledFor.grows (hmoves.grows hm)⟩
  | none =>
    cases howner : entry.owner with
    | none =>
      have found' : (m.queued id e).entries[e]? = some (entry.lock m.tasks.length) :=
        getElem?_modify_eq_some_iff.mpr ⟨entry, found, if_pos rfl⟩
      have howns : (m.queued id e).owns e m.tasks.length = true := by
        simp [owns, found', ProxyEntry.lock, howner]
      rw [begin_lookUp_of_empty hopen hget found hslot, if_pos howns]
      refine ⟨_, create_creates (hm.queued hopen hget) found' (ProxyEntry.lock_slot.trans hslot)
        fun hs => hnotClosed ⟨entry, found, ?_⟩⟩
      rwa [ProxyEntry.lock_lifecycle] at hs
    | some u =>
      -- whoever holds the lock looks at the entry, since nobody is going to retire it
      have hwanted : e ∈ m.wanted u := by
        rw [← List.count_pos_iff]
        show 0 < (m.around e).demand u
        rw [← hfits.demand, ProxyEntry.queue_of_owner howner]
        exact List.count_pos_iff.mpr List.mem_cons_self
      obtain ⟨k, hk⟩ := hbefore u ((looksAt_or_retires hwanted).resolve_right (hnotRetired u))
      exact ⟨k, hk.grows (hmoves.grows hm)⟩

/-! ## Look-ups of a generation in a run -/

/-- In the run, the call looked up the peer of the entry while that was registered. -/
def LooksUp (name : String) (events : List Event) (t : TaskId) (e : EntryId) : Prop :=
  ∃ before now factory id after, events = before ++ .begin now factory (.lookUp id) :: after ∧
    (reached name before).closed = false ∧ (reached name before).registry.get? id = some e ∧
    t = (reached name before).tasks.length

variable {name : String} {events : List Event}

/-- A look-up that came in a run came in every longer one. -/
theorem LooksUp.append (h : LooksUp name events t e) (more : List Event) :
    LooksUp name (events ++ more) t e := by
  obtain ⟨before, now, factory, id, after, rfl, hrest⟩ := h
  exact ⟨before, now, factory, id, after ++ more, by simp, hrest⟩

theorem reached_concat (event : Event) :
    reached name (events ++ [event]) = (reached name events).step event :=
  run_concat _ _ _

/-- A look-up that the last event begins, or one from before. -/
theorem looksUp_concat {event : Event} (h : LooksUp name (events ++ [event]) t e) :
    LooksUp name events t e ∨ ∃ now factory id, event = .begin now factory (.lookUp id) ∧
      (reached name events).closed = false ∧ (reached name events).registry.get? id = some e ∧
      t = (reached name events).tasks.length := by
  obtain ⟨before, now, factory, id, after, heq, hrest⟩ := h
  rcases List.eq_nil_or_concat after with rfl | ⟨init, last, rfl⟩
  · obtain ⟨rfl, hevent⟩ := List.append_inj' heq rfl
    exact .inr ⟨now, factory, id, List.singleton_inj.mp hevent, hrest⟩
  · rw [List.concat_eq_append, ← List.cons_append, ← List.append_assoc] at heq
    obtain ⟨rfl, -⟩ := List.append_inj' heq rfl
    exact .inl ⟨before, now, factory, id, init, rfl, hrest⟩

/-- Whatever happens, a look-up attends to the entry that it found. -/
theorem LooksUp.attends (h : LooksUp name events t e) : (reached name events).Attends t e := by
  obtain ⟨before, now, factory, id, after, rfl, hopen, hget, rfl⟩ := h
  have hm := Consistent.reached name before
  have hrun : reached name (before ++ .begin now factory (.lookUp id) :: after) =
      ((reached name before).begin now factory (.lookUp id)).run after := run_append _ _ _
  rw [hrun]
  exact (hm.step (.begin now factory (.lookUp id))).run_induct
    (fun hm hmoves ha => hmoves.attends hm ha) (begin_lookUp_attends hm hopen hget)

/-- Nobody comes to look at an entry in an advance. -/
theorem Advances.looksAt_of (h : Advances may t m m') (hl : m'.LooksAt u e) : m.LooksAt u e := by
  induction h with
  | refl => exact hl
  | tail _ hlast ih => exact ih (hlast.looksAt_of hl)

/-- A call that is not a look-up never looks at an entry. -/
theorem not_looksAt_begin (hm : m.Consistent) {call : ProxyCall} (hcall : ∀ id, call ≠ .lookUp id) :
    ¬ (m.begin now factory call).LooksAt m.tasks.length e := by
  have henter : Move (fun _ => False) m.tasks.length m (m.enter call) := .call call rfl
  have hmoves : Moves (fun _ => False) m.tasks.length (m.enter call) (m.begin now factory call) :=
    enter_moves hm
  have hboth := hmoves.induct
    (P := fun m' => (∃ s, m'.tasks[m.tasks.length]? = some ⟨call, s⟩) ∧
      ¬ m'.LooksAt m.tasks.length e)
    (fun m₁ m₂ hm₁ hmove hP => ?_) (henter.consistent hm) ⟨⟨_, tasks_enter call⟩, ?_⟩
  · exact hboth.2
  · obtain ⟨⟨s, hs⟩, hnot⟩ := hP
    refine ⟨(hmove.grows hm₁).tasks _ _ s hs, fun hl => ?_⟩
    rcases hmove.looksAt_of hl with hl | ⟨id, s', htask, -⟩
    · exact hnot hl
    · cases hs.symm.trans htask
      exact hcall id rfl
  · have hstage := stage?_eq_some_iff.mpr ⟨_, tasks_enter (m := m) call⟩
    rintro (hs | ⟨h, wake, hs⟩) <;> cases hs.symm.trans hstage

/-- A look-up that does not end at once has found the entry. -/
theorem looksAt_begin_lookUp (hm : m.Consistent)
    (hl : (m.begin now factory (.lookUp id)).LooksAt m.tasks.length e) :
    m.closed = false ∧ m.registry.get? id = some e := by
  have hended : ∀ answer, ¬ ((m.enter (.lookUp id)).finish now m.tasks.length answer).LooksAt
      m.tasks.length e := by
    intro answer hl
    have hstage := stage?_setStage_self (s := .finished now answer)
      (stage?_eq_some_iff.mpr ⟨_, tasks_enter (m := m) (.lookUp id)⟩)
    rcases hl with hs | ⟨h, wake, hs⟩ <;> cases hs.symm.trans hstage
  cases hopen : m.closed with
  | true =>
    refine absurd hl ?_
    simp only [begin, beginLookUp, hopen, if_true]
    exact hended _
  | false =>
    cases hget : m.registry.get? id with
    | none =>
      refine absurd hl ?_
      simp only [begin, beginLookUp, hopen, hget, Bool.false_eq_true, if_false]
      exact hended _
    | some x =>
      obtain rfl := (begin_lookUp_attends hm hopen hget).eq_of_looking hl
      exact ⟨rfl, rfl⟩

/-- A call that looks at an entry has looked it up. -/
theorem looksUp_of_looksAt (hl : (reached name events).LooksAt t e) : LooksUp name events t e := by
  induction events using List.reverseRecOn generalizing t e with
  | nil => rcases hl with hs | ⟨h, wake, hs⟩ <;> simp [reached, stage?] at hs
  | append_singleton events event ih =>
    have hm := Consistent.reached name events
    rw [reached_concat] at hl
    cases event with
    | register peer =>
      refine (ih (hl.of_stage?_eq ?_)).append _
      simp only [step, register]
      split <;> rfl
    | turn now factory u =>
      have hturn : Advances (fun _ => False) u (reached name events)
          ((reached name events).turn now factory u) := turn_advances hm
      exact (ih (hturn.looksAt_of hl)).append _
    | cancel u =>
      have hcancel : Advances (fun _ => True) u (reached name events)
          ((reached name events).cancel u).1 :=
        cancel_advances hm (fun _ _ => trivial) fun _ _ => trivial
      exact (ih (hcancel.looksAt_of hl)).append _
    | begin now factory call =>
      have hmoves : Moves (fun _ => False) (reached name events).tasks.length (reached name events)
          ((reached name events).begin now factory call) := begin_moves hm
      rcases eq_or_ne t (reached name events).tasks.length with rfl | hne
      -- the call has begun just now, so it has to be a look-up that found the entry
      · by_cases hcall : ∃ id, call = .lookUp id
        · obtain ⟨id, rfl⟩ := hcall
          obtain ⟨hopen, hget⟩ := looksAt_begin_lookUp hm hl
          exact ⟨events, now, factory, id, [], rfl, hopen, hget, rfl⟩
        · exact absurd hl (not_looksAt_begin hm fun id heq => hcall ⟨id, heq⟩)
      · exact (ih (hl.of_stage?_eq (hmoves.stage?_of_ne hm hne).symm)).append _

/-- At no moment of a run does anybody retire a registered entry of an open map. -/
theorem Live.reached (name : String) (events : List Event) : (reached name events).Live :=
  (Consistent.empty name).run_induct (fun hm hmoves hl => hmoves.live hm hl) (.empty name)

/-- The factory was called for every generation that was looked up. -/
theorem LooksUp.called (h : LooksUp name events t e) : ∃ k, (reached name events).CalledFor e k := by
  induction events using List.reverseRecOn generalizing t with
  | nil =>
    obtain ⟨before, now, factory, id, after, heq, -⟩ := h
    simp at heq
  | append_singleton events event ih =>
    have hm := Consistent.reached name events
    rw [reached_concat]
    rcases looksUp_concat h with h | ⟨now, factory, id, rfl, hopen, hget, -⟩
    · obtain ⟨k, hk⟩ := ih h
      exact ⟨k, hk.grows (Grows.run hm [event])⟩
    · exact begin_lookUp_called hm (Live.reached name events) hopen hget
        fun u hl => ih (looksUp_of_looksAt hl)

/-! ## Creations that do not end -/

/-- A creation that has not ended is under way, or there is an excuse for its entry. -/
def Excused (excuse : EntryId → Prop) (m : ProxyMap) : Prop :=
  ∀ (k : Handle) (c : Creation), m.creations[k]? = some c → c.outcome = none →
    (∃ t wake, m.stage? t = some (.creating c.entry k wake)) ∨ excuse c.entry

variable {excuse : EntryId → Prop}

/-- More may be excused. -/
theorem Excused.mono {excuse' : EntryId → Prop} (h : m.Excused excuse)
    (hle : ∀ e, excuse e → excuse' e) : m.Excused excuse' :=
  fun k c hc hnone => (h k c hc hnone).imp_right (hle _)

/-- A call ends the creation that it waits for, unless it is cancelled. -/
theorem Advance.ends (h : Advance (fun _ => False) t m m') {wake : Nat}
    (hs : m.stage? t = some (.creating e k wake)) (hc : m'.creations[k]? = some c) :
    c.outcome ≠ none := by
  have hended : ∀ {outcome : CreationOutcome} {cs : List Creation},
      (cs.modify k (Creation.ended outcome))[k]? = some c → c.outcome ≠ none := by
    intro outcome cs hc
    obtain ⟨c₀, -, rfl⟩ := getElem?_modify_eq_some_iff.mp hc
    simp [Creation.ended]
  cases h with
  | start stage | answer stage | retire stage | closed stage | finish stage =>
    cases hs.symm.trans stage
  | succeed stage | fail stage =>
    cases hs.symm.trans stage
    exact hended hc
  | leave loses | abandon loses => exact loses.elim

/-- An advance in which nothing is lost needs no excuse. -/
theorem Advance.excused (h : Advance (fun _ => False) t m m') (hex : m.Excused excuse) :
    m'.Excused excuse := by
  intro k c hc hnone
  rcases h.creation_of hc with ⟨c₀, hc₀, hentry, -, hback⟩ | ⟨-, -, wake, hs⟩
  · rcases hex k c₀ hc₀ (hback hnone) with ⟨u, wake, hs⟩ | hexcuse
    · rcases eq_or_ne u t with rfl | hu
      · exact absurd hnone (h.ends hs hc)
      · exact .inl ⟨u, wake, hentry ▸ (h.stage?_of_ne hu).trans hs⟩
    · exact .inr (hentry ▸ hexcuse)
  · exact .inl ⟨t, wake, hs⟩

/-- Nor does such a move. -/
theorem Move.excused (h : Move (fun _ => False) t m m') (hex : m.Excused excuse) :
    m'.Excused excuse := by
  -- a move of a call that creates nothing leaves all creations and those who make them
  have hother : m'.creations = m.creations →
      (∀ u e k wake, m.stage? u = some (.creating e k wake) → u ≠ t) → m'.Excused excuse := by
    intro hsame hcalm k c hc hnone
    rw [hsame] at hc
    rcases hex k c hc hnone with ⟨u, wake, hs⟩ | hexcuse
    · exact .inl ⟨u, wake, (h.stage?_of_ne (hcalm u _ k wake hs)).trans hs⟩
    · exact .inr hexcuse
  cases h with
  | advance h => exact h.excused hex
  | enrol | shut => exact hex
  | call call new =>
    refine hother rfl fun u e k wake hs hu => ?_
    rw [hu, new, stage?_length] at hs
    cases hs
  | join task | await task | renew task =>
    refine hother rfl fun u e k wake hs hu => ?_
    subst hu
    cases hs.symm.trans (stage?_eq_some_iff.mpr ⟨_, task⟩)

/-- Abandoning retirements makes no creation. -/
theorem creations_foldl_abandon {jobs : List Retirement} :
    (jobs.foldl (abandonRetirement t) m).creations = m.creations := by
  induction jobs generalizing m with
  | nil => rfl
  | cons job rest ih =>
    refine ih.trans ?_
    cases job <;> rfl

/-- Neither does cancelling a call. -/
theorem creations_cancel : (m.cancel t).1.creations = m.creations := by
  unfold cancel
  split
  · rfl
  · rfl
  · exact creations_foldl_abandon
  · rfl

/-- A look-up of the generation was cancelled. -/
def Disturbed (name : String) (events : List Event) (e : EntryId) : Prop :=
  ∃ t, LooksUp name events t e ∧ .cancel t ∈ events

/-- An entry that was disturbed in a run was disturbed in every longer one. -/
theorem Disturbed.append (h : Disturbed name events e) (more : List Event) :
    Disturbed name (events ++ more) e := by
  obtain ⟨t, hlooks, hmem⟩ := h
  exact ⟨t, hlooks.append more, List.mem_append_left _ hmem⟩

/-- A creation that has not ended is under way, or a look-up of its generation was cancelled. -/
theorem excused_reached : (reached name events).Excused (Disturbed name events) := by
  induction events using List.reverseRecOn with
  | nil =>
    intro k c hc
    simp [reached] at hc
  | append_singleton events event ih =>
    have hm := Consistent.reached name events
    have hex := ih.mono fun e h => Disturbed.append h [event]
    rw [reached_concat]
    by_cases hcancel : ∃ t, event = .cancel t
    · obtain ⟨t, rfl⟩ := hcancel
      have hadvances : Advances (fun _ => True) t (reached name events)
          ((reached name events).cancel t).1 :=
        cancel_advances hm (fun _ _ => trivial) fun _ _ => trivial
      intro k c hc hnone
      rw [step, creations_cancel] at hc
      rcases hex k c hc hnone with ⟨u, wake, hs⟩ | hexcuse
      · rcases eq_or_ne u t with rfl | hu
        -- the cancelled call was making the proxy, so it had looked the generation up
        · have hlooks : LooksUp name events u c.entry := looksUp_of_looksAt (.inr ⟨k, wake, hs⟩)
          exact .inr ⟨u, hlooks.append _, by simp⟩
        · exact .inl ⟨u, wake, (hadvances.moves.stage?_of_ne hm hu).trans hs⟩
      · exact .inr hexcuse
    · have hmoves : Moves (fun _ => False) (event.actor (reached name events)) (reached name events)
          ((reached name events).step event) :=
        step_moves _ hm event fun loss hloss => not_loses (fun t heq => hcancel ⟨t, heq⟩) loss hloss
      exact hmoves.induct (fun _ _ _ hmove hex => hmove.excused hex) hm hex

/-! ## The main result -/

/-- Of two proxies made for one entry, neither was made after the other. -/
theorem Consistent.madeFor_unique (hm : m.Consistent) (hh : m.MadeFor e h) (hk : m.CalledFor e k) :
    k ≤ h := by
  obtain ⟨c, hc, rfl, houtcome⟩ := hh
  obtain ⟨d, hd, hde⟩ := hk
  obtain ⟨entry, found⟩ := hm.exists_entry_of_made hc
  refine Nat.not_lt.mp fun hlt => ?_
  exact (hm.fits c.entry entry found).last h k c d (around_made_eq_some_iff.mpr ⟨hc, rfl⟩)
    (around_made_eq_some_iff.mpr ⟨hd, hde⟩) hlt houtcome

/-- Whoever makes a proxy for an entry holds its lock. -/
theorem Consistent.creating_unique (hm : m.Consistent) {wake wake' : Nat}
    (ht : m.stage? t = some (.creating e h wake)) (hu : m.stage? u = some (.creating e k wake')) :
    t = u := by
  obtain ⟨entry, found⟩ := hm.exists_entry (e := e) ht (by simp)
  have hfits := hm.fits e entry found
  obtain ⟨howner, -⟩ := hfits.making t h ⟨wake, ht⟩
  obtain ⟨howner', -⟩ := hfits.making u k ⟨wake', hu⟩
  exact Option.some.inj (howner.symm.trans howner')

/-- If nobody who looked up the generation is cancelled and no creation for it fails, then every
creation but the last would have succeeded; so there is only one. -/
theorem calledFor_unique (hquiet : ¬ Disturbed name events e)
    (hgood : ∀ (k : Handle) (c : Creation), (reached name events).creations[k]? = some c →
      c.entry = e → c.script.failure = none)
    (hh : (reached name events).CalledFor e h) (hk : (reached name events).CalledFor e k) : h = k := by
  have hm := Consistent.reached name events
  -- no creation for the entry comes before another
  have hle : ∀ {h k}, (reached name events).CalledFor e h → (reached name events).CalledFor e k →
      k ≤ h := by
    rintro h k ⟨c, hc, hce⟩ ⟨d, hd, hde⟩
    obtain ⟨entry, found⟩ := hm.exists_entry_of_made hc
    rw [hce] at found
    have hfits := hm.fits e entry found
    have hmade := around_made_eq_some_iff.mpr ⟨hc, hce⟩
    cases houtcome : c.outcome with
    | none =>
      rcases excused_reached h c hc houtcome with ⟨t, wake, hs⟩ | hexcuse
      · rw [hce] at hs
        obtain ⟨-, -, -, hlatest⟩ := hfits.making t h ⟨wake, hs⟩
        exact hlatest k d (around_made_eq_some_iff.mpr ⟨hd, hde⟩)
      · exact absurd (hce ▸ hexcuse) hquiet
    | some outcome =>
      cases outcome with
      | created => exact hm.madeFor_unique ⟨c, hc, hce, houtcome⟩ ⟨d, hd, hde⟩
      | failed => exact absurd (hgood h c hc hce) (hfits.failed h c hmade houtcome)
  exact Nat.le_antisymm (hle hk hh) (hle hh hk)

/-- Within one generation of a peer: at most one factory call is in progress at any moment; at most
one ever succeeds; none starts after one has succeeded; all look-ups of the generation that are
answered with a proxy get the same one; and if there are look-ups, none of which is cancelled, and the
factory does not fail, then it is called exactly once. -/
theorem single_construction (name : String) (events : List Event) (e : EntryId) :
    (∀ t u h k wake wake', (reached name events).stage? t = some (.creating e h wake) →
      (reached name events).stage? u = some (.creating e k wake') → t = u ∧ h = k) ∧
    (∀ h k, (reached name events).MadeFor e h → (reached name events).MadeFor e k → h = k) ∧
    (∀ before after h k, events = before ++ after → (reached name before).MadeFor e h →
      (reached name events).CalledFor e k → (reached name before).CalledFor e k) ∧
    (∀ t u h k now now', LooksUp name events t e → LooksUp name events u e →
      (reached name events).ended? t = some (now, .proxy (.ok h)) →
      (reached name events).ended? u = some (now', .proxy (.ok k)) → h = k) ∧
    ((∃ t, LooksUp name events t e) → (∀ t, LooksUp name events t e → .cancel t ∉ events) →
      (∀ (k : Handle) (c : Creation), (reached name events).creations[k]? = some c → c.entry = e →
        c.script.failure = none) →
      ∃! k, (reached name events).CalledFor e k) := by
  have hm := Consistent.reached name events
  have hunique : ∀ h k, (reached name events).MadeFor e h → (reached name events).MadeFor e k →
      h = k := fun h k hh hk =>
    Nat.le_antisymm (hm.madeFor_unique hk hh.calledFor) (hm.madeFor_unique hh hk.calledFor)
  refine ⟨fun t u h k wake wake' ht hu => ?_, hunique, ?_, ?_, ?_⟩
  · obtain rfl := hm.creating_unique ht hu
    cases ht.symm.trans hu
    exact ⟨rfl, rfl⟩
  · rintro before after h k rfl hmade ⟨d, hd, hde⟩
    have hgrows : Grows (reached name before) (reached name (before ++ after)) := by
      have hrun : reached name (before ++ after) = (reached name before).run after := run_append ..
      rw [hrun]
      exact Grows.run (Consistent.reached name before) after
    -- the call is not later than the one that had succeeded, so it was there
    have hle : k ≤ h := hm.madeFor_unique (hmade.grows hgrows) ⟨d, hd, hde⟩
    obtain ⟨c, hc, -, -⟩ := hmade
    have hlt : k < (reached name before).creations.length :=
      Nat.lt_of_le_of_lt hle (lt_length_of_getElem? hc)
    refine ⟨_, List.getElem?_eq_getElem hlt, ?_⟩
    obtain ⟨d', hd', hentry, -⟩ := hgrows.creations k _ (List.getElem?_eq_getElem hlt)
    cases hd.symm.trans hd'
    exact hentry.symm.trans hde
  · have hanswer : ∀ {t now h}, LooksUp name events t e →
        (reached name events).ended? t = some (now, .proxy (.ok h)) →
        (reached name events).MadeFor e h := by
      intro t now h hlooks hended
      unfold ended? at hended
      split at hended
      · next time answer hs =>
        cases hended
        rcases hlooks.attends with (hs' | ⟨k, wake, hs'⟩) | hs' | ⟨now, result, hs', hmade⟩ <;>
          cases hs.symm.trans hs'
        exact hmade h rfl
      · cases hended
    exact fun t u h k now now' ht hu hh hk => hunique h k (hanswer ht hh) (hanswer hu hk)
  · rintro ⟨t, hlooks⟩ hquiet hgood
    obtain ⟨k, hk⟩ := hlooks.called
    have hcalm : ¬ Disturbed name events e := fun ⟨t, hlooks, hmem⟩ => hquiet t hlooks hmem
    exact ⟨k, hk, fun h hh => calledFor_unique hcalm hgood hh hk⟩

/-- Two look-ups that come while the first one makes the proxy, with a reset in between. -/
def crowd : List Event :=
  [.register ⟨⟨"a"⟩, "x"⟩, .begin 0 (fun _ _ => { delay := 5 }) (.lookUp ⟨"a"⟩),
    .begin 1 (fun _ _ => {}) (.lookUp ⟨"a"⟩), .begin 2 (fun _ _ => {}) (.reset ⟨"a"⟩),
    .turn 5 (fun _ _ => {}) 0, .turn 5 (fun _ _ => {}) 1, .turn 5 (fun _ _ => {}) 2]

/-- In the crowd, the first generation has one creation, and both look-ups get its proxy. -/
theorem single_construction_in_crowd : LooksUp "m" crowd 0 0 ∧ LooksUp "m" crowd 1 0 ∧
    (∃! k, (reached "m" crowd).CalledFor 0 k) ∧
    (reached "m" crowd).ended? 0 = some (5, .proxy (.ok 0)) ∧
    (reached "m" crowd).ended? 1 = some (5, .proxy (.ok 0)) := by
  have hfirst : LooksUp "m" crowd 0 0 :=
    ⟨crowd.take 1, 0, _, ⟨"a"⟩, crowd.drop 2, rfl, by decide, by decide, by decide⟩
  have hsecond : LooksUp "m" crowd 1 0 :=
    ⟨crowd.take 2, 1, _, ⟨"a"⟩, crowd.drop 3, rfl, by decide, by decide, by decide⟩
  refine ⟨hfirst, hsecond, ?_, by decide, by decide⟩
  refine (single_construction "m" crowd 0).2.2.2.2 ⟨0, hfirst⟩ (fun t _ => by simp [crowd]) ?_
  intro k c hc hce
  match k with
  | 0 =>
    cases hc
    rfl
  | _ + 1 => cases hc

end Replica.ProxyMap
