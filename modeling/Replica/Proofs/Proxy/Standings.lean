import Replica.Proofs.Proxy.Shutting

/-!
# Where a close stands with its entries

A close goes for all its entries at once. Where it stands with one of them (`Standing`) depends on what has
happened at that entry alone (`Stands`): it waits for the look-ups that came before it, it has the next turn,
it waits for the proxy to close, or it is done. When the last look-up has left is a parameter here.

What happens at other entries does not matter (`Stands.of_spared`), nor does what the other calls do while
look-ups are there (`Stands.step`); and whoever has a turn to take takes it before the clock moves on
(`Stands.passes`). In its own turn the close goes on with each of its entries (`turnRetirements_stands`).
-/

namespace Replica.ProxyMap

variable {t u : TaskId} {m m' m'' : ProxyMap} {e x : EntryId} {h k : Handle} {now later time : Nat}
variable {a : ProxyAnswer} {pre post : List Retirement} {entry : ProxyEntry} {event : Event}
variable {left left' : Nat → Prop}

/-- Where a close stands with one entry: with what retirement, since when it is done with it, and what it has
reported about it. -/
structure Standing where
  job : Retirement
  ended : Option Nat := none
  report : List Diagnostic := []

/-- No proxy of the entry was asked to close. -/
def Unasked (e : EntryId) (m : ProxyMap) : Prop :=
  ∀ (h : Handle) (c : Creation), m.creations[h]? = some c → c.entry = e → c.closeCalls = []

/-- The proxy is the only one that was made for the entry, and it was asked to close once, at the time. -/
structure AskedAt (time : Nat) (e : EntryId) (h : Handle) (c : Creation) (m : ProxyMap) : Prop where
  made : m.creations[h]? = some c ∧ c.entry = e
  created : c.outcome = some .created
  calls : c.closeCalls = [time]
  only : ∀ (k : Handle) (d : Creation), m.creations[k]? = some d ∧ d.entry = e →
    d.outcome = some .created → k = h

/-- Where a close stands with an entry at the time `now`, given the times at which the last look-up at it may
have `left`. -/
inductive Stands (left : Nat → Prop) (now : Nat) (e : EntryId) (m : ProxyMap) : Standing → Prop where
  /-- Look-ups are there still that came before the close. -/
  | waiting (looked : ¬ m.Unlooked e) (isOpen : ¬ m.IsClosed e) (unasked : m.Unasked e) :
    Stands left now e m { job := .locking e }
  /-- The last look-up has left in this instant. -/
  | next (unlooked : m.Unlooked e) (leaves : left now) (isOpen : ¬ m.IsClosed e) (unasked : m.Unasked e) :
    Stands left now e m { job := .locking e }
  /-- The proxy was asked to close in the instant in which the last look-up left, and takes its time. -/
  | closing {h : Handle} {c : Creation} {time : Nat} (leaves : left time) (isClosed : m.IsClosed e)
    (asked : m.AskedAt time e h c) (due : now ≤ time + c.script.closeDelay) :
    Stands left now e m { job := .closing e h (time + c.script.closeDelay) }
  /-- The proxy was asked to close in that instant, and has closed when its time was over. If it has failed to
  close, this was reported. -/
  | closed {h : Handle} {c : Creation} {time : Nat} (leaves : left time) (isClosed : m.IsClosed e)
    (asked : m.AskedAt time e h c) (done : c.closedAt = some (time + c.script.closeDelay))
    (past : time + c.script.closeDelay ≤ now) :
    Stands left now e m
      { job := .finished e
        ended := some (time + c.script.closeDelay)
        report := (c.script.closeFailure.map (m.closeFailure c.peer)).toList }
  /-- No proxy was ever made for the entry, and there was nothing to wait for after the last look-up. -/
  | empty {time : Nat} (leaves : left time) (isClosed : m.IsClosed e)
    (uncreated : ∀ (h : Handle) (c : Creation), m.creations[h]? = some c ∧ c.entry = e →
      c.outcome ≠ some .created)
    (past : time ≤ now) :
    Stands left now e m { job := .finished e, ended := some time }

variable {st : Standing}

namespace Stands

theorem isFinished_eq (hst : Stands left now e m st) : st.job.isFinished = st.ended.isSome := by
  cases hst <;> rfl

theorem ended_le (hst : Stands left now e m st) (hended : st.ended = some time) : time ≤ now := by
  cases hst with
  | waiting | next | closing => cases hended
  | closed _ _ _ _ past | empty _ _ _ past =>
    cases hended
    exact past

end Stands

/-! ## What happens at other entries -/

theorem AskedAt.of_spared {c : Creation} (hc : m.AskedAt time e h c) (hx : Spared e m m') :
    m'.AskedAt time e h c where
  made := hx.creation_iff.mpr hc.made
  created := hc.created
  calls := hc.calls
  only k d hd := hc.only k d (hx.creation_iff.mp hd)

theorem Unasked.of_spared (hm : m.Unasked e) (hx : Spared e m m') : m'.Unasked e := by
  intro h c hc hce
  obtain ⟨hc, hce⟩ := hx.creation_iff.mp ⟨hc, hce⟩
  exact hm h c hc hce

/-- Where the close stands with an entry does not change with what leaves the entry alone. -/
theorem Stands.of_spared (hst : Stands left now e m st) (hx : Spared e m m')
    (hleft : ∀ time, left time → left' time) : Stands left' now e m' st := by
  cases hst with
  | waiting looked isOpen unasked =>
    exact .waiting (mt hx.unlooked_iff.mp looked) (mt hx.isClosed_iff.mp isOpen) (unasked.of_spared hx)
  | next unlooked leaves isOpen unasked =>
    exact .next (hx.unlooked_iff.mpr unlooked) (hleft _ leaves) (mt hx.isClosed_iff.mp isOpen)
      (unasked.of_spared hx)
  | closing leaves isClosed asked due =>
    exact .closing (hleft _ leaves) (hx.isClosed_iff.mpr isClosed) (asked.of_spared hx) due
  | @closed h c time leaves isClosed asked done past =>
    have hsame : m'.closeFailure c.peer = m.closeFailure c.peer := by
      funext err
      simp only [closeFailure, hx.name]
    rw [← hsame]
    exact .closed (hleft _ leaves) (hx.isClosed_iff.mpr isClosed) (asked.of_spared hx) done past
  | empty leaves isClosed uncreated past =>
    exact .empty (hleft _ leaves) (hx.isClosed_iff.mpr isClosed)
      (fun h c hc => uncreated h c (hx.creation_iff.mp hc)) past

/-- Of an open entry no proxy was asked to close. -/
theorem Consistent.unasked (hm : m.Consistent) (hopen : ¬ m.IsClosed e) : m.Unasked e := by
  rintro h c hc rfl
  obtain ⟨entry, found⟩ := hm.exists_entry_of_made hc
  have hfits := hm.fits c.entry entry found
  have hmade := around_made_eq_some_iff.mpr ⟨hc, rfl⟩
  by_cases houtcome : c.outcome = some .created
  · rcases hfits.created h c hmade houtcome with ⟨-, hnone⟩ | ⟨hclosed, -⟩
    · exact hnone
    · exact absurd ⟨entry, found, hclosed⟩ hopen
  · exact hfits.uncreated h c hmade houtcome

/-- An entry that is open: somebody looks at it, or the last look-up has just left. -/
theorem Consistent.stands_of_open (hm : m.Consistent) (hopen : ¬ m.IsClosed e)
    (hleft : m.Unlooked e → left now) : Stands left now e m { job := .locking e } := by
  by_cases hunlooked : m.Unlooked e
  · exact .next hunlooked (hleft hunlooked) hopen (hm.unasked hopen)
  · exact .waiting hunlooked hopen (hm.unasked hopen)

/-- What other calls do: it matters only while look-ups are there, and then for when the last one leaves. -/
theorem Stands.step (hst : Stands left now e m st) (hs : m.Shutting t)
    (found : ∃ entry, m.entries[e]? = some entry) (hturn : ∀ now factory, event ≠ .turn now factory t)
    (hcancel : event ≠ .cancel t) (hleft : ∀ time, left time → left' time)
    (hlast : ¬ m.Unlooked e → (m.step event).Unlooked e → left' now) :
    Stands left' now e (m.step event) st := by
  obtain ⟨entry, found⟩ := found
  have hspared : m.Unlooked e → Stands left' now e (m.step event) st := fun hunlooked =>
    hst.of_spared (hs.spared_step hturn hcancel found hunlooked) hleft
  cases hst with
  | waiting looked isOpen unasked =>
    exact (hs.consistent.step event).stands_of_open (mt (hs.isClosed_of_step hturn hcancel) isOpen)
      (hlast looked)
  | next unlooked => exact hspared unlooked
  | closing _ isClosed | closed _ isClosed | empty _ isClosed =>
    exact hspared fun u => hs.ordered.closed e u isClosed

/-- The clock does not move on over a turn of the close. -/
theorem Stands.passes (hst : Stands left now e m st) (hle : now ≤ later)
    (howns : m.Unlooked e → st.job = .locking e → m.owns e t = true)
    (hquiet : ∀ instant, now ≤ instant → instant < later → m.retirementReady instant t st.job = false) :
    Stands left later e m st := by
  cases hst with
  | waiting looked isOpen unasked => exact .waiting looked isOpen unasked
  | next unlooked leaves isOpen unasked =>
    rcases hle.eq_or_lt with rfl | hlt
    · exact .next unlooked leaves isOpen unasked
    · exact absurd (howns unlooked rfl) (Bool.eq_false_iff.mp (hquiet now (Nat.le_refl _) hlt))
  | @closing h c time leaves isClosed asked due =>
    refine .closing leaves isClosed asked (Nat.not_lt.mp fun hlt => ?_)
    simpa [retirementReady] using hquiet _ due hlt
  | closed leaves isClosed asked done past => exact .closed leaves isClosed asked done (past.trans hle)
  | empty leaves isClosed uncreated past => exact .empty leaves isClosed uncreated (past.trans hle)

/-! ## Turns of the close -/

/-- What the close does with some of its entries: the others are spared, whatever it reports is about these,
and those with which it becomes done are done now. -/
structure Proceeds (now : Nat) (es : List EntryId) (m m' : ProxyMap) (sts sts' : List Standing) : Prop where
  spared : ∀ x ∉ es, Spared x m m'
  log : ∃ new, m'.log = m.log ++ new ∧
    (sts'.flatMap (·.report)).Perm (sts.flatMap (·.report) ++ new)
  ended : List.Forall₂
    (fun st st' => st'.ended = st.ended ∨ (st.ended = none ∧ st'.ended = some now)) sts sts'

variable {es : List EntryId} {sts sts' : List Standing} {st' : Standing}

namespace Proceeds

/-- An entry with which the close cannot go on. -/
theorem refl (now : Nat) (es : List EntryId) (m : ProxyMap) (st : Standing) :
    Proceeds now es m m [st] [st] where
  spared x _ := .refl x m
  log := ⟨[], by simp, by simp⟩
  ended := .cons (.inl rfl) .nil

theorem nil (now : Nat) (m : ProxyMap) : Proceeds now [] m m [] [] where
  spared x _ := .refl x m
  log := ⟨[], by simp, by simp⟩
  ended := .nil

/-- One entry after the other. -/
theorem cons (h : Proceeds now [e] m m' [st] [st']) (h' : Proceeds now es m' m'' sts sts') :
    Proceeds now (e :: es) m m'' (st :: sts) (st' :: sts') where
  spared x hx := (h.spared x (by simp_all)).trans (h'.spared x (by simp_all))
  log := by
    obtain ⟨first, hfirst, hperm⟩ := h.log
    obtain ⟨rest, hrest, hperm'⟩ := h'.log
    refine ⟨first ++ rest, by rw [hrest, hfirst, List.append_assoc], ?_⟩
    simp only [List.flatMap_cons, List.flatMap_nil, List.append_nil] at hperm ⊢
    refine (hperm.append hperm').trans ?_
    -- what is new of the first entry goes behind what was there of the others
    simp only [List.append_assoc]
    exact (List.perm_append_comm_assoc _ _ _).append_left _
  ended := by
    obtain ⟨hfirst, -⟩ := List.forall₂_cons.mp h.ended
    exact .cons hfirst h'.ended

end Proceeds

/-- The close gets the lock of an entry. -/
theorem retire_stands (hm : m.Consistent) (found : m.entries[e]? = some entry) (leaves : left now)
    (isOpen : ¬ m.IsClosed e) (unasked : m.Unasked e) :
    ∃ st', (m.retire now e).2 = st'.job ∧ Stands left now e (m.retire now e).1 st' ∧
      Proceeds now [e] m (m.retire now e).1 [{ job := .locking e }] [st'] := by
  have hfits := hm.fits e entry found
  obtain ⟨hstate, -, htaken⟩ := hfits.retire_eq
  have hclosed : (m.modifyEntry e fun y => y.retire.1.unlock).IsClosed e := by
    refine ⟨_, getElem?_modify_eq_some_iff.mpr ⟨entry, found, if_pos rfl⟩, ?_⟩
    rw [ProxyEntry.unlock_lifecycle]
    exact hstate
  have hopen : entry.lifecycle.state ≠ .closed := fun hstate => isOpen ⟨entry, found, hstate⟩
  rw [retire_eq_match found, htaken]
  cases hslot : entry.slot with
  | none =>
    refine ⟨{ job := .finished e, ended := some now }, rfl, ?_, ?_, ⟨[], by simp [modifyEntry], by simp⟩, ?_⟩
    · exact .empty leaves hclosed
        (fun h c hc => hfits.not_created hslot hopen (around_made_eq_some_iff.mpr hc)) (Nat.le_refl _)
    · intro x hx
      refine ⟨?_, rfl, fun _ => Iff.rfl, rfl⟩
      exact List.getElem?_modify_ne _ _ (Ne.symm (List.ne_of_not_mem_cons hx))
    · exact .cons (.inr ⟨rfl, rfl⟩) .nil
  | some h =>
    obtain ⟨c, hmade, hcreated⟩ := hfits.cached h hslot
    obtain ⟨hc, hce⟩ := around_made_eq_some_iff.mp hmade
    refine ⟨{ job := .closing e h (now + c.script.closeDelay) }, by simp [hc], ?_, ?_,
      ⟨[], by simp [modifyEntry, modifyCreation], by simp⟩, .cons (.inl rfl) .nil⟩
    · refine .closing (c := c.askToClose now) leaves hclosed
        ⟨⟨?_, hce⟩, hcreated, ?_, fun k d hd houtcome => ?_⟩ (Nat.le_add_right _ _)
      · exact getElem?_modify_eq_some_iff.mpr ⟨c, hc, if_pos rfl⟩
      · rw [Creation.askToClose, unasked h c hc hce]
        rfl
      · -- another proxy of the entry would be in its slot as well
        by_contra hne
        obtain ⟨hd, hde⟩ := hd
        obtain ⟨d₀, hd₀, rfl⟩ := getElem?_modify_eq_some_iff.mp hd
        rw [if_neg (Ne.symm hne)] at hde houtcome
        have hmade₀ := around_made_eq_some_iff.mpr ⟨hd₀, hde⟩
        rcases hfits.created k d₀ hmade₀ houtcome with ⟨hk, -⟩ | ⟨hstate, -⟩
        · exact hne (Option.some.inj (hk.symm.trans hslot))
        · exact hopen hstate
    · intro x hx
      have hne := List.ne_of_not_mem_cons hx
      refine ⟨?_, funext fun k => ?_, fun _ => Iff.rfl, rfl⟩
      · exact List.getElem?_modify_ne _ _ (Ne.symm hne)
      · exact Consistent.made_of_modify_ne (Creation.entry_askToClose now) hmade hne

/-- The proxy of an entry has closed. -/
theorem concludeClose_stands {c : Creation} (leaves : left time) (isClosed : m.IsClosed e)
    (asked : m.AskedAt time e h c) (hnow : time + c.script.closeDelay = now) :
    ∃ st', st'.job = .finished e ∧ Stands left now e (m.concludeClose now h) st' ∧
      Proceeds now [e] m (m.concludeClose now h)
        [{ job := .closing e h (time + c.script.closeDelay) }] [st'] := by
  subst hnow
  obtain ⟨hc, hce⟩ := asked.made
  refine ⟨_, ?_, .closed (h := h) (c := c.hasClosed (time + c.script.closeDelay)) leaves isClosed ?_ rfl
    (Nat.le_refl _), ?_, ⟨(c.script.closeFailure.map (m.closeFailure c.peer)).toList, ?_, ?_⟩, ?_⟩
  · rfl
  · refine ⟨⟨?_, hce⟩, asked.created, asked.calls, fun k d hd houtcome => ?_⟩
    · exact getElem?_modify_eq_some_iff.mpr ⟨c, hc, if_pos rfl⟩
    · obtain ⟨hd, hde⟩ := hd
      obtain ⟨d₀, hd₀, rfl⟩ := getElem?_modify_eq_some_iff.mp hd
      by_cases hk : h = k
      · exact hk.symm
      · rw [if_neg hk] at hde houtcome
        exact asked.only k d₀ ⟨hd₀, hde⟩ houtcome
  · intro x hx
    refine ⟨rfl, funext fun k => ?_, fun _ => Iff.rfl, rfl⟩
    exact Consistent.made_of_modify_ne (Creation.entry_hasClosed _) (around_made_eq_some_iff.mpr asked.made)
      (List.ne_of_not_mem_cons hx)
  · simp [concludeClose, hc]
  · simp only [List.flatMap_cons, List.flatMap_nil, List.append_nil, List.nil_append]
    exact .refl _
  · exact .cons (.inr ⟨rfl, rfl⟩) .nil

/-- The turn of one retirement. -/
theorem turnRetirement_stands (hs : m.Shutting t)
    (hstage : m.stage? t = some (.retiring (pre ++ st.job :: post) a)) (hst : Stands left now e m st) :
    ∃ st', (m.turnRetirement now t st.job).2 = st'.job ∧
      Stands left now e (m.turnRetirement now t st.job).1 st' ∧
      Proceeds now [e] m (m.turnRetirement now t st.job).1 [st] [st'] := by
  have hretires : st.job = .locking e → m.Retires t e := fun hjob =>
    ⟨_, a, hstage, List.mem_append_right _ (hjob ▸ List.mem_cons_self)⟩
  have hstays : ∀ {job}, st.job = job → m.turnRetirement now t job = (m, job) →
      ∃ st', (m.turnRetirement now t st.job).2 = st'.job ∧
        Stands left now e (m.turnRetirement now t st.job).1 st' ∧
        Proceeds now [e] m (m.turnRetirement now t st.job).1 [st] [st'] := by
    rintro job rfl hturn
    rw [hturn]
    exact ⟨st, rfl, hst, .refl now [e] m st⟩
  cases hst with
  | waiting looked =>
    exact hstays rfl (if_neg (Bool.eq_false_iff.mp (hs.not_owns (hretires rfl) looked)))
  | next unlooked leaves isOpen unasked =>
    obtain ⟨entry, found⟩ := hs.consistent.exists_entry (e := e) hstage (by simp)
    have howns := owns_of_owner found (hs.owner_of_unlooked (hretires rfl) found unlooked)
    have hturn : m.turnRetirement now t (.locking e) = m.retire now e := if_pos howns
    rw [hturn]
    exact retire_stands hs.consistent found leaves isOpen unasked
  | @closing h c time leaves isClosed asked due =>
    by_cases hwake : time + c.script.closeDelay ≤ now
    · have hturn : m.turnRetirement now t (.closing e h (time + c.script.closeDelay)) =
          (m.concludeClose now h, .finished e) := if_pos hwake
      rw [hturn]
      obtain ⟨st', hjob, hst', hproceeds⟩ :=
        concludeClose_stands leaves isClosed asked (Nat.le_antisymm hwake due)
      exact ⟨st', hjob.symm, hst', hproceeds⟩
    · exact hstays rfl (if_neg hwake)
  | closed | empty => exact hstays rfl rfl

/-- In its turn the close goes on with each of its entries. -/
theorem turnRetirements_stands {left : EntryId → Nat → Prop} (hnodup : es.Nodup) :
    ∀ (pre : List Retirement) {m : ProxyMap} {sts : List Standing}, m.Shutting t →
      m.stage? t = some (.retiring (pre ++ sts.map (·.job)) a) →
      List.Forall₂ (fun e => Stands (left e) now e m) es sts →
      ∃ sts', (m.turnRetirements now t (sts.map (·.job))).2 = sts'.map (·.job) ∧
        List.Forall₂ (fun e => Stands (left e) now e ((m.turnRetirements now t (sts.map (·.job))).1.setStage t
          (.retiring (pre ++ sts'.map (·.job)) a))) es sts' ∧
        Proceeds now es m ((m.turnRetirements now t (sts.map (·.job))).1.setStage t
          (.retiring (pre ++ sts'.map (·.job)) a)) sts sts' := by
  induction es with
  | nil =>
    intro pre m sts hs hstage hall
    cases hall
    refine ⟨[], rfl, .nil, ?_⟩
    rw [List.map_nil] at hstage ⊢
    rw [turnRetirements, setStage_self hstage]
    exact .nil now m
  | cons e es ih =>
    intro pre m sts hs hstage hall
    obtain ⟨hnot, hnodup⟩ := List.nodup_cons.mp hnodup
    cases hall with
    | @cons _ st _ sts hst hrest =>
      rw [List.map_cons] at hstage
      obtain ⟨st', hjob, hst', hfirst⟩ := turnRetirement_stands hs hstage hst
      -- the list is put back after the first entry, which is the same as once at the end
      have hadvances : Advances (fun _ => False) t m ((m.turnRetirement now t st.job).1.setStage t
          (.retiring (pre ++ (m.turnRetirement now t st.job).2 :: sts.map (·.job)) a)) :=
        turnRetirement_advances hs.consistent hstage
      have hkept : (m.turnRetirement now t st.job).1.stage? t = _ := stage?_turnRetirement.trans hstage
      rw [hjob, List.append_cons] at hadvances
      have hput : ∀ x, Spared x (m.turnRetirement now t st.job).1
          ((m.turnRetirement now t st.job).1.setStage t
            (.retiring ((pre ++ [st'.job]) ++ sts.map (·.job)) a)) := fun x =>
        spared_setStage x hkept (.inr ⟨_, _, rfl⟩)
      have hfirst' : Proceeds now [e] m ((m.turnRetirement now t st.job).1.setStage t
          (.retiring ((pre ++ [st'.job]) ++ sts.map (·.job)) a)) [st] [st'] :=
        ⟨fun x hx => (hfirst.spared x hx).trans (hput x), hfirst.log, hfirst.ended⟩
      have hothers : ∀ {x}, x ∈ es → x ∉ [e] := fun hx hmem => hnot (List.mem_singleton.mp hmem ▸ hx)
      obtain ⟨sts', hjobs, hall', hproceeds⟩ := ih hnodup (pre ++ [st'.job]) (hs.advances hadvances)
        (stage?_setStage_self hkept) ((forall₂_mem hrest).imp fun x _ hx =>
          hx.2.of_spared (hfirst'.spared x (hothers hx.1.1)) fun _ => id)
      simp only [turnRetirements_setStage, setStage_setStage] at hjobs hall' hproceeds
      have hturns : (m.turnRetirements now t ((st :: sts).map (·.job))).1 =
          ((m.turnRetirement now t st.job).1.turnRetirements now t (sts.map (·.job))).1 := rfl
      refine ⟨st' :: sts', ?_, ?_⟩
      · simp only [List.map_cons, turnRetirements, hjob, hjobs]
      · rw [hturns, List.map_cons, List.append_cons]
        exact ⟨.cons ((hst'.of_spared (hput e) fun _ => id).of_spared (hproceeds.spared e hnot) fun _ => id)
          hall', hfirst'.cons hproceeds⟩

end Replica.ProxyMap
