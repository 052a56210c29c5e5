import Replica.Proofs.Proxy.Clock
import Replica.Proofs.Proxy.Freshness

/-!
# What a repair answers

A repair resets the proxy of a peer if the caller wants it or the error asks for it, and this is what it
answers. The answer is settled before the map is looked at: a map that is closed, or that does not know the
peer, has nothing to reset, and a repair that was to reset the proxy leaves it as it is and answers `true`
all the same.

On a peer that is registered in an open map the answer is the truth. A repair that answers `true` has
swapped the peer's entry for a fresh one in its first step, and has waited until the old entry was closed
and its proxy was done closing (`Resetting`); one that answers `false` has changed nothing.
-/

namespace Replica.ProxyMap

variable {may : Loss → Prop} {t u : TaskId} {m m' : ProxyMap} {e : EntryId} {h : Handle} {id : PeerId}
variable {a b : ProxyAnswer} {now : Nat} {factory : Factory} {P : Handle → Prop} {name : String}

/-! ## Proxies that are done closing -/

/-- The proxy was asked to close, and is done. -/
def HasClosed (h : Handle) (m : ProxyMap) : Prop :=
  ∃ c, m.creations[h]? = some c ∧ c.closedAt.isSome

/-- What else is noted in the creations does not matter. -/
theorem HasClosed.modify {g : Creation → Creation} {k : Handle} (hx : m.HasClosed h)
    (hg : ∀ c : Creation, c.closedAt.isSome → (g c).closedAt.isSome) :
    ∃ c, (m.creations.modify k g)[h]? = some c ∧ c.closedAt.isSome := by
  obtain ⟨c, hc, hclosed⟩ := hx
  refine ⟨_, getElem?_modify_eq_some_iff.mpr ⟨c, hc, rfl⟩, ?_⟩
  split
  · exact hg c hclosed
  · exact hclosed

theorem Advance.hasClosed (h' : Advance may t m m') (hx : m.HasClosed h) : m'.HasClosed h := by
  cases h' with
  | start stage =>
    obtain ⟨c, hc, hclosed⟩ := hx
    exact ⟨c, getElem?_concat_of_some _ hc, hclosed⟩
  | answer | leave | finish | abandon => exact hx
  | succeed => exact hx.modify (g := Creation.ended _) fun _ => id
  | fail => exact hx.modify (g := Creation.ended _) fun _ => id
  | closed => exact hx.modify (g := Creation.hasClosed _) fun _ _ => rfl
  | @retire e entry =>
    cases hslot : entry.slot with
    | none => exact hx
    | some k => exact hx.modify (g := Creation.askToClose _) fun _ => id

theorem Move.hasClosed (h' : Move may t m m') (hx : m.HasClosed h) : m'.HasClosed h := by
  cases h' with
  | advance h' => exact h'.hasClosed hx
  | enrol | call | shut | join | await | renew => exact hx

/-- Of the proxies of the entry that were asked to close, all are done but those in question. -/
def ClosedBut (e : EntryId) (P : Handle → Prop) (m : ProxyMap) : Prop :=
  ∀ h c, m.creations[h]? = some c → c.entry = e → c.closeCalls ≠ [] → c.closedAt.isSome ∨ P h

/-- Calls that are not going to retire the entry do not ask its proxies to close. -/
theorem Move.closedBut (h' : Move may u m m') (hm : m.Consistent) (hidle : ¬ m.Retires u e)
    (hx : m.ClosedBut e P) : m'.ClosedBut e P := by
  intro h c' hc' hentry hcalls
  rcases h'.asked_of hm hc' hcalls with ⟨c, hc, hcalls⟩ | hretires
  · obtain ⟨c'', hc'', hsame, -⟩ := (h'.grows hm).creations h c hc
    cases hc'.symm.trans hc''
    rcases hx h c hc (hsame.symm.trans hentry) hcalls with hclosed | hP
    · obtain ⟨c'', hc'', hclosed⟩ := h'.hasClosed ⟨c, hc, hclosed⟩
      cases hc'.symm.trans hc''
      exact .inl hclosed
    · exact .inr hP
  · exact absurd (hentry ▸ hretires) hidle

/-- No proxy of an entry that is not closed was asked to close. -/
theorem closedBut_of_open (hm : m.Consistent) {entry : ProxyEntry} (found : m.entries[e]? = some entry)
    (hopen : entry.lifecycle.state ≠ .closed) : m.ClosedBut e P := by
  intro h c hc hentry hcalls
  have hmade := around_made_eq_some_iff.mpr ⟨hc, hentry⟩
  have hfits := hm.fits e entry found
  by_cases houtcome : c.outcome = some .created
  · rcases hfits.created h c hmade houtcome with ⟨-, hnone⟩ | ⟨hclosed, -⟩
    · exact absurd hnone hcalls
    · exact absurd hclosed hopen
  · exact absurd (hfits.uncreated h c hmade houtcome) hcalls

/-! ## Where a reset stands -/

/-- Where a call stands that has replaced entry `e`, is answered with `a` in the end, and was not cancelled:
it waits for the lock, or for the one proxy that may not be done closing, or it has ended. -/
def Resetting (t : TaskId) (e : EntryId) (a : ProxyAnswer) (m : ProxyMap) : Prop :=
  (m.stage? t = some (.retiring [.locking e] a) ∧ m.ClosedBut e fun _ => False) ∨
  (∃ h wake, m.stage? t = some (.retiring [.closing e h wake] a) ∧ m.ClosedBut e (· = h)) ∨
  ∃ time, m.stage? t = some (.finished time a) ∧ m.ClosedBut e fun _ => False

theorem Resetting.exists_stage (hx : m.Resetting t e a) : ∃ s, m.stage? t = some s := by
  rcases hx with ⟨hs, -⟩ | ⟨h, wake, hs, -⟩ | ⟨time, hs, -⟩ <;> exact ⟨_, hs⟩

/-- A call that has one entry to retire ends with it. -/
theorem continueRetiring_of_finished {job : Retirement}
    (hjob : m.turnRetirement now t job = (m', .finished e)) :
    m.continueRetiring now t [job] a = m'.finish now t a := by
  simp [continueRetiring, turnRetirements, hjob, Retirement.isFinished]

theorem continueRetiring_of_unfinished {job job' : Retirement}
    (hjob : m.turnRetirement now t job = (m', job')) (hnot : job'.isFinished = false) :
    m.continueRetiring now t [job] a = m'.setStage t (.retiring [job'] a) := by
  simp [continueRetiring, turnRetirements, hjob, hnot]

/-- A reset that has its turn while it waits for the lock. -/
theorem resetting_of_locking (hm : m.Consistent) (hs : m.stage? t = some (.retiring [.locking e] a))
    (hx : m.ClosedBut e fun _ => False) : (m.continueRetiring now t [.locking e] a).Resetting t e a := by
  by_cases howns : m.owns e t = true
  · obtain ⟨entry, found⟩ := hm.exists_entry (e := e) hs (by simp)
    have hjob : m.turnRetirement now t (.locking e) = m.retire now e := if_pos howns
    rw [retire_eq_match found, (hm.fits e entry found).retire_eq.2.2] at hjob
    cases hslot : entry.slot with
    | none =>
      rw [hslot] at hjob
      rw [continueRetiring_of_finished hjob]
      exact .inr (.inr ⟨now, stage?_setStage_self (m := m.modifyEntry e _) hs, hx⟩)
    | some k =>
      rw [hslot] at hjob
      rw [continueRetiring_of_unfinished hjob rfl]
      refine .inr (.inl ⟨k, _, stage?_setStage_self (m := (m.modifyEntry e _).modifyCreation k _) hs,
        fun h c hc hentry hcalls => ?_⟩)
      obtain ⟨c₀, hc₀, rfl⟩ := getElem?_modify_eq_some_iff.mp hc
      by_cases hk : k = h
      · exact .inr hk.symm
      · rw [if_neg hk] at hentry hcalls ⊢
        exact .inl ((hx h c₀ hc₀ hentry hcalls).resolve_right id)
  · have hjob : m.turnRetirement now t (.locking e) = (m, .locking e) := if_neg howns
    rw [continueRetiring_of_unfinished hjob rfl]
    exact .inl ⟨stage?_setStage_self hs, hx⟩

/-- A reset that has its turn while the proxy closes. -/
theorem resetting_of_closing {wake : Nat} (hs : m.stage? t = some (.retiring [.closing e h wake] a))
    (hx : m.ClosedBut e (· = h)) : (m.continueRetiring now t [.closing e h wake] a).Resetting t e a := by
  by_cases hwake : wake ≤ now
  · have hjob : m.turnRetirement now t (.closing e h wake) = (m.concludeClose now h, .finished e) :=
      if_pos hwake
    rw [continueRetiring_of_finished hjob]
    refine .inr (.inr ⟨now, stage?_setStage_self (m := m.concludeClose now h) hs,
      fun k c hc hentry hcalls => ?_⟩)
    obtain ⟨c₀, hc₀, rfl⟩ := getElem?_modify_eq_some_iff.mp hc
    by_cases hk : h = k
    · rw [if_pos hk]
      exact .inl rfl
    · rw [if_neg hk] at hentry hcalls ⊢
      exact .inl ((hx k c₀ hc₀ hentry hcalls).resolve_right fun heq => hk heq.symm)
  · have hjob : m.turnRetirement now t (.closing e h wake) = (m, .closing e h wake) := if_neg hwake
    rw [continueRetiring_of_unfinished hjob rfl]
    exact .inr (.inl ⟨h, wake, stage?_setStage_self hs, hx⟩)

/-- What other calls do does not concern it. -/
theorem Resetting.of_moves (hmoves : Moves may u m m') (hm : m.Consistent) (hr : m.Replaces t e)
    (hne : u ≠ t) (hx : m.Resetting t e a) : m'.Resetting t e a := by
  have hkeeps : ∀ {P}, m.ClosedBut e P → m'.ClosedBut e P := fun hP =>
    (hmoves.induct (P := fun m => m.Replaces t e ∧ m.ClosedBut e _)
      (fun _ _ hm hmove hboth => ⟨hmove.replaces hm hboth.1, hmove.closedBut hm
        (fun hretires => hne (hboth.1.only u hretires)) hboth.2⟩) hm ⟨hr, hP⟩).2
  have hstage := hmoves.stage?_of_ne hm hne.symm
  rw [Resetting, hstage]
  rcases hx with ⟨hs, hP⟩ | ⟨h, wake, hs, hP⟩ | ⟨time, hs, hP⟩
  · exact .inl ⟨hs, hkeeps hP⟩
  · exact .inr (.inl ⟨h, wake, hs, hkeeps hP⟩)
  · exact .inr (.inr ⟨time, hs, hkeeps hP⟩)

theorem Resetting.turn (hm : m.Consistent) (hx : m.Resetting t e a) :
    (m.turn now factory t).Resetting t e a := by
  rcases hx with ⟨hs, hP⟩ | ⟨h, wake, hs, hP⟩ | ⟨time, hs, hP⟩
  · have hturn : m.turn now factory t = m.continueRetiring now t [.locking e] a := by
      simp only [ProxyMap.turn, hs]
    exact hturn ▸ resetting_of_locking hm hs hP
  · have hturn : m.turn now factory t = m.continueRetiring now t [.closing e h wake] a := by
      simp only [ProxyMap.turn, hs]
    exact hturn ▸ resetting_of_closing hs hP
  · rw [turn_of_idle hs (.inr ⟨time, a, rfl⟩)]
    exact .inr (.inr ⟨time, hs, hP⟩)

theorem Resetting.step (hm : m.Consistent) (hr : m.Replaces t e) (hx : m.Resetting t e a)
    {event : Event} (hevent : event ≠ .cancel t) : (m.step event).Resetting t e a := by
  have hothers : event.actor m ≠ t → (m.step event).Resetting t e a := fun hne =>
    hx.of_moves (step_moves (fun _ => True) hm event fun _ _ => trivial) hm hr hne
  cases event with
  | register peer =>
    rw [ProxyMap.step, register]
    split
    · exact hx
    · exact hx
  | begin now factory call =>
    obtain ⟨s, hs⟩ := hx.exists_stage
    refine hothers ?_
    rintro rfl
    cases stage?_length.symm.trans hs
  | turn now factory u =>
    rcases eq_or_ne u t with rfl | hne
    · exact hx.turn hm
    · exact hothers hne
  | cancel u => exact hothers fun heq => hevent (heq ▸ rfl)

/-- A reset goes on until it ends, unless it is cancelled. -/
theorem Resetting.run (hm : m.Consistent) (hr : m.Replaces t e) (hx : m.Resetting t e a)
    (events : List Event) :
    (m.run events).Resetting t e a ∨ (m.run events).stage? t = some .cancelled := by
  induction events generalizing m with
  | nil => exact .inl hx
  | cons event events ih =>
    by_cases hevent : event = .cancel t
    · subst hevent
      rcases cancel_cases (m := m) (t := t) with hsame | hcancelled
      · rcases hx with ⟨hs, -⟩ | ⟨h, wake, hs, -⟩ | ⟨time, hs, hP⟩
        · simp [ProxyMap.cancel, hs, stage?_setStage_self (stage?_abandonRetirement.trans hs)] at hsame
        · simp [ProxyMap.cancel, hs, stage?_setStage_self (stage?_abandonRetirement.trans hs)] at hsame
        · have hidle := cancel_of_idle hs (.inr ⟨time, a, rfl⟩)
          rw [run, List.foldl_cons, ProxyMap.step, hidle]
          exact ih hm hr (.inr (.inr ⟨time, hs, hP⟩))
      · refine .inr ((hm.step (.cancel t)).run_induct (P := fun m => m.stage? t = some .cancelled)
          (fun hm hmoves hs => hmoves.induct
            (fun _ _ _ hmove hs => hmove.stage?_of_over hs (.inl rfl)) hm hs) hcancelled)
    · exact ih (hm.step event) (hr.run hm [event]) (hx.step hm hr hevent)

/-! ## Its end -/

/-- When it has ended, all proxies of the entry that were asked to close are done. -/
theorem Resetting.closed (hx : m.Resetting t e a) (hended : (m.ended? t).isSome) :
    m.ClosedBut e fun _ => False := by
  rcases hx with ⟨hs, hP⟩ | ⟨h, wake, hs, -⟩ | ⟨time, hs, hP⟩
  · exact hP
  · simp [ended?, hs] at hended
  · exact hP

theorem Resetting.answer {time : Nat} (hx : m.Resetting t e a) (hended : m.ended? t = some (time, b)) :
    b = a := by
  rw [ended?_eq_some_iff] at hended
  rcases hx with ⟨hs, -⟩ | ⟨h, wake, hs, -⟩ | ⟨time, hs, -⟩ <;> cases hended.symm.trans hs
  rfl

/-- As long as a call waits for a lock somebody can go on, at some time. -/
theorem Retires.exists_ready (hr : m.Retires t e) (hm : m.Consistent) :
    ∃ now u, m.isReady now u = true := by
  by_contra hnone
  push Not at hnone
  have hlocks : ∃ s, m.stage? t = some s ∧ e ∈ s.locks := by
    obtain ⟨jobs, a, hs, hmem⟩ := hr
    exact ⟨_, hs, List.mem_filterMap.mpr ⟨_, hmem, rfl⟩⟩
  obtain ⟨s, hs, hmem⟩ := hlocks
  obtain ⟨entry, found⟩ := hm.exists_entry hs hmem
  have hnoLine := (hm.fits e entry found).noLineIfFree
  have hqueued := (hm.mem_queue_iff found).mpr (.inr hr)
  cases howner : entry.owner with
  | none => simp [ProxyEntry.queue, howner, hnoLine howner] at hqueued
  | some u =>
    -- whoever has the lock makes a proxy, and can go on when the factory is done
    obtain ⟨h, wake, hmaking, -⟩ :=
      hm.creating_of_owner (Bool.eq_false_iff.mpr (hnone 0 u)) found howner
    exact hnone wake u (by simp [isReady, hmaking])

/-- As long as it is under way somebody can go on, at some time. -/
theorem Resetting.exists_ready (hx : m.Resetting t e a) (hm : m.Consistent) :
    (m.ended? t).isSome ∨ ∃ now u, m.isReady now u = true := by
  rcases hx with ⟨hs, -⟩ | ⟨h, wake, hs, -⟩ | ⟨time, hs, -⟩
  · exact .inr (Retires.exists_ready ⟨[.locking e], a, hs, List.mem_singleton_self _⟩ hm)
  · exact .inr ⟨wake, t, by simp [isReady, hs, retirementReady]⟩
  · exact .inl (by rw [ended?_eq_some_iff.mpr hs]; rfl)

/-- From any moment on it can be brought to its end by turns alone. -/
theorem Resetting.returns (hx : m.Resetting t e a) (hr : m.Replaces t e) (hm : m.Consistent)
    (hsep : m.Separate) (factory : Factory) : ∃ turns : List (Nat × TaskId),
      ((m.run (turns.map fun x => .turn x.1 factory x.2)).ended? t).isSome := by
  have hturn : ∀ (m : ProxyMap) now u, m.Consistent ∧ m.Resetting t e a ∧ m.Replaces t e →
      (m.turn now factory u).Consistent ∧ (m.turn now factory u).Resetting t e a ∧
        (m.turn now factory u).Replaces t e := by
    rintro m now u ⟨hm, hx, hr⟩
    have hcancel : Event.turn now factory u ≠ .cancel t := nofun
    exact ⟨hm.step (.turn now factory u), hx.step hm hr hcancel, hr.run hm [.turn now factory u]⟩
  obtain ⟨turns, -, -, hended⟩ := exists_turns factory (P := fun m => (m.ended? t).isSome) hturn
    (fun m hI => hI.2.1.exists_ready hI.1) hsep ⟨hm, hx, hr⟩ 0
  rw [runAt, turnsAt, List.map_map] at hended
  exact ⟨turns, hended⟩

/-! ## The step of the repair -/

variable {error : PeerError} {reconnect : Bool}

/-- The map with one more call, which has ended at once. -/
def noted (now : Nat) (call : ProxyCall) (a : ProxyAnswer) (m : ProxyMap) : ProxyMap :=
  { m with tasks := m.tasks ++ [⟨call, .finished now a⟩] }

theorem finish_enter {call : ProxyCall} :
    (m.enter call).finish now m.tasks.length a = m.noted now call a := by
  have htasks := concat_eq_modify (l := m.tasks)
    (fun task : ProxyTask => { task with stage := .finished now a }) ⟨call, .retiring [] .done⟩
  simp only [finish, setStage, enter, noted, ← htasks]

/-- A repair that is not to reset the proxy, or that finds nothing to reset, ends at once. -/
theorem begin_repair_idle (now : Nat) (factory : Factory)
    (hidle : (reconnect || error.shouldReconnect) = false ∨ m.closed = true ∨
      m.registry.get? id = none) :
    m.begin now factory (.repair id error reconnect) = m.noted now (.repair id error reconnect)
      (.repaired (reconnect || error.shouldReconnect)) := by
  cases hasks : reconnect || error.shouldReconnect with
  | false =>
    simp only [begin, hasks, Bool.false_eq_true, if_false]
    exact finish_enter
  | true =>
    have hnone : (m.enter (.repair id error reconnect)).renew id =
        (m.enter (.repair id error reconnect), none) := by
      rcases hidle with hfalse | hclosed | hnone
      · cases hasks.symm.trans hfalse
      · cases hget : m.registry.get? id <;> simp [renew, enter, hget, hclosed]
      · simp [renew, enter, hnone]
    have hbegin : m.begin now factory (.repair id error reconnect) =
        (m.enter (.repair id error reconnect)).beginReset now m.tasks.length id (.repaired true) := by
      simp only [begin, hasks, if_true]
      rfl
    rw [hbegin, beginReset, hnone]
    exact finish_enter

/-- A repair that has something to reset swaps in a fresh entry and goes for the old one. -/
theorem begin_repair_resetting (now : Nat) (factory : Factory) (hm : m.Consistent) (hlive : m.Live)
    (hasks : (reconnect || error.shouldReconnect) = true) (hopen : m.closed = false)
    (registered : m.registry.get? id = some e) :
    (m.begin now factory (.repair id error reconnect)).Resetting m.tasks.length e (.repaired true) := by
  obtain ⟨entry, found, hid⟩ := hm.registered id e registered
  have hcall : Move (fun _ => True) m.tasks.length m (m.enter (.repair id error reconnect)) :=
    .call _ rfl
  have hentered := hcall.consistent hm
  have hmove : Move (fun _ => True) m.tasks.length (m.enter (.repair id error reconnect))
      ((m.enter (.repair id error reconnect)).renewed m.tasks.length e entry (.repaired true)) :=
    .renew (tasks_enter _) rfl hopen registered found
  have hbegin : m.begin now factory (.repair id error reconnect) =
      (m.enter (.repair id error reconnect)).beginReset now m.tasks.length id (.repaired true) := by
    simp only [begin, hasks, if_true]
    rfl
  rw [hbegin, beginReset_eq (m := m.enter (.repair id error reconnect)) hid hopen registered found]
  refine resetting_of_locking (hmove.consistent hentered) ?_ ?_
  · exact stage?_setStage_self (m := (m.enter (.repair id error reconnect)).modifyEntry e _)
      (stage?_eq_some_iff.mpr ⟨_, tasks_enter _⟩)
  · have hstate : entry.lifecycle.state ≠ .closed := fun hstate =>
      (hlive hopen id e registered).1 ⟨entry, found, hstate⟩
    have hx : m.ClosedBut e fun _ => False := closedBut_of_open hm found hstate
    exact hx

/-- Of the entries, the step of such a repair changes the one that it replaces, and adds a fresh one, with
which the peer is registered from then on. -/
theorem begin_repair_swaps (now : Nat) (factory : Factory) (hm : m.Consistent)
    (hasks : (reconnect || error.shouldReconnect) = true) (hopen : m.closed = false)
    (registered : m.registry.get? id = some e) :
    (m.begin now factory (.repair id error reconnect)).registry = m.registry.set id m.entries.length ∧
    (∃ peer, peer.id = id ∧ (m.begin now factory (.repair id error reconnect)).entries[m.entries.length]? =
      some (.fresh peer)) ∧
    ∀ x < m.entries.length, x ≠ e →
      (m.begin now factory (.repair id error reconnect)).entries[x]? = m.entries[x]? := by
  obtain ⟨entry, found, hid⟩ := hm.registered id e registered
  have hrenews : (ProxyCall.repair id error reconnect).Renews id := ⟨rfl, hasks⟩
  obtain ⟨b, hrest⟩ := begin_renews now factory hm hrenews hopen registered found
  generalize hmid : (m.enter (.repair id error reconnect)).renewed m.tasks.length e entry b = mid at hrest
  have hmove : Move (fun _ => True) m.tasks.length (m.enter (.repair id error reconnect)) mid :=
    hmid ▸ .renew (tasks_enter _) rfl hopen registered found
  have hcall : Move (fun _ => True) m.tasks.length m (m.enter (.repair id error reconnect)) := .call _ rfl
  have hconsistent : mid.Consistent := hmove.consistent (hcall.consistent hm)
  have hentries : mid.entries = m.entries.modify e (.lock m.tasks.length) ++ [.fresh entry.peer] :=
    hmid ▸ rfl
  have hlength : mid.entries.length = m.entries.length + 1 := by
    rw [hentries, List.length_append, List.length_modify]
    rfl
  -- the repair goes on with the entry that it has replaced, and with no other one
  have hother : ∀ x, x ≠ e →
      (m.begin now factory (.repair id error reconnect)).entries[x]? = mid.entries[x]? := by
    intro x hx
    refine (hrest.sameAt hconsistent ?_).1.entry
    have hstage : mid.stage? m.tasks.length = some (.retiring [.locking e] b) :=
      hmid ▸ stage?_setStage_self (m := (m.enter (.repair id error reconnect)).modifyEntry e _)
        (stage?_eq_some_iff.mpr ⟨_, tasks_enter _⟩)
    rw [wanted_eq hstage]
    exact fun hmem => hx (List.mem_singleton.mp hmem)
  refine ⟨?_, ⟨entry.peer, hid, ?_⟩, fun x hlt hx => ?_⟩
  · rw [hrest.registry_eq, ← hmid, renewed, ProxyMap.enrol, act_entries, List.length_modify, hid]
    rfl
  · rw [hother _ (Nat.ne_of_gt (lt_length_of_getElem? found)), hentries]
    simp
  · rw [hother x hx, hentries, List.getElem?_append_left (by rwa [List.length_modify]),
      List.getElem?_modify]
    simp [Ne.symm hx]

/-! ## The main result -/

/-- The peer's proxy was reset by the call: with the step of the call the peer is registered with a fresh
entry in place of entry `e`, and at the end that one is closed, and its proxy was asked to close once and is
done, if there was one. -/
structure WasReset (name : String) (before : List Event) (event : Event) (after : List Event)
    (id : PeerId) (e : EntryId) : Prop where
  registry : (reached name (before ++ [event])).registry =
    (reached name before).registry.set id (reached name before).entries.length
  fresh : ∃ peer, peer.id = id ∧
    (reached name (before ++ [event])).entries[(reached name before).entries.length]? = some (.fresh peer)
  others : ∀ x < (reached name before).entries.length, x ≠ e →
    (reached name (before ++ [event])).entries[x]? = (reached name before).entries[x]?
  closed : ∃ entry, (reached name (before ++ event :: after)).entries[e]? = some entry ∧
    entry.lifecycle.state = .closed ∧ entry.slot = none
  proxy : ∀ h, (reached name (before ++ event :: after)).MadeFor e h →
    ∃ c, (reached name (before ++ event :: after)).creations[h]? = some c ∧
      c.closeCalls.length = 1 ∧ c.closedAt.isSome

/-- What a repair of the peer's proxy means in a run: `before` leads up to it, and `after` is what happens
from then on. -/
structure Repaired (name : String) (before : List Event) (now : Nat) (factory : Factory) (id : PeerId)
    (error : PeerError) (reconnect : Bool) (after : List Event) : Prop where
  /-- It answers whether it was to reset the proxy. -/
  answer : ∀ time a,
    (reached name (before ++ .begin now factory (.repair id error reconnect) :: after)).ended?
      (reached name before).tasks.length = some (time, a) →
    a = .repaired (reconnect || error.shouldReconnect)
  /-- If it was not, or if the map is closed or does not know the peer, it ends at once, and nothing else
  changes. -/
  idle : (reconnect || error.shouldReconnect) = false ∨ (reached name before).closed = true ∨
      (reached name before).registry.get? id = none →
    reached name (before ++ [.begin now factory (.repair id error reconnect)]) =
      (reached name before).noted now (.repair id error reconnect)
        (.repaired (reconnect || error.shouldReconnect))
  /-- On a registered peer in an open map, `true` means that the proxy was reset, and `false` that nothing
  has changed. -/
  truthful : (reached name before).closed = false →
    ∀ e, (reached name before).registry.get? id = some e → ∀ time a,
    (reached name (before ++ .begin now factory (.repair id error reconnect) :: after)).ended?
      (reached name before).tasks.length = some (time, a) →
    (a = .repaired true ↔
      WasReset name before (.begin now factory (.repair id error reconnect)) after id e) ∧
    (a = .repaired false ↔
      reached name (before ++ [.begin now factory (.repair id error reconnect)]) =
        (reached name before).noted now (.repair id error reconnect) (.repaired false))
  /-- From any moment on it can be brought to its end, unless it was cancelled. -/
  returns :
    (reached name (before ++ .begin now factory (.repair id error reconnect) :: after)).stage?
      (reached name before).tasks.length ≠ some .cancelled →
    ∀ factory', ∃ turns : List (Nat × TaskId),
      (((reached name (before ++ .begin now factory (.repair id error reconnect) :: after)).run
        (turns.map fun x => .turn x.1 factory' x.2)).ended? (reached name before).tasks.length).isSome

/-- A fresh entry is none of those from before. -/
theorem set_registry_ne (hm : m.Consistent) (registered : m.registry.get? id = some e) :
    m.registry.set id m.entries.length ≠ m.registry := by
  intro heq
  obtain ⟨entry, found, -⟩ := hm.registered id e registered
  have hget : (m.registry.set id m.entries.length).get? id = some m.entries.length := by
    rw [Registry.get?_set, if_pos rfl]
  rw [heq, registered] at hget
  exact Nat.ne_of_lt (lt_length_of_getElem? found) (Option.some.inj hget)

section

variable {before : List Event} (after : List Event)

/-- A repair that has nothing to reset. -/
theorem repaired_of_idle (hidle : (reconnect || error.shouldReconnect) = false ∨
      (reached name before).closed = true ∨ (reached name before).registry.get? id = none) :
    Repaired name before now factory id error reconnect after := by
  have hm := Consistent.reached name before
  have hbegin : (reached name before).step (.begin now factory (.repair id error reconnect)) =
      (reached name before).noted now (.repair id error reconnect)
        (.repaired (reconnect || error.shouldReconnect)) := begin_repair_idle now factory hidle
  have hended : ((reached name before).step (.begin now factory (.repair id error reconnect))).ended?
      (reached name before).tasks.length =
        some (now, .repaired (reconnect || error.shouldReconnect)) := by
    rw [hbegin, ended?_eq_some_iff, stage?_eq_some_iff]
    exact ⟨_, List.getElem?_concat_length⟩
  have hanswer := ended?_run (hm.step (.begin now factory (.repair id error reconnect))) hended after
  rw [← reached_append_cons] at hanswer
  refine ⟨fun time a ha => ?_, fun _ => ?_, fun hopen e hget time a ha => ?_, fun _ factory' => ?_⟩
  · cases hanswer.symm.trans ha
    rfl
  · rw [reached_concat]
    exact hbegin
  · have hasks : (reconnect || error.shouldReconnect) = false := by
      rcases hidle with hasks | hclosed | hnone
      · exact hasks
      · cases hopen.symm.trans hclosed
      · cases hget.symm.trans hnone
    rw [hasks] at hanswer hbegin
    cases hanswer.symm.trans ha
    rw [reached_concat, hbegin]
    refine ⟨iff_of_false nofun fun hreset => ?_, iff_of_true rfl rfl⟩
    have hregistry := hreset.registry
    rw [reached_concat, hbegin] at hregistry
    exact set_registry_ne hm hget hregistry.symm
  · refine ⟨[], ?_⟩
    rw [List.map_nil, run_nil, hanswer]
    rfl

/-- A repair that resets the proxy has reset it when it ends. -/
theorem wasReset_of_ended (hasks : (reconnect || error.shouldReconnect) = true)
    (hopen : (reached name before).closed = false)
    (hget : (reached name before).registry.get? id = some e)
    (hx : (reached name (before ++ .begin now factory (.repair id error reconnect) :: after)).Resetting
      (reached name before).tasks.length e (.repaired true))
    (hended : ((reached name (before ++ .begin now factory (.repair id error reconnect) :: after)).ended?
      (reached name before).tasks.length).isSome) :
    WasReset name before (.begin now factory (.repair id error reconnect)) after id e := by
  have hm := Consistent.reached name before
  have hend := Consistent.reached name (before ++ .begin now factory (.repair id error reconnect) :: after)
  have hrenews : (ProxyCall.repair id error reconnect).Renews id := ⟨rfl, hasks⟩
  obtain ⟨hregistry, hfresh, hothers⟩ := begin_repair_swaps now factory hm hasks hopen hget
  obtain ⟨-, -, -, hretired⟩ := begin_replaces now factory hm (Live.reached name before) hrenews hopen hget
  have hclosed : (reached name
      (before ++ .begin now factory (.repair id error reconnect) :: after)).IsClosed e := by
    rw [reached_append_cons] at hended ⊢
    have hbegun := hm.step (.begin now factory (.repair id error reconnect))
    exact (PursuedBy.run hbegun (.inl hretired) after).isClosed hended
  refine ⟨?_, ?_, ?_, ?_, fun h hmade => ?_⟩
  · rw [reached_concat]
    exact hregistry
  · rw [reached_concat]
    exact hfresh
  · rw [reached_concat]
    exact hothers
  · obtain ⟨entry, found, hstate⟩ := hclosed
    exact ⟨entry, found, hstate, (hend.fits e entry found).slot_of_closed hstate⟩
  · obtain ⟨c, hc, hcalls⟩ := hclosed.closeCalls hend (ClosedOnce.reached name _) hmade
    obtain ⟨c', hc', hentry, -⟩ := hmade
    cases hc.symm.trans hc'
    have hasked := List.ne_nil_of_length_eq_add_one hcalls
    exact ⟨c, hc, hcalls, (hx.closed hended h c hc hentry hasked).resolve_right nofun⟩

/-- A repair that resets the proxy. -/
theorem repaired_of_resetting (hasks : (reconnect || error.shouldReconnect) = true)
    (hopen : (reached name before).closed = false)
    (hget : (reached name before).registry.get? id = some e) :
    Repaired name before now factory id error reconnect after := by
  have hm := Consistent.reached name before
  have hlive := Live.reached name before
  have hbegun := hm.step (.begin now factory (.repair id error reconnect))
  have hrenews : (ProxyCall.repair id error reconnect).Renews id := ⟨rfl, hasks⟩
  obtain ⟨hreplaces, -⟩ := begin_replaces now factory hm hlive hrenews hopen hget
  have hcourse : (reached name (before ++ .begin now factory (.repair id error reconnect) :: after)).Resetting
        (reached name before).tasks.length e (.repaired true) ∨
      (reached name (before ++ .begin now factory (.repair id error reconnect) :: after)).stage?
        (reached name before).tasks.length = some .cancelled := by
    rw [reached_append_cons]
    exact (begin_repair_resetting now factory hm hlive hasks hopen hget).run hbegun hreplaces after
  have hresetting : ∀ {time a},
      (reached name (before ++ .begin now factory (.repair id error reconnect) :: after)).ended?
        (reached name before).tasks.length = some (time, a) →
      (reached name (before ++ .begin now factory (.repair id error reconnect) :: after)).Resetting
        (reached name before).tasks.length e (.repaired true) := fun ha =>
    hcourse.resolve_right fun hcancelled => by
      cases (ended?_eq_some_iff.mp ha).symm.trans hcancelled
  refine ⟨fun time a ha => ?_, fun hidle => ?_, fun _ e' hget' time a ha => ?_, fun hcancel factory' => ?_⟩
  · rw [hasks]
    exact (hresetting ha).answer ha
  · rcases hidle with hfalse | hclosed | hnone
    · cases hasks.symm.trans hfalse
    · cases hopen.symm.trans hclosed
    · cases hget.symm.trans hnone
  · cases hget.symm.trans hget'
    obtain rfl := (hresetting ha).answer ha
    refine ⟨iff_of_true rfl ?_, iff_of_false nofun fun heq => ?_⟩
    · exact wasReset_of_ended after hasks hopen hget (hresetting ha) (by rw [ha]; rfl)
    -- the peer is registered with another entry than before, so something has changed
    · obtain ⟨hregistry, -⟩ := begin_repair_swaps now factory hm hasks hopen hget
      rw [reached_concat, ProxyMap.step] at heq
      rw [heq] at hregistry
      exact set_registry_ne hm hget hregistry.symm
  · refine (hcourse.resolve_right hcancel).returns ?_ (Consistent.reached name _) (Separate.reached name _)
      factory'
    rw [reached_append_cons]
    exact hreplaces.run hbegun after

end

/-- Every repair, on every map that can be reached and whatever happens afterwards, answers whether it was to
reset the proxy; on a registered peer in an open map it has done so if and only if it answers `true`. -/
theorem repairs_answer (name : String) (before after : List Event) (now : Nat) (factory : Factory)
    (id : PeerId) (error : PeerError) (reconnect : Bool) :
    Repaired name before now factory id error reconnect after := by
  cases hasks : reconnect || error.shouldReconnect with
  | false => exact repaired_of_idle after (.inl hasks)
  | true =>
    cases hopen : (reached name before).closed with
    | true => exact repaired_of_idle after (.inr (.inl hopen))
    | false =>
      cases hget : (reached name before).registry.get? id with
      | none => exact repaired_of_idle after (.inr (.inr hget))
      | some e => exact repaired_of_resetting after hasks hopen hget

/-- A map that knows no peers answers `true` to a repair, and so does a map that is closed. Nothing was there
to be reset, and nothing has changed. -/
theorem repair_of_nothing_answers_true :
    let stranger := [Event.begin 0 (fun _ _ => {}) (.repair ⟨"a"⟩ (.timeout 7) true)]
    let shut := [Event.register ⟨⟨"a"⟩, "x"⟩, .begin 0 (fun _ _ => {}) .close,
      .begin 0 (fun _ _ => {}) (.repair ⟨"a"⟩ (.connection "a" "refused") false)]
    (reached "m" stranger).ended? 0 = some (0, .repaired true) ∧
      (reached "m" stranger).registry = [] ∧ (reached "m" stranger).entries = [] ∧
      (reached "m" shut).ended? 1 = some (0, .repaired true) ∧
      (reached "m" shut).registry = (reached "m" (shut.take 2)).registry ∧
      (reached "m" shut).entries = (reached "m" (shut.take 2)).entries := by
  decide

end Replica.ProxyMap
