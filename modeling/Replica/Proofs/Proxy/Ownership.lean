import Mathlib.Data.List.Induction
import Replica.Proofs.Proxy.Looking
import Replica.Proofs.Proxy.Retiring

/-!
# No proxy is lost

Every proxy that the factory ever made is in exactly one place: in the slot of the entry that is
registered for its peer, in the slot of an entry that was replaced and that a reset is still going to
empty, or it was asked to close. This holds at every moment of every run in which only look-ups are
cancelled.

Once a close has ended, and with it all resets that were there before it, every proxy was asked to
close: the entries that there were at the close are closed, and those that are made afterwards stay
empty, since nobody looks them up any more (`Untouched`).
-/

namespace Replica.ProxyMap

/-- The places that a proxy can be in. -/
inductive Custody where
  /-- In the slot of the entry that is registered for its peer. -/
  | cached
  /-- In the slot of an entry that was replaced, and that a reset is still going to empty. -/
  | awaited
  /-- It was asked to close. -/
  | closed
  deriving DecidableEq

variable {t : TaskId} {m m' : ProxyMap} {e : EntryId} {h : Handle}

/-- Only look-ups are cancelled. -/
def SparesResets (m : ProxyMap) (events : List Event) : Prop :=
  ∀ before t after, events = before ++ .cancel t :: after →
    ∀ call s, (m.run before).tasks[t]? = some ⟨call, s⟩ → ∃ id, call = .lookUp id

theorem sparesResets_nil : m.SparesResets [] := by
  intro before t after heq
  simp at heq

theorem sparesResets_cons {event : Event} {events : List Event} :
    m.SparesResets (event :: events) ↔
      (∀ t, event = .cancel t → ∀ call s, m.tasks[t]? = some ⟨call, s⟩ → ∃ id, call = .lookUp id) ∧
        (m.step event).SparesResets events := by
  constructor
  · intro h
    refine ⟨fun t heq => h [] t events (by rw [heq, List.nil_append]), fun before t after heq => ?_⟩
    exact h (event :: before) t after (by rw [heq, List.cons_append])
  · rintro ⟨hfirst, hrest⟩ before t after heq
    cases before with
    | nil =>
      cases heq
      exact hfirst t rfl
    | cons _ before =>
      cases heq
      exact hrest before t after rfl

theorem SparesResets.prefix {before after : List Event} (h : m.SparesResets (before ++ after)) :
    m.SparesResets before := by
  intro before' t after' heq
  exact h before' t (after' ++ after) (by rw [heq, List.append_assoc, List.cons_append])

/-! ## Runs without loss -/

/-- What holds at every moment of a run in which only look-ups are cancelled. -/
structure Tidy (m : ProxyMap) : Prop where
  consistent : m.Consistent
  accounted : m.Accounted
  lookUpsSpare : m.LookUpsSpare

theorem Tidy.empty (name : String) : Tidy { name := name } where
  consistent := .empty name
  accounted e entry hentry := by simp at hentry
  lookUpsSpare t id s e ht := by simp at ht

theorem Tidy.moves (h : m.Tidy) (hmoves : Moves (· = .lookUp) t m m') : m'.Tidy where
  consistent := hmoves.consistent h.consistent
  accounted := hmoves.induct (fun _ _ hm hmove ha => hmove.accounted hm ha) h.consistent h.accounted
  lookUpsSpare := hmoves.induct (fun _ _ _ hmove hl => hmove.lookUpsSpare hl) h.consistent
    h.lookUpsSpare

/-- An event loses nothing unless it cancels a reset or a close. -/
theorem Tidy.step_moves (hm : m.Tidy) (event : Event)
    (hspares : ∀ t, event = .cancel t → ∀ call s, m.tasks[t]? = some ⟨call, s⟩ →
      ∃ id, call = .lookUp id) : Moves (· = .lookUp) (event.actor m) m (m.step event) := by
  refine ProxyMap.step_moves _ hm.consistent event fun loss hloss => ?_
  cases loss with
  | lookUp => rfl
  | entry =>
    obtain ⟨t, e, rfl, hr⟩ := hloss
    obtain ⟨s, hs⟩ := hr.exists_stage
    obtain ⟨call, htask⟩ := stage?_eq_some_iff.mp hs
    obtain ⟨id, rfl⟩ := hspares t rfl call s htask
    exact (hm.lookUpsSpare t id s e htask hr).elim

/-- What moves keep, runs keep in which only look-ups are cancelled. -/
theorem Tidy.run_induct {P : ProxyMap → Prop}
    (hmoves : ∀ {t m m'}, m.Tidy → Moves (· = .lookUp) t m m' → P m → P m') (hm : m.Tidy)
    {events : List Event} (hspares : m.SparesResets events) (hP : P m) : P (m.run events) := by
  suffices hboth : (m.run events).Tidy ∧ P (m.run events) from hboth.2
  induction events using List.reverseRecOn with
  | nil => exact ⟨hm, hP⟩
  | append_singleton events event ih =>
    obtain ⟨htidy, hbefore⟩ := ih hspares.prefix
    have hstep := htidy.step_moves event fun t heq =>
      hspares events t [] (by rw [heq])
    rw [run_concat]
    exact ⟨htidy.moves hstep, hmoves htidy hstep hbefore⟩

theorem Tidy.run (hm : m.Tidy) {events : List Event} (hspares : m.SparesResets events) :
    (m.run events).Tidy :=
  hm.run_induct (fun hm hmoves _ => hm.moves hmoves) hspares hm

/-! ## Where a proxy is -/

/-- The factory has made the proxy. -/
def Made (h : Handle) (m : ProxyMap) : Prop :=
  ∃ c, m.creations[h]? = some c ∧ c.outcome = some .created

/-- The proxy is in the place. -/
def Custody.Holds (h : Handle) (m : ProxyMap) : Custody → Prop
  | cached => ∃ id e entry c, m.registry.get? id = some e ∧ m.entries[e]? = some entry ∧
      entry.slot = some h ∧ m.creations[h]? = some c ∧ c.peer.id = id
  | awaited => ∃ e entry t call s, (∀ id, m.registry.get? id ≠ some e) ∧
      m.entries[e]? = some entry ∧ entry.slot = some h ∧ m.tasks[t]? = some ⟨call, s⟩ ∧
      call.Resets entry.peer.id ∧ m.Retires t e ∧ t ∈ entry.queue
  | closed => ∃ c, m.creations[h]? = some c ∧ c.closeCalls ≠ []

/-- A proxy in a slot was made for the entry, and was not asked to close. -/
theorem Consistent.slot (hm : m.Consistent) {entry : ProxyEntry} (found : m.entries[e]? = some entry)
    (hslot : entry.slot = some h) : ∃ c, m.creations[h]? = some c ∧ c.entry = e ∧
      c.peer = entry.peer ∧ c.closeCalls = [] := by
  have hfits := hm.fits e entry found
  obtain ⟨c, hmade, houtcome⟩ := hfits.cached h hslot
  obtain ⟨hc, hce⟩ := around_made_eq_some_iff.mp hmade
  refine ⟨c, hc, hce, hfits.peer h c hmade, ?_⟩
  rcases hfits.created h c hmade houtcome with ⟨-, hcalls⟩ | ⟨hclosed, -⟩
  · exact hcalls
  · rw [hfits.slot_of_closed hclosed] at hslot
    cases hslot

theorem Tidy.exists_custody (hm : m.Tidy) (hmade : m.Made h) : ∃ k : Custody, k.Holds h m := by
  obtain ⟨c, hc, houtcome⟩ := hmade
  obtain ⟨entry, found⟩ := hm.consistent.exists_entry_of_made hc
  have hfits := hm.consistent.fits c.entry entry found
  have hmade := around_made_eq_some_iff.mpr ⟨hc, rfl⟩
  rcases hfits.created h c hmade houtcome with ⟨hslot, -⟩ | ⟨-, hcalls⟩
  -- a proxy that was not asked to close is in the slot of its entry
  · have hpeer := congrArg Peer.id (hfits.peer h c hmade)
    by_cases hreg : ∃ id, m.registry.get? id = some c.entry
    · obtain ⟨id, hid⟩ := hreg
      obtain ⟨entry', found', hentry⟩ := hm.consistent.registered id c.entry hid
      cases found.symm.trans found'
      exact ⟨.cached, id, c.entry, entry, c, hid, found, hslot, hc, hpeer.trans hentry⟩
    · rcases hm.accounted c.entry entry found with hid | ⟨entry', found', hstate⟩ | howed
      · exact absurd ⟨_, hid⟩ hreg
      · cases found.symm.trans found'
        rw [hfits.slot_of_closed hstate] at hslot
        cases hslot
      · obtain ⟨t, call, s, htask, hresets, hr⟩ := howed
        exact ⟨.awaited, c.entry, entry, t, call, s, fun id hid => hreg ⟨id, hid⟩, found, hslot,
          htask, hresets, hr, (hm.consistent.mem_queue_iff found).mpr (.inr hr)⟩
  · exact ⟨.closed, c, hc, hcalls⟩

theorem Consistent.custody_unique (hm : m.Consistent) {k k' : Custody} (hk : k.Holds h m)
    (hk' : k'.Holds h m) : k = k' := by
  -- a proxy in a slot is in no other slot, and was not asked to close
  have hslots : ∀ {e e' : EntryId} {entry entry' : ProxyEntry}, m.entries[e]? = some entry →
      entry.slot = some h → m.entries[e']? = some entry' → entry'.slot = some h → e = e' := by
    intro e e' entry entry' found hslot found' hslot'
    obtain ⟨c, hc, rfl, -⟩ := hm.slot found hslot
    obtain ⟨c', hc', rfl, -⟩ := hm.slot found' hslot'
    cases hc.symm.trans hc'
    rfl
  have hclosed : ∀ {e : EntryId} {entry : ProxyEntry}, m.entries[e]? = some entry →
      entry.slot = some h → ∀ c, m.creations[h]? = some c → c.closeCalls ≠ [] → False := by
    intro e entry found hslot c hc hcalls
    obtain ⟨c', hc', -, -, hnone⟩ := hm.slot found hslot
    cases hc.symm.trans hc'
    exact hcalls hnone
  match k, k', hk, hk' with
  | .cached, .cached, _, _ | .awaited, .awaited, _, _ | .closed, .closed, _, _ => rfl
  | .cached, .awaited, ⟨id, e, entry, _, hid, found, hslot, _⟩,
      ⟨e', entry', _, _, _, hnot, found', hslot', _⟩ =>
    cases hslots found hslot found' hslot'
    exact absurd hid (hnot id)
  | .awaited, .cached, ⟨e', entry', _, _, _, hnot, found', hslot', _⟩,
      ⟨id, e, entry, _, hid, found, hslot, _⟩ =>
    cases hslots found hslot found' hslot'
    exact absurd hid (hnot id)
  | .cached, .closed, ⟨_, _, _, _, _, found, hslot, _⟩, ⟨c, hc, hcalls⟩
  | .closed, .cached, ⟨c, hc, hcalls⟩, ⟨_, _, _, _, _, found, hslot, _⟩ =>
    exact (hclosed found hslot c hc hcalls).elim
  | .awaited, .closed, ⟨_, _, _, _, _, _, found, hslot, _⟩, ⟨c, hc, hcalls⟩
  | .closed, .awaited, ⟨c, hc, hcalls⟩, ⟨_, _, _, _, _, _, found, hslot, _⟩ =>
    exact (hclosed found hslot c hc hcalls).elim

/-! ## After a close -/

theorem Tidy.retiredBy_run (hm : m.Tidy) {events : List Event} (hspares : m.SparesResets events)
    (hr : m.RetiredBy t e) : (m.run events).RetiredBy t e :=
  hm.run_induct (fun hm hmoves hr => hmoves.retiredBy hm.consistent hr) hspares hr

theorem Tidy.untouched_run (hm : m.Tidy) {events : List Event} (hspares : m.SparesResets events)
    (hclosed : m.closed = true) (hu : m.Untouched e) : (m.run events).Untouched e := by
  have hboth := hm.run_induct (P := fun m => m.closed = true ∧ m.Untouched e)
    (fun hm hmoves hP => ⟨(hmoves.grows hm.consistent).closed hP.1,
      hmoves.untouched hm.consistent hP.1 hP.2⟩) hspares ⟨hclosed, hu⟩
  exact hboth.2

/-- What a call was going to retire is closed when the call has ended. -/
theorem RetiredBy.isClosed (hr : m.RetiredBy t e) (hended : (m.ended? t).isSome) : m.IsClosed e := by
  rcases hr with hclosed | ⟨jobs, answer, hs, -⟩
  · exact hclosed
  · simp [ended?, hs] at hended

/-- A close that finds the map open leaves every entry to some call: to itself if the entry is
registered, and to an earlier reset if it was replaced before. -/
theorem Tidy.begin_close (hm : m.Tidy) (hopen : m.closed = false) (now : Nat) (factory : Factory) :
    (∀ id e, m.registry.get? id = some e →
      (m.begin now factory .close).RetiredBy m.tasks.length e) ∧
    ∀ e, (m.begin now factory .close).RetiredBy m.tasks.length e ∨
      (∃ u call s id, m.tasks[u]? = some ⟨call, s⟩ ∧ call.Resets id ∧
        (m.begin now factory .close).RetiredBy u e) ∨ (m.begin now factory .close).Untouched e := by
  have hc := hm.consistent
  have hbarMoves := bar_moves (· = .lookUp) m
  have hbar := hbarMoves.consistent hc
  obtain ⟨mid, hmid, hretires, hrest⟩ :=
    begin_close_moves (· = .lookUp) now factory hc hopen
  have hmoves : Moves (· = .lookUp) m.tasks.length m (m.begin now factory .close) := begin_moves hc
  have hregistered : ∀ id e, m.registry.get? id = some e →
      (m.begin now factory .close).RetiredBy m.tasks.length e := fun id e hid =>
    hrest.moves.retiredBy (hmid.consistent hbar) (.inr (hretires id e hid))
  refine ⟨hregistered, fun e => ?_⟩
  cases found : m.entries[e]? with
  | some entry =>
    rcases hm.accounted e entry found with hid | hclosed | ⟨u, call, s, htask, hresets, hr⟩
    · exact .inl (hregistered _ e hid)
    · exact .inl (.inl (hclosed.grows (hmoves.grows hc)))
    · exact .inr (.inl ⟨u, call, s, _, htask, hresets, hmoves.retiredBy hc (.inr hr)⟩)
  | none =>
    -- the entry is made after the close, and nobody will ever look at it
    have hnot : ∀ id, m.registry.get? id ≠ some e := by
      intro id hid
      obtain ⟨entry, hentry, -⟩ := hc.registered id e hid
      cases found.symm.trans hentry
    have hcall : Move (· = .lookUp) m.tasks.length m (m.enter .close) := .call .close rfl
    have hshut : Move (· = .lookUp) m.tasks.length (m.enter .close) m.bar := .shut
    have hbarred : m.bar.Untouched e :=
      hshut.untouched (fun _ => hnot) (hcall.untouched (fun _ => hnot) (hc.untouched found))
    have hafter : Moves (· = .lookUp) m.tasks.length m.bar (m.begin now factory .close) :=
      hmid.trans hrest.moves
    exact .inr (.inr (hafter.untouched hbar rfl hbarred))

theorem SparesResets.suffix {before after : List Event} (h : m.SparesResets (before ++ after)) :
    (m.run before).SparesResets after := by
  intro before' t after' heq
  have hsplit := h (before ++ before') t after' (by rw [heq, List.append_assoc])
  rwa [run_append] at hsplit

/-- After a close and all resets before it have ended, every entry that there was is closed, and the
others were never looked up. -/
theorem Tidy.closed_or_untouched (hm : m.Tidy) (hopen : m.closed = false) {now : Nat}
    {factory : Factory} {after : List Event}
    (hspares : (m.begin now factory .close).SparesResets after)
    (hended : (((m.begin now factory .close).run after).ended? m.tasks.length).isSome)
    (hresets : ∀ u call s id, m.tasks[u]? = some ⟨call, s⟩ → call.Resets id →
      (((m.begin now factory .close).run after).ended? u).isSome) :
    (∀ id e, m.registry.get? id = some e → ((m.begin now factory .close).run after).IsClosed e) ∧
    ∀ e, ((m.begin now factory .close).run after).IsClosed e ∨
      ((m.begin now factory .close).run after).Untouched e := by
  have hc := hm.consistent
  have hmoves : Moves (· = .lookUp) m.tasks.length m (m.begin now factory .close) := begin_moves hc
  have hbegun := hm.moves hmoves
  obtain ⟨hregistered, hall⟩ := hm.begin_close hopen now factory
  refine ⟨fun id e hid => ?_, fun e => ?_⟩
  · exact (hbegun.retiredBy_run hspares (hregistered id e hid)).isClosed hended
  · rcases hall e with hr | ⟨u, call, s, id, htask, hcall, hr⟩ | hu
    · exact .inl ((hbegun.retiredBy_run hspares hr).isClosed hended)
    · exact .inl ((hbegun.retiredBy_run hspares hr).isClosed (hresets u call s id htask hcall))
    · have hshut : (m.begin now factory .close).closed = true := by
        obtain ⟨mid, hmid, -, hrest⟩ :=
          begin_close_moves (· = .lookUp) now factory hc hopen
        have hafter : Moves (· = .lookUp) m.tasks.length m.bar (m.begin now factory .close) :=
          hmid.trans hrest.moves
        exact (hafter.grows ((bar_moves (· = .lookUp) m).consistent hc)).closed rfl
      exact .inr (hbegun.untouched_run hspares hshut hu)

/-- As long as only look-ups are cancelled, every proxy that was made is in exactly one place. Once
the close that shuts the map has ended, and with it all resets that were there before it, every proxy
was asked to close, and the entries that were registered at the close are closed and empty. -/
theorem no_proxy_lost (name : String) (events : List Event)
    (hspares : SparesResets { name := name } events) :
    (∀ h, (reached name events).Made h →
      ∃! place : Custody, place.Holds h (reached name events)) ∧
    ∀ before now factory after, events = before ++ .begin now factory .close :: after →
      (reached name before).closed = false →
      ((reached name events).ended? (reached name before).tasks.length).isSome →
      (∀ u call s id, (reached name before).tasks[u]? = some ⟨call, s⟩ → call.Resets id →
        ((reached name events).ended? u).isSome) →
      (∀ h, (reached name events).Made h → Custody.closed.Holds h (reached name events)) ∧
      ∀ id e, (reached name before).registry.get? id = some e →
        ∃ entry, (reached name events).entries[e]? = some entry ∧
          entry.lifecycle.state = .closed ∧ entry.slot = none := by
  have hm : (reached name events).Tidy := (Tidy.empty name).run hspares
  refine ⟨fun h hmade => ?_, ?_⟩
  · obtain ⟨place, hplace⟩ := hm.exists_custody hmade
    exact ⟨place, hplace, fun other hother => hm.consistent.custody_unique hother hplace⟩
  · rintro before now factory after rfl hopen hended hresets
    -- the close is the first event of the rest of the run, and only look-ups are cancelled in it
    have hbefore : (reached name before).Tidy := (Tidy.empty name).run hspares.prefix
    have hsuffix := (sparesResets_cons.mp hspares.suffix).2
    have hrun : reached name (before ++ .begin now factory .close :: after) =
        ((reached name before).begin now factory .close).run after := run_append _ _ _
    rw [hrun] at hm hended hresets ⊢
    obtain ⟨hregistered, hall⟩ := hbefore.closed_or_untouched hopen hsuffix hended hresets
    refine ⟨fun h hmade => ?_, fun id e hid => ?_⟩
    · obtain ⟨c, hc, houtcome⟩ := hmade
      rcases hall c.entry with ⟨entry, found, hstate⟩ | hu
      · have hfits := hm.consistent.fits c.entry entry found
        rcases hfits.created h c (around_made_eq_some_iff.mpr ⟨hc, rfl⟩) houtcome with
          ⟨hslot, -⟩ | ⟨-, hcalls⟩
        · rw [hfits.slot_of_closed hstate] at hslot
          cases hslot
        · exact ⟨c, hc, hcalls⟩
      · exact absurd rfl (hu.2 h c hc)
    · obtain ⟨entry, found, hstate⟩ := hregistered id e hid
      exact ⟨entry, found, hstate, (hm.consistent.fits e entry found).slot_of_closed hstate⟩

/-- A look-up makes a proxy while a reset waits for its lock; the look-up that comes after the reset
is cancelled, and the map is closed before the proxy is there. -/
def race : List Event :=
  [.register ⟨⟨"a"⟩, "x"⟩, .begin 0 (fun _ _ => { delay := 5 }) (.lookUp ⟨"a"⟩),
    .begin 1 (fun _ _ => { delay := 5 }) (.reset ⟨"a"⟩),
    .begin 2 (fun _ _ => { delay := 5 }) (.lookUp ⟨"a"⟩), .cancel 2]

/-- The close, and the turns that bring everything to its end. -/
def raceEnd : List Event :=
  [.begin 3 (fun _ _ => {}) .close, .turn 5 (fun _ _ => {}) 0, .turn 5 (fun _ _ => {}) 1,
    .turn 5 (fun _ _ => {}) 1]

theorem no_proxy_lost_in_race :
    SparesResets { name := "m" } (race ++ raceEnd) ∧ (reached "m" race).closed = false ∧
      (reached "m" (race ++ raceEnd)).Made 0 ∧
      (∃! place : Custody, place.Holds 0 (reached "m" (race ++ raceEnd))) ∧
      Custody.closed.Holds 0 (reached "m" (race ++ raceEnd)) ∧
      ∃ entry, (reached "m" (race ++ raceEnd)).entries[1]? = some entry ∧
        entry.lifecycle.state = .closed ∧ entry.slot = none := by
  have hspares : SparesResets { name := "m" } (race ++ raceEnd) := by
    simp only [race, raceEnd, List.cons_append, List.nil_append, sparesResets_cons, reduceCtorEq,
      IsEmpty.forall_iff, implies_true, sparesResets_nil, true_and, and_true, Event.cancel.injEq]
    rintro t rfl call s htask
    cases htask
    exact ⟨_, rfl⟩
  have hopen : (reached "m" race).closed = false := by decide
  have hmade : (reached "m" (race ++ raceEnd)).Made 0 := ⟨_, rfl, rfl⟩
  have htheorem := no_proxy_lost "m" (race ++ raceEnd) hspares
  have hafter := htheorem.2 race 3 (fun _ _ => {}) raceEnd.tail rfl hopen (by decide) ?_
  · exact ⟨hspares, hopen, hmade, htheorem.1 0 hmade, hafter.1 0 hmade, hafter.2 ⟨"a"⟩ 1 (by decide)⟩
  · intro u call s id htask hcall
    match u with
    | 0 | 2 =>
      cases htask
      exact hcall.elim
    | 1 => decide
    | _ + 3 => cases htask

end Replica.ProxyMap
