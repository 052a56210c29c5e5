import Replica.Proofs.Proxy.Closing
import Replica.Proofs.Proxy.Pursuing
import Replica.Proofs.Proxy.Replacing

/-!
# Resets are fresh

A reset has its effect in the step in which it is called, long before it ends: the peer is registered
with a fresh entry, and whoever looks it up from then on gets a proxy that was made after the reset, even
while the proxy that was replaced is still being made or closed. Look-ups from before stay with the entry
that they found (`Attends`, `Served`). The reset closes the entry that it has replaced and no other, and no
other call closes that one, so resets of one peer may overlap (`Exact`).

`Refreshed` puts this together for one reset in a run, and `resets_refresh` shows it of every reset of a
registered peer in an open map.
-/

namespace Replica.ProxyMap

variable {t u : TaskId} {m m' : ProxyMap} {e x : EntryId} {h : Handle} {id : PeerId} {call : ProxyCall}
variable {now : Nat} {factory : Factory} {name : String}

/-! ## The step of the reset -/

/-- A reset goes on from the map in which it has swapped the entry out. -/
theorem begin_renews (now : Nat) (factory : Factory) {entry : ProxyEntry} (hm : m.Consistent)
    (hrenews : call.Renews id) (hopen : m.closed = false) (registered : m.registry.get? id = some e)
    (found : m.entries[e]? = some entry) :
    ∃ b, Advances (· = .lookUp) m.tasks.length ((m.enter call).renewed m.tasks.length e entry b)
      (m.begin now factory call) := by
  have hcall : Move (· = .lookUp) m.tasks.length m (m.enter call) := .call call rfl
  have hpath : ∀ b, Advances (· = .lookUp) m.tasks.length
      ((m.enter call).renewed m.tasks.length e entry b)
      ((m.enter call).beginReset now m.tasks.length id b) := fun b =>
    (beginReset_path (hcall.consistent hm) (tasks_enter call) hrenews.resets hopen registered found).2
  cases call with
  | lookUp | close => exact hrenews.elim
  | reset id' =>
    cases hrenews
    exact ⟨.done, hpath .done⟩
  | repair id' error reconnect =>
    obtain ⟨rfl, hasks⟩ := hrenews
    refine ⟨.repaired true, ?_⟩
    have hbegin : m.begin now factory (.repair id' error reconnect) =
        (m.enter (.repair id' error reconnect)).beginReset now m.tasks.length id' (.repaired true) := by
      simp only [begin, hasks, if_true]
      rfl
    rw [hbegin]
    exact hpath (.repaired true)

/-- After the step in which it is called, the reset has replaced the entry, which is closed or which it is
going to retire, and has closed nothing else; the peer is registered with a fresh entry. -/
theorem begin_replaces (now : Nat) (factory : Factory) (hm : m.Consistent) (hlive : m.Live)
    (hrenews : call.Renews id) (hopen : m.closed = false) (registered : m.registry.get? id = some e) :
    (m.begin now factory call).Replaces m.tasks.length e ∧
      Exact m.tasks.length e m.tasks.length m (m.begin now factory call) ∧
      (m.begin now factory call).RegisteredPast m.entries.length id ∧
      (m.begin now factory call).RetiredBy m.tasks.length e := by
  obtain ⟨entry, found, -⟩ := hm.registered id e registered
  obtain ⟨b, hrest⟩ := begin_renews now factory hm hrenews hopen registered found
  have hcall : Move (· = .lookUp) m.tasks.length m (m.enter call) := .call call rfl
  have hentered := hcall.consistent hm
  have hmove : Move (· = .lookUp) m.tasks.length (m.enter call)
      ((m.enter call).renewed m.tasks.length e entry b) :=
    .renew (tasks_enter call) hrenews.resets hopen registered found
  have hrenewed := hmove.consistent hentered
  -- swapping the entry out closes nothing
  have hexact : Exact m.tasks.length e m.tasks.length m
      ((m.enter call).renewed m.tasks.length e entry b) :=
    ⟨fun x hx => .inl (isClosed_of_act (m := m.enter call) found ProxyEntry.lock_lifecycle
      (isClosed_enrol hx)), fun k c hc hcalls => .inl ⟨c, hc, hcalls⟩⟩
  obtain ⟨hreplaces, hexact⟩ := hrest.moves.exact hrenewed
    (renewed_replaces hentered (hcall.live hm hlive) (tasks_enter call) hrenews.resets hopen
      registered found) hexact
  refine ⟨hreplaces, hexact, ?_, hrest.moves.retiredBy hrenewed (.inr ?_)⟩
  · exact hrest.moves.induct (fun _ _ hm hmove hP => hmove.registeredPast hm hP) hrenewed
      (renewed_registeredPast (m := m.enter call) hentered registered found)
  · have hstage : (m.enter call).stage? m.tasks.length = some (.retiring [] .done) :=
      stage?_eq_some_iff.mpr ⟨call, tasks_enter call⟩
    exact ⟨_, _, (stage?_act hstage).trans (if_pos rfl), List.mem_singleton_self _⟩

/-- What the step of the reset has brought about lasts. -/
theorem Replaces.run (hm : m.Consistent) (hr : m.Replaces t e) (events : List Event) :
    (m.run events).Replaces t e :=
  hm.run_induct (fun hm hmoves hP => (hmoves.exact hm hP (.refl t e _ _)).1) hr

theorem RegisteredPast.run {n : Nat} (hm : m.Consistent) (hr : m.RegisteredPast n id)
    (events : List Event) : (m.run events).RegisteredPast n id :=
  hm.run_induct (fun hm hmoves hP => hmoves.induct (fun _ _ hm hmove hP => hmove.registeredPast hm hP)
    hm hP) hr

/-! ## Look-ups after the reset -/

/-- A look-up is about the entry that is registered when it begins, and is answered with no proxy if the
map is closed. -/
theorem begin_lookUp_attends_registered (hm : m.Consistent) (hget : m.registry.get? id = some e) :
    (m.begin now factory (.lookUp id)).Attends m.tasks.length e := by
  cases hopen : m.closed with
  | false => exact begin_lookUp_attends hm hopen hget
  | true =>
    have hstage := stage?_eq_some_iff.mpr ⟨_, tasks_enter (m := m) (.lookUp id)⟩
    have hbegin : m.begin now factory (.lookUp id) = (m.enter (.lookUp id)).finish now m.tasks.length
        (.proxy (.error (.alreadyClosed m.name .closed))) := by
      simp [begin, beginLookUp, enter, hopen]
    rw [hbegin]
    exact .inr (.inr ⟨now, _, stage?_setStage_self hstage, by rintro _ ⟨⟩⟩)

theorem Attends.run (hm : m.Consistent) (ha : m.Attends t e) (events : List Event) :
    (m.run events).Attends t e :=
  hm.run_induct (fun hm hmoves ha => hmoves.attends hm ha) ha

theorem Attends.madeFor (ha : m.Attends t e) {time : Nat}
    (hended : m.ended? t = some (time, .proxy (.ok h))) : m.MadeFor e h := by
  rw [ended?_eq_some_iff] at hended
  rcases ha with (hs | ⟨k, wake, hs⟩) | hs | ⟨now, result, hs, hmade⟩ <;> cases hended.symm.trans hs
  exact hmade h rfl

/-- A proxy for an entry that did not exist was not being made either. -/
theorem MadeFor.length_le (hmade : m'.MadeFor x h) (hm : m.Consistent) (hgrows : Grows m m')
    (hx : m.entries.length ≤ x) : m.creations.length ≤ h := by
  refine Nat.not_lt.mp fun hlt => ?_
  obtain ⟨c, hc, hcx, -⟩ := hmade
  obtain ⟨c', hc', hentry, -⟩ := hgrows.creations h _ (List.getElem?_eq_getElem hlt)
  cases hc.symm.trans hc'
  obtain ⟨entry, found⟩ := hm.exists_entry_of_made (List.getElem?_eq_getElem hlt)
  rw [← hentry, hcx] at found
  exact absurd (lt_length_of_getElem? found) (Nat.not_lt.mpr hx)

/-! ## The end of the reset -/

/-- Every proxy that was made for a closed entry was asked to close, and once. -/
theorem IsClosed.closeCalls (hx : m.IsClosed e) (hm : m.Consistent) (honce : m.ClosedOnce)
    (hmade : m.MadeFor e h) : ∃ c, m.creations[h]? = some c ∧ c.closeCalls.length = 1 := by
  obtain ⟨c, hc, hce, houtcome⟩ := hmade
  have hcalls := hx.closeCalls_ne_nil hm hc hce houtcome
  exact ⟨c, hc, Nat.le_antisymm (honce h c hc) (List.length_pos_iff.mpr hcalls)⟩

/-! ## The main result -/

/-- What a reset that replaces entry `e` of the peer means in a run: `before` leads up to it, `event` is
the call, and `after` is what happens from then on. -/
structure Refreshed (name : String) (before : List Event) (event : Event) (after : List Event)
    (id : PeerId) (e : EntryId) : Prop where
  /-- At no moment from the call on is the peer missing, or registered with an entry from before. -/
  registered : ∀ mid rest, after = mid ++ rest →
    (reached name (before ++ event :: mid)).RegisteredPast (reached name before).entries.length id
  /-- A look-up of the peer that begins after the call is answered with no proxy that the factory was
  called for before. -/
  later : ∀ mid now factory rest, after = mid ++ .begin now factory (.lookUp id) :: rest →
    ∀ time h, (reached name (before ++ event :: after)).ended?
        (reached name (before ++ event :: mid)).tasks.length = some (time, .proxy (.ok h)) →
      (reached name before).creations.length ≤ h ∧
        ∃ x, (reached name before).entries.length ≤ x ∧
          (reached name (before ++ event :: after)).MadeFor x h
  /-- A look-up from before has found an entry from before, and is under way, cancelled, or answered with a
  proxy of that entry or with the error of its own factory call. -/
  earlier : ∀ t x, LooksUp name before t x → x < (reached name before).entries.length ∧
    (reached name (before ++ event :: after)).Attends t x ∧
    Served name (before ++ event :: after) t x
  /-- Of all that happens from the call on, the turns of the reset close the entry that it has replaced,
  and nothing else, and no other event closes that entry. -/
  exact : ∀ mid event' rest, event :: after = mid ++ event' :: rest →
    Exact (reached name before).tasks.length e (event'.actor (reached name (before ++ mid)))
      (reached name (before ++ mid)) (reached name (before ++ mid ++ [event']))
  /-- When the reset has ended, the entry is closed, and its proxy was asked to close once. -/
  closed : ((reached name (before ++ event :: after)).ended? (reached name before).tasks.length).isSome →
    (∃ entry, (reached name (before ++ event :: after)).entries[e]? = some entry ∧
      entry.lifecycle.state = .closed ∧ entry.slot = none) ∧
    ∀ h, (reached name (before ++ event :: after)).MadeFor e h →
      ∃ c, (reached name (before ++ event :: after)).creations[h]? = some c ∧ c.closeCalls.length = 1

theorem Grows.reached (before after : List Event) :
    Grows (reached name before) (reached name (before ++ after)) := by
  rw [ProxyMap.reached, ProxyMap.reached, run_append]
  exact Grows.run (Consistent.reached name before) after

theorem reached_append_cons (before : List Event) (event : Event) (after : List Event) :
    reached name (before ++ event :: after) = ((reached name before).step event).run after :=
  run_append _ _ _

/-- Every reset of a registered peer in an open map is fresh: from its first step on, and whatever else
happens, look-ups of the peer get new proxies, earlier ones stay with the old generation, and the reset
closes exactly the generation that it has replaced. -/
theorem resets_refresh (name : String) (before after : List Event) (now : Nat) (factory : Factory)
    (call : ProxyCall) (id : PeerId) (e : EntryId) (hrenews : call.Renews id)
    (hopen : (reached name before).closed = false)
    (hget : (reached name before).registry.get? id = some e) :
    Refreshed name before (.begin now factory call) after id e := by
  have hm := Consistent.reached name before
  have hlive := Live.reached name before
  obtain ⟨hreplaces, hexact, hpast, hretired⟩ :=
    begin_replaces now factory hm hlive hrenews hopen hget
  have hbegun : ((reached name before).begin now factory call).Consistent :=
    hm.step (.begin now factory call)
  have hregistered : ∀ mid, (reached name (before ++ .begin now factory call :: mid)).RegisteredPast
      (reached name before).entries.length id := fun mid => by
    rw [reached_append_cons]
    exact hpast.run hbegun mid
  refine ⟨fun mid _ _ => hregistered mid, ?_, fun t x hlooks => ?_, ?_, fun hended => ?_⟩
  · rintro mid now' factory' rest rfl time h hended
    obtain ⟨-, x, hx, hle⟩ := hregistered mid
    have hmid := Consistent.reached name (before ++ .begin now factory call :: mid)
    have hrun : reached name (before ++ .begin now factory call :: (mid ++
          .begin now' factory' (.lookUp id) :: rest)) =
        ((reached name (before ++ .begin now factory call :: mid)).begin now' factory'
          (.lookUp id)).run rest := by
      rw [← List.cons_append, ← List.append_assoc]
      exact reached_append_cons _ _ _
    have hmade : (reached name (before ++ .begin now factory call :: (mid ++
        .begin now' factory' (.lookUp id) :: rest))).MadeFor x h := by
      rw [hrun] at hended ⊢
      exact ((begin_lookUp_attends_registered hmid hx).run
        (hmid.step (.begin now' factory' (.lookUp id))) rest).madeFor hended
    exact ⟨hmade.length_le hm (Grows.reached _ _) hle, x, hle, hmade⟩
  · refine ⟨?_, (hlooks.append _).attends, (hlooks.append _).served⟩
    obtain ⟨prior, _, _, id', rest, rfl, -, hfound, -⟩ := hlooks
    obtain ⟨entry, found, -⟩ := (Consistent.reached name prior).registered id' x hfound
    exact (lt_length_of_getElem? found).trans_le (Grows.reached _ _).length_le
  · intro mid event' rest heq
    rw [reached_concat]
    cases mid with
    | nil =>
      cases heq
      rw [List.append_nil]
      exact hexact
    | cons _ mid =>
      cases heq
      have hmid := Consistent.reached name (before ++ .begin now factory call :: mid)
      have hkept : (reached name (before ++ .begin now factory call :: mid)).Replaces
          (reached name before).tasks.length e := by
        rw [reached_append_cons]
        exact hreplaces.run hbegun mid
      exact ((step_moves (fun _ => True) hmid event' fun _ _ => trivial).exact hmid hkept
        (.refl _ _ _ _)).2
  · have hend := Consistent.reached name (before ++ .begin now factory call :: after)
    have hclosed : (reached name (before ++ .begin now factory call :: after)).IsClosed e := by
      rw [reached_append_cons] at hended ⊢
      exact (PursuedBy.run hbegun (.inl hretired) after).isClosed hended
    refine ⟨?_, fun h hmade => hclosed.closeCalls hend (ClosedOnce.reached name _) hmade⟩
    obtain ⟨entry, found, hstate⟩ := hclosed
    exact ⟨entry, found, hstate, (hend.fits e entry found).slot_of_closed hstate⟩

/-- A look-up makes a proxy while the peer is reset. The next look-up makes one for the fresh entry, and the
peer is reset again while both are under way; the last look-up comes after both resets. -/
def overlap : List Event :=
  let factory : Factory := fun _ _ => { delay := 5, closeDelay := 9 }
  [.register ⟨⟨"a"⟩, "x"⟩, .begin 0 factory (.lookUp ⟨"a"⟩), .begin 1 factory (.reset ⟨"a"⟩),
    .begin 2 factory (.lookUp ⟨"a"⟩), .begin 3 factory (.repair ⟨"a"⟩ (.timeout 7) true),
    .begin 4 factory (.lookUp ⟨"a"⟩), .turn 5 factory 0, .turn 5 factory 1, .turn 7 factory 2,
    .turn 7 factory 3, .turn 9 factory 4, .turn 14 factory 1]

/-- The look-up from before the resets gets the first proxy, the one between them the second, and the one
after them the third. The first reset ends with the first entry closed, while the second one still waits. -/
theorem resets_refresh_in_overlap :
    (ProxyCall.reset ⟨"a"⟩).Renews ⟨"a"⟩ ∧ (reached "m" (overlap.take 2)).closed = false ∧
      (reached "m" (overlap.take 2)).registry.get? ⟨"a"⟩ = some 0 ∧
      Refreshed "m" (overlap.take 2) (.begin 1 (fun _ _ => { delay := 5, closeDelay := 9 }) (.reset ⟨"a"⟩))
        (overlap.drop 3) ⟨"a"⟩ 0 ∧
      Refreshed "m" (overlap.take 4)
        (.begin 3 (fun _ _ => { delay := 5, closeDelay := 9 }) (.repair ⟨"a"⟩ (.timeout 7) true))
        (overlap.drop 5) ⟨"a"⟩ 1 ∧
      [0, 2, 4].map (reached "m" overlap).ended? =
        [some (5, .proxy (.ok 0)), some (7, .proxy (.ok 1)), some (9, .proxy (.ok 2))] ∧
      (reached "m" overlap).ended? 1 = some (14, .done) ∧ (reached "m" overlap).ended? 3 = none ∧
      (reached "m" overlap).creations.map (·.closeCalls) = [[5], [7], []] := by
  refine ⟨rfl, by decide, by decide, ?_, ?_, by decide, by decide, by decide, by decide⟩
  · exact resets_refresh "m" _ _ 1 _ _ ⟨"a"⟩ 0 rfl (by decide) (by decide)
  · exact resets_refresh "m" _ _ 3 _ _ ⟨"a"⟩ 1 ⟨rfl, rfl⟩ (by decide) (by decide)

end Replica.ProxyMap
