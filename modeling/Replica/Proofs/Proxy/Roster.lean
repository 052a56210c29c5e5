import Replica.Proofs.Proxy.Construction
import Replica.Proofs.Proxy.Repairing
import Replica.Proofs.Proxy.Separation
import Replica.Proofs.Text.Bytes

/-!
# Who is registered

A proxy map knows the peers that were ever registered, and each of them as it was registered first
(`firstPeer?`). Later registrations of an id change nothing, a reset makes the fresh entry for the peer of
the old one, and nothing is ever taken out. So all entries and all calls of the factory are for peers as
they were first registered (`Lists`), whatever else has happened and whether the map is closed or not.

Moves say which peers entries are made for. That a call which begins registers nobody new cannot be read off
its moves, and is shown on its own (`contains_begin`).
-/

namespace Replica

theorem Registry.mem_ids_iff {α : Type} {r : Registry α} {id : PeerId} :
    id ∈ r.ids ↔ (r.get? id).isSome := by
  induction r with
  | nil => simp [ids, get?]
  | cons hd tl ih =>
    obtain ⟨j, w⟩ := hd
    rw [get?]
    split
    · next hj => simp [ids, hj]
    · next hj => simpa [ids, Ne.symm hj] using ih

namespace ProxyMap

variable {may : Loss → Prop} {m m' : ProxyMap} {name : String} {events : List Event} {event : Event}
variable {id : PeerId} {e : EntryId} {t : TaskId} {s : ProxyStage} {now : Nat} {factory : Factory}
variable {given : PeerId → Option Peer}

/-! ## First registrations -/

/-- The peer that an event registers. -/
def Event.peer? : Event → Option Peer
  | .register peer => some peer
  | _ => none

/-- The peer that was registered first of all with the id. -/
def firstPeer? (id : PeerId) (events : List Event) : Option Peer :=
  (events.filterMap Event.peer?).find? (·.id = id)

theorem mem_filterMap_peer? {peer : Peer} :
    peer ∈ events.filterMap Event.peer? ↔ .register peer ∈ events := by
  rw [List.mem_filterMap]
  constructor
  · rintro ⟨event, hmem, heq⟩
    cases event <;> cases heq
    exact hmem
  · exact fun hmem => ⟨_, hmem, rfl⟩

/-- An id has a first peer if it was ever registered. -/
theorem isSome_firstPeer? :
    (firstPeer? id events).isSome ↔ ∃ peer, .register peer ∈ events ∧ peer.id = id := by
  rw [firstPeer?, List.find?_isSome]
  simp only [mem_filterMap_peer?, decide_eq_true_eq]

theorem firstPeer?_append (later : List Event) :
    firstPeer? id (events ++ later) = (firstPeer? id events).or (firstPeer? id later) := by
  rw [firstPeer?, List.filterMap_append, List.find?_append]
  rfl

/-- The first peer of an id stays the first. -/
theorem firstPeer?_append_of_some {peer : Peer} (h : firstPeer? id events = some peer)
    (later : List Event) : firstPeer? id (events ++ later) = some peer := by
  rw [firstPeer?_append, h, Option.some_or]

theorem firstPeer?_concat (hnone : event.peer? = none) :
    firstPeer? id (events ++ [event]) = firstPeer? id events := by
  simp [firstPeer?, List.filterMap_append, hnone]

theorem firstPeer?_concat_register {peer : Peer} :
    firstPeer? id (events ++ [.register peer]) =
      (firstPeer? id events).or (if peer.id = id then some peer else none) := by
  rw [firstPeer?_append]
  congr 1
  simp only [firstPeer?, List.filterMap_cons, Event.peer?, List.filterMap_nil, List.find?_cons,
    List.find?_nil]
  split <;> simp_all

/-! ## What entries are for -/

/-- The map has an entry for each given peer, and for no other id, and all its entries are for the given
peers. -/
structure Lists (given : PeerId → Option Peer) (m : ProxyMap) : Prop where
  registered : ∀ id, m.contains id = (given id).isSome
  entries : ∀ (e : EntryId) (entry : ProxyEntry), m.entries[e]? = some entry →
    given entry.peer.id = some entry.peer

theorem Lists.empty (name : String) : Lists (fun _ => none) { name := name } where
  registered id := rfl
  entries e entry h := by cases h

theorem Lists.peer?_eq (hl : m.Lists given) (hm : m.Consistent) (id : PeerId) : m.peer? id = given id := by
  have hregistered := hl.registered id
  unfold peer? entry?
  cases hget : m.registry.get? id with
  | none =>
    rw [contains, hget] at hregistered
    exact (Option.isNone_iff_eq_none.mp (Option.isSome_eq_false_iff.mp hregistered.symm)).symm
  | some e =>
    obtain ⟨entry, found, rfl⟩ := hm.registered id e hget
    simp [found, hl.entries e entry found]

/-- A creation is for the peer of its entry. -/
theorem Lists.creation (hl : m.Lists given) (hm : m.Consistent) {h : Handle} {c : Creation}
    (hc : m.creations[h]? = some c) : given c.peer.id = some c.peer := by
  obtain ⟨entry, found⟩ := hm.exists_entry_of_made hc
  rw [(hm.fits _ entry found).peer h c (around_made_eq_some_iff.mpr ⟨hc, rfl⟩)]
  exact hl.entries _ entry found

/-- An entry is made for a peer that is not registered, or for the peer of another entry. -/
theorem Move.made (h : Move may t m m') {entry' : ProxyEntry} (found' : m'.entries[e]? = some entry') :
    (∃ entry, m.entries[e]? = some entry) ∨ m.registry.get? entry'.peer.id = none ∨
      ∃ (x : EntryId) (entry : ProxyEntry), m.entries[x]? = some entry ∧ entry'.peer = entry.peer := by
  cases h with
  | advance h => exact .inl (h.old found')
  | enrol absent =>
    rcases getElem?_concat_eq_some_iff.mp found' with found | ⟨-, rfl⟩
    · exact .inl ⟨_, found⟩
    · exact .inr (.inl absent)
  | call | shut => exact .inl ⟨_, found'⟩
  | join | await =>
    obtain ⟨entry, found, -⟩ := getElem?_modify_eq_some_iff.mp found'
    exact .inl ⟨entry, found⟩
  | @renew call id x entry a b task resets isOpen registered found =>
    rcases getElem?_concat_eq_some_iff.mp found' with hold | ⟨-, rfl⟩
    · obtain ⟨old, hold, -⟩ := getElem?_modify_eq_some_iff.mp hold
      exact .inl ⟨old, hold⟩
    · exact .inr (.inr ⟨x, entry, found, rfl⟩)

theorem Move.contains (h : Move may t m m') (hid : m.contains id = true) : m'.contains id = true := by
  obtain ⟨e, hget⟩ := Option.isSome_iff_exists.mp hid
  obtain ⟨x, hget'⟩ := h.exists_registered hget
  exact Option.isSome_iff_exists.mpr ⟨x, hget'⟩

/-- A move that registers nobody new makes entries for the given peers only. -/
theorem Move.lists (h : Move may t m m') (hm : m.Consistent) (hl : m.Lists given)
    (hnobody : ∀ id, m'.contains id = true → (given id).isSome) : m'.Lists given where
  registered id := by
    rw [Bool.eq_iff_iff]
    exact ⟨hnobody id, fun hgiven => h.contains ((hl.registered id).trans hgiven)⟩
  entries x entry' found' := by
    have hkept (hold : ∃ entry, m.entries[x]? = some entry) :
        given entry'.peer.id = some entry'.peer := by
      obtain ⟨entry, found⟩ := hold
      obtain ⟨entry'', found'', hpeer, -⟩ := (h.grows hm).entries x entry found
      cases found'.symm.trans found''
      rw [hpeer]
      exact hl.entries x entry found
    rcases h.old_or_registered found' with hold | hregistered
    · exact hkept hold
    · rcases h.made found' with hold | hnone | ⟨k, entry, found, hpeer⟩
      · exact hkept hold
      · -- the id of a new entry is registered, and so was registered before
        have hgiven := hnobody entry'.peer.id (Option.isSome_iff_exists.mpr ⟨x, hregistered⟩)
        rw [← hl.registered, ProxyMap.contains, hnone] at hgiven
        cases hgiven
      · rw [hpeer]
        exact hl.entries k entry found

theorem Moves.lists (h : Moves may t m m') (hm : m.Consistent) (hl : m.Lists given)
    (hnobody : ∀ id, m'.contains id = true → (given id).isSome) : m'.Lists given := by
  induction h with
  | refl => exact hl
  | tail hinit hlast ih =>
    -- who is registered on the way is registered at the end
    have hl' := ih fun id hid => hnobody id (hlast.contains hid)
    exact hlast.lists (Moves.consistent hinit hm) hl' hnobody

/-- A peer is registered that was not. -/
theorem Lists.enrol (hl : m.Lists given) {given' : PeerId → Option Peer} {peer : Peer}
    (hkept : ∀ id p, given id = some p → given' id = some p) (hpeer : given' peer.id = some peer)
    (hothers : ∀ id, id ≠ peer.id → given' id = given id) : (m.enrol peer).Lists given' where
  registered id := by
    by_cases hid : peer.id = id
    · subst hid
      simp [ProxyMap.contains, ProxyMap.enrol, Registry.get?_set, hpeer]
    · have hsame : (m.enrol peer).contains id = m.contains id := by
        simp [ProxyMap.contains, ProxyMap.enrol, Registry.get?_set, hid]
      rw [hsame, hl.registered, hothers id (Ne.symm hid)]
  entries x entry found := by
    rcases getElem?_concat_eq_some_iff.mp found with hold | ⟨-, rfl⟩
    · exact hkept _ _ (hl.entries x entry hold)
    · exact hpeer

/-! ## Nobody new -/

theorem registry_create : (m.create now factory t e).registry = m.registry := by
  unfold create
  split
  · rfl
  · dsimp only
    split
    · rfl
    · split
      · rfl
      · split <;> rfl

theorem registry_beginLookUp : (m.beginLookUp now factory t id).registry = m.registry := by
  unfold beginLookUp
  split
  · rfl
  · split
    · rfl
    · split
      · rfl
      · dsimp only
        split
        · exact registry_create
        · rfl

theorem contains_beginReset {call : ProxyCall} {id k : PeerId} {a b : ProxyAnswer} (hm : m.Consistent)
    (htask : m.tasks[t]? = some ⟨call, .retiring [] a⟩) (resets : call.Resets id) :
    (m.beginReset now t id b).contains k = m.contains k := by
  have hnone (hrenew : m.renew id = (m, none)) : (m.beginReset now t id b).contains k = m.contains k := by
    rw [beginReset, hrenew]
    rfl
  cases registered : m.registry.get? id with
  | none => exact hnone (by simp only [renew, registered])
  | some e =>
    cases hopen : m.closed with
    | true => exact hnone (by simp only [renew, registered, hopen, if_true])
    | false =>
      obtain ⟨entry, found, hid⟩ := hm.registered id e registered
      have hpath : Advances (fun _ => False) t (m.renewed t e entry b) (m.beginReset now t id b) :=
        (beginReset_path hm htask resets hopen registered found).2
      rw [contains, hpath.registry_eq]
      show ((m.registry.set entry.peer.id _).get? k).isSome = _
      rw [Registry.get?_set, hid]
      split
      · next hk => simp [contains, ← hk, registered]
      · rfl

theorem registry_foldl_lock {targets : List EntryId} :
    (targets.foldl (fun m e => m.modifyEntry e (.lock t)) m).registry = m.registry := by
  induction targets generalizing m with
  | nil => rfl
  | cons e rest ih => exact ih

/-- A call registers nobody. -/
theorem contains_begin {call : ProxyCall} (hm : m.Consistent) :
    (m.begin now factory call).contains id = m.contains id := by
  have hcall : Move (fun _ => False) m.tasks.length m (m.enter call) := .call call rfl
  have hentered := hcall.consistent hm
  have htask := tasks_enter (m := m) call
  cases call with
  | lookUp id' => exact congrArg (fun r => (Registry.get? id r).isSome) registry_beginLookUp
  | reset id' => exact contains_beginReset hentered htask rfl
  | repair id' error reconnect =>
    unfold begin
    dsimp only
    split
    · exact contains_beginReset hentered htask rfl
    · rfl
  | close =>
    cases hopen : m.closed with
    | true => simp [begin, hopen, contains, finish, setStage]
    | false =>
      have hrest := continueRetiring_advances (fun _ => False) now
        ((awaiting_moves (fun _ => False) hm).consistent ((bar_moves (fun _ => False) m).consistent hm))
        stage?_awaiting
      rw [contains, begin_close_eq now factory hopen, hrest.registry_eq]
      exact congrArg (fun r => (Registry.get? id r).isSome) registry_foldl_lock

/-- Only registrations register anybody. -/
theorem contains_step (hm : m.Consistent) (hnone : event.peer? = none) :
    (m.step event).contains id = m.contains id := by
  cases event with
  | register peer => cases hnone
  | begin now factory call => exact contains_begin hm
  | turn now factory t =>
    have hadvances : Advances (fun _ => True) t m (m.turn now factory t) := turn_advances hm
    rw [step, contains, hadvances.registry_eq, contains]
  | cancel t =>
    have hadvances : Advances (fun _ => True) t m (m.cancel t).1 :=
      cancel_advances hm (fun _ _ => trivial) fun _ _ => trivial
    rw [step, contains, hadvances.registry_eq, contains]

/-! ## Runs -/

theorem register_of_contains {peer : Peer} (h : m.contains peer.id = true) : m.register peer = m :=
  if_pos h

/-- The map has an entry for each peer that was ever registered, as it was registered first. -/
theorem Lists.reached (name : String) (events : List Event) :
    (reached name events).Lists fun id => firstPeer? id events := by
  induction events using List.reverseRecOn with
  | nil => exact .empty name
  | append_singleton events event ih =>
    have hm := Consistent.reached name events
    rw [reached_concat]
    by_cases hnone : event.peer? = none
    · simp only [firstPeer?_concat hnone]
      have hmoves := step_moves (fun _ => True) hm event fun _ _ => trivial
      refine hmoves.lists hm ih fun id hid => ?_
      rwa [contains_step hm hnone, ih.registered] at hid
    · cases event with
      | register peer =>
        simp only [firstPeer?_concat_register, ProxyMap.step]
        cases hfirst : firstPeer? peer.id events with
        | some first =>
          have hknown : (ProxyMap.reached name events).contains peer.id = true := by
            rw [ih.registered, hfirst]
            rfl
          have hsame : (fun id => (firstPeer? id events).or (if peer.id = id then some peer else none)) =
              fun id => firstPeer? id events := by
            funext id
            by_cases hid : peer.id = id
            · rw [← hid, hfirst, Option.some_or]
            · rw [if_neg hid, Option.or_none]
          rw [register_of_contains hknown, hsame]
          exact ih
        | none =>
          have hunknown : ¬ (ProxyMap.reached name events).contains peer.id = true := by
            rw [ih.registered, hfirst]
            exact Bool.false_ne_true
          rw [register, if_neg hunknown]
          refine Lists.enrol (m := ProxyMap.reached name events) ih (fun id p hp => ?_) ?_ fun id hid => ?_
          · rw [hp, Option.some_or]
          · rw [hfirst, if_pos rfl, Option.none_or]
          · rw [if_neg (Ne.symm hid), Option.or_none]
      | begin | turn | cancel => exact absurd rfl hnone

/-! ## Whom the factory is called for -/

variable {factory' : Factory}

/-- The factories do the same for every given peer. -/
def SameFor (given : PeerId → Option Peer) (factory factory' : Factory) : Prop :=
  ∀ made peer, given peer.id = some peer → factory made peer = factory' made peer

theorem create_congr (hentries : ∀ (e : EntryId) (entry : ProxyEntry), m.entries[e]? = some entry →
      given entry.peer.id = some entry.peer) (hagree : SameFor given factory factory') :
    m.create now factory t e = m.create now factory' t e := by
  unfold create
  cases found : m.entries[e]? with
  | none => rfl
  | some entry =>
    -- a creation under way is prepared for the peer of the entry
    have hprepare : ∀ entry', entry.prepare = .ok entry' → entry'.peer = entry.peer := by
      intro entry' hprepare
      unfold ProxyEntry.prepare at hprepare
      split at hprepare
      · cases hprepare
        rfl
      · cases htransition : entry.lifecycle.transition .starting with
        | error err => simp [htransition, Except.map] at hprepare
        | ok lifecycle =>
          simp only [htransition, Except.map, Except.ok.injEq] at hprepare
          rw [← hprepare]
    dsimp only
    split
    · rfl
    · split
      · rfl
      · split
        · rfl
        · next entry' hok =>
          have hpeer := hentries e entry found
          rw [← hprepare entry' hok] at hpeer
          rw [hagree _ _ hpeer]

/-- What factories do for other peers than those that were registered first has no effect on anything. -/
theorem step_congr (hl : m.Lists given) (hagree : SameFor given factory factory') :
    (∀ call, m.step (.begin now factory call) = m.step (.begin now factory' call)) ∧
      ∀ t, m.step (.turn now factory t) = m.step (.turn now factory' t) := by
  constructor
  · intro call
    cases call with
    | reset | repair | close => rfl
    | lookUp id =>
      simp only [step, begin, beginLookUp]
      split
      · rfl
      · split
        · rfl
        · split
          · rfl
          · split
            · refine create_congr (fun x entry found => ?_) hagree
              obtain ⟨old, hold, rfl⟩ := getElem?_modify_eq_some_iff.mp found
              split
              · rw [ProxyEntry.lock_peer]
                exact hl.entries x old hold
              · exact hl.entries x old hold
            · rfl
  · intro t
    simp only [step, turn]
    split
    · split
      · exact create_congr hl.entries hagree
      · rfl
    · rfl
    · rfl
    · rfl

/-! ## The main result -/

/-- What registrations come to in the map that the events lead to. -/
structure Registers (name : String) (events : List Event) : Prop where
  /-- The ids are those that were ever registered, -/
  ids : ∀ id, id ∈ (reached name events).ids ↔ ∃ peer, .register peer ∈ events ∧ peer.id = id
  /-- strictly in the order of their bytes, -/
  ordered : (reached name events).ids.Pairwise fun a b => Text.bytes a.name < Text.bytes b.name
  size : (reached name events).size = (reached name events).ids.length
  contains : ∀ id, (reached name events).contains id = true ↔ id ∈ (reached name events).ids
  /-- and each of them has the peer that was registered with it first, whatever happens later. -/
  peer : ∀ id, (reached name events).peer? id = firstPeer? id events
  stays : ∀ id peer, (reached name events).peer? id = some peer →
    ∀ later, (reached name (events ++ later)).peer? id = some peer
  /-- Another registration of an id changes nothing at all. -/
  again : ∀ peer, peer.id ∈ (reached name events).ids →
    reached name (events ++ [.register peer]) = reached name events
  /-- The factory was called for first peers only, -/
  creations : ∀ c ∈ (reached name events).creations, (reached name events).peer? c.peer.id = some c.peer
  /-- by the look-ups of their ids, -/
  calls : ∀ (t : TaskId) (id : PeerId) (e : EntryId) (h : Handle) (wake : Nat),
    (reached name events).tasks[t]? = some ⟨.lookUp id, .creating e h wake⟩ →
    ∃ c, (reached name events).creations[h]? = some c ∧ (reached name events).peer? id = some c.peer
  /-- and what it does for any other peer has no effect on anything that happens next. -/
  factory : ∀ now factory factory', SameFor (reached name events).peer? factory factory' →
    (∀ call, reached name (events ++ [.begin now factory call]) =
      reached name (events ++ [.begin now factory' call])) ∧
    ∀ t, reached name (events ++ [.turn now factory t]) = reached name (events ++ [.turn now factory' t])
  /-- A look-up of an id that is not there ends at once, and says which ids are, unless the map is closed. -/
  unknown : ∀ now factory id, (reached name events).closed = false → id ∉ (reached name events).ids →
    reached name (events ++ [.begin now factory (.lookUp id)]) =
      (reached name events).noted now (.lookUp id)
        (.proxy (.error (.notFound name id (reached name events).ids)))

/-- A map knows exactly the peers that were ever registered, each as it was registered first. -/
theorem first_registrations_stay (name : String) (events : List Event) : Registers name events := by
  have hm := Consistent.reached name events
  have hl := Lists.reached name events
  have hpeer : ∀ id, (reached name events).peer? id = firstPeer? id events := hl.peer?_eq hm
  have hids : ∀ id, (reached name events).contains id = true ↔ id ∈ (reached name events).ids :=
    fun id => Registry.mem_ids_iff.symm
  refine ⟨fun id => ?_, ?_, ?_, hids, hpeer, fun id peer hfirst later => ?_, fun peer hmem => ?_,
    fun c hc => ?_, fun t id e h wake htask => ?_, fun now factory factory' hagree => ?_,
    fun now factory id hopen hmem => ?_⟩
  · rw [← hids, hl.registered, isSome_firstPeer?]
  · refine List.pairwise_map.mpr (hm.sorted.imp fun hlt => ?_)
    exact Text.lt_iff_bytes_lt.mp hlt
  · exact (List.length_map _).symm
  · rw [hpeer] at hfirst
    rw [(Lists.reached name (events ++ later)).peer?_eq (.reached name _),
      firstPeer?_append_of_some hfirst]
  · rw [reached_concat]
    exact register_of_contains ((hids _).mpr hmem)
  · obtain ⟨h, hget⟩ := List.getElem?_of_mem hc
    rw [hpeer]
    exact hl.creation hm hget
  · have hwithin := (Separate.reached name events).tasks t _ htask
    obtain ⟨-, c, hc, rfl⟩ := hwithin
    refine ⟨c, hc, ?_⟩
    rw [hpeer]
    exact hl.creation hm hc
  · have hagree : SameFor (fun id => firstPeer? id events) factory factory' := fun made peer hfirst =>
      hagree made peer ((hpeer _).trans hfirst)
    simp only [reached_concat]
    exact step_congr hl hagree
  · have hnone : ((reached name events).enter (.lookUp id)).registry.get? id = none := by
      rw [← hids, contains, Bool.not_eq_true, Option.isSome_eq_false_iff, Option.isNone_iff_eq_none] at hmem
      exact hmem
    rw [reached_concat]
    have hbegin : (reached name events).step (.begin now factory (.lookUp id)) =
        ((reached name events).enter (.lookUp id)).beginLookUp now factory
          (reached name events).tasks.length id := rfl
    rw [hbegin, beginLookUp, if_neg (by simp [enter, hopen]), hnone]
    refine finish_enter.trans ?_
    show (reached name events).noted now _
      (.proxy (.error (.notFound (reached name events).name id (reached name events).ids))) = _
    rw [ProxyMap.reached, name_run (.empty name)]

/-- A second address for an id is ignored, after a reset and after the map was closed. -/
example :
    let events : List Event := [.register ⟨"b", "first"⟩, .begin 0 (fun _ _ => {}) (.reset "b"),
      .register ⟨"b", "second"⟩, .begin 0 (fun _ _ => {}) .close, .register ⟨"a", "third"⟩,
      .register ⟨"a", "fourth"⟩]
    (reached "m" events).ids = ["a", "b"] ∧
      (reached "m" events).peer? "a" = some ⟨"a", "third"⟩ ∧
      (reached "m" events).peer? "b" = some ⟨"b", "first"⟩ := by
  decide

end ProxyMap

end Replica
