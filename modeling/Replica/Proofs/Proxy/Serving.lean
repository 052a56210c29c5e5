import Replica.Proofs.Proxy.Closing
import Replica.Proofs.Proxy.Precedence

/-!
# How look-ups are served

Since look-ups come before those who retire an entry, a look-up that holds the lock finds the entry
open. It is answered with a proxy, or calls the factory and is answered with what becomes of that: none
of the errors that the map itself can make ever reaches it once it has found its entry
(`LooksUp.served`).

When nobody can go on before time passes, an entry is in one of four states, there is a proxy in its
slot if and only if it runs, and its lock is held only by somebody who makes a proxy (`AtRest`).
-/

namespace Replica.ProxyMap

variable {t u : TaskId} {m : ProxyMap} {e : EntryId} {entry : ProxyEntry} {now : Nat}
variable {factory : Factory} {name : String} {events : List Event}

/-! ## At rest -/

/-- An entry at an instant at which nobody can go on. -/
structure AtRest (now : Nat) (m : ProxyMap) (e : EntryId) (entry : ProxyEntry) : Prop where
  state : entry.lifecycle.state = .new ∨ entry.lifecycle.state = .starting ∨
    entry.lifecycle.state = .running ∨ entry.lifecycle.state = .closed
  slot : entry.slot.isSome ↔ entry.lifecycle.state = .running
  /-- Whoever holds the lock makes a proxy for the entry, and will be making it for a while. -/
  lock : ∀ t, entry.owner = some t → entry.lifecycle.state = .starting ∧
    ∃ h wake c, m.stage? t = some (.creating e h wake) ∧ now < wake ∧
      m.creations[h]? = some c ∧ c.entry = e ∧ c.outcome = none

theorem owns_of_owner (found : m.entries[e]? = some entry) (howner : entry.owner = some t) :
    m.owns e t = true := by
  simp [owns, found, howner]

/-- When nobody can go on, whoever holds a lock waits for the factory. -/
theorem Consistent.creating_of_owner (hm : m.Consistent) (hquiet : m.isReady now t = false)
    (found : m.entries[e]? = some entry) (howner : entry.owner = some t) :
    ∃ h wake, m.stage? t = some (.creating e h wake) ∧ now < wake := by
  have howns := owns_of_owner found howner
  have hmem : t ∈ entry.queue := by
    rw [ProxyEntry.queue_of_owner howner]
    exact List.mem_cons_self
  rcases (hm.mem_queue_iff found).mp hmem with (hs | ⟨h, wake, hs⟩) | ⟨jobs, a, hs, hmem⟩
  · rw [isReady, hs] at hquiet
    exact absurd howns (Bool.eq_false_iff.mp hquiet)
  · rw [isReady, hs] at hquiet
    exact ⟨h, wake, hs, Nat.lt_of_not_le (of_decide_eq_false hquiet)⟩
  · rw [isReady, hs] at hquiet
    exact absurd howns (List.any_eq_false.mp hquiet _ hmem)

theorem Consistent.atRest (hm : m.Consistent) (hquiet : ∀ t, m.isReady now t = false)
    (found : m.entries[e]? = some entry) : AtRest now m e entry := by
  have hfits := hm.fits e entry found
  refine ⟨?_, ?_, fun t howner => ?_⟩
  · rcases hfits.slot with ⟨-, hs⟩ | ⟨-, hs | hs | hs⟩ <;> simp [hs]
  · rcases hfits.slot with ⟨hsome, hs⟩ | ⟨hnone, hs | hs | hs⟩
    · simp [hsome, hs]
    all_goals simp [hnone, hs]
  · obtain ⟨h, wake, hs, hlater⟩ := hm.creating_of_owner (hquiet t) found howner
    obtain ⟨-, hstate, ⟨c, hmade, houtcome⟩, -⟩ := hfits.making t h ⟨wake, hs⟩
    obtain ⟨hc, hce⟩ := around_made_eq_some_iff.mp hmade
    exact ⟨hstate, h, wake, c, hs, hlater, hc, hce, houtcome⟩

/-- When nobody can go on, a look-up that is under way waits for a creation for its entry. -/
theorem Consistent.awaits_creation (hm : m.Consistent) (hquiet : ∀ t, m.isReady now t = false)
    (hl : m.LooksAt t e) : ∃ u h wake, m.stage? u = some (.creating e h wake) ∧ now < wake := by
  have hstage : ∃ s, m.stage? t = some s ∧ e ∈ s.locks := by
    rcases hl with hs | ⟨h, wake, hs⟩
    · exact ⟨_, hs, List.mem_singleton.mpr rfl⟩
    · exact ⟨_, hs, List.mem_singleton.mpr rfl⟩
  obtain ⟨s, hs, hmem⟩ := hstage
  obtain ⟨entry, found⟩ := hm.exists_entry hs hmem
  have hnoLine := (hm.fits e entry found).noLineIfFree
  have hqueued := (hm.mem_queue_iff found).mpr (.inl hl)
  cases howner : entry.owner with
  | none => simp [ProxyEntry.queue, howner, hnoLine howner] at hqueued
  | some u => exact ⟨u, hm.creating_of_owner (hquiet u) found howner⟩

/-! ## Answers -/

/-- A look-up that holds the lock is answered with a proxy, or calls the factory. -/
theorem Ordered.create (ho : m.Ordered) (hm : m.Consistent) (now : Nat) (factory : Factory)
    (hstage : m.stage? t = some (.locking e)) :
    (∃ h, (m.create now factory t e).stage? t = some (.finished now (.proxy (.ok h)))) ∨
      (m.create now factory t e).LooksAt t e := by
  obtain ⟨entry, found⟩ := hm.exists_entry (e := e) hstage (List.mem_singleton.mpr rfl)
  have hfits := hm.fits e entry found
  have hopen : entry.lifecycle.state ≠ .closed := fun hs =>
    ho.closed e t ⟨entry, found, hs⟩ (.inl hstage)
  have hnot : entry.lifecycle.state.isClosingOrClosed = false :=
    Bool.eq_false_iff.mpr fun hs => hopen (hfits.isClosingOrClosed_iff.mp hs)
  unfold ProxyMap.create
  rw [found]
  cases hslot : entry.slot with
  | some h =>
    simp only [hslot]
    exact .inl ⟨h, stage?_setStage_self (m := m.modifyEntry e .unlock) hstage⟩
  | none =>
    simp only [hslot, hnot, Bool.false_eq_true, if_false, hfits.prepare_eq_ok hslot hopen]
    exact .inr (.inr ⟨m.creations.length, _,
      stage?_setStage_self (m := { m with entries := _, creations := _ }) hstage⟩)

/-- A look-up whose factory call has come to its end is answered with the proxy, or with the error with
which the factory has failed. -/
theorem Consistent.conclude (hm : m.Consistent) (now : Nat) {h : Handle} {wake : Nat}
    (hstage : m.stage? t = some (.creating e h wake)) :
    (m.conclude now t e h).stage? t = some (.finished now (.proxy (.ok h))) ∨
      ∃ c err, m.creations[h]? = some c ∧ c.script.failure = some err ∧
        (m.conclude now t e h).stage? t = some (.finished now (.proxy (.error err))) := by
  obtain ⟨entry, found⟩ := hm.exists_entry (e := e) hstage (List.mem_singleton.mpr rfl)
  have hmaking : (m.around e).making t h := ⟨wake, hstage⟩
  obtain ⟨-, hstate, ⟨c, hmade, -⟩, -⟩ := (hm.fits e entry found).making t h hmaking
  obtain ⟨hc, -⟩ := around_made_eq_some_iff.mp hmade
  unfold ProxyMap.conclude
  rw [found, hc]
  cases hfailure : c.script.failure with
  | none =>
    simp only [hfailure, ProxyEntry.install_eq hstate]
    exact .inl (stage?_setStage_self (m := modifyCreation h _ { m with entries := _ }) hstage)
  | some err =>
    simp only [hfailure]
    refine .inr ⟨c, err, rfl, hfailure, ?_⟩
    exact stage?_setStage_self (m := modifyCreation h _ { m with entries := _ }) hstage

/-- In the run, the call has made the factory fail with the error. -/
def FactoryFails (name : String) (events : List Event) (t : TaskId) (e : EntryId) (err : PeerError) :
    Prop :=
  ∃ before after h wake c, events = before ++ after ∧
    (reached name before).stage? t = some (.creating e h wake) ∧
    (reached name before).creations[h]? = some c ∧ c.script.failure = some err

theorem FactoryFails.append {err : PeerError} (h : FactoryFails name events t e err)
    (more : List Event) : FactoryFails name (events ++ more) t e err := by
  obtain ⟨before, after, h, wake, c, rfl, hrest⟩ := h
  exact ⟨before, after ++ more, h, wake, c, by simp, hrest⟩

/-- What may become of a look-up at an entry: it is under way, or cancelled, or answered with a proxy, or
with the error of its own factory call. -/
def Served (name : String) (events : List Event) (t : TaskId) (e : EntryId) : Prop :=
  (reached name events).LooksAt t e ∨ (reached name events).stage? t = some .cancelled ∨
    (∃ time h, (reached name events).ended? t = some (time, .proxy (.ok h))) ∨
    ∃ time err, (reached name events).ended? t = some (time, .proxy (.error err)) ∧
      FactoryFails name events t e err

theorem Served.of_stage?_eq (h : Served name events t e) {event : Event}
    (heq : (reached name (events ++ [event])).stage? t = (reached name events).stage? t) :
    Served name (events ++ [event]) t e := by
  simp only [Served, ended?_eq_some_iff] at h ⊢
  rcases h with hl | hs | ⟨time, h, hs⟩ | ⟨time, err, hs, hfails⟩
  · exact .inl (hl.of_stage?_eq heq)
  · exact .inr (.inl (heq.trans hs))
  · exact .inr (.inr (.inl ⟨time, h, heq.trans hs⟩))
  · exact .inr (.inr (.inr ⟨time, err, heq.trans hs, hfails.append _⟩))

/-- A look-up that has ended stands still. -/
theorem Served.looksAt_or_idle (h : Served name events t e) :
    (reached name events).LooksAt t e ∨
      ∃ s, (reached name events).stage? t = some s ∧
        (s = .cancelled ∨ ∃ time answer, s = .finished time answer) := by
  simp only [Served, ended?_eq_some_iff] at h
  rcases h with hl | hs | ⟨time, h, hs⟩ | ⟨time, err, hs, -⟩
  · exact .inl hl
  · exact .inr ⟨_, hs, .inl rfl⟩
  · exact .inr ⟨_, hs, .inr ⟨_, _, rfl⟩⟩
  · exact .inr ⟨_, hs, .inr ⟨_, _, rfl⟩⟩

theorem turn_of_idle {s : ProxyStage} (hs : m.stage? t = some s)
    (hidle : s = .cancelled ∨ ∃ time answer, s = .finished time answer) :
    m.turn now factory t = m := by
  unfold turn
  rcases hidle with rfl | ⟨time, answer, rfl⟩ <;> rw [hs]

theorem cancel_of_idle {s : ProxyStage} (hs : m.stage? t = some s)
    (hidle : s = .cancelled ∨ ∃ time answer, s = .finished time answer) : (m.cancel t).1 = m := by
  unfold cancel
  rcases hidle with rfl | ⟨time, answer, rfl⟩ <;> rw [hs]

/-- A turn of a look-up. -/
theorem Served.turn (h : Served name events t e) (now : Nat) (factory : Factory) :
    Served name (events ++ [.turn now factory t]) t e := by
  have hm := Consistent.reached name events
  have hstep : reached name (events ++ [.turn now factory t]) = (reached name events).turn now factory t :=
    reached_concat _
  rcases h.looksAt_or_idle with (hs | ⟨k, wake, hs⟩) | ⟨s, hs, hidle⟩
  · by_cases howns : (reached name events).owns e t = true
    · have hturn : (reached name events).turn now factory t =
          (reached name events).create now factory t e := by
        rw [ProxyMap.turn, hs]
        exact if_pos howns
      simp only [Served, ended?_eq_some_iff, hstep, hturn]
      rcases (Ordered.reached name events).create hm now factory hs with ⟨h, hanswer⟩ | hl
      · exact .inr (.inr (.inl ⟨now, h, hanswer⟩))
      · exact .inl hl
    · refine h.of_stage?_eq ?_
      rw [hstep, ProxyMap.turn, hs]
      simp only [if_neg howns, hs]
  · by_cases hwake : wake ≤ now
    · have hturn : (reached name events).turn now factory t =
          (reached name events).conclude now t e k := by
        rw [ProxyMap.turn, hs]
        exact if_pos hwake
      simp only [Served, ended?_eq_some_iff, hstep, hturn]
      rcases hm.conclude now hs with hanswer | ⟨c, err, hc, hfailure, hanswer⟩
      · exact .inr (.inr (.inl ⟨now, k, hanswer⟩))
      · exact .inr (.inr (.inr ⟨now, err, hanswer, events, _, k, wake, c, rfl, hs, hc, hfailure⟩))
    · refine h.of_stage?_eq ?_
      rw [hstep, ProxyMap.turn, hs]
      simp only [if_neg hwake, hs]
  · exact h.of_stage?_eq (by rw [hstep, turn_of_idle hs hidle])

/-- A look-up is cancelled, unless it has ended. -/
theorem Served.cancel (h : Served name events t e) : Served name (events ++ [.cancel t]) t e := by
  have hstep : reached name (events ++ [.cancel t]) = ((reached name events).cancel t).1 :=
    reached_concat _
  rcases h.looksAt_or_idle with (hs | ⟨k, wake, hs⟩) | ⟨s, hs, hidle⟩
  · refine .inr (.inl ?_)
    rw [hstep, ProxyMap.cancel, hs]
    exact stage?_setStage_self (m := (reached name events).modifyEntry e (.leave t)) hs
  · refine .inr (.inl ?_)
    rw [hstep, ProxyMap.cancel, hs]
    exact stage?_setStage_self (m := (reached name events).modifyEntry e (.leave t)) hs
  · exact h.of_stage?_eq (by rw [hstep, cancel_of_idle hs hidle])

/-- A look-up begins at an entry that it finds. -/
theorem served_begin {id : PeerId} (hopen : (reached name events).closed = false)
    (hget : (reached name events).registry.get? id = some e) :
    Served name (events ++ [.begin now factory (.lookUp id)]) (reached name events).tasks.length e := by
  have hm := Consistent.reached name events
  have hstep : reached name (events ++ [.begin now factory (.lookUp id)]) =
      (reached name events).begin now factory (.lookUp id) := reached_concat _
  obtain ⟨entry, found, -⟩ := hm.registered id e hget
  simp only [Served, ended?_eq_some_iff, hstep]
  cases hslot : entry.slot with
  | some h =>
    rw [begin_lookUp_of_slot hopen hget found hslot]
    have hstage := stage?_eq_some_iff.mpr ⟨_, tasks_enter (m := reached name events) (.lookUp id)⟩
    exact .inr (.inr (.inl ⟨now, h, stage?_setStage_self hstage⟩))
  | none =>
    rw [begin_lookUp_of_empty hopen hget found hslot]
    split
    -- the lock was free, so the look-up has its first turn with it
    · have hcall : Move (fun _ => False) (reached name events).tasks.length (reached name events)
          ((reached name events).enter (.lookUp id)) := .call _ rfl
      have hjoin : Move (fun _ => False) (reached name events).tasks.length
          ((reached name events).enter (.lookUp id)) ((reached name events).queued id e) :=
        .join (tasks_enter _) hopen hget found
      have hentered := hcall.consistent hm
      have hlive := Live.reached name events
      have hordered := hjoin.ordered hentered (hcall.live hm hlive)
        (hcall.ordered hm hlive (Ordered.reached name events))
      rcases hordered.create (hjoin.consistent hentered) now factory stage?_queued with
        ⟨h, hanswer⟩ | hl
      · exact .inr (.inr (.inl ⟨now, h, hanswer⟩))
      · exact .inl hl
    · exact .inl (.inl stage?_queued)

theorem stage?_step_of_ne (hm : m.Consistent) {event : Event} (hne : t ≠ event.actor m) :
    (m.step event).stage? t = m.stage? t :=
  (step_moves (fun _ => True) hm event fun _ _ => trivial).stage?_of_ne hm hne

theorem stage?_register (peer : Peer) : (m.register peer).stage? t = m.stage? t := by
  unfold register
  split <;> rfl

/-- Whatever happens, a look-up that has found its entry is answered with a proxy or with the error of
its own factory call, unless it is cancelled. -/
theorem LooksUp.served (h : LooksUp name events t e) : Served name events t e := by
  induction events using List.reverseRecOn with
  | nil =>
    obtain ⟨before, now, factory, id, after, heq, -⟩ := h
    simp at heq
  | append_singleton events event ih =>
    have hm := Consistent.reached name events
    rcases looksUp_concat h with h | ⟨now, factory, id, rfl, hopen, hget, rfl⟩
    · have hserved := ih h
      have hother : t ≠ event.actor (reached name events) → Served name (events ++ [event]) t e :=
        fun hne => hserved.of_stage?_eq (by rw [reached_concat, stage?_step_of_ne hm hne])
      cases event with
      | register peer =>
        exact hserved.of_stage?_eq (by rw [reached_concat, step, stage?_register])
      | turn now factory u =>
        rcases eq_or_ne t u with rfl | hne
        · exact hserved.turn now factory
        · exact hother hne
      | cancel u =>
        rcases eq_or_ne t u with rfl | hne
        · exact hserved.cancel
        · exact hother hne
      | begin now factory call =>
        -- the look-up has begun before, so the call that begins is another one
        refine hother ?_
        rintro rfl
        rcases hserved.looksAt_or_idle with (hs | ⟨k, wake, hs⟩) | ⟨s, hs, -⟩ <;>
          cases stage?_length.symm.trans hs
    · exact served_begin hopen hget

/-- In every run, with whatever is cancelled, and at every instant at which nobody can go on, each entry
is new, starting, running or closed, has a proxy in its slot if and only if it runs, and its lock is held
only by somebody who makes a proxy for it. A look-up that has found its entry in an open map is under
way, cancelled, or answered with a proxy or with the error of its own factory call; and when nobody can
go on, it is under way only as long as somebody makes a proxy for the entry. -/
theorem entries_at_rest_and_lookUps_served (name : String) (events : List Event) :
    (∀ now, (∀ t, (reached name events).isReady now t = false) →
      ∀ e entry, (reached name events).entries[e]? = some entry →
        AtRest now (reached name events) e entry) ∧
    (∀ t e, LooksUp name events t e → Served name events t e) ∧
    ∀ now, (∀ t, (reached name events).isReady now t = false) →
      ∀ t e, (reached name events).LooksAt t e →
        ∃ u h wake, (reached name events).stage? u = some (.creating e h wake) ∧ now < wake := by
  have hm := Consistent.reached name events
  refine ⟨fun now hquiet e entry found => hm.atRest hquiet found, fun t e h => h.served, ?_⟩
  exact fun now hquiet t e hl => hm.awaits_creation hquiet hl

/-- A look-up makes a proxy and is cancelled. The next one, which has waited for the lock, makes it in its
place and fails, and the third one waits behind it, before a reset. -/
def relay : List Event :=
  let factory : Factory := fun creations _ =>
    { delay := 5, failure := if creations.length = 1 then some (.timeout 7) else none }
  [.register ⟨⟨"a"⟩, "x"⟩, .begin 0 factory (.lookUp ⟨"a"⟩), .begin 1 factory (.lookUp ⟨"a"⟩),
    .begin 1 factory (.lookUp ⟨"a"⟩), .begin 2 factory (.reset ⟨"a"⟩), .cancel 0, .turn 3 factory 1,
    .turn 8 factory 1, .turn 8 factory 2]

/-- The second look-up gets its own error. The third one makes the proxy at the entry that is already
replaced, while the reset waits behind it. -/
theorem entries_at_rest_in_relay : LooksUp "m" relay 1 0 ∧
    (reached "m" relay).ended? 1 = some (8, .proxy (.error (.timeout 7))) ∧
    Served "m" relay 1 0 ∧ (reached "m" relay).stage? 2 = some (.creating 0 2 13) ∧
    (∀ t, (reached "m" relay).isReady 8 t = false) ∧
    ∀ entry, (reached "m" relay).entries[0]? = some entry →
      AtRest 8 (reached "m" relay) 0 entry ∧ entry.owner = some 2 ∧
        entry.lifecycle.state = .starting := by
  have hlooks : LooksUp "m" relay 1 0 :=
    ⟨relay.take 2, 1, _, ⟨"a"⟩, relay.drop 3, rfl, by decide, by decide, by decide⟩
  have hquiet : ∀ t, (reached "m" relay).isReady 8 t = false
    | 0 | 1 | 2 | 3 => by decide
    | _ + 4 => rfl
  have htheorem := entries_at_rest_and_lookUps_served "m" relay
  refine ⟨hlooks, by decide, htheorem.2.1 1 0 hlooks, by decide, hquiet, fun entry found => ?_⟩
  refine ⟨htheorem.1 8 hquiet 0 entry found, ?_⟩
  cases found
  decide

end Replica.ProxyMap
