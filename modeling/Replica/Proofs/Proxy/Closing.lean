import Mathlib.Data.List.Induction
import Replica.Proofs.Proxy.Construction
import Replica.Proofs.Proxy.Ownership

/-!
# Proxies are closed once, and none is handed out afterwards

An entry lets go of its proxy at the moment at which the proxy is asked to close. So nobody finds it
there to ask it a second time (`ClosedOnce`), and whoever is answered with a proxy gets one that is
in service: it is in a slot, or was made just now. Neither needs that calls are carried through, so
look-ups, resets and closes may be cancelled wherever they wait.

A look-up may come to its answer in its first turn, after it has waited for the lock, or after it has
made the proxy itself. `Delivers` says for all three that the answer is good when it is given;
`PromisesNoProxy` says of the other calls that they are answered with no proxy at all. Whatever happens, a
call stays where it is or one of the two holds of it (`step_cases`).
-/

namespace Replica.ProxyMap

variable {may : Loss → Prop} {t u : TaskId} {m m' : ProxyMap} {e : EntryId} {h : Handle}
variable {now : Nat} {factory : Factory} {id : PeerId}

/-! ## How often a proxy is asked to close -/

/-- No proxy was asked to close more than once. -/
def ClosedOnce (m : ProxyMap) : Prop :=
  ∀ (h : Handle) (c : Creation), m.creations[h]? = some c → c.closeCalls.length ≤ 1

theorem ClosedOnce.empty (name : String) : ClosedOnce { name := name } := by
  intro h c hc
  simp at hc

/-- What else is noted in a creation does not matter. -/
theorem ClosedOnce.modify {g : Creation → Creation} (hm : m.ClosedOnce)
    (hg : ∀ c, (g c).closeCalls = c.closeCalls) (k : Handle) (c : Creation)
    (hc : (m.creations.modify h g)[k]? = some c) : c.closeCalls.length ≤ 1 := by
  obtain ⟨c₀, hc₀, rfl⟩ := getElem?_modify_eq_some_iff.mp hc
  split
  · rw [hg]
    exact hm k c₀ hc₀
  · exact hm k c₀ hc₀

theorem Advance.closedOnce (h : Advance may t m m') (hm : m.Consistent) (honce : m.ClosedOnce) :
    m'.ClosedOnce := by
  cases h with
  | start stage =>
    intro k c hc
    rcases getElem?_concat_eq_some_iff.mp hc with hc | ⟨-, rfl⟩
    · exact honce k c hc
    · simp
  | answer | leave | finish | abandon => exact honce
  | succeed => exact honce.modify fun _ => rfl
  | fail => exact honce.modify fun _ => rfl
  | closed => exact honce.modify fun _ => rfl
  | @retire e entry pre post job a now stage found =>
    intro k c hc
    cases hslot : entry.slot with
    | none =>
      rw [act_creations, hslot] at hc
      exact honce k c hc
    | some h =>
      -- the proxy in the slot was not asked to close so far
      obtain ⟨c₀, hc₀, -, -, hcalls⟩ := hm.slot found hslot
      rw [act_creations, hslot] at hc
      obtain ⟨c₁, hc₁, rfl⟩ := getElem?_modify_eq_some_iff.mp hc
      split
      · next hk =>
        subst hk
        cases hc₀.symm.trans hc₁
        simp [Creation.askToClose, hcalls]
      · exact honce k c₁ hc₁

theorem Move.closedOnce (h : Move may t m m') (hm : m.Consistent) (honce : m.ClosedOnce) :
    m'.ClosedOnce := by
  cases h with
  | advance h => exact h.closedOnce hm honce
  | enrol | call | shut | join | await | renew => exact honce

theorem ClosedOnce.reached (name : String) (events : List Event) :
    (reached name events).ClosedOnce := by
  apply (Consistent.empty name).run_induct (P := ClosedOnce)
  · intro t m m' hm hmoves honce
    exact hmoves.induct (fun _ _ hm hmove honce => hmove.closedOnce hm honce) hm honce
  · exact .empty name

/-! ## Proxies in service -/

/-- The factory has made the proxy, and nobody has asked it to close. -/
def InService (h : Handle) (m : ProxyMap) : Prop :=
  ∃ c, m.creations[h]? = some c ∧ c.outcome = some .created ∧ c.closeCalls = []

/-- A cached proxy is in service. -/
theorem Consistent.inService (hm : m.Consistent) {entry : ProxyEntry}
    (found : m.entries[e]? = some entry) (hslot : entry.slot = some h) : m.InService h := by
  obtain ⟨c, hmade, houtcome⟩ := (hm.fits e entry found).cached h hslot
  obtain ⟨hc, -⟩ := around_made_eq_some_iff.mp hmade
  obtain ⟨c', hc', -, -, hcalls⟩ := hm.slot found hslot
  cases hc.symm.trans hc'
  exact ⟨c, hc, houtcome, hcalls⟩

/-- The call is a look-up, and if it was answered with a proxy then that is in service. -/
def Delivers (t : TaskId) (m : ProxyMap) : Prop :=
  (∃ e, m.LooksAt t e) ∨ m.stage? t = some .cancelled ∨
    ∃ now result, m.stage? t = some (.finished now (.proxy result)) ∧
      ∀ h, result = .ok h → m.InService h

theorem Delivers.not_retiring (hd : m.Delivers t) {jobs : List Retirement} {a : ProxyAnswer} :
    m.stage? t ≠ some (.retiring jobs a) := by
  intro hs
  rcases hd with ⟨e, hl | ⟨h, wake, hl⟩⟩ | hl | ⟨now, result, hl, -⟩ <;> cases hs.symm.trans hl

theorem Advance.delivers (h : Advance may t m m') (hm : m.Consistent) (hd : m.Delivers t) :
    m'.Delivers t := by
  cases h with
  | start stage => exact .inl ⟨_, .inr ⟨_, _, (stage?_act stage).trans (if_pos rfl)⟩⟩
  | answer stage found owner cached =>
    refine .inr (.inr ⟨_, _, (stage?_act stage).trans (if_pos rfl), fun h hh => ?_⟩)
    exact hm.inService found (cached h hh)
  | @succeed e h now wake entry c stage found made =>
    refine .inr (.inr ⟨_, _, (stage?_act stage).trans (if_pos rfl), fun k hk => ?_⟩)
    cases hk
    -- a proxy that was still being made was not asked to close
    obtain ⟨hmaking, -, hmade⟩ := hm.made_of_creating stage found made
    have hfits := hm.fits e entry found
    obtain ⟨-, -, ⟨c', hc', houtcome⟩, -⟩ := hfits.making t h hmaking
    cases hmade.symm.trans hc'
    have hcalls := hfits.uncreated h c hmade (by simp [houtcome])
    exact ⟨c.ended .created, getElem?_modify_eq_some_iff.mpr ⟨c, made, if_pos rfl⟩, rfl, hcalls⟩
  | fail stage => exact .inr (.inr ⟨_, _, (stage?_act stage).trans (if_pos rfl), nofun⟩)
  | leave _ stage => exact .inr (.inl ((stage?_act stage).trans (if_pos rfl)))
  | retire stage | closed stage | finish stage | abandon _ stage =>
    exact absurd stage hd.not_retiring

theorem Advances.delivers (h : Advances may t m m') (hm : m.Consistent) (hd : m.Delivers t) :
    m'.Delivers t := by
  suffices hboth : m'.Consistent ∧ m'.Delivers t from hboth.2
  induction h with
  | refl => exact ⟨hm, hd⟩
  | tail _ hlast ih => exact ⟨hlast.consistent ih.1, hlast.delivers ih.1 ih.2⟩

/-- A look-up that begins is answered with a proxy in service, if it is answered at once. -/
theorem begin_lookUp_delivers (hm : m.Consistent) :
    (m.begin now factory (.lookUp id)).Delivers m.tasks.length := by
  have hended : ∀ result, (∀ h, result = .ok h → m.InService h) →
      ((m.enter (.lookUp id)).finish now m.tasks.length (.proxy result)).Delivers m.tasks.length := by
    intro result hgood
    have hstage := stage?_eq_some_iff.mpr ⟨_, tasks_enter (m := m) (.lookUp id)⟩
    exact .inr (.inr ⟨_, _, stage?_setStage_self hstage, hgood⟩)
  cases hopen : m.closed with
  | true =>
    simp only [begin, beginLookUp, hopen, if_true]
    exact hended _ (by rintro _ ⟨⟩)
  | false =>
    cases hget : m.registry.get? id with
    | none =>
      simp only [begin, beginLookUp, hopen, hget, Bool.false_eq_true, if_false]
      exact hended _ (by rintro _ ⟨⟩)
    | some e =>
      obtain ⟨entry, found, -⟩ := hm.registered id e hget
      cases hslot : entry.slot with
      | some h =>
        rw [begin_lookUp_of_slot hopen hget found hslot]
        apply hended
        intro k hk
        cases hk
        exact hm.inService found hslot
      | none =>
        rw [begin_lookUp_of_empty hopen hget found hslot]
        have hqueued : (m.queued id e).Delivers m.tasks.length := .inl ⟨e, .inl stage?_queued⟩
        split
        · next howns =>
          have hcreate : Advances (fun _ => False) m.tasks.length (m.queued id e)
              ((m.queued id e).create now factory m.tasks.length e) :=
            create_advances (hm.queued hopen hget) stage?_queued howns
          exact hcreate.delivers (hm.queued hopen hget) hqueued
        · exact hqueued

/-! ## Calls that are answered with no proxy -/

/-- The call was answered so, or will be. -/
def Promises (t : TaskId) (a : ProxyAnswer) (m : ProxyMap) : Prop :=
  (∃ jobs, m.stage? t = some (.retiring jobs a)) ∨ ∃ now, m.stage? t = some (.finished now a)

/-- The call was answered with no proxy, or will be. -/
def PromisesNoProxy (t : TaskId) (m : ProxyMap) : Prop :=
  ∃ a, (∀ result, a ≠ .proxy result) ∧ m.Promises t a

/-- Calls that retire entries are answered with no proxy. -/
def Plain (m : ProxyMap) : Prop :=
  ∀ t jobs a, m.stage? t = some (.retiring jobs a) → ∀ result, a ≠ .proxy result

theorem Plain.empty (name : String) : Plain { name := name } := by
  intro t jobs a hs
  simp [stage?] at hs

theorem promises_continueRetiring {s : ProxyStage} {jobs : List Retirement} {a : ProxyAnswer}
    (hs : m.stage? t = some s) : (m.continueRetiring now t jobs a).Promises t a := by
  have hkept : (m.turnRetirements now t jobs).1.stage? t = some s := stage?_turnRetirements.trans hs
  unfold continueRetiring
  dsimp only
  split
  · exact .inr ⟨now, stage?_setStage_self hkept⟩
  · exact .inl ⟨_, stage?_setStage_self hkept⟩

theorem promises_beginRetiring {s : ProxyStage} {targets : List EntryId} {a : ProxyAnswer}
    (hs : m.stage? t = some s) : (m.beginRetiring now t targets a).Promises t a :=
  promises_continueRetiring (stage?_foldl_lock.trans hs)

theorem stage?_renew : (m.renew id).1.stage? t = m.stage? t := by
  unfold renew
  split
  · rfl
  · split
    · rfl
    · split <;> rfl

/-- A call that is not a look-up is answered with no proxy. -/
theorem begin_promisesNoProxy {call : ProxyCall} (hcall : ∀ id, call ≠ .lookUp id) :
    (m.begin now factory call).PromisesNoProxy m.tasks.length := by
  have hstage : (m.enter call).stage? m.tasks.length = some (.retiring [] .done) :=
    stage?_eq_some_iff.mpr ⟨call, tasks_enter call⟩
  have hfinish : ∀ a, (∀ result, a ≠ .proxy result) →
      ((m.enter call).finish now m.tasks.length a).PromisesNoProxy m.tasks.length :=
    fun a ha => ⟨a, ha, .inr ⟨now, stage?_setStage_self hstage⟩⟩
  have hreset : ∀ id a, (∀ result, a ≠ .proxy result) →
      ((m.enter call).beginReset now m.tasks.length id a).PromisesNoProxy m.tasks.length :=
    fun id a ha => ⟨a, ha, promises_beginRetiring (stage?_renew.trans hstage)⟩
  unfold begin
  dsimp only
  cases call with
  | lookUp id => exact absurd rfl (hcall id)
  | reset id => exact hreset id _ nofun
  | repair id error reconnect =>
    dsimp only
    split
    · exact hreset id _ nofun
    · exact hfinish _ nofun
  | close =>
    dsimp only
    split
    · exact hfinish _ nofun
    · exact ⟨.done, nofun, promises_beginRetiring hstage⟩

/-! ## Answers -/

/-- A call goes on where it stands, gives up, or does as its kind of call does. -/
theorem turn_cases (hm : m.Consistent) (hplain : m.Plain) :
    (m.turn now factory t).stage? t = m.stage? t ∨ (m.turn now factory t).Delivers t ∨
      (m.turn now factory t).PromisesNoProxy t := by
  have hadvances : Advances (fun _ => False) t m (m.turn now factory t) := turn_advances hm
  cases hs : m.stage? t with
  | none =>
    left
    simp [turn, hs]
  | some s =>
    cases s with
    | locking e => exact .inr (.inl (hadvances.delivers hm (.inl ⟨e, .inl hs⟩)))
    | creating e h wake => exact .inr (.inl (hadvances.delivers hm (.inl ⟨e, .inr ⟨h, wake, hs⟩⟩)))
    | retiring jobs a =>
      right; right
      have hturn : m.turn now factory t = m.continueRetiring now t jobs a := by simp only [turn, hs]
      rw [hturn]
      exact ⟨a, hplain t jobs a hs, promises_continueRetiring hs⟩
    | finished time a =>
      left
      simp [turn, hs]
    | cancelled =>
      left
      simp [turn, hs]

theorem cancel_cases : (m.cancel t).1.stage? t = m.stage? t ∨
    (m.cancel t).1.stage? t = some .cancelled := by
  unfold cancel
  split
  · next e hs => exact .inr (stage?_setStage_self (m := m.modifyEntry e (.leave t)) hs)
  · next e h wake hs => exact .inr (stage?_setStage_self (m := m.modifyEntry e (.leave t)) hs)
  · next jobs a hs => exact .inr (stage?_setStage_self (stage?_foldl_abandon.trans hs))
  · exact .inl rfl

/-- Whatever happens, a call stays where it is, or has delivered a proxy, or is answered with none. -/
theorem step_cases (hm : m.Consistent) (hplain : m.Plain) (event : Event) (t : TaskId) :
    (m.step event).stage? t = m.stage? t ∨ (m.step event).Delivers t ∨
      (m.step event).PromisesNoProxy t := by
  cases event with
  | register peer =>
    left
    simp only [step, register]
    split <;> rfl
  | begin now factory call =>
    rcases eq_or_ne t m.tasks.length with rfl | hne
    · right
      by_cases hcall : ∃ id, call = .lookUp id
      · obtain ⟨id, rfl⟩ := hcall
        exact .inl (begin_lookUp_delivers hm)
      · exact .inr (begin_promisesNoProxy fun id heq => hcall ⟨id, heq⟩)
    · have hmoves : Moves (fun _ => False) m.tasks.length m (m.begin now factory call) :=
        begin_moves hm
      exact .inl (hmoves.stage?_of_ne hm hne)
  | turn now factory u =>
    rcases eq_or_ne t u with rfl | hne
    · exact turn_cases hm hplain
    · have hadvances : Advances (fun _ => False) u m (m.turn now factory u) := turn_advances hm
      exact .inl (hadvances.moves.stage?_of_ne hm hne)
  | cancel u =>
    rcases eq_or_ne t u with rfl | hne
    · exact cancel_cases.imp_right fun hs => .inl (.inr (.inl hs))
    · have hadvances : Advances (fun _ => True) u m (m.cancel u).1 :=
        cancel_advances hm (fun _ _ => trivial) fun _ _ => trivial
      exact .inl (hadvances.moves.stage?_of_ne hm hne)

theorem Plain.step (hm : m.Consistent) (hplain : m.Plain) (event : Event) :
    (m.step event).Plain := by
  intro t jobs a hs
  rcases step_cases hm hplain event t with hsame | hd | ⟨b, hb, ⟨jobs', hs'⟩ | ⟨now, hs'⟩⟩
  · exact hplain t jobs a (hsame.symm.trans hs)
  · exact absurd hs hd.not_retiring
  · cases hs.symm.trans hs'
    exact hb
  · cases hs.symm.trans hs'

theorem Plain.reached (name : String) (events : List Event) : (reached name events).Plain := by
  induction events using List.reverseRecOn with
  | nil => exact .empty name
  | append_singleton events event ih =>
    rw [reached_concat]
    exact ih.step (Consistent.reached name events) event

theorem ended?_eq_some_iff {time : Nat} {a : ProxyAnswer} :
    m.ended? t = some (time, a) ↔ m.stage? t = some (.finished time a) := by
  unfold ended?
  split
  · next hs => simp [hs]
  · next hs =>
    simp only [reduceCtorEq, false_iff]
    exact hs time a

/-- Whoever is answered with a proxy gets one that the factory has made. -/
theorem made_of_ended {name : String} {events : List Event} {time : Nat}
    (hended : (reached name events).ended? t = some (time, .proxy (.ok h))) :
    ∃ c, (reached name events).creations[h]? = some c ∧ c.outcome = some .created := by
  rw [ended?_eq_some_iff] at hended
  induction events using List.reverseRecOn with
  | nil => simp [ProxyMap.reached, stage?] at hended
  | append_singleton events event ih =>
    have hm := Consistent.reached name events
    rw [reached_concat] at hended ⊢
    rcases step_cases hm (Plain.reached name events) event t with hsame | hd | ⟨a, ha, ⟨jobs, hs⟩ | ⟨now, hs⟩⟩
    · obtain ⟨c, hc, houtcome⟩ := ih (hsame ▸ hended)
      obtain ⟨c', hc', -, hmade⟩ := (Grows.run hm [event]).creations h c hc
      exact ⟨c', hc', hmade houtcome⟩
    · rcases hd with ⟨e, hl | ⟨k, wake, hl⟩⟩ | hl | ⟨now, result, hl, hgood⟩ <;>
        cases hended.symm.trans hl
      obtain ⟨c, hc, houtcome, -⟩ := hgood h rfl
      exact ⟨c, hc, houtcome⟩
    · cases hended.symm.trans hs
    · cases hended.symm.trans hs
      exact absurd rfl (ha _)

/-- Whatever is cancelled, no proxy is ever asked to close twice, and whenever a look-up comes to be
answered with a proxy, that was made and was not asked to close so far. -/
theorem closed_once_and_answered_in_service (name : String) (events : List Event) :
    (∀ (h : Handle) (c : Creation), (reached name events).creations[h]? = some c →
      c.closeCalls.length ≤ 1) ∧
    ∀ before event after t now h, events = before ++ event :: after →
      (reached name before).ended? t = none →
      (reached name (before ++ [event])).ended? t = some (now, .proxy (.ok h)) →
      (reached name (before ++ [event])).InService h := by
  refine ⟨ClosedOnce.reached name events, ?_⟩
  intro before event after t now h _ hbefore hafter
  rw [ended?_eq_some_iff] at hafter
  rw [reached_concat] at hafter ⊢
  have hm := Consistent.reached name before
  rcases step_cases hm (Plain.reached name before) event t with hsame | hd | ⟨a, ha, hs | hs⟩
  -- a call that stays where it is has not come to its answer just now
  · rw [hsame, ← ended?_eq_some_iff, hbefore] at hafter
    cases hafter
  · rcases hd with ⟨e, hl | ⟨k, wake, hl⟩⟩ | hl | ⟨time, result, hl, hgood⟩ <;>
      cases hafter.symm.trans hl
    exact hgood h rfl
  · obtain ⟨jobs, hs⟩ := hs
    cases hafter.symm.trans hs
  · obtain ⟨time, hs⟩ := hs
    cases hafter.symm.trans hs
    exact absurd rfl (ha _)

/-- One look-up makes the proxy, another one waits for the lock behind it, and a reset behind both.
The reset is cancelled while the proxy is closing, and the map is closed twice. -/
def pursuit : List Event :=
  [.register ⟨⟨"a"⟩, "x"⟩, .begin 0 (fun _ _ => { delay := 5, closeDelay := 9 }) (.lookUp ⟨"a"⟩),
    .begin 1 (fun _ _ => {}) (.lookUp ⟨"a"⟩), .begin 2 (fun _ _ => {}) (.reset ⟨"a"⟩),
    .turn 5 (fun _ _ => {}) 0, .turn 5 (fun _ _ => {}) 1, .turn 5 (fun _ _ => {}) 2, .cancel 2,
    .begin 6 (fun _ _ => {}) .close, .begin 7 (fun _ _ => {}) .close]

/-- The look-up that has waited is answered with the proxy in service, which is closed just after it
and not again. -/
theorem closed_once_and_answered_in_pursuit :
    (reached "m" (pursuit.take 5)).ended? 1 = none ∧
      (reached "m" (pursuit.take 6)).ended? 1 = some (5, .proxy (.ok 0)) ∧
      (reached "m" (pursuit.take 6)).InService 0 ∧
      ∃ c, (reached "m" pursuit).creations[0]? = some c ∧ c.closeCalls = [5] ∧
        c.closeCalls.length ≤ 1 := by
  have htheorem := closed_once_and_answered_in_service "m" pursuit
  have hnone : (reached "m" (pursuit.take 5)).ended? 1 = none := by decide
  have hended : (reached "m" (pursuit.take 6)).ended? 1 = some (5, .proxy (.ok 0)) := by decide
  refine ⟨hnone, hended, ?_, _, rfl, rfl, htheorem.1 0 _ rfl⟩
  exact htheorem.2 (pursuit.take 5) (.turn 5 (fun _ _ => {}) 1) (pursuit.drop 6) 1 5 0 rfl hnone hended

end Replica.ProxyMap
