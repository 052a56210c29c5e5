import Replica.Proofs.Places
import Replica.Proofs.Proxy.Entry
import Replica.Proofs.Registry
import Replica.Proxy.Calls

/-!
# Calls around an entry

The surroundings of an entry are read off the map: the stages of the calls say who wants its lock and
who makes a proxy for it. Nearly everything that happens in a map happens at one entry and to one call
(`act`), and leaves the surroundings of the other entries alone (`around_act_of_ne`).
-/

namespace Replica

/-- The entry whose lock a retirement waits for. -/
def Retirement.lock? : Retirement → Option EntryId
  | .locking e => some e
  | _ => none

/-- Only a retirement that has not got the lock waits for it. -/
@[simp] theorem Retirement.lock?_locking (e : EntryId) : (locking e).lock? = some e := rfl

@[simp] theorem Retirement.lock?_closing (e : EntryId) (h : Handle) (wake : Nat) :
    (closing e h wake).lock? = none := rfl

@[simp] theorem Retirement.lock?_finished (e : EntryId) : (finished e).lock? = none := rfl

/-- A retirement waits for a lock exactly if it is about to lock its entry. -/
theorem Retirement.lock?_eq_some_iff {job : Retirement} {e : EntryId} :
    job.lock? = some e ↔ job = .locking e := by
  cases job <;> simp [lock?]

/-- A retirement that is over waits for no lock. -/
theorem Retirement.lock?_of_isFinished {job : Retirement} (h : job.isFinished = true) :
    job.lock? = none := by
  cases job <;> simp_all [isFinished, lock?]

namespace ProxyStage

/-- The entries whose locks a call at this stage holds or waits for. -/
def locks : ProxyStage → List EntryId
  | .locking e => [e]
  | .creating e _ _ => [e]
  | .retiring jobs _ => jobs.filterMap Retirement.lock?
  | _ => []

/-- A look-up that waits wants the lock of its entry. -/
@[simp] theorem locks_locking (e : EntryId) : (locking e).locks = [e] := rfl

/-- A call that makes a proxy holds the lock of its entry. -/
@[simp] theorem locks_creating (e : EntryId) (h : Handle) (wake : Nat) :
    (creating e h wake).locks = [e] := rfl

/-- A call that retires entries wants the locks that its retirements wait for. -/
@[simp] theorem locks_retiring (jobs : List Retirement) (answer : ProxyAnswer) :
    (retiring jobs answer).locks = jobs.filterMap Retirement.lock? := rfl

@[simp] theorem locks_finished (time : Nat) (answer : ProxyAnswer) :
    (finished time answer).locks = [] := rfl

@[simp] theorem locks_cancelled : cancelled.locks = [] := rfl

/-- No factory call is under way. -/
def IsCalm (s : ProxyStage) : Prop := ∀ e h wake, s ≠ creating e h wake

/-- A call that goes from one stage to the other gives up one place at the lock of `e`. -/
def Releases (e : EntryId) (s₀ s : ProxyStage) : Prop :=
  ∀ x, s₀.locks.count x = s.locks.count x + if e = x then 1 else 0

/-- A call that was at one lock and is at none any more has released it. -/
theorem releases_of_locks {e : EntryId} {s₀ s : ProxyStage} (h₀ : s₀.locks = [e])
    (h : s.locks = []) : s₀.Releases e s := by
  intro x
  simp [h₀, h, List.count_singleton]

end ProxyStage

namespace Creation

/-- The creation has ended. -/
def ended (outcome : CreationOutcome) (c : Creation) : Creation := { c with outcome := some outcome }

/-- The proxy is asked to close. -/
def askToClose (now : Nat) (c : Creation) : Creation :=
  { c with closeCalls := c.closeCalls ++ [now] }

/-- The proxy has closed. -/
def hasClosed (now : Nat) (c : Creation) : Creation := { c with closedAt := some now }

/-- Creations stay with their entries as they end. -/
theorem entry_ended (outcome : CreationOutcome) (c : Creation) :
    (c.ended outcome).entry = c.entry := rfl

/-- They do as they are asked to close. -/
theorem entry_askToClose (now : Nat) (c : Creation) : (c.askToClose now).entry = c.entry := rfl

/-- And as they have closed. -/
theorem entry_hasClosed (now : Nat) (c : Creation) : (c.hasClosed now).entry = c.entry := rfl

end Creation

namespace ProxyMap

variable {m : ProxyMap} {t u : TaskId} {e x : EntryId} {s s₀ : ProxyStage} {entry : ProxyEntry}

/-! ## Views -/

/-- The entries whose locks a call holds or waits for. -/
def wanted (t : TaskId) (m : ProxyMap) : List EntryId :=
  ((m.stage? t).map ProxyStage.locks).getD []

/-- The call is going to retire the entry. -/
def Retires (t : TaskId) (e : EntryId) (m : ProxyMap) : Prop :=
  ∃ jobs answer, m.stage? t = some (.retiring jobs answer) ∧ .locking e ∈ jobs

/-- The call is a look-up that waits for the entry's lock, or holds it. -/
def LooksAt (t : TaskId) (e : EntryId) (m : ProxyMap) : Prop :=
  m.stage? t = some (.locking e) ∨ ∃ h wake, m.stage? t = some (.creating e h wake)

/-- The surroundings of an entry. -/
def around (e : EntryId) (m : ProxyMap) : Surroundings where
  demand t := (m.wanted t).count e
  making t h := ∃ wake, m.stage? t = some (.creating e h wake)
  made h := m.creations[h]?.filter fun c => c.entry = e

/-- The surroundings of an entry have the creations that were made for it. -/
theorem around_made_eq_some_iff {h : Handle} {c : Creation} :
    (m.around e).made h = some c ↔ m.creations[h]? = some c ∧ c.entry = e := by
  simp [around, Option.filter_eq_some_iff]

/-- Nothing goes on around the entry. -/
def Quiet (e : EntryId) (m : ProxyMap) : Prop :=
  (∀ t, (m.around e).demand t = 0) ∧ ∀ h, (m.around e).made h = none

/-- What a call wants is read off its stage. -/
theorem wanted_eq (h : m.stage? t = some s) : m.wanted t = s.locks := by
  simp [wanted, h]

/-- A call is at the lock of an entry as often as its stage says. -/
theorem demand_of_stage? (h : m.stage? t = some s) : (m.around e).demand t = s.locks.count e := by
  simp only [around, wanted_eq h]

/-- A call that is at no lock of the entry makes no proxy for it. -/
theorem not_making_of_demand {h : Handle} (hd : (m.around e).demand t = 0) :
    ¬ (m.around e).making t h := by
  rintro ⟨wake, hs⟩
  simp [demand_of_stage? hs, ProxyStage.locks] at hd

/-! ## Changes of one place -/

/-- The stage of a call is part of its task. -/
theorem stage?_eq_some_iff : m.stage? t = some s ↔ ∃ c, m.tasks[t]? = some ⟨c, s⟩ := by
  unfold stage?
  rw [Option.map_eq_some_iff]
  constructor
  · rintro ⟨⟨c, s⟩, hc, rfl⟩
    exact ⟨c, hc⟩
  · rintro ⟨c, hc⟩
    exact ⟨_, hc, rfl⟩

/-- The stage of one call changes, and those of the others stay. -/
theorem stage?_setStage (h : m.stage? t = some s₀) :
    (m.setStage t s).stage? u = if t = u then some s else m.stage? u := by
  obtain ⟨c, hc⟩ := stage?_eq_some_iff.mp h
  simp only [stage?, setStage, List.getElem?_modify]
  split
  · next htu =>
    subst htu
    simp [hc]
  · simp

/-- A call is at the stage that it was set to. -/
theorem stage?_setStage_self (h : m.stage? t = some s₀) : (m.setStage t s).stage? t = some s := by
  rw [stage?_setStage h, if_pos rfl]

/-- Of two changes of one call's stage the last one counts. -/
theorem setStage_setStage : (m.setStage t s₀).setStage t s = m.setStage t s := by
  simp only [setStage, List.modify_modify_eq]
  rfl

/-- Setting a call to the stage that it has changes nothing. -/
theorem setStage_self (h : m.stage? t = some s) : m.setStage t s = m := by
  obtain ⟨c, hc⟩ := stage?_eq_some_iff.mp h
  suffices htasks : m.tasks.modify t (fun task => { task with stage := s }) = m.tasks by
    rw [setStage, htasks]
  apply List.ext_getElem?
  intro i
  rw [List.getElem?_modify]
  by_cases hi : t = i
  · simp [← hi, hc]
  · cases m.tasks[i]? <;> simp [hi]

/-- One call and one entry change, and with them the creations. -/
def act (e : EntryId) (f : ProxyEntry → ProxyEntry) (creations : List Creation) (t : TaskId)
    (s : ProxyStage) (m : ProxyMap) : ProxyMap :=
  { m.modifyEntry e f with creations }.setStage t s

variable {f : ProxyEntry → ProxyEntry} {creations : List Creation}

/-- What happens at an entry leaves the registry alone. -/
@[simp] theorem act_registry : (m.act e f creations t s).registry = m.registry := rfl

/-- It does not close the map. -/
@[simp] theorem act_closed : (m.act e f creations t s).closed = m.closed := rfl

@[simp] theorem act_creations : (m.act e f creations t s).creations = creations := rfl

/-- It changes one entry. -/
theorem act_entries : (m.act e f creations t s).entries = m.entries.modify e f := rfl

/-- It changes the stage of one call. -/
theorem stage?_act (h : m.stage? t = some s₀) :
    (m.act e f creations t s).stage? u = if t = u then some s else m.stage? u :=
  stage?_setStage (m := { m.modifyEntry e f with creations }) h

/-- The call is at the locks that its new stage says, and the others are where they were. -/
theorem around_act_demand (h : m.stage? t = some s₀) :
    ((m.act e f creations t s).around x).demand u =
      if t = u then s.locks.count x else (m.around x).demand u := by
  simp only [around, wanted, stage?_act h]
  split <;> rfl

/-- The call makes a proxy exactly if its new stage says so. -/
theorem around_act_making (h : m.stage? t = some s₀) {k : Handle} :
    ((m.act e f creations t s).around x).making u k ↔
      if t = u then ∃ wake, s = .creating x k wake else (m.around x).making u k := by
  simp only [around, stage?_act h]
  split <;> simp

/-- The creations around an entry are those of the map that was given. -/
theorem around_act_made {k : Handle} :
    ((m.act e f creations t s).around x).made k = creations[k]?.filter fun c => c.entry = x := rfl

/-- The surroundings of an entry stay the same when a call goes on to something that does not
concern it. -/
theorem around_act_of_ne (h : m.stage? t = some s₀) (hlocks : s.locks.count x = s₀.locks.count x)
    (hmaking : ∀ k wake, s = .creating x k wake ↔ s₀ = .creating x k wake)
    (hmade : ∀ k, creations[k]?.filter (fun c => c.entry = x) = (m.around x).made k) :
    (m.act e f creations t s).around x = m.around x := by
  have hd : ((m.act e f creations t s).around x).demand = (m.around x).demand := by
    funext u
    rw [around_act_demand h]
    split
    · next htu =>
      subst htu
      rw [hlocks, demand_of_stage? h]
    · rfl
  have hk : ((m.act e f creations t s).around x).making = (m.around x).making := by
    funext u k
    rw [around_act_making h]
    split
    · next htu =>
      subst htu
      simp only [around, h, Option.some.injEq, hmaking]
    · rfl
  have hc : ((m.act e f creations t s).around x).made = (m.around x).made := funext hmade
  exact Surroundings.ext hd hk hc

/-- A call that releases the lock of an entry leaves one place less at it. -/
theorem demand_of_releases (h : m.stage? t = some s₀) (hrel : s₀.Releases e s) (u : TaskId) :
    (m.around e).demand u =
      ((m.act e f creations t s).around e).demand u + if t = u then 1 else 0 := by
  rw [around_act_demand h]
  split
  · next htu =>
    subst htu
    rw [demand_of_stage? h, hrel, if_pos rfl]
  · rfl

/-- What happens at one entry is not seen at another one, if the call has left the lock and makes no
proxy. -/
theorem around_act_of_releases (h : m.stage? t = some s₀) (hrel : s₀.Releases e s)
    (hcalm₀ : ∀ k wake, s₀ ≠ .creating x k wake) (hcalm : s.IsCalm) (hx : x ≠ e)
    (hmade : ∀ k, creations[k]?.filter (fun c => c.entry = x) = (m.around x).made k) :
    (m.act e f creations t s).around x = m.around x := by
  refine around_act_of_ne h ?_ (fun k wake => ?_) hmade
  · rw [hrel, if_neg (Ne.symm hx), Nat.add_zero]
  · exact iff_of_false (hcalm x k wake) (hcalm₀ k wake)

/-- A new creation is seen at the entry that it was made for. -/
theorem made_concat {c : Creation} {k : Handle} :
    (m.creations ++ [c])[k]?.filter (fun c => c.entry = x) =
      if k = m.creations.length ∧ c.entry = x then some c else (m.around x).made k := by
  rcases Nat.lt_trichotomy k m.creations.length with hlt | rfl | hgt
  · simp [around, List.getElem?_append_left hlt, Nat.ne_of_lt hlt]
  · by_cases hx : c.entry = x <;> simp [around, hx, Option.filter]
  · have hnone : m.creations[k]? = none := List.getElem?_eq_none (Nat.le_of_lt hgt)
    have hnone' : (m.creations ++ [c])[k]? = none :=
      List.getElem?_eq_none (by simpa using Nat.succ_le_of_lt hgt)
    simp [around, hnone, hnone', Nat.ne_of_gt hgt]

/-- A change of one creation is seen at its entry as a change of this creation. -/
theorem made_modify {g : Creation → Creation} (hg : ∀ c, (g c).entry = c.entry) {h k : Handle} :
    (m.creations.modify h g)[k]?.filter (fun c => c.entry = x) =
      if k = h then ((m.around x).made k).map g else (m.around x).made k := by
  simp only [around, List.getElem?_modify]
  by_cases hk : h = k
  · cases hc : m.creations[k]? with
    | none => simp [hk]
    | some c => by_cases hx : c.entry = x <;> simp [hk, hg, hx, Option.filter]
  · cases hc : m.creations[k]? <;> simp [hk, Ne.symm hk]

/-- The creations after an entry with the given slot has been retired. -/
def askToClose (now : Nat) (slot : Option Handle) (creations : List Creation) : List Creation :=
  match slot with
  | none => creations
  | some h => creations.modify h (Creation.askToClose now)

/-- A fresh entry is registered for the peer, in place of any other. -/
def enrol (peer : Peer) (m : ProxyMap) : ProxyMap :=
  { m with
    registry := m.registry.set peer.id m.entries.length
    entries := m.entries ++ [.fresh peer] }

end ProxyMap

end Replica
