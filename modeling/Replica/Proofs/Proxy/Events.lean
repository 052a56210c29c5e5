import Replica.Proofs.Proxy.Beginnings

/-!
# Runs of a proxy map

A run is a sequence of events: peers are registered, calls begin, get their turns in any order and
are cancelled. The time and the factory are part of the event, so they may be anything at all, and
may differ from one event to the next.

Every event comes down to moves of one call (`step_moves`), so what moves keep, runs keep.
-/

namespace Replica.ProxyMap

/-- What happens to a proxy map. -/
inductive Event where
  | register (peer : Peer)
  | begin (now : Nat) (factory : Factory) (call : ProxyCall)
  | turn (now : Nat) (factory : Factory) (t : TaskId)
  | cancel (t : TaskId)

/-- The map after an event. -/
def step (m : ProxyMap) : Event → ProxyMap
  | .register peer => m.register peer
  | .begin now factory call => m.begin now factory call
  | .turn now factory t => m.turn now factory t
  | .cancel t => (m.cancel t).1

/-- The map after a sequence of events. -/
def run (m : ProxyMap) (events : List Event) : ProxyMap := events.foldl step m

@[simp] theorem run_nil (m : ProxyMap) : m.run [] = m := rfl

theorem run_append (m : ProxyMap) (before after : List Event) :
    m.run (before ++ after) = (m.run before).run after :=
  List.foldl_append

@[simp] theorem run_concat (m : ProxyMap) (events : List Event) (event : Event) :
    m.run (events ++ [event]) = (m.run events).step event := by
  rw [run_append]
  rfl

/-- The map that the events lead to from a new one. -/
def reached (name : String) (events : List Event) : ProxyMap := run { name := name } events

variable {m : ProxyMap}

/-! ## Steps and runs -/

/-- What is given up by an event. -/
def Loses (m : ProxyMap) (event : Event) : Loss → Prop
  | .lookUp => ∃ t e, event = .cancel t ∧ m.LooksAt t e
  | .entry => ∃ t e, event = .cancel t ∧ m.Retires t e

/-- The call that an event is about. -/
def Event.actor (m : ProxyMap) : Event → TaskId
  | .register _ => 0
  | .begin _ _ _ => m.tasks.length
  | .turn _ _ t => t
  | .cancel t => t

/-- Every event comes down to moves of one call. -/
theorem step_moves (may : Loss → Prop) (hm : m.Consistent) (event : Event)
    (hmay : ∀ loss, m.Loses event loss → may loss) :
    Moves may (event.actor m) m (m.step event) := by
  cases event with
  | register peer =>
    simp only [step, register]
    split
    · exact .refl
    · next habsent =>
      refine .single (.enrol ?_)
      simpa [contains] using habsent
  | begin now factory call => exact begin_moves hm
  | turn now factory t => exact (turn_advances hm).moves
  | cancel t =>
    exact (cancel_advances hm (fun e hl => hmay .lookUp ⟨t, e, rfl, hl⟩)
      fun e hr => hmay .entry ⟨t, e, rfl, hr⟩).moves

/-- Nothing is given up unless a call is cancelled. -/
theorem not_loses {event : Event} (h : ∀ t, event ≠ .cancel t) (loss : Loss) :
    ¬ m.Loses event loss := by
  cases loss <;> exact fun ⟨t, _, heq, _⟩ => h t heq

theorem Consistent.step (hm : m.Consistent) (event : Event) : (m.step event).Consistent :=
  (step_moves (fun _ => True) hm event fun _ _ => trivial).consistent hm

theorem Consistent.run (hm : m.Consistent) (events : List Event) : (m.run events).Consistent := by
  induction events generalizing m with
  | nil => exact hm
  | cons event events ih => exact ih (hm.step event)

theorem Consistent.reached (name : String) (events : List Event) :
    (reached name events).Consistent :=
  (Consistent.empty name).run events

/-- What moves keep, runs keep. -/
theorem Consistent.run_induct {P : ProxyMap → Prop}
    (hmoves : ∀ {t m m'}, m.Consistent → Moves (fun _ => True) t m m' → P m → P m')
    (hm : m.Consistent) {events : List Event} (hP : P m) : P (m.run events) := by
  induction events generalizing m with
  | nil => exact hP
  | cons event events ih =>
    have hstep := step_moves (fun _ => True) hm event fun _ _ => trivial
    exact ih (hm.step event) (hmoves hm hstep hP)

theorem Grows.run (hm : m.Consistent) (events : List Event) : Grows m (m.run events) :=
  hm.run_induct (P := Grows m) (fun hm hmoves hP => hP.trans (hmoves.grows hm)) (.refl m)

theorem Move.name_eq {may : Loss → Prop} {t : TaskId} {m' : ProxyMap} (h : Move may t m m') :
    m'.name = m.name := by
  cases h with
  | advance h => cases h <;> rfl
  | _ => rfl

/-- A map keeps its name. -/
theorem name_run (hm : m.Consistent) (events : List Event) : (m.run events).name = m.name :=
  hm.run_induct (P := fun m' => m'.name = m.name)
    (fun hm hmoves hP => hmoves.induct (fun _ _ _ hmove hP => hmove.name_eq.trans hP) hm hP) rfl

end Replica.ProxyMap
