import Replica.Proofs.Proxy.Hastening
import Replica.Proofs.Time.Tracking

/-!
# A peer's part goes its own way

At one instant, the turns of the calls on a peer do to the peer's part what they would do if there were
nothing else, with the first close always ahead (`tracks`). The turns of calls on other peers, and of closes,
only ever bring the close there. So the part comes to the same end whatever the others do, as long as the
calls on the peer are the same and have the same order.
-/

namespace Replica

/-- What a factory does the same as another does it the same as itself. -/
theorem Factory.AgreeOn.right {id : PeerId} {factory factory' : Factory} (h : AgreeOn id factory factory') :
    AgreeOn id factory' factory' := by
  intro creations creations' peer hid hknown
  rw [← h creations creations peer hid rfl, ← h creations creations' peer hid hknown]

namespace ProxyMap

variable {m p : ProxyMap} {id k : PeerId} {t u : TaskId} {now : Nat} {calls : List ProxyCall}
variable {factory factory' : Factory} {s : ProxyStage} {call : ProxyCall}

/-! ## Turns of the others -/

/-- A close other than the first one has nothing to retire. -/
theorem IsReached.later_close (hm : m.IsReached) (htask : m.tasks[t]? = some ⟨.close, s⟩)
    (hlater : t ≠ m.nth none 0) : s.jobs = [] := by
  have hclose : m.calls[t]? = some .close := calls_eq_some_iff.mpr ⟨s, htask⟩
  have hlt : m.nth none 0 < t := Nat.lt_of_le_of_ne (first_close_le hclose) (Ne.symm hlater)
  rw [← duties_of_stage (stage?_eq_some_iff.mpr ⟨_, htask⟩)]
  rcases first_close m with ⟨s', htask'⟩ | hnone
  · exact hm.oneClose.first _ t hlt (calls_eq_some_iff.mpr ⟨s', htask'⟩) hclose
  · exact absurd (lt_length_of_getElem? hclose) (Nat.not_lt.mpr (hnone ▸ Nat.le_of_lt hlt))

/-- The turn of a close does to a peer what hastening does as well. -/
theorem IsReached.hasten_turn_close (hm : m.IsReached) (id : PeerId) (now : Nat) (factory : Factory)
    (htask : m.tasks[t]? = some ⟨.close, s⟩) :
    ((m.turn now factory t).part id).hasten now = (m.part id).hasten now := by
  rw [part_turn_close id now factory hm.separate htask]
  by_cases hfirst : t = m.nth none 0
  · rw [hfirst, ← hurry_part_eq, hm.hasten_hurry id now]
  · have hnothing : (m.part id).stage? ((m.ranks id).call t) = some (.retiring [] .done) := by
      rw [part_stage?_close id htask, hm.later_close htask hfirst]
      rfl
    rw [goOnClosing_of_no_duty hnothing, hush_part]

/-- The turn of anything but a call on the peer does nothing to it but what hastening does as well. -/
theorem IsReached.hasten_turn_of_ne (hm : m.IsReached) (now : Nat) (factory : Factory)
    (htask : m.tasks[t]? = some ⟨call, s⟩) (hcall : call.target? ≠ some id) :
    ((m.turn now factory t).part id).hasten now = (m.part id).hasten now := by
  cases htarget : call.target? with
  | none =>
    cases target?_eq_none_iff.mp htarget
    exact hm.hasten_turn_close id now factory htask
  | some k => rw [part_turn_of_ne hm.separate htask htarget fun hk => hcall (htarget.trans (congrArg some hk))]

/-! ## Following -/

/-- Whether the call is one on the peer. -/
def isOn (id : PeerId) (calls : List ProxyCall) (t : TaskId) : Bool :=
  calls[t]?.any (·.target? = some id)

/-- The number of the call in the peer's part. -/
def numberFor (id : PeerId) (calls : List ProxyCall) (t : TaskId) : TaskId :=
  calls.countPBefore (·.concerns id) t

/-- The turns of calls in a peer's part, with the first close always ahead. -/
def closeAhead (factory : Factory) : Schedule ProxyMap where
  __ := schedule factory
  turn now q m := (m.turn now factory q).hush.hasten now

/-- The map, with these calls, leaves the peer with this part once its close is hastened. -/
structure Leaves (id : PeerId) (calls : List ProxyCall) (now : Nat) (m p : ProxyMap) : Prop where
  reached : m.IsReached
  calls_eq : m.calls = calls
  part_eq : (m.part id).hasten now = p

theorem isOn_iff (hcalls : m.calls = calls) : isOn id calls t = true ↔
    ∃ call s, m.tasks[t]? = some ⟨call, s⟩ ∧ call.target? = some id := by
  simp only [isOn, Option.any_eq_true, ← hcalls, calls_eq_some_iff, decide_eq_true_eq]
  constructor
  · rintro ⟨call, ⟨s, htask⟩, hcall⟩
    exact ⟨call, s, htask, hcall⟩
  · rintro ⟨call, s, htask, hcall⟩
    exact ⟨call, ⟨s, htask⟩, hcall⟩

/-- At one instant, the peer's part goes along with the turns of the calls on the peer. -/
theorem tracks (hfactory : Factory.AgreeOn id factory factory') (calls : List ProxyCall) (now : Nat) :
    (schedule factory).Tracks (closeAhead factory') now (isOn id calls) (numberFor id calls)
      (Leaves id calls now) where
  ready := by
    rintro m _ t ⟨hm, hcalls, rfl⟩ hown
    obtain ⟨call, s, htask, hcall⟩ := (isOn_iff hcalls).mp hown
    have hready := hm.isReady_hasten now now htask hcall
    rw [ranks_call, hcalls] at hready
    exact hready
  own_turn := by
    rintro m _ t ⟨hm, hcalls, rfl⟩ hown -
    obtain ⟨call, s, htask, hcall⟩ := (isOn_iff hcalls).mp hown
    refine ⟨hm.turn now factory t, calls_turn.trans hcalls, ?_⟩
    have hturn := hm.hasten_turn now hfactory.right htask hcall
    have hsame : (m.turn now factory t).part id = (m.turn now factory' t).part id := by
      rw [part_turn hm.separate hfactory htask hcall, part_turn hm.separate hfactory.right htask hcall]
    rw [ranks_call, hcalls, ← hsame] at hturn
    exact hturn.symm
  rest_turn := by
    rintro m _ t ⟨hm, hcalls, rfl⟩ hrest hready
    refine ⟨hm.turn now factory t, calls_turn.trans hcalls, ?_⟩
    obtain ⟨s, hstage⟩ : ∃ s, m.stage? t = some s := by
      cases hstage : m.stage? t with
      | some s => exact ⟨s, rfl⟩
      | none => simp [schedule, isReady, hstage] at hready
    obtain ⟨call, htask⟩ := stage?_eq_some_iff.mp hstage
    refine hm.hasten_turn_of_ne now factory htask fun hcall => ?_
    exact Bool.false_ne_true (hrest.symm.trans ((isOn_iff hcalls).mpr ⟨call, s, htask, hcall⟩))

end ProxyMap

end Replica
