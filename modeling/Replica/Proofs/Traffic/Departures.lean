import Replica.Proofs.Network.Leaving
import Replica.Proofs.Traffic.Tables

/-!
# Calls that have been released

What becomes of a call whose mailbox has been closed, along a run. Nobody but the call itself changes
where it stands, detours apart (`sends_step`, `takes_step`). So it stays released until its turn, with
which it ends (`SendLeaves.run`, `TakeDeparts.run`). A call that was blocked has entered nothing, and
never will (`Unsent.step`).
-/

namespace Replica

variable {x : Traffic} {i : Nat} {node : PeerId} {wake now : Nat} {slip? : Option SlipId}
variable {event : Traffic.Event}

open Network

namespace Traffic

/-! ## Runs -/

/-- Something holds until an event of a kind comes, and what that event leads to holds from then
on. -/
theorem run_until {P Q : Traffic → Prop} {kind : Event → Prop} {cancel : Event}
    (hwait : ∀ x event, x.Tabled → P x → ¬ kind event → event ≠ cancel → P (x.step event))
    (hcome : ∀ x event, P x → kind event → Q (x.step event))
    (hkeep : Stable Q) (hx : x.Tabled) (ha : x.Accounted) (h : P x)
    (events : List Event) (hcancel : cancel ∉ events) :
    ((∃ event ∈ events, kind event) → Q (x.run events)) ∧
      ((∀ event ∈ events, ¬ kind event) → P (x.run events)) := by
  induction events generalizing x with
  | nil => exact ⟨fun ⟨_, hmem, _⟩ => (nomatch hmem), fun _ => h⟩
  | cons event events ih =>
    obtain ⟨hfirst, hcancel⟩ := List.ne_and_not_mem_of_not_mem_cons hcancel
    by_cases hkind : kind event
    · exact ⟨fun _ => hkeep.run (hcome x event h hkind) events,
        fun hnone => absurd hkind (hnone event List.mem_cons_self)⟩
    · obtain ⟨hcame, hwaits⟩ := ih (hx.step ha event) (ha.step event)
        (hwait x event hx h hkind (Ne.symm hfirst)) hcancel
      constructor
      · rintro ⟨other, hmem, hother⟩
        rcases List.mem_cons.mp hmem with rfl | hmem
        · exact absurd hother hkind
        · exact hcame ⟨other, hmem, hother⟩
      · exact fun hnone => hwaits fun other hmem => hnone other (List.mem_cons_of_mem _ hmem)

/-- No call that sends or takes can go on at the time. -/
structure IsQuiet (now : Nat) (x : Traffic) : Prop where
  sends : ∀ (i : Nat) (call : SendCall) (stage : Sending), x.sends[i]? = some call →
    call.state = .underWay stage → x.network.sendReady now stage = false
  takes : ∀ (i : Nat) (call : TakeCall) (stage : Taking), x.takes[i]? = some call →
    call.state = .underWay stage → x.network.takeReady now call.task stage = false

/-! ## Calls that send -/

/-- The event is a turn of the call, at the time or later. -/
def Event.TurnsSend (i wake : Nat) (event : Event) : Prop :=
  ∃ now, wake ≤ now ∧ event = .turnSend now i

theorem turnSend_of_idle {call : SendCall} (found : x.sends[i]? = some call)
    (hidle : call.state.stage? = none) (now : Nat) : x.turnSend now i = x := by
  rw [Traffic.turnSend, found, Option.bind_some, hidle]

/-- The call has been released, and its time comes at `wake`. -/
def SendLeaves (x : Traffic) (i : Nat) (node : PeerId) (wake : Nat) (slip? : Option SlipId) : Prop :=
  ∃ call stage, x.sends[i]? = some call ∧ call.slip? = slip? ∧ call.state = .underWay stage ∧
    Leaving x.network node wake stage

/-- The call has ended because its node is not there. -/
def SendFailed (x : Traffic) (i : Nat) (node : PeerId) : Prop :=
  ∃ call, x.sends[i]? = some call ∧
    call.state = .ended (.failed (.error (.nodeNotFound node)))

theorem SendFailed.step (h : x.SendFailed i node) (event : Event) :
    (x.step event).SendFailed i node := by
  obtain ⟨call, found, hstate⟩ := h
  obtain ⟨call', found', -, hsame⟩ := sends_step_of_idle found (by rw [hstate]; rfl) event
  exact ⟨call', found', hsame.trans hstate⟩

namespace SendLeaves

/-- The turn with which the call ends. It leaves the network as it was. -/
theorem turn (h : x.SendLeaves i node wake slip?) (hwake : wake ≤ now) :
    (x.turnSend now i).network = x.network ∧ (x.turnSend now i).SendFailed i node ∧
      ∃ call, (x.turnSend now i).sends[i]? = some call ∧ call.slip? = slip? := by
  obtain ⟨call, stage, found, rfl, hstate, hleaving⟩ := h
  rw [turnSend_eq found hstate, hleaving.turn hwake, hleaving.read?_eq_none]
  have hcall (f : SendCall → SendCall) : (x.sends.modify i f)[i]? = some (f call) :=
    getElem?_modify_eq_some_iff.mpr ⟨call, found, if_pos rfl⟩
  exact ⟨rfl, ⟨_, hcall _, rfl⟩, _, hcall _, if_neg (Nat.lt_irrefl _)⟩

/-- A turn that comes too early changes nothing. -/
theorem early (h : x.SendLeaves i node wake slip?) (hwake : now < wake) :
    (x.turnSend now i).network = x.network ∧
      (x.turnSend now i).SendLeaves i node wake slip? := by
  obtain ⟨call, stage, found, rfl, hstate, hleaving⟩ := h
  rw [turnSend_eq found hstate, hleaving.early hwake, hleaving.read?_eq_none]
  refine ⟨rfl, _, stage, getElem?_modify_eq_some_iff.mpr ⟨call, found, if_pos rfl⟩, ?_, rfl,
    hleaving⟩
  exact if_neg (Nat.lt_irrefl _)

/-- Until its turn, or until it is cancelled, the call stays released. -/
theorem step (h : x.SendLeaves i node wake slip?) (hx : x.Tabled)
    (hturn : ¬ event.TurnsSend i wake) (hcancel : event ≠ .cancelSend i) :
    (x.step event).SendLeaves i node wake slip? := by
  by_cases hmine : ∃ now, event = .turnSend now i
  · obtain ⟨now, rfl⟩ := hmine
    exact (h.early (Nat.lt_of_not_le fun hwake => hturn ⟨now, hwake, rfl⟩)).2
  · obtain ⟨call, stage, found, hslip, hstate, hleaving⟩ := h
    obtain ⟨call', found', hslip', hrerouted⟩ := sends_step found (not_or.mpr ⟨hmine, hcancel⟩)
    obtain ⟨own, hages⟩ := hx.step_ages event
    rw [hstate] at hrerouted
    obtain ⟨stage', hstate', hleaving'⟩ := hrerouted.underWay
      (P := Leaving (x.step event).network node wake) (hleaving.ages hages)
      (hleaving.ages hages).divert
    exact ⟨call', stage', found', hslip'.trans hslip, hstate', hleaving'⟩

/-- Unless it is cancelled, the call ends with its turn, and is released until then. -/
theorem run (h : x.SendLeaves i node wake slip?) (hx : x.Tabled) (ha : x.Accounted)
    (events : List Event) (hcancel : .cancelSend i ∉ events) :
    ((∃ event ∈ events, event.TurnsSend i wake) → (x.run events).SendFailed i node) ∧
      ((∀ event ∈ events, ¬ event.TurnsSend i wake) →
        (x.run events).SendLeaves i node wake slip?) := by
  refine run_until (P := fun x => x.SendLeaves i node wake slip?) (Q := fun x => x.SendFailed i node)
    (fun x event hx h => h.step hx) ?_ (fun x event h => h.step event) hx ha h events hcancel
  rintro x _ h ⟨now, hwake, rfl⟩
  exact (h.turn hwake).2.1

/-- The call can go on from `wake` on. -/
theorem ready (h : x.SendLeaves i node wake slip?) :
    ∃ call stage, x.sends[i]? = some call ∧ call.state = .underWay stage ∧
      ∀ now, wake ≤ now → x.network.sendReady now stage = true := by
  obtain ⟨call, stage, found, -, hstate, hleaving⟩ := h
  exact ⟨call, stage, found, hstate, fun now hwake => hleaving.ready hwake⟩

end SendLeaves

/-- The call has entered nothing in a table, and will not: it has been released, or has come to an
end. -/
def Unsent (x : Traffic) (i : Nat) (node : PeerId) (wake : Nat) : Prop :=
  x.SendLeaves i node wake none ∨
    ∃ call, x.sends[i]? = some call ∧ call.slip? = none ∧ call.state.stage? = none

theorem Unsent.step (h : x.Unsent i node wake) (hx : x.Tabled) (event : Event) :
    (x.step event).Unsent i node wake := by
  rcases h with h | ⟨call, found, hnone, hidle⟩
  · by_cases hcancel : event = .cancelSend i
    · subst hcancel
      obtain ⟨call, stage, found, hnone, hstate, -⟩ := h
      right
      rw [Traffic.step, cancelSend_eq found hstate]
      exact ⟨_, getElem?_modify_eq_some_iff.mpr ⟨call, found, if_pos rfl⟩, hnone, rfl⟩
    by_cases hturn : event.TurnsSend i wake
    · obtain ⟨now, hwake, rfl⟩ := hturn
      obtain ⟨-, ⟨call, found, hstate⟩, call', found', hslip⟩ := h.turn hwake
      obtain rfl := Option.some.inj (found.symm.trans found')
      exact .inr ⟨call, found, hslip, by rw [hstate]; rfl⟩
    · exact .inl (h.step hx hturn hcancel)
  · obtain ⟨call', found', hslip, hsame⟩ := sends_step_of_idle found hidle event
    exact .inr ⟨call', found', hslip.trans hnone, hsame ▸ hidle⟩

theorem Unsent.run (h : x.Unsent i node wake) (hx : x.Tabled) (ha : x.Accounted)
    (events : List Event) : (x.run events).Unsent i node wake := by
  induction events generalizing x with
  | nil => exact h
  | cons event events ih => exact ih (h.step hx event) (hx.step ha event) (ha.step event)

/-- The call has no slip, and its turns leave the network as it is. -/
theorem Unsent.turn (h : x.Unsent i node wake) (now : Nat) :
    (x.turnSend now i).network = x.network ∧
      ∀ call, x.sends[i]? = some call → call.slip? = none := by
  rcases h with h | ⟨call, found, hnone, hidle⟩
  · refine ⟨?_, fun call' found' => ?_⟩
    · rcases Nat.lt_or_ge now wake with hwake | hwake
      · exact (h.early hwake).1
      · exact (h.turn hwake).1
    · obtain ⟨call, stage, found, hnone, -⟩ := h
      rw [← Option.some.inj (found.symm.trans found')]
      exact hnone
  · refine ⟨?_, fun call' found' => ?_⟩
    · rw [turnSend_of_idle found hidle]
    · rw [← Option.some.inj (found.symm.trans found')]
      exact hnone

/-! ## Calls that take -/

/-- The event is a turn of the call, at the time or later. -/
def Event.TurnsTake (i wake : Nat) (event : Event) : Prop :=
  ∃ now, wake ≤ now ∧ event = .turnTake now i

/-- The call has been released, and its time comes at `wake`. -/
def TakeDeparts (x : Traffic) (i : Nat) (node : PeerId) (wake : Nat) : Prop :=
  ∃ call stage, x.takes[i]? = some call ∧ call.state = .underWay stage ∧
    Departing x.network node wake stage

/-- The call has ended because its node is shut down. -/
def TakeFailed (x : Traffic) (i : Nat) (node : PeerId) : Prop :=
  ∃ call, x.takes[i]? = some call ∧ call.state = .ended (.error (.shutdown node))

theorem TakeFailed.step (h : x.TakeFailed i node) (event : Event) :
    (x.step event).TakeFailed i node := by
  obtain ⟨call, found, hstate⟩ := h
  obtain ⟨call', found', hstep⟩ := exists_takeStep found event
  refine ⟨call', found', ?_⟩
  cases hstep with
  | stays _ => exact hstate
  | diverts owner other =>
    dsimp only
    rw [hstate]
    rfl
  | turns now hunderWay => cases hstate.symm.trans hunderWay
  | cancels hunderWay => cases hstate.symm.trans hunderWay

namespace TakeDeparts

/-- The turn with which the call ends. -/
theorem turn (h : x.TakeDeparts i node wake) (hwake : wake ≤ now) :
    (x.turnTake now i).TakeFailed i node := by
  obtain ⟨call, stage, found, hstate, hdeparting⟩ := h
  rw [turnTake_eq found hstate, hdeparting.turn hwake]
  exact ⟨_, getElem?_modify_eq_some_iff.mpr ⟨call, found, if_pos rfl⟩, rfl⟩

theorem early (h : x.TakeDeparts i node wake) (hwake : now < wake) :
    (x.turnTake now i).TakeDeparts i node wake := by
  obtain ⟨call, stage, found, hstate, hdeparting⟩ := h
  rw [turnTake_eq found hstate, hdeparting.early hwake]
  exact ⟨_, stage, getElem?_modify_eq_some_iff.mpr ⟨call, found, if_pos rfl⟩, rfl, hdeparting⟩

/-- Until its turn, or until it is cancelled, the call stays released. -/
theorem step (h : x.TakeDeparts i node wake) (hx : x.Tabled)
    (hturn : ¬ event.TurnsTake i wake) (hcancel : event ≠ .cancelTake i) :
    (x.step event).TakeDeparts i node wake := by
  by_cases hmine : ∃ now, event = .turnTake now i
  · obtain ⟨now, rfl⟩ := hmine
    exact h.early (Nat.lt_of_not_le fun hwake => hturn ⟨now, hwake, rfl⟩)
  · obtain ⟨call, stage, found, hstate, hdeparting⟩ := h
    obtain ⟨call', found', hrerouted⟩ := takes_step found (not_or.mpr ⟨hmine, hcancel⟩)
    obtain ⟨own, hages⟩ := hx.step_ages event
    rw [hstate] at hrerouted
    obtain ⟨stage', hstate', hdeparting'⟩ := hrerouted.underWay
      (P := Departing (x.step event).network node wake) (hdeparting.ages hages)
      (hdeparting.ages hages).divert
    exact ⟨call', stage', found', hstate', hdeparting'⟩

/-- Unless it is cancelled, the call ends with its turn, and is released until then. -/
theorem run (h : x.TakeDeparts i node wake) (hx : x.Tabled) (ha : x.Accounted)
    (events : List Event) (hcancel : .cancelTake i ∉ events) :
    ((∃ event ∈ events, event.TurnsTake i wake) → (x.run events).TakeFailed i node) ∧
      ((∀ event ∈ events, ¬ event.TurnsTake i wake) →
        (x.run events).TakeDeparts i node wake) := by
  refine run_until (P := fun x => x.TakeDeparts i node wake) (Q := fun x => x.TakeFailed i node)
    (fun x event hx h => h.step hx) ?_ (fun x event h => h.step event) hx ha h events hcancel
  rintro x _ h ⟨now, hwake, rfl⟩
  exact h.turn hwake

/-- The call can go on from `wake` on. -/
theorem ready (h : x.TakeDeparts i node wake) :
    ∃ call stage, x.takes[i]? = some call ∧ call.state = .underWay stage ∧
      ∀ now, wake ≤ now → x.network.takeReady now call.task stage = true := by
  obtain ⟨call, stage, found, hstate, hdeparting⟩ := h
  exact ⟨call, stage, found, hstate, fun now hwake => hdeparting.ready hwake call.task⟩

end TakeDeparts

end Traffic

end Replica
