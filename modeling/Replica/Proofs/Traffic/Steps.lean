import Replica.Proofs.Traffic.Basic

/-!
# What an event does

The step of the traffic as a relation: `StepsTo` has one constructor for every event that does something,
with the call that the event is of, and `stepsTo_step` says that it has them all. What is kept by every
event is shown by cases on it.

What one call comes to is said by `SendStep`, `TakeStep` and `ReplyStep`: a call stays what it is, its
request is given a detour, it gets a turn, or it is cancelled. A call that is there after an event has
begun with it, or was there before (`begins_or_sendStep`, `begins_or_replyStep`).
-/

namespace Replica

/-- A change of one element of a list changes the element that is looked at, or leaves it alone. -/
theorem getElem?_modify_cases {α : Type} {l : List α} {a : α} {i : Nat} (found : l[i]? = some a)
    (j : Nat) : (j = i ∧ ∀ f, (l.modify j f)[i]? = some (f a)) ∨
      (j ≠ i ∧ ∀ f, (l.modify j f)[i]? = some a) := by
  by_cases hj : j = i
  · exact .inl ⟨hj, fun f => getElem?_modify_eq_some_iff.mpr ⟨a, found, if_pos hj⟩⟩
  · exact .inr ⟨hj, fun f => (List.getElem?_modify_ne f l hj).trans found⟩

namespace CallState

variable {σ α : Type} {divert : TaskId → PeerId → σ → σ} {state state' : CallState σ α} {stage : σ}

/-- Nothing has happened to the call, but that its request may have been given a detour. -/
def Rerouted (divert : TaskId → PeerId → σ → σ) (state state' : CallState σ α) : Prop :=
  state' = state ∨ ∃ owner other, state' = state.mapStage (divert owner other)

theorem Rerouted.eq_of_idle (h : Rerouted divert state state') (hidle : state.stage? = none) :
    state' = state := by
  rcases h with h | ⟨owner, other, rfl⟩
  · exact h
  · cases state with
    | underWay stage => cases hidle
    | _ => rfl

/-- The call stands where it stood, as long as it does not matter which way its request goes. -/
theorem Rerouted.underWay {P : σ → Prop} (h : Rerouted divert (.underWay stage) state')
    (hstage : P stage) (hdivert : ∀ owner other, P (divert owner other stage)) :
    ∃ stage', state' = .underWay stage' ∧ P stage' := by
  rcases h with rfl | ⟨owner, other, rfl⟩
  · exact ⟨stage, rfl, hstage⟩
  · exact ⟨_, rfl, hdivert owner other⟩

theorem mapStage_eq_underWay {f : σ → σ} {stage' : σ} (h : state.mapStage f = .underWay stage') :
    ∃ stage, state = .underWay stage ∧ f stage = stage' := by
  cases state with
  | underWay stage =>
    cases h
    exact ⟨stage, rfl, rfl⟩
  | _ => cases h

/-- A detour cancels nobody. -/
theorem mapStage_eq_cancelled {f : σ → σ} (h : state.mapStage f = .cancelled) :
    state = .cancelled := by
  cases state with
  | cancelled => rfl
  | _ => cases h

theorem stage?_of_bind {κ : Type} {call? : Option κ} {call : κ} {state : κ → CallState σ α}
    (h : call?.bind (fun call => (state call).stage?) = none) (found : call? = some call) :
    (state call).stage? = none := by
  rwa [found, Option.bind_some] at h

end CallState

namespace Sending

variable {stage : Sending} {owner : TaskId} {other : PeerId} {box : MailboxId} {r : Request}

/-- A detour does not change where a sender is blocked, and when it looks again. -/
theorem divert_eq_blocked {wake : Nat} (h : stage.divert owner other = .blocked box r wake) :
    ∃ r', stage = .blocked box r' wake ∧ r'.divert owner other = r := by
  cases stage with
  | blocked box' r' wake' =>
    cases h
    exact ⟨r', rfl, rfl⟩
  | waiting box' r' slip deadline => cases h

/-- A detour does not change where a sender waits, with which slip, and until when. -/
theorem divert_eq_waiting {slip : SlipId} {deadline : Nat}
    (h : stage.divert owner other = .waiting box r slip deadline) :
    ∃ r', stage = .waiting box r' slip deadline ∧ r'.divert owner other = r := by
  cases stage with
  | blocked box' r' wake => cases h
  | waiting box' r' slip' deadline' =>
    cases h
    exact ⟨r', rfl, rfl⟩

end Sending

/-- A call that takes is not under way if it is nowhere. -/
theorem TakeCall.stage?_eq_none {call? : Option TakeCall}
    (h : ∀ t stage, call? ≠ some ⟨t, .underWay stage⟩) : call?.bind (·.state.stage?) = none := by
  refine Option.bind_eq_none_iff.mpr fun call found => ?_
  obtain ⟨t, state⟩ := call
  cases state with
  | underWay stage => exact absurd found (h t stage)
  | fresh => rfl
  | ended result => rfl
  | cancelled => rfl

namespace Traffic

variable {x : Traffic} {i j : Nat} {event : Event}

/-! ## Events -/

/-- The event is a turn of the call that sends, or cancels it. -/
def Event.IsOf (i : Nat) (event : Event) : Prop :=
  (∃ now, event = .turnSend now i) ∨ event = .cancelSend i

/-- The event is a turn of the call that takes, or cancels it. -/
def Event.IsOfTake (i : Nat) (event : Event) : Prop :=
  (∃ now, event = .turnTake now i) ∨ event = .cancelTake i

/-- The event is a turn of the call that replies, or cancels it. -/
def Event.IsOfReply (j : Nat) (event : Event) : Prop :=
  (∃ now, event = .turnReply now j) ∨ event = .cancelReply j

/-- The event is a turn of a call that is not under way, or its cancellation. -/
inductive Idles (x : Traffic) : Event → Prop where
  | turnSend (now : Nat) {i : Nat} (h : x.sends[i]?.bind (·.state.stage?) = none) :
      x.Idles (.turnSend now i)
  | cancelSend {i : Nat} (h : x.sends[i]?.bind (·.state.stage?) = none) : x.Idles (.cancelSend i)
  | turnTake (now : Nat) {i : Nat} (h : x.takes[i]?.bind (·.state.stage?) = none) :
      x.Idles (.turnTake now i)
  | cancelTake {i : Nat} (h : x.takes[i]?.bind (·.state.stage?) = none) : x.Idles (.cancelTake i)
  | turnReply (now : Nat) {j : Nat} (h : x.replies[j]?.bind (·.state.stage?) = none) :
      x.Idles (.turnReply now j)
  | cancelReply {j : Nat} (h : x.replies[j]?.bind (·.state.stage?) = none) :
      x.Idles (.cancelReply j)

/-- What an event leads to. -/
inductive StepsTo (x : Traffic) : Event → Traffic → Prop where
  | idles {event : Event} (h : x.Idles event) : x.StepsTo event x
  | register (now : Nat) (node : PeerId) :
      x.StepsTo (.register now node) { x with network := x.network.register now node }
  | shutdown (now : Nat) (node : PeerId) :
      x.StepsTo (.shutdown now node) { x with network := x.network.shutdown now node }
  | clear (now : Nat) : x.StepsTo (.clear now) { x with network := x.network.clear now }
  | setSwitches (box : MailboxId) (f : Switches → Switches) :
      x.StepsTo (.setSwitches box f) { x with network := x.network.setSwitches box f }
  | divert (owner : TaskId) (other : PeerId) : x.StepsTo (.divert owner other) (x.divert owner other)
  | note (now : Nat) (what : Occurrence) :
      x.StepsTo (.note now what) { x with network := x.network.note now what }
  | beginSend (now : Nat) (t : TaskId) (r : Request) :
      x.StepsTo (.beginSend now t r) (x.beginSend now t r)
  | turnSend (now : Nat) {i : Nat} {call : SendCall} {stage : Sending}
      (found : x.sends[i]? = some call) (hstate : call.state = .underWay stage) :
      x.StepsTo (.turnSend now i)
        { x with
          network := (x.network.turnSend now stage).1
          sends := x.sends.modify i
            (·.after x.network (stage.read? x.network) (x.network.turnSend now stage)) }
  | cancelSend {i : Nat} {call : SendCall} {stage : Sending}
      (found : x.sends[i]? = some call) (hstate : call.state = .underWay stage) :
      x.StepsTo (.cancelSend i)
        { x with
          network := x.network.cancelSend stage
          sends := x.sends.modify i fun call => { call with state := .cancelled } }
  | beginTake (now : Nat) (t : TaskId) (node : PeerId) :
      x.StepsTo (.beginTake now t node) (x.beginTake now t node)
  | turnTake (now : Nat) {i : Nat} {call : TakeCall} {stage : Taking}
      (found : x.takes[i]? = some call) (hstate : call.state = .underWay stage) :
      x.StepsTo (.turnTake now i)
        { x with
          network := (x.network.turnTake now call.task stage).1
          takes := x.takes.modify i fun other =>
            { other with state := .ofProgress id (x.network.turnTake now call.task stage).2 } }
  | cancelTake {i : Nat} {call : TakeCall} {stage : Taking}
      (found : x.takes[i]? = some call) (hstate : call.state = .underWay stage) :
      x.StepsTo (.cancelTake i)
        { x with
          network := x.network.cancelTake call.task stage
          takes := x.takes.modify i fun call => { call with state := .cancelled } }
  | beginReply (now : Nat) (t : TaskId) (r : Request) (outcome : Outcome) :
      x.StepsTo (.beginReply now t r outcome) (x.beginReply now t r outcome)
  | turnReply (now : Nat) {j : Nat} {reply : ReplyCall} {stage : Replying}
      (found : x.replies[j]? = some reply) (hstate : reply.state = .underWay stage) :
      x.StepsTo (.turnReply now j)
        { x with
          network := (x.network.turnReply now stage).1
          replies := x.replies.modify j fun other =>
            { other with
              state := .ofProgress (ReplyEnd.of (x.network.caller? stage.request))
                (x.network.turnReply now stage).2 } }
  | cancelReply {j : Nat} {reply : ReplyCall} {stage : Replying}
      (found : x.replies[j]? = some reply) (hstate : reply.state = .underWay stage) :
      x.StepsTo (.cancelReply j)
        { x with replies := x.replies.modify j fun call => { call with state := .cancelled } }

/-- Turns and cancellations matter to calls that are under way, and to no others. -/
theorem stepsTo_step (x : Traffic) (event : Event) : x.StepsTo event (x.step event) := by
  cases event with
  | register now node => exact .register now node
  | shutdown now node => exact .shutdown now node
  | clear now => exact .clear now
  | setSwitches box f => exact .setSwitches box f
  | divert owner other => exact .divert owner other
  | note now what => exact .note now what
  | beginSend now t r => exact .beginSend now t r
  | turnSend now i =>
    rw [step, turnSend]
    split
    · next stage hstage =>
      obtain ⟨call, found, hstage⟩ := Option.bind_eq_some_iff.mp hstage
      exact .turnSend now found (CallState.eq_underWay_of_stage? hstage)
    · next hnone => exact .idles (.turnSend now hnone)
  | cancelSend i =>
    rw [step, cancelSend]
    split
    · next stage hstage =>
      obtain ⟨call, found, hstage⟩ := Option.bind_eq_some_iff.mp hstage
      exact .cancelSend found (CallState.eq_underWay_of_stage? hstage)
    · next hnone => exact .idles (.cancelSend hnone)
  | beginTake now t node => exact .beginTake now t node
  | turnTake now i =>
    rw [step, turnTake]
    split
    · next t stage found => exact .turnTake now found rfl
    · next hnot => exact .idles (.turnTake now (TakeCall.stage?_eq_none hnot))
  | cancelTake i =>
    rw [step, cancelTake]
    split
    · next t stage found => exact .cancelTake found rfl
    · next hnot => exact .idles (.cancelTake (TakeCall.stage?_eq_none hnot))
  | beginReply now t r outcome => exact .beginReply now t r outcome
  | turnReply now j =>
    rw [step, turnReply]
    split
    · next stage hstage =>
      obtain ⟨reply, found, hstage⟩ := Option.bind_eq_some_iff.mp hstage
      exact .turnReply now found (CallState.eq_underWay_of_stage? hstage)
    · next hnone => exact .idles (.turnReply now hnone)
  | cancelReply j =>
    rw [step, cancelReply]
    split
    · next stage hstage =>
      obtain ⟨reply, found, hstage⟩ := Option.bind_eq_some_iff.mp hstage
      exact .cancelReply found (CallState.eq_underWay_of_stage? hstage)
    · next hnone => exact .idles (.cancelReply hnone)

/-- Whatever happens, it holds from now on. -/
def Stable (P : Traffic → Prop) : Prop := ∀ x event, P x → P (step x event)

theorem Stable.run {P : Traffic → Prop} (h : Stable P) (hx : P x) (events : List Event) :
    P (x.run events) := by
  induction events generalizing x with
  | nil => exact hx
  | cons event events ih => exact ih (h x event hx)

/-! ## Calls that send -/

/-- What an event makes of a call that sends. -/
inductive SendStep (x : Traffic) (i : Nat) (call : SendCall) : Event → SendCall → Prop where
  /-- Events of others leave the call alone, and so do its own when it is not under way. -/
  | stays {event : Event} (h : event.IsOf i → call.state.stage? = none) :
      x.SendStep i call event call
  | diverts (owner : TaskId) (other : PeerId) :
      x.SendStep i call (.divert owner other)
        { call with state := call.state.mapStage (·.divert owner other) }
  | turns (now : Nat) {stage : Sending} (hstate : call.state = .underWay stage) :
      x.SendStep i call (.turnSend now i)
        (call.after x.network (stage.read? x.network) (x.network.turnSend now stage))
  | cancels {stage : Sending} (hstate : call.state = .underWay stage) :
      x.SendStep i call (.cancelSend i) { call with state := .cancelled }

theorem turnSend_eq {call : SendCall} {stage : Sending} (found : x.sends[i]? = some call)
    (hstate : call.state = .underWay stage) (now : Nat) :
    x.turnSend now i = { x with
      network := (x.network.turnSend now stage).1
      sends := x.sends.modify i
        (·.after x.network (stage.read? x.network) (x.network.turnSend now stage)) } := by
  rw [turnSend, found, Option.bind_some, hstate]
  rfl

theorem cancelSend_eq {call : SendCall} {stage : Sending} (found : x.sends[i]? = some call)
    (hstate : call.state = .underWay stage) :
    x.cancelSend i = { x with
      network := x.network.cancelSend stage
      sends := x.sends.modify i fun call => { call with state := .cancelled } } := by
  rw [cancelSend, found, Option.bind_some, hstate]
  rfl

/-- A call that sends is kept, as the event makes it. -/
theorem exists_sendStep {call : SendCall} (found : x.sends[i]? = some call) (event : Event) :
    ∃ call', (x.step event).sends[i]? = some call' ∧ x.SendStep i call event call' := by
  have hstep := x.stepsTo_step event
  generalize x.step event = y at hstep ⊢
  cases hstep with
  | idles hidle =>
    refine ⟨call, found, .stays ?_⟩
    rintro (⟨now, rfl⟩ | rfl)
    · cases hidle with
      | turnSend _ h => exact CallState.stage?_of_bind h found
    · cases hidle with
      | cancelSend h => exact CallState.stage?_of_bind h found
  | divert owner other =>
    exact ⟨_, List.getElem?_map.trans (congrArg (Option.map _) found), .diverts owner other⟩
  | beginSend now t r =>
    exact ⟨call, getElem?_concat_of_some _ found, .stays (by rintro (⟨_, h⟩ | h) <;> cases h)⟩
  | @turnSend now j call' stage found' hstate =>
    rcases getElem?_modify_cases found j with ⟨rfl, hcall⟩ | ⟨hj, hcall⟩
    · obtain rfl := Option.some.inj (found.symm.trans found')
      exact ⟨_, hcall _, .turns now hstate⟩
    · refine ⟨call, hcall _, .stays ?_⟩
      rintro (⟨_, h⟩ | h) <;> cases h
      exact absurd rfl hj
  | @cancelSend j call' stage found' hstate =>
    rcases getElem?_modify_cases found j with ⟨rfl, hcall⟩ | ⟨hj, hcall⟩
    · obtain rfl := Option.some.inj (found.symm.trans found')
      exact ⟨_, hcall _, .cancels hstate⟩
    · refine ⟨call, hcall _, .stays ?_⟩
      rintro (⟨_, h⟩ | h) <;> cases h
      exact absurd rfl hj
  | _ => exact ⟨call, found, .stays (by rintro (⟨_, h⟩ | h) <;> cases h)⟩

/-- A call that sends has begun with the event, or was there before. -/
theorem begins_or_sendStep {call' : SendCall} (found' : (x.step event).sends[i]? = some call') :
    (∃ now t r, event = .beginSend now t r ∧ call' =
      ({ task := t, request := r } : SendCall).after x.network none (x.network.beginSend now r)) ∨
    ∃ call, x.sends[i]? = some call ∧ x.SendStep i call event call' := by
  cases found : x.sends[i]? with
  | some call =>
    obtain ⟨call'', found'', hstep⟩ := exists_sendStep found event
    obtain rfl := Option.some.inj (found''.symm.trans found')
    exact .inr ⟨call, rfl, hstep⟩
  | none =>
    left
    have hmodify {j : Nat} {f : SendCall → SendCall} : (x.sends.modify j f)[i]? = none := by
      rw [List.getElem?_modify, found]
      rfl
    have hstep := x.stepsTo_step event
    generalize x.step event = y at hstep found'
    cases hstep with
    | beginSend now t r =>
      rcases getElem?_concat_eq_some_iff.mp found' with hbefore | ⟨-, rfl⟩
      · cases found.symm.trans hbefore
      · exact ⟨now, t, r, rfl, rfl⟩
    | divert owner other =>
      obtain ⟨before, hbefore, -⟩ := Option.map_eq_some_iff.mp (List.getElem?_map.symm.trans found')
      cases found.symm.trans hbefore
    | turnSend now _ _ => cases hmodify.symm.trans found'
    | cancelSend _ _ => cases hmodify.symm.trans found'
    | _ => cases found.symm.trans found'

/-- A call that gets no turn and is not cancelled stands where it is, detours apart. -/
theorem sends_step {call : SendCall} (found : x.sends[i]? = some call) (hother : ¬ event.IsOf i) :
    ∃ call', (x.step event).sends[i]? = some call' ∧ call'.slip? = call.slip? ∧
      CallState.Rerouted Sending.divert call.state call'.state := by
  obtain ⟨call', found', hstep⟩ := exists_sendStep found event
  refine ⟨call', found', ?_⟩
  cases hstep with
  | stays _ => exact ⟨rfl, .inl rfl⟩
  | diverts owner other => exact ⟨rfl, .inr ⟨owner, other, rfl⟩⟩
  | turns now _ => exact absurd (.inl ⟨now, rfl⟩) hother
  | cancels _ => exact absurd (.inr rfl) hother

/-- Whoever is not under way stays so. -/
theorem sends_step_of_idle {call : SendCall} (found : x.sends[i]? = some call)
    (hidle : call.state.stage? = none) (event : Event) :
    ∃ call', (x.step event).sends[i]? = some call' ∧ call'.slip? = call.slip? ∧
      call'.state = call.state := by
  obtain ⟨call', found', hstep⟩ := exists_sendStep found event
  refine ⟨call', found', ?_⟩
  cases hstep with
  | stays _ => exact ⟨rfl, rfl⟩
  | diverts owner other =>
    exact ⟨rfl, CallState.Rerouted.eq_of_idle (.inr ⟨owner, other, rfl⟩) hidle⟩
  | turns now hstate =>
    rw [hstate] at hidle
    cases hidle
  | cancels hstate =>
    rw [hstate] at hidle
    cases hidle

/-! ## Calls that take -/

/-- What an event makes of a call that takes. -/
inductive TakeStep (x : Traffic) (i : Nat) (call : TakeCall) : Event → TakeCall → Prop where
  | stays {event : Event} (h : event.IsOfTake i → call.state.stage? = none) :
      x.TakeStep i call event call
  | diverts (owner : TaskId) (other : PeerId) :
      x.TakeStep i call (.divert owner other)
        { call with state := call.state.mapStage (·.divert owner other) }
  | turns (now : Nat) {stage : Taking} (hstate : call.state = .underWay stage) :
      x.TakeStep i call (.turnTake now i)
        { call with state := .ofProgress id (x.network.turnTake now call.task stage).2 }
  | cancels {stage : Taking} (hstate : call.state = .underWay stage) :
      x.TakeStep i call (.cancelTake i) { call with state := .cancelled }

theorem turnTake_eq {call : TakeCall} {stage : Taking} (found : x.takes[i]? = some call)
    (hstate : call.state = .underWay stage) (now : Nat) :
    x.turnTake now i = { x with
      network := (x.network.turnTake now call.task stage).1
      takes := x.takes.modify i fun other =>
        { other with state := .ofProgress id (x.network.turnTake now call.task stage).2 } } := by
  obtain ⟨t, state⟩ := call
  obtain rfl : state = .underWay stage := hstate
  rw [turnTake, found]

theorem cancelTake_eq {call : TakeCall} {stage : Taking} (found : x.takes[i]? = some call)
    (hstate : call.state = .underWay stage) :
    x.cancelTake i = { x with
      network := x.network.cancelTake call.task stage
      takes := x.takes.modify i fun call => { call with state := .cancelled } } := by
  obtain ⟨t, state⟩ := call
  obtain rfl : state = .underWay stage := hstate
  rw [cancelTake, found]

/-- A call that takes is kept, as the event makes it. -/
theorem exists_takeStep {call : TakeCall} (found : x.takes[i]? = some call) (event : Event) :
    ∃ call', (x.step event).takes[i]? = some call' ∧ x.TakeStep i call event call' := by
  have hstep := x.stepsTo_step event
  generalize x.step event = y at hstep ⊢
  cases hstep with
  | idles hidle =>
    refine ⟨call, found, .stays ?_⟩
    rintro (⟨now, rfl⟩ | rfl)
    · cases hidle with
      | turnTake _ h => exact CallState.stage?_of_bind h found
    · cases hidle with
      | cancelTake h => exact CallState.stage?_of_bind h found
  | divert owner other =>
    exact ⟨_, List.getElem?_map.trans (congrArg (Option.map _) found), .diverts owner other⟩
  | beginTake now t node =>
    exact ⟨call, getElem?_concat_of_some _ found, .stays (by rintro (⟨_, h⟩ | h) <;> cases h)⟩
  | @turnTake now j call' stage found' hstate =>
    rcases getElem?_modify_cases found j with ⟨rfl, hcall⟩ | ⟨hj, hcall⟩
    · obtain rfl := Option.some.inj (found.symm.trans found')
      exact ⟨_, hcall _, .turns now hstate⟩
    · refine ⟨call, hcall _, .stays ?_⟩
      rintro (⟨_, h⟩ | h) <;> cases h
      exact absurd rfl hj
  | @cancelTake j call' stage found' hstate =>
    rcases getElem?_modify_cases found j with ⟨rfl, hcall⟩ | ⟨hj, hcall⟩
    · obtain rfl := Option.some.inj (found.symm.trans found')
      exact ⟨_, hcall _, .cancels hstate⟩
    · refine ⟨call, hcall _, .stays ?_⟩
      rintro (⟨_, h⟩ | h) <;> cases h
      exact absurd rfl hj
  | _ => exact ⟨call, found, .stays (by rintro (⟨_, h⟩ | h) <;> cases h)⟩

theorem takes_step {call : TakeCall} (found : x.takes[i]? = some call)
    (hother : ¬ event.IsOfTake i) :
    ∃ call', (x.step event).takes[i]? = some call' ∧
      CallState.Rerouted Taking.divert call.state call'.state := by
  obtain ⟨call', found', hstep⟩ := exists_takeStep found event
  refine ⟨call', found', ?_⟩
  cases hstep with
  | stays _ => exact .inl rfl
  | diverts owner other => exact .inr ⟨owner, other, rfl⟩
  | turns now _ => exact absurd (.inl ⟨now, rfl⟩) hother
  | cancels _ => exact absurd (.inr rfl) hother

/-! ## Calls that reply -/

/-- What an event makes of a call that replies. -/
inductive ReplyStep (x : Traffic) (j : Nat) (reply : ReplyCall) : Event → ReplyCall → Prop where
  | stays {event : Event} (h : event.IsOfReply j → reply.state.stage? = none) :
      x.ReplyStep j reply event reply
  | diverts (owner : TaskId) (other : PeerId) :
      x.ReplyStep j reply (.divert owner other) (reply.divert owner other)
  | turns (now : Nat) {stage : Replying} (hstate : reply.state = .underWay stage) :
      x.ReplyStep j reply (.turnReply now j)
        { reply with
          state := .ofProgress (ReplyEnd.of (x.network.caller? stage.request))
            (x.network.turnReply now stage).2 }
  | cancels {stage : Replying} (hstate : reply.state = .underWay stage) :
      x.ReplyStep j reply (.cancelReply j) { reply with state := .cancelled }

theorem turnReply_eq {reply : ReplyCall} {stage : Replying} (found : x.replies[j]? = some reply)
    (hstate : reply.state = .underWay stage) (now : Nat) :
    x.turnReply now j = { x with
      network := (x.network.turnReply now stage).1
      replies := x.replies.modify j fun other =>
        { other with
          state := .ofProgress (ReplyEnd.of (x.network.caller? stage.request))
            (x.network.turnReply now stage).2 } } := by
  rw [turnReply, found, Option.bind_some, hstate]
  rfl

/-- A call that replies is kept, as the event makes it. -/
theorem exists_replyStep {reply : ReplyCall} (found : x.replies[j]? = some reply) (event : Event) :
    ∃ reply', (x.step event).replies[j]? = some reply' ∧ x.ReplyStep j reply event reply' := by
  have hstep := x.stepsTo_step event
  generalize x.step event = y at hstep ⊢
  cases hstep with
  | idles hidle =>
    refine ⟨reply, found, .stays ?_⟩
    rintro (⟨now, rfl⟩ | rfl)
    · cases hidle with
      | turnReply _ h => exact CallState.stage?_of_bind h found
    · cases hidle with
      | cancelReply h => exact CallState.stage?_of_bind h found
  | divert owner other =>
    exact ⟨_, List.getElem?_map.trans (congrArg (Option.map _) found), .diverts owner other⟩
  | beginReply now t r outcome =>
    exact ⟨reply, getElem?_concat_of_some _ found, .stays (by rintro (⟨_, h⟩ | h) <;> cases h)⟩
  | @turnReply now k reply' stage found' hstate =>
    rcases getElem?_modify_cases found k with ⟨rfl, hcall⟩ | ⟨hk, hcall⟩
    · obtain rfl := Option.some.inj (found.symm.trans found')
      exact ⟨_, hcall _, .turns now hstate⟩
    · refine ⟨reply, hcall _, .stays ?_⟩
      rintro (⟨_, h⟩ | h) <;> cases h
      exact absurd rfl hk
  | @cancelReply k reply' stage found' hstate =>
    rcases getElem?_modify_cases found k with ⟨rfl, hcall⟩ | ⟨hk, hcall⟩
    · obtain rfl := Option.some.inj (found.symm.trans found')
      exact ⟨_, hcall _, .cancels hstate⟩
    · refine ⟨reply, hcall _, .stays ?_⟩
      rintro (⟨_, h⟩ | h) <;> cases h
      exact absurd rfl hk
  | _ => exact ⟨reply, found, .stays (by rintro (⟨_, h⟩ | h) <;> cases h)⟩

/-- A call that replies has begun with the event, or was there before. -/
theorem begins_or_replyStep {reply' : ReplyCall} (found' : (x.step event).replies[j]? = some reply') :
    (∃ now t r outcome, event = .beginReply now t r outcome ∧ reply' =
      { task := t, request := r, outcome,
        state := .ofProgress (ReplyEnd.of (x.network.caller? r))
          (x.network.beginReply now r outcome).2 }) ∨
    ∃ reply, x.replies[j]? = some reply ∧ x.ReplyStep j reply event reply' := by
  cases found : x.replies[j]? with
  | some reply =>
    obtain ⟨reply'', found'', hstep⟩ := exists_replyStep found event
    obtain rfl := Option.some.inj (found''.symm.trans found')
    exact .inr ⟨reply, rfl, hstep⟩
  | none =>
    left
    have hmodify {k : Nat} {f : ReplyCall → ReplyCall} : (x.replies.modify k f)[j]? = none := by
      rw [List.getElem?_modify, found]
      rfl
    have hstep := x.stepsTo_step event
    generalize x.step event = y at hstep found'
    cases hstep with
    | beginReply now t r outcome =>
      rcases getElem?_concat_eq_some_iff.mp found' with hbefore | ⟨-, rfl⟩
      · cases found.symm.trans hbefore
      · exact ⟨now, t, r, outcome, rfl, rfl⟩
    | divert owner other =>
      obtain ⟨before, hbefore, -⟩ := Option.map_eq_some_iff.mp (List.getElem?_map.symm.trans found')
      cases found.symm.trans hbefore
    | turnReply now _ _ => cases hmodify.symm.trans found'
    | cancelReply _ _ => cases hmodify.symm.trans found'
    | _ => cases found.symm.trans found'

end Traffic

end Replica
