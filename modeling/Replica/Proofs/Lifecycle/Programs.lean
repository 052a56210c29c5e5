import Mathlib.Data.List.Chain
import Replica.Lifecycle.Program

/-!
# What a program can do to a lifecycle

A close writes `CLOSING` and `CLOSED` without a look at the table, and what its callback does in
between is any program at all, closes included. The table is kept nevertheless: from `CLOSING` there
is one move, so whatever the callback does, the close finds the lifecycle in one of the last two
states when it comes to write `CLOSED`.

`callsOfAll` lists the calls that a program makes at any depth, and `seenByAll` the states that the
lifecycle goes through. `Orderly` says what holds of both, and `orderly_runAll` that it holds of
every program. The induction is on the nesting; what carries it is the `Trail` from the state before
an operation to the state after it, and the number of closes that have begun.
-/

namespace Replica.Lifecycle

variable {action : Action} {program onClose : List Action} {l start : Lifecycle} {c : Call}
  {s t : State}

/-! ## Calls and states of a run -/

/-- A call in a run: the operation, and the lifecycle it is called on. -/
structure Call where
  action : Action
  before : Lifecycle

namespace Call

/-- The lifecycle that the call leaves. -/
def after (c : Call) : Lifecycle := (c.action.run c.before).1

def answer (c : Call) : Answer := (c.action.run c.before).2

/-- The callback that the call runs, and the lifecycle that it starts on. -/
def callback? (c : Call) : Option (List Action × Lifecycle) :=
  match c.action with
  | .close onClose => c.before.beginClose?.map (onClose, ·)
  | _ => none

end Call

/-- Whether an operation returned `true`. -/
def Result.isTrue : Result → Bool
  | .flag b | .closed b _ => b
  | _ => false

/-- Whether an operation failed or returned `false`. -/
def Result.isFailure : Result → Bool
  | .outcome (.error _) => true
  | .flag b | .closed b _ => !b
  | _ => false

mutual

/-- The calls that an operation makes: its own, and then those of its callback. -/
def Action.calls : Action → Lifecycle → List Call
  | .close onClose, l =>
    ⟨.close onClose, l⟩ ::
      match l.beginClose? with
      | none => []
      | some start => Action.callsOfAll onClose start
  | action, l => [⟨action, l⟩]

/-- The calls that a program makes, at any depth, in the order in which they are made. -/
def Action.callsOfAll : List Action → Lifecycle → List Call
  | [], _ => []
  | action :: rest, l => action.calls l ++ Action.callsOfAll rest (action.run l).1

end

mutual

/-- The states that a lifecycle goes through in an operation, the one that it leaves included. -/
def Action.seen : Action → Lifecycle → List State
  | .close onClose, l =>
    match l.beginClose? with
    | none => [l.state]
    | some start =>
      start.state :: Action.seenByAll onClose start ++ [((Action.close onClose).run l).1.state]
  | action, l => [(action.run l).1.state]

/-- The states that a lifecycle goes through in a program, one after the other. -/
def Action.seenByAll : List Action → Lifecycle → List State
  | [], _ => []
  | action :: rest, l => action.seen l ++ Action.seenByAll rest (action.run l).1

end

mutual

/-- The answer to an operation, and then those that its callback got. -/
def Answer.all : Answer → List Answer
  | ⟨.closed took (some answers), s⟩ => ⟨.closed took (some answers), s⟩ :: Answer.allOf answers
  | ⟨result, s⟩ => [⟨result, s⟩]

/-- The answers to a program, those at any depth included. -/
def Answer.allOf : List Answer → List Answer
  | [] => []
  | answer :: rest => answer.all ++ Answer.allOf rest

end

/-! ## One operation -/

@[simp] theorem withState_state (target : State) (l : Lifecycle) :
    (l.withState target).state = target := rfl

/-- A lifecycle is on its way to the end exactly if it is closing or closed. -/
theorem State.isClosingOrClosed_iff : s.isClosingOrClosed = true ↔ s = .closing ∨ s = .closed := by
  cases s <;> decide

/-- A close begins exactly if no other one has begun. -/
theorem beginClose?_eq_some :
    l.beginClose? = some start ↔ l.state.isClosingOrClosed = false ∧ start = l.withState .closing := by
  unfold beginClose?
  cases l.state.isClosingOrClosed <;> simp [eq_comm]

/-- A close that takes place runs its callback on the closing lifecycle and closes it. -/
theorem run_close (began : l.beginClose? = some start) :
    (Action.close onClose).run l =
      ((Action.runAll onClose start).1.finishClose,
        ⟨.closed true (some (Action.runAll onClose start).2), .closed⟩) := by
  simp only [Action.run, began]
  rfl

/-- A close of a lifecycle that is closing or closed does nothing. -/
theorem run_close_refused (refused : l.beginClose? = none) :
    (Action.close onClose).run l = (l, ⟨.closed false none, l.state⟩) := by
  simp only [Action.run, refused]

/-- The lifecycle may be in `t` next, once it is in `s`. -/
def Next (s t : State) : Prop := s = t ∨ s.mayMoveTo t = true

/-- An operation other than a close leaves the lifecycle as it was, or moves it by the table. -/
theorem run_next (other : ∀ onClose, action ≠ .close onClose) :
    Next l.state (action.run l).1.state := by
  cases action with
  | transition target =>
    simp only [Action.run, Lifecycle.transition]
    split <;> rename_i h <;> split at h <;> cases h
    · rename_i allowed
      exact .inr allowed
    · exact .inl rfl
  | compareAndTransition source target =>
    simp only [Action.run, compareAndTransition?]
    split <;> rename_i h <;> split at h <;> cases h
    · rename_i allowed
      obtain ⟨rfl, allowed⟩ := allowed
      exact .inr allowed
    · exact .inl rfl
  | close onClose => exact absurd rfl (other onClose)
  | _ => exact .inl rfl

/-- An operation that fails or returns `false` leaves the lifecycle as it was. -/
theorem run_failed (failed : (action.run l).2.result.isFailure = true) : (action.run l).1 = l := by
  cases action with
  | close onClose =>
    cases began : l.beginClose? with
    | none => rw [run_close_refused began]
    | some start =>
      rw [run_close began] at failed
      cases failed
  | transition target =>
    simp only [Action.run] at failed ⊢
    cases h : l.transition target with
    | error e => rfl
    | ok l' =>
      rw [h] at failed
      cases failed
  | compareAndTransition source target =>
    simp only [Action.run] at failed ⊢
    cases h : l.compareAndTransition? source target with
    | none => rfl
    | some l' =>
      rw [h] at failed
      cases failed
  | _ => rfl

/-! ## The states that a run goes through -/

/-- A lifecycle that is closing or closed stays so. -/
theorem Next.isClosingOrClosed (next : Next s t) (gone : s.isClosingOrClosed = true) :
    t.isClosingOrClosed = true := by
  rcases next with rfl | next
  · exact gone
  · revert gone next
    cases s <;> cases t <;> decide

/-- Nothing comes after closed. -/
theorem Next.eq_closed (next : Next s t) (gone : s = .closed) : t = .closed := by
  rcases next with rfl | next
  · exact gone
  · revert next
    subst gone
    cases t <;> decide

/-- `t` may come at any time after `s`: the last two states have no way back. -/
def Later (s t : State) : Prop :=
  (s.isClosingOrClosed = true → t.isClosingOrClosed = true) ∧ (s = .closed → t = .closed)

instance : Trans Later Later Later where
  trans hst htu := ⟨htu.1 ∘ hst.1, htu.2 ∘ hst.2⟩

/-- The next state is later in the order of states. -/
theorem Next.later (next : Next s t) : Later s t := ⟨next.isClosingOrClosed, next.eq_closed⟩

/-- The way from `s` to `t` through the states of a list, each step as the table has it. -/
inductive Trail : State → List State → State → Prop
  | nil (s : State) : Trail s [] s
  | cons {s t u : State} {seen : List State} : Next s t → Trail t seen u → Trail s (t :: seen) u

namespace Trail

variable {u : State} {seen more : List State}

/-- A single step is a trail. -/
theorem single (next : Next s t) : Trail s [t] t := .cons next (.nil t)

/-- Trails may be joined. -/
theorem append (first : Trail s seen t) (second : Trail t more u) :
    Trail s (seen ++ more) u := by
  induction first with
  | nil s => exact second
  | cons next _ ih => exact .cons next (ih second)

/-- Along a trail each state is followed by one that may come next. -/
theorem isChain (trail : Trail s seen t) : (s :: seen).IsChain Next := by
  induction trail with
  | nil s => exact .singleton s
  | cons next _ ih => exact .cons_cons next ih

/-- A trail ends where it says. -/
theorem getLast (trail : Trail s seen t) : (s :: seen).getLast? = some t := by
  induction trail with
  | nil s => rfl
  | cons next _ ih => rw [List.getLast?_cons_cons, ih]

/-- States only become later along a trail. -/
theorem pairwise (trail : Trail s seen t) : (s :: seen).Pairwise Later :=
  (trail.isChain.imp fun _ _ next => next.later).pairwise

/-- So the last one is not earlier than the first. -/
theorem later (trail : Trail s seen t) : Later s t := by
  induction trail with
  | nil s => exact ⟨id, id⟩
  | cons next _ ih => exact Trans.trans next.later ih

end Trail

/-- A lifecycle that is alive may begin to close. -/
theorem Next.closing (alive : s.isClosingOrClosed = false) : Next s .closing := by
  refine .inr ?_
  revert alive
  cases s <;> decide

/-- A lifecycle that is closing may be closed, and one that is closed stays so. -/
theorem Next.closed (gone : s.isClosingOrClosed = true) : Next s .closed := by
  rcases State.isClosingOrClosed_iff.mp gone with rfl | rfl
  · exact .inr rfl
  · exact .inl rfl

mutual

/-- The states that an action goes through are a trail. -/
theorem Action.seen_trail (action : Action) (l : Lifecycle) :
    Trail l.state (action.seen l) (action.run l).1.state := by
  cases action with
  | close onClose =>
    cases began : l.beginClose? with
    | none =>
      rw [run_close_refused began]
      simp only [Action.seen, began]
      exact .single (.inl rfl)
    | some start =>
      have inner := Action.seenByAll_trail onClose start
      obtain ⟨alive, rfl⟩ := beginClose?_eq_some.mp began
      simp only [Action.seen, began, run_close began]
      exact .cons (.closing alive)
        (inner.append (.single (.closed (inner.later.1 rfl))))
  | _ => exact .single (run_next (by simp))

/-- A program takes the lifecycle from state to state as the table has it. -/
theorem Action.seenByAll_trail (program : List Action) (l : Lifecycle) :
    Trail l.state (Action.seenByAll program l) (Action.runAll program l).1.state := by
  cases program with
  | nil => exact .nil _
  | cons action rest =>
    exact (Action.seen_trail action l).append (Action.seenByAll_trail rest (action.run l).1)

end

/-! ## The calls of a run -/

/-- The number of closes that have begun by the time at which the lifecycle is in the state. -/
def State.closings (s : State) : Nat := s.isClosingOrClosed.toNat

/-- The callbacks that a list of calls runs. -/
def callbacksOf (calls : List Call) : List (List Action × Lifecycle) :=
  calls.filterMap Call.callback?

/-- The callbacks of two lists of calls are those of the one and then of the other. -/
theorem callbacksOf_append (calls more : List Call) :
    callbacksOf (calls ++ more) = callbacksOf calls ++ callbacksOf more :=
  List.filterMap_append

/-- A close that begins is one call, and its callback makes the others. -/
theorem calls_close (began : l.beginClose? = some start) :
    (Action.close onClose).calls l = ⟨.close onClose, l⟩ :: Action.callsOfAll onClose start := by
  simp only [Action.calls, began]

/-- A close that is refused is one call, without a callback. -/
theorem calls_close_refused (refused : l.beginClose? = none) :
    (Action.close onClose).calls l = [⟨.close onClose, l⟩] := by
  simp only [Action.calls, refused]

/-- The calls of a program are those of its first action and then those of the rest. -/
theorem callsOfAll_cons (action : Action) (rest : List Action) (l : Lifecycle) :
    Action.callsOfAll (action :: rest) l =
      action.calls l ++ Action.callsOfAll rest (action.run l).1 := by
  rw [Action.callsOfAll]

/-- A close has a callback exactly if it begins. -/
theorem callback?_close (onClose : List Action) (l : Lifecycle) :
    (Call.mk (.close onClose) l).callback? = l.beginClose?.map (onClose, ·) := rfl

/-- Fewer closings lie ahead of a later state. -/
theorem closings_le (next : Later s t) : s.closings ≤ t.closings := by
  unfold State.closings
  cases hs : s.isClosingOrClosed with
  | false => exact Nat.zero_le _
  | true => rw [next.1 hs]

mutual

/-- Each callback that runs uses up one closing, whatever the callback itself does. -/
theorem Action.closings_add_callbacks (action : Action) (l : Lifecycle) :
    l.state.closings + (callbacksOf (action.calls l)).length ≤ (action.run l).1.state.closings := by
  cases action with
  | close onClose =>
    cases began : l.beginClose? with
    | none =>
      rw [calls_close_refused began, run_close_refused began]
      simp [callbacksOf, callback?_close, began]
    | some start =>
      -- the callback starts with one close begun already, so that it can run none
      have inner := Action.closings_add_callbacksOfAll onClose start
      obtain ⟨alive, rfl⟩ := beginClose?_eq_some.mp began
      have most : (Action.runAll onClose (l.withState .closing)).1.state.closings ≤ 1 :=
        Bool.toNat_le _
      have none_yet : l.state.closings = 0 := by rw [State.closings, alive]; rfl
      have one_begun : (l.withState .closing).state.closings = 1 := rfl
      have own : callbacksOf ((Action.close onClose).calls l) =
          (onClose, l.withState .closing) ::
            callbacksOf (Action.callsOfAll onClose (l.withState .closing)) := by
        rw [calls_close began, callbacksOf, List.filterMap_cons_some (by rw [callback?_close, began]; rfl)]
        rfl
      rw [run_close began, own, List.length_cons]
      show _ ≤ 1
      omega
  | _ => exact closings_le (Action.seen_trail _ l).later

/-- Each callback takes a close that has not begun before, and there is only one. -/
theorem Action.closings_add_callbacksOfAll (program : List Action) (l : Lifecycle) :
    l.state.closings + (callbacksOf (Action.callsOfAll program l)).length ≤
      (Action.runAll program l).1.state.closings := by
  cases program with
  | nil => exact Nat.le_refl _
  | cons action rest =>
    have first := Action.closings_add_callbacks action l
    have others := Action.closings_add_callbacksOfAll rest (action.run l).1
    rw [callsOfAll_cons, callbacksOf_append, List.length_append]
    show _ ≤ (Action.runAll rest (action.run l).1).1.state.closings
    omega

end

mutual

/-- The answers of an action are those of its calls. -/
theorem Action.answers_calls (action : Action) (l : Lifecycle) :
    (action.run l).2.all = (action.calls l).map Call.answer := by
  cases action with
  | close onClose =>
    cases began : l.beginClose? with
    | none =>
      rw [calls_close_refused began, List.map_singleton, Call.answer, run_close_refused began]
      simp only [Answer.all]
    | some start =>
      rw [calls_close began, List.map_cons, Call.answer, run_close began,
        ← Action.answers_callsOfAll onClose start]
      simp only [Answer.all]
  | transition target =>
    simp only [Action.calls, Action.run, List.map_singleton, Call.answer]
    split <;> simp only [Answer.all]
  | compareAndTransition source target =>
    simp only [Action.calls, Action.run, List.map_singleton, Call.answer]
    split <;> simp only [Answer.all]
  | _ => simp only [Action.calls, Action.run, List.map_singleton, Call.answer, Answer.all]

/-- The answers to a program, those at any depth included, are those to its calls. -/
theorem Action.answers_callsOfAll (program : List Action) (l : Lifecycle) :
    Answer.allOf (Action.runAll program l).2 = (Action.callsOfAll program l).map Call.answer := by
  cases program with
  | nil => simp only [Action.runAll, Answer.allOf, Action.callsOfAll, List.map_nil]
  | cons action rest =>
    rw [callsOfAll_cons, List.map_append, ← Action.answers_calls action l,
      ← Action.answers_callsOfAll rest (action.run l).1]
    simp only [Action.runAll, Answer.allOf]

end

mutual

/-- Every call is made in a state that the action goes through, and so is what comes of it. -/
theorem Action.seen_calls (action : Action) (l : Lifecycle) :
    ∀ c ∈ action.calls l,
      c.before.state ∈ l.state :: action.seen l ∧ c.after.state ∈ action.seen l := by
  cases action with
  | close onClose =>
    cases began : l.beginClose? with
    | none =>
      rw [calls_close_refused began]
      simp only [Action.seen, began, List.mem_singleton, forall_eq, Call.after]
      rw [run_close_refused began]
      exact ⟨.head _, rfl⟩
    | some start =>
      have inner := Action.seen_callsOfAll onClose start
      rw [calls_close began]
      simp only [Action.seen, began]
      intro c hc
      rcases List.mem_cons.mp hc with rfl | hc
      · exact ⟨.head _, by simp [Call.after]⟩
      · obtain ⟨before, after⟩ := inner c hc
        exact ⟨.tail _ (List.mem_append_left _ before), List.mem_append_left _ (.tail _ after)⟩
  | _ =>
    simp only [Action.calls, Action.seen, List.mem_singleton, forall_eq, Call.after, and_true]
    exact .head _

/-- Every call of a program is made in a state that the program goes through. -/
theorem Action.seen_callsOfAll (program : List Action) (l : Lifecycle) :
    ∀ c ∈ Action.callsOfAll program l,
      c.before.state ∈ l.state :: Action.seenByAll program l ∧
        c.after.state ∈ Action.seenByAll program l := by
  cases program with
  | nil => intro c hc; simp only [Action.callsOfAll, List.not_mem_nil] at hc
  | cons action rest =>
    intro c hc
    rw [callsOfAll_cons] at hc
    simp only [Action.seenByAll]
    rcases List.mem_append.mp hc with hc | hc
    · obtain ⟨before, after⟩ := Action.seen_calls action l c hc
      rw [← List.cons_append]
      exact ⟨List.mem_append_left _ before, List.mem_append_left _ after⟩
    · obtain ⟨before, after⟩ := Action.seen_callsOfAll rest (action.run l).1 c hc
      refine ⟨?_, List.mem_append_right _ after⟩
      rcases List.mem_cons.mp before with here | before
      · -- the call starts where the operation before it has left the lifecycle
        rw [here, ← List.cons_append]
        exact List.mem_append_left _ (List.mem_of_getLast? (Action.seen_trail action l).getLast)
      · exact .tail _ (List.mem_append_right _ before)

end

/-! ## The law of programs -/

/-- What holds of the run of a program: the calls that it makes, and the states that the lifecycle
goes through. -/
structure Orderly (program : List Action) (l : Lifecycle) : Prop where
  /-- The answers of the run, those of callbacks included, are those to its calls. -/
  answers : Answer.allOf (Action.runAll program l).2 =
    (Action.callsOfAll program l).map Call.answer
  /-- A call meets a state that the run goes through, and leaves one. -/
  shown : ∀ c ∈ Action.callsOfAll program l,
    c.before.state ∈ l.state :: Action.seenByAll program l ∧
      c.after.state ∈ Action.seenByAll program l
  last : (l.state :: Action.seenByAll program l).getLast? =
    some (Action.runAll program l).1.state
  /-- Every change of state is one that the table has. -/
  moves : (l.state :: Action.seenByAll program l).IsChain
    fun s t => s ≠ t → s.mayMoveTo t = true
  /-- An operation that fails or returns `false` leaves the lifecycle as it was. -/
  failures : ∀ c ∈ Action.callsOfAll program l,
    c.answer.result.isFailure = true → c.after = c.before
  /-- One callback runs at most. -/
  once : (callbacksOf (Action.callsOfAll program l)).length ≤ 1
  /-- A callback starts when the lifecycle is closing. -/
  entered : ∀ ran ∈ callbacksOf (Action.callsOfAll program l), ran.2.state = .closing
  /-- A close returns `true` if and only if its callback ran, and hands out what the callback was
  answered; the lifecycle is closed by then. -/
  closes : ∀ c ∈ Action.callsOfAll program l, ∀ onClose, c.action = .close onClose →
    (c.answer.result.isTrue = true ↔ ∃ start, c.callback? = some (onClose, start)) ∧
      (∀ start, c.callback? = some (onClose, start) →
        c.answer.result = .closed true (some (Action.runAll onClose start).2)) ∧
      (c.answer.result.isTrue = true → c.after.state = .closed)
  /-- From `CLOSING` on, the lifecycle is seen closing or closed. -/
  closing : (l.state :: Action.seenByAll program l).Pairwise
    fun s t => s = .closing → t = .closing ∨ t = .closed
  /-- The lifecycle never leaves `CLOSED`. -/
  closed : (l.state :: Action.seenByAll program l).Pairwise fun s t => s = .closed → t = .closed

/-- A callback runs while the lifecycle is closing. -/
theorem entered_callback {ran : List Action × Lifecycle} (h : c.callback? = some ran) :
    ran.2.state = .closing := by
  obtain ⟨action, l⟩ := c
  cases action with
  | close onClose =>
    obtain ⟨start, began, rfl⟩ := Option.map_eq_some_iff.mp h
    obtain ⟨-, rfl⟩ := beginClose?_eq_some.mp began
    rfl
  | _ => cases h

/-- A close ends with `true` and `CLOSED` if it ran its callback, and with `false` otherwise. -/
theorem answer_close (onClose : List Action) (l : Lifecycle) :
    match (Call.mk (.close onClose) l).callback? with
    | some (_, start) => (Call.mk (.close onClose) l).answer =
        ⟨.closed true (some (Action.runAll onClose start).2), .closed⟩ ∧
        (Call.mk (.close onClose) l).after.state = .closed
    | none => (Call.mk (.close onClose) l).answer = ⟨.closed false none, l.state⟩ := by
  rw [callback?_close]
  cases began : l.beginClose? with
  | none => exact congrArg Prod.snd (run_close_refused began)
  | some start =>
    refine ⟨congrArg Prod.snd (run_close began), ?_⟩
    rw [Call.after, run_close began]
    rfl

/-- Programs keep the law on any lifecycle that they are run on. -/
theorem orderly_runAll (program : List Action) (l : Lifecycle) : Orderly program l where
  answers := Action.answers_callsOfAll program l
  shown := Action.seen_callsOfAll program l
  last := (Action.seenByAll_trail program l).getLast
  moves := (Action.seenByAll_trail program l).isChain.imp fun _ _ next hne => next.resolve_left hne
  failures c _ failed := run_failed failed
  once := by
    have count := Action.closings_add_callbacksOfAll program l
    have most : (Action.runAll program l).1.state.closings ≤ 1 := Bool.toNat_le _
    omega
  entered ran hran := by
    obtain ⟨c, -, hc⟩ := List.mem_filterMap.mp hran
    exact entered_callback hc
  closes c _ onClose h := by
    obtain ⟨action, before⟩ := c
    obtain rfl : action = .close onClose := h
    have ends := answer_close onClose before
    cases hran : (Call.mk (.close onClose) before).callback? with
    | none =>
      rw [hran] at ends
      simp [ends, Result.isTrue, Answer.result]
    | some ran =>
      obtain ⟨start, rfl⟩ : ∃ start, ran = (onClose, start) := by
        obtain ⟨start, -, rfl⟩ := Option.map_eq_some_iff.mp hran
        exact ⟨start, rfl⟩
      rw [hran] at ends
      simp [ends, Result.isTrue, Answer.result]
  closing := (Action.seenByAll_trail program l).pairwise.imp fun later hs =>
    State.isClosingOrClosed_iff.mp (later.1 (State.isClosingOrClosed_iff.mpr (.inl hs)))
  closed := (Action.seenByAll_trail program l).pairwise.imp And.right

-- a callback that closes again and finishes the close itself
example :
    Action.seenByAll
      [.transition .starting, .close [.close [], .transition .closed, .transition .new]]
      { name := "proxy" } =
        [.starting, .closing, .closing, .closed, .closed, .closed] := by
  decide

end Replica.Lifecycle
