import Replica.Lifecycle.Basic

/-!
# Programs of lifecycle operations

The owner of a lifecycle acts on it by a list of operations, and the callback of a close is again
such a list, run on the same lifecycle between `CLOSING` and `CLOSED`. `Program.run` answers each
operation with its result and the state that it left.
-/

namespace Replica.Lifecycle

/-- An operation on a lifecycle. -/
inductive Action where
  | transition (target : State)
  | compareAndTransition (source target : State)
  | assertNotClosed
  | display
  | name
  /-- Close, and run `onClose` between the two halves. -/
  | close (onClose : List Action)

mutual

/-- The result of an operation. -/
inductive Result where
  | outcome (result : Except PeerError Unit)
  | flag (b : Bool)
  | text (s : String)
  /-- Whether the close took place, and the answers of its callback if it did. -/
  | closed (took : Bool) (onClose : Option (List Answer))

/-- The answer to an operation: its result, and the state that it left. -/
inductive Answer where
  | mk (result : Result) (state : State)

end

def Answer.result : Answer → Result
  | mk result _ => result

def Answer.state : Answer → State
  | mk _ state => state

mutual

/-- Runs one operation. -/
def Action.run : Action → Lifecycle → Lifecycle × Answer
  | .transition target, l =>
    match l.transition target with
    | .ok l => (l, ⟨.outcome (.ok ()), l.state⟩)
    | .error e => (l, ⟨.outcome (.error e), l.state⟩)
  | .compareAndTransition source target, l =>
    match l.compareAndTransition? source target with
    | some l => (l, ⟨.flag true, l.state⟩)
    | none => (l, ⟨.flag false, l.state⟩)
  | .assertNotClosed, l => (l, ⟨.outcome l.assertNotClosed, l.state⟩)
  | .display, l => (l, ⟨.text l.display, l.state⟩)
  | .name, l => (l, ⟨.text l.name, l.state⟩)
  | .close onClose, l =>
    match l.beginClose? with
    | none => (l, ⟨.closed false none, l.state⟩)
    | some l =>
      let (l, answers) := Action.runAll onClose l
      let l := l.finishClose
      (l, ⟨.closed true (some answers), l.state⟩)

/-- Runs a list of operations in order. -/
def Action.runAll : List Action → Lifecycle → Lifecycle × List Answer
  | [], l => (l, [])
  | action :: rest, l =>
    let (l, answer) := action.run l
    let (l, answers) := Action.runAll rest l
    (l, answer :: answers)

end

end Replica.Lifecycle
