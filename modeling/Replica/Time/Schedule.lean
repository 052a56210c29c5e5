/-!
# Cooperative tasks under a virtual clock

A system of tasks is a state together with five functions: how many tasks there are, which of them
can go on at an instant, what going on does to the state, when the next sleeping task wakes, and a
bound on the number of turns before all of them wait. Time is counted in milliseconds.

A task that is given its turn runs until it has to wait. The tasks stand in a line, and the first
one that can go on gets the turn. A task goes to the end of the line when it begins to wait and when
another task's turn wakes it. So tasks go on in the order in which they were woken, and those that
wake at the same instant in the order in which they fell asleep.

`settle` gives turns until nobody can go on, and `wait` lets time pass: it stops at every instant at
which a task wakes, in order, and settles there. What holds after every possible order of turns is
stated about sequences of turns, of which `settle` picks one.
-/

namespace Replica

/-- The number of a task. Tasks are numbered in the order in which they begin. -/
abbrev TaskId := Nat

/-- How tasks behave in a system with states `σ`. -/
structure Schedule (σ : Type) where
  /-- The number of tasks that have begun. -/
  size (s : σ) : Nat
  /-- Whether the task can go on at the instant. -/
  isReady (now : Nat) (t : TaskId) (s : σ) : Bool
  /-- The state after the task has had its turn. -/
  turn (now : Nat) (t : TaskId) (s : σ) : σ
  /-- The first instant at which a sleeping task wakes. -/
  alarm? (s : σ) : Option Nat
  /-- A bound on the number of turns before everybody waits. -/
  effort (s : σ) : Nat

/-- A state at an instant. -/
structure Moment (σ : Type) where
  now : Nat := 0
  state : σ
  /-- The tasks, in the order in which those that can go on get their turns. -/
  line : List TaskId := []

namespace Schedule

variable {σ : Type} (schedule : Schedule σ)

/-- Whether nobody can go on before time passes. -/
def IsQuiet (now : Nat) (s : σ) : Prop := ∀ t, schedule.isReady now t s = false

/-- The tasks that have just begun join the end of the line. -/
def enlist (m : Moment σ) : Moment σ :=
  { m with line := m.line ++ List.range' m.line.length (schedule.size m.state - m.line.length) }

/-- The first in line who can go on. -/
def next? (m : Moment σ) : Option TaskId := m.line.find? fun t => schedule.isReady m.now t m.state

/-- Gives a task its turn. Whoever begins to wait, and whoever is woken, goes to the end of the
line. -/
def giveTurn (t : TaskId) (m : Moment σ) : Moment σ :=
  let after := schedule.turn m.now t m.state
  let stays (u : TaskId) : Bool :=
    schedule.isReady m.now u m.state == schedule.isReady m.now u after
  let (staying, moving) := m.line.partition stays
  { m with state := after, line := staying ++ moving }

/-- At most `fuel` turns, as long as somebody can go on. -/
def turns : (fuel : Nat) → Moment σ → Moment σ
  | 0, m => m
  | fuel + 1, m =>
    match schedule.next? m with
    | none => m
    | some t => turns fuel (schedule.giveTurn t m)

/-- The moment after everybody who can go on has done so. -/
def settle (m : Moment σ) : Moment σ := schedule.turns (schedule.effort m.state) (schedule.enlist m)

/-- Acts on the state at the present instant, and settles. -/
def act (f : Nat → σ → σ) (m : Moment σ) : Moment σ :=
  schedule.settle { m with state := f m.now m.state }

/-- The instant at which to stop next on the way to `target`. -/
def nextStop (target : Nat) (m : Moment σ) : Nat :=
  match schedule.alarm? m.state with
  | some instant => if instant ≤ target then max instant (m.now + 1) else target
  | none => target

/-- Goes to `target`, stopping at no more than `fuel` instants. -/
def advance (target : Nat) : (fuel : Nat) → Moment σ → Moment σ
  | 0, m => m
  | fuel + 1, m =>
    if m.now < target then
      advance target fuel (schedule.settle { m with now := schedule.nextStop target m })
    else m

/-- Lets `ms` milliseconds pass. Every stop is later than the one before, so there are no more
stops than milliseconds. -/
def wait (ms : Nat) (m : Moment σ) : Moment σ := schedule.advance (m.now + ms) ms m

end Schedule

end Replica
