/-!
# Sleeping and polling

Whoever sleeps is woken after the time it asked for, or after thirty years if it asked for more.
Only sleeping is limited: a deadline may lie as far off as one likes. Times and instants are counted
in milliseconds.

Polling is waiting by looking: a condition is looked at, and as long as it holds, looked at again
after a sleep of one interval. `Polling.run` counts the looks and the time until the condition first
fails. A condition may depend on the number of earlier looks and on the time that has passed.
-/

namespace Replica.Sleep

/-- The longest sleep: thirty years of 365 days. -/
def longest : Nat := 30 * 365 * 24 * 60 * 60 * 1000

/-- How long a sleep lasts for which `ms` was asked. -/
def span (ms : Nat) : Nat := min ms longest

/-- When a sleep ends that begins now. -/
def wake (now ms : Nat) : Nat := now + span ms

end Replica.Sleep

namespace Replica

/-- What a polling wait has come to: the looks so far and the time that has passed. -/
structure Polling where
  looks : Nat := 0
  elapsed : Nat := 0
  deriving DecidableEq, Inhabited

namespace Polling

/-- Looks as long as `holds`, with sleeps of `interval` between, at most `fuel` times more. -/
def run (interval : Nat) (holds : Polling → Bool) : (fuel : Nat) → Polling → Polling
  | 0, p => p
  | fuel + 1, p =>
    if holds p then run interval holds fuel ⟨p.looks + 1, Sleep.wake p.elapsed interval⟩
    else { p with looks := p.looks + 1 }

/-- Waits while the first `times` looks find the condition. -/
def whileLooks (times interval : Nat) : Polling :=
  run interval (fun p => p.looks < times) (times + 1) {}

/-- Waits until `instant` has passed, looking every `interval`. -/
def untilElapsed (instant interval : Nat) : Polling :=
  run interval (fun p => p.elapsed < instant) (instant + 1) {}

/-- A plain delay, which looks at nothing. -/
def delay (ms : Nat) : Polling := { elapsed := Sleep.span ms }

end Polling

end Replica
