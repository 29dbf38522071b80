import Walkthrough.Playback.Duration

/-!
# The clock

A clock that is moved by hand. Its timers fire in the order of their due times, and timers due at
one time in the order in which they were scheduled.

* `Timer`, `Clock` — the queue is kept in firing order.
* `Clock.schedule`, `Clock.popDue?` — a timer goes in, and the first one that is due comes out.
-/

set_option autoImplicit false

namespace Walkthrough

/-- A scheduled timer. -/
structure Timer where
  due : Duration
  seq : Nat
  id : Nat
  deriving DecidableEq, Repr

/-- Firing order. -/
def Timer.before (a b : Timer) : Bool := a.due < b.due || (a.due = b.due && a.seq < b.seq)

/-- A time with the timers to come. `seq` numbers the timers as they are scheduled, and does not run
out of numbers. -/
structure Clock where
  now : Duration := 0
  seq : Nat := 0
  queue : List Timer := []
  deriving DecidableEq, Repr

namespace Clock

/-- Puts a timer into a queue in firing order. -/
def insert (t : Timer) : List Timer → List Timer
  | [] => [t]
  | u :: rest => if t.before u then t :: u :: rest else u :: insert t rest

/-- The timer that the next call of `schedule` adds. -/
def timer (id : Nat) (delay : Duration) (c : Clock) : Timer := ⟨c.now + delay, c.seq, id⟩

/-- Adds a timer that is due after a delay. -/
def schedule (id : Nat) (delay : Duration) (c : Clock) : Clock :=
  { c with seq := c.seq + 1, queue := insert (c.timer id delay) c.queue }

/-- Takes out the first timer if it is due by `target`, and moves the time to where it is due. -/
def popDue? (target : Duration) (c : Clock) : Option (Timer × Clock) :=
  match c.queue with
  | [] => none
  | t :: rest => if t.due ≤ target then some (t, { c with now := t.due, queue := rest }) else none

/-- When the first timer is due. -/
def nextDue (c : Clock) : Option Duration := c.queue.head?.map Timer.due

end Clock

end Walkthrough
