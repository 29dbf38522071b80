import Walkthrough.Playback.Stage

/-!
# Running routines

Operations may be nested to any depth: a call that is started inside one may perform others, which
start further calls. A machine keeps what is still to be done as a list of frames, the innermost
first, and does one thing at a time.

* `Machine.step` — one step; none when nothing is left to do.
* `Machine.run` — steps until nothing is left, or the fuel is spent.
* `Stage.enact`, `Stage.operate` — a routine, or a single operation with its reply, performed on a
  stage from outside.
* `Stage.since` — what happened meanwhile.
-/

set_option autoImplicit false

namespace Walkthrough

/-- A stage with what is still to be done, the innermost first. -/
structure Machine where
  stage : Stage
  frames : List Frame

namespace Machine

/-- Continues with what follows an effect, then with `rest`. -/
def follow (r : Stage × List Frame) (rest : List Frame) : Machine := ⟨r.1, r.2 ++ rest⟩

/-- One step of a routine. -/
def stepRoutine (s : Stage) (rest : List Frame) : Routine → Machine
  | .done => ⟨s, rest⟩
  | .look next => ⟨s, .run (next s.snapshot) :: rest⟩
  | .perform op next => follow (s.perform op next) rest
  | .request label delay body next => follow (s.request label delay body) (.run next :: rest)
  | .invoke name next =>
    match s.routines name with
    | none => ⟨s, .run next :: rest⟩
    | some body => ⟨s, .run body :: .run next :: rest⟩

/-- One step of a replay: while the session runs, the call at the front of the queue is launched. -/
def stepReplay (s : Stage) (rest : List Frame) : Machine :=
  match s.status, s.player.playback.pop? with
  | .playing, some (d, playback) =>
    let s := { s with player := { s.player with playback } }
    follow ((s.record (.replayed d.call.ticket)).launch d) (.replay :: rest)
  | _, _ => ⟨s, rest⟩

/-- One step of the clock on its way to `target`: the first timer that is due fires, or the time is
reached. -/
def stepClock (target : Duration) (fired : Nat) (next : Reply → Routine) (s : Stage)
    (rest : List Frame) : Machine :=
  match s.clock.popDue? target with
  | some (timer, clock) =>
    let s := ({ s with clock }).record (.elapsed timer.seq timer.id clock.now)
    follow (s.fire timer.id) (.clock target (fired + 1) next :: rest)
  | none =>
    ⟨{ s with clock := { s.clock with now := target } }, .answer (.count fired) next :: rest⟩

/-- One step. -/
def step (m : Machine) : Option Machine :=
  match m.frames with
  | [] => none
  | .run r :: rest => some (stepRoutine m.stage rest r)
  | .replay :: rest => some (stepReplay m.stage rest)
  | .notify notice :: rest => some ⟨m.stage.record (.notified notice), rest⟩
  | .clock target fired next :: rest => some (stepClock target fired next m.stage rest)
  | .answer reply next :: rest => some ⟨m.stage.record (.replied reply), .run (next reply) :: rest⟩

/-- Steps until nothing is left to do, at most as many as there is fuel. -/
def run : Nat → Machine → Machine
  | 0, m => m
  | fuel + 1, m =>
    match m.step with
    | none => m
    | some m => run fuel m

end Machine

namespace Stage

/-- A stage after a routine was run on it from outside. -/
def enact (fuel : Nat) (r : Routine) (s : Stage) : Stage := (Machine.run fuel ⟨s, [.run r]⟩).stage

/-- What happened since an earlier stage, the earliest first. -/
def since (s earlier : Stage) : List Event :=
  (s.journal.take (s.journal.length - earlier.journal.length)).reverse

/-- A stage after an operation from outside, with its reply. The reply goes to whoever asked, and
not into the journal. -/
def operate (fuel : Nat) (op : Operation) (s : Stage) : Reply × Stage :=
  let after := s.enact fuel (.perform op fun _ => .done)
  match after.journal with
  | .replied reply :: journal => (reply, { after with journal })
  | _ => (.nothing, after)

end Stage

end Walkthrough
