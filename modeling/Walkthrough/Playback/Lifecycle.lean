/-!
# The life of a playback session

* `Status` — idle, playing or paused.
* `Command` — what may be asked for; `Notice` — what the host is told when a session ends.
* `Transition.of` — the status after a command and the effect that belongs to the change.
-/

set_option autoImplicit false

namespace Walkthrough

/-- Whether a session is on, and whether it runs. -/
inductive Status where
  | idle
  | playing
  | paused
  deriving DecidableEq, Repr

/-- What may be asked of a session. -/
inductive Command where
  | play
  | pause
  | stop
  | finish
  deriving DecidableEq, Repr

/-- What the host is told when a session has ended. -/
inductive Notice where
  | stopped
  | finished
  deriving DecidableEq, Repr

/-- What a change of status brings with it: a new session begins, a paused one goes on, or
everything is let go. -/
inductive Effect where
  | enter
  | resume
  | release (notice : Notice)
  deriving DecidableEq, Repr

/-- A new status with its effect. -/
structure Transition where
  status : Status
  effect : Option Effect := none
  deriving DecidableEq, Repr

/-- The transition of a command. A command out of place changes nothing, and playing an empty list
of actions finishes at once. -/
def Transition.of (status : Status) (command : Command) (hasActions : Bool) : Transition :=
  match status, command with
  | .playing, .play => { status := .playing }
  | .paused, .play => { status := .playing, effect := some .resume }
  | .idle, .play =>
    if hasActions then { status := .playing, effect := some .enter }
    else { status := .idle, effect := some (.release .finished) }
  | .playing, .pause => { status := .paused }
  | other, .pause => { status := other }
  | _, .stop => { status := .idle, effect := some (.release .stopped) }
  | _, .finish => { status := .idle, effect := some (.release .finished) }

end Walkthrough
