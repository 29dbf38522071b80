import Walkthrough.Playback.Duration
import Walkthrough.Playback.Lifecycle

/-!
# The state of a playback session

* `Deferred` — a call that waits for the session to go on, with its delay.
* `Playback` — status, cursor and deferred calls; the cursor may stand anywhere, also before the
  first or after the last action.
* `push`, `pop?`, `reset` — the queue is first in, first out, and a reset empties it.
-/

set_option autoImplicit false

namespace Walkthrough

/-- A deferred call. -/
structure Deferred (κ : Type) where
  delay : Duration
  call : κ

/-- Status, cursor and deferred calls. -/
structure Playback (κ : Type) where
  status : Status := .idle
  cursor : Int := 0
  pending : List (Deferred κ) := []

namespace Playback

variable {κ : Type}

/-- The greatest cursor, of 64 bits with a sign. -/
def maxCursor : Int := 9223372036854775807

/-- The least cursor. -/
def minCursor : Int := -9223372036854775808

/-- The cursor one further, unless it is at its greatest. -/
def next (cursor : Int) : Int := min (cursor + 1) maxCursor

/-- The cursor one back, unless it is at its least. -/
def previous (cursor : Int) : Int := max (cursor - 1) minCursor

/-- Adds a call at the end of the queue. -/
def push (d : Deferred κ) (p : Playback κ) : Playback κ := { p with pending := p.pending ++ [d] }

/-- Takes the call at the front of the queue. -/
def pop? (p : Playback κ) : Option (Deferred κ × Playback κ) :=
  match p.pending with
  | [] => none
  | d :: rest => some (d, { p with pending := rest })

/-- Idle, at the first action, with nothing deferred. -/
def reset (_ : Playback κ) : Playback κ := {}

end Playback

/-- The name of a status in a description. -/
def Status.label : Status → String
  | .idle => "Idle"
  | .playing => "Playing"
  | .paused => "Paused"

/-- The description of a deferred call; what it does is not shown. -/
def Deferred.describe {κ : Type} (d : Deferred κ) : String :=
  "PendingCall \x7b delay: " ++ Duration.text d.delay ++ ", .. \x7d"

/-- The description of a state. -/
def Playback.describe {κ : Type} (p : Playback κ) : String :=
  "PlaybackState \x7b status: " ++ p.status.label ++ ", action_index: " ++ toString p.cursor ++
    ", pending: [" ++ ", ".intercalate (p.pending.map Deferred.describe) ++ "] \x7d"

end Walkthrough
