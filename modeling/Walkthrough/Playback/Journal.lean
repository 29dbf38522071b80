import Walkthrough.Playback.Routine

/-!
# The journal

Everything that happens to a player is written down, the latest first. Each requested call has a
ticket of its own, by which the journal follows it: it is deferred, put in flight, started or
dropped.

* `Event` — one entry.
* `Host`, `Event.heardBy` — what a host gets to know of.
-/

set_option autoImplicit false

namespace Walkthrough

/-- One entry of the journal. -/
inductive Event where
  /-- a command was issued, over a document with or without actions -/
  | issued (c : Command) (hasActions : Bool)
  /-- the host's flag was passed -/
  | flagged (value : Bool)
  /-- the surface was called -/
  | surface (call : SurfaceCall)
  /-- the host was told -/
  | notified (notice : Notice)
  /-- a call was requested -/
  | requested (ticket : Nat) (delay : Duration)
  /-- a call was put at the end of the queue -/
  | deferred (ticket : Nat)
  /-- a call was taken from the front of the queue -/
  | replayed (ticket : Nat)
  /-- a call was given up -/
  | dropped (ticket : Nat)
  /-- a call was put in flight under a timer -/
  | launched (ticket : Nat) (timer : Nat)
  /-- a call was started -/
  | started (ticket : Nat) (label : String)
  /-- a timer was scheduled -/
  | scheduled (seq timer : Nat) (now : Duration) (delay : Duration)
  /-- the clock fired a timer -/
  | elapsed (seq timer : Nat) (now : Duration)
  /-- an operation gave its reply -/
  | replied (reply : Reply)
  deriving Repr

/-- Whether the host listens to notices. -/
inductive Host where
  | listening
  | deaf
  deriving DecidableEq, Repr

/-- The events that show outside a player: what it does to its surface and its host, the calls it
starts, and the replies that say something. -/
def Event.heardBy (host : Host) : Event → Bool
  | .surface _ | .started .. => true
  | .notified _ => host = .listening
  | .replied .nothing => false
  | .replied _ => true
  | _ => false

end Walkthrough
