import Walkthrough.Playback.Journal

/-!
# The stage

A player with all it plays on: a surface, a clock, a tooltip, and the routines that have names.

* `Call`, `Player`, `Stage` — the state.
* `Stage.new` — a player that is idle, under an accepted configuration.
* `Frame` — what is still to be done once an operation has had its immediate effect.
* `Stage.command`, `Stage.launch`, `Stage.request`, `Stage.fire` — the immediate effects, each in
  one step, and what follows them.
* `Stage.perform` — the same for every operation; what follows ends with its reply to the routine
  that performed it.
-/

set_option autoImplicit false

namespace Walkthrough

/-- A requested call. -/
structure Call where
  ticket : Nat
  label : String
  body : Routine

/-- What becomes of calls with a delay: they are kept until the clock fires them, or discarded. -/
inductive TimerPolicy where
  | keep
  | discard
  deriving DecidableEq, Repr

/-- A player. `flag` is the last value of the host's flag, and `nextTimer` numbers the timers, of
which there is no last. -/
structure Player where
  config : Config
  timers : TimerPolicy := .keep
  document : Document := {}
  playback : Playback Call := {}
  inFlight : List (Nat × Call) := []
  nextTimer : Nat := 0
  flag : Bool := false

/-- A player with all it plays on. `tickets` numbers the requested calls. -/
structure Stage where
  player : Player
  surface : Surface := {}
  clock : Clock := {}
  tooltip : Tooltip := {}
  routines : String → Option Routine := fun _ => none
  tickets : Nat := 0
  journal : List Event := []

/-- What is still to be done. -/
inductive Frame where
  /-- run a routine -/
  | run (r : Routine)
  /-- replay the deferred calls -/
  | replay
  /-- tell the host -/
  | notify (notice : Notice)
  /-- move the clock on to a time, with some timers fired already; their number is the reply -/
  | clock (target : Duration) (fired : Nat) (next : Reply → Routine)
  /-- give a reply to the routine that waits for it -/
  | answer (reply : Reply) (next : Reply → Routine)

namespace Stage

/-- A stage with an idle player, unless the configuration is refused. -/
def new (config : Config) (surface : Surface) (timers : TimerPolicy)
    (routines : String → Option Routine) :
    Except Config.Fault Stage :=
  config.validate.map fun _ => { player := { config, timers }, surface, routines }

/-! ## Observation -/

/-- The status of the player. -/
def status (s : Stage) : Status := s.player.playback.status

/-- The cursor of the player. -/
def cursor (s : Stage) : Int := s.player.playback.cursor

/-- The calls that wait for the next resume. -/
def pending (s : Stage) : List (Deferred Call) := s.player.playback.pending

/-- What can be seen from outside. -/
def snapshot (s : Stage) : Snapshot where
  status := s.status
  cursor := s.cursor
  document := s.player.document
  pending := s.pending.length
  inFlight := s.player.inFlight.length
  surface := s.surface
  now := s.clock.now
  scheduled := s.clock.queue.length
  nextDue := s.clock.nextDue
  config := s.player.config
  tooltip := s.tooltip

/-- The view of the tooltip. -/
def view (s : Stage) : Except Tooltip.Fault (Option Tooltip.View) :=
  Tooltip.View.of s.status s.player.document s.cursor s.surface

/-- A description of the player. -/
def summary (s : Stage) : String :=
  "Player \x7b status: " ++ s.status.label ++ ", action_index: " ++ toString s.cursor ++
    ", actions: " ++ toString s.player.document.actions.length ++ ", pending: " ++
    toString s.pending.length ++ ", in_flight: " ++ toString s.player.inFlight.length ++ ", .. \x7d"

/-! ## Small changes -/

/-- Writes an event down. -/
def record (e : Event) (s : Stage) : Stage := { s with journal := e :: s.journal }

/-- Calls the surface. -/
def callSurface (call : SurfaceCall) (s : Stage) : Stage :=
  { s with surface := s.surface.apply call, journal := .surface call :: s.journal }

/-- Changes the playback state. -/
def mapPlayback (f : Playback Call → Playback Call) (s : Stage) : Stage :=
  { s with player := { s.player with playback := f s.player.playback } }

/-- Sets the status. -/
def setStatus (status : Status) (s : Stage) : Stage := s.mapPlayback fun p => { p with status }

/-- Sets the cursor. -/
def setCursor (cursor : Int) (s : Stage) : Stage := s.mapPlayback fun p => { p with cursor }

/-- Gives up all deferred calls. -/
def dropPending (s : Stage) : Stage :=
  { s.mapPlayback (fun p => { p with pending := [] }) with
    journal := (s.pending.map fun d => Event.dropped d.call.ticket).reverse ++ s.journal }

/-- Schedules a timer. -/
def schedule (timer : Nat) (delay : Duration) (s : Stage) : Stage :=
  { s with
    clock := s.clock.schedule timer delay
    journal := .scheduled s.clock.seq timer s.clock.now delay :: s.journal }

/-- Loads a document; its source goes into the surface. -/
def loadDocument (document : Document) (s : Stage) : Stage :=
  let s := s.callSurface (.setContent document.source)
  { s with player := { s.player with document } }

/-! ## Sessions -/

/-- Issues a command. Entering a session gives up what was deferred outside it and locks the surface
on its canonical content; leaving one unlocks the surface and resets the player. -/
def command (c : Command) (s : Stage) : Stage × List Frame :=
  let hasActions := !s.player.document.actions.isEmpty
  let transition := Transition.of s.status c hasActions
  let s := s.record (.issued c hasActions)
  match transition.effect with
  | none => (s.setStatus transition.status, [])
  | some .enter =>
    let s :=
      ((s.dropPending.callSurface .revert).callSurface (.setReadOnly true)).callSurface .focus
    (s.setStatus transition.status, [])
  | some .resume => ((s.callSurface .focus).setStatus transition.status, [.replay])
  | some (.release notice) =>
    let s := (s.callSurface (.setReadOnly false)).dropPending.mapPlayback Playback.reset
    (s.setStatus transition.status, [.notify notice])

/-! ## Calls -/

/-- Starts a call, or puts it in flight until its delay is over. -/
def launch (d : Deferred Call) (s : Stage) : Stage × List Frame :=
  if d.delay = 0 then (s.record (.started d.call.ticket d.call.label), [.run d.call.body])
  else
    match s.player.timers with
    | .discard => (s.record (.dropped d.call.ticket), [])
    | .keep =>
      let timer := s.player.nextTimer
      let player :=
        { s.player with inFlight := s.player.inFlight ++ [(timer, d.call)], nextTimer := timer + 1 }
      ((({ s with player }).record (.launched d.call.ticket timer)).schedule timer d.delay, [])

/-- Requests a call. While the session does not run it is deferred. -/
def request (label : String) (delay : Duration) (body : Routine) (s : Stage) : Stage × List Frame :=
  let call : Call := ⟨s.tickets, label, body⟩
  let s := ({ s with tickets := s.tickets + 1 }).record (.requested call.ticket delay)
  if s.status = .playing then s.launch ⟨delay, call⟩
  else ((s.mapPlayback (Playback.push ⟨delay, call⟩)).record (.deferred call.ticket), [])

/-- Whether a call is in flight under a timer. -/
def holds (timer : Nat) (s : Stage) : Bool := (s.player.inFlight.lookup timer).isSome

/-- Starts the call that is in flight under a timer, if there is one. -/
def fire (timer : Nat) (s : Stage) : Stage × List Frame :=
  match s.player.inFlight.lookup timer with
  | none => (s, [])
  | some call =>
    let player := { s.player with inFlight := s.player.inFlight.filter fun (t, _) => t ≠ timer }
    (({ s with player }).record (.started call.ticket call.label), [.run call.body])

/-! ## Operations -/

/-- The reply to a question. -/
def answer (q : Query) (s : Stage) : Reply :=
  match q with
  | .view =>
    match s.view with
    | .ok view => .view view
    | .error cause => .tooltipFault cause
  | .locate p => .point (s.surface.locate p)
  | .content => .text s.surface.content
  | .document => .document s.player.document
  | .action => .action (s.player.document.action? s.cursor)
  | .config => .config s.player.config
  | .editor => .editor s.player.config.editor
  | .summary => .text s.summary

/-- The effect of a tooltip's input. -/
def receive (input : Tooltip.Input) (s : Stage) : Stage × List Frame :=
  let (tooltip, reaction) := s.tooltip.receive input s.cursor s.player.document.actions.length
  let s := { s with tooltip }
  match reaction with
  | none => (s, [])
  | some (.moveTo cursor) => (s.setCursor cursor, [])
  | some (.command c) => s.command c

/-- Aligns the tooltip with its view, if there is one; also what to reply. -/
def align (s : Stage) : Reply × Stage :=
  match s.view with
  | .error cause => (.tooltipFault cause, s)
  | .ok none => (.tooltip s.tooltip, s)
  | .ok (some view) =>
    let tooltip := s.tooltip.align view
    (.tooltip tooltip, { s with tooltip })

/-- Loads the document of a text, unless the text has a fault; also what to reply. -/
def load (text : String) (s : Stage) : Reply × Stage :=
  match Document.parse s.player.config.separator text with
  | .error cause => (.documentFault cause, s)
  | .ok document => (.nothing, s.loadDocument document)

/-- Passes the host's flag. Only a change of the flag commands anything. -/
def follow (value : Bool) (s : Stage) : Stage × List Frame :=
  let changed := value ≠ s.player.flag
  let s := ({ s with player := { s.player with flag := value } }).record (.flagged value)
  if changed then s.command (if value then .play else .pause) else (s, [])

/-- The immediate effect of an operation, and what follows it: the reply comes last and goes to
`next`. -/
def perform (op : Operation) (next : Reply → Routine) (s : Stage) : Stage × List Frame :=
  let replying := fun (reply : Reply) (r : Stage × List Frame) => (r.1, r.2 ++ [.answer reply next])
  match op with
  | .command c => replying .nothing (s.command c)
  | .toggle => replying .nothing (s.command (if s.status = .playing then .pause else .play))
  | .follow value => replying .nothing (s.follow value)
  | .setCursor cursor => replying .nothing (s.setCursor cursor, [])
  | .advance => replying .nothing (s.setCursor (Playback.next s.cursor), [])
  | .retreat => replying .nothing (s.setCursor (Playback.previous s.cursor), [])
  | .load text =>
    let (reply, s) := s.load text
    replying reply (s, [])
  | .loadDocument document => replying .nothing (s.loadDocument document, [])
  | .edit text =>
    let (accepted, surface) := s.surface.edit text
    replying (.flag accepted) ({ s with surface }, [])
  | .fire timer => replying (.flag (s.holds timer)) (s.fire timer)
  | .elapse time => (s, [.clock (s.clock.now + time) 0 next])
  | .schedule timer delay => replying .nothing (s.schedule timer delay, [])
  | .tooltip input =>
    let r := s.receive input
    replying (.tooltip r.1.tooltip) r
  | .align =>
    let (reply, s) := s.align
    replying reply (s, [])
  | .resetTooltip => replying (.tooltip {}) ({ s with tooltip := {} }, [])
  | .ask query => replying (s.answer query) (s, [])

end Stage

end Walkthrough
