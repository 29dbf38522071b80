import Walkthrough.Proofs.Playback.Session

/-!
# Stages in another guise

Most operations see of a stage its status, cursor and document, the surface, the tooltip, the flag
and the configuration. The queue, the calls in flight, the clock, the tickets and the journal may be
others: on a stage in another guise such an operation does the same.

* `Guise`, `Guise.stage` — what may be another, and a stage in a guise.
* `Guise.command`, `Guise.receive`, `Guise.follow`, `Guise.load`, `Guise.align` — what is done in a
  guise is done as without it.
* `Operation.isHeedless`, `Guise.perform` — the operations of which this holds.
-/

set_option autoImplicit false

namespace Walkthrough

/-- Whether an event has no number: no ticket, timer, place or time. -/
def Event.isUnnumbered : Event → Bool
  | .issued .. | .flagged _ | .surface _ | .notified _ | .replied _ => true
  | _ => false

/-- What a stage has instead of its own queue, calls in flight, clock, tickets and journal. An event
without numbers is written down as it is, and a deferred call is given up by the ticket that it has
in the guise. -/
structure Guise where
  timers : TimerPolicy → TimerPolicy
  pending : List (Deferred Call) → List (Deferred Call)
  inFlight : List (Nat × Call) → List (Nat × Call)
  nextTimer : Nat → Nat
  clock : Clock → Clock
  tickets : Nat → Nat
  journal : List Event → List Event
  pending_nil : pending [] = []
  journal_cons : ∀ e es, e.isUnnumbered = true → journal (e :: es) = e :: journal es
  journal_dropped : ∀ ds es,
    journal ((ds.map fun d => Event.dropped d.call.ticket).reverse ++ es) =
      ((pending ds).map fun d => Event.dropped d.call.ticket).reverse ++ journal es

/-- Whether an operation neither moves the clock nor handles timers, and does not tell how many
calls wait or are in flight. -/
def Operation.isHeedless : Operation → Bool
  | .elapse _ | .fire _ | .schedule .. | .ask .summary => false
  | _ => true

namespace Stage

/-- What the player does about an input of the tooltip. -/
def react (reaction : Option Tooltip.Reaction) (s : Stage) : Stage × List Frame :=
  match reaction with
  | none => (s, [])
  | some (.moveTo cursor) => (s.setCursor cursor, [])
  | some (.command c) => s.command c

theorem receive_eq (input : Tooltip.Input) (s : Stage) :
    s.receive input =
      ({ s with tooltip :=
        (s.tooltip.receive input s.cursor s.player.document.actions.length).1 }).react
        (s.tooltip.receive input s.cursor s.player.document.actions.length).2 := by
  unfold receive react
  rcases s.tooltip.receive input s.cursor s.player.document.actions.length with
    ⟨tooltip, reaction⟩
  rfl

end Stage

namespace Guise

/-- A stage in a guise. -/
def stage (g : Guise) (s : Stage) : Stage :=
  { s with
    player.timers := g.timers s.player.timers
    player.playback.pending := g.pending s.player.playback.pending
    player.inFlight := g.inFlight s.player.inFlight
    player.nextTimer := g.nextTimer s.player.nextTimer
    clock := g.clock s.clock
    tickets := g.tickets s.tickets
    journal := g.journal s.journal }

/-- The same for what an operation leaves. -/
def after (g : Guise) (r : Stage × List Frame) : Stage × List Frame := (g.stage r.1, r.2)

variable (g : Guise) {s : Stage}

/-! ## Small changes -/

theorem record {e : Event} (he : e.isUnnumbered = true) :
    (g.stage s).record e = g.stage (s.record e) := by
  simp only [Stage.record, stage, g.journal_cons e _ he]

theorem callSurface (call : SurfaceCall) :
    (g.stage s).callSurface call = g.stage (s.callSurface call) := by
  simp only [Stage.callSurface, stage, g.journal_cons (.surface call) _ rfl]

theorem dropPending : (g.stage s).dropPending = g.stage s.dropPending := by
  simp only [Stage.dropPending, Stage.mapPlayback, Stage.pending, stage, g.pending_nil,
    g.journal_dropped]

theorem reset :
    (g.stage s).mapPlayback Playback.reset = g.stage (s.mapPlayback Playback.reset) := by
  simp only [Stage.mapPlayback, Playback.reset, stage, g.pending_nil]

theorem flagged (value : Bool) : (g.stage s).flagged value = g.stage (s.flagged value) := by
  simp only [Stage.flagged, Stage.record, stage, g.journal_cons (.flagged value) _ rfl]

/-! ## Operations -/

theorem carryOut (t : Transition) : (g.stage s).carryOut t = g.after (s.carryOut t) := by
  unfold Stage.carryOut
  split
  · rfl
  · simp only [dropPending, callSurface]
    rfl
  · simp only [callSurface]
    rfl
  · simp only [callSurface, dropPending, reset]
    rfl

theorem command (c : Command) : (g.stage s).command c = g.after (s.command c) := by
  rw [Stage.command_eq, Stage.command_eq, ← g.carryOut]
  exact congrArg (Stage.carryOut _) (g.record rfl)

theorem react (reaction : Option Tooltip.Reaction) :
    (g.stage s).react reaction = g.after (s.react reaction) := by
  cases reaction with
  | none => rfl
  | some reaction =>
      cases reaction with
      | moveTo cursor => rfl
      | command c => exact g.command c

theorem receive (input : Tooltip.Input) :
    (g.stage s).receive input = g.after (s.receive input) := by
  rw [Stage.receive_eq, Stage.receive_eq, ← g.react]
  rfl

theorem follow (value : Bool) : (g.stage s).follow value = g.after (s.follow value) := by
  by_cases h : value ≠ s.player.flag
  · have h' : value ≠ (g.stage s).player.flag := h
    rw [Stage.follow_changed h, Stage.follow_changed h', g.flagged, g.command]
  · have h' : ¬ value ≠ (g.stage s).player.flag := h
    rw [Stage.follow_unchanged h, Stage.follow_unchanged h', g.flagged]
    rfl

theorem loadDocument (document : Document) :
    (g.stage s).loadDocument document = g.stage (s.loadDocument document) := by
  simp only [Stage.loadDocument, callSurface]
  rfl

theorem load (text : String) :
    (g.stage s).load text = ((s.load text).1, g.stage (s.load text).2) := by
  have hparse : Document.parse (g.stage s).player.config.separator text =
      Document.parse s.player.config.separator text := rfl
  unfold Stage.load
  rw [hparse]
  cases Document.parse s.player.config.separator text with
  | error cause => rfl
  | ok document => simp only [loadDocument]

theorem align : (g.stage s).align = (s.align.1, g.stage s.align.2) := by
  have hview : (g.stage s).view = s.view := rfl
  unfold Stage.align
  rw [hview]
  rcases s.view with _ | _ | _ <;> rfl

theorem answer {q : Query} (hq : (Operation.ask q).isHeedless = true) :
    (g.stage s).answer q = s.answer q := by
  cases q with
  | summary => cases hq
  | _ => rfl

/-- **A heedless operation does the same in any guise.** -/
theorem perform {op : Operation} (hop : op.isHeedless = true) (next : Reply → Routine) :
    (g.stage s).perform op next = g.after (s.perform op next) := by
  have replying : ∀ {reply : Reply} {r r' : Stage × List Frame}, r' = g.after r →
      (r'.1, r'.2 ++ [.answer reply next]) = g.after (r.1, r.2 ++ [.answer reply next]) := by
    rintro reply r r' rfl
    rfl
  cases op with
  | command c => exact replying (g.command c)
  | toggle => exact replying (g.command _)
  | follow value => exact replying (g.follow value)
  | load text =>
      simp only [Stage.perform, load]
      rfl
  | loadDocument document =>
      simp only [Stage.perform, loadDocument]
      rfl
  | fire timer => cases hop
  | elapse time => cases hop
  | schedule timer delay => cases hop
  | tooltip input =>
      simp only [Stage.perform, receive]
      rfl
  | align =>
      simp only [Stage.perform, align]
      rfl
  | ask query =>
      simp only [Stage.perform, g.answer hop]
      rfl
  | _ => rfl

end Guise

end Walkthrough
