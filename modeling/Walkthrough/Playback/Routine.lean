import Walkthrough.Config.Basic
import Walkthrough.Playback.Clock
import Walkthrough.Playback.State
import Walkthrough.Tooltip.Basic

/-!
# Routines

What a host or a callback does is a routine: it performs operations one after the other, goes on as
their replies suggest, and may look at all that can be seen from outside.

* `Operation`, `Query` — what can be done, and what can be asked.
* `Reply` — what an operation gives back.
* `Snapshot` — what can be seen at one moment.
* `Routine` — an activity; one that goes on forever calls itself by its name.
-/

set_option autoImplicit false

namespace Walkthrough

/-- What can be asked without changing anything. -/
inductive Query where
  | view
  | locate (p : Position)
  | content
  | document
  | action
  | config
  | editor
  | summary
  deriving DecidableEq, Repr

/-- What a host or a callback can do. -/
inductive Operation where
  | command (c : Command)
  | toggle
  | follow (value : Bool)
  | setCursor (cursor : Int)
  | advance
  | retreat
  | load (text : String)
  | loadDocument (document : Document)
  | edit (text : String)
  | fire (timer : Nat)
  | elapse (time : Duration)
  | schedule (timer : Nat) (delay : Duration)
  | tooltip (input : Tooltip.Input)
  | align
  | resetTooltip
  | ask (query : Query)
  deriving Repr

/-- What an operation gives back. -/
inductive Reply where
  | nothing
  | flag (value : Bool)
  | count (value : Nat)
  | text (content : String)
  | point (value : Point)
  | view (value : Option Tooltip.View)
  | tooltip (value : Tooltip)
  | document (value : Document)
  | action (value : Option Action)
  | config (value : Config)
  | editor (value : Config.Editor)
  | documentFault (cause : Document.Fault)
  | tooltipFault (cause : Tooltip.Fault)
  deriving Repr

/-- What can be seen from outside at one moment. -/
structure Snapshot where
  status : Status
  cursor : Int
  document : Document
  pending : Nat
  inFlight : Nat
  surface : Surface
  now : Duration
  scheduled : Nat
  nextDue : Option Duration
  config : Config
  tooltip : Tooltip
  deriving Repr

namespace Snapshot

/-- The action at the cursor. -/
def action? (s : Snapshot) : Option Action := s.document.action? s.cursor

/-- Whether an action follows the one at the cursor. -/
def hasNext (s : Snapshot) : Bool := Playback.next s.cursor < s.document.actions.length

/-- Whether the cursor is behind the first action. -/
def hasPrevious (s : Snapshot) : Bool := 0 < s.cursor

end Snapshot

/-- An activity. -/
inductive Routine where
  /-- nothing more to do -/
  | done
  /-- go on as the present moment suggests -/
  | look (next : Snapshot → Routine)
  /-- perform an operation, then go on with its reply -/
  | perform (op : Operation) (next : Reply → Routine)
  /-- request a call of `body` after a delay, then go on -/
  | request (label : String) (delay : Duration) (body : Routine) (next : Routine)
  /-- run the routine of a name, if there is one, then go on -/
  | invoke (name : String) (next : Routine)

end Walkthrough
