import Walkthrough.Playback.Lifecycle
import Walkthrough.Surface.Basic
import Walkthrough.Tooltip.Content

/-!
# Tooltip views

* `Tooltip.View` — all that a renderer needs to draw the tooltip of the current action.
* `Tooltip.View.of` — the view of a session, if its current action is a tooltip.
* `progress`, `showsProgress`, `showsBack`, `trailing`, `dots` — what the controls announce.
-/

set_option autoImplicit false

namespace Walkthrough

/-- The control at the end of a tooltip. -/
inductive Tooltip.Control where
  | next
  | finish
  deriving DecidableEq, Repr

/-- A dot of the pagination; the active one stands for the current action. -/
structure Tooltip.Dot where
  index : Nat
  active : Bool
  deriving DecidableEq, Repr

/-- A tooltip as it is drawn. -/
structure Tooltip.View where
  text : String
  pos : Position
  anchor : Point
  index : Nat
  total : Nat
  deriving DecidableEq, Repr

namespace Tooltip.View

/-- The name of the actions that are shown as tooltips. -/
def actionName : String := "tooltip"

/-- The view of a session over a surface: none while idle, at a cursor outside the list, or at
another kind of action. -/
def of (status : Status) (document : Document) (cursor : Int) (surface : Surface) :
    Except Tooltip.Fault (Option Tooltip.View) :=
  if status = .idle then .ok none
  else
    match document.action? cursor with
    | none => .ok none
    | some action =>
      if action.name ≠ actionName then .ok none
      else
        (Tooltip.Content.ofAction action).map fun options =>
          some ⟨options.text, options.pos, surface.locate options.pos, cursor.toNat,
            document.actions.length⟩

/-- The progress as text, counted from one. -/
def progress (v : Tooltip.View) : String := toString (v.index + 1) ++ "/" ++ toString v.total

/-- Progress is shown only where there is more than one step. -/
def showsProgress (v : Tooltip.View) : Bool := 1 < v.total

/-- Whether there is a way back. -/
def showsBack (v : Tooltip.View) : Bool := 0 < v.index

/-- The last step finishes, all others go on. -/
def trailing (v : Tooltip.View) : Tooltip.Control :=
  if v.index + 1 < v.total then .next else .finish

/-- A dot for each action. -/
def dots (v : Tooltip.View) : List Tooltip.Dot :=
  (List.range v.total).map fun i => ⟨i, i == v.index⟩

end Tooltip.View

end Walkthrough
