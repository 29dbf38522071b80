import Walkthrough.Document.Basic
import Walkthrough.Json.Typed
import Walkthrough.Surface.Position

/-!
# What a tooltip says

The options of a tooltip are a JSON object with a text and a position; further members do not count.

* `Tooltip.Content.ofAction` — what the tooltip of an action says and where it points, or why the
  action is none.
-/

set_option autoImplicit false

namespace Walkthrough

open Json

/-- What a tooltip says and where it points. -/
structure Tooltip.Content where
  text : String
  pos : Position
  deriving DecidableEq, Repr

/-- Why an action is no tooltip. -/
inductive Tooltip.Fault where
  | notStructured (name : String)
  | invalidOptions (cause : Json.Fault)
  | invalidPosition (cause : Position.Fault)
  deriving DecidableEq, Repr

/-- The wording of a fault. -/
def Tooltip.Fault.message : Tooltip.Fault → String
  | .notStructured name =>
    "Action '" ++ name ++ "' has plain-text options; tooltips need a JSON object"
  | .invalidOptions cause => "Invalid tooltip options: " ++ cause.message
  | .invalidPosition cause => cause.message

namespace Tooltip.Content

/-- The text and the written position in a value. Of a list they are its two items; of an object the
members are looked at in the order of their keys. -/
def fields : Json → Except Json.Fault (String × String)
  | .arr items =>
    match items with
    | [] => .error (.tooFewFields 0 "RawOptions" 2)
    | text :: rest => do
      let text ← ofString text
      match rest with
      | [] => throw (.tooFewFields 1 "RawOptions" 2)
      | pos :: more => do
        let pos ← ofString pos
        if !more.isEmpty then throw (.tooManyItems items.length)
        pure (text, pos)
  | .obj members => do
    let pos ← field? ofString "pos" members
    let text ← field? ofString "text" members
    let text ← required "text" text
    let pos ← required "pos" pos
    pure (text, pos)
  | value => .error (.wrongType value.found (.record "RawOptions"))

/-- The tooltip of an action. -/
def ofAction (action : Action) : Except Tooltip.Fault Tooltip.Content :=
  match action.options with
  | .text _ => .error (.notStructured action.name)
  | .structured value =>
    match fields value with
    | .error cause => .error (.invalidOptions cause)
    | .ok (text, pos) =>
      match Position.ofString pos with
      | .error cause => .error (.invalidPosition cause)
      | .ok pos => .ok ⟨text, pos⟩

end Tooltip.Content

end Walkthrough
