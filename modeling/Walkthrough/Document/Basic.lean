import Walkthrough.Json.Value

/-!
# Documents

An annotated document is a source text with a list of actions that walk through it.

* `Action.Options` — what an action is told: plain text or a JSON value.
* `Action` — a name, options and perhaps an outline label.
* `Document` — the source and its actions; `Document.outline` lists the labelled ones.
-/

set_option autoImplicit false

namespace Walkthrough

/-- The options of an action. -/
inductive Action.Options where
  | text (content : String)
  | structured (value : Json)
  deriving Repr

/-- One step of a walkthrough. -/
structure Action where
  name : String
  options : Action.Options
  outline : Option String := none
  deriving Repr

/-- A source text and the actions that walk through it. -/
structure Document where
  source : String := ""
  actions : List Action := []
  deriving Repr

namespace Document

/-- The labelled actions, each with its place in the list. -/
def outline (d : Document) : List (Nat × String) :=
  d.actions.zipIdx.filterMap fun (action, i) => action.outline.map (i, ·)

/-- The action at a cursor, which may stand before the first or after the last one. -/
def action? (d : Document) (cursor : Int) : Option Action :=
  if 0 ≤ cursor then d.actions[cursor.toNat]? else none

end Document

end Walkthrough
