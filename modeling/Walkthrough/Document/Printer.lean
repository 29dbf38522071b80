import Walkthrough.Json.Printer
import Walkthrough.Document.Reader

/-!
# Writing annotated documents

* `Action.line` — the script line of an action, with its options escaped.
* `Document.render` — the text of a document with the default separator.
-/

set_option autoImplicit false

namespace Walkthrough

open Text

/-- The characters of an action's options before escaping. -/
def Action.Options.written : Action.Options → List Char
  | .text content => content.toList
  | .structured value => value.renderValue

/-- The script line of an action. -/
def Action.line (a : Action) : List Char :=
  a.name.toList ++ ':' :: ' ' :: Entity.encode a.options.written ++
    match a.outline with
    | some label => [' ', ':', ':', ':', ' '] ++ label.toList
    | none => []

/-- The text of a document: its source, the separator, and a line for each action. -/
def Document.render (d : Document) : String :=
  String.ofList (Entity.encode d.source.toList ++ defaultSeparator.toList ++ '\n' ::
    ['\n'].intercalate (d.actions.map Action.line))

end Walkthrough
