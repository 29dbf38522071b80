import Walkthrough.Document.Reader

/-!
# Configuration

* `Config.Editor`, `Config` — how the editor is set up, and which separator cuts a document.
* `Config.validate` — the separator is not empty and stands on one line, and the editor has a mode.
-/

set_option autoImplicit false

namespace Walkthrough

open Text

/-- How the editor is set up. -/
structure Config.Editor where
  mode : String := "text/x-java"
  theme : String := "seti"
  lineNumbers : Bool := true
  lineWrapping : Bool := true
  readOnly : Bool := false
  autoRefresh : Bool := true
  showCursorWhenSelecting : Bool := false
  preventCursorMovement : Bool := true
  deriving DecidableEq, Repr

/-- The configuration of a player. -/
structure Config where
  separator : String := defaultSeparator
  editor : Config.Editor := {}
  deriving DecidableEq, Repr

/-- Why a configuration is refused. -/
inductive Config.Fault where
  | emptySeparator
  | multilineSeparator (separator : String)
  | emptyMode
  deriving DecidableEq, Repr

/-- The wording of a refusal. -/
def Config.Fault.message : Config.Fault → String
  | .emptySeparator => "Section separator must not be empty"
  | .multilineSeparator separator =>
    "Section separator must fit on one line (got " ++ quote separator ++ ")"
  | .emptyMode => "Editor mode must not be empty"

/-- Accepts a configuration or gives the first reason against it. -/
def Config.validate (c : Config) : Except Config.Fault Unit :=
  if c.separator.toList = [] then .error .emptySeparator
  else if '\n' ∈ c.separator.toList ∨ '\r' ∈ c.separator.toList then
    .error (.multilineSeparator c.separator)
  else if trim c.editor.mode.toList = [] then .error .emptyMode
  else .ok ()

end Walkthrough
