import Walkthrough.Document.Basic
import Walkthrough.Json.Typed

/-!
# Documents as JSON

A document is the object of its source and its actions, an action that of its name, its options and,
where it has one, its outline. Text options are a string and structured ones the value itself, so a
string that was structured comes back as text.

* `Document.toJson`, `Document.ofJson` — the value of a document and back.
* `Document.ofJsonText` — a document read from a JSON text, with the first fault from the left.
-/

set_option autoImplicit false

namespace Walkthrough

open Json

/-! ## Values -/

/-- Options as a value. -/
def Action.Options.toJson : Action.Options → Json
  | .text content => .str content
  | .structured value => value

/-- Options of a value: a string is text. -/
def Action.Options.ofJson : Json → Action.Options
  | .str content => .text content
  | value => .structured value

/-- An action as a value. -/
def Action.toJson (a : Action) : Json :=
  .obj ([("name", .str a.name), ("options", a.options.toJson)] ++
    match a.outline with
    | some label => [("outline", .str label)]
    | none => [])

/-- A document as a value. -/
def Document.toJson (d : Document) : Json :=
  .obj [("actions", .arr (d.actions.map Action.toJson)), ("source", .str d.source)]

/-- An outline of a value; null stands for none. -/
def outlineOfJson : Json → Except Json.Fault (Option String)
  | .null => .ok none
  | value => (ofString value).map some

/-- The action of a value. -/
def Action.ofJson : Json → Except Json.Fault Action
  | .arr items =>
    match items with
    | [] => .error (.tooFewFields 0 "Action" 3)
    | name :: rest => do
      let name ← ofString name
      match rest with
      | [] => throw (.tooFewFields 1 "Action" 3)
      | [options] => pure ⟨name, .ofJson options, none⟩
      | options :: outline :: more => do
        let outline ← outlineOfJson outline
        if !more.isEmpty then throw (.tooManyItems items.length)
        pure ⟨name, .ofJson options, outline⟩
  | .obj members => do
    let name ← field? ofString "name" members
    let options ← field? (fun value => .ok (Action.Options.ofJson value)) "options" members
    let outline ← field? outlineOfJson "outline" members
    let name ← required "name" name
    let options ← required "options" options
    pure ⟨name, options, outline.getD none⟩
  | value => .error (.wrongType value.found (.record "Action"))

/-- The document of a value. -/
def Document.ofJson : Json → Except Json.Fault Document
  | .arr items =>
    match items with
    | [] => .error (.tooFewFields 0 "ParsedDocument" 2)
    | source :: rest => do
      let source ← ofString source
      match rest with
      | [] => throw (.tooFewFields 1 "ParsedDocument" 2)
      | actions :: more => do
        let actions ← listOf Action.ofJson actions
        if !more.isEmpty then throw (.tooManyItems items.length)
        pure ⟨source, actions⟩
  | .obj members => do
    let actions ← field? (listOf Action.ofJson) "actions" members
    let source ← field? ofString "source" members
    let source ← required "source" source
    let actions ← required "actions" actions
    pure ⟨source, actions⟩
  | value => .error (.wrongType value.found (.record "ParsedDocument"))

/-! ## Texts -/

/-- Reads options. They stand below the brackets of their action, of the list of actions and of the
document. -/
def Action.Options.readAt (s : List Char) : Except Json.Fault (Action.Options × List Char) :=
  (readValue (maxDepth - 3) (fuelFor s) s).map fun (value, s) => (.ofJson value, s)

/-- What is known of an action while its members are read. -/
structure ActionFields where
  name : Option String := none
  options : Option Action.Options := none
  outline : Option (Option String) := none

/-- Reads one member of an action. -/
def ActionFields.member (known : ActionFields) (key : String) (s : List Char) :
    Except Json.Fault (ActionFields × List Char) :=
  match key with
  | "name" => do
    let (name, s) ← memberOnce key known.name stringAt s
    pure ({ known with name }, s)
  | "options" => do
    let (options, s) ← memberOnce key known.options Action.Options.readAt s
    pure ({ known with options }, s)
  | "outline" => do
    let (outline, s) ← memberOnce key known.outline optionalStringAt s
    pure ({ known with outline }, s)
  | _ => (memberSkipped s).map fun s => (known, s)

/-- Reads an action. -/
def Action.readAt (s : List Char) : Except Json.Fault (Action × List Char) :=
  match skipSpace s with
  | '[' :: s => do
    let (name, s) ← nextField "Action" 0 3 stringAt s
    let (options, s) ← nextField "Action" 1 3 Action.Options.readAt s
    match ← nextItem false s with
    | .close s => pure (⟨name, options, none⟩, s)
    | .entry s => do
      let (outline, s) ← optionalStringAt s
      let s ← closeList s
      pure (⟨name, options, outline⟩, s)
  | '{' :: s => do
    let (known, s) ← membersAt ActionFields.member (fuelFor s) true {} s
    let name ← required "name" known.name
    let options ← required "options" known.options
    pure (⟨name, options, known.outline.getD none⟩, s)
  | s => .error (wrongTypeAt (.record "Action") s)

/-- What is known of a document while its members are read. -/
structure DocumentFields where
  source : Option String := none
  actions : Option (List Action) := none

/-- Reads one member of a document. -/
def DocumentFields.member (known : DocumentFields) (key : String) (s : List Char) :
    Except Json.Fault (DocumentFields × List Char) :=
  match key with
  | "source" => do
    let (source, s) ← memberOnce key known.source stringAt s
    pure ({ known with source }, s)
  | "actions" => do
    let (actions, s) ← memberOnce key known.actions (listAt Action.readAt) s
    pure ({ known with actions }, s)
  | _ => (memberSkipped s).map fun s => (known, s)

/-- Reads a document. -/
def Document.readAt (s : List Char) : Except Json.Fault (Document × List Char) :=
  match skipSpace s with
  | '[' :: s => do
    let (source, s) ← nextField "ParsedDocument" 0 2 stringAt s
    let (actions, s) ← nextField "ParsedDocument" 1 2 (listAt Action.readAt) s
    let s ← closeList s
    pure (⟨source, actions⟩, s)
  | '{' :: s => do
    let (known, s) ← membersAt DocumentFields.member (fuelFor s) true {} s
    let source ← required "source" known.source
    let actions ← required "actions" known.actions
    pure (⟨source, actions⟩, s)
  | s => .error (wrongTypeAt (.record "ParsedDocument") s)

/-- The document of a JSON text. -/
def Document.ofJsonText (text : String) : Except Json.Fault Document := do
  let (document, s) ← Document.readAt text.toList
  finish s
  pure document

end Walkthrough
