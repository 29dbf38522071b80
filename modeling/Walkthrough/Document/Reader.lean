import Walkthrough.Document.Basic
import Walkthrough.Document.Line
import Walkthrough.Json.Reader
import Walkthrough.Text.Cut
import Walkthrough.Text.Entity
import Walkthrough.Text.Newline

/-!
# Reading annotated documents

The text of a document is its body, a separator and a script of action lines; a further section is
ignored. Reading is lenient: blank lines, comments and lines without the shape of a command are
dropped. The only fault in a script is an option that starts as a JSON object and is none.

* `readLine` — the action of one line.
* `readLines` — the actions of numbered lines, or the first fault.
* `Document.parse`, `Document.parseScript` — whole documents and scripts, with character entities
  decoded.
* `Document.parsePlain` — documents in which entities stand for themselves.
-/

set_option autoImplicit false

namespace Walkthrough

open Text

/-- The separator of a document that does not choose its own. -/
def defaultSeparator : String := "@@@"

namespace Document

/-- Why a document cannot be read. -/
inductive Fault where
  | emptySeparator
  | invalidOptions (line : Nat) (name : String) (cause : Json.Fault)
  deriving DecidableEq, Repr

/-- The wording of a fault. -/
def Fault.message : Fault → String
  | .emptySeparator => "Section separator must not be empty"
  | .invalidOptions line name cause =>
    "Invalid options for action '" ++ name ++ "' on script line " ++ toString line ++ ": " ++
      cause.message

/-- Options that start with a brace are JSON; all others are plain text. -/
def readOptions (options : List Char) : Except Json.Fault Action.Options :=
  match options with
  | '{' :: _ => (Json.parse (String.ofList options)).map .structured
  | _ => .ok (.text (String.ofList options))

/-- The action of a line, or none where the line is to be dropped. `decode` reads the options'
characters. A fault comes with the name of its action. -/
def readLine (decode : List Char → List Char) (line : List Char) :
    Except (String × Json.Fault) (Option Action) :=
  let line := trim line
  if line = [] ∨ line.head? = some '#' then .ok none
  else
    let (command, outline) := cutOutline line
    match command? command with
    | none => .ok none
    | some (name, options) =>
      match readOptions (decode options) with
      | .error cause => .error (String.ofList name, cause)
      | .ok options => .ok (some ⟨String.ofList name, options, outline.map String.ofList⟩)

/-- The actions of the lines from number `n` on, or the first fault. -/
def readLines (decode : List Char → List Char) : Nat → List (List Char) → Except Fault (List Action)
  | _, [] => .ok []
  | n, line :: rest =>
    match readLine decode line with
    | .error (name, cause) => .error (.invalidOptions n name cause)
    | .ok none => readLines decode (n + 1) rest
    | .ok (some action) => (readLines decode (n + 1) rest).map (action :: ·)

/-- The actions of a script. -/
def readScript (decode : List Char → List Char) (script : List Char) : Except Fault (List Action) :=
  readLines decode 1 (lines script)

/-- The first two sections of a text; both may be missing. -/
def sections (separator text : List Char) : List Char × List Char :=
  match cut? separator text with
  | none => (text, [])
  | some (body, rest) => (body, ((cut? separator rest).map Prod.fst).getD rest)

/-- The document of the sections of a text. -/
def readSections (decode : List Char → List Char) (separator text : List Char) :
    Except Fault Document :=
  if separator = [] then .error .emptySeparator
  else
    let (body, script) := sections separator text
    (readScript decode script).map fun actions => ⟨String.ofList (decode (trim body)), actions⟩

/-- The document of a text with sections cut at `separator`. -/
def parse (separator text : String) : Except Fault Document :=
  readSections Entity.decode separator.toList text.toList

/-- The document of a text that is not embedded in a page, so that entities stand for themselves. -/
def parsePlain (separator text : String) : Except Fault Document :=
  readSections id separator.toList text.toList

/-- The actions of a script. -/
def parseScript (script : String) : Except Fault (List Action) :=
  readScript Entity.decode script.toList

end Document

end Walkthrough
