import Walkthrough.Text.Blank

/-!
# The shape of an action line

An action line is `name : options`, perhaps followed by ` ::: outline`.

* `cutOutline` — a line without its outline, and the outline.
* `command?` — the name and the options of what is left.
-/

set_option autoImplicit false

namespace Walkthrough.Document

open Text

/-- Characters of an action's name. -/
def isWordChar (c : Char) : Bool :=
  ('a' ≤ c && c ≤ 'z') || ('A' ≤ c && c ≤ 'Z') || ('0' ≤ c && c ≤ '9') || c = '_'

/-- The outline of a text that starts with an outline mark: three colons, white space, and some text
after it. -/
def outlineAt? : List Char → Option (List Char)
  | ':' :: ':' :: ':' :: c :: s => if isBlank c ∧ trimStart s ≠ [] then some (trimStart s) else none
  | _ => none

/-- What stands before and after the leftmost outline mark that has white space in front of it.
`afterBlank` tells whether the character before the text is white space. -/
def cutMark? (afterBlank : Bool) : List Char → Option (List Char × List Char)
  | [] => none
  | c :: s =>
    match (if afterBlank then outlineAt? (c :: s) else none) with
    | some outline => some ([], outline)
    | none => (cutMark? (isBlank c) s).map fun (before, outline) => (c :: before, outline)

/-- A line without its outline, and the outline if it has one. -/
def cutOutline (line : List Char) : List Char × Option (List Char) :=
  match cutMark? false line with
  | some (before, outline) => (trimEnd before, some outline)
  | none => (line, none)

/-- The name and the options of a command: a word, a colon and some text. White space around the
colon does not count. -/
def command? (line : List Char) : Option (List Char × List Char) :=
  let name := line.takeWhile isWordChar
  match name, trimStart (line.dropWhile isWordChar) with
  | _ :: _, ':' :: s =>
    let options := trimStart s
    if options = [] then none else some (name, options)
  | _, _ => none

end Walkthrough.Document
