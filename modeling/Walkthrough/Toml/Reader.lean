import Walkthrough.Toml.Lexical
import Walkthrough.Toml.Value

/-!
# Reading TOML

* `readValue` — a value at the start of a text; arrays and tables in braces nest at most to a given
  depth.
* `assign?` — a table with one more member at a dotted key.
* `addSection?` — a table with the members of a header's section in their place.
* `readSections` — the sections of a text: the members before the first header, and those below each
  header.
* `Toml.parse?` — the table of a whole text, or nothing where the text breaks the rules.
-/

set_option autoImplicit false

namespace Walkthrough.Toml

/-! ## Tables -/

/-- A table with the value of an existing key replaced. -/
def replace (name : String) (value : Toml) (t : Table) : Table :=
  t.map fun (k, v) => if k = name then (k, value) else (k, v)

/-- Adds a member at a dotted key. A key is defined once; a dotted key only enters tables that
dotted keys opened. -/
def assign? (value : Toml) : List String → Table → Option Table
  | [], _ => none
  | [name], t => if (t.lookup name).isSome then none else some (t ++ [(name, value)])
  | name :: path, t =>
    match t.lookup name with
    | none => (assign? value path []).map fun inner => t ++ [(name, .table .dotted inner)]
    | some (.table .dotted inner) =>
      (assign? value path inner).map fun inner => replace name (.table .dotted inner) t
    | some _ => none

/-- Changes the last element of a list. -/
def changeLast? {α : Type} (f : α → Option α) : List α → Option (List α)
  | [] => none
  | [a] => (f a).map ([·])
  | a :: rest => (changeLast? f rest).map (a :: ·)

/-- Puts the members of a section below its header. A header opens its table once; before, the table
may have been opened on the way to a longer header. A header in double brackets adds one more table
to its list. -/
def addSection? (repeated : Bool) (added : Table) : List String → Table → Option Table
  | [], _ => none
  | [name], t =>
    match t.lookup name, repeated with
    | none, false => some (t ++ [(name, .table .header added)])
    | none, true => some (t ++ [(name, .tables [added])])
    | some (.table .implied inner), false =>
      if added.any fun (k, _) => (inner.lookup k).isSome then none
      else some (replace name (.table .header (inner ++ added)) t)
    | some (.tables items), true => some (replace name (.tables (items ++ [added])) t)
    | some _, _ => none
  | name :: path, t =>
    match t.lookup name with
    | none =>
      (addSection? repeated added path []).map fun inner => t ++ [(name, .table .implied inner)]
    | some (.table .inline _) => none
    | some (.table origin inner) =>
      (addSection? repeated added path inner).map fun inner => replace name (.table origin inner) t
    | some (.tables items) =>
      (changeLast? (addSection? repeated added path) items).map fun items =>
        replace name (.tables items) t
    | some _ => none

/-! ## Values -/

/-- Skips space, comments and line breaks. -/
def filler : Nat → List Char → List Char
  | 0, s => s
  | fuel + 1, s =>
    match newline? (comment (blanks s)) with
    | some s => filler fuel s
    | none => comment (blanks s)

mutual

/-- Reads a value. `depth` is how many brackets may still be opened. -/
def readValue (depth : Nat) : Nat → List Char → Option (Toml × List Char)
  | 0, _ => none
  | fuel + 1, s =>
    match s with
    | '"' :: _ | '\'' :: _ => (string s).map fun (content, s) => (.text content, s)
    | 't' :: 'r' :: 'u' :: 'e' :: s => some (.flag true, s)
    | 'f' :: 'a' :: 'l' :: 's' :: 'e' :: s => some (.flag false, s)
    | '[' :: s =>
      match depth with
      | 0 => none
      | depth + 1 => (readItems depth fuel s).map fun (items, s) => (.array items, s)
    | '{' :: s =>
      match depth, blanks s with
      | 0, _ => none
      | _ + 1, '}' :: s => some (.table .inline [], s)
      | depth + 1, s =>
        (readMembers depth fuel [] s).map fun (members, s) => (.table .inline members, s)
    | s => (numberOrDate s).map fun (written, s) => (.scalar written, s)

/-- Reads the items of an array and its closing bracket; a comma may stand after the last one. -/
def readItems (depth : Nat) : Nat → List Char → Option (List Toml × List Char)
  | 0, _ => none
  | fuel + 1, s =>
    match filler s.length s with
    | ']' :: s => some ([], s)
    | s => do
      let (item, s) ← readValue depth fuel s
      match filler s.length s with
      | ']' :: s => some ([item], s)
      | ',' :: s =>
        let (items, s) ← readItems depth fuel s
        some (item :: items, s)
      | _ => none

/-- Reads the members of a table in braces and its closing brace, all on one line. -/
def readMembers (depth : Nat) : Nat → Table → List Char → Option (Table × List Char)
  | 0, _, _ => none
  | fuel + 1, t, s => do
    let (path, s) ← path s
    match s with
    | '=' :: s =>
      let (value, s) ← readValue depth fuel (blanks s)
      let t ← assign? value path t
      match blanks s with
      | '}' :: s => some (t, s)
      | ',' :: s => readMembers depth fuel t s
      | _ => none
    | _ => none

end

/-! ## Documents -/

/-- A header with the members below it. -/
structure Section where
  repeated : Bool
  path : List String
  members : Table

/-- Reads a header. -/
def readHeader (s : List Char) : Option (Section × List Char) :=
  match s with
  | '[' :: '[' :: s => do
    let (path, s) ← path s
    match s with
    | ']' :: ']' :: s => (lineEnd? s).map fun s => (⟨true, path, []⟩, s)
    | _ => none
  | '[' :: s => do
    let (path, s) ← path s
    match s with
    | ']' :: s => (lineEnd? s).map fun s => (⟨false, path, []⟩, s)
    | _ => none
  | _ => none

/-- Reads a line that assigns a value to a key. -/
def readAssignment (s : List Char) : Option ((List String × Toml) × List Char) := do
  let (path, s) ← path s
  match s with
  | '=' :: s =>
    let (value, s) ← readValue maxDepth (2 * s.length + 2) (blanks s)
    let s ← lineEnd? s
    some ((path, value), s)
  | _ => none

/-- Reads lines up to the end of the text: the members added to the open section, and the sections
that follow it. -/
def readSections : Nat → Table → List Char → Option (Table × List Section)
  | 0, _, _ => none
  | fuel + 1, t, s =>
    match blanks s with
    | [] => some (t, [])
    | '[' :: s => do
      let (header, s) ← readHeader ('[' :: s)
      let (members, rest) ← readSections fuel [] s
      some (t, { header with members } :: rest)
    | s =>
      match lineEnd? s with
      | some s => readSections fuel t s
      | none => do
        let ((path, value), s) ← readAssignment s
        let t ← assign? value path t
        readSections fuel t s

/-- The table of a text. A byte order mark in front is skipped. -/
def parse? (text : String) : Option Table := do
  let s :=
    match text.toList with
    | '\uFEFF' :: s => s
    | s => s
  let (root, sections) ← readSections (s.length + 2) [] s
  sections.foldlM (fun t part => addSection? part.repeated part.members part.path t) root

end Walkthrough.Toml
