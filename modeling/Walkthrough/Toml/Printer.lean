import Walkthrough.Toml.Lexical
import Walkthrough.Toml.Value

/-!
# Writing TOML

Of the written forms of a string the first that suits its text is taken:

* on one line between double quotes, or between single quotes where those spare escapes;
* as a block between tripled quotes, double or single;
* with escapes, where a control character leaves no choice.

A table is written line by line, and the tables in it below headers after that: `write?`.
-/

set_option autoImplicit false

namespace Walkthrough.Toml

/-! ## Strings -/

/-- Characters that no string may hold as they are. -/
def isControl (c : Char) : Bool := (c.toNat < 0x20 && c ≠ '\t' && c ≠ '\n') || c.toNat = 0x7F

/-- The longest run of a character. -/
def longestRun (q : Char) (s : List Char) : Nat :=
  (s.foldl (fun (best, now) c => if c = q then (max best (now + 1), now + 1) else (best, 0))
    (0, 0)).1

/-- The escape of a character between double quotes; line breaks and quotes apart. -/
def escapeOf (c : Char) : List Char :=
  match c with
  | '\x08' => ['\\', 'b']
  | '\t' => ['\\', 't']
  | '\x0c' => ['\\', 'f']
  | '\r' => ['\\', 'r']
  | '\\' => ['\\', '\\']
  | c =>
    if isControl c then
      ['\\', 'u', '0', '0', (Nat.digitChar (c.toNat / 16)).toUpper,
        (Nat.digitChar (c.toNat % 16)).toUpper]
    else [c]

/-- The text of a string between double quotes. -/
def lineBody (s : List Char) : List Char :=
  s.flatMap fun c => if c = '\n' then ['\\', 'n'] else if c = '"' then ['\\', '"'] else escapeOf c

/-- The text of a block between tripled double quotes. Of three quotes in a row the third is
escaped; `run` counts those before. -/
def blockBody : Nat → List Char → List Char
  | _, [] => []
  | run, c :: s =>
    if c = '"' then
      if run = 2 then '\\' :: '"' :: blockBody 0 s else '"' :: blockBody (run + 1) s
    else if c = '\n' then '\n' :: blockBody 0 s
    else escapeOf c ++ blockBody 0 s

/-- The written form of a string. -/
def renderString (s : List Char) : List Char :=
  let clean := !s.any isControl
  let oneLine := !s.contains '\n'
  let start := if oneLine then [] else ['\n']
  if clean ∧ oneLine ∧ ¬ s.contains '\\' ∧ ¬ s.contains '"' then ['"'] ++ lineBody s ++ ['"']
  else if clean ∧ oneLine ∧ ¬ s.contains '\'' then ['\''] ++ s ++ ['\'']
  else if clean ∧ ¬ s.contains '\\' ∧ longestRun '"' s ≤ 2 then
    ['"', '"', '"'] ++ start ++ blockBody 0 s ++ ['"', '"', '"']
  else if clean ∧ longestRun '\'' s ≤ 2 then ['\'', '\'', '\''] ++ start ++ s ++ ['\'', '\'', '\'']
  else if oneLine then ['"'] ++ lineBody s ++ ['"']
  else ['"', '"', '"'] ++ start ++ blockBody 0 s ++ ['"', '"', '"']

/-- The written form of a flag. -/
def renderFlag (b : Bool) : List Char :=
  if b then ['t', 'r', 'u', 'e'] else ['f', 'a', 'l', 's', 'e']

/-! ## Tables -/

/-- The written form of a value that stands on a line. -/
def renderLeaf? : Toml → Option (List Char)
  | .text content => some (renderString content.toList)
  | .flag value => some (renderFlag value)
  | _ => none

/-- The line of a member. -/
def renderLine? (p : String × Toml) : Option (List Char) :=
  if isBareKey p.1 then
    (renderLeaf? p.2).map fun value => p.1.toList ++ ' ' :: '=' :: ' ' :: (value ++ ['\n'])
  else none

/-- The lines of members. -/
def renderLines? (t : Table) : Option (List Char) := (t.mapM renderLine?).map List.flatten

/-- The lines of a section: an empty one, its header, and those of its members. -/
def renderSection? (p : String × Toml) : Option (List Char) :=
  match p.2 with
  | .table _ members =>
    if isBareKey p.1 then
      (renderLines? members).map fun lines => '\n' :: '[' :: (p.1.toList ++ ']' :: '\n' :: lines)
    else none
  | _ => none

/-- The lines of sections. -/
def renderSections? (t : Table) : Option (List Char) := (t.mapM renderSection?).map List.flatten

/-- The text of a table: strings and flags on lines of their own, and tables of such below headers
after them. Tables with something else in them have none. -/
def write? (t : Table) : Option String := do
  let above ← renderLines? (t.takeWhile (isLeaf ·.2))
  let below ← renderSections? (t.dropWhile (isLeaf ·.2))
  some (String.ofList (above ++ below))

end Walkthrough.Toml
