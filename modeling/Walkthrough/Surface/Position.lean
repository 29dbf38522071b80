import Walkthrough.Decimal.Natural
import Walkthrough.Text.Blank

/-!
# Positions

A position in the source text is written `line:ch`, both counted from zero in 32 bits.

* `Position.ofString?` — the position of a text; white space around the two numbers does not count.
* `Position.ofString` — the same, or a fault that holds the text.
* `Position.text` — its written form.
* `Point` — where a position stands on the screen.
-/

set_option autoImplicit false

namespace Walkthrough

open Text Decimal

/-- A line and a character in it. -/
structure Position where
  line : UInt32 := 0
  ch : UInt32 := 0
  deriving DecidableEq, Repr

namespace Position

/-- A number of 32 bits: digits with perhaps a plus sign in front and white space around. -/
def number? (s : List Char) : Option UInt32 :=
  let digits :=
    match trim s with
    | '+' :: digits => digits
    | digits => digits
  if digits ≠ [] ∧ digits.all isDigit ∧ value digits < UInt32.size then
    some (UInt32.ofNat (value digits))
  else none

/-- The position of a text: two numbers around its first colon. -/
def ofString? (text : String) : Option Position :=
  match text.toList.dropWhile (· ≠ ':') with
  | _ :: ch => do
    let line ← number? (text.toList.takeWhile (· ≠ ':'))
    let ch ← number? ch
    pure ⟨line, ch⟩
  | [] => none

/-- Why a text is no position. It holds the text as it was given. -/
structure Fault where
  input : String
  deriving DecidableEq, Repr

/-- The position of a text, or the fault of a text that is none. -/
def ofString (text : String) : Except Fault Position :=
  match ofString? text with
  | some p => .ok p
  | none => .error ⟨text⟩

/-- The written form of a position. -/
def text (p : Position) : String := toString p.line.toNat ++ ":" ++ toString p.ch.toNat

/-- The wording for a text that is no position. -/
def invalidMessage (input : String) : String :=
  "Invalid position '" ++ input ++ "', expected 'line:ch'"

/-- The wording of a fault. -/
def Fault.message (e : Fault) : String := invalidMessage e.input

end Position

/-- Screen coordinates. -/
structure Point where
  left : Float := 0
  top : Float := 0
  deriving DecidableEq, Repr

/-- Equality of coordinates as numbers: the two zeros are equal, and an undefined coordinate differs
from every other. -/
def Point.same (p q : Point) : Bool := p.left == q.left && p.top == q.top

end Walkthrough
