import Walkthrough.Json.Reader

/-!
# JSON data of a wanted shape

A record is wanted as an object with its fields as members, in any order, or as a list of its fields
in their order.

* `ofString`, `listOf`, `field`, `tooFew` — taking data out of values.
* `wrongTypeAt`, `stringAt`, `listAt` — reading data from a text, where the first fault from the
  left is reported, be it in the writing or in the data.
-/

set_option autoImplicit false

namespace Walkthrough.Json

/-- A value as a message names it. -/
def found : Json → Found
  | .null => .null
  | .bool value => .bool value
  | .num n => n.found
  | .str text => .string text
  | .arr _ => .sequence
  | .obj _ => .map

/-- The text of a string value. -/
def ofString : Json → Except Fault String
  | .str text => .ok text
  | value => .error (.wrongType value.found .string)

/-- The items of a list, each decoded. -/
def listOf {α : Type} (decode : Json → Except Fault α) : Json → Except Fault (List α)
  | .arr items => items.mapM decode
  | value => .error (.wrongType value.found .sequence)

/-- The decoded member of an object, if it is there. -/
def field? {α : Type} (decode : Json → Except Fault α) (name : String)
    (members : List (String × Json)) :
    Except Fault (Option α) :=
  match members.lookup name with
  | some value => (decode value).map some
  | none => .ok none

/-- A member that has to be there. -/
def required {α : Type} (name : String) : Option α → Except Fault α
  | some a => .ok a
  | none => .error (.missingField name)

/-- The fault of a value at the start of a text where another one is wanted. A scalar is read first,
and a fault in it comes first. -/
def wrongTypeAt (wanted : Wanted) (s : List Char) : Fault :=
  let scalar := fun (r : Except Fault Found) =>
    match r with
    | .ok found => Fault.wrongType found wanted
    | .error e => e
  match skipSpace s with
  | [] => .endInValue
  | 'n' :: s => scalar ((name ['u', 'l', 'l'] s).map fun _ => .null)
  | 't' :: s => scalar ((name ['r', 'u', 'e'] s).map fun _ => .bool true)
  | 'f' :: s => scalar ((name ['a', 'l', 's', 'e'] s).map fun _ => .bool false)
  | '"' :: s => scalar ((string s).map fun (text, _) => .string text)
  | '-' :: s => scalar ((number true s).map fun (n, _) => n.found)
  | '[' :: _ => .wrongType .sequence wanted
  | '{' :: _ => .wrongType .map wanted
  | c :: s =>
    if Decimal.isDigit c then scalar ((number false (c :: s)).map fun (n, _) => n.found)
    else .expectedValue

/-- Reads a string. -/
def stringAt (s : List Char) : Except Fault (String × List Char) :=
  match skipSpace s with
  | '"' :: s => string s
  | s => .error (wrongTypeAt .string s)

/-- Reads a string, or a null for none. -/
def optionalStringAt (s : List Char) : Except Fault (Option String × List Char) :=
  match skipSpace s with
  | 'n' :: s => (name ['u', 'l', 'l'] s).map fun s => (none, s)
  | s => (stringAt s).map fun (text, s) => (some text, s)

/-- Reads the items of a list after its opening bracket, each with `item`. -/
def itemsAt {α : Type} (item : List Char → Except Fault (α × List Char)) :
    Nat → Bool → List Char → Except Fault (List α × List Char)
  | 0, _, _ => .error .endInList
  | fuel + 1, first, s => do
    match ← nextItem first s with
    | .close s => pure ([], s)
    | .entry s =>
      let (a, s) ← item s
      let (rest, s) ← itemsAt item fuel false s
      pure (a :: rest, s)

/-- Reads a list, each item with `item`. -/
def listAt {α : Type} (item : List Char → Except Fault (α × List Char)) (s : List Char) :
    Except Fault (List α × List Char) :=
  match skipSpace s with
  | '[' :: s => itemsAt item (fuelFor s) true s
  | s => .error (wrongTypeAt .sequence s)

/-- Reads the next field of a record that is written as a list. Without it the record is too short:
it has `count` fields of `fields`. -/
def nextField {α : Type} (record : String) (count fields : Nat)
    (read : List Char → Except Fault (α × List Char))
    (s : List Char) : Except Fault (α × List Char) := do
  match ← nextItem (count = 0) s with
  | .close _ => throw (.tooFewFields count record fields)
  | .entry s => read s

/-- Reads the members of an object after its opening bracket. `field` takes what is known so far, a
key and the text after it; it reads the rest of the member, or reports a key that may not stand
here. -/
def membersAt {σ : Type} (field : σ → String → List Char → Except Fault (σ × List Char)) :
    Nat → Bool → σ → List Char → Except Fault (σ × List Char)
  | 0, _, _, _ => .error .endInObject
  | fuel + 1, first, known, s => do
    match ← nextKey first s with
    | .close s => pure (known, s)
    | .entry s =>
      let (key, s) ← string s
      let (known, s) ← field known key s
      membersAt field fuel false known s

/-- Reads the value of a member that may stand only once; `known` is what an earlier one gave. -/
def memberOnce {α : Type} (name : String) (known : Option α)
    (read : List Char → Except Fault (α × List Char))
    (s : List Char) : Except Fault (Option α × List Char) := do
  if known.isSome then throw (.duplicateField name)
  let s ← colon s
  let (a, s) ← read s
  pure (some a, s)

/-- Skips the value of a member that nobody wants. -/
def memberSkipped (s : List Char) : Except Fault (List Char) := do
  let s ← colon s
  skipValue (fuelFor s) s

end Walkthrough.Json
