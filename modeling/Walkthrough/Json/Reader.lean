import Walkthrough.Json.Lexical

/-!
# Reading JSON

* `readValue` — one value at the start of a text; lists and objects nest at most to a given depth.
* `skipValue` — checks a value nobody wants: looser than reading one, and without a bound on the
  nesting.
* `Json.parse` — the value of a whole text, or the first fault from the left.
-/

set_option autoImplicit false

namespace Walkthrough.Json

/-- How deep lists and objects may nest. -/
def maxDepth : Nat := 127

/-- Enough fuel for every text of this length: between two calls that read no character there is one
that does. -/
def fuelFor (s : List Char) : Nat := 2 * s.length + 2

mutual

/-- Reads a value. `depth` is how many brackets may still be opened. -/
def readValue (depth : Nat) : Nat → List Char → Except Fault (Json × List Char)
  | 0, _ => .error .endInValue
  | fuel + 1, s =>
    match skipSpace s with
    | [] => .error .endInValue
    | 'n' :: s => (name ['u', 'l', 'l'] s).map fun s => (.null, s)
    | 't' :: s => (name ['r', 'u', 'e'] s).map fun s => (.bool true, s)
    | 'f' :: s => (name ['a', 'l', 's', 'e'] s).map fun s => (.bool false, s)
    | '"' :: s => (string s).map fun (text, s) => (.str text, s)
    | '-' :: s => (number true s).map fun (n, s) => (.num n, s)
    | '[' :: s =>
      match depth with
      | 0 => .error .nestingTooDeep
      | depth + 1 => do
        let (items, s) ← readItems depth fuel true s
        pure (.arr items, s)
    | '{' :: s =>
      match depth with
      | 0 => .error .nestingTooDeep
      | depth + 1 => do
        let (members, s) ← readMembers depth fuel true s
        pure (ofMembers members, s)
    | c :: s =>
      if Decimal.isDigit c then (number false (c :: s)).map fun (n, s) => (.num n, s)
      else .error .expectedValue

/-- Reads the items of a list and its closing bracket. -/
def readItems (depth : Nat) : Nat → Bool → List Char → Except Fault (List Json × List Char)
  | 0, _, _ => .error .endInList
  | fuel + 1, first, s => do
    match ← nextItem first s with
    | .close s => pure ([], s)
    | .entry s =>
      let (item, s) ← readValue depth fuel s
      let (items, s) ← readItems depth fuel false s
      pure (item :: items, s)

/-- Reads the members of an object and its closing bracket. -/
def readMembers (depth : Nat) :
    Nat → Bool → List Char → Except Fault (List (String × Json) × List Char)
  | 0, _, _ => .error .endInObject
  | fuel + 1, first, s => do
    match ← nextKey first s with
    | .close s => pure ([], s)
    | .entry s =>
      let (key, s) ← string s
      let s ← colon s
      let (value, s) ← readValue depth fuel s
      let (members, s) ← readMembers depth fuel false s
      pure ((key, value) :: members, s)

end

mutual

/-- Checks a value and drops it. -/
def skipValue : Nat → List Char → Except Fault (List Char)
  | 0, _ => .error .endInValue
  | fuel + 1, s =>
    match skipSpace s with
    | [] => .error .endInValue
    | 'n' :: s => name ['u', 'l', 'l'] s
    | 't' :: s => name ['r', 'u', 'e'] s
    | 'f' :: s => name ['a', 'l', 's', 'e'] s
    | '"' :: s => skipString s
    | '-' :: s => skipNumber s
    | '[' :: s => skipItems fuel true s
    | '{' :: s => skipMembers fuel true s
    | c :: s => if Decimal.isDigit c then skipNumber (c :: s) else .error .expectedValue

/-- Checks the items of a list; after a comma there is a value. -/
def skipItems : Nat → Bool → List Char → Except Fault (List Char)
  | 0, _, _ => .error .endInList
  | fuel + 1, first, s =>
    match skipSpace s with
    | [] => .error .endInList
    | ']' :: s => .ok s
    | c :: s =>
      if first then do
        let s ← skipValue fuel (c :: s)
        skipItems fuel false s
      else if c = ',' then do
        let s ← skipValue fuel s
        skipItems fuel false s
      else .error .expectedListEnd

/-- Checks the members of an object; after a comma there is a key. -/
def skipMembers : Nat → Bool → List Char → Except Fault (List Char)
  | 0, _, _ => .error .endInObject
  | fuel + 1, first, s =>
    match skipSpace s with
    | [] => .error .endInObject
    | '\x7d' :: s => .ok s
    | c :: s =>
      if first ∨ c = ',' then
        match (if first then c :: s else skipSpace s) with
        | [] => .error .endInObject
        | '"' :: s => do
          let s ← skipString s
          let s ← colon s
          let s ← skipValue fuel s
          skipMembers fuel false s
        | _ => .error .keyNotString
      else .error .expectedObjectEnd

end

/-- The value of a whole text. -/
def parse (text : String) : Except Fault Json := do
  let s := text.toList
  let (value, s) ← readValue maxDepth (fuelFor s) s
  finish s
  pure value

end Walkthrough.Json
