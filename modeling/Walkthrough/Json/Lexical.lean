import Walkthrough.Json.Number

/-!
# The small parts of a JSON text

Readers take a text and give what they read with the text that follows it.

* `skipSpace` — the four characters that JSON counts as space.
* `name` — the rest of `null`, `true` or `false`.
* `number`, `skipNumber` — a number after its sign, with its value or only checked.
* `string`, `skipString` — the text up to the closing quote, decoded or only checked.
* `nextItem`, `nextKey` — how a list or an object goes on: with one more entry, or with its closing
  bracket.
* `closeList` — the end of a list of which no more entries are wanted.
-/

set_option autoImplicit false

namespace Walkthrough.Json

/-- Space between the parts of a text. -/
def isSpace (c : Char) : Bool := c = ' ' || c = '\t' || c = '\n' || c = '\r'

/-- A text without its leading space. -/
def skipSpace (s : List Char) : List Char := s.dropWhile isSpace

/-- The text after the given letters. -/
def name : List Char → List Char → Except Fault (List Char)
  | [], s => .ok s
  | _ :: _, [] => .error .endInValue
  | l :: letters, c :: s => if l = c then name letters s else .error .expectedName

/-- The value of a hexadecimal digit. -/
def hexDigit? (c : Char) : Option Nat :=
  if '0' ≤ c ∧ c ≤ '9' then some (c.toNat - '0'.toNat)
  else if 'a' ≤ c ∧ c ≤ 'f' then some (c.toNat - 'a'.toNat + 10)
  else if 'A' ≤ c ∧ c ≤ 'F' then some (c.toNat - 'A'.toNat + 10)
  else none

/-- The number written by hexadecimal digits. -/
def hexValue? (s : List Char) : Option Nat :=
  s.foldlM (fun n c => (hexDigit? c).map (16 * n + ·)) 0

/-- Reads four hexadecimal digits. Without them the fault is in the digits if the text has at least
four more bytes, and in its end otherwise. -/
def codeUnit (s : List Char) : Except Fault (Nat × List Char) :=
  let digits := s.take 4
  match (if digits.length = 4 then hexValue? digits else none) with
  | some n => .ok (n, s.drop 4)
  | none =>
    .error (if 4 ≤ digits.foldl (fun n c => n + c.utf8Size) 0 then .invalidEscape else .endInString)

/-- Code units that begin a pair. -/
def isLeading (n : Nat) : Bool := 0xD800 ≤ n && n < 0xDC00

/-- Code units that end a pair. -/
def isTrailing (n : Nat) : Bool := 0xDC00 ≤ n && n < 0xE000

/-- The character of a one-letter escape. -/
def simpleEscape? : Char → Option Char
  | '"' => some '"'
  | '\\' => some '\\'
  | '/' => some '/'
  | 'b' => some '\x08'
  | 'f' => some '\x0c'
  | 'n' => some '\n'
  | 'r' => some '\r'
  | 't' => some '\t'
  | _ => none

/-- Reads the second half of a pair of code units. -/
def trailingUnit : List Char → Except Fault (Nat × List Char)
  | [] => .error .endInString
  | '\\' :: [] => .error .endInString
  | '\\' :: 'u' :: s => do
    let (n, s) ← codeUnit s
    if isTrailing n then pure (n, s) else throw .loneSurrogate
  | _ => .error .unpairedSurrogate

/-- Reads what follows a backslash. -/
def escapeChar : List Char → Except Fault (Char × List Char)
  | [] => .error .endInString
  | 'u' :: s => do
    let (n, s) ← codeUnit s
    if isTrailing n then throw .loneSurrogate
    if isLeading n then
      let (m, s) ← trailingUnit s
      pure (Char.ofNat (0x10000 + 0x400 * (n - 0xD800) + (m - 0xDC00)), s)
    else pure (Char.ofNat n, s)
  | c :: s =>
    match simpleEscape? c with
    | some d => .ok (d, s)
    | none => .error .invalidEscape

/-- Checks what follows a backslash; code units are not paired. -/
def skipEscape : List Char → Except Fault (List Char)
  | [] => .error .endInString
  | 'u' :: s => (codeUnit s).map Prod.snd
  | c :: s => if (simpleEscape? c).isSome then .ok s else .error .invalidEscape

/-- Reads the characters of a string after its opening quote, with its closing quote. -/
def stringBody : Nat → List Char → Except Fault (List Char × List Char)
  | 0, _ | _, [] => .error .endInString
  | fuel + 1, c :: s =>
    if c = '"' then .ok ([], s)
    else if c = '\\' then do
      let (d, s) ← escapeChar s
      let (text, s) ← stringBody fuel s
      pure (d :: text, s)
    else if c.toNat < 0x20 then .error .controlCharacter
    else do
      let (text, s) ← stringBody fuel s
      pure (c :: text, s)

/-- Reads a string after its opening quote. -/
def string (s : List Char) : Except Fault (String × List Char) :=
  (stringBody (s.length + 1) s).map fun (text, s) => (String.ofList text, s)

/-- Checks the characters of a string after its opening quote. -/
def skipStringBody : Nat → List Char → Except Fault (List Char)
  | 0, _ | _, [] => .error .endInString
  | fuel + 1, c :: s =>
    if c = '"' then .ok s
    else if c = '\\' then do
      let s ← skipEscape s
      skipStringBody fuel s
    else if c.toNat < 0x20 then .error .controlCharacter
    else skipStringBody fuel s

/-- Skips a string after its opening quote. -/
def skipString (s : List Char) : Except Fault (List Char) := skipStringBody (s.length + 1) s

/-- Reads a number after its sign. -/
def number (negative : Bool) (s : List Char) : Except Fault (Number × List Char) := do
  let (numeral, s) ← Numeral.scan .endInValue s
  let n ← numeral.toNumber negative
  pure (n, s)

/-- Skips a number after its sign; its size does not matter. -/
def skipNumber (s : List Char) : Except Fault (List Char) :=
  (Numeral.scan .invalidNumber s).map Prod.snd

/-- How a list or an object goes on. -/
inductive Next where
  | entry (rest : List Char)
  | close (rest : List Char)
  deriving DecidableEq, Repr

/-- Whether one more item follows in a list. Before every item but the first there is a comma. -/
def nextItem (first : Bool) (s : List Char) : Except Fault Next :=
  match skipSpace s with
  | [] => .error .endInList
  | ']' :: s => .ok (.close s)
  | c :: s =>
    if first then .ok (.entry (c :: s))
    else if c = ',' then
      match skipSpace s with
      | [] => .error .endInValue
      | ']' :: _ => .error .trailingComma
      | s => .ok (.entry s)
    else .error .expectedListEnd

/-- Whether one more key follows in an object; its opening quote is read. -/
def nextKey (first : Bool) (s : List Char) : Except Fault Next :=
  match skipSpace s with
  | [] => .error .endInObject
  | '\x7d' :: s => .ok (.close s)
  | c :: s =>
    if first then
      if c = '"' then .ok (.entry s) else .error .keyNotString
    else if c = ',' then
      match skipSpace s with
      | [] => .error .endInValue
      | '\x7d' :: _ => .error .trailingComma
      | '"' :: s => .ok (.entry s)
      | _ => .error .keyNotString
    else .error .expectedObjectEnd

/-- Reads the colon between a key and its value. -/
def colon (s : List Char) : Except Fault (List Char) :=
  match skipSpace s with
  | [] => .error .endInObject
  | ':' :: s => .ok s
  | _ => .error .expectedColon

/-- Reads the closing bracket of a list of which no more items are wanted. After a comma all but the
bracket is too much, be it the end of the text. -/
def closeList (s : List Char) : Except Fault (List Char) :=
  match skipSpace s with
  | [] => .error .endInList
  | ']' :: s => .ok s
  | ',' :: s =>
    match skipSpace s with
    | ']' :: _ => .error .trailingComma
    | _ => .error .trailingCharacters
  | _ => .error .trailingCharacters

/-- The end of a text: only space may be left. -/
def finish (s : List Char) : Except Fault Unit :=
  match skipSpace s with
  | [] => .ok ()
  | _ => .error .trailingCharacters

end Walkthrough.Json
