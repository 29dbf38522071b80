import Walkthrough.Decimal.Natural

/-!
# The small parts of a TOML text

Readers take a text and give what they read with the text that follows it, or nothing where the text
breaks the rules.

* `blanks`, `lineEnd?` — space within a line, and the end of a line with its comment.
* `basicString`, `literalString`, `basicBlock`, `literalBlock` — the four kinds of string after
  their opening quotes.
* `key`, `path` — one key, and keys joined by dots, at most `maxDepth` of them.
* `isScalar` — the written forms of numbers and dates.
-/

set_option autoImplicit false

namespace Walkthrough.Toml

open Decimal

/-! ## Lines -/

/-- Space within a line. -/
def isBlank (c : Char) : Bool := c = ' ' || c = '\t'

/-- A text without its leading space. -/
def blanks (s : List Char) : List Char := s.dropWhile isBlank

/-- Characters of comments and strings: no control but the tab. -/
def isPlain (c : Char) : Bool := c = '\t' || (0x20 ≤ c.toNat && c.toNat ≠ 0x7F)

/-- The text after a line break. -/
def newline? : List Char → Option (List Char)
  | '\n' :: s => some s
  | '\r' :: '\n' :: s => some s
  | _ => none

/-- A text without the comment it starts with. -/
def comment (s : List Char) : List Char :=
  match s with
  | '#' :: s => s.dropWhile isPlain
  | s => s

/-- The text after the rest of a line that holds nothing but space and a comment. -/
def lineEnd? (s : List Char) : Option (List Char) :=
  match comment (blanks s) with
  | [] => some []
  | s => newline? s

/-! ## Strings -/

/-- The value of a hexadecimal digit. -/
def hexDigit? (c : Char) : Option Nat :=
  if isDigit c then some (digitValue c)
  else if 'a' ≤ c ∧ c ≤ 'f' then some (c.toNat - 'a'.toNat + 10)
  else if 'A' ≤ c ∧ c ≤ 'F' then some (c.toNat - 'A'.toNat + 10)
  else none

/-- The value of hexadecimal digits. -/
def hexValue? (digits : List Char) : Option Nat :=
  digits.foldlM (fun n c => (hexDigit? c).map (16 * n + ·)) 0

/-- Reads a character written as a number of hexadecimal digits. -/
def codePoint (count : Nat) (s : List Char) : Option (Char × List Char) := do
  let digits := s.take count
  if digits.length ≠ count then none
  let n ← hexValue? digits
  if n.isValidChar then some (Char.ofNat n, s.drop count) else none

/-- Reads what follows a backslash. -/
def escapeChar : List Char → Option (Char × List Char)
  | 'b' :: s => some ('\x08', s)
  | 't' :: s => some ('\t', s)
  | 'n' :: s => some ('\n', s)
  | 'f' :: s => some ('\x0c', s)
  | 'r' :: s => some ('\r', s)
  | '"' :: s => some ('"', s)
  | '\\' :: s => some ('\\', s)
  | 'u' :: s => codePoint 4 s
  | 'U' :: s => codePoint 8 s
  | _ => none

/-- Reads a string between double quotes, on one line and with escapes. -/
def basicString : Nat → List Char → Option (List Char × List Char)
  | 0, _ | _, [] => none
  | fuel + 1, c :: s =>
    if c = '"' then some ([], s)
    else if c = '\\' then do
      let (d, s) ← escapeChar s
      let (text, s) ← basicString fuel s
      some (d :: text, s)
    else if isPlain c then do
      let (text, s) ← basicString fuel s
      some (c :: text, s)
    else none

/-- Reads a string between single quotes, on one line and without escapes. -/
def literalString : List Char → Option (List Char × List Char)
  | [] => none
  | c :: s =>
    if c = '\'' then some ([], s)
    else if isPlain c then do
      let (text, s) ← literalString s
      some (c :: text, s)
    else none

/-- The end of a block between tripled quotes: the quotes that still belong to the text, at most
two, and what follows. -/
def blockEnd? (quote : Char) (s : List Char) : Option (List Char × List Char) :=
  let run := (s.takeWhile (· = quote)).length
  if run < 3 then none
  else
    let kept := min (run - 3) 2
    some (List.replicate kept quote, s.drop (kept + 3))

/-- A text without the space and the line breaks in front. -/
def gap : List Char → List Char
  | '\r' :: '\n' :: s => gap s
  | c :: s => if isBlank c || c = '\n' then gap s else c :: s
  | [] => []

/-- What follows a backslash at the end of a line: all space up to the next text is skipped. -/
def joinedLine? (s : List Char) : Option (List Char) := (newline? (blanks s)).map gap

/-- Reads a block between tripled double quotes, over several lines and with escapes. -/
def basicBlock : Nat → List Char → Option (List Char × List Char)
  | 0, _ | _, [] => none
  | fuel + 1, c :: s =>
    match blockEnd? '"' (c :: s), newline? (c :: s) with
    | some (text, s), _ => some (text, s)
    | none, some s => do
      let (text, s) ← basicBlock fuel s
      some ('\n' :: text, s)
    | none, none =>
      if c = '\\' then
        match joinedLine? s with
        | some s => basicBlock fuel s
        | none => do
          let (d, s) ← escapeChar s
          let (text, s) ← basicBlock fuel s
          some (d :: text, s)
      else if isPlain c then do
        let (text, s) ← basicBlock fuel s
        some (c :: text, s)
      else none

/-- Reads a block between tripled single quotes, over several lines and without escapes. -/
def literalBlock : Nat → List Char → Option (List Char × List Char)
  | 0, _ | _, [] => none
  | fuel + 1, c :: s =>
    match blockEnd? '\'' (c :: s), newline? (c :: s) with
    | some (text, s), _ => some (text, s)
    | none, some s => do
      let (text, s) ← literalBlock fuel s
      some ('\n' :: text, s)
    | none, none =>
      if isPlain c then do
        let (text, s) ← literalBlock fuel s
        some (c :: text, s)
      else none

/-- A line break right after the opening quotes of a block is not part of it. -/
def blockStart (s : List Char) : List Char := (newline? s).getD s

/-- Reads a string of any kind. -/
def string (s : List Char) : Option (String × List Char) :=
  let body :=
    match s with
    | '"' :: '"' :: '"' :: s => basicBlock (s.length + 1) (blockStart s)
    | '"' :: s => basicString (s.length + 1) s
    | '\'' :: '\'' :: '\'' :: s => literalBlock (s.length + 1) (blockStart s)
    | '\'' :: s => literalString s
    | _ => none
  body.map fun (text, s) => (String.ofList text, s)

/-! ## Keys -/

/-- Characters of a key without quotes. -/
def isBare (c : Char) : Bool :=
  isDigit c || ('a' ≤ c && c ≤ 'z') || ('A' ≤ c && c ≤ 'Z') || c = '_' || c = '-'

/-- Whether a key may go without quotes. -/
def isBareKey (key : String) : Bool := !key.toList.isEmpty && key.toList.all isBare

/-- Reads one key: bare, or a string on one line. -/
def key (s : List Char) : Option (String × List Char) :=
  match s with
  | '"' :: s => (basicString (s.length + 1) s).map fun (text, s) => (String.ofList text, s)
  | '\'' :: s => (literalString s).map fun (text, s) => (String.ofList text, s)
  | s =>
    match s.takeWhile isBare with
    | [] => none
    | name => some (String.ofList name, s.dropWhile isBare)

/-- How deep arrays and tables in braces may nest, and how many keys may be joined. -/
def maxDepth : Nat := 79

/-- Reads keys joined by dots, with the space around them, at most as many as there is room for. -/
def pathWithin : Nat → List Char → Option (List String × List Char)
  | 0, _ => none
  | room + 1, s => do
    let (name, s) ← key (blanks s)
    match blanks s with
    | '.' :: s =>
      let (names, s) ← pathWithin room s
      some (name :: names, s)
    | s => some ([name], s)

/-- Reads keys joined by dots, with the space around them. -/
def path (s : List Char) : Option (List String × List Char) := pathWithin maxDepth s

/-! ## Numbers and dates -/

/-- Digits of a base with single underscores between them. -/
def isDigitRun (digit : Char → Bool) : List Char → Bool
  | [] => false
  | [c] => digit c
  | c :: '_' :: s => digit c && isDigitRun digit s
  | c :: s => digit c && isDigitRun digit s

/-- The number of a run of digits. -/
def runValue (base : Nat) (s : List Char) : Nat :=
  (s.filterMap hexDigit?).foldl (fun n d => base * n + d) 0

/-- A number without its sign. -/
def unsigned (s : List Char) : List Char :=
  match s with
  | '+' :: s | '-' :: s => s
  | s => s

/-- Decimal digits without a needless zero in front. -/
def isWhole (s : List Char) : Bool := isDigitRun isDigit s && (s.length = 1 || s.head? ≠ some '0')

/-- Integers of 64 bits, in one of four bases. -/
def isInteger (s : List Char) : Bool :=
  let based := fun (base : Nat) digits =>
    isDigitRun (fun c => (hexDigit? c).any (· < base)) digits &&
      runValue base digits < UInt64.size / 2
  match s with
  | '0' :: 'x' :: digits => based 16 digits
  | '0' :: 'o' :: digits => based 8 digits
  | '0' :: 'b' :: digits => based 2 digits
  | s =>
    isWhole (unsigned s) &&
      (runValue 10 (unsigned s) < UInt64.size / 2 ||
        (s.head? = some '-' && runValue 10 (unsigned s) = UInt64.size / 2))

/-- The least number that no double is near to: halfway between the greatest double and the power of
two above it, `2 ^ 1024 - 2 ^ 970`. -/
def overflow : Nat := Nat.pow 2 1024 - Nat.pow 2 970

/-- Whether `significand · 10 ^ exponent` is too great for a double. A number of `n` digits lies
between `10 ^ (n - 1)` and `10 ^ n`, so that only numbers close to the bound, which has 309 digits,
are written out. -/
def overflows (significand : Nat) (exponent : Int) : Bool :=
  let places := (digits significand).length + exponent
  significand ≠ 0 && (309 < places || places = 309 &&
    overflow * Nat.pow 10 (-exponent).toNat ≤ significand * Nat.pow 10 exponent.toNat)

/-- Whether a float without a sign is too great for a double. -/
def isHuge (s : List Char) : Bool :=
  let s := s.filter (· ≠ '_')
  let whole := s.takeWhile isDigit
  let s := s.dropWhile isDigit
  let fraction := if s.head? = some '.' then s.tail.takeWhile isDigit else []
  let s := if s.head? = some '.' then s.tail.dropWhile isDigit else s
  let size : Int := value (unsigned s.tail)
  let exponent := if s.tail.head? = some '-' then -size else size
  overflows (value (whole ++ fraction)) (exponent - fraction.length)

/-- Floats: a fraction, an exponent or both, and the special ones. A positive one is not too great
for a double, while a negative one may be. -/
def isFloat (s : List Char) : Bool :=
  let negative := s.head? = some '-'
  let s := unsigned s
  let whole := s.takeWhile fun c => isDigit c || c = '_'
  let isExponent := fun s => isDigitRun isDigit (unsigned s)
  s = ['i', 'n', 'f'] || s = ['n', 'a', 'n'] ||
    isWhole whole && (negative || !isHuge s) &&
      match s.drop whole.length with
      | '.' :: s =>
        let fraction := s.takeWhile fun c => isDigit c || c = '_'
        isDigitRun isDigit fraction &&
          match s.drop fraction.length with
          | [] => true
          | e :: s => (e = 'e' || e = 'E') && isExponent s
      | e :: s => (e = 'e' || e = 'E') && isExponent s
      | [] => false

/-- The greatest double is written with the digits of its neighbourhood, and the next decimal of as
many digits is too great. -/
example : isFloat "1.7976931348623158e308".toList = true ∧
    isFloat "1.7976931348623159e308".toList = false := by
  decide +kernel

/-- The number of a fixed count of digits, when it lies within bounds. -/
def within (low high : Nat) (s : List Char) : Bool :=
  s.all isDigit && low ≤ value s && value s ≤ high

/-- Days of a month. -/
def daysIn (year month : Nat) : Nat :=
  if month = 2 then if year % 4 = 0 ∧ (year % 100 ≠ 0 ∨ year % 400 = 0) then 29 else 28
  else if month = 4 ∨ month = 6 ∨ month = 9 ∨ month = 11 then 30 else 31

/-- Dates of the calendar. -/
def isDate (s : List Char) : Bool :=
  match s with
  | [y1, y2, y3, y4, '-', m1, m2, '-', d1, d2] =>
    [y1, y2, y3, y4].all isDigit && within 1 12 [m1, m2] &&
      within 1 (daysIn (value [y1, y2, y3, y4]) (value [m1, m2])) [d1, d2]
  | _ => false

/-- Times of day. A leap second is allowed. -/
def isTime (s : List Char) : Bool :=
  match s with
  | h1 :: h2 :: ':' :: m1 :: m2 :: ':' :: s1 :: s2 :: fraction =>
    within 0 23 [h1, h2] && within 0 59 [m1, m2] && within 0 60 [s1, s2] &&
      match fraction with
      | [] => true
      | '.' :: digits => digits ≠ [] && digits.all isDigit
      | _ => false
  | _ => false

/-- Offsets from universal time. -/
def isOffset (s : List Char) : Bool :=
  match s with
  | ['Z'] | ['z'] => true
  | [sign, h1, h2, ':', m1, m2] =>
    (sign = '+' || sign = '-') && within 0 23 [h1, h2] && within 0 59 [m1, m2]
  | _ => false

/-- Dates, times, and both together with or without an offset. -/
def isMoment (s : List Char) : Bool :=
  let timed := fun s =>
    let time := s.takeWhile fun c => isDigit c || c = ':' || c = '.'
    let offset := s.drop time.length
    isTime time && (offset = [] || isOffset offset)
  isDate s || isTime s ||
    isDate (s.take 10) &&
      match s.drop 10 with
      | d :: s => (d = 'T' || d = 't' || d = ' ') && timed s
      | [] => false

/-- Written forms of numbers and dates. -/
def isScalar (s : List Char) : Bool := isInteger s || isFloat s || isMoment s

/-- Characters of numbers and dates. -/
def isScalarChar (c : Char) : Bool := isBare c || c = '+' || c = '.' || c = ':'

/-- Reads a number or a date. A space may stand between a date and a time. -/
def numberOrDate (s : List Char) : Option (String × List Char) :=
  let word := s.takeWhile isScalarChar
  let rest := s.dropWhile isScalarChar
  let longer :=
    match isDate word, rest with
    | true, ' ' :: c :: after =>
      if isDigit c then
        some (word ++ ' ' :: (c :: after).takeWhile isScalarChar,
          (c :: after).dropWhile isScalarChar)
      else none
    | _, _ => none
  let (word, rest) := longer.getD (word, rest)
  if isScalar word then some (String.ofList word, rest) else none

end Walkthrough.Toml
