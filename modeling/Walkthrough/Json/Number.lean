import Walkthrough.Decimal.Natural
import Walkthrough.Decimal.Shortest
import Walkthrough.Json.Value
import Walkthrough.Json.Fault

/-!
# JSON numbers

* `Numeral.scan` — the grammar: sign apart, digits, an optional fraction and an optional exponent.
* `Numeral.toNumber` — the number of a numeral. Integers of 64 bits are exact. All others become
  doubles by a short computation that keeps the leading digits, as many as 64 bits hold, and scales
  them by a power of ten; it may miss the nearest double.
* `Number.render` — the written form, a double with the fewest digits that read back.
-/

set_option autoImplicit false

namespace Walkthrough

open Decimal

namespace Json

/-- A number as it is written, without its sign. -/
structure Numeral where
  whole : List Char
  fraction : Option (List Char)
  exponent : Option (Bool × List Char)
  deriving DecidableEq, Repr

/-- The digits at the start of a text, at least one, and what follows. `truncated` is the fault of a
text that ends here. -/
def Numeral.scanDigits (truncated : Fault) (s : List Char) : Except Fault (List Char × List Char) :=
  match s with
  | [] => .error truncated
  | c :: _ =>
    if isDigit c then .ok (s.takeWhile isDigit, s.dropWhile isDigit) else .error .invalidNumber

/-- Reads a numeral. A zero is not followed by further digits. -/
def Numeral.scan (truncated : Fault) (s : List Char) : Except Fault (Numeral × List Char) := do
  let (whole, s) ← scanDigits truncated s
  if whole.head? = some '0' ∧ whole.length ≠ 1 then throw .invalidNumber
  let (fraction, s) ←
    match s with
    | '.' :: s => do
      let (digits, s) ← scanDigits truncated s
      pure (some digits, s)
    | _ => pure (none, s)
  match s with
  | c :: s' =>
    if c = 'e' ∨ c = 'E' then
      let (negative, s') :=
        match s' with
        | '-' :: s' => (true, s')
        | '+' :: s' => (false, s')
        | _ => (false, s')
      let (digits, s') ← scanDigits truncated s'
      pure (⟨whole, fraction, some (negative, digits)⟩, s')
    else pure (⟨whole, fraction, none⟩, s)
  | [] => pure (⟨whole, fraction, none⟩, s)

/-- Takes digits into a significand of 64 bits until one does not fit; also the number of digits
taken. -/
def accumulate : Nat → List Char → Nat × Nat
  | n, [] => (n, 0)
  | n, c :: s =>
    let next := 10 * n + digitValue c
    if next < UInt64.size then
      let (total, taken) := accumulate next s
      (total, taken + 1)
    else (n, 0)

/-- The double nearest to a power of ten. -/
def powerOfTen (k : Nat) : Float := Float.ofScientific 1 false k

/-- `f · 10 ^ e`, in one multiplication or division where the power of ten is a double, after steps
of `10 ^ 308` otherwise. -/
def scale : Nat → Float → Int → Except Fault Float
  | 0, f, _ => .ok f
  | fuel + 1, f, e =>
    if e.natAbs ≤ 308 then
      if 0 ≤ e then
        let g := f * powerOfTen e.natAbs
        if g.isInf then .error .numberOutOfRange else .ok g
      else .ok (f / powerOfTen e.natAbs)
    else if f == 0 then .ok f
    else if 0 < e then .error .numberOutOfRange
    else scale fuel (f / powerOfTen 308) (e + 308)

/-- The magnitude of a numeral as a double. An exponent beyond 31 bits means zero or a fault,
whatever the digits. -/
def Numeral.toFloat (n : Numeral) : Except Fault Float :=
  let (significand, taken) := accumulate 0 n.whole
  let dropped := n.whole.length - taken
  let (significand, fractional) := accumulate significand (n.fraction.getD [])
  let written : Bool × Nat :=
    match n.exponent with
    | none => (false, 0)
    | some (negative, digits) => (negative, value digits)
  if UInt32.size / 2 ≤ written.2 then
    if significand ≠ 0 ∧ written.1 = false then .error .numberOutOfRange else .ok 0
  else
    let exponent : Int :=
      (if written.1 then -(written.2 : Int) else written.2) - fractional + dropped
    scale (exponent.natAbs + 1) (UInt64.ofNat significand).toFloat exponent

/-- The number of a numeral with a sign. Minus zero is a double. -/
def Numeral.toNumber (negative : Bool) (n : Numeral) : Except Fault Number := do
  let whole := value n.whole
  if n.fraction.isNone ∧ n.exponent.isNone then
    if negative then
      if 0 < whole ∧ whole ≤ UInt64.size / 2 then return .int (-(whole : Int))
    else if whole < UInt64.size then return .int whole
  let magnitude ← n.toFloat
  return .float (if negative then -magnitude else magnitude)

end Json

/-- The written form of a double: positional while the point falls within or close to sixteen
digits, else with an exponent that always has its sign. -/
def Number.renderFloat (x : Float) : List Char :=
  let sign := if UInt64.size / 2 ≤ x.toBits.toNat then ['-'] else []
  let binary := Binary.ofFloat x
  if binary.mantissa = 0 then sign ++ ['0', '.', '0'] else
    let (digits, power) := binary.shortest
    let point : Int := digits.length + power
    sign ++
      (if 0 ≤ power ∧ point ≤ 16 then digits ++ List.replicate power.toNat '0' ++ ['.', '0']
      else if 0 < point ∧ point ≤ 16 then digits.take point.toNat ++ '.' :: digits.drop point.toNat
      else if -5 < point ∧ point ≤ 0 then ['0', '.'] ++ List.replicate (-point).toNat '0' ++ digits
      else
        digits.take 1 ++ (if digits.length = 1 then [] else '.' :: digits.drop 1) ++
          'e' :: (if point < 1 then '-' else '+') :: Nat.toDigits 10 (point - 1).natAbs)

/-- The written form of a number. -/
def Number.render : Number → List Char
  | .int n => (toString n).toList
  | .float x => Number.renderFloat x

/-- A number as a message names it. -/
def Number.found : Number → Json.Found
  | .int n => .integer (toString n)
  | .float x => .float (String.ofList (Number.renderFloat x))

end Walkthrough
