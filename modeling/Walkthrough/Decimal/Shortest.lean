/-!
# Shortest decimals

A binary floating-point number is written with the fewest decimal digits that read back as the same
number; of two such writings the one nearer to it is taken, and where both are as near the even one.

* `Binary` — a positive number `mantissa · 2 ^ exponent` with the interval of reals that round to
  it.
* `shortest` — its digits and the power of ten that belongs to them.
-/

set_option autoImplicit false

namespace Walkthrough.Decimal

/-- A number `mantissa · 2 ^ exponent` among the doubles. -/
structure Binary where
  mantissa : Nat
  exponent : Int
  deriving DecidableEq, Repr

/-- The least mantissa of a normal double, `2 ^ 52`. -/
def leadingBit : Nat := 4503599627370496

/-- The magnitude of a finite double. -/
def Binary.ofFloat (x : Float) : Binary :=
  let bits : Nat := x.toBits.toNat
  let exponent := bits / leadingBit % 2048
  let fraction := bits % leadingBit
  if exponent = 0 then ⟨fraction, -1074⟩ else ⟨fraction + leadingBit, (exponent : Int) - 1075⟩

/-- `10 ^ k` or `2 ^ k` with an exponent of either sign, as a numerator and a denominator. -/
def ratio (base : Nat) (k : Int) : Nat × Nat :=
  if 0 ≤ k then (Nat.pow base k.toNat, 1) else (1, Nat.pow base (-k).toNat)

/-- The power of ten of a number's leading digit. Every positive double times `10 ^ 343` is at least
one. -/
def Binary.magnitude (b : Binary) : Int :=
  let (num, den) := ratio 2 b.exponent
  ((Nat.toDigits 10 (b.mantissa * num * Nat.pow 10 343 / den)).length : Int) - 344

/-- The multiples of a power of ten next to a number that still read back as it, the better one
first. In quarters of the last binary place the number is `4 · mantissa`; its interval reaches two
quarters up and two down, or one down where the doubles below lie closer. The ends belong to it when
the mantissa is even. -/
def Binary.candidates (b : Binary) (power : Int) : List Nat :=
  let (num2, den2) := ratio 2 (b.exponent - 2)
  let (num10, den10) := ratio 10 power
  let num := num2 * den10
  let den := den2 * num10
  let value := 4 * b.mantissa * num
  let low := (4 * b.mantissa - if b.mantissa = leadingBit ∧ b.exponent ≠ -1074 then 1 else 2) * num
  let high := (4 * b.mantissa + 2) * num
  let inside := fun c =>
    if b.mantissa % 2 = 0 then low ≤ c * den ∧ c * den ≤ high else low < c * den ∧ c * den < high
  let below := value / den
  let nearBelow :=
    2 * value < (2 * below + 1) * den ∨ (2 * value = (2 * below + 1) * den ∧ below % 2 = 0)
  let pair := if nearBelow then [below, below + 1] else [below + 1, below]
  pair.filter fun c => inside c

/-- The first grid, from coarse to fine, that has a candidate. Seventeen digits always suffice. -/
def Binary.search (b : Binary) (top : Int) : Nat → Nat → Nat × Int
  | 0, _ => (0, 0)
  | fuel + 1, digits =>
    let power := top + 1 - digits
    match b.candidates power with
    | c :: _ => (c, power)
    | [] => b.search top fuel (digits + 1)

/-- Digits without trailing zeros; each zero taken off moves into the power of ten. -/
def dropZeros (digits : List Char) (power : Int) : List Char × Int :=
  let kept := (digits.reverse.dropWhile (· = '0')).reverse
  (kept, power + (digits.length - kept.length : Nat))

/-- The shortest digits of a positive number and the power of ten they are multiplied with. -/
def Binary.shortest (b : Binary) : List Char × Int :=
  let found := b.search b.magnitude 17 1
  dropZeros (Nat.toDigits 10 found.1) found.2

end Walkthrough.Decimal
