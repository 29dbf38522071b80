/-!
# Decimal digits

* `isDigit` — the ten ASCII digits; no other digit counts.
* `value` — the number that a row of digits writes.
* `digits` — the digits of a number.
-/

set_option autoImplicit false

namespace Walkthrough.Decimal

/-- The digits `0` to `9`. -/
def isDigit (c : Char) : Bool := '0' ≤ c && c ≤ '9'

/-- What a digit stands for. -/
def digitValue (c : Char) : Nat := c.toNat - '0'.toNat

/-- The number that a row of digits writes, leading zeros allowed. -/
def value (s : List Char) : Nat := s.foldl (fun n c => 10 * n + digitValue c) 0

/-- The decimal digits of a number. -/
def digits (n : Nat) : List Char := Nat.toDigits 10 n

end Walkthrough.Decimal
