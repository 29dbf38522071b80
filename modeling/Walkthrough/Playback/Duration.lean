import Walkthrough.Decimal.Natural

/-!
# Durations

Durations count nanoseconds, and there is no greatest one.

* `Duration.text` — a duration in the largest unit that gives it a whole part, with an exact
  fraction.
-/

set_option autoImplicit false

namespace Walkthrough

/-- A duration in nanoseconds. It has no bound. A host whose durations have one gives up as soon as
a time passes it, be it where the clock is moved on or where a timer is scheduled; runs that get
there are left out, and what is said of the clock is said of all others. -/
abbrev Duration := Nat

namespace Duration

/-- A unit of `size` nanoseconds; its fractions have at most `places` digits. -/
structure Unit where
  size : Nat
  places : Nat
  symbol : String

/-- The largest unit that is not longer than the duration, down to the nanosecond. -/
def unitOf (d : Duration) : Unit :=
  if 1000000000 ≤ d then ⟨1000000000, 9, "s"⟩
  else if 1000000 ≤ d then ⟨1000000, 6, "ms"⟩
  else if 1000 ≤ d then ⟨1000, 3, "µs"⟩
  else ⟨1, 0, "ns"⟩

/-- A fraction of `places` digits, without trailing zeros and without its point when nothing is
left. -/
def fraction (places n : Nat) : List Char :=
  let digits := Decimal.digits n
  let padded := List.replicate (places - digits.length) '0' ++ digits
  match (padded.reverse.dropWhile (· = '0')).reverse with
  | [] => []
  | kept => '.' :: kept

/-- The written form of a duration. -/
def text (d : Duration) : String :=
  let unit := unitOf d
  String.ofList (Decimal.digits (d / unit.size) ++ fraction unit.places (d % unit.size)) ++
    unit.symbol

end Duration

end Walkthrough
