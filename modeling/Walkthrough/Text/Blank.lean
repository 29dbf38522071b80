/-!
# White space

* `isBlank` — the Unicode property `White_Space`, as a closed list of code points.
* `trimStart`, `trimEnd`, `trim` — a text without the white space at its ends.
-/

set_option autoImplicit false

namespace Walkthrough.Text

/-- The code points with the Unicode property `White_Space`. -/
def isBlank (c : Char) : Bool :=
  let n := c.toNat
  (9 ≤ n && n ≤ 13) || n == 0x20 || n == 0x85 || n == 0xA0 || n == 0x1680 ||
    (0x2000 ≤ n && n ≤ 0x200A) || n == 0x2028 || n == 0x2029 || n == 0x202F || n == 0x205F ||
    n == 0x3000

/-- A text without its leading white space. -/
def trimStart (s : List Char) : List Char := s.dropWhile isBlank

/-- A text without its trailing white space. -/
def trimEnd : List Char → List Char
  | [] => []
  | c :: s =>
    match trimEnd s with
    | [] => if isBlank c then [] else [c]
    | d :: r => c :: d :: r

/-- A text without the white space at its two ends. -/
def trim (s : List Char) : List Char := trimEnd (trimStart s)

end Walkthrough.Text
