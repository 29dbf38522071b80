/-!
# Line endings and lines

* `normalize` — every line ending (LF, CR, CR LF, LF CR) becomes one LF; pairs are taken greedily
  from the left.
* `lines` — the pieces of a normalised text between its LFs, the empty ones included.
-/

set_option autoImplicit false

namespace Walkthrough.Text

/-- Every line ending as a single LF. A CR and an LF that follow each other, in either order, are
one ending. -/
def normalize : List Char → List Char
  | [] => []
  | '\r' :: '\n' :: s => '\n' :: normalize s
  | '\n' :: '\r' :: s => '\n' :: normalize s
  | c :: s => (if c = '\r' then '\n' else c) :: normalize s

/-- The lines of a text, whatever its line endings. There is always at least one. -/
def lines (s : List Char) : List (List Char) := (normalize s).splitOn '\n'

end Walkthrough.Text
