/-!
# Cutting a text at a mark

* `cut?` — the parts before and after the leftmost occurrence of a mark.
-/

set_option autoImplicit false

namespace Walkthrough.Text

/-- The parts of a text before and after the leftmost occurrence of `mark`. -/
def cut? (mark : List Char) : List Char → Option (List Char × List Char)
  | [] => if mark = [] then some ([], []) else none
  | c :: s =>
    match mark.isPrefixOf? (c :: s) with
    | some rest => some ([], rest)
    | none => (cut? mark s).map fun (before, rest) => (c :: before, rest)

end Walkthrough.Text
