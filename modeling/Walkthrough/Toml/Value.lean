/-!
# TOML values

* `Origin` — how a table came to be, which decides how it may be added to.
* `Toml` — values. Numbers and dates are kept as they are written.
* `Table` — the members of a table, in the order they were defined.
* `isLeaf` — strings and flags.
-/

set_option autoImplicit false

namespace Walkthrough

namespace Toml

/-- How a table came to be: written in braces, opened by its own header, opened on the way to a
longer header, or by a dotted key. -/
inductive Origin where
  | inline
  | header
  | implied
  | dotted
  deriving DecidableEq, Repr

end Toml

/-- A TOML value. -/
inductive Toml where
  | text (content : String)
  | flag (value : Bool)
  | scalar (written : String)
  | array (items : List Toml)
  | tables (items : List (List (String × Toml)))
  | table (origin : Toml.Origin) (members : List (String × Toml))
  deriving Repr

namespace Toml

/-- The members of a table. -/
abbrev Table := List (String × Toml)

/-- The keys of a table. -/
def keys (t : Table) : List String := t.map Prod.fst

/-- Strings and flags. -/
def isLeaf : Toml → Bool
  | .text _ | .flag _ => true
  | _ => false

end Toml

end Walkthrough
