/-!
# JSON values

* `Number` — an integer of 64 bits, signed or unsigned, or a double; `1` and `1.0` are different
  numbers.
* `Json` — values. The members of an object are kept in the order of their keys, each key once.
* `Json.ofMembers` — the object of a list of members; of two with one key the later counts.
-/

set_option autoImplicit false

namespace Walkthrough

/-- A JSON number. -/
inductive Number where
  | int (value : Int)
  | float (value : Float)
  deriving DecidableEq, Repr

/-- A JSON value. -/
inductive Json where
  | null
  | bool (value : Bool)
  | num (value : Number)
  | str (value : String)
  | arr (items : List Json)
  | obj (members : List (String × Json))
  deriving Repr, Inhabited

namespace Json

/-- Adds a member in the order of the keys, in place of one with the same key. -/
def insertMember (key : String) (value : Json) : List (String × Json) → List (String × Json)
  | [] => [(key, value)]
  | (k, v) :: rest =>
    if key < k then (key, value) :: (k, v) :: rest
    else if key = k then (key, value) :: rest
    else (k, v) :: insertMember key value rest

/-- The object with the given members. -/
def ofMembers (members : List (String × Json)) : Json :=
  .obj (members.foldl (fun sorted (key, value) => insertMember key value sorted) [])

/-- The member of an object with a given key. -/
def member? (key : String) : Json → Option Json
  | .obj members => members.lookup key
  | _ => none

end Json

end Walkthrough
