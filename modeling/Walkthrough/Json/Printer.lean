import Walkthrough.Json.Number

/-!
# Writing JSON

* `Json.render` — the compact text of a value: no space, members in their order, and of the
  characters in a string only the quote, the backslash and the controls escaped.
-/

set_option autoImplicit false

namespace Walkthrough.Json

/-- A character inside a string. -/
def renderChar (c : Char) : List Char :=
  match c with
  | '"' => ['\\', '"']
  | '\\' => ['\\', '\\']
  | '\x08' => ['\\', 'b']
  | '\x0c' => ['\\', 'f']
  | '\n' => ['\\', 'n']
  | '\r' => ['\\', 'r']
  | '\t' => ['\\', 't']
  | c =>
    if c.toNat < 0x20 then
      ['\\', 'u', '0', '0', Nat.digitChar (c.toNat / 16), Nat.digitChar (c.toNat % 16)]
    else [c]

/-- A string between its quotes. -/
def renderString (text : String) : List Char := '"' :: text.toList.flatMap renderChar ++ ['"']

mutual

/-- The characters of a value. -/
def renderValue : Json → List Char
  | .null => ['n', 'u', 'l', 'l']
  | .bool true => ['t', 'r', 'u', 'e']
  | .bool false => ['f', 'a', 'l', 's', 'e']
  | .num n => n.render
  | .str text => renderString text
  | .arr [] => ['[', ']']
  | .arr (item :: items) => '[' :: renderValue item ++ renderItems items
  | .obj [] => ['{', '}']
  | .obj ((key, value) :: members) =>
    '{' :: renderString key ++ ':' :: renderValue value ++ renderMembers members

/-- The items after the first, each behind a comma, and the closing bracket. -/
def renderItems : List Json → List Char
  | [] => [']']
  | item :: items => ',' :: renderValue item ++ renderItems items

/-- The members after the first, each behind a comma, and the closing bracket. -/
def renderMembers : List (String × Json) → List Char
  | [] => ['}']
  | (key, value) :: members =>
    ',' :: renderString key ++ ':' :: renderValue value ++ renderMembers members

end

/-- The compact text of a value. -/
def render (value : Json) : String := String.ofList value.renderValue

end Walkthrough.Json
