/-!
# Character entities

A document embedded in a page writes `<`, `>` and `&` as entities. Only these three are known here;
everything else that starts with an ampersand stands for itself.

* `decode` — one pass from left to right; what a decoded entity contributes is not looked at again.
* `encode` — the written form of a text.
* `decodeEntities`, `encodeEntities` — the same for strings.
-/

set_option autoImplicit false

namespace Walkthrough.Text.Entity

/-- Replaces each entity by the character it names, in one pass. -/
def decode : List Char → List Char
  | [] => []
  | '&' :: 'l' :: 't' :: ';' :: s => '<' :: decode s
  | '&' :: 'g' :: 't' :: ';' :: s => '>' :: decode s
  | '&' :: 'a' :: 'm' :: 'p' :: ';' :: s => '&' :: decode s
  | c :: s => c :: decode s

/-- The entity of a character, or the character itself when it needs none. -/
def encodeChar (c : Char) : List Char :=
  if c = '&' then ['&', 'a', 'm', 'p', ';']
  else if c = '<' then ['&', 'l', 't', ';']
  else if c = '>' then ['&', 'g', 't', ';']
  else [c]

/-- Writes `&`, `<` and `>` as entities. -/
def encode (s : List Char) : List Char := s.flatMap encodeChar

end Walkthrough.Text.Entity

namespace Walkthrough

/-- A text with its entities replaced by the characters they name. -/
def decodeEntities (text : String) : String := String.ofList (Text.Entity.decode text.toList)

/-- A text with `&`, `<` and `>` written as entities. -/
def encodeEntities (text : String) : String := String.ofList (Text.Entity.encode text.toList)

end Walkthrough
