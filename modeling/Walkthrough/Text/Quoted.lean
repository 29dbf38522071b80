import Walkthrough.Text.Printable

/-!
# Quoted texts

The form in which a message shows a text: between double quotes, on one line, with nothing invisible
in it.

* `quoteChar`, `quote` — the written form.
-/

set_option autoImplicit false

namespace Walkthrough.Text

/-- A character inside double quotes: a short escape, the character itself, or its code point in
hexadecimal. -/
def quoteChar (c : Char) : List Char :=
  match c with
  | '\x00' => ['\\', '0']
  | '\t' => ['\\', 't']
  | '\n' => ['\\', 'n']
  | '\r' => ['\\', 'r']
  | '"' => ['\\', '"']
  | '\\' => ['\\', '\\']
  | c => if isPrintable c then [c] else ['\\', 'u', '{'] ++ Nat.toDigits 16 c.toNat ++ ['}']

/-- A text in double quotes. -/
def quote (text : String) : String := String.ofList ('"' :: text.toList.flatMap quoteChar ++ ['"'])

end Walkthrough.Text
