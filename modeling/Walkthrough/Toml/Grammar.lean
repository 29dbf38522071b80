import Walkthrough.Toml.Lexical
import Walkthrough.Toml.Value

/-!
# What TOML texts say

The rules of TOML 1.0 for strings, flags, and tables below headers, as relations between a text and
what it stands for. They have no part in writing or reading. A writer may put down any of the texts
that say what is to be said, with whatever space, comments and notations of strings it likes; a
reader has to take them all.

* `Stands`, `QuotedText`, `BlockText` — characters between double quotes, on one line and in a
  block.
* `StringText`, `KeyText`, `ValueText` — strings in their four notations, keys, and values.
* `LineText`, `LinesText` — a line, and a text of lines.
* `Line.table` — the table of lines: the members above the first header, and a table for each
  header, of the members below it.
* `SameTable` — tables with the same members; tables have no order.
* `Says` — a text says a table.

A carriage return inside a block is not among the rules: what stands for a line break there is left
to the reader.
-/

set_option autoImplicit false

namespace Walkthrough.Toml

/-! ## Strings -/

/-- A line break between lines. -/
inductive Newline : List Char → Prop where
  | lf : Newline ['\n']
  | crlf : Newline ['\r', '\n']

/-- Space within a line. -/
def Space (b : List Char) : Prop := ∀ c ∈ b, isBlank c = true

/-- The letters of escapes, and what they stand for. -/
def escapes : List (Char × Char) :=
  [('b', '\x08'), ('t', '\t'), ('n', '\n'), ('f', '\x0c'), ('r', '\r'), ('"', '"'), ('\\', '\\')]

/-- What follows a backslash between double quotes, and the character it stands for: a letter, or a
code point in four or eight hexadecimal digits. -/
inductive Escape : List Char → Char → Prop where
  | letter {e c : Char} : (e, c) ∈ escapes → Escape [e] c
  | short {digits : List Char} {c : Char} : digits.length = 4 → hexValue? digits = some c.toNat →
      Escape ('u' :: digits) c
  | long {digits : List Char} {c : Char} : digits.length = 8 → hexValue? digits = some c.toNat →
      Escape ('U' :: digits) c

/-- What stands for a character between double quotes: the character itself, unless it is a quote, a
backslash or a control character, or an escape. -/
inductive Stands : List Char → Char → Prop where
  | plain {c : Char} : isPlain c = true → c ≠ '"' → c ≠ '\\' → Stands [c] c
  | escape {e : List Char} {c : Char} : Escape e c → Stands ('\\' :: e) c

/-- The text between double quotes on one line. -/
inductive QuotedText : List Char → List Char → Prop where
  | nil : QuotedText [] []
  | cons {u w s : List Char} {c : Char} : Stands u c → QuotedText w s →
      QuotedText (u ++ w) (c :: s)

/-- The text between single quotes on one line, which stands for itself. -/
def LiteralText (s : List Char) : Prop := ∀ c ∈ s, isPlain c = true ∧ c ≠ '\''

/-- Space and line breaks. -/
inductive Gap : List Char → Prop where
  | nil : Gap []
  | blank {c : Char} {g : List Char} : isBlank c = true → Gap g → Gap (c :: g)
  | newline {n g : List Char} : Newline n → Gap g → Gap (n ++ g)

/-- The text of a block between tripled double quotes, where `run` quotes stand right before it. At
most two quotes may stand in a row. A backslash at the end of a line is left out with all space and
line breaks up to the next text. -/
inductive BlockText : Nat → List Char → List Char → Prop where
  | nil {run : Nat} : BlockText run [] []
  | quote {run : Nat} {w s : List Char} : run < 2 → BlockText (run + 1) w s →
      BlockText run ('"' :: w) ('"' :: s)
  | newline {run : Nat} {w s : List Char} : BlockText 0 w s →
      BlockText run ('\n' :: w) ('\n' :: s)
  | cons {run : Nat} {u w s : List Char} {c : Char} : Stands u c → BlockText 0 w s →
      BlockText run (u ++ w) (c :: s)
  | joined {run : Nat} {b n g w s : List Char} : Space b → Newline n → Gap g →
      (∀ c ∈ w.head?, isBlank c = false ∧ c ≠ '\n') → BlockText 0 w s →
      BlockText run ('\\' :: (b ++ (n ++ (g ++ w)))) s

/-- The text of a block between tripled single quotes, which stands for itself. -/
structure LiteralBlockText (s : List Char) : Prop where
  plain : ∀ c ∈ s, isPlain c = true ∨ c = '\n'
  quotes : ¬ ['\'', '\'', '\''] <:+: s

/-- What stands between the tripled quotes of a block: its text, after a line break that is not part
of it. Without that the text does not start with a line break. -/
inductive Opened : List Char → List Char → Prop where
  | same {w : List Char} : w.head? ≠ some '\n' → Opened w w
  | newline {n w : List Char} : Newline n → Opened (n ++ w) w

/-- A string in one of its four notations. -/
inductive StringText : List Char → List Char → Prop where
  | quoted {w s : List Char} : QuotedText w s → StringText ('"' :: (w ++ ['"'])) s
  | literal {s : List Char} : LiteralText s → StringText ('\'' :: (s ++ ['\''])) s
  | block {b w s : List Char} : Opened b w → BlockText 0 w s →
      StringText ('"' :: '"' :: '"' :: (b ++ ['"', '"', '"'])) s
  | literalBlock {b s : List Char} : Opened b s → LiteralBlockText s →
      StringText ('\'' :: '\'' :: '\'' :: (b ++ ['\'', '\'', '\''])) s

/-! ## Keys and values -/

/-- A key: without quotes, or a string on one line. -/
inductive KeyText : List Char → String → Prop where
  | bare {key : String} : isBareKey key = true → KeyText key.toList key
  | quoted {w s : List Char} : QuotedText w s → KeyText ('"' :: (w ++ ['"'])) (String.ofList s)
  | literal {s : List Char} : LiteralText s → KeyText ('\'' :: (s ++ ['\''])) (String.ofList s)

/-- A string or a flag. -/
inductive ValueText : List Char → Toml → Prop where
  | text {w s : List Char} : StringText w s → ValueText w (.text (String.ofList s))
  | yes : ValueText ['t', 'r', 'u', 'e'] (.flag true)
  | no : ValueText ['f', 'a', 'l', 's', 'e'] (.flag false)

/-! ## Lines -/

/-- What a line says: nothing, that a key has a value, or which table the next lines are in. -/
inductive Line where
  | empty
  | member (key : String) (value : Toml)
  | header (key : String)

/-- What may stand at the end of a line: space and a comment. -/
inductive Trailer : List Char → Prop where
  | space {b : List Char} : Space b → Trailer b
  | comment {b s : List Char} : Space b → (∀ c ∈ s, isPlain c = true) → Trailer (b ++ '#' :: s)

/-- A line without its line break. -/
inductive LineText : List Char → Line → Prop where
  | empty {e : List Char} : Trailer e → LineText e .empty
  | member {b₁ b₂ b₃ k v e : List Char} {key : String} {value : Toml} : Space b₁ →
      KeyText k key → Space b₂ → Space b₃ → ValueText v value → Trailer e →
      LineText (b₁ ++ (k ++ (b₂ ++ '=' :: (b₃ ++ (v ++ e))))) (.member key value)
  | header {b₁ b₂ b₃ k e : List Char} {key : String} : Space b₁ → Space b₂ → KeyText k key →
      Space b₃ → Trailer e → LineText (b₁ ++ '[' :: (b₂ ++ (k ++ (b₃ ++ ']' :: e)))) (.header key)

/-- A text of lines. The last of them has no line break. -/
inductive LinesText : List Char → List Line → Prop where
  | last {w : List Char} {l : Line} : LineText w l → LinesText w [l]
  | cons {w n t : List Char} {l : Line} {ls : List Line} : LineText w l → Newline n →
      LinesText t ls → LinesText (w ++ (n ++ t)) (l :: ls)

/-! ## Tables -/

/-- The members above the first header, and the headers with the members below each. -/
def Line.sections : List Line → Table × List (String × Table)
  | [] => ([], [])
  | .empty :: ls => sections ls
  | .member key value :: ls => ((key, value) :: (sections ls).1, (sections ls).2)
  | .header key :: ls => ([], (key, (sections ls).1) :: (sections ls).2)

/-- The table of lines. -/
def Line.table (ls : List Line) : Table :=
  (sections ls).1 ++ (sections ls).2.map fun p => (p.1, .table .header p.2)

/-- No key is defined twice. -/
structure Distinct (ls : List Line) : Prop where
  keys : (keys (Line.table ls)).Nodup
  sections : ∀ p ∈ (Line.sections ls).2, (Toml.keys p.2).Nodup

mutual

/-- One value, come by in two ways: equal strings or flags, or tables with the same members, in any
order. -/
inductive Same : Toml → Toml → Prop where
  | text (content : String) : Same (.text content) (.text content)
  | flag (value : Bool) : Same (.flag value) (.flag value)
  | table {o o' : Origin} {t u t' : Table} : t.Perm u → Paired u t' →
      Same (.table o t) (.table o' t')

/-- The same members in the same order. -/
inductive Paired : Table → Table → Prop where
  | nil : Paired [] []
  | cons (key : String) {v v' : Toml} {t t' : Table} : Same v v' → Paired t t' →
      Paired ((key, v) :: t) ((key, v') :: t')

end

/-- Tables with the same members, in any order. -/
def SameTable (t t' : Table) : Prop := ∃ u, t.Perm u ∧ Paired u t'

/-- A text says that its table is this one, by the rules of TOML. -/
def Says (text : String) (t : Table) : Prop :=
  ∃ ls, LinesText text.toList ls ∧ Distinct ls ∧ SameTable (Line.table ls) t

end Walkthrough.Toml
