import Walkthrough.Toml.Grammar
import Walkthrough.Toml.Printer
import Walkthrough.Toml.Reader

/-!
# Ways to write and read TOML

* `isSimple` — tables of strings and flags, with tables of such after them.
* `Format` — a writer and a reader.
* `Format.Writes`, `Format.Reads` — what can be relied on in those that keep to TOML 1.0.
* `standard` — the writer and the reader of this library.
-/

set_option autoImplicit false

namespace Walkthrough.Toml

/-- Whether the keys of a table go without quotes, and none comes twice. -/
def hasBareKeys (t : Table) : Bool := (keys t).all isBareKey && (keys t).Nodup

/-- Tables of strings and flags. -/
def isSection : Toml → Bool
  | .table _ members => hasBareKeys members && members.all (isLeaf ·.2)
  | _ => false

/-- Tables whose members are strings and flags, and after them tables of such. -/
def isSimple (t : Table) : Bool :=
  hasBareKeys t && (t.dropWhile (isLeaf ·.2)).all (isSection ·.2)

/-- A writer of tables and a reader of texts. The writer may find a table that it cannot write, and
the reader a text that breaks the rules. -/
structure Format where
  write : Table → Option String
  read : String → Option Table

namespace Format

/-- Every simple table is written, and the text says that table. -/
def Writes (format : Format) : Prop :=
  ∀ t, isSimple t = true → ∃ text, format.write t = some text ∧ Says text t

/-- Every text that says a table is read as this table, with its members in some order. -/
def Reads (format : Format) : Prop :=
  ∀ text t, Says text t → ∃ t', format.read text = some t' ∧ SameTable t' t

end Format

/-- The writer and the reader of this library. -/
def standard : Format := ⟨write?, parse?⟩

end Walkthrough.Toml
