import Walkthrough.Config.Basic
import Walkthrough.Toml.Format

/-!
# Configurations as TOML

* `Config.table` — a configuration as a table, with every field in it.
* `Config.ofTable?` — the configuration of a table: absent fields have their defaults, unknown ones
  are refused. The editor's options may also be an array of its fields in their order.
* `Config.writeToml`, `Config.readToml` — the text of a configuration, and the checked configuration
  of a text, by any writer and reader of TOML; `Config.toToml`, `Config.ofToml`: by those of this
  library.
* `Config.ofFile` — the checked configuration of a file.
* `Config.SaveFault`, `Config.LoadFault` — why there is none, with the messages of every layer.
-/

set_option autoImplicit false

namespace Walkthrough

/-! ## Tables -/

/-- The editor's options as a table. -/
def Config.Editor.table (e : Config.Editor) : Toml.Table :=
  [("mode", .text e.mode),
    ("theme", .text e.theme),
    ("line_numbers", .flag e.lineNumbers),
    ("line_wrapping", .flag e.lineWrapping),
    ("read_only", .flag e.readOnly),
    ("auto_refresh", .flag e.autoRefresh),
    ("show_cursor_when_selecting", .flag e.showCursorWhenSelecting),
    ("prevent_cursor_movement", .flag e.preventCursorMovement)]

/-- A configuration as a table. -/
def Config.table (c : Config) : Toml.Table :=
  [("separator", .text c.separator), ("editor", .table .header c.editor.table)]

/-- A string value. -/
def Toml.asText? : Toml → Option String
  | .text content => some content
  | _ => none

/-- A flag. -/
def Toml.asFlag? : Toml → Option Bool
  | .flag value => some value
  | _ => none

namespace Config.Editor

/-- The fields in their order, each with the way to set it. -/
def fields : List (String × (Config.Editor → Toml → Option Config.Editor)) :=
  [("mode", fun e v => v.asText?.map fun mode => { e with mode }),
    ("theme", fun e v => v.asText?.map fun theme => { e with theme }),
    ("line_numbers", fun e v => v.asFlag?.map fun lineNumbers => { e with lineNumbers }),
    ("line_wrapping", fun e v => v.asFlag?.map fun lineWrapping => { e with lineWrapping }),
    ("read_only", fun e v => v.asFlag?.map fun readOnly => { e with readOnly }),
    ("auto_refresh", fun e v => v.asFlag?.map fun autoRefresh => { e with autoRefresh }),
    ("show_cursor_when_selecting",
      fun e v => v.asFlag?.map fun showCursorWhenSelecting => { e with showCursorWhenSelecting }),
    ("prevent_cursor_movement",
      fun e v => v.asFlag?.map fun preventCursorMovement => { e with preventCursorMovement })]

/-- Editor options of a table, or of an array; of an array that is too long the rest is ignored. -/
def ofToml? : Toml → Option Config.Editor
  | .table _ members =>
    members.foldlM (fun e (name, v) => (fields.lookup name).bind fun set => set e v) {}
  | .array items => (fields.zip items).foldlM (fun e ((_, set), v) => set e v) {}
  | _ => none

end Config.Editor

/-- The configuration of a table. -/
def Config.ofTable? (t : Toml.Table) : Option Config :=
  t.foldlM (fun c (name, v) =>
    if name = "separator" then v.asText?.map fun separator => { c with separator }
    else if name = "editor" then (Config.Editor.ofToml? v).map fun editor => { c with editor }
    else none) {}

/-! ## Texts -/

/-- Why a configuration has no text. -/
inductive Config.SaveFault where
  | unwritable
  deriving DecidableEq, Repr

/-- The message. What a writer of TOML adds below is not part of it. -/
def Config.SaveFault.message : Config.SaveFault → String
  | .unwritable => "Failed to serialize config"

/-- Why a configuration cannot be had. -/
inductive Config.LoadFault where
  | unreadable (file : String)
  | malformed
  | refused (cause : Config.Fault)
  | invalidFile (file : String) (cause : Config.LoadFault)
  deriving DecidableEq, Repr

namespace Config.LoadFault

/-- The messages of every layer, the outermost first. What a reader of files or of TOML adds below
is not among them. -/
def messages : Config.LoadFault → List String
  | .unreadable file => ["Failed to read config file: " ++ Text.quote file]
  | .malformed => ["Failed to parse config"]
  | .refused cause => [cause.message]
  | .invalidFile file cause => ("Invalid config file: " ++ Text.quote file) :: cause.messages

/-- The innermost cause. -/
def root : Config.LoadFault → Config.LoadFault
  | .invalidFile _ cause => cause.root
  | e => e

end Config.LoadFault

/-- The text of a configuration. -/
def Config.writeToml (format : Toml.Format) (c : Config) : Except Config.SaveFault String :=
  match format.write c.table with
  | none => .error .unwritable
  | some text => .ok text

/-- The checked configuration of a text. -/
def Config.readToml (format : Toml.Format) (text : String) : Except Config.LoadFault Config :=
  match (format.read text).bind Config.ofTable? with
  | none => .error .malformed
  | some c =>
    match c.validate with
    | .error cause => .error (.refused cause)
    | .ok () => .ok c

/-- The keys of configurations need no quotes. -/
theorem Config.isBareKey_fields :
    ("separator" :: "editor" :: Config.Editor.fields.map Prod.fst).all Toml.isBareKey = true := by
  decide

theorem Config.isSome_write? (c : Config) : (Toml.write? c.table).isSome = true := by
  have hkeys := isBareKey_fields
  simp only [Editor.fields, List.map_cons, List.map_nil, List.all_cons, List.all_nil,
    Bool.and_eq_true] at hkeys
  simp [table, Editor.table, Toml.write?, Toml.isLeaf, Toml.renderLines?, Toml.renderSections?,
    Toml.renderSection?, Toml.renderLine?, Toml.renderLeaf?, hkeys]

/-- The text of a configuration by the writer of this library, which has one for each. -/
def Config.toToml (c : Config) : String := (Toml.write? c.table).get c.isSome_write?

/-- The checked configuration of a text by the reader of this library. -/
def Config.ofToml (text : String) : Except Config.LoadFault Config :=
  Config.readToml Toml.standard text

/-- The checked configuration of a file with the given bytes, if it has any. -/
def Config.ofFile (file : String) (bytes : Option ByteArray) : Except Config.LoadFault Config :=
  match bytes.bind String.fromUTF8? with
  | none => .error (.unreadable file)
  | some text =>
    match Config.ofToml text with
    | .error cause => .error (.invalidFile file cause)
    | .ok c => .ok c

end Walkthrough
