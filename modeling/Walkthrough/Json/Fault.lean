import Walkthrough.Text.Quoted

/-!
# Faults in JSON texts

* `Json.Fault` — everything that can be wrong with a text, or with a value where another one is
  wanted.
* `Json.Fault.category` — whether the text ends too early, is malformed, or holds the wrong data.
* `Json.Fault.message` — the wording.
-/

set_option autoImplicit false

namespace Walkthrough.Json

/-- A value as a message names it. -/
inductive Found where
  | null
  | bool (value : Bool)
  | integer (text : String)
  | float (text : String)
  | string (text : String)
  | sequence
  | map
  deriving DecidableEq, Repr

/-- A value or text that was wanted, as a message names it. -/
inductive Wanted where
  | string
  | sequence
  | record (name : String)
  deriving DecidableEq, Repr

/-- What is wrong with a JSON text, or with the data in it. Where in the text it is wrong is not
part of it. -/
inductive Fault where
  | endInValue
  | endInList
  | endInObject
  | endInString
  | expectedValue
  | expectedName
  | expectedColon
  | expectedListEnd
  | expectedObjectEnd
  | keyNotString
  | trailingComma
  | trailingCharacters
  | controlCharacter
  | invalidEscape
  | loneSurrogate
  | unpairedSurrogate
  | invalidNumber
  | numberOutOfRange
  | nestingTooDeep
  | missingField (name : String)
  | duplicateField (name : String)
  | wrongType (found : Found) (wanted : Wanted)
  | tooFewFields (count : Nat) (record : String) (fields : Nat)
  | tooManyItems (count : Nat)
  deriving DecidableEq, Repr

/-- The three kinds of fault. -/
inductive Category where
  | truncated
  | malformed
  | mismatched
  deriving DecidableEq, Repr

/-- The kind of a fault. -/
def Fault.category : Fault → Category
  | .endInValue | .endInList | .endInObject | .endInString => .truncated
  | .missingField _ | .duplicateField _ | .wrongType .. | .tooFewFields .. | .tooManyItems _ =>
    .mismatched
  | _ => .malformed

/-- The wording of a value that was found. -/
def Found.message : Found → String
  | .null => "null"
  | .bool value => "boolean `" ++ (if value then "true" else "false") ++ "`"
  | .integer text => "integer `" ++ text ++ "`"
  | .float text => "floating point `" ++ text ++ "`"
  | .string text => "string " ++ Text.quote text
  | .sequence => "sequence"
  | .map => "map"

/-- The wording of what was wanted. -/
def Wanted.message : Wanted → String
  | .string => "a string"
  | .sequence => "a sequence"
  | .record name => "struct " ++ name

/-- The wording of a fault. -/
def Fault.message : Fault → String
  | .endInValue => "EOF while parsing a value"
  | .endInList => "EOF while parsing a list"
  | .endInObject => "EOF while parsing an object"
  | .endInString => "EOF while parsing a string"
  | .expectedValue => "expected value"
  | .expectedName => "expected ident"
  | .expectedColon => "expected `:`"
  | .expectedListEnd => "expected `,` or `]`"
  | .expectedObjectEnd => "expected `,` or `\x7d`"
  | .keyNotString => "key must be a string"
  | .trailingComma => "trailing comma"
  | .trailingCharacters => "trailing characters"
  | .controlCharacter => "control character (\\u0000-\\u001F) found while parsing a string"
  | .invalidEscape => "invalid escape"
  | .loneSurrogate => "lone leading surrogate in hex escape"
  | .unpairedSurrogate => "unexpected end of hex escape"
  | .invalidNumber => "invalid number"
  | .numberOutOfRange => "number out of range"
  | .nestingTooDeep => "recursion limit exceeded"
  | .missingField name => "missing field `" ++ name ++ "`"
  | .duplicateField name => "duplicate field `" ++ name ++ "`"
  | .wrongType found wanted => "invalid type: " ++ found.message ++ ", expected " ++ wanted.message
  | .tooFewFields count record fields =>
    "invalid length " ++ toString count ++ ", expected struct " ++ record ++ " with " ++
      toString fields ++ " elements"
  | .tooManyItems count =>
    "invalid length " ++ toString count ++ ", expected fewer elements in array"

end Walkthrough.Json
