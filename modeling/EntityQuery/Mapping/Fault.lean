import EntityQuery.Binary64.Shortest
import EntityQuery.Text.Quoted

/-! Why a mapping document cannot be read: a problem of its JSON, or JSON of the wrong shape.

A document is read from left to right and the first problem is the one reported, so a wrong
shape is met before a syntax problem that stands behind it. -/
namespace EntityQuery.Mapping

/-- Problems of the JSON text itself. -/
inductive JsonFault where
  | endInValue
  | endInList
  | endInObject
  | endInString
  | expectedValue
  | expectedWord
  | expectedColon
  | expectedListEnd
  | expectedObjectEnd
  | trailingComma
  | trailingText
  | keyNotText
  | badNumber
  | numberRange
  | badEscape
  | control
  | loneSurrogate
  | openSurrogate
  | tooDeep
deriving DecidableEq, Repr

def JsonFault.message : JsonFault → String
  | .endInValue => "EOF while parsing a value"
  | .endInList => "EOF while parsing a list"
  | .endInObject => "EOF while parsing an object"
  | .endInString => "EOF while parsing a string"
  | .expectedValue => "expected value"
  | .expectedWord => "expected ident"
  | .expectedColon => "expected `:`"
  | .expectedListEnd => "expected `,` or `]`"
  | .expectedObjectEnd => "expected `,` or `\x7d`"
  | .trailingComma => "trailing comma"
  | .trailingText => "trailing characters"
  | .keyNotText => "key must be a string"
  | .badNumber => "invalid number"
  | .numberRange => "number out of range"
  | .badEscape => "invalid escape"
  | .control => "control character (\\u0000-\\u001F) found while parsing a string"
  | .loneSurrogate => "lone leading surrogate in hex escape"
  | .openSurrogate => "unexpected end of hex escape"
  | .tooDeep => "recursion limit exceeded"

/-- What stood where something else was wanted. -/
inductive Found where
  | null
  | bool (b : Bool)
  | integer (n : Int)
  | float (x : Binary64)
  | text (s : String)
  | sequence
  | map
deriving DecidableEq, Repr

def Found.describe : Found → String
  | .null => "null"
  | .bool b => s!"boolean `{b}`"
  | .integer n => s!"integer `{n}`"
  | .float x => s!"floating point `{x.text}`"
  | .text s => s!"string {Text.quoted s}"
  | .sequence => "sequence"
  | .map => "map"

inductive Fault where
  | json (fault : JsonFault)
  | wrongType (found : Found) (want : String)
  | missingField (name : String)
  | duplicateField (name : String)
  /-- A sequence that stands for a record ends before a required field. -/
  | tooShort (length : Nat) (want : String)
  | unknownMode (name : String)
  | noPropertyForm
deriving DecidableEq, Repr

def Fault.message : Fault → String
  | .json fault => fault.message
  | .wrongType found want => s!"invalid type: {found.describe}, expected {want}"
  | .missingField name => s!"missing field `{name}`"
  | .duplicateField name => s!"duplicate field `{name}`"
  | .tooShort length want => s!"invalid length {length}, expected {want}"
  | .unknownMode name => s!"unknown variant `{name}`, expected `inner` or `left`"
  | .noPropertyForm => "data did not match any variant of untagged enum PropertyRepr"

end EntityQuery.Mapping
