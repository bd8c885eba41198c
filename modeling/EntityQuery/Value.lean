import EntityQuery.Binary64
import EntityQuery.Text.Digit
import EntityQuery.Uuid

/-! Database values: what a parameter carries to a statement and a column back. -/
namespace EntityQuery

inductive Value where
  | null
  | bool (b : Bool)
  | int32 (n : Int32)
  | int64 (n : Int64)
  | float64 (x : Binary64)
  | text (s : String)
  | bytes (bs : List UInt8)
  | uuid (id : Uuid)
deriving DecidableEq, Inhabited

namespace Value

/-- The shape of a value without its content. -/
inductive Kind where
  | null | bool | int32 | int64 | float64 | text | bytes | uuid
deriving DecidableEq, Repr

def Kind.name : Kind → String
  | .null => "null"
  | .bool => "bool"
  | .int32 => "i32"
  | .int64 => "i64"
  | .float64 => "f64"
  | .text => "string"
  | .bytes => "bytes"
  | .uuid => "uuid"

def kind : Value → Kind
  | .null => .null
  | .bool _ => .bool
  | .int32 _ => .int32
  | .int64 _ => .int64
  | .float64 _ => .float64
  | .text _ => .text
  | .bytes _ => .bytes
  | .uuid _ => .uuid

def isNull : Value → Bool
  | .null => true
  | _ => false

def text? : Value → Option String
  | .text s => some s
  | _ => none

/-- A text, or null without one. -/
def ofText? : Option String → Value
  | some s => .text s
  | none => .null

/-- The number within 64 signed bits, if it is. -/
def inInt64 (n : Int) : Option Int64 :=
  if Int64.minValue.toInt ≤ n && n ≤ Int64.maxValue.toInt then some (Int64.ofInt n) else none

/-- An integer of either width, or a text that writes one. Databases differ in the form in which
they give counts and new keys. -/
def integer? : Value → Option Int64
  | .int32 n => some n.toInt64
  | .int64 n => some n
  | .text s => (Text.readInt s.toList).bind inInt64
  | _ => none

/-- A text with a character that a pattern match takes as a wildcard. -/
def isPattern : Value → Bool
  | .text s => s.toList.any fun c => c = '_' || c = '%'
  | _ => false

@[simp] theorem isNull_null : isNull .null = true := rfl

theorem isNull_iff {v : Value} : v.isNull = true ↔ v = .null := by
  cases v <;> simp [isNull]

end Value
end EntityQuery
