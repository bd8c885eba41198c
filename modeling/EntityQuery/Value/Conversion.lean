import EntityQuery.Error

/-! Conversions of values to the type a reader wants.

Integers widen, and narrow when they fit; they also answer for numbers and for flags, where zero
is false. An identifier is read from its bytes or from its text. Nothing else converts. -/
namespace EntityQuery.Value

/-- The type a value is read as. -/
inductive Target where
  | bool | int32 | int64 | float64 | text | bytes | uuid
deriving DecidableEq, Repr

/-- The name that an error calls the type by. -/
def Target.name : Target → String
  | .bool => "bool"
  | .int32 => "i32"
  | .int64 => "i64"
  | .float64 => "f64"
  | .text => "String"
  | .bytes => "Vec<u8>"
  | .uuid => "Uuid"

def refuse (v : Value) (t : Target) : Cause := .conversion v.kind t.name

def toBool : Value → Except Cause Bool
  | .bool b => .ok b
  | .int32 n => .ok (n != 0)
  | .int64 n => .ok (n != 0)
  | v => .error (v.refuse .bool)

def toInt32 : Value → Except Cause Int32
  | .int32 n => .ok n
  | .int64 n =>
    if Int32.minValue.toInt ≤ n.toInt && n.toInt ≤ Int32.maxValue.toInt then .ok n.toInt32
    else .error (.conversion .int64 Target.int32.name)
  | v => .error (v.refuse .int32)

def toInt64 : Value → Except Cause Int64
  | .int32 n => .ok n.toInt64
  | .int64 n => .ok n
  | v => .error (v.refuse .int64)

/-- An integer past 2 ^ 53 goes to the nearest number. -/
def toBinary64 : Value → Except Cause Binary64
  | .float64 x => .ok x
  | .int32 n => .ok (Binary64.ofInt n.toInt)
  | .int64 n => .ok (Binary64.ofInt n.toInt)
  | v => .error (v.refuse .float64)

def toText : Value → Except Cause String
  | .text s => .ok s
  | v => .error (v.refuse .text)

def toBytes : Value → Except Cause (List UInt8)
  | .bytes bs => .ok bs
  | v => .error (v.refuse .bytes)

def toUuid : Value → Except Cause Uuid
  | .uuid id => .ok id
  | .bytes bs => (Uuid.ofBytes bs).mapError .identifier
  | .text s => (Uuid.read s).mapError .identifier
  | v => .error (v.refuse .uuid)

/-- The value as one of the wanted type. -/
def convert (v : Value) : Target → Except Cause Value
  | .bool => v.toBool.map .bool
  | .int32 => v.toInt32.map .int32
  | .int64 => v.toInt64.map .int64
  | .float64 => v.toBinary64.map .float64
  | .text => v.toText.map .text
  | .bytes => v.toBytes.map .bytes
  | .uuid => v.toUuid.map .uuid

/-- As `convert`, where null stands for no value. -/
def convert? (v : Value) (t : Target) : Except Cause (Option Value) :=
  if v.isNull then .ok none else (v.convert t).map some

end EntityQuery.Value
