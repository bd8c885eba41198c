import EntityQuery.Error
import EntityQuery.Record

/-! What an executor is asked to do and what it answers. -/
namespace EntityQuery

inductive Transaction where
  | start | commit | rollback
deriving DecidableEq, Repr

def Transaction.name : Transaction → String
  | .start => "Start"
  | .commit => "Commit"
  | .rollback => "Rollback"

/-- One operation on a connection. A statement carries its text with numbered placeholders and
the parameters they stand for. -/
inductive Operation where
  | execute (sql : String) (params : List Value)
  /-- The key that the last insert on the connection generated. -/
  | lastInsertId
  | scalar (sql : String) (params : List Value)
  | query (sql : String) (params : List Value)
  | transaction (t : Transaction)
deriving DecidableEq

/-! ### Rows as they arrive -/

/-- Rows and failures in the order in which they arrive. -/
structure RowStream where
  items : List (Except Error Row)

namespace RowStream

def ofRows (rows : List Row) : RowStream := ⟨rows.map .ok⟩

/-- At least this many items are still to come. -/
def minLength (s : RowStream) : Nat := s.items.length

def next? (s : RowStream) : Option (Except Error Row × RowStream) :=
  match s.items with
  | [] => none
  | item :: rest => some (item, ⟨rest⟩)

/-- All rows, or the first failure. -/
def collect (s : RowStream) : Except Error (List Row) := s.items.mapM id

end RowStream

/-! ### Answers -/

inductive Response where
  /-- How many rows the operation touched. -/
  | count (n : UInt64)
  | rows (stream : RowStream)
  | scalar (v : Value)

namespace Response

def describe : Response → String
  | .count _ => "a row count"
  | .rows _ => "rows"
  | .scalar _ => "a scalar"

def isCount : Response → Bool
  | .count _ => true
  | _ => false

def isRows : Response → Bool
  | .rows _ => true
  | _ => false

def toCount : Response → Except Error UInt64
  | .count n => .ok n
  | r => .error (Cause.result (.otherShape "an affected row count" r.describe))

def toRows : Response → Except Error RowStream
  | .rows stream => .ok stream
  | r => .error (Cause.result (.otherShape "rows" r.describe))

def toScalar : Response → Except Error Value
  | .scalar v => .ok v
  | r => .error (Cause.result (.otherShape "a scalar" r.describe))

end Response
end EntityQuery
