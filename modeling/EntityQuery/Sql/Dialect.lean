import EntityQuery.Executor.Response

/-! The three dialects: how names are quoted, and which values a database has to be given in
another form. -/
namespace EntityQuery.Sql

inductive Dialect where
  | mysql | postgresql | sqlite
deriving DecidableEq, Repr, Inhabited

namespace Dialect

def quote : Dialect → Char
  | .mysql => '\x60'
  | .postgresql | .sqlite => '"'

/-- A name between quotes, where a quote inside it is written twice. -/
def quoteChars (d : Dialect) (name : List Char) : List Char :=
  d.quote :: (name.flatMap fun c => if c = d.quote then [c, c] else [c]) ++ [d.quote]

def quoteName (d : Dialect) (name : String) : String := String.ofList (d.quoteChars name.toList)

def transactionText (d : Dialect) : Transaction → String
  | .start => match d with
    | .mysql => "START TRANSACTION"
    | _ => "BEGIN"
  | .commit => "COMMIT"
  | .rollback => "ROLLBACK"

/-- The value as the database takes it: flags are numbers where there is no type for them, and
MySQL keeps identifiers as their bytes. -/
def coerce : Dialect → Value → Value
  | .mysql, .bool b | .sqlite, .bool b => .int64 (if b then 1 else 0)
  | .mysql, .uuid id => .bytes id.bytes
  | _, v => v

end Dialect
end EntityQuery.Sql
