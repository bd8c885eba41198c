import EntityQuery.Mapping.Document
import EntityQuery.Query.Filter

/-! SQL statements as values, in the part of the language that requests compile to.

Expressions and selects contain each other, so they are one mutual family. Parameters are
numbers: placeholder `n` stands for the parameter at position `n` of a list that goes with the
statement. -/
namespace EntityQuery.Sql

/-- A table, possibly qualified by a database schema. -/
structure TableName where
  schema : Option String
  name : String
deriving DecidableEq, Repr

inductive BinaryOp where
  | eq | ne | gt | ge | lt | le | like | add | sub | mul | div
deriving DecidableEq, Repr

/-- The rows to skip and the rows to return. -/
structure Limit where
  offset : UInt64
  count : UInt64
deriving DecidableEq, Repr

mutual

inductive Expr where
  | and (operands : List Expr)
  | or (operands : List Expr)
  | binary (lhs : Expr) (op : BinaryOp) (rhs : Expr)
  | between (e low high : Expr)
  /-- A column, possibly qualified by a table alias. -/
  | column (table : Option String) (name : String)
  | countAll
  | hasRow (select : Select)
  | call (function : String) (args : List Expr)
  | inList (e : Expr) (list : List Expr) (negate : Bool)
  | inSelect (e : Expr) (select : Select) (negate : Bool)
  | isNull (e : Expr) (negate : Bool)
  | literal (n : Int)
  | null
  | param (n : Nat)

/-- What a FROM or a JOIN reads. -/
inductive Source where
  | table (name : TableName) (aliasName : Option String)
  | derived (select : Select) (aliasName : String)

inductive Item where
  | expr (e : Expr) (aliasName : Option String)
  /-- All columns of a source. -/
  | wildcard (aliasName : String)

structure Join where
  kind : JoinKind
  source : Source
  on : Expr

structure OrderBy where
  expr : Expr
  direction : Direction

structure Select where
  items : List Item
  source : Source
  joins : List Join
  filter : Option Expr
  groupBy : List Expr
  having : Option Expr
  orderBy : List OrderBy
  limit : Option Limit

end

/-- Column and value. -/
structure Assignment where
  column : String
  value : Expr

structure Insert where
  table : TableName
  columns : List String
  values : List Expr

structure Update where
  table : TableName
  assignments : List Assignment
  filter : Option Expr

structure Delete where
  table : TableName
  filter : Option Expr

inductive Statement where
  | select (s : Select)
  | insert (s : Insert)
  | update (s : Update)
  | delete (s : Delete)

/-! ### Making statements -/

/-- An alias, where the empty text is none. -/
def aliasName? (name : String) : Option String := if name = "" then none else some name

namespace Expr

instance : Inhabited Expr := ⟨.null⟩

/-- A column of a source, or under the empty alias a column that names none. -/
def qualified (aliasName name : String) : Expr := .column (aliasName? aliasName) name

def equal (lhs rhs : Expr) : Expr := .binary lhs .eq rhs

/-- An expression that no row satisfies. -/
def never : Expr := equal (.literal 1) (.literal 0)

/-- Operands joined by AND: none is no expression, and one stands alone. -/
def allOf? : List Expr → Option Expr
  | [] => none
  | [e] => some e
  | es => some (.and es)

/-- Operands joined by OR: none is no expression, and one stands alone. -/
def anyOf? : List Expr → Option Expr
  | [] => none
  | [e] => some e
  | es => some (.or es)

/-- Operands of these are put in parentheses when they are operands again. -/
def isJunction : Expr → Bool
  | .and _ | .or _ => true
  | _ => false

end Expr

/-- A source that is a table, where the empty alias is none. -/
def Source.ofTable (name : TableName) (aliasName : String) : Source :=
  .table name (aliasName? aliasName)

/-- A select with nothing but its source. -/
def Select.of (source : Source) : Select :=
  { items := [], source, joins := [], filter := none, groupBy := [], having := none,
    orderBy := [], limit := none }

end EntityQuery.Sql
