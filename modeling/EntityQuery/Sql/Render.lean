import EntityQuery.Sql.Dialect
import EntityQuery.Sql.Statement

/-! The text of statements.

A statement is first laid out as pieces: fixed text, names to be quoted, and placeholders
(`Statement.pieces`). The text is the pieces written one after another (`Statement.text`), and
only the writing of a name knows how a dialect quotes. An operand of AND and OR that is such a
junction itself stands in parentheses, nothing else does. -/
namespace EntityQuery.Sql

inductive Piece where
  | text (s : String)
  /-- A name that is written between quotes. -/
  | name (s : String)
  | placeholder (n : Nat)
deriving DecidableEq, Repr

namespace Piece

def write (d : Dialect) : Piece → List Char
  | .text s => s.toList
  | .name s => d.quoteChars s.toList
  | .placeholder n => '\x7b' :: (toString n).toList ++ ['\x7d']

def writeAll (d : Dialect) (pieces : List Piece) : String :=
  String.ofList (pieces.flatMap (write d))

/-- Runs of pieces with a text between each two. -/
def separated (separator : String) (runs : List (List Piece)) : List Piece :=
  [Piece.text separator].intercalate runs

/-- What holds of nothing and of each run, and goes on behind a separator, holds of all together. -/
theorem separated_induction {motive : List Piece → Prop} {separator : String} (nil : motive [])
    (behind : ∀ {run rest}, motive run → motive rest → motive (run ++ .text separator :: rest))
    {runs : List (List Piece)} (h : ∀ run ∈ runs, motive run) :
    motive (separated separator runs) := by
  unfold separated
  induction runs with
  | nil => exact nil
  | cons run rest ih =>
    obtain ⟨hrun, hrest⟩ := List.forall_mem_cons.1 h
    cases rest with
    | nil => rwa [List.intercalate_singleton]
    | cons next rest =>
      rw [List.intercalate_cons_cons, List.append_assoc]
      exact behind hrun (ih hrest)

end Piece

def BinaryOp.symbol : BinaryOp → String
  | .eq => "="
  | .ne => "!="
  | .gt => ">"
  | .ge => ">="
  | .lt => "<"
  | .le => "<="
  | .like => "LIKE"
  | .add => "+"
  | .sub => "-"
  | .mul => "*"
  | .div => "/"

def TableName.pieces (t : TableName) : List Piece :=
  match t.schema with
  | some schema => [.name schema, .text ".", .name t.name]
  | none => [.name t.name]

/-- The page of a result. MySQL counts the rows to skip first. -/
def Limit.pieces (d : Dialect) (l : Limit) : List Piece :=
  match d with
  | .mysql => [.text s!"LIMIT {l.offset}, {l.count}"]
  | _ => [.text s!"LIMIT {l.count} OFFSET {l.offset}"]

/-- The opening of a membership test. -/
def inText (negate : Bool) : String := if negate then " NOT IN (" else " IN ("

def joinText : JoinKind → String
  | .inner => "INNER JOIN "
  | .left => "LEFT JOIN "

def directionText : Direction → String
  | .ascending => " ASC"
  | .descending => " DESC"

/-- A clause that is left out without an expression. -/
def clause (opening : String) : Option (List Piece) → List Piece
  | none => []
  | some pieces => .text opening :: pieces

/-- A clause that is left out without members. -/
def listClause (opening : String) : List (List Piece) → List Piece
  | [] => []
  | runs => .text opening :: Piece.separated ", " runs

mutual

def Expr.pieces (d : Dialect) : Expr → List Piece
  | .and operands => Piece.separated " AND " (Expr.operandPieces d operands)
  | .or operands => Piece.separated " OR " (Expr.operandPieces d operands)
  | .binary lhs op rhs => lhs.pieces d ++ [.text s!" {op.symbol} "] ++ rhs.pieces d
  | .between e low high =>
    e.pieces d ++ [.text " BETWEEN "] ++ low.pieces d ++ [.text " AND "] ++ high.pieces d
  | .column none name => [.name name]
  | .column (some table) name => [.text s!"{table}.", .name name]
  | .countAll => [.text "COUNT(0)"]
  | .hasRow select => [.text "EXISTS ("] ++ select.pieces d ++ [.text ")"]
  | .call function args =>
    [.text s!"{function}("] ++ Piece.separated ", " (Expr.allPieces d args) ++ [.text ")"]
  | .inList e list negate =>
    e.pieces d ++ [.text (inText negate)] ++ Piece.separated ", " (Expr.allPieces d list)
      ++ [.text ")"]
  | .inSelect e select negate =>
    e.pieces d ++ [.text (inText negate)] ++ select.pieces d ++ [.text ")"]
  | .isNull e negate => e.pieces d ++ [.text (if negate then " IS NOT NULL" else " IS NULL")]
  | .literal n => [.text (toString n)]
  | .null => [.text "NULL"]
  | .param n => [.placeholder n]
termination_by structural e => e

def Expr.allPieces (d : Dialect) : List Expr → List (List Piece)
  | [] => []
  | e :: rest => e.pieces d :: Expr.allPieces d rest
termination_by structural es => es

/-- The operands of a junction. -/
def Expr.operandPieces (d : Dialect) : List Expr → List (List Piece)
  | [] => []
  | e :: rest =>
    (if e.isJunction then [.text "("] ++ e.pieces d ++ [.text ")"] else e.pieces d)
      :: Expr.operandPieces d rest
termination_by structural es => es

def Expr.optionPieces (d : Dialect) : Option Expr → Option (List Piece)
  | none => none
  | some e => some (e.pieces d)
termination_by structural e => e

def Source.pieces (d : Dialect) : Source → List Piece
  | .table name none => name.pieces
  | .table name (some aliasName) => name.pieces ++ [.text s!" {aliasName}"]
  | .derived select aliasName => [.text "("] ++ select.pieces d ++ [.text s!") {aliasName}"]
termination_by structural s => s

def Item.pieces (d : Dialect) : Item → List Piece
  | .expr e none => e.pieces d
  | .expr e (some aliasName) => e.pieces d ++ [.text " AS ", .name aliasName]
  | .wildcard aliasName => [.text s!"{aliasName}.*"]
termination_by structural i => i

def Item.allPieces (d : Dialect) : List Item → List (List Piece)
  | [] => []
  | i :: rest => i.pieces d :: Item.allPieces d rest
termination_by structural is => is

def Join.pieces (d : Dialect) : Join → List Piece
  | ⟨kind, source, on⟩ =>
    [.text (joinText kind)] ++ source.pieces d ++ [.text " ON "] ++ on.pieces d
termination_by structural j => j

/-- Joins, each behind a space. -/
def Join.allPieces (d : Dialect) : List Join → List Piece
  | [] => []
  | j :: rest => .text " " :: (j.pieces d ++ Join.allPieces d rest)
termination_by structural js => js

def OrderBy.pieces (d : Dialect) : OrderBy → List Piece
  | ⟨e, direction⟩ => e.pieces d ++ [.text (directionText direction)]
termination_by structural o => o

def OrderBy.allPieces (d : Dialect) : List OrderBy → List (List Piece)
  | [] => []
  | o :: rest => o.pieces d :: OrderBy.allPieces d rest
termination_by structural os => os

def Select.pieces (d : Dialect) : Select → List Piece
  | ⟨items, source, joins, filter, groupBy, having, orderBy, limit⟩ =>
    [.text "SELECT "] ++ Piece.separated ", " (Item.allPieces d items) ++ [.text " FROM "]
      ++ source.pieces d ++ Join.allPieces d joins
      ++ clause " WHERE " (Expr.optionPieces d filter)
      ++ listClause " GROUP BY " (Expr.allPieces d groupBy)
      ++ clause " HAVING " (Expr.optionPieces d having)
      ++ listClause " ORDER BY " (OrderBy.allPieces d orderBy)
      ++ clause " " (limit.map (Limit.pieces d))
termination_by structural s => s

end

def Assignment.pieces (d : Dialect) (a : Assignment) : List Piece :=
  [.name a.column, .text " = "] ++ a.value.pieces d

def Insert.pieces (d : Dialect) (s : Insert) : List Piece :=
  [.text "INSERT INTO "] ++ s.table.pieces ++ [.text " ("]
    ++ Piece.separated ", " (s.columns.map fun column => [.name column]) ++ [.text ") VALUES ("]
    ++ Piece.separated ", " (s.values.map (Expr.pieces d)) ++ [.text ")"]

def Update.pieces (d : Dialect) (s : Update) : List Piece :=
  [.text "UPDATE "] ++ s.table.pieces ++ [.text " SET "]
    ++ Piece.separated ", " (s.assignments.map (Assignment.pieces d))
    ++ clause " WHERE " (s.filter.map (Expr.pieces d))

def Delete.pieces (d : Dialect) (s : Delete) : List Piece :=
  [.text "DELETE FROM "] ++ s.table.pieces ++ clause " WHERE " (s.filter.map (Expr.pieces d))

def Statement.pieces (d : Dialect) : Statement → List Piece
  | .select s => s.pieces d
  | .insert s => s.pieces d
  | .update s => s.pieces d
  | .delete s => s.pieces d

def Statement.text (d : Dialect) (s : Statement) : String := Piece.writeAll d (s.pieces d)

def Expr.text (d : Dialect) (e : Expr) : String := Piece.writeAll d (e.pieces d)

end EntityQuery.Sql
