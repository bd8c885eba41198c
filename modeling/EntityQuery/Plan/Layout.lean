import EntityQuery.JoinGraph.Nesting
import EntityQuery.Member.Column

/-! The sources of a select: a graph with its aliases and its flipped joins, written as a FROM
and a list of joins. -/
namespace EntityQuery.Plan

open Member (Column)
open Sql (Expr)

structure Layout where
  graph : JoinGraph
  names : Naming
  /-- The inner joins that are made with LEFT. -/
  flipped : List Nat

namespace Layout

def aliasName (l : Layout) (scope : Nat) : String := l.graph.aliasName l.names scope

def expr (l : Layout) (c : Column) : Expr := c.expr l.graph l.names

def item (l : Layout) (c : Column) : Sql.Item := c.item l.graph l.names

def resultName (l : Layout) (c : Column) : String := c.resultName l.graph l.names

end Layout

def tableOf (e : Entity) : Sql.TableName := ⟨e.schema, e.table⟩

/-- The join at a position as the graph has it. -/
def navigationOf (g : JoinGraph) (j : Nat) : Navigation :=
  (g.joins[j]?.map (·.navigation)).getD default

/-- A row of the join's target belongs to the parent's row, the target read under an alias of its
own. It stands in the ON of the parent's join. -/
def matchExists (s : Schema) (l : Layout) (j : Nat) : Expr :=
  let parent := l.graph.parent j
  let source := l.graph.entity s parent
  let target := l.graph.entity s (j + 1)
  let aliasName := l.aliasName (j + 1) ++ "X"
  let keys := (navigationOf l.graph j).keys.map fun pair =>
    Expr.equal (.qualified aliasName (target.columnOf pair.target))
      (.qualified (l.aliasName parent) (source.columnOf pair.source))
  .hasRow {
    Sql.Select.of (.ofTable (tableOf target) aliasName) with
    items := [.expr (.literal 0) none]
    filter := Expr.allOf? keys
    limit := some ⟨0, 1⟩ }

/-- A key column of the parent of a join. When the root stands inside a derived table it is read
from that table, under its result name there. -/
def parentKey (l : Layout) (host : Option String) (parent : Nat) (column : String) : Expr :=
  match host, parent with
  | some host, 0 => .qualified host s!"{l.aliasName 0}_{column}"
  | _, _ => .qualified (l.aliasName parent) column

/-- The key columns of a join, pair by pair, and what its match is asked for besides. -/
def joinConditions (s : Schema) (l : Layout) (host : Option String) (j : Nat) : List Expr :=
  let parent := l.graph.parent j
  let source := l.graph.entity s parent
  let target := l.graph.entity s (j + 1)
  let keys := (navigationOf l.graph j).keys.map fun pair =>
    Expr.equal (parentKey l host parent (source.columnOf pair.source))
      (.qualified (l.aliasName (j + 1)) (target.columnOf pair.target))
  keys ++ (l.graph.demands l.flipped j).map (matchExists s l)

def join (s : Schema) (l : Layout) (host : Option String) (j : Nat) : Sql.Join :=
  { kind := l.graph.kind l.flipped j
    source := .ofTable (tableOf (l.graph.entity s (j + 1))) (l.aliasName (j + 1))
    on := (Expr.allOf? (joinConditions s l host j)).getD Expr.never }

def rootTable (s : Schema) (l : Layout) : Sql.Source :=
  .ofTable (tableOf (l.graph.entity s 0)) (l.aliasName 0)

end EntityQuery.Plan
