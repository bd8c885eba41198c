import EntityQuery.Error
import EntityQuery.JoinGraph.Naming
import EntityQuery.Member.Path
import EntityQuery.Sql.Statement

/-! The column a member path stands for.

A path is followed from the root: every name but the last is a navigation and is joined, the
last names a property of the entity reached or of one of its ancestors, whose scope is joined
too. A last name that nothing declares is the name of a column as it stands. Joins made on the
way stay, also when the path turns out to name nothing. -/
namespace EntityQuery.Member

/-- What is taken of a column: its value, an aggregate of its values, or the number of rows. -/
inductive Measure where
  | value
  | aggregate (function : String)
  | rowCount
deriving DecidableEq, Repr

/-- A resolved path. -/
structure Column where
  /-- The path as written. -/
  path : String
  scope : Nat
  column : String
  measure : Measure
deriving DecidableEq, Repr

namespace Column

def isAggregate (c : Column) : Bool := c.measure != .value

def isRowCount (c : Column) : Bool := c.measure == .rowCount

/-- The column as an expression over the aliases of a graph. -/
def expr (g : JoinGraph) (names : Naming) (c : Column) : Sql.Expr :=
  let column := Sql.Expr.qualified (g.aliasName names c.scope) c.column
  match c.measure with
  | .value => column
  | .aggregate function => .call function [column]
  | .rowCount => .countAll

/-- The name under which a row carries the column's value: the alias of its scope in front, and
what the records are read from. -/
def resultName (g : JoinGraph) (names : Naming) (c : Column) : String :=
  let aliasName := g.aliasName names c.scope
  match c.measure with
  | .value => s!"{aliasName}_{c.column}"
  | .aggregate function => s!"{aliasName}_{function}_{c.column}"
  | .rowCount => s!"{aliasName}_COUNT"

def item (g : JoinGraph) (names : Naming) (c : Column) : Sql.Item :=
  .expr (c.expr g names) (some (c.resultName g names))

end Column

/-! ### Following a path -/

/-- Follows navigations from a scope. -/
def walk (s : Schema) (g : JoinGraph) (scope : Nat) :
    List String → JoinGraph × Except MemberFault Nat
  | [] => (g, .ok scope)
  | name :: rest =>
    let e := g.entity s scope
    match s.nearestNavigation? e name with
    | none => (g, .error (.notNavigation name e.name))
    | some (owner, navigation) =>
      let (g, origin) := g.climbTo s scope owner.id
      let (g, next) := g.reach origin navigation
      walk s g next rest

/-- The scope and the column of a last name. -/
def leaf (s : Schema) (g : JoinGraph) (scope : Nat) (name : String) :
    JoinGraph × Except MemberFault (Nat × String) :=
  let e := g.entity s scope
  match s.nearestProperty? e name with
  | some (owner, property) =>
    if property.ignored then (g, .error (.notMapped name))
    else
      let (g, holder) := g.climbTo s scope owner.id
      (g, .ok (holder, property.column))
  | none =>
    if (s.nearestNavigation? e name).isSome then (g, .error (.isNavigation name))
    else (g, .ok (scope, name))

/-- The scope and the column that a dotted path leads to. -/
def follow (s : Schema) (g : JoinGraph) (path : String) :
    JoinGraph × Except MemberFault (Nat × String) :=
  let names := segments path
  if names.any (· == "") then (g, .error .emptySegment)
  else
    match walk s g 0 names.dropLast with
    | (g, .error fault) => (g, .error fault)
    | (g, .ok scope) => leaf s g scope (names.getLastD "")

/-- The column of a path without its place in an error. -/
def locate (s : Schema) (g : JoinGraph) (path : String) :
    JoinGraph × Except MemberFault Column :=
  if isRowCount path then (g, .ok ⟨path, 0, "COUNT", .rowCount⟩)
  else
    match applied? path with
    | none =>
      let (g, found) := follow s g path
      (g, found.map fun (scope, column) => ⟨path, scope, column, .value⟩)
    | some (function, argument) =>
      if (Text.trim argument).toList.contains '(' then (g, .error .nestedAggregate)
      else
        let (g, found) := follow s g (Text.trim argument)
        (g, found.map fun (scope, column) =>
          ⟨path, scope, column, .aggregate (Text.capitals function)⟩)

/-- The column of a path, and the graph with the joins that lead to it. -/
def resolve (s : Schema) (g : JoinGraph) (path : String) : JoinGraph × Except Error Column :=
  let (grown, found) := locate s g path
  (grown, found.mapError fun fault => Cause.member (g.entity s 0).name path fault)

/-- The columns of several paths, one after another up to the first that names nothing. -/
def resolveEach (s : Schema) (g : JoinGraph) :
    List String → Except Error (JoinGraph × List Column)
  | [] => .ok (g, [])
  | path :: rest => do
    let (g, found) := resolve s g path
    let column ← found
    let (g, columns) ← resolveEach s g rest
    return (g, column :: columns)

end EntityQuery.Member
