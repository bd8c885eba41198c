import EntityQuery.Member.Projection
import EntityQuery.Plan.Condition

/-! Queries as selects.

A query becomes the select that shows its members and the count of the rows it shows before
paging, over the same parameters. A grouped query is a derived table of the groups with, joined
to it, what is shown besides the groups' own columns. Sales by shop, each with the shop's city:

`SELECT J0.City, T1.* FROM (SELECT T.Shop, COUNT(0) FROM sale T GROUP BY T.Shop) T1
INNER JOIN shop J0 ON T1.T_Shop = J0.Id` -/
namespace EntityQuery.Plan

open Member (Column)
open Sql (Expr Select)

/-- What a query compiles to; rows are read back by the layout. -/
structure CompiledQuery where
  select : Select
  /-- Counts the rows of `select` before paging. -/
  count : Select
  params : List Value
  layout : Layout

def countItems : List Sql.Item := [.expr .countAll none]

/-! ### Groups -/

/-- The columns of the derived table: the keys, the aggregates shown or sorted by, and the row
count. -/
def innerColumns (rowCount : Column) (keys asked : List Column) : List Column :=
  let columns := asked.foldl (fun done c =>
    if c.isAggregate && !done.contains c then done ++ [c] else done) keys
  if columns.any (·.isRowCount) then columns else columns ++ [rowCount]

/-- Whether a property of the root is among the group keys, by its column. -/
def isGroupKey (keys : List Column) (column : String) : Bool :=
  keys.any fun key => key.scope == 0 && !key.isAggregate && Text.sameName key.column column

/-- A column beside the groups stands behind a join from the root. The root's side of that join is
read from the derived table, which has group keys only. -/
def checkBeside (s : Schema) (g : JoinGraph) (keys : List Column) (c : Column) :
    Except Error Unit :=
  let root := g.entity s 0
  match (g.rootPath c.scope).head? with
  | none => Error.raise (.member root.name c.path .notGrouped)
  | some first =>
    let missing := (navigationOf g first).keys.find? fun pair =>
      !isGroupKey keys (root.columnOf pair.source)
    match missing with
    | some pair => Error.raise (.member root.name c.path (.joinKeyNotGrouped pair.source))
    | none => .ok ()

/-- What a grouped query resolves to before anything is named. -/
structure GroupedColumns where
  graph : JoinGraph
  keys : List Column
  /-- The columns of the derived table. -/
  inner : List Column
  /-- The columns that only a filter needs. -/
  filtered : List Column
  /-- The columns shown beside the groups. -/
  beside : List Column
  /-- The columns beside the groups that are only sorted by. -/
  besideSorted : List Column

def resolveGrouped (s : Schema) (g : JoinGraph) (f : Filter) (grouping : Grouping)
    (display : List Column) (sorted : List Column) : Except Error GroupedColumns := do
  let (g, keys) ← Member.resolveEach s g grouping.members
  let (g, conditions) ← resolveConditions s g f
  let (g, having) ← resolveConditions s g grouping.having
  let (g, found) := Member.resolve s g rowCountMember
  let rowCount ← found
  let inner := innerColumns rowCount keys (display ++ sorted)
  let beside := display.filter (!inner.contains ·)
  let besideSorted := sorted.filter (!inner.contains ·)
  (beside ++ besideSorted).forM (checkBeside s g keys)
  return ⟨g, keys, inner, conditions ++ having, beside, besideSorted⟩

/-- A sorted column over the derived table, or beside it. -/
def outerOrder (l : Layout) (derived : String) (inner : List Column)
    (sorted : List (Column × Direction)) : List Sql.OrderBy :=
  sorted.map fun (c, direction) =>
    ⟨if inner.contains c then .qualified derived (l.resultName c) else l.expr c, direction⟩

def scopesOf (columns : List Column) : List Nat := columns.map (·.scope)

/-- The select and the count of a grouped query. -/
def groupedSelects (s : Schema) (c : GroupedColumns) (f : Filter) (grouping : Grouping)
    (sorted : List (Column × Direction)) : Compile (Layout × Select × Select) := do
  let g := c.graph
  let names ← assign g
  let innerScopes := scopesOf (c.inner ++ c.filtered)
  let outerScopes := scopesOf (c.beside ++ c.besideSorted)
  let l : Layout := ⟨g, names, g.flipNested [] (g.joinsTo (innerScopes ++ outerScopes))⟩
  let filter ← filterExpr s f l
  let having ← filterExpr s grouping.having l
  let inner : Select := { Select.of (rootTable s l) with
    items := c.inner.map l.item
    joins := (g.joinsTo innerScopes).map (join s l none)
    filter
    groupBy := c.keys.map l.expr
    having }
  let derived ← freshTable
  let source : Sql.Source := .derived inner derived
  let outer : Select := { Select.of source with
    items := c.beside.map l.item ++ [.wildcard derived]
    joins := (g.joinsTo outerScopes).map (join s l (some derived))
    orderBy := outerOrder l derived c.inner sorted }
  return (l, outer, { Select.of source with items := countItems })

/-! ### Queries -/

def entityNamed (s : Schema) (name : String) : Except Error Entity :=
  (s.resolve name).mapError fun fault => Cause.mapping fault

def querySelects (s : Schema) (q : Query) : Compile (Layout × Select × Select) := do
  let e ← resolved (entityNamed s q.entity)
  let (g, display) ← resolved
    (Member.resolveEach s (.ofRoot e.id) (Member.expand s e q.members))
  let (g, sorted) ← resolved (resolveSorting s g q.sorting)
  match q.grouping with
  | none =>
    let (l, select) ← filtered s g (display ++ sorted.map Prod.fst) q.filter
      (filterExpr s q.filter)
    let count := {select with items := countItems}
    let shown := {select with items := display.map l.item, orderBy := orderBy l sorted}
    return (l, shown, count)
  | some grouping =>
    let columns ← resolved
      (resolveGrouped s g q.filter grouping display (sorted.map Prod.fst))
    groupedSelects s columns q.filter grouping sorted

/-- The select of a query and the count that goes with it. -/
def select (s : Schema) (q : Query) : Except Error CompiledQuery := do
  let ((layout, select, count), n) ← (querySelects s q).run {}
  return ⟨select, count, n.params, layout⟩

def CompiledQuery.page (plan : CompiledQuery) (p : Paging) : CompiledQuery :=
  {plan with select := {plan.select with limit := limit? p}}

/-! ### Counting and testing -/

/-- What is counted: rows, the values of one member, or those of several put together. -/
def counted : List Expr → Expr
  | [] => .countAll
  | [column] => .call "COUNT" [column]
  | columns => .call "COUNT" [.call "CONCAT" columns]

def countSelect (s : Schema) (entity : String) (f : Filter) (includes : List String) :
    Compile Select := do
  let e ← resolved (entityNamed s entity)
  let (g, included) ← resolved (Member.resolveEach s (.ofRoot e.id) includes)
  let (l, select) ← filtered s g included f (filterExpr s f)
  return {select with items := [.expr (counted (included.map l.expr)) none]}

/-- Counts the rows under a filter. -/
def count (s : Schema) (entity : String) (f : Filter) (includes : List String) :
    Except Error (Select × List Value) := do
  let (select, n) ← (countSelect s entity f includes).run {}
  return (select, n.params)

def existsSelect (s : Schema) (entity : String) (f : Filter) : Compile Select := do
  let e ← resolved (entityNamed s entity)
  let (_, select) ← filtered s (.ofRoot e.id) [] f (filterExpr s f)
  return {select with items := [.expr (.literal 0) none], limit := some ⟨0, 1⟩}

/-- A row comes back exactly when one is under the filter. -/
def existence (s : Schema) (entity : String) (f : Filter) :
    Except Error (Select × List Value) := do
  let (select, n) ← (existsSelect s entity f).run {}
  return (select, n.params)

end EntityQuery.Plan
