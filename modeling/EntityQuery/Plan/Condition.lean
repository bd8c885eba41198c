import EntityQuery.Plan.Layout
import EntityQuery.Query.Filter

/-! Filters as boolean expressions.

Everything that goes into one statement shares one numbering: aliases are taken from one supply,
and each value becomes the next parameter when its place in the statement is made, so that
parameters are numbered from left to right. A filter that restricts nothing has no expression. -/
namespace EntityQuery.Plan

open Member (Column)
open Sql (Expr Select)

/-- What the parts of one statement share. -/
structure Numbering where
  aliases : AliasSupply := {}
  params : List Value := []
deriving DecidableEq

abbrev Compile := StateT Numbering (Except Error)

/-- The placeholder of a value, which becomes the next parameter. -/
def param (v : Value) : Compile Expr := fun n =>
  .ok (.param n.params.length, {n with params := n.params ++ [v]})

def paramAll : List Value → Compile (List Expr)
  | [] => pure []
  | v :: rest => do
    let e ← param v
    return e :: (← paramAll rest)

def freshTable : Compile String := fun n =>
  let (aliasName, aliases) := n.aliases.freshTable
  .ok (aliasName, {n with aliases})

def assign (g : JoinGraph) : Compile Naming := fun n =>
  let (names, aliases) := g.assign n.aliases
  .ok (names, {n with aliases})

/-- A step that needs no numbers. -/
def resolved {α : Type} (step : Except Error α) : Compile α := fun n => step.map (·, n)

/-! ### Conditions without a query -/

def orderOp? : Comparison → Option Sql.BinaryOp
  | .greater => some .gt
  | .greaterOrEqual => some .ge
  | .less => some .lt
  | .lessOrEqual => some .le
  | _ => none

/-- The operator of an equality: a text with a wildcard is a pattern. -/
def equalityOp (v : Value) : Sql.BinaryOp := if v.isPattern then .like else .eq

def firstNonNull? (vs : List Value) : Option Value :=
  match vs with
  | [] => none
  | v :: _ => if v.isNull then none else some v

/-- Membership in a list of values. Every row is outside the empty list, so that test restricts
nothing. -/
def membership (column : Expr) (negate : Bool) : List Value → Compile (Option Expr)
  | [] => pure (if negate then none else some Expr.never)
  | [v] => do
    let e ← param v
    return some (.binary column (if negate then .ne else .eq) e)
  | vs => do
    let list ← paramAll vs
    return some (.inList column list negate)

/-- The expression that compares a column with values. -/
def compare (column : Expr) (member : String) (comparison : Comparison) (vs : List Value) :
    Compile (Option Expr) :=
  match comparison with
  | .equal | .like =>
    match firstNonNull? vs with
    | none => pure (some (.isNull column false))
    | some v => do return some (.binary column (equalityOp v) (← param v))
  | .notEqual =>
    match firstNonNull? vs with
    | none => pure (some (.isNull column true))
    | some v => do return some (.binary column .ne (← param v))
  | .greater | .greaterOrEqual | .less | .lessOrEqual =>
    match firstNonNull? vs with
    | none => resolved (Error.raise (.operator (.noValue comparison.name member)))
    | some v => do
      return some (.binary column ((orderOp? comparison).getD .le) (← param v))
  | .between =>
    match vs with
    | [low, high] => do
      let low ← param low
      let high ← param high
      return some (.between column low high)
    | _ => resolved (Error.raise (.operator (.notTwoValues member vs.length)))
  | .isIn => membership column false vs
  | .notIn => membership column true vs

/-! ### Selects under a filter -/

/-- A filter's conditions as columns, which joins whatever they need. -/
def resolveConditions (s : Schema) (g : JoinGraph) (f : Filter) :
    Except Error (JoinGraph × List Column) :=
  Member.resolveEach s g (f.conditions.map (·.member))

/-- Names the scopes of a graph to which all columns have been resolved, and flips the nested
joins on the way to the given ones. -/
def layOut (g : JoinGraph) (columns : List Column) : Compile (Layout × List Nat) := do
  let names ← assign g
  let needed := g.joinsTo (columns.map (·.scope))
  return (⟨g, names, g.flipNested [] needed⟩, needed)

/-- A select from the root and the joins that `columns` and the filter need, with nothing to
show. `compile` makes the filter's expression once the scopes have names. -/
def filtered (s : Schema) (g : JoinGraph) (columns : List Column) (f : Filter)
    (compile : Layout → Compile (Option Expr)) : Compile (Layout × Select) := do
  let (g, conditions) ← resolved (resolveConditions s g f)
  let (l, needed) ← layOut g (columns ++ conditions)
  let filter ← compile l
  return (l, { Select.of (rootTable s l) with joins := needed.map (join s l none), filter })

/-- The limit of a page. Without a size there is none. -/
def limit? (p : Paging) : Option Sql.Limit :=
  if p.size = 0 then none else some ⟨p.offset, p.size⟩

/-- Resolves the members of sortings. -/
def resolveSorting (s : Schema) (g : JoinGraph) :
    List Sorting → Except Error (JoinGraph × List (Column × Direction))
  | [] => .ok (g, [])
  | sorting :: rest => do
    let (g, columns) ← Member.resolveEach s g sorting.members
    let (g, others) ← resolveSorting s g rest
    return (g, columns.map (·, sorting.direction) ++ others)

def orderBy (l : Layout) (sorted : List (Column × Direction)) : List Sql.OrderBy :=
  sorted.map fun (column, direction) => ⟨l.expr column, direction⟩

/-- The entity of a query that stands behind a membership test, and the member it shows. -/
def subqueryTarget (s : Schema) (q : Query) : Except Error (Entity × String) := do
  let e ← (s.resolve q.entity).mapError fun fault => Cause.mapping fault
  match q.members with
  | [member] =>
    if q.grouping.isSome then Error.raise (.feature (.groupedSubquery e.name))
    else return (e, member)
  | members => Error.raise (.feature (.subqueryMembers e.name members.length))

/-- What a membership test reads from its query. A page is taken inside a derived table. -/
def projectOne (l : Layout) (column : Column) (sorted : List (Column × Direction))
    (paging : Option Paging) (select : Select) : Compile Select :=
  match paging.bind limit? with
  | none => pure {select with items := [.expr (l.expr column) none]}
  | some limit => do
    let page := {select with items := [l.item column], orderBy := orderBy l sorted, limit}
    let aliasName ← freshTable
    return { Select.of (.derived page aliasName) with
      items := [.expr (.qualified aliasName (l.resultName column)) none] }

/-! ### Filters -/

/-- The expression of a member in a graph that has all it needs. -/
def memberExpr (s : Schema) (l : Layout) (member : String) : Except Error Expr :=
  (Member.resolve s l.graph member).2.map l.expr

mutual

/-- The expression of a filter over a layout to which its members were resolved. -/
def filterExpr (s : Schema) : Filter → Layout → Compile (Option Expr)
  | .condition c, l => conditionExpr s c l
  | .composite combinator children, l => do
    let operands ← filterExprs s children l
    return match combinator with
      | .and => Expr.allOf? operands
      | .or => Expr.anyOf? operands
termination_by structural f => f

/-- The expressions of the filters that restrict something. -/
def filterExprs (s : Schema) : List Filter → Layout → Compile (List Expr)
  | [], _ => pure []
  | f :: rest, l => do
    let e ← filterExpr s f l
    return e.toList ++ (← filterExprs s rest l)
termination_by structural fs => fs

def conditionExpr (s : Schema) : Condition → Layout → Compile (Option Expr)
  | ⟨member, comparison, operand⟩, l => do
    let column ← resolved (memberExpr s l member)
    if comparison = .isIn || comparison = .notIn then
      match ← operandSelect s operand with
      | some select => return some (.inSelect column select (comparison = .notIn))
      | none => compare column member comparison operand.values
    else compare column member comparison operand.values
termination_by structural c => c

/-- The select of an operand that is a query. -/
def operandSelect (s : Schema) : Operand → Compile (Option Select)
  | .query q => do return some (← subselect s q)
  | _ => pure none
termination_by structural o => o

/-- The query of a membership test. -/
def subselect (s : Schema) : Query → Compile Select
  | ⟨entity, filter, members, sorting, grouping, paging⟩ => do
    let (e, member) ← resolved
      (subqueryTarget s ⟨entity, filter, members, sorting, grouping, paging⟩)
    let (g, found) := Member.resolve s (.ofRoot e.id) member
    let column ← resolved found
    let (g, sorted) ← resolved (resolveSorting s g sorting)
    let (l, select) ← filtered s g (column :: sorted.map Prod.fst) filter fun l =>
      filterExpr s filter l
    projectOne l column sorted paging select
termination_by structural q => q

end

end EntityQuery.Plan
