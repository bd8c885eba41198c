import EntityQuery.Query.Paging
import EntityQuery.Value

/-! What a request asks of one entity: conditions in a tree, the members to show, the order,
the groups and the page.

A condition may compare a member with the rows of a further query, so filters and queries are
one mutual family. -/
namespace EntityQuery

inductive Comparison where
  | equal | notEqual | like | greater | greaterOrEqual | less | lessOrEqual | between | isIn | notIn
deriving DecidableEq, Repr

/-- The name that an error calls the comparison by. -/
def Comparison.name : Comparison → String
  | .equal => "Equal"
  | .notEqual => "NotEqual"
  | .like => "Like"
  | .greater => "GreaterThan"
  | .greaterOrEqual => "GreaterThanOrEqual"
  | .less => "LessThan"
  | .lessOrEqual => "LessThanOrEqual"
  | .between => "Between"
  | .isIn => "In"
  | .notIn => "NotIn"

inductive Combinator where
  | and | or
deriving DecidableEq, Repr

inductive Direction where
  | ascending | descending
deriving DecidableEq, Repr

/-- Members to sort by in one direction. -/
structure Sorting where
  members : List String
  direction : Direction
deriving DecidableEq, Repr

mutual

inductive Operand where
  | absent
  | value (v : Value)
  | list (vs : List Value)
  | query (q : Query)

/-- A member compared with an operand. -/
structure Condition where
  member : String
  comparison : Comparison
  operand : Operand

inductive Filter where
  | condition (c : Condition)
  | composite (combinator : Combinator) (children : List Filter)

/-- The members to group by and the filter on the groups. -/
structure Grouping where
  members : List String
  having : Filter

/-- A request against one entity. Without members it shows every mapped column of the entity
and of the entities it inherits from. -/
structure Query where
  entity : String
  filter : Filter
  members : List String
  sorting : List Sorting
  grouping : Option Grouping
  paging : Option Paging

end

/-! ### Operands -/

/-- A single value; null stands for no operand. -/
def Operand.ofValue (v : Value) : Operand := if v.isNull then .absent else .value v

/-- The values of an operand; a query has none of its own. -/
def Operand.values : Operand → List Value
  | .absent => []
  | .value v => [v]
  | .list vs => vs
  | .query _ => []

/-! ### Filters -/

/-- The filter that restricts nothing. -/
def Filter.everything : Filter := .composite .and []

instance : Inhabited Filter := ⟨.everything⟩

mutual

/-- A tree without conditions. -/
def Filter.isEmpty : Filter → Bool
  | .condition _ => false
  | .composite _ children => Filter.allEmpty children

def Filter.allEmpty : List Filter → Bool
  | [] => true
  | f :: rest => f.isEmpty && Filter.allEmpty rest

end

mutual

/-- The conditions of a tree from left to right. -/
def Filter.conditions : Filter → List Condition
  | .condition c => [c]
  | .composite _ children => Filter.conditionsOf children

def Filter.conditionsOf : List Filter → List Condition
  | [] => []
  | f :: rest => f.conditions ++ Filter.conditionsOf rest

end

/-! ### The row count -/

/-- The member that stands for the number of rows of a group. -/
def rowCountMember : String := "count(0)"

/-- A request for all rows of an entity. -/
def Query.on (entity : String) : Query := ⟨entity, .everything, [], [], none, none⟩

end EntityQuery
