import EntityQuery.OrderedMap
import EntityQuery.Value

/-! Rows, records and writes.

A row is flat: the result names of a statement with their values. A record is what the rows of a
query become: the column values of one entity and, under the names of its navigations, further
records. -/
namespace EntityQuery

/-- One result row, or one row to insert. -/
abbrev Row := OrderedMap Value

namespace Row

/-- The value of the first column; a query for a single value is answered by it. -/
def first? (row : Row) : Option Value := row.head?.map Prod.snd

end Row

/-- An entity read from a row. An inherited column whose name the entity has itself stands under
that name followed by (base); a navigation without data has no entry. -/
structure Record where
  entity : String
  values : OrderedMap Value
  navigations : List (String × Record)

namespace Record

def value? (r : Record) (column : String) : Option Value := OrderedMap.named? r.values column

def navigation? (r : Record) (name : String) : Option Record :=
  OrderedMap.named? r.navigations name

/-- There is no data: no value but null, and no nested record. -/
def isVoid (r : Record) : Bool :=
  r.values.all (fun entry => entry.2.isNull) && r.navigations.isEmpty

mutual

/-- How many records stand one inside the other. -/
def height : Record → Nat
  | ⟨_, _, navigations⟩ => heightOf navigations + 1

def heightOf : List (String × Record) → Nat
  | [] => 0
  | (_, r) :: rest => max r.height (heightOf rest)

end

end Record

inductive Arithmetic where
  | add | subtract | multiply | divide
deriving DecidableEq, Repr

/-- What an update does to one member: a new value, or arithmetic on a member's value. -/
inductive Write where
  | set (v : Value)
  | arithmetic (member : String) (operator : Arithmetic) (v : Value)
deriving DecidableEq

def Write.isNull : Write → Bool
  | .set v => v.isNull
  | .arithmetic .. => false

end EntityQuery
