import EntityQuery.JoinGraph.Naming
import EntityQuery.Record

/-! Nested records from flat rows.

Every scope of a graph reads the columns of a row whose names begin with its alias. What a scope
reaches through inheritance is merged into its record, what it reaches through another navigation
is nested in it, and a nested record without data is left out. -/
namespace EntityQuery

/-- What follows a leading part of a text. -/
def afterFront? : List Char → List Char → Option (List Char)
  | [], cs => some cs
  | _ :: _, [] => none
  | f :: front, c :: cs => if f = c then afterFront? front cs else none

/-- The columns of a row that belong to an alias, under their own names. -/
def ownValues (aliasName : String) (row : Row) : OrderedMap Value :=
  let front := aliasName.toList ++ ['_']
  OrderedMap.ofPairs (row.filterMap fun (name, v) =>
    (afterFront? front name.toList).map fun column => (String.ofList column, v))

namespace Record

/-- A base's column among those of its subtype; a name the subtype has already is marked. -/
def absorbValue (values : OrderedMap Value) (entry : String × Value) : OrderedMap Value :=
  let (column, v) := entry
  let taken := values.any fun own => Text.sameName own.1 column
  OrderedMap.put values (if taken then column ++ "(base)" else column) v

/-- Moves the columns and the navigations of a base into the record of its subtype. -/
def absorb (r base : Record) : Record :=
  {r with
    values := base.values.foldl absorbValue r.values
    navigations := base.navigations.foldl
      (fun navigations entry => OrderedMap.putNew navigations entry.1 entry.2) r.navigations}

/-- Adds what a join of the record's scope brought. -/
def attach (r : Record) (n : Navigation) (nested : Record) : Record :=
  if n.inheritance then r.absorb nested
  else if nested.isVoid then r
  else {r with navigations := OrderedMap.put r.navigations n.name nested}

end Record

namespace JoinGraph

/-- The record of a scope, with the scopes at most `depth` joins below it. -/
def recordAt (s : Schema) (g : JoinGraph) (names : Naming) (row : Row) :
    Nat → Nat → Record
  | depth, scope =>
    let own : Record := ⟨(g.entity s scope).name, ownValues (g.aliasName names scope) row, []⟩
    match depth with
    | 0 => own
    | depth + 1 =>
      (g.children scope).foldl (fun r j =>
        match g.joins[j]? with
        | none => r
        | some join => r.attach join.navigation (recordAt s g names row depth (j + 1))) own

/-- The record of a row. -/
def record (s : Schema) (g : JoinGraph) (names : Naming) (row : Row) : Record :=
  recordAt s g names row g.joins.length 0

/-- The records of the rows that have data. -/
def records (s : Schema) (g : JoinGraph) (names : Naming) (rows : List Row) : List Record :=
  (rows.map (g.record s names)).filter fun r => !r.isVoid

end JoinGraph
end EntityQuery
