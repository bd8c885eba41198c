import EntityQuery.JoinGraph.Basic

/-! Aliases for the scopes of a graph.

Roots are called `T`, `T1`, `T2` and joins `J0`, `J1`, the joins of one graph in depth-first
order. There is one supply of aliases for a whole statement, and so none comes twice. -/
namespace EntityQuery

/-- How many table and join aliases have been handed out. -/
structure AliasSupply where
  tables : Nat := 0
  joins : Nat := 0
deriving DecidableEq, Repr

def tableAlias (n : Nat) : String := if n = 0 then "T" else s!"T{n}"

def joinAlias (n : Nat) : String := s!"J{n}"

/-- The aliases of a graph: that of the root, and the number of the first join's. -/
structure Naming where
  table : String
  firstJoin : Nat
deriving DecidableEq, Repr

/-- The root of a statement that names a single table has no alias. -/
def Naming.bare : Naming := ⟨"", 0⟩

def AliasSupply.freshTable (supply : AliasSupply) : String × AliasSupply :=
  (tableAlias supply.tables, {supply with tables := supply.tables + 1})

namespace JoinGraph

/-- Takes an alias for every scope. -/
def assign (g : JoinGraph) (supply : AliasSupply) : Naming × AliasSupply :=
  (⟨tableAlias supply.tables, supply.joins⟩,
    ⟨supply.tables + 1, supply.joins + g.joins.length⟩)

def aliasName (g : JoinGraph) (names : Naming) : Nat → String
  | 0 => names.table
  | j + 1 => joinAlias (names.firstJoin + g.preorder.idxOf j)

end JoinGraph
end EntityQuery
