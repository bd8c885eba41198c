import EntityQuery.Schema.Basic

/-! The tables a statement reads and how they hang together.

A scope is one occurrence of an entity's table. Scope 0 is the root; every other scope is reached
by exactly one join, and the join at position `j` reaches scope `j + 1`. Joins are only ever
appended, each below a scope that is already there, so the graph is a tree whose numbers grow
away from the root. A join is shared by all paths that follow the same navigation from the same
scope (`reach`). -/
namespace EntityQuery

/-- A navigation followed from the scope `parent`. -/
structure GraphJoin where
  parent : Nat
  navigation : Navigation
deriving DecidableEq, Repr

structure JoinGraph where
  /-- The entity of scope 0. -/
  root : Nat
  joins : List GraphJoin
deriving DecidableEq, Repr

namespace JoinGraph

def ofRoot (entity : Nat) : JoinGraph := ⟨entity, []⟩

/-- The entity whose table a scope is. -/
def entityAt (g : JoinGraph) : Nat → Nat
  | 0 => g.root
  | j + 1 => (g.joins[j]?.map (·.navigation.target)).getD g.root

def entity (g : JoinGraph) (s : Schema) (scope : Nat) : Entity := s.entity (g.entityAt scope)

/-- The scope that a join hangs off. -/
def parent (g : JoinGraph) (j : Nat) : Nat := (g.joins[j]?.map (·.parent)).getD 0

/-- The joins that hang off a scope, in the order in which they came. -/
def children (g : JoinGraph) (scope : Nat) : List Nat :=
  (List.range g.joins.length).filter fun j => g.parent j == scope

/-! ### Growing -/

/-- The join that follows a navigation of this name from this scope. -/
def find? (g : JoinGraph) (scope : Nat) (name : String) : Option Nat :=
  g.joins.findIdx? fun join => join.parent == scope && Text.sameLower join.navigation.name name

/-- The scope that a navigation leads to, joined unless it is there. -/
def reach (g : JoinGraph) (scope : Nat) (n : Navigation) : JoinGraph × Nat :=
  match g.find? scope n.name with
  | some j => (g, j + 1)
  | none => ({g with joins := g.joins ++ [⟨scope, n⟩]}, g.joins.length + 1)

/-- Follows bases from a scope to the scope of the entity `owner`, for at most `fuel` steps. -/
def climb (s : Schema) (g : JoinGraph) (scope owner : Nat) : Nat → JoinGraph × Nat
  | 0 => (g, scope)
  | fuel + 1 =>
    if g.entityAt scope = owner then (g, scope)
    else
      match (g.entity s scope).baseNavigation? with
      | none => (g, scope)
      | some base =>
        let (g, next) := g.reach scope base
        climb s g next owner fuel

/-- The scope of `owner`, the entity of a scope or one of its ancestors. Where a navigation has
the name of a base, the climb may first go down the joins that were made for it: each leads away
from the root, and behind the last of them each step makes a new join to the next base. -/
def climbTo (s : Schema) (g : JoinGraph) (scope owner : Nat) : JoinGraph × Nat :=
  climb s g scope owner (g.joins.length + s.entities.length)

/-! ### Paths and order -/

/-- The joins below position `n` that lead from the root to a scope, root side first. -/
def rootPathBelow (g : JoinGraph) (scope : Nat) : Nat → List Nat
  | 0 => []
  | n + 1 =>
    if scope = n + 1 then g.rootPathBelow (g.parent n) n ++ [n] else g.rootPathBelow scope n

/-- The joins that lead from the root to a scope, root side first. -/
def rootPath (g : JoinGraph) (scope : Nat) : List Nat := g.rootPathBelow scope g.joins.length

/-- The joins below a scope, depth first, down to `depth` levels. -/
def below (g : JoinGraph) : Nat → Nat → List Nat
  | 0, _ => []
  | depth + 1, scope => (g.children scope).flatMap fun j => j :: g.below depth (j + 1)

/-- All joins, each before the joins below it and these before its next sibling. -/
def preorder (g : JoinGraph) : List Nat := g.below g.joins.length 0

/-- The joins on the way to any of these scopes, in that order. -/
def joinsTo (g : JoinGraph) (scopes : List Nat) : List Nat :=
  g.preorder.filter fun j => scopes.any fun scope => (g.rootPath scope).contains j

/-! ### What growing keeps -/

theorem joins_reach (g : JoinGraph) (scope : Nat) (n : Navigation) :
    g.joins <+: (g.reach scope n).1.joins := by
  unfold reach
  split
  · exact List.prefix_rfl
  · exact List.prefix_append ..

theorem root_reach (g : JoinGraph) (scope : Nat) (n : Navigation) :
    (g.reach scope n).1.root = g.root := by
  unfold reach; split <;> rfl

end JoinGraph
end EntityQuery
