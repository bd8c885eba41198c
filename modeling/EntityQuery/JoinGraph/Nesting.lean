import EntityQuery.JoinGraph.Basic

/-! Inner joins below left joins.

Let orders keep their rows when they have no customer, and let every customer need a region: an
order without a customer would be lost at the inner join to the region. Such an inner join is
flipped. It is made with LEFT, and the condition of the join above it asks that a customer who
matches has a region. What a join is asked for follows from which joins were flipped (`demands`),
so the list of these says everything. -/
namespace EntityQuery.JoinGraph

/-- Whether a join keeps rows without a match, given the joins flipped so far. -/
def isLeft (g : JoinGraph) (flipped : List Nat) (j : Nat) : Bool :=
  flipped.contains j || (g.joins[j]?.map (·.navigation.kind)) == some .left

/-- Whether a join is made with INNER although a join on the way to it is made with LEFT. -/
def isNested (g : JoinGraph) (flipped : List Nat) (j : Nat) : Bool :=
  !g.isLeft flipped j && (g.rootPath (g.parent j)).any (g.isLeft flipped)

def flipStep (g : JoinGraph) (flipped : List Nat) (j : Nat) : List Nat :=
  if g.isNested flipped j then flipped ++ [j] else flipped

/-- Flips the nested joins among the required ones, in whose order a join comes after the joins
on the way to it. -/
def flipNested (g : JoinGraph) (flipped needed : List Nat) : List Nat :=
  needed.foldl g.flipStep flipped

/-- The joins of which a match of join `j` must have a match. -/
def demands (g : JoinGraph) (flipped : List Nat) (j : Nat) : List Nat :=
  flipped.filter fun child => g.parent child == j + 1

/-- The kind a join is made with. -/
def kind (g : JoinGraph) (flipped : List Nat) (j : Nat) : JoinKind :=
  if g.isLeft flipped j then .left else .inner

end EntityQuery.JoinGraph
