import EntityQuery.Proofs.JoinGraph.Growth
import Mathlib.Data.List.Basic
import Mathlib.Logic.Relation

/-! What a scope inherits.

A join over the navigation to a base leads to a scope that is merged into its parent's, and so are
the scopes that this one inherits in turn (`merged`). -/
namespace EntityQuery.JoinGraph

variable {g g' : JoinGraph}

/-- Whether a join leads to a base. -/
def leadsToBase (g : JoinGraph) (j : Nat) : Bool := g.joins[j]?.any (·.navigation.inheritance)

/-- The joins over which a scope inherits. -/
def bases (g : JoinGraph) (scope : Nat) : List Nat := (g.children scope).filter g.leadsToBase

/-- No scope inherits over two joins. -/
def SingleBase (g : JoinGraph) : Prop := ∀ scope, (g.bases scope).length ≤ 1

theorem Rooted.singleBase_of (hg : g.Rooted)
    (h : ∀ scope < g.joins.length, (g.bases scope).length ≤ 1) : g.SingleBase := by
  intro scope
  by_cases hscope : scope < g.joins.length
  · exact h scope hscope
  · simp [bases, hg.children_beyond (Nat.le_of_not_lt hscope)]

/-- What holds of a scope when it holds of the scopes that hang off it holds of every scope. -/
theorem Rooted.induction_below (hg : g.Rooted) {motive : Nat → Prop}
    (step : ∀ scope, (∀ j ∈ g.children scope, motive (j + 1)) → motive scope) (scope : Nat) :
    motive scope := by
  induction hleft : g.joins.length - scope using Nat.strongRecOn generalizing scope with
  | ind left ih =>
    refine step scope fun j hj => ih _ ?_ (j + 1) rfl
    obtain ⟨hlen, rfl⟩ := mem_children.1 hj
    have hle := hg j
    omega

/-- The scopes whose columns the record of a scope has, down to `depth` levels below it. -/
def mergedWithin (g : JoinGraph) : Nat → Nat → List Nat
  | 0, scope => [scope]
  | depth + 1, scope => scope :: (g.bases scope).flatMap fun j => g.mergedWithin depth (j + 1)

/-- The scopes whose columns the record of a scope has: the scope, and from it base by base. -/
def merged (g : JoinGraph) (scope : Nat) : List Nat := g.mergedWithin g.joins.length scope

/-- Nothing hangs below the last scope, however deep one looks. -/
theorem Rooted.mergedWithin_stable (hg : g.Rooted) {depth depth' scope : Nat}
    (h : g.joins.length ≤ depth + scope) (hdepth : depth ≤ depth') :
    g.mergedWithin depth' scope = g.mergedWithin depth scope := by
  induction depth generalizing depth' scope with
  | zero =>
    have hnone := hg.children_beyond (by omega : g.joins.length ≤ scope)
    cases depth' <;> simp [mergedWithin, bases, hnone]
  | succ depth ih =>
    obtain ⟨depth', rfl⟩ := Nat.exists_eq_add_of_le' (Nat.le_of_add_left_le hdepth : 1 ≤ depth')
    rw [mergedWithin, mergedWithin]
    congr 1
    refine List.flatMap_congr fun j hj => ?_
    obtain ⟨-, rfl⟩ := mem_children.1 (List.mem_of_mem_filter hj)
    have hle := hg j
    exact ih (by omega) (by omega)

theorem Rooted.merged_eq (hg : g.Rooted) (scope : Nat) :
    g.merged scope = scope :: (g.bases scope).flatMap fun j => g.merged (j + 1) := by
  rw [merged, ← hg.mergedWithin_stable (Nat.le_add_right ..) (Nat.le_succ _), mergedWithin]
  rfl

/-- A scope inherits from another over one join. -/
def Inherits (g : JoinGraph) (scope base : Nat) : Prop := ∃ j ∈ g.bases scope, base = j + 1

theorem Rooted.mem_merged (hg : g.Rooted) {scope other : Nat} :
    other ∈ g.merged scope ↔ Relation.ReflTransGen g.Inherits scope other := by
  refine hg.induction_below (motive := fun scope =>
    other ∈ g.merged scope ↔ Relation.ReflTransGen g.Inherits scope other)
    (fun scope ih => ?_) scope
  rw [hg.merged_eq, List.mem_cons, List.mem_flatMap, Relation.ReflTransGen.cases_head_iff, eq_comm]
  refine or_congr_right ⟨?_, ?_⟩
  · rintro ⟨j, hj, hmem⟩
    exact ⟨j + 1, ⟨j, hj, rfl⟩, (ih j (List.mem_of_mem_filter hj)).1 hmem⟩
  · rintro ⟨_, ⟨j, hj, rfl⟩, hrest⟩
    exact ⟨j, hj, (ih j (List.mem_of_mem_filter hj)).2 hrest⟩

theorem inherits_iff {scope j : Nat} : g.Inherits scope (j + 1) ↔
    ∃ join, g.joins[j]? = some join ∧ join.parent = scope ∧ join.navigation.inheritance = true := by
  have hjoin : g.Inherits scope (j + 1) ↔ j ∈ g.bases scope := by
    simp [Inherits]
  rw [hjoin, bases, List.mem_filter, mem_children, leadsToBase, Option.any_eq_true, parent]
  constructor
  · rintro ⟨⟨hlen, hparent⟩, join, hget, hinheritance⟩
    exact ⟨join, hget, by simpa [hget] using hparent, hinheritance⟩
  · rintro ⟨join, hget, rfl, hinheritance⟩
    obtain ⟨hlen, -⟩ := List.getElem?_eq_some_iff.1 hget
    exact ⟨⟨hlen, by simp [hget]⟩, join, hget, hinheritance⟩

/-- Joins that come later change nothing about what was inherited. -/
theorem Grows.inherits (h : g.Grows g') {scope base : Nat} (hbase : g.Inherits scope base) :
    g'.Inherits scope base := by
  obtain ⟨j, -, rfl⟩ := id hbase
  obtain ⟨join, hget, hjoin⟩ := inherits_iff.1 hbase
  obtain ⟨hlen, -⟩ := List.getElem?_eq_some_iff.1 hget
  exact inherits_iff.2 ⟨join, (h.getElem? hlen).trans hget, hjoin⟩

end EntityQuery.JoinGraph
