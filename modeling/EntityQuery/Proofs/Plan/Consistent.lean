import EntityQuery.Proofs.JoinGraph.Flipped
import EntityQuery.Proofs.Member.Rooted
import EntityQuery.Proofs.Plan.Carried
import EntityQuery.Proofs.Plan.Matching

/-! What flipping joins changes.

A needed join that stands below a LEFT join is made with LEFT, whatever it is declared as, and what
it would have asked of a row is asked of the match above it. Each flipped join is asked for once, in
the condition of the join right above. Joins that are not needed, the tables and the aliases stay as
they are, and flipping again changes nothing (`flip_consistent`). -/
namespace EntityQuery.Plan

open JoinGraph (Rooted)
open Sql (Database Expr Frame isTrue)

variable {s : Schema} {l : Layout} {g : JoinGraph} {a : AliasSupply} {needed : List Nat}

namespace Layout

/-- The scopes of a graph with their aliases, and all joins as they are declared. -/
def named (g : JoinGraph) (a : AliasSupply) : Layout := ⟨g, (g.assign a).1, []⟩

/-- Flips the nested joins among the needed ones. -/
def flip (l : Layout) (needed : List Nat) : Layout :=
  {l with flipped := l.graph.flipNested l.flipped needed}

/-- The needed joins right below a join that are declared INNER and made with LEFT. -/
def flippedBelow (l : Layout) (needed : List Nat) (j : Nat) : List Nat :=
  needed.filter fun child => l.graph.parent child = j + 1 ∧
    (navigationOf l.graph child).kind = .inner ∧ l.graph.kind l.flipped child = .left

end Layout

/-- What flipping the nested joins among the needed ones makes of a layout. -/
structure Consistent (s : Schema) (host : Option String) (needed : List Nat) (l l' : Layout) :
    Prop where
  graph : l'.graph = l.graph
  names : l'.names = l.names
  /-- No needed join is made with INNER below one that is made with LEFT. -/
  below : ∀ j ∈ needed, ∀ i ∈ l.graph.rootPath (l.graph.parent j),
    (join s l' host i).kind = .left → (join s l' host j).kind = .left
  /-- A join is made with LEFT when it or one above it is declared so. -/
  left : ∀ j ∈ needed, (join s l' host j).kind = .left ↔
    ∃ i ∈ l.graph.rootPath (j + 1), (navigationOf l.graph i).kind = .left
  /-- A match of a join is asked for the matches of the joins flipped right below. -/
  conditions : ∀ j ∈ needed, joinConditions s l' host j =
    keyConditions s l host j ++ (l'.flippedBelow needed j).map (matchExists s l)
  /-- For each of them once. -/
  once : ∀ j ∈ needed, ((l'.flippedBelow needed j).map (matchExists s l)).Nodup
  /-- To have a match of a join is to have a row of its target that agrees in all key pairs. -/
  asked : ∀ j ∈ needed, ∀ child ∈ l'.flippedBelow needed j, ∀ (db : Database) params frame r,
    l.rowOf frame (j + 1) = some r →
      isTrue ((matchExists s l child).value db params (.of frame)) =
        ((tables db s l).rows child).any ((tables db s l).connects child r)
  others : ∀ j, j ∉ needed → join s l' host j = join s l host j
  again : l'.flip needed = l'

/-! ### Kinds -/

theorem isLeft_declared {j : Nat} (hj : j < g.joins.length) :
    g.isLeft [] j = true ↔ (navigationOf g j).kind = .left := by
  simp [JoinGraph.isLeft, navigationOf, List.getElem?_eq_getElem hj]

theorem underLeft_iff (hg : g.Rooted) {scope : Nat} : g.underLeft scope = true ↔
    ∃ i ∈ g.rootPath scope, (navigationOf g i).kind = .left := by
  rw [JoinGraph.underLeft, List.any_eq_true]
  exact exists_congr fun i => and_congr_right fun hi => isLeft_declared (hg.mem_rootPath_lt hi).2

theorem kind_flipped (hg : g.Rooted) {j : Nat} (hj : j < g.joins.length) (hmem : j ∈ needed) :
    g.kind (g.flipNested [] needed) j = .left ↔ g.underLeft (j + 1) = true := by
  rw [hg.kind_flipNested hj hmem]
  cases g.underLeft (j + 1) <;> decide

/-- What stands below a LEFT join stands further below it as well. -/
theorem underLeft_below (hg : g.Rooted) {scope i : Nat} (hi : i ∈ g.rootPath scope)
    (hunder : g.underLeft (i + 1) = true) : g.underLeft scope = true := by
  obtain ⟨k, hk, hleft⟩ := List.any_eq_true.1 hunder
  exact List.any_eq_true.2 ⟨k, (hg.rootPath_prefix hi).subset hk, hleft⟩

/-! ### Tests for matches -/

/-- A join is tested for a match under an alias of its own. -/
theorem Laid.matchExists_injective (hl : Laid l a) {i j : Nat} (hi : i < l.graph.joins.length)
    (hj : j < l.graph.joins.length) (h : matchExists s l i = matchExists s l j) : i = j := by
  have hsource := congrArg Sql.Select.source (Expr.hasRow.inj h)
  have hprobe := (Sql.Source.table.inj hsource).2
  rw [aliasName?_probe, aliasName?_probe, Option.some.injEq, String.append_left_inj] at hprobe
  exact Nat.succ.inj (hl.injective hi hj hprobe)

/-! ### A layout and its flipped joins -/

section Flip
variable (hg : g.Rooted) (hlen : ∀ j ∈ needed, j < g.joins.length)
include hg hlen

/-- The joins flipped right below a join are those its match is asked for. -/
theorem flippedBelow_flip (hnodup : needed.Nodup) (j : Nat) :
    ((Layout.named g a).flip needed).flippedBelow needed j =
      g.demands (g.flipNested [] needed) j := by
  rw [JoinGraph.demands, hg.flipNested_eq_filter hnodup, List.filter_filter]
  refine List.filter_congr fun child hmem => ?_
  have hdeclared := isLeft_declared (hlen child hmem)
  have hmade := kind_flipped hg (hlen child hmem) hmem
  rw [hg.underLeft_succ (hlen child hmem)] at hmade
  rw [Bool.eq_iff_iff, decide_eq_true_iff, Bool.and_eq_true, beq_iff_eq,
    JoinGraph.isNested_declared]
  refine and_congr_right fun _ => ?_
  show (navigationOf g child).kind = .inner ∧ g.kind (g.flipNested [] needed) child = .left ↔ _
  cases hkind : (navigationOf g child).kind with
  | inner =>
    have hinner : g.isLeft [] child = false := by
      rw [← Bool.not_eq_true, hdeclared, hkind]
      decide
    simp [hmade, hinner]
  | left => simp [hdeclared.2 hkind]

theorem joinConditions_flip (hnodup : needed.Nodup) (host : Option String) (j : Nat) :
    joinConditions s ((Layout.named g a).flip needed) host j =
      keyConditions s (Layout.named g a) host j ++
        (((Layout.named g a).flip needed).flippedBelow needed j).map
          (matchExists s (Layout.named g a)) := by
  rw [flippedBelow_flip hg hlen hnodup]
  rfl

/-- A join is flipped or asked for a match only if it is needed. -/
theorem join_flip_of_notMem (hclosed : g.Closed needed) (host : Option String) {j : Nat}
    (hj : j ∉ needed) : join s ((Layout.named g a).flip needed) host j =
      join s (Layout.named g a) host j := by
  have hkind : g.kind (g.flipNested [] needed) j = g.kind [] j := by
    have hflipped : j ∉ g.flipNested [] needed := fun h => hj (hg.mem_flipNested.1 h).1
    simp [JoinGraph.kind, JoinGraph.isLeft, hflipped]
  have hdemands : g.demands (g.flipNested [] needed) j = g.demands [] j := by
    refine List.filter_eq_nil_iff.2 fun child hchild hparent => hj ?_
    have hmem := (hg.mem_flipNested.1 hchild).1
    exact hclosed child hmem (hg.parent_mem_rootPath (hg.mem_rootPath_self (hlen child hmem))
      (beq_iff_eq.1 hparent))
  have hconditions : joinConditions s ((Layout.named g a).flip needed) host j =
      joinConditions s (Layout.named g a) host j :=
    congrArg (fun asked => keyConditions s (Layout.named g a) host j ++
      asked.map (matchExists s (Layout.named g a))) hdemands
  rw [join, join, hconditions]
  exact congrArg (Sql.Join.mk · _ _) hkind

end Flip

/-- Over a tree, the joins to some scopes are consistent once the nested ones are flipped. -/
theorem consistent_flip (hg : g.Rooted) (a : AliasSupply) (scopes : List Nat)
    (host : Option String) :
    Consistent s host (g.joinsTo scopes) (Layout.named g a)
      ((Layout.named g a).flip (g.joinsTo scopes)) := by
  have hlen : ∀ j ∈ g.joinsTo scopes, j < g.joins.length := fun j hj => by
    obtain ⟨scope, -, hway⟩ := hg.mem_joinsTo.1 hj
    exact (hg.mem_rootPath_lt hway).2
  have hclosed := hg.closed_joinsTo scopes
  have hnodup := hg.nodup_joinsTo scopes
  have hlaid : Laid (Layout.named g a) a := ⟨hg, rfl, fun j hj => absurd hj List.not_mem_nil⟩
  have hleft := fun j (hj : j ∈ g.joinsTo scopes) => kind_flipped hg (hlen j hj) hj
  have hbelow : ∀ {j child}, child ∈ ((Layout.named g a).flip (g.joinsTo scopes)).flippedBelow
      (g.joinsTo scopes) j → child < g.joins.length ∧ g.parent child = j + 1 := by
    intro j child hchild
    obtain ⟨hmem, hparent⟩ := List.mem_filter.1 hchild
    exact ⟨hlen child hmem, (of_decide_eq_true hparent).1⟩
  exact {
    graph := rfl
    names := rfl
    below := fun j hj i hi hmade => by
      have hpath := hg.rootPath_succ (hlen j hj)
      have hneeded : i ∈ g.joinsTo scopes := hclosed j hj (hpath ▸ List.mem_append_left _ hi)
      have hparent : g.underLeft (g.parent j) = true :=
        underLeft_below hg hi ((hleft i hneeded).1 hmade)
      refine (hleft j hj).2 ?_
      rw [hg.underLeft_succ (hlen j hj), hparent, Bool.true_or]
    left := fun j hj => (hleft j hj).trans (underLeft_iff hg)
    conditions := fun j _ => joinConditions_flip hg hlen hnodup host j
    once := fun j _ => by
      refine List.Nodup.map_on (fun i hi k hk h => ?_) (hnodup.filter _)
      exact hlaid.matchExists_injective (hbelow hi).1 (hbelow hk).1 h
    asked := fun j _ child hchild db params frame r hr => by
      obtain ⟨hlt, hparent⟩ := hbelow hchild
      refine hlaid.isTrue_matchExists db params hlt ?_
      show (Layout.named g a).rowOf frame (g.parent child) = some r
      rw [hparent, hr]
    others := fun j hj => join_flip_of_notMem hg hlen hclosed host hj
    again := congrArg (Layout.mk _ _) hg.flipNested_flipped }

/-- **Flipping joins** keeps the rows of LEFT joins and changes nothing else, whatever paths the
graph grew by, whichever aliases were taken before, and whichever scopes are needed. A needed join
is made with LEFT exactly when it or one above it is declared LEFT, a match above a flipped join is
asked for that join's match once, and to flip again changes nothing. -/
theorem flip_consistent (s : Schema) (root : Nat) (paths : List String) (a : AliasSupply)
    (scopes : List Nat) (host : Option String) :
    let g := (Member.resolveAll s (.ofRoot root) paths).1
    Consistent s host (g.joinsTo scopes) (Layout.named g a)
      ((Layout.named g a).flip (g.joinsTo scopes)) :=
  consistent_flip (Member.rooted_resolveAll (JoinGraph.rooted_ofRoot root) paths) a scopes host

end EntityQuery.Plan
