import EntityQuery.Proofs.JoinGraph.Alias
import EntityQuery.Proofs.JoinGraph.Nesting
import EntityQuery.Proofs.Plan.Run
import EntityQuery.Proofs.Sql.Scope
import Mathlib.Data.List.Nodup

/-! The sources of a select and what its joins read.

A layout takes one alias for each scope, so the sources of a select are told apart by them. A join
stands behind that of its parent and reads the two scopes it connects, and the demands on its match
read its own scope and one of their own. -/
namespace EntityQuery.Plan

open JoinGraph (Rooted)
open Member (Column)
open Sql (Expr Select Visible Place)

variable {s : Schema} {l : Layout} {a : AliasSupply}

/-- A layout of a tree, its aliases taken from the supply `a`. -/
structure Laid (l : Layout) (a : AliasSupply) : Prop where
  rooted : l.graph.Rooted
  names : l.names = (l.graph.assign a).1
  flipped : ∀ j ∈ l.flipped, j < l.graph.joins.length

theorem laid_laidOut {g : JoinGraph} (hg : g.Rooted) (columns : List Column) (a : AliasSupply) :
    Laid (laidOut g columns a) a where
  rooted := hg
  names := rfl
  flipped j hj := by
    obtain ⟨scope, -, hway⟩ := hg.mem_joinsTo.1 (hg.mem_flipNested.1 hj).1
    exact (hg.mem_rootPath_lt hway).2

/-- A table under the alias of a scope. -/
def tableAt (l : Layout) (scope : Nat) : Visible := ⟨l.aliasName scope, none⟩

/-- The table of a join's target when a match of the join is looked for. -/
def probeAt (l : Layout) (j : Nat) : Visible := ⟨l.aliasName (j + 1) ++ "X", none⟩

/-- What connects that table with the parent's. -/
def matchKeys (s : Schema) (l : Layout) (j : Nat) : List Expr :=
  (navigationOf l.graph j).keys.map fun pair =>
    Expr.equal
      (.qualified (probeAt l j).aliasName ((l.graph.entity s (j + 1)).columnOf pair.target))
      (.qualified (l.aliasName (l.graph.parent j))
        ((l.graph.entity s (l.graph.parent j)).columnOf pair.source))

/-- The matches of a join. -/
def matchSelect (s : Schema) (l : Layout) (j : Nat) : Select :=
  { Select.of (.ofTable (tableOf (l.graph.entity s (j + 1))) (probeAt l j).aliasName) with
    filter := Expr.allOf? (matchKeys s l j) }

namespace Laid
variable (hl : Laid l a)
include hl

theorem aliasName_eq (scope : Nat) :
    l.aliasName scope = l.graph.aliasName (l.graph.assign a).1 scope := by
  rw [Layout.aliasName, hl.names]

theorem handedOut {scope : Nat} (h : scope ≤ l.graph.joins.length) :
    HandedOut a (l.graph.assign a).2 (l.aliasName scope) :=
  hl.aliasName_eq scope ▸ hl.rooted.aliasName_handedOut a h

theorem injective {i j : Nat} (hi : i ≤ l.graph.joins.length) (hj : j ≤ l.graph.joins.length)
    (h : l.aliasName i = l.aliasName j) : i = j := by
  rw [hl.aliasName_eq, hl.aliasName_eq] at h
  exact hl.rooted.aliasName_injective a hi hj h

theorem probe_handedOut {j : Nat} (h : j < l.graph.joins.length) :
    HandedOut a (l.graph.assign a).2 (l.aliasName (j + 1) ++ "X") :=
  hl.aliasName_eq (j + 1) ▸ hl.rooted.probe_handedOut a h

theorem ne_probe (scope j : Nat) : l.aliasName scope ≠ l.aliasName (j + 1) ++ "X" := by
  rw [hl.aliasName_eq, hl.aliasName_eq]
  exact JoinGraph.aliasName_ne_probe l.graph a scope j

/-! ### Columns -/

theorem scoped_tableAt {p : Place} {scope : Nat} (hscope : scope ≤ l.graph.joins.length)
    (h : tableAt l scope ∈ p.sources) (column : String) :
    (Expr.qualified (l.aliasName scope) column).Scoped p :=
  Sql.scoped_qualified (v := tableAt l scope) (hl.handedOut hscope).ne_empty h
    (by simp [tableAt, Visible.offers])

theorem scoped_expr {p : Place} {c : Column} (hscope : c.scope ≤ l.graph.joins.length)
    (h : tableAt l c.scope ∈ p.sources) : (l.expr c).Scoped p := by
  have hcolumn := hl.scoped_tableAt hscope h c.column
  unfold Layout.expr Column.expr
  cases c.measure with
  | value => exact hcolumn
  | aggregate function => exact .call fun e he => List.mem_singleton.1 he ▸ hcolumn
  | rowCount => exact .countAll

/-- An item gives its column a name. -/
theorem shows_item {p : Place} {c : Column} (hscope : c.scope ≤ l.graph.joins.length)
    (h : tableAt l c.scope ∈ p.sources) (names : List String) :
    Select.Shows p names (l.item c) := by
  refine ⟨hl.scoped_expr hscope h, fun given hgiven => ?_⟩
  obtain rfl := Option.some.inj hgiven
  intro hempty
  have hlist := congrArg String.length hempty
  unfold Column.resultName at hlist
  cases hm : c.measure <;> simp [hm, toString] at hlist

/-! ### Joins -/

theorem scoped_matchKeys {p : Place} {j : Nat} (hj : j < l.graph.joins.length)
    (hprobe : probeAt l j ∈ p.sources) (hparent : tableAt l (l.graph.parent j) ∈ p.sources) :
    ∀ e ∈ matchKeys s l j, e.Scoped p := by
  have hle : l.graph.parent j ≤ l.graph.joins.length :=
    Nat.le_trans (hl.rooted j) (Nat.le_of_lt hj)
  intro e he
  obtain ⟨pair, -, rfl⟩ := List.mem_map.1 he
  refine .binary ?_ (hl.scoped_tableAt hle hparent _)
  exact Sql.scoped_qualified (hl.probe_handedOut hj).ne_empty hprobe
    (by simp [probeAt, Visible.offers])

/-- What a match of a join is asked for reads the join's own scope. -/
theorem scoped_matchExists {p : Place} {j : Nat} (hj : j < l.graph.joins.length)
    (h : tableAt l (l.graph.parent j) ∈ p.attached) (hnew : l.aliasName (j + 1) ++ "X" ∉ p.around) :
    (matchExists s l j).Scoped p := by
  have hbase : Select.Scoped p.attached p.around p.around (matchSelect s l j) := by
    refine Select.scoped_ofSource ?_ ?_ ?_ fun e he => ?_
    · rw [Sql.visible_ofTable]
      exact (hl.probe_handedOut hj).ne_empty
    · rwa [Sql.visible_ofTable]
    · exact fun _ _ hderived => absurd hderived Sql.ofTable_ne_derived
    · rw [Sql.visible_ofTable]
      exact Sql.scoped_allOf? (hl.scoped_matchKeys hj (List.mem_cons_self ..)
        (List.mem_cons_of_mem _ h)) he
  refine .hasRow (hbase.showing [.expr (.literal 0) none] [] (some ⟨0, 1⟩)
    (fun i hi => ?_) (by simp))
  obtain rfl := List.mem_singleton.1 hi
  exact ⟨.literal, by simp⟩

/-- A join reads its parent's key columns and its own, and asks nothing but of its own match. -/
theorem scoped_on {p : Place} {host : Option String} {j : Nat} (hj : j < l.graph.joins.length)
    (hparent : ∀ pair ∈ (navigationOf l.graph j).keys,
      (parentKey l host (l.graph.parent j)
        ((l.graph.entity s (l.graph.parent j)).columnOf pair.source)).Scoped p)
    (hown : tableAt l (j + 1) ∈ p.sources) (hattached : tableAt l (j + 1) ∈ p.attached)
    (hnew : ∀ k < l.graph.joins.length, l.aliasName (k + 1) ++ "X" ∉ p.around) :
    (join s l host j).on.Scoped p := by
  have hconditions : ∀ e ∈ joinConditions s l host j, e.Scoped p := by
    intro e he
    rcases List.mem_append.1 he with he | he
    · obtain ⟨pair, hpair, rfl⟩ := List.mem_map.1 he
      exact .binary (hparent pair hpair) (hl.scoped_tableAt hj hown _)
    · obtain ⟨child, hchild, rfl⟩ := List.mem_map.1 he
      obtain ⟨hflipped, hparent⟩ := JoinGraph.mem_demands.1 hchild
      have hlen := hl.flipped child hflipped
      exact hl.scoped_matchExists hlen (hparent ▸ hattached) (hnew child hlen)
  show ((Expr.allOf? (joinConditions s l host j)).getD .never).Scoped p
  cases he : Expr.allOf? (joinConditions s l host j) with
  | none => exact .binary .literal .literal
  | some e => exact Sql.scoped_allOf? hconditions he

end Laid

/-! ### The sources of a select -/

/-- A source and the tables that are joined to it on the way to some scopes. -/
def sourcesTo (l : Layout) (root : Visible) (scopes : List Nat) : List Visible :=
  root :: (l.graph.joinsTo scopes).map fun j => tableAt l (j + 1)

def aliasesTo (l : Layout) (root : Visible) (scopes : List Nat) : List String :=
  (sourcesTo l root scopes).map (·.aliasName)

theorem visible_join (l : Layout) (host : Option String) (js : List Nat) :
    (js.map (join s l host)).map (·.source.visible) = js.map fun j => tableAt l (j + 1) := by
  rw [List.map_map]
  exact List.map_congr_left fun j _ =>
    Sql.visible_ofTable (tableOf (l.graph.entity s (j + 1))) (l.aliasName (j + 1))

/-- A select joins to its source the tables on the way to some scopes. -/
structure Joins (s : Schema) (l : Layout) (host : Option String) (root : Visible)
    (scopes : List Nat) (select : Select) : Prop where
  source : select.source.visible = root
  joins : select.joins = (l.graph.joinsTo scopes).map (join s l host)

namespace Joins
variable {host : Option String} {root : Visible} {scopes : List Nat} {select : Select}

theorem sources (h : Joins s l host root scopes select) :
    select.sources = sourcesTo l root scopes := by
  rw [Select.sources, h.source, h.joins, visible_join, sourcesTo]

theorem aliases (h : Joins s l host root scopes select) :
    select.aliases = aliasesTo l root scopes := by
  rw [Select.aliases, h.sources, aliasesTo]

end Joins

namespace Laid
variable (hl : Laid l a) {root : Visible} {scopes : List Nat}
include hl

/-- The table of a scope is among the sources that lead to it. -/
theorem tableAt_mem {scope : Nat} (hscope : scope ≤ l.graph.joins.length) (hmem : scope ∈ scopes)
    (hroot : scope = 0 → root = tableAt l 0) : tableAt l scope ∈ sourcesTo l root scopes := by
  cases scope with
  | zero => exact hroot rfl ▸ List.mem_cons_self ..
  | succ j =>
    exact List.mem_cons_of_mem _ (List.mem_map_of_mem (hl.rooted.joinsTo_scope hmem hscope))

/-- The alias of a source is that of its root or was taken for a scope. -/
theorem mem_aliasesTo {name : String} (h : name ∈ aliasesTo l root scopes) :
    name = root.aliasName ∨ ∃ j < l.graph.joins.length, name = l.aliasName (j + 1) := by
  simp only [aliasesTo, sourcesTo, List.map_cons, List.map_map, List.mem_cons, List.mem_map] at h
  obtain rfl | ⟨j, hj, rfl⟩ := h
  · exact .inl rfl
  · obtain ⟨scope, -, hway⟩ := hl.rooted.mem_joinsTo.1 hj
    exact .inr ⟨j, (hl.rooted.mem_rootPath_lt hway).2, rfl⟩

theorem nodup_aliasesTo (hroot : ∀ j < l.graph.joins.length, root.aliasName ≠ l.aliasName (j + 1)) :
    (aliasesTo l root scopes).Nodup := by
  have hlt : ∀ j ∈ l.graph.joinsTo scopes, j < l.graph.joins.length := by
    intro j hj
    obtain ⟨scope, -, hway⟩ := hl.rooted.mem_joinsTo.1 hj
    exact (hl.rooted.mem_rootPath_lt hway).2
  simp only [aliasesTo, sourcesTo, List.map_cons, List.map_map]
  refine List.nodup_cons.2 ⟨fun hmem => ?_, ?_⟩
  · obtain ⟨j, hj, heq⟩ := List.mem_map.1 hmem
    exact hroot j (hlt j hj) heq.symm
  · refine List.Nodup.map_on (fun i hi j hj heq => ?_) (hl.rooted.nodup_joinsTo scopes)
    exact Nat.succ.inj (hl.injective (hlt i hi) (hlt j hj) heq)

/-- The joins of a select come behind what they read. -/
theorem scoped_joins {host : Option String} {around : List String} {select : Select}
    (h : Joins s l host root scopes select)
    (hkeys : ∀ j ∈ l.graph.joinsTo scopes, l.graph.parent j = 0 →
      ∀ pair ∈ (navigationOf l.graph j).keys, ∀ p : Place, root ∈ p.sources →
        (parentKey l host 0 ((l.graph.entity s 0).columnOf pair.source)).Scoped p)
    (hnew : ∀ k < l.graph.joins.length, l.aliasName (k + 1) ++ "X" ∉ around ++ select.aliases)
    (earlier : List Sql.Join) (j : Sql.Join) (later : List Sql.Join)
    (hsplit : select.joins = earlier ++ j :: later) :
    j.on.Scoped ⟨select.source.visible :: (earlier ++ [j]).map (·.source.visible) ++ [],
      [j.source.visible], around ++ select.aliases⟩ := by
  rw [h.joins] at hsplit
  obtain ⟨before, rest, hjoins, rfl, hrest⟩ := List.map_eq_append_iff.1 hsplit
  obtain ⟨k, after, rfl, rfl, rfl⟩ := List.map_eq_cons_iff.1 hrest
  have hk : k ∈ l.graph.joinsTo scopes := by simp [hjoins]
  obtain ⟨scope, -, hway⟩ := hl.rooted.mem_joinsTo.1 hk
  have hlen := (hl.rooted.mem_rootPath_lt hway).2
  have hvisible : (join s l host k).source.visible = tableAt l (k + 1) := Sql.visible_ofTable _ _
  have hsources : select.source.visible :: (before.map (join s l host) ++ [join s l host k]).map
      (·.source.visible) ++ [] = root :: (before ++ [k]).map fun j => tableAt l (j + 1) := by
    rw [h.source, List.append_nil, ← List.map_singleton, ← List.map_append, visible_join]
  rw [hsources, hvisible]
  refine hl.scoped_on hlen (fun pair hpair => ?_) (by simp) (by simp) hnew
  cases hp : l.graph.parent k with
  | zero => exact hkeys k hk hp pair hpair _ (List.mem_cons_self ..)
  | succ p =>
    obtain hzero | ⟨q, hq, hparent⟩ := hl.rooted.parent_joinsTo hjoins
    · omega
    · obtain rfl : p = q := by omega
      have hple : p + 1 ≤ l.graph.joins.length := by
        have := hl.rooted k
        omega
      have hmem : tableAt l (p + 1) ∈ root :: (before ++ [k]).map fun j => tableAt l (j + 1) :=
        List.mem_cons_of_mem _ (List.mem_map_of_mem (List.mem_append_left _ hq))
      cases host <;> exact hl.scoped_tableAt hple hmem _

/-- A source with tables joined to it, which shows nothing yet. What is left to be seen to are its
own alias, the keys it is joined by, and its clauses. -/
theorem scoped_select {host : Option String} {avoid around : List String} {select : Select}
    (h : Joins s l host root scopes select) (hunshown : Unshown select)
    (hne : root.aliasName ≠ "")
    (hjoins : ∀ j < l.graph.joins.length, root.aliasName ≠ l.aliasName (j + 1))
    (hprobes : ∀ j < l.graph.joins.length, root.aliasName ≠ l.aliasName (j + 1) ++ "X")
    (hnew : ∀ name ∈ aliasesTo l root scopes, name ∉ avoid)
    (haround : ∀ j < l.graph.joins.length, l.aliasName (j + 1) ++ "X" ∉ around)
    (hkeys : ∀ j ∈ l.graph.joinsTo scopes, l.graph.parent j = 0 →
      ∀ pair ∈ (navigationOf l.graph j).keys, ∀ p : Place, root ∈ p.sources →
        (parentKey l host 0 ((l.graph.entity s 0).columnOf pair.source)).Scoped p)
    (hderived : ∀ inner name, select.source = .derived inner name →
      inner.Scoped [] avoid (around ++ select.aliases))
    (hfilter : ∀ e, select.filter = some e → e.Scoped (select.inside [] around))
    (hgroupBy : ∀ e ∈ select.groupBy, e.Scoped (select.inside [] around))
    (hhaving : ∀ e, select.having = some e → e.Scoped (select.inside [] around)) :
    select.Scoped [] avoid around := by
  have haliases := h.aliases
  refine .intro ?_ ?_ ?_ hderived ?_ (hl.scoped_joins h hkeys ?_) ?_ ?_ ?_ hfilter hgroupBy
    hhaving ?_
  · intro name hname
    rw [haliases] at hname
    obtain rfl | ⟨j, hj, rfl⟩ := hl.mem_aliasesTo hname
    · exact hne
    · exact (hl.handedOut hj).ne_empty
  · rw [haliases]
    exact hl.nodup_aliasesTo hjoins
  · rwa [haliases]
  · intro j hj inner name hsource
    rw [h.joins] at hj
    obtain ⟨k, -, rfl⟩ := List.mem_map.1 hj
    exact absurd hsource Sql.ofTable_ne_derived
  · intro k hk hmem
    rcases List.mem_append.1 hmem with hmem | hmem
    · exact haround k hk hmem
    · rw [haliases] at hmem
      obtain heq | ⟨j, hj, heq⟩ := hl.mem_aliasesTo hmem
      · exact hprobes k hk heq.symm
      · exact hl.ne_probe (j + 1) k heq.symm
  · simp [hunshown.items]
  · simp [Select.resultNames, hunshown.items]
  · simp [hunshown.items]
  · simp [hunshown.orderBy]

end Laid

end EntityQuery.Plan
