import EntityQuery.Proofs.Member.Shared
import EntityQuery.Proofs.Plan.Matched

/-! The order in which paths are resolved.

Paths that are resolved in another order, and as often as one likes, join what they joined before,
under other numbers. The joins are known by their trails, each path has its column at the scope that
the same navigations lead to, and whatever is read off trails is the same on both sides: the kinds
of joins, and what is asked of their matches up to the aliases in it (`resolveEach_reordered`). -/
namespace EntityQuery.Plan

open Member (Column Gathered read resolve resolveEach)
open JoinGraph (Match Matches)

variable {s : Schema} {g g' : JoinGraph} {columns columns' : List Column} {supply : AliasSupply}

/-- What is asked of the matches of a join, as it is written into its condition. -/
def demanded (s : Schema) (l : Layout) (j : Nat) : List Sql.Expr :=
  (l.graph.demands l.flipped j).map (matchExists s l)

/-- The second layout has the joins of the first, under other numbers and aliases. -/
structure SameJoins (s : Schema) (l l' : Layout) : Prop where
  /-- The same navigations are followed from the root. -/
  trails : ∀ t, l.graph.Has t ↔ l'.graph.Has t
  kinds : ∀ j k, Matches l.graph l'.graph (j + 1) (k + 1) →
    l.graph.kind l.flipped j = l'.graph.kind l'.flipped k
  /-- Under a renaming of the joins' aliases their conditions have the same tests for matches. -/
  demands : ∃ ρ : Sql.Renaming, ρ.table = some ∧ Function.Injective ρ.join ∧
    (∀ a b, Matches l.graph l'.graph a b → ρ.name (l.aliasName a) = some (l'.aliasName b)) ∧
    ∀ j k, Matches l.graph l'.graph (j + 1) (k + 1) →
      ∀ e, e ∈ demanded s l' k ↔ ∃ e' ∈ demanded s l j, e = e'.renamed ρ []

/-- A path has the same column on both sides. -/
structure SameColumn (g g' : JoinGraph) (c c' : Column) : Prop where
  column : c.column = c'.column
  measure : c.measure = c'.measure
  scope : Matches g g' c.scope c'.scope

theorem sameColumn_of_reads {path : String} {r : Member.Reading} {c c' : Column}
    (h : c.Reads g path r) (h' : c'.Reads g' path r) : SameColumn g g' c c' :=
  ⟨h.column.trans h'.column.symm, h.measure.trans h'.measure.symm,
    ⟨h.reached, h'.reached, h.trail.trans h'.trail.symm⟩⟩

section Gathered
variable {root : JoinGraph} {paths paths' : List String} (h : Gathered s root paths g columns)
  (h' : Gathered s root paths' g' columns')
include h h'

/-- One path has one column on each side. -/
theorem sameColumn_of_gathered {c c' : Column} (hc : c ∈ columns) (hc' : c' ∈ columns')
    (hpath : c.path = c'.path) : SameColumn g g' c c' := by
  obtain ⟨path, -, r, hr, hreads⟩ := h.mem_columns hc
  obtain ⟨path', -, r', hr', hreads'⟩ := h'.mem_columns hc'
  rw [hreads.path, hreads'.path] at hpath
  subst hpath
  obtain rfl := Except.ok.inj (hr.symm.trans hr')
  exact sameColumn_of_reads hreads hreads'

/-- The scopes of columns with the same paths answer to each other. -/
theorem match_of_paths {shown shown' : List Column} (hshown : shown ⊆ columns)
    (hshown' : shown' ⊆ columns')
    (hsame : ∀ path, path ∈ shown.map (·.path) ↔ path ∈ shown'.map (·.path)) :
    Match g g' (scopesOf shown) (scopesOf shown') where
  forth a ha := by
    obtain ⟨c, hc, rfl⟩ := List.mem_map.1 ha
    obtain ⟨c', hc', hpath⟩ := List.mem_map.1 ((hsame _).1 (List.mem_map_of_mem hc))
    have hcolumn := sameColumn_of_gathered h h' (hshown hc) (hshown' hc') hpath.symm
    exact ⟨c'.scope, List.mem_map_of_mem hc', hcolumn.scope⟩
  back b hb := by
    obtain ⟨c', hc', rfl⟩ := List.mem_map.1 hb
    obtain ⟨c, hc, hpath⟩ := List.mem_map.1 ((hsame _).2 (List.mem_map_of_mem hc'))
    have hcolumn := sameColumn_of_gathered h h' (hshown hc) (hshown' hc') hpath
    exact ⟨c.scope, List.mem_map_of_mem hc, hcolumn.scope⟩

/-- What is required on one side answers to what is required on the other. -/
theorem match_of_gathered (hsame : ∀ path, path ∈ paths ↔ path ∈ paths') :
    Match g g' (scopesOf columns) (scopesOf columns') :=
  match_of_paths h h' (List.Subset.refl _) (List.Subset.refl _) fun path => by
    rw [h.map_path, h'.map_path, hsame]

end Gathered

/-- What is written of the matches of a join goes along with the join. -/
theorem demanded_across (hg : g.Homed s) (hg' : g'.Homed s) (hroot : g.root = g'.root)
    {scopes scopes' : List Nat} (hscopes : Match g g' scopes scopes') {l l' : Layout}
    (hl : l = ⟨g, (g.assign supply).1, g.flipNested [] (g.joinsTo scopes)⟩)
    (hl' : l' = ⟨g', (g'.assign supply).1, g'.flipNested [] (g'.joinsTo scopes')⟩)
    {j k : Nat} (hjk : Matches g g' (j + 1) (k + 1)) (e : Sql.Expr) :
    e ∈ demanded s l' k ↔ ∃ e' ∈ demanded s l j, e = e'.renamed (g.across g' supply) [] := by
  have hcarried := carried_across hg hg' hroot supply l.flipped l'.flipped
  subst hl hl'
  constructor
  · intro he
    obtain ⟨child', hchild', rfl⟩ := List.mem_map.1 he
    obtain ⟨child, hchild, hmatch⟩ := hjk.symm.exists_demand hg' hg hscopes.symm hchild'
    exact ⟨_, List.mem_map_of_mem hchild, (hcarried.matchExists hmatch.symm).symm⟩
  · rintro ⟨e', he', rfl⟩
    obtain ⟨child, hchild, rfl⟩ := List.mem_map.1 he'
    obtain ⟨child', hchild', hmatch⟩ := hjk.exists_demand hg hg' hscopes hchild
    rw [hcarried.matchExists hmatch]
    exact List.mem_map_of_mem hchild'

/-- **The order of resolution does not matter.** Paths that resolve do so in any order and as often
as one likes, and come to the same joins and columns, up to the numbers of joins and their
aliases. -/
theorem resolveEach_reordered {sources : List (String × Mapping.Document)}
    (hb : Schema.build sources = .ok s) (hnames : s.NamesApart) (root : Nat)
    (supply : AliasSupply) {paths paths' : List String}
    (hsame : ∀ path, path ∈ paths ↔ path ∈ paths')
    (hresolve : ∀ path ∈ paths, ∃ c, (resolve s (.ofRoot root) path).2 = .ok c) :
    ∃ g columns g' columns',
      resolveEach s (.ofRoot root) paths = .ok (g, columns) ∧
      resolveEach s (.ofRoot root) paths' = .ok (g', columns') ∧
      columns.map (·.path) = paths ∧ columns'.map (·.path) = paths' ∧
      (∀ c ∈ columns, ∀ c' ∈ columns', c.path = c'.path → SameColumn g g' c c') ∧
      SameJoins s (laidOut g columns supply) (laidOut g' columns' supply) := by
  have ht := hnames.tellsApart
  have hs := Schema.ascends hb
  obtain ⟨d, hbuilt⟩ := Schema.build_ok hb
  have hstart := JoinGraph.homed_ofRoot s root
  have hread : ∀ path ∈ paths, ∃ r, read s (JoinGraph.ofRoot root).root path = .ok r :=
    fun path hpath =>
      let ⟨c, hc⟩ := hresolve path hpath
      let ⟨r, hr, _⟩ := Member.read_of_resolve ht hs hbuilt.acyclic hstart hc
      ⟨r, hr⟩
  obtain ⟨g, columns, hrun⟩ := Member.exists_resolveEach ht hs hbuilt.acyclic hstart hread
  obtain ⟨g', columns', hrun'⟩ := Member.exists_resolveEach ht hs hbuilt.acyclic hstart
    fun path hpath => hread path ((hsame path).2 hpath)
  have hg := Member.resolveEach_gathered ht hs hbuilt.acyclic hstart hrun
  have hg' := Member.resolveEach_gathered ht hs hbuilt.acyclic hstart hrun'
  have hroot : g.root = g'.root := hg.grows.root.trans hg'.grows.root.symm
  have hscopes := match_of_gathered hg hg' hsame
  have htrails : ∀ t, g.Has t ↔ g'.Has t := fun t => by simp only [hg.has, hg'.has, hsame]
  refine ⟨g, columns, g', columns', hrun, hrun', hg.map_path, hg'.map_path,
    fun c hc c' hc' => sameColumn_of_gathered hg hg' hc hc', htrails, ?_, ?_⟩
  · exact fun j k hjk => hjk.kind_eq hg.homed hg'.homed hscopes
  · have hall : ∀ a ≤ g.joins.length, g'.Has (g.trail a) := fun a ha =>
      (htrails _).1 ⟨a, ha, rfl⟩
    refine ⟨g.across g' supply, rfl, JoinGraph.acrossJoin_injective hg.homed hg'.homed hall,
      fun a b hab => ?_, fun j k hjk =>
        demanded_across hg.homed hg'.homed hroot hscopes rfl rfl hjk⟩
    obtain ⟨key, htext, hname⟩ := (carried_across hg.homed hg'.homed hroot supply
      (laidOut g columns supply).flipped (laidOut g' columns' supply).flipped).text hab
    exact htext ▸ hname

/-- Names of regions, countries and customers that orders are for. -/
def customerPaths : List String :=
  ["max(Customer.Country.Region.Name)", "Customer.Name", "Customer.Country.Name"]

theorem resolveEach_reordered_customerPaths : ∃ g columns g' columns',
    resolveEach salesSchema (.ofRoot 0) customerPaths = .ok (g, columns) ∧
    resolveEach salesSchema (.ofRoot 0) (customerPaths.reverse ++ customerPaths) =
      .ok (g', columns') ∧
    SameJoins salesSchema (laidOut g columns {}) (laidOut g' columns' {}) := by
  have hresolve : ∀ path ∈ customerPaths,
      ∃ c, (resolve salesSchema (.ofRoot 0) path).2 = .ok c := by
    have hall : ∀ path ∈ customerPaths,
        ((resolve salesSchema (.ofRoot 0) path).2.toOption.map fun _ => true).getD false =
          true := by
      decide +kernel
    exact fun path hpath =>
      let ⟨c, hc, _⟩ := Except.exists_ok (fun _ => true) (hall path hpath)
      ⟨c, hc⟩
  have hsame : ∀ path, path ∈ customerPaths ↔ path ∈ customerPaths.reverse ++ customerPaths := by
    simp
  obtain ⟨g, columns, g', columns', hrun, hrun', -, -, -, hjoins⟩ :=
    resolveEach_reordered salesSchema_builds (by decide +kernel) 0 {} hsame hresolve
  exact ⟨g, columns, g', columns', hrun, hrun', hjoins⟩

end EntityQuery.Plan
