import EntityQuery.Proofs.JoinGraph.Flipped
import EntityQuery.Proofs.Plan.Groups
import EntityQuery.Proofs.Plan.Reordered
import EntityQuery.Proofs.Plan.Unqualified

/-! Groups without what is shown beside them.

A grouped query and one for its groups alone resolve the same keys, conditions and aggregates, and
so their derived tables are the same under a renaming of the joins' aliases, but for one thing.
Inner joins are flipped once for all joins of a statement, and thus a join inside the derived table
is also asked for the matches that a column shown beside the groups needs (`groups_beside`). -/
namespace EntityQuery.Plan

open Member (Column Gathered)
open JoinGraph (Match Matches)
open Sql (Expr Select Renaming)

variable {s : Schema} {g g' : JoinGraph} {ρ : Renaming} {l l' : Layout}

/-! ### Two resolutions -/

/-- Columns with the same paths are the same one by one. -/
theorem sameColumns {root : JoinGraph} {paths paths' : List String} {columns columns' : List Column}
    (h : Gathered s root paths g columns) (h' : Gathered s root paths' g' columns')
    {shown shown' : List Column} (hshown : shown ⊆ columns) (hshown' : shown' ⊆ columns')
    (hsame : shown.map (·.path) = shown'.map (·.path)) :
    List.Forall₂ (SameColumn g g') shown shown' := by
  induction shown generalizing shown' with
  | nil => rw [List.map_eq_nil_iff.1 hsame.symm]; exact .nil
  | cons c rest ih =>
    cases shown' with
    | nil => cases hsame
    | cons c' rest' =>
      obtain ⟨hpath, hrest⟩ := List.cons.inj hsame
      obtain ⟨hc, hshown⟩ := List.cons_subset.1 hshown
      obtain ⟨hc', hshown'⟩ := List.cons_subset.1 hshown'
      exact .cons (sameColumn_of_gathered h h' hc hc' hpath) (ih hshown hshown' hrest)

namespace Layout.Carried
variable (h : l.Carried s ρ (Matches g g') l') {shown shown' : List Column}
  (hshown : List.Forall₂ (SameColumn g g') shown shown')
include h hshown

theorem items : Sql.Item.allRenamed ρ (shown.map l.item) [] = shown'.map l'.item := by
  induction hshown with
  | nil => rfl
  | cons hc _ ih =>
    rw [List.map_cons, List.map_cons, Sql.Item.allRenamed, ih,
      h.item hc.scope hc.column hc.measure]

theorem exprs : Expr.allRenamed ρ (shown.map l.expr) [] = shown'.map l'.expr := by
  induction hshown with
  | nil => rfl
  | cons hc _ ih =>
    rw [List.map_cons, List.map_cons, Expr.allRenamed, ih, h.expr hc.scope hc.column hc.measure]

end Layout.Carried

/-- Once both graphs have taken their aliases, what is numbered later corresponds. -/
theorem corresponds_across (hg : g.Rooted) (g' : JoinGraph) (n : Numbering) :
    Corresponds (g.across g' n.aliases) (n.named g) (n.named g') where
  tables i := rfl
  joins i := by
    show g.acrossJoin g' n.aliases.joins (n.aliases.joins + g.joins.length + i) =
      n.aliases.joins + g'.joins.length + i
    rw [JoinGraph.acrossJoin_after hg (by omega)]
    omega
  params i := rfl

/-- A filter whose members are resolved on both sides compiles on one when it does on the other. -/
theorem filterExpr_across {f : Filter} (hmembers : ∀ c ∈ f.conditions,
      MemberCarried s ρ l l' c.member) {n n' m' : Numbering} (hn : Corresponds ρ n n')
    {filter' : Option Expr} (h : filterExpr s f l' n' = .ok (filter', m')) :
    ∃ filter m, filterExpr s f l n = .ok (filter, m) ∧ filter' = Expr.renamed? ρ filter [] ∧
      Advance Eq n m n' m' := by
  have hparallel := filterExpr_carried sameKind_of_eq (Filter.Alike.refl (fun _ => rfl) f) hmembers
  obtain ⟨⟨filter, m⟩, hfilter, hsame, hadvance⟩ := (hparallel n n' hn).ok_right h
  exact ⟨filter, m, hfilter, hsame, hadvance⟩

/-! ### Joins of the groups -/

/-- A join of the derived table against the same join of the groups alone. It is made with the same
kind, on the same key columns, and is asked for the same matches, but also for those that only
what is shown beside the groups needs. -/
structure JoinBeside (s : Schema) (ρ : Renaming) (l₀ l : Layout) (needed : List Nat) (k j : Nat) :
    Prop where
  kind : (join s l none j).kind = (join s l₀ none k).kind
  source : (join s l none j).source = (join s l₀ none k).source.renamed ρ []
  /-- The conditions are made of the key columns and of what is asked of matches. -/
  on : (join s l none j).on =
    (Expr.allOf? (keyConditions s l none j ++ demanded s l j)).getD Expr.never
  on₀ : (join s l₀ none k).on =
    (Expr.allOf? (keyConditions s l₀ none k ++ demanded s l₀ k)).getD Expr.never
  keys : keyConditions s l none j = Expr.allRenamed ρ (keyConditions s l₀ none k) []
  demanded : ∀ e, e ∈ demanded s l j ↔
    (∃ e₀ ∈ demanded s l₀ k, e = e₀.renamed ρ []) ∨
      ∃ child ∈ l.flipped, child ∉ needed ∧ l.graph.parent child = j + 1 ∧
        e = matchExists s l child

theorem mem_demanded {j : Nat} {e : Expr} : e ∈ demanded s l j ↔
    ∃ child ∈ l.flipped, l.graph.parent child = j + 1 ∧ e = matchExists s l child := by
  rw [demanded, List.mem_map]
  constructor
  · intro hmem
    obtain ⟨child, hchild, he⟩ := hmem
    obtain ⟨hflipped, hparent⟩ := JoinGraph.mem_demands.1 hchild
    exact ⟨child, hflipped, hparent, he.symm⟩
  · intro hmem
    obtain ⟨child, hflipped, hparent, he⟩ := hmem
    exact ⟨child, JoinGraph.mem_demands.2 ⟨hflipped, hparent⟩, he.symm⟩

theorem mem_joinsTo_append (hg : g.Rooted) {scopes more : List Nat} {j : Nat}
    (hj : j ∈ g.joinsTo scopes) : j ∈ g.joinsTo (scopes ++ more) := by
  obtain ⟨scope, hscope, hway⟩ := hg.mem_joinsTo.1 hj
  exact hg.mem_joinsTo.2 ⟨scope, List.mem_append_left _ hscope, hway⟩

theorem joinBeside {g₀ : JoinGraph} (hg₀ : g₀.Homed s) (hg : g.Homed s) (hroot : g₀.root = g.root)
    {supply : AliasSupply} {scopes₀ scopes more : List Nat} (hscopes : Match g₀ g scopes₀ scopes)
    {l₀ : Layout} (hl₀ : l₀ = ⟨g₀, (g₀.assign supply).1, g₀.flipNested [] (g₀.joinsTo scopes₀)⟩)
    (hl : l = ⟨g, (g.assign supply).1, g.flipNested [] (g.joinsTo (scopes ++ more))⟩) {k j : Nat}
    (hk : k ∈ g₀.joinsTo scopes₀) (hj : j ∈ g.joinsTo scopes)
    (hmatch : Matches g₀ g (k + 1) (j + 1)) :
    JoinBeside s (g₀.across g supply) l₀ l (g.joinsTo scopes) k j := by
  have hcarried := carried_across hg₀ hg hroot supply l₀.flipped l.flipped
  subst hl₀ hl
  refine ⟨?_, ?_, rfl, rfl, (hcarried.keyConditions hmatch).symm, fun e => ?_⟩
  · show g.kind _ j = g₀.kind _ k
    rw [hg.rooted.kind_flipNested hmatch.right (mem_joinsTo_append hg.rooted hj),
      hg₀.rooted.kind_flipNested hmatch.left hk, hmatch.underLeft]
  · simp only [join, hcarried.ofTable _ hmatch]
    exact congrArg (Sql.Source.ofTable · _) (congrArg tableOf (hcarried.entity hmatch))
  · rw [mem_demanded]
    constructor
    · intro hdemanded
      obtain ⟨child, hflipped, hparent, he⟩ := hdemanded
      by_cases hneeded : child ∈ g.joinsTo scopes
      · obtain ⟨child₀, hneeded₀, hchild⟩ := hscopes.symm.exists_needed hg hg₀ hneeded
        refine .inl ⟨_, mem_demanded.2 ⟨child₀, ?_, ?_, rfl⟩, ?_⟩
        · refine hg₀.rooted.mem_flipNested.2 ⟨hneeded₀, ?_⟩
          rw [hchild.symm.isNested hg₀.rooted hg.rooted]
          exact (hg.rooted.mem_flipNested.1 hflipped).2
        · have hparents := hchild.parent hg.rooted hg₀.rooted
          rw [hparent] at hparents
          exact hparents.right_unique hg₀ hmatch.symm
        · rw [he, hcarried.matchExists hchild.symm]
      · exact .inr ⟨child, hflipped, hneeded, hparent, he⟩
    · intro hdemanded
      rcases hdemanded with ⟨e₀, he₀, rfl⟩ | ⟨child, hflipped, -, hparent, he⟩
      · obtain ⟨child₀, hflipped₀, hparent₀, rfl⟩ := mem_demanded.1 he₀
        obtain ⟨hneeded₀, hnested₀⟩ := hg₀.rooted.mem_flipNested.1 hflipped₀
        obtain ⟨child, hneeded, hchild⟩ := hscopes.exists_needed hg₀ hg hneeded₀
        refine ⟨child, ?_, ?_, hcarried.matchExists hchild⟩
        · refine hg.rooted.mem_flipNested.2 ⟨mem_joinsTo_append hg.rooted hneeded, ?_⟩
          rw [← hchild.isNested hg₀.rooted hg.rooted]
          exact hnested₀
        · have hparents := hchild.parent hg₀.rooted hg.rooted
          rw [hparent₀] at hparents
          exact hparents.right_unique hg hmatch
      · exact ⟨child, hflipped, hparent, he⟩

/-! ### Groups -/

/-- The select of groups against that of the groups alone, whose joins it has in another order. -/
structure SameGroups (s : Schema) (ρ : Renaming) (l₀ l : Layout) (groups₀ groups : Select) :
    Prop where
  /-- The items, the root, the WHERE, the GROUP BY and the HAVING are the same. -/
  rest : groups = {groups₀.renamed ρ [] with joins := groups.joins}
  joins : ∃ needed₀ needed js : List Nat, groups₀.joins = needed₀.map (join s l₀ none) ∧
    groups.joins = needed.map (join s l none) ∧ js.Perm needed₀ ∧
    List.Forall₂ (JoinBeside s ρ l₀ l needed) js needed

section Two
variable (ht : s.TellsApart) (hs : s.Ascends) (hacyclic : s.Acyclic) {root : JoinGraph}
  {f : Filter} {grouping : Grouping} {paths₀ paths : List String}
  {asked₀ columns₀ asked columns : List Column} {c₀ c : GroupedColumns}
  (h₀ : Groups s root f grouping paths₀ asked₀ columns₀ c₀)
  (h : Groups s root f grouping paths asked columns c)
include h₀ h

/-- What is resolved for the groups alone is resolved for the others too. -/
theorem Groups.has (hwithin : paths₀ ⊆ groupPaths grouping.members paths) {a : Nat}
    (ha : a ≤ c₀.graph.joins.length) : c.graph.Has (c₀.graph.trail a) := by
  have hsubset : groupedPaths f grouping paths₀ ⊆ groupedPaths f grouping paths :=
    List.append_subset.2 ⟨fun path hpath => (h.read_inner (hwithin hpath)).1,
      List.subset_append_right ..⟩
  refine (h.gathered.has _).2 (((h₀.gathered.has _).1 ⟨a, ha, rfl⟩).imp_right ?_)
  exact fun ⟨path, hpath, hway⟩ => ⟨path, hsubset hpath, hway⟩

/-- What the groups need on one side answers to what they need on the other. -/
theorem Groups.scopes (hsame : groupPaths grouping.members paths₀ =
      groupPaths grouping.members paths) :
    Match c₀.graph c.graph (scopesOf (c₀.inner ++ c₀.filtered))
      (scopesOf (c.inner ++ c.filtered)) := by
  refine match_of_paths h₀.gathered h.gathered
    (List.append_subset.2 ⟨h₀.inner_subset, h₀.filtered_subset⟩)
    (List.append_subset.2 ⟨h.inner_subset, h.filtered_subset⟩) fun path => ?_
  rw [List.map_append, List.map_append, h₀.inner, h.inner, h₀.filtered, h.filtered, hsame]

include ht hs hacyclic in
/-- The member of a condition goes from one layout to the other. -/
theorem Groups.memberCarried (hcarried : l.Carried s ρ (Matches c₀.graph c.graph) l')
    (hgraph₀ : l.graph = c₀.graph) (hgraph : l'.graph = c.graph) {test : Condition}
    (htest : test ∈ f.conditions ++ grouping.having.conditions) :
    MemberCarried s ρ l l' test.member := by
  have hpath := List.mem_map_of_mem (f := (·.member)) htest
  obtain ⟨column₀, hcolumn₀, hpath₀⟩ := List.mem_map.1 (h₀.filtered ▸ hpath)
  obtain ⟨column, hcolumn, hpath⟩ := List.mem_map.1 (h.filtered ▸ hpath)
  have hmem₀ := h₀.filtered_subset hcolumn₀
  have hmem := h.filtered_subset hcolumn
  have hsame := sameColumn_of_gathered h₀.gathered h.gathered hmem₀ hmem (hpath₀.trans hpath.symm)
  refine ⟨?_⟩
  rw [memberExpr, memberExpr, hgraph₀, hgraph, ← hpath₀,
    h₀.gathered.again ht hs hacyclic hmem₀, hpath₀, ← hpath,
    h.gathered.again ht hs hacyclic hmem]
  exact .ok (hcarried.expr hsame.scope hsame.column hsame.measure).symm

/-- The selects of groups are the same but for the joins, when their filters are. -/
theorem Groups.select_rest (hcarried : l.Carried s ρ (Matches c₀.graph c.graph) l')
    (hsame : groupPaths grouping.members paths₀ = groupPaths grouping.members paths)
    {filter₀ having₀ filter having : Option Expr} (hfilter : filter = Expr.renamed? ρ filter₀ [])
    (hhaving : having = Expr.renamed? ρ having₀ []) :
    groupsSelect s l' c filter having =
      { (groupsSelect s l c₀ filter₀ having₀).renamed ρ [] with
        joins := (groupsSelect s l' c filter having).joins } := by
  have hitems := hcarried.items (sameColumns h₀.gathered h.gathered h₀.inner_subset
    h.inner_subset (by rw [h₀.inner, h.inner, hsame]))
  have hgroupBy := hcarried.exprs (sameColumns h₀.gathered h.gathered h₀.keys_subset
    h.keys_subset (h₀.keys.trans h.keys.symm))
  rw [renamed_of_no_derived _ (derivedNames_joins ..)]
  simp only [groupsSelect, Select.of, hitems, hgroupBy, hcarried.rootTable (Matches.root ..),
    hfilter, hhaving, Sql.OrderBy.allRenamed]

include ht hs hacyclic in
/-- Where the groups compile they compile alone, to the same select but for the joins. -/
theorem Groups.exists_selects
    (hwithin : paths₀ ⊆ groupPaths grouping.members paths)
    (hsame : groupPaths grouping.members paths₀ = groupPaths grouping.members paths)
    (sorted₀ : List (Column × Direction)) {sorted : List (Column × Direction)}
    {shown count : Select} {n' : Numbering}
    (hselects : groupedSelects s c f grouping sorted {} = .ok ((l, shown, count), n')) :
    ∃ l₀ shown₀ count₀ n₀,
      groupedSelects s c₀ f grouping sorted₀ {} = .ok ((l₀, shown₀, count₀), n₀) ∧
      n₀.params = n'.params ∧ ∃ derived groups₀ groups ρ, ρ.table = some ∧ ρ.placeholder = id ∧
        Function.Injective ρ.join ∧ shown₀.source = .derived groups₀ derived ∧
        shown.source = .derived groups derived ∧ SameGroups s ρ l₀ l groups₀ groups := by
  obtain ⟨filter, m, having, m', hl, hfilter, hhaving, rfl, rfl, rfl⟩ :=
    groupedSelects_ok hselects
  have hg₀ := h₀.gathered.homed
  have hg := h.gathered.homed
  have hroot : c₀.graph.root = c.graph.root :=
    h₀.gathered.grows.root.trans h.gathered.grows.root.symm
  have hnothing := h₀.beside_eq_nil (hsame ▸ hwithin)
  obtain ⟨l₀, hl₀⟩ : ∃ l₀, l₀ = laidOut c₀.graph (c₀.inner ++ c₀.filtered) {} := ⟨_, rfl⟩
  have hcarried : l₀.Carried s (c₀.graph.across c.graph {}) (Matches c₀.graph c.graph) l := by
    rw [hl₀, hl]
    exact carried_across hg₀ hg hroot {} _ _
  have hinjective : Function.Injective (c₀.graph.acrossJoin c.graph 0) :=
    JoinGraph.acrossJoin_injective hg₀ hg fun a ha => h₀.has h hwithin ha
  have hmembers : ∀ test ∈ f.conditions ++ grouping.having.conditions,
      MemberCarried s (c₀.graph.across c.graph {}) l₀ l test.member := fun test htest =>
    h₀.memberCarried ht hs hacyclic h hcarried (by rw [hl₀]; rfl) (by rw [hl]; rfl) htest
  obtain ⟨hconditions, htests⟩ := List.forall_mem_append.1 hmembers
  rw [← List.append_nil (c₀.inner ++ c₀.filtered), ← hnothing] at hl₀
  have hn := corresponds_across hg₀.rooted c.graph {}
  obtain ⟨filter₀, m₀, hfilter₀, hsameFilter, hadvance⟩ := filterExpr_across hconditions hn hfilter
  obtain ⟨having₀, m₀', hhaving₀, hsameHaving, hadvance'⟩ :=
    filterExpr_across htests (hn.advance hadvance) hhaving
  have hall := hadvance.trans hadvance'
  have hderived : tableAlias m'.aliases.tables = tableAlias m₀'.aliases.tables := by
    obtain ⟨k, hk₀, hk⟩ := hall.tables
    rw [hk₀, hk]
    rfl
  refine ⟨l₀, _, _, _, groupedSelects_of_ok hl₀ hfilter₀ hhaving₀, (hall.params_eq rfl).symm,
    tableAlias m₀'.aliases.tables, groupsSelect s l₀ c₀ filter₀ having₀,
    groupsSelect s l c filter having, c₀.graph.across c.graph {}, rfl, rfl, hinjective, rfl,
    hderived ▸ rfl, h₀.select_rest h hcarried hsame hsameFilter hsameHaving, ?_⟩
  have hscopes := h₀.scopes h hsame
  obtain ⟨js, hperm, hjs⟩ := hscopes.symm.exists_perm hg hg₀
  refine ⟨_, _, js, rfl, rfl, hperm, hjs.imp fun k j ⟨hj, hk, hmatch⟩ => ?_⟩
  exact joinBeside hg₀ hg hroot hscopes (by rw [hl₀, hnothing, List.append_nil]; rfl)
    (by rw [hl, laidOut, scopesOf, List.map_append]; rfl) hk hj hmatch.symm

end Two

/-- An entity that is found by its name stands at its position. -/
theorem entity_of_named {d : Schema.Draft} (hb : Schema.Built d s) {name : String} {e : Entity}
    (he : entityNamed s name = .ok e) : s.entity e.id = e := by
  have hfound : s.entity? name = some e := by
    rw [entityNamed, Except.mapError_eq_ok, Schema.resolve] at he
    cases hentity : s.entity? name with
    | none => simp [hentity] at he
    | some found =>
      rw [hentity] at he
      rw [Except.ok.inj he]
  obtain ⟨id, hid, rfl⟩ := hb.mem_entities.1 (List.mem_of_find?_eq_some hfound)
  rw [hb.entity_id hid]

/-- **What is shown beside groups.** Let a grouped query compile, over a schema whose entities tell
their navigations apart. There is a query that shows its groups alone, and every such query
compiles, with the same parameters. The derived tables of the two, their placeholders included, are
the same up to the aliases and the order of joins, but that a join of the first may be asked for
more: that its matches have matches for the flipped joins which the groups do not need themselves
and which hang off it. -/
theorem groups_beside {sources : List (String × Mapping.Document)}
    (hb : Schema.build sources = .ok s) (ht : s.TellsApart) {q : Query} {grouping : Grouping}
    (hgrouping : q.grouping = some grouping) {e : Entity} (he : entityNamed s q.entity = .ok e)
    {plan : CompiledQuery} (hplan : Plan.select s q = .ok plan) :
    (q.ofGroups s e grouping).AsksGroupsOf s e grouping q ∧
    ∀ q₀ : Query, q₀.AsksGroupsOf s e grouping q → ∃ plan₀, Plan.select s q₀ = .ok plan₀ ∧
      plan₀.params = plan.params ∧ ∃ derived groups₀ groups ρ, ρ.table = some ∧
        ρ.placeholder = id ∧ Function.Injective ρ.join ∧
        plan₀.select.source = .derived groups₀ derived ∧
        plan.select.source = .derived groups derived ∧
        SameGroups s ρ plan₀.layout plan.layout groups₀ groups := by
  have hs := Schema.ascends hb
  obtain ⟨d, hbuilt⟩ := Schema.build_ok hb
  obtain ⟨n, hrun, hparams⟩ := select_ok hplan
  obtain ⟨asked, columns, c, sorted, h, hselects⟩ :=
    groups_of_querySelects ht hs hbuilt.acyclic hgrouping he hrun
  refine ⟨h.asksGroupsOf (entity_of_named hbuilt he) hgrouping, fun q₀ hq₀ => ?_⟩
  have hread : ∀ path ∈ groupedPaths q₀.filter grouping (q₀.asked s e),
      ∃ r, Member.read s e.id path = .ok r := by
    rw [hq₀.filter]
    intro path hpath
    rcases List.mem_append.1 hpath with hpath | hpath
    · exact (h.read_inner (hq₀.within hpath)).2
    · obtain ⟨column, -, r, hr, -⟩ := h.gathered.mem_paths (List.mem_append_right _ hpath)
      exact ⟨r, hr⟩
  obtain ⟨asked₀, columns₀, c₀, sorted₀, h₀, hforward⟩ := exists_groups ht hs hbuilt.acyclic
    hq₀.grouped (hq₀.entity ▸ he) hread (hq₀.same ▸ hq₀.within)
  rw [hq₀.filter] at h₀ hforward
  obtain ⟨l₀, shown₀, count₀, n₀, hselects₀, hsame, hgroups⟩ :=
    h₀.exists_selects ht hs hbuilt.acyclic h hq₀.within hq₀.same sorted₀ hselects
  refine ⟨⟨shown₀, count₀, n₀.params, l₀⟩, ?_, hsame.trans hparams.symm, hgroups⟩
  simp only [Plan.select, StateT.run, Except.bind_eq_ok, Except.pure_eq_ok]
  exact ⟨_, hforward hselects₀, rfl⟩

/-- The groups of orders by customer do not need the country that is shown beside them. -/
theorem groups_beside_ordersByCustomer : ∃ plan plan₀ groups₀ groups derived ρ,
    Plan.select salesSchema ordersByCustomer = .ok plan ∧
    Plan.select salesSchema (ordersByCustomer.ofGroups salesSchema (salesSchema.entity 0)
      ⟨["CustomerId"], .condition ⟨"count(0)", .greater, .value (.int32 1)⟩⟩) = .ok plan₀ ∧
    plan₀.params = plan.params ∧ plan₀.select.source = .derived groups₀ derived ∧
    plan.select.source = .derived groups derived ∧
    SameGroups salesSchema ρ plan₀.layout plan.layout groups₀ groups := by
  obtain ⟨plan, hplan, -⟩ := Except.exists_ok (x := Plan.select salesSchema ordersByCustomer)
    (fun _ => true) (by decide +kernel)
  have hnames : salesSchema.NamesApart := by decide +kernel
  obtain ⟨hasks, hall⟩ := groups_beside salesSchema_builds hnames.tellsApart
    (q := ordersByCustomer) rfl (e := salesSchema.entity 0) rfl hplan
  obtain ⟨plan₀, hplan₀, hparams, derived, groups₀, groups, ρ, -, -, -, hgroups₀, hgroups, hsame⟩ :=
    hall _ hasks
  exact ⟨plan, plan₀, groups₀, groups, derived, ρ, hplan, hplan₀, hparams, hgroups₀, hgroups, hsame⟩

/-- Orders by the names of their customers, with the countries of these. -/
def ordersByName : Query where
  entity := "Order"
  filter := .everything
  members := ["CustomerId", "Customer.Name", "Customer.Country.Name"]
  sorting := []
  grouping := some ⟨["CustomerId", "Customer.Name"], .everything⟩
  paging := none

/-- Showing the country changes the groups: a customer without one has no name among them. -/
theorem ordersByName_asked_beside :
    (∃ plan groups country, Plan.select salesSchema ordersByName = .ok plan ∧
      plan.select.source = .derived groups "T1" ∧ groups.joins.map (·.on) =
        [.and [.equal (.qualified "T" "CustomerId") (.qualified "J0" "Id"), .hasRow country]]) ∧
    ∃ plan groups, Plan.select salesSchema (ordersByName.ofGroups salesSchema
        (salesSchema.entity 0) ⟨["CustomerId", "Customer.Name"], .everything⟩) = .ok plan ∧
      plan.select.source = .derived groups "T1" ∧ groups.joins.map (·.on) =
        [.equal (.qualified "T" "CustomerId") (.qualified "J0" "Id")] :=
  ⟨⟨_, _, _, rfl, rfl, rfl⟩, _, _, rfl, rfl, rfl⟩

end EntityQuery.Plan
