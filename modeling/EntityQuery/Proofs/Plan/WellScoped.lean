import EntityQuery.Proofs.Plan.Scoping

/-! Compiled selects are well scoped.

A grouped query reads its groups through a derived table. What stands beside the groups is joined
to that table by the root's key columns, which are among the group keys; that is what
`checkBeside` is for. -/
namespace EntityQuery.Plan

open Member (Column Found)
open Sql (Expr Select Visible Place)

variable {s : Schema} {l : Layout} {n m n' : Numbering}

/-! ### Groups -/

/-- The columns of a grouped query are in its graph, and the root's side of what stands beside the
groups is among the keys. -/
structure Grouped (s : Schema) (c : GroupedColumns) (f : Filter) (grouping : Grouping)
    (sorted : List Column) : Prop where
  inner : ∀ column ∈ c.inner, column.scope ≤ c.graph.joins.length
  keys : ∀ column ∈ c.keys, column ∈ c.inner
  beside : ∀ column ∈ c.beside ++ c.besideSorted, column.scope ≤ c.graph.joins.length ∧
    checkBeside s c.graph c.keys column = .ok ()
  sorted : ∀ column ∈ sorted, c.inner.contains column = false → column ∈ c.besideSorted
  found : ∃ g, Found s g ((f.conditions ++ grouping.having.conditions).map (·.member)) c.graph
    c.filtered

theorem resolveGrouped_grouped (hs : s.Acyclic) {g : JoinGraph} (hg : g.Rooted) {f : Filter}
    {grouping : Grouping} {display sorted : List Column} {c : GroupedColumns}
    (hcolumns : ∀ column ∈ display ++ sorted, column.scope ≤ g.joins.length)
    (h : resolveGrouped s g f grouping display sorted = .ok c) : Grouped s c f grouping sorted := by
  obtain ⟨keyed, filtered, having, conditions, tested, rowCount, hkeys, hconditions, htested,
    hrowCount, hinner, hfiltered, hbeside, hbesideSorted, hchecked⟩ := resolveGrouped_ok h
  have hkeyed := Member.resolveEach_found hs hg hkeys
  have hfilter := resolveConditions_found hs hkeyed.rooted hconditions
  have hhaving := resolveConditions_found hs hfilter.rooted htested
  have hcount := Member.resolve_found hs hhaving.rooted hrowCount
  have hgrown := hhaving.grows.trans hcount.grows
  have hall : g.Grows c.graph := hkeyed.grows.trans (hfilter.grows.trans hgrown)
  have hasked : ∀ column ∈ display ++ sorted, column.scope ≤ c.graph.joins.length :=
    fun column hcolumn => Nat.le_trans (hcolumns column hcolumn) hall.length_le
  have hsubset : ∀ column ∈ c.beside ++ c.besideSorted, column ∈ display ++ sorted := by
    intro column hcolumn
    rw [hbeside, hbesideSorted, ← List.filter_append] at hcolumn
    exact List.mem_of_mem_filter hcolumn
  refine ⟨fun column hcolumn => ?_, fun column hcolumn => ?_,
    fun column hcolumn => ⟨hasked column (hsubset column hcolumn), hchecked column hcolumn⟩,
    fun column hcolumn hnot => ?_, keyed, ?_⟩
  · rw [hinner] at hcolumn
    obtain hkey | hcolumn | rfl := mem_innerColumns hcolumn
    · exact Nat.le_trans (hkeyed.bounded column hkey) (hfilter.grows.trans hgrown).length_le
    · exact hasked column hcolumn
    · exact hcount.bounded column (List.mem_singleton_self _)
  · exact hinner ▸ key_mem_innerColumns hcolumn
  · rw [hbesideSorted]
    exact List.mem_filter.2 ⟨hcolumn, by rw [hnot]; rfl⟩
  · rw [List.map_append, hfiltered]
    exact (hfilter.append hhaving).later hcount.grows hcount.rooted

/-- The select of the groups without what it shows. -/
def groupsBase (s : Schema) (l : Layout) (c : GroupedColumns) (filter having : Option Expr) :
    Select :=
  { Select.of (rootTable s l) with
    joins := (l.graph.joinsTo (scopesOf (c.inner ++ c.filtered))).map (join s l none)
    filter
    groupBy := c.keys.map l.expr
    having }

theorem joins_groupsBase (s : Schema) (l : Layout) (c : GroupedColumns)
    (filter having : Option Expr) :
    Joins s l none (tableAt l 0) (scopesOf (c.inner ++ c.filtered))
      (groupsBase s l c filter having) :=
  ⟨Sql.visible_ofTable _ _, rfl⟩

section Groups
variable {c : GroupedColumns} {f : Filter} {grouping : Grouping} {sorted : List Column}
  (hs : s.Acyclic) (hc : Grouped s c f grouping sorted) (hl : Laid l n.aliases)
  (hgraph : l.graph = c.graph)
include hs hc hl hgraph

theorem scoped_groups {filter having : Option Expr}
    (hfilter : filterExpr s f l (n.named l.graph) = .ok (filter, m))
    (hhaving : filterExpr s grouping.having l m = .ok (having, n')) {around : List String}
    (hprobes : ∀ j < l.graph.joins.length, l.aliasName (j + 1) ++ "X" ∉ around)
    (hclear : Clear (l.graph.assign n.aliases).2 n'.aliases around) :
    (groupsSelect s l c filter having).Scoped [] [] around := by
  obtain ⟨g, hfound⟩ := hc.found
  rw [← hgraph] at hfound
  have hbase := joins_groupsBase s l c filter having
  have hreads : ∀ column ∈ c.inner ++ c.filtered, column.scope ≤ l.graph.joins.length ∧
      tableAt l column.scope ∈ ((groupsBase s l c filter having).inside [] around).sources := by
    intro column hcolumn
    have hle : column.scope ≤ l.graph.joins.length := by
      rcases List.mem_append.1 hcolumn with hcolumn | hcolumn
      · exact hgraph ▸ hc.inner column hcolumn
      · exact hfound.bounded column hcolumn
    refine ⟨hle, List.mem_append_left _ ?_⟩
    rw [hbase.sources]
    exact hl.tableAt_mem hle (List.mem_map_of_mem hcolumn) fun _ => rfl
  have hmembers := Found.members hfound hl fun column hcolumn =>
    (hreads column (List.mem_append_right _ hcolumn)).2
  have hfits := filterExpr_fits hs hfilter
  have hfits' := filterExpr_fits hs hhaving
  have hscoped : (groupsBase s l c filter having).Scoped [] [] around := by
    refine hl.scoped_root hbase rfl ⟨rfl, rfl⟩ (fun _ _ => List.not_mem_nil) hprobes hclear
      fun hlater => ⟨fun e he => ?_, fun e he => ?_, fun e he => ?_⟩
    · refine hfits.stands ((groupsBase s l c filter having).inside [] around)
        (hlater.mono (le_refl _) hfits'.grows) (fun condition hcondition => ?_) e
        (Option.mem_toList.2 he)
      exact hmembers condition.member (List.mem_map_of_mem (List.mem_append_left _ hcondition))
    · obtain ⟨key, hkey, rfl⟩ := List.mem_map.1 he
      obtain ⟨hle, hmem⟩ := hreads key (List.mem_append_left _ (hc.keys key hkey))
      exact hl.scoped_expr hle hmem
    · refine hfits'.stands ((groupsBase s l c filter having).inside [] around)
        (hlater.mono hfits.grows (le_refl _)) (fun condition hcondition => ?_) e
        (Option.mem_toList.2 he)
      exact hmembers condition.member (List.mem_map_of_mem (List.mem_append_right _ hcondition))
  have hshown := hscoped.showing (c.inner.map l.item) [] none (fun i hi => ?_) (by simp)
  · rw [groupsSelect, ← hgraph]
    exact hshown
  · obtain ⟨column, hcolumn, rfl⟩ := List.mem_map.1 hi
    obtain ⟨hle, hmem⟩ := hreads column (List.mem_append_left _ hcolumn)
    exact hl.shows_item hle hmem _

end Groups

/-! ### Beside the groups -/

theorem resultNames_groups (l : Layout) (c : GroupedColumns) (filter having : Option Expr) :
    (groupsSelect s l c filter having).resultNames = c.inner.map l.resultName := by
  rw [Select.resultNames, groupsSelect, List.filterMap_map]
  simp [Function.comp_def, Sql.Item.resultName?, Layout.item, Column.item, Layout.resultName]

/-- The groups have the key columns that joins from the root are made by. -/
theorem groups_offer_key {l : Layout} {c : GroupedColumns} {filter having : Option Expr}
    {derived column : String} (hkeys : ∀ key ∈ c.keys, key ∈ c.inner)
    (h : isGroupKey c.keys column = true) :
    Visible.offers ⟨derived, some (groupsSelect s l c filter having).resultNames⟩
      s!"{l.aliasName 0}_{column}" := by
  intro names hnames
  obtain rfl := Option.some.inj hnames
  simp only [isGroupKey, List.any_eq_true, Bool.and_eq_true, beq_iff_eq, Bool.not_eq_true',
    Column.isAggregate, bne_eq_false_iff_eq] at h
  obtain ⟨key, hkey, ⟨hscope, hmeasure⟩, hname⟩ := h
  rw [resultNames_groups]
  refine ⟨l.resultName key, List.mem_map_of_mem (hkeys key hkey), ?_⟩
  have hresult : l.resultName key = l.aliasName 0 ++ "_" ++ key.column := by
    simp [Layout.resultName, Column.resultName, hmeasure, hscope, Layout.aliasName, toString]
  have hasked : s!"{l.aliasName 0}_{column}" = l.aliasName 0 ++ "_" ++ column := by
    simp [toString]
  rw [hresult, hasked]
  exact Text.sameName_append _ hname

/-- The select around the groups without what it shows. -/
def besideBase (s : Schema) (l : Layout) (c : GroupedColumns) (groups : Select) (derived : String) :
    Select :=
  { Select.of (.derived groups derived) with
    joins := (l.graph.joinsTo (scopesOf (c.beside ++ c.besideSorted))).map
      (join s l (some derived)) }

theorem joins_besideBase (s : Schema) (l : Layout) (c : GroupedColumns) (groups : Select)
    (derived : String) :
    Joins s l (some derived) ⟨derived, some groups.resultNames⟩
      (scopesOf (c.beside ++ c.besideSorted)) (besideBase s l c groups derived) :=
  ⟨rfl, rfl⟩

section Beside
variable {c : GroupedColumns} {f : Filter} {grouping : Grouping}
  {sorted : List (Column × Direction)} (hc : Grouped s c f grouping (sorted.map Prod.fst))
  (hl : Laid l n.aliases) (hgraph : l.graph = c.graph)
include hc hl hgraph

/-- A column beside the groups stands behind a join from the root, whose keys the groups have. -/
theorem beside_scope {column : Column} (hcolumn : column ∈ c.beside ++ c.besideSorted) :
    column.scope ≠ 0 ∧ ∀ j ∈ l.graph.rootPath column.scope, l.graph.parent j = 0 →
      ∀ pair ∈ (navigationOf l.graph j).keys,
        isGroupKey c.keys ((l.graph.entity s 0).columnOf pair.source) = true := by
  obtain ⟨first, hfirst, hkeys⟩ := checkBeside_ok (hc.beside column hcolumn).2
  rw [← hgraph] at hfirst hkeys
  refine ⟨fun hzero => ?_, fun j hj hparent => ?_⟩
  · rw [hzero, JoinGraph.rootPath_zero] at hfirst
    exact absurd hfirst (by simp)
  · rw [hl.rooted.head?_rootPath hj hparent] at hfirst
    exact Option.some.inj hfirst ▸ hkeys

/-- The groups are named when all of their parts are, so that the name is new among these. -/
theorem scoped_besideBase (hs : s.Acyclic) {filter having : Option Expr}
    (hfilter : filterExpr s f l (n.named l.graph) = .ok (filter, m))
    (hhaving : filterExpr s grouping.having l m = .ok (having, n')) :
    (besideBase s l c (groupsSelect s l c filter having)
      (tableAlias n'.aliases.tables)).Scoped [] [] [] := by
  have hgrows : (l.graph.assign n.aliases).2 ≤ n'.aliases :=
    le_trans (filterExpr_fits hs hfilter).grows (filterExpr_fits hs hhaving).grows
  have htaken := HandedOut.freshTable n'.aliases
  have hlate : ∀ {name}, HandedOut n.aliases (l.graph.assign n.aliases).2 name →
      tableAlias n'.aliases.tables ≠ name :=
    fun hout heq => hout.not_later hgrows (heq ▸ htaken)
  have hbase := joins_besideBase s l c (groupsSelect s l c filter having)
    (tableAlias n'.aliases.tables)
  refine hl.scoped_select hbase ⟨rfl, rfl⟩ htaken.ne_empty (fun j hj => hlate (hl.handedOut hj))
    (fun j hj => hlate (hl.probe_handedOut hj)) (by simp) (by simp)
    (fun j hj hparent pair hpair p hroot => ?_) (fun inner name hsource => ?_)
    (by simp [besideBase, Select.of]) (by simp [besideBase, Select.of])
    (by simp [besideBase, Select.of])
  · obtain ⟨scope, hscope, hway⟩ := hl.rooted.mem_joinsTo.1 hj
    obtain ⟨column, hcolumn, rfl⟩ := List.mem_map.1 hscope
    exact Sql.scoped_qualified (v := ⟨_, _⟩) htaken.ne_empty hroot
      (groups_offer_key hc.keys ((beside_scope hc hl hgraph hcolumn).2 j hway hparent pair hpair))
  · obtain ⟨rfl, rfl⟩ := Sql.Source.derived.inj hsource
    rw [List.nil_append, hbase.aliases]
    refine scoped_groups hs hc hl hgraph hfilter hhaving (fun j hj hmem => ?_) fun name hname => ?_
    · obtain heq | ⟨k, hk, heq⟩ := hl.mem_aliasesTo hmem
      · exact hlate (hl.probe_handedOut hj) heq.symm
      · exact hl.ne_probe (k + 1) j heq.symm
    · obtain rfl | ⟨k, hk, rfl⟩ := hl.mem_aliasesTo hname
      · exact fun hout => hout.not_later (le_refl _) htaken
      · exact (hl.handedOut hk).not_later (le_refl _)

/-- The select around the groups reads the columns beside them in its joins. -/
theorem beside_reads (groups : Select) (derived : String) {column : Column}
    (hcolumn : column ∈ c.beside ++ c.besideSorted) : column.scope ≤ l.graph.joins.length ∧
      tableAt l column.scope ∈ ((besideBase s l c groups derived).inside [] []).sources := by
  have hle : column.scope ≤ l.graph.joins.length := hgraph ▸ (hc.beside column hcolumn).1
  refine ⟨hle, List.mem_append_left _ ?_⟩
  rw [(joins_besideBase s l c groups derived).sources]
  exact hl.tableAt_mem hle (List.mem_map_of_mem hcolumn)
    fun hzero => absurd hzero (beside_scope hc hl hgraph hcolumn).1

/-- What a grouped query is sorted by is a column of its groups, or else of a table beside them. -/
theorem scoped_outerOrder {filter having : Option Expr} {derived : String} (hne : derived ≠ "") :
    ∀ o ∈ outerOrder l derived c.inner sorted, o.expr.Scoped
      ((besideBase s l c (groupsSelect s l c filter having) derived).inside [] []) := by
  intro o ho
  obtain ⟨⟨column, direction⟩, hcolumn, rfl⟩ := List.mem_map.1 ho
  show (if c.inner.contains column then
    Expr.qualified derived (l.resultName column) else l.expr column).Scoped _
  by_cases hinner : c.inner.contains column = true
  · rw [if_pos hinner]
    refine Sql.scoped_qualified (v := ⟨_, some (groupsSelect s l c filter having).resultNames⟩) hne
      (List.mem_append_left _ (List.mem_cons_self ..)) ?_
    intro names hnames
    obtain rfl := Option.some.inj hnames
    rw [resultNames_groups]
    exact ⟨l.resultName column, List.mem_map_of_mem (List.contains_iff_mem.1 hinner),
      Text.sameName_refl _⟩
  · rw [if_neg hinner]
    have hbeside := hc.sorted column (List.mem_map_of_mem hcolumn) (Bool.not_eq_true _ ▸ hinner)
    obtain ⟨hle, hmem⟩ := beside_reads hc hl hgraph (groupsSelect s l c filter having) derived
      (List.mem_append_right _ hbeside)
    exact hl.scoped_expr hle hmem

theorem scoped_beside (hs : s.Acyclic) {filter having : Option Expr}
    (hfilter : filterExpr s f l (n.named l.graph) = .ok (filter, m))
    (hhaving : filterExpr s grouping.having l m = .ok (having, n')) :
    (besideSelect s l c (groupsSelect s l c filter having) (tableAlias n'.aliases.tables)
      sorted).WellScoped := by
  have hne := (HandedOut.freshTable n'.aliases).ne_empty
  have hshown := (scoped_besideBase hc hl hgraph hs hfilter hhaving).showing
    (c.beside.map l.item ++ [.wildcard (tableAlias n'.aliases.tables)])
    (outerOrder l (tableAlias n'.aliases.tables) c.inner sorted) none (fun i hi => ?_)
    (scoped_outerOrder hc hl hgraph hne)
  · rw [besideSelect, ← hgraph]
    exact hshown
  · rcases List.mem_append.1 hi with hi | hi
    · obtain ⟨column, hcolumn, rfl⟩ := List.mem_map.1 hi
      obtain ⟨hle, hmem⟩ := beside_reads hc hl hgraph (groupsSelect s l c filter having) _
        (List.mem_append_left _ hcolumn)
      exact hl.shows_item hle hmem _
    · obtain rfl := List.mem_singleton.1 hi
      show tableAlias n'.aliases.tables ∈ Select.aliases _
      rw [(joins_besideBase s l c _ _).aliases]
      exact List.mem_cons_self ..

end Beside

/-! ### Requests -/

theorem groupedSelects_scoped (hs : s.Acyclic) {c : GroupedColumns} {f : Filter}
    {grouping : Grouping} {sorted : List (Column × Direction)} {shown count : Select}
    (hc : Grouped s c f grouping (sorted.map Prod.fst)) (hg : c.graph.Rooted)
    (h : groupedSelects s c f grouping sorted n = .ok ((l, shown, count), n')) :
    shown.WellScoped ∧ count.WellScoped := by
  obtain ⟨filter, m, having, m', hlaid, hfilter, hhaving, rfl, rfl, -⟩ := groupedSelects_ok h
  have hl : Laid l n.aliases := hlaid ▸ laid_laidOut hg _ n.aliases
  have hgraph : l.graph = c.graph := by rw [hlaid]; rfl
  rw [← hgraph] at hfilter
  refine ⟨scoped_beside hc hl hgraph hs hfilter hhaving, ?_⟩
  have htaken := HandedOut.freshTable m'.aliases
  have hgrows : (l.graph.assign n.aliases).2 ≤ m'.aliases :=
    le_trans (filterExpr_fits hs hfilter).grows (filterExpr_fits hs hhaving).grows
  refine scoped_ofDerived htaken.ne_empty List.not_mem_nil
    (scoped_groups hs hc hl hgraph hfilter hhaving (fun j hj hmem => ?_) fun name hname => ?_)
    fun i hi => ?_
  · exact (hl.probe_handedOut hj).not_later hgrows (List.mem_singleton.1 hmem ▸ htaken)
  · obtain rfl := List.mem_singleton.1 hname
    exact fun hout => hout.not_later (le_refl _) htaken
  · obtain rfl := List.mem_singleton.1 hi
    exact ⟨.countAll, by simp⟩

theorem querySelects_scoped (hs : s.Acyclic) {q : Query} {shown count : Select}
    (h : querySelects s q n = .ok ((l, shown, count), n')) :
    shown.WellScoped ∧ count.WellScoped := by
  obtain ⟨e, g, display, grown, sorted, -, hdisplay, hsorted, hcases⟩ := querySelects_ok h
  have hshown := Member.resolveEach_found hs (JoinGraph.rooted_ofRoot e.id) hdisplay
  have hall := hshown.append (resolveSorting_found hs hshown.rooted hsorted)
  obtain ⟨inner, -, hfiltered, rfl, rfl⟩ | ⟨grouping, c, -, hc, hgrouped⟩ := hcases
  · have hu := filtered_underlaid hs hall.rooted hall.bounded hfiltered fun _ _ _ =>
      filterExpr_fits hs
    have hbase := hu.stands [] [] (List.Subset.refl _) Clear.nil
    constructor
    · refine hbase.showing _ _ inner.limit (fun i hi => ?_)
        (hu.sorts (fun c hc => List.mem_append_right _ hc) [])
      obtain ⟨column, hcolumn, rfl⟩ := List.mem_map.1 hi
      exact (hu.shows (List.mem_append_left _ hcolumn) []).2
    · refine hbase.showing countItems inner.orderBy inner.limit (fun i hi => ?_)
        (by simp [hu.unshown.orderBy])
      obtain rfl := List.mem_singleton.1 hi
      exact ⟨.countAll, by simp⟩
  · have hresolved := resolveGrouped_grouped hs hall.rooted hall.bounded hc
    obtain ⟨_, hfound⟩ := hresolved.found
    exact groupedSelects_scoped hs hresolved hfound.rooted hgrouped

theorem scoped_counted {p : Place} {columns : List Expr} (h : ∀ e ∈ columns, e.Scoped p) :
    (counted columns).Scoped p := by
  match columns with
  | [] => exact .countAll
  | [column] => exact .call h
  | _ :: _ :: _ => exact .call fun e he => List.mem_singleton.1 he ▸ .call h

/-- **Every compiled select is well scoped**: its sources are told apart by their aliases, none of
them empty; each clause reads what its place shows, and columns that derived tables have; and the
query of a membership test introduces no alias of a select around it. -/
theorem wellScoped {documents : List (String × Mapping.Document)}
    (hs : Schema.build documents = .ok s) (select : Select) (params : List Value)
    (h : Compiled s (.select select) params) : select.WellScoped := by
  obtain ⟨d, hbuilt⟩ := Schema.build_ok hs
  have hacyclic := hbuilt.acyclic
  generalize hread : Sql.Statement.select select = statement at h
  cases h with
  | select h =>
    obtain rfl := Sql.Statement.select.inj hread
    obtain ⟨n, hrun, -⟩ := select_ok h
    exact (querySelects_scoped hacyclic hrun).1
  | page p h =>
    obtain rfl := Sql.Statement.select.inj hread
    obtain ⟨n, hrun, -⟩ := select_ok h
    exact (querySelects_scoped hacyclic hrun).1.limited (limit? p)
  | total h =>
    obtain rfl := Sql.Statement.select.inj hread
    obtain ⟨n, hrun, -⟩ := select_ok h
    exact (querySelects_scoped hacyclic hrun).2
  | count h =>
    obtain rfl := Sql.Statement.select.inj hread
    obtain ⟨e, g, included, l, inner, n, -, hincluded, hfiltered, rfl, -⟩ := count_ok h
    have hfound := Member.resolveEach_found hacyclic (JoinGraph.rooted_ofRoot e.id) hincluded
    have hu := filtered_underlaid hacyclic hfound.rooted hfound.bounded hfiltered fun _ _ _ =>
      filterExpr_fits hacyclic
    refine (hu.stands [] [] (List.Subset.refl _) Clear.nil).showing _ inner.orderBy inner.limit
      (fun i hi => ?_) (by simp [hu.unshown.orderBy])
    obtain rfl := List.mem_singleton.1 hi
    refine ⟨scoped_counted fun column hcolumn => ?_, by simp⟩
    obtain ⟨c, hc, rfl⟩ := List.mem_map.1 hcolumn
    exact (hu.shows hc []).1
  | existence h =>
    obtain rfl := Sql.Statement.select.inj hread
    obtain ⟨e, l, inner, n, -, hfiltered, rfl, -⟩ := existence_ok h
    have hu := filtered_underlaid hacyclic (JoinGraph.rooted_ofRoot e.id) (by simp) hfiltered
      fun _ _ _ => filterExpr_fits hacyclic
    refine (hu.stands [] [] (List.Subset.refl _) Clear.nil).showing [.expr (.literal 0) none]
      inner.orderBy (some ⟨0, 1⟩) (fun i hi => ?_) (by simp [hu.unshown.orderBy])
    obtain rfl := List.mem_singleton.1 hi
    exact ⟨.literal, by simp⟩
  | insert h =>
    obtain ⟨columns, -, rfl⟩ := insert_ok h
    exact absurd hread (by simp)
  | update h =>
    obtain ⟨filter, n, as, n', -, -, rfl⟩ := update_ok h
    exact absurd hread (by simp)
  | delete h =>
    obtain ⟨filter, n, -, rfl⟩ := delete_ok h
    exact absurd hread (by simp)

/-- Groups, a page inside their filter, and two joins beside them: all told apart, inside and
outside of the derived table. -/
theorem wellScoped_ordersByCustomer : ∃ plan,
    Plan.select salesSchema ordersByCustomer = .ok plan ∧ plan.select.aliases = ["T3", "J0", "J1"] ∧
      plan.select.WellScoped ∧ (plan.page ⟨2, 10, none⟩).select.WellScoped ∧
      plan.count.WellScoped := by
  obtain ⟨plan, hplan, haliases⟩ := Except.exists_ok
    (x := Plan.select salesSchema ordersByCustomer)
    (fun plan => plan.select.aliases == ["T3", "J0", "J1"]) (by decide +kernel)
  exact ⟨plan, hplan, beq_iff_eq.1 haliases,
    wellScoped salesSchema_builds _ _ (.select hplan),
    wellScoped salesSchema_builds _ _ (.page ⟨2, 10, none⟩ hplan),
    wellScoped salesSchema_builds _ _ (.total hplan)⟩

end EntityQuery.Plan
