import EntityQuery.Proofs.Plan.Groups
import EntityQuery.Proofs.Plan.WellScoped
import EntityQuery.Proofs.Record.Merged

/-! The names in a derived table.

The columns of a derived table are listed by their paths: a column that is shown twice, or shown and
sorted by, comes once, because its text is the same (`groupPaths`). Keys are listed as they are
given. What a row carries a column under is not the text but the scope, the function and the column,
and names of different columns differ (`resultName_eq_iff`). So a derived table has two columns of
one name exactly when a key is given twice or when one column is written in two ways
(`groups_nodup_iff`). -/
namespace EntityQuery

open Member (Column)

namespace Member

variable {s : Schema} {g g' : JoinGraph} {path : String} {c : Column}

/-! ### Columns and the texts they come from -/

theorem measured_ok {target : String} {measure : Measure}
    (h : (measured s path target measure g).2 = .ok c) : c.path = path ∧ c.measure = measure := by
  obtain ⟨found, -, rfl⟩ := Except.map_eq_ok.1 h
  exact ⟨rfl, rfl⟩

/-- What a resolved path says of the path itself. -/
theorem resolve_text (h : (resolve s g path).2 = .ok c) :
    c.path = path ∧ c.isAggregate = isAggregatePath path ∧ c.isRowCount = isRowCount path := by
  simp only [resolve_eq, Except.mapError_eq_ok] at h
  rw [isAggregatePath]
  cases hcount : isRowCount path with
  | true =>
    rw [locate, if_pos hcount] at h
    obtain rfl := Except.ok.inj h
    exact ⟨rfl, rfl, rfl⟩
  | false =>
    have hcount' : ¬ isRowCount path = true := by simp [hcount]
    cases happlied : applied? path with
    | none =>
      rw [locate_value hcount' happlied] at h
      obtain ⟨hpath, hmeasure⟩ := measured_ok h
      rw [Column.isAggregate, Column.isRowCount, hmeasure]
      exact ⟨hpath, rfl, rfl⟩
    | some applied =>
      obtain ⟨function, argument⟩ := applied
      by_cases hnested : '(' ∈ (Text.trim argument).toList
      · simp [locate, hcount, happlied, hnested] at h
      · rw [locate_aggregate hcount' happlied hnested] at h
        obtain ⟨hpath, hmeasure⟩ := measured_ok h
        rw [Column.isAggregate, Column.isRowCount, hmeasure]
        exact ⟨hpath, rfl, rfl⟩

/-- The columns of a run are those of its paths, and every graph grown since has them. -/
theorem resolveEach_again (hs : s.Acyclic) (hg : g.Rooted) {paths : List String}
    {columns : List Column} (h : resolveEach s g paths = .ok (g', columns)) :
    columns.map (·.path) = paths ∧
      ∀ c ∈ columns, ∀ {grown}, g'.Grows grown → (resolve s grown c.path).2 = .ok c := by
  induction paths generalizing g columns with
  | nil =>
    obtain ⟨rfl, rfl⟩ := Prod.mk.inj (Except.ok.inj h)
    exact ⟨rfl, fun c hc => absurd hc List.not_mem_nil⟩
  | cons path rest ih =>
    simp only [resolveEach, Except.bind_eq_ok, Except.pure_eq_ok, Prod.exists, Prod.mk.injEq] at h
    obtain ⟨c, hc, grown, others, hothers, rfl, rfl⟩ := h
    obtain ⟨hsteady, -⟩ := steady_resolve hs hg path
    obtain ⟨hpaths, hrest⟩ := ih hsteady.rooted hothers
    have hpath := (resolve_text hc).1
    have hgrows := (resolveEach_found hs hsteady.rooted hothers).grows
    refine ⟨by rw [List.map_cons, hpath, hpaths], List.forall_mem_cons.2 ⟨?_, hrest⟩⟩
    intro more hmore
    have hagain : resolve s more path = (more, (resolve s g path).2) :=
      hsteady.again (hgrows.trans hmore)
    rw [hpath, hagain, hc]

end Member

namespace Plan

variable {s : Schema}

theorem byPath_of_resolveEach (hs : s.Acyclic) {g g' : JoinGraph} (hg : g.Rooted)
    {paths : List String} {columns : List Column}
    (h : Member.resolveEach s g paths = .ok (g', columns)) : ByPath columns := by
  obtain ⟨-, hagain⟩ := Member.resolveEach_again hs hg h
  have htext := fun c hc => Member.resolve_text (hagain c hc (.refl g'))
  refine ⟨fun c hc c' hc' hsame => ?_, fun c hc => (htext c hc).2.1, fun c hc => (htext c hc).2.2⟩
  have hcolumn := hagain c hc (.refl g')
  rw [hsame, hagain c' hc' (.refl g')] at hcolumn
  exact (Except.ok.inj hcolumn).symm

/-- What a derived table shows comes from one run, and its paths are those of the groups. -/
theorem inner_of_steps (hs : s.Acyclic) {root shown grown : JoinGraph} (hroot : root.Rooted)
    {f : Filter} {grouping : Grouping} {asked sortings : List String} {display sorted : List Column}
    {c : GroupedColumns} (hdisplay : Member.resolveEach s root asked = .ok (shown, display))
    (hsorted : Member.resolveEach s shown sortings = .ok (grown, sorted))
    (h : resolveGrouped s grown f grouping display sorted = .ok c) :
    ∃ paths columns, Member.resolveEach s root paths = .ok (c.graph, columns) ∧ c.inner ⊆ columns ∧
      c.inner.map (·.path) = groupPaths grouping.members (asked ++ sortings) := by
  obtain ⟨keyed, filtered, having, conditions, tested, rowCount, hkeys, hconditions, htested,
    hrowCount, hinner, -⟩ := resolveGrouped_ok h
  have hlast : Member.resolveEach s having [rowCountMember] = .ok (c.graph, [rowCount]) := by
    simp [Member.resolveEach, hrowCount, pure, Except.pure, bind, Except.bind]
  have hasked := resolveEach_append hdisplay hsorted
  have hall := resolveEach_append hasked (resolveEach_append hkeys (resolveEach_append hconditions
    (resolveEach_append htested hlast)))
  have hpaths := fun {g g' paths columns} (hg : g.Rooted)
      (h : Member.resolveEach s g paths = .ok (g', columns)) =>
    (Member.resolveEach_again hs hg h).1
  refine ⟨_, _, hall, fun column hcolumn => ?_, ?_⟩
  · rw [hinner] at hcolumn
    obtain hkey | hcolumn | rfl := mem_innerColumns hcolumn
    · exact List.mem_append_right _ (List.mem_append_left _ hkey)
    · exact List.mem_append_left _ hcolumn
    · simp
  · have hgrown := (Member.resolveEach_found hs hroot hasked).rooted
    rw [hinner, innerColumns_paths (byPath_of_resolveEach hs hroot hall)
      (List.subset_append_of_subset_right _ (List.subset_append_left ..))
      (List.subset_append_left ..) (Member.resolve_text (congrArg Prod.snd hrowCount)).1,
      hpaths hgrown hkeys, hpaths hroot hasked]

end Plan

/-! ### Names in rows -/

/-- A column's name in a row without the alias: the column, behind the function that is applied to
it. -/
def Member.Column.label (c : Column) : String :=
  match c.measure with
  | .value => c.column
  | .aggregate function => function ++ "_" ++ c.column
  | .rowCount => "COUNT"

namespace Plan

variable {s : Schema} {l : Layout} {a : AliasSupply} {c c' : Column}

theorem resultName_eq_rowName (l : Layout) (c : Column) :
    l.resultName c = rowName (l.aliasName c.scope) c.label := by
  rw [Layout.resultName, Column.resultName, Column.label, rowName]
  cases c.measure <;> simp [toString, Layout.aliasName, String.append_assoc]

/-- Columns have one name in a row when they are of one scope and have one label. -/
theorem Laid.resultName_eq_iff (hl : Laid l a) (hc : c.scope ≤ l.graph.joins.length)
    (hc' : c'.scope ≤ l.graph.joins.length) :
    l.resultName c = l.resultName c' ↔ c.scope = c'.scope ∧ c.label = c'.label := by
  rw [resultName_eq_rowName, resultName_eq_rowName]
  constructor
  · intro h
    rw [hl.aliasName_eq, hl.aliasName_eq] at h
    obtain ⟨halias, hlabel⟩ := JoinGraph.rowName_unique
      (JoinGraph.underscore_notMem_alias _ _ _) (JoinGraph.underscore_notMem_alias _ _ _) h
    exact ⟨hl.rooted.aliasName_injective a hc hc' halias, hlabel⟩
  · rintro ⟨hscope, hlabel⟩
    rw [hscope, hlabel]

/-- Nothing but a key is listed twice. -/
theorem nodup_groupPaths (keys asked : List String) :
    (groupPaths keys asked).Nodup ↔ keys.Nodup := by
  obtain ⟨more, hmore, hnew, -⟩ := exists_groupPaths keys asked
  rw [hmore, List.nodup_append']
  exact ⟨fun h => h.1, fun h => ⟨h, hnew.nodup, fun path hkey hpath => hnew.new path hpath hkey⟩⟩

/-- The columns of a derived table, those of the paths of its groups. -/
structure GroupColumns (s : Schema) (l : Layout) (paths : List String) (groups : Sql.Select)
    (columns : List Column) : Prop where
  resolved : List.Forall₂ (fun path c => c.path = path ∧
    (Member.resolve s l.graph path).2 = .ok c) paths columns
  items : groups.items = columns.map l.item

theorem nodup_map_iff {α β : Type} {f : α → β} {xs : List α} :
    (xs.map f).Nodup ↔ xs.Nodup ∧ ∀ x ∈ xs, ∀ y ∈ xs, f x = f y → x = y :=
  ⟨fun h => ⟨h.of_map f, fun _ hx _ hy => List.inj_on_of_nodup_map h hx hy⟩,
    fun h => h.1.map_on h.2⟩

/-- **A derived table has two columns of one name** exactly when a key is given twice or when two
texts come to one label of one scope. -/
theorem groups_nodup_iff {sources : List (String × Mapping.Document)}
    (hb : Schema.build sources = .ok s) {q : Query} {grouping : Grouping} {plan : CompiledQuery}
    (hgrouping : q.grouping = some grouping) (h : Plan.select s q = .ok plan) :
    ∃ e groups derived columns, entityNamed s q.entity = .ok e ∧
      plan.select.source = .derived groups derived ∧
      GroupColumns s plan.layout (groupPaths grouping.members (q.asked s e)) groups columns ∧
      (groups.resultNames.Nodup ↔ grouping.members.Nodup ∧ ∀ c ∈ columns, ∀ c' ∈ columns,
        c.scope = c'.scope → c.label = c'.label → c.path = c'.path) := by
  obtain ⟨d, hbuilt⟩ := Schema.build_ok hb
  have hs := hbuilt.acyclic
  obtain ⟨n, hselects, -⟩ := select_ok h
  obtain ⟨e, shown, display, grown, sorted, he, hdisplay, hsorted, hcases⟩ :=
    querySelects_ok hselects
  obtain ⟨inner, hnone, -⟩ | ⟨grouping', c, hsome, hgrouped, hselects⟩ := hcases
  · exact absurd (hgrouping.symm.trans hnone) (by simp)
  obtain rfl := Option.some.inj (hgrouping.symm.trans hsome)
  have hroot := JoinGraph.rooted_ofRoot e.id
  have hasked := resolveEach_append hdisplay (resolveSorting_ok hsorted)
  obtain ⟨paths, columns, hrun, hinner, hpaths⟩ :=
    inner_of_steps hs hroot hdisplay (resolveSorting_ok hsorted) hgrouped
  have hfound := Member.resolveEach_found hs hroot hrun
  have hby := byPath_of_resolveEach hs hroot hrun
  obtain ⟨filter, m, having, m', hl, -, -, hshown, -⟩ := groupedSelects_ok hselects
  have hlaid : Laid plan.layout _ := hl ▸ laid_laidOut hfound.rooted _ _
  have hgraph : plan.layout.graph = c.graph := by rw [hl]; rfl
  refine ⟨e, groupsSelect s plan.layout c filter having, tableAlias m'.aliases.tables, c.inner, he,
    by rw [hshown]; rfl, ⟨?_, rfl⟩, ?_⟩
  · rw [Query.asked, ← hpaths, List.forall₂_map_left_iff, List.forall₂_same, hgraph]
    exact fun column hcolumn => ⟨rfl,
      (Member.resolveEach_again hs hroot hrun).2 column (hinner hcolumn) (.refl _)⟩
  · have hkeys : c.inner.Nodup ↔ grouping.members.Nodup := by
      rw [← nodup_groupPaths grouping.members (q.asked s e), Query.asked, ← hpaths]
      exact ⟨fun h => h.map_on fun x hx y hy => hby.same x (hinner hx) y (hinner hy),
        fun h => h.of_map _⟩
    have hname : ∀ x ∈ c.inner, ∀ y ∈ c.inner, plan.layout.resultName x = plan.layout.resultName y ↔
        x.scope = y.scope ∧ x.label = y.label := fun x hx y hy =>
      hlaid.resultName_eq_iff (hgraph ▸ hfound.bounded x (hinner hx))
        (hgraph ▸ hfound.bounded y (hinner hy))
    rw [resultNames_groups, nodup_map_iff, hkeys]
    refine and_congr_right fun _ => forall₄_congr fun x hx y hy => ?_
    rw [hname x hx y hy, and_imp]
    refine imp_congr_right fun _ => imp_congr_right fun _ => ⟨fun h => h ▸ rfl, fun h => ?_⟩
    exact hby.same x (hinner hx) y (hinner hy) h

/-- The customers of open orders, with how many each has: every text is a column of its own. -/
theorem groups_nodup_iff_ordersByCustomer : ∃ plan groups derived columns,
    Plan.select salesSchema ordersByCustomer = .ok plan ∧
      plan.select.source = .derived groups derived ∧
      GroupColumns salesSchema plan.layout ["CustomerId", "count(0)"] groups columns ∧
      groups.resultNames.Nodup ∧ ∀ c ∈ columns, ∀ c' ∈ columns,
        c.scope = c'.scope → c.label = c'.label → c.path = c'.path := by
  obtain ⟨plan, hplan, hnames⟩ := Except.exists_ok (x := Plan.select salesSchema ordersByCustomer)
    (fun plan => match plan.select.source with
      | .derived groups _ => decide groups.resultNames.Nodup
      | _ => false)
    (by decide +kernel)
  obtain ⟨e, groups, derived, columns, he, hsource, hcolumns, hiff⟩ :=
    groups_nodup_iff salesSchema_builds (q := ordersByCustomer) rfl hplan
  rw [hsource] at hnames
  obtain rfl : salesSchema.entity 0 = e := Except.ok.inj he
  have hpaths : groupPaths ["CustomerId"] (ordersByCustomer.asked salesSchema
      (salesSchema.entity 0)) = ["CustomerId", "count(0)"] := by decide +kernel
  rw [hpaths] at hcolumns
  have hnodup := of_decide_eq_true hnames
  exact ⟨plan, groups, derived, columns, hplan, hsource, hcolumns, hnodup, (hiff.1 hnodup).2⟩

/-- Orders by customer and by customer again, with their number written in two ways. -/
def ordersCounted : Query :=
  { Query.on "Order" with
    members := ["CustomerId", "count(0)", "COUNT(0)"]
    grouping := some ⟨["CustomerId", " CustomerId"], .everything⟩ }

/-- Two names come twice. -/
theorem ordersCounted_doubled : ∃ plan groups, Plan.select salesSchema ordersCounted = .ok plan ∧
    plan.select.source = .derived groups "T1" ∧
    groups.resultNames = ["T_CustomerId", "T_CustomerId", "T_COUNT", "T_COUNT"] ∧
    ¬ groups.resultNames.Nodup := by
  obtain ⟨plan, groups, hplan, hsource, hnames⟩ : ∃ plan groups,
      Plan.select salesSchema ordersCounted = .ok plan ∧
      plan.select.source = .derived groups "T1" ∧
      groups.resultNames = ["T_CustomerId", "T_CustomerId", "T_COUNT", "T_COUNT"] :=
    ⟨_, _, rfl, rfl, rfl⟩
  exact ⟨plan, groups, hplan, hsource, hnames, by rw [hnames]; decide⟩

end Plan
end EntityQuery
