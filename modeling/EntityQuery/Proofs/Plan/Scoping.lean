import EntityQuery.Proofs.Member.Steady
import EntityQuery.Proofs.Plan.Compiled
import EntityQuery.Proofs.Plan.Induction
import EntityQuery.Proofs.Plan.Sources
import EntityQuery.Proofs.Schema.Built

/-! Selects read what they have.

All members of a select are resolved before its graph takes aliases, and those of its filter once
more when its expression is made. They are found again where they were (`Found`), so every column
of the select stands in a scope that the select joins. Queries behind conditions are made later
and take later aliases (`Fits`). -/
namespace EntityQuery.Plan

open Member (Column Found)
open Sql (Expr Select Visible Place)

variable {s : Schema} {l : Layout} {n m n' : Numbering}

/-! ### Resolving -/

section Resolving
variable {g g' : JoinGraph} (hs : s.Acyclic) (hg : g.Rooted)
include hs hg

theorem resolveSorting_found {sorting : List Sorting} {sorted : List (Column × Direction)}
    (h : resolveSorting s g sorting = .ok (g', sorted)) :
    Found s g (sorting.flatMap (·.members)) g' (sorted.map Prod.fst) :=
  Member.resolveEach_found hs hg (resolveSorting_ok h)

theorem resolveConditions_found {f : Filter} {columns : List Column}
    (h : resolveConditions s g f = .ok (g', columns)) :
    Found s g (f.conditions.map (·.member)) g' columns :=
  Member.resolveEach_found hs hg h

end Resolving

/-! ### Filters -/

/-- Expressions that were made between `n` and `n'` stand wherever the members of the conditions
do, if none of the aliases taken meanwhile is known there. -/
structure Fits (s : Schema) (l : Layout) (conditions : List Condition) (n n' : Numbering)
    (es : List Expr) : Prop where
  grows : n.aliases ≤ n'.aliases
  stands : ∀ p : Place, Clear n.aliases n'.aliases p.around →
    (∀ c ∈ conditions, ∀ e, memberExpr s l c.member = .ok e → e.Scoped p) → ∀ e ∈ es, e.Scoped p

/-- A select that was made between `n` and `n'` stands alone among selects that know none of the
aliases taken meanwhile. -/
structure StandsAlone (n n' : Numbering) (select : Select) : Prop where
  grows : n.aliases ≤ n'.aliases
  stands : ∀ around, Clear n.aliases n'.aliases around → select.Scoped [] around around

theorem scoped_test {column t : Expr} {k : Nat} {bound : List Value} {p : Place}
    (h : Test column k t bound) (hc : column.Scoped p) : t.Scoped p := by
  cases h with
  | isNull negate => exact .isNull hc
  | never => exact .binary .literal .literal
  | binary op v => exact .binary hc .param
  | between low high => exact .between hc .param .param
  | inList vs negate =>
    refine .inList hc fun e he => ?_
    obtain ⟨i, -, rfl⟩ := List.mem_map.1 he
    exact .param

theorem scoped_joined? {k : Combinator} {es : List Expr} {p : Place} (h : ∀ e ∈ es, e.Scoped p) :
    ∀ e ∈ (joined? k es).toList, e.Scoped p := by
  intro e he
  cases k
  · exact Sql.scoped_allOf? h (Option.mem_toList.1 he)
  · exact Sql.scoped_anyOf? h (Option.mem_toList.1 he)

theorem fits_test {member : String} {c : Comparison} {o : Operand} {column : Expr}
    {e : Option Expr} (hcolumn : memberExpr s l member = .ok column) (h : Tested column n n' e) :
    Fits s l [⟨member, c, o⟩] n n' e.toList := by
  obtain ⟨bound, rfl, h⟩ := h
  refine { grows := le_refl n.aliases, stands := fun p _ hmembers t ht => ?_ }
  cases e with
  | none => simp at ht
  | some test =>
    obtain rfl := List.mem_singleton.1 ht
    exact scoped_test h (hmembers _ (List.mem_singleton_self _) column hcolumn)

/-! ### Selects under a filter -/

/-- What a select under a filter was made of, and where it stands. -/
structure Underlaid (l : Layout) (columns : List Column) (n n' : Numbering) (select : Select) :
    Prop where
  laid : Laid l n.aliases
  unshown : Unshown select
  bounded : ∀ c ∈ columns, c.scope ≤ l.graph.joins.length
  reads : ∀ c ∈ columns, tableAt l c.scope ∈ select.sources
  grows : n.aliases ≤ n'.aliases
  stands : ∀ avoid around, avoid ⊆ around → Clear n.aliases n'.aliases around →
    select.Scoped [] avoid around

/-- The columns of a select stand in its sources. -/
theorem Underlaid.shows {columns : List Column} {select : Select}
    (h : Underlaid l columns n n' select) {c : Column} (hc : c ∈ columns) (around : List String) :
    (l.expr c).Scoped (select.inside [] around) ∧
      Select.Shows (select.inside [] around) select.aliases (l.item c) := by
  have hmem : tableAt l c.scope ∈ (select.inside [] around).sources :=
    List.mem_append_left _ (h.reads c hc)
  exact ⟨h.laid.scoped_expr (h.bounded c hc) hmem, h.laid.shows_item (h.bounded c hc) hmem _⟩

/-- The aliases of a layout are taken when it is named. -/
theorem Laid.handedOut_aliasesTo (hl : Laid l n.aliases) {scopes : List Nat} {name : String}
    (h : name ∈ aliasesTo l (tableAt l 0) scopes) :
    HandedOut n.aliases (l.graph.assign n.aliases).2 name := by
  obtain rfl | ⟨j, hj, rfl⟩ := hl.mem_aliasesTo h
  · exact hl.handedOut (Nat.zero_le _)
  · exact hl.handedOut hj

/-- A select from the root of its layout. Its clauses are made once the layout has its aliases. -/
theorem Laid.scoped_root (hl : Laid l n.aliases) {scopes : List Nat} {select : Select}
    (h : Joins s l none (tableAt l 0) scopes select)
    (hsource : select.source = rootTable s l) (hunshown : Unshown select)
    {avoid around : List String} (hnew : ∀ name ∈ aliasesTo l (tableAt l 0) scopes, name ∉ avoid)
    (hprobes : ∀ j < l.graph.joins.length, l.aliasName (j + 1) ++ "X" ∉ around)
    (hclear : Clear (l.graph.assign n.aliases).2 n'.aliases around)
    (hclauses : Clear (l.graph.assign n.aliases).2 n'.aliases (around ++ select.aliases) →
      (∀ e, select.filter = some e → e.Scoped (select.inside [] around)) ∧
        (∀ e ∈ select.groupBy, e.Scoped (select.inside [] around)) ∧
        ∀ e, select.having = some e → e.Scoped (select.inside [] around)) :
    select.Scoped [] avoid around := by
  have hown : Clear (l.graph.assign n.aliases).2 n'.aliases select.aliases := by
    rw [h.aliases]
    exact Clear.ofEarlier (fun name => hl.handedOut_aliasesTo) (le_refl _)
  obtain ⟨hfilter, hgroupBy, hhaving⟩ := hclauses (hclear.append hown)
  refine hl.scoped_select h hunshown (hl.handedOut (Nat.zero_le _)).ne_empty ?_ ?_ hnew hprobes
    ?_ ?_ hfilter hgroupBy hhaving
  · intro j hj heq
    exact absurd (hl.injective (Nat.zero_le _) hj heq) (Nat.succ_ne_zero j).symm
  · exact fun j _ => hl.ne_probe 0 j
  · exact fun j _ _ pair _ p hroot => hl.scoped_tableAt (Nat.zero_le _) hroot _
  · intro inner name hderived
    exact absurd (hsource.symm.trans hderived) Sql.ofTable_ne_derived

/-- Members that were resolved in the graph of a layout stand in its scopes. -/
theorem Found.members {g : JoinGraph} {paths : List String} {columns : List Column}
    (h : Found s g paths l.graph columns) (hl : Laid l n.aliases) {p : Place}
    (hp : ∀ c ∈ columns, tableAt l c.scope ∈ p.sources) :
    ∀ path ∈ paths, ∀ e, memberExpr s l path = .ok e → e.Scoped p := by
  intro path hpath e he
  obtain ⟨column, hcolumn, hagain⟩ := h.again path hpath
  obtain ⟨resolved, hresolved, rfl⟩ := memberExpr_ok he
  obtain rfl := Except.ok.inj ((hagain (.refl _)).symm.trans hresolved)
  exact hl.scoped_expr (h.bounded _ hcolumn) (hp _ hcolumn)

/-- The select of a layout under a filter. -/
def baseSelect (s : Schema) (l : Layout) (scopes : List Nat) (filter : Option Expr) : Select :=
  { Select.of (rootTable s l) with
    joins := (l.graph.joinsTo scopes).map (join s l none)
    filter }

theorem joins_baseSelect (s : Schema) (l : Layout) (scopes : List Nat) (filter : Option Expr) :
    Joins s l none (tableAt l 0) scopes (baseSelect s l scopes filter) :=
  ⟨Sql.visible_ofTable _ _, rfl⟩

theorem filtered_underlaid (hs : s.Acyclic) {g : JoinGraph} (hg : g.Rooted) {columns : List Column}
    (hcolumns : ∀ c ∈ columns, c.scope ≤ g.joins.length) {f : Filter}
    {compile : Layout → Compile (Option Expr)} {select : Select}
    (h : filtered s g columns f compile n = .ok ((l, select), n'))
    (hcompile : ∀ l m e, compile l m = .ok (e, n') → Fits s l f.conditions m n' e.toList) :
    Underlaid l columns n n' select := by
  obtain ⟨grown, conditions, filter, hconditions, hlaid, hfilter, hselect⟩ := filtered_ok h
  have hfound := resolveConditions_found hs hg hconditions
  have hl : Laid l n.aliases := hlaid ▸ laid_laidOut hfound.rooted (columns ++ conditions) n.aliases
  obtain rfl : l.graph = grown := by rw [hlaid]; rfl
  replace hselect : select = baseSelect s l (scopesOf (columns ++ conditions)) filter := hselect
  have hjoins : Joins s l none (tableAt l 0) (scopesOf (columns ++ conditions)) select :=
    hselect ▸ joins_baseSelect ..
  have hunshown : Unshown select := hselect ▸ ⟨rfl, rfl⟩
  have hfits := hcompile _ _ _ hfilter
  have hreads : ∀ c ∈ columns ++ conditions, c.scope ≤ l.graph.joins.length →
      tableAt l c.scope ∈ select.sources := by
    intro c hc hle
    rw [hjoins.sources]
    exact hl.tableAt_mem hle (List.mem_map_of_mem hc) fun _ => rfl
  have hbounded : ∀ c ∈ columns, c.scope ≤ l.graph.joins.length := fun c hc =>
    Nat.le_trans (hcolumns c hc) hfound.grows.length_le
  refine ⟨hl, hunshown, hbounded, fun c hc => hreads c (List.mem_append_left _ hc) (hbounded c hc),
    le_trans (AliasSupply.le_assign ..) hfits.grows, fun avoid around havoid hclear => ?_⟩
  have hnew : ∀ {name}, HandedOut n.aliases (l.graph.assign n.aliases).2 name → name ∉ around :=
    fun hout hmem => hclear _ hmem (hout.mono (le_refl _) hfits.grows)
  refine hl.scoped_root hjoins (hselect ▸ rfl) hunshown
    (fun name hname hmem => hnew (hl.handedOut_aliasesTo hname) (havoid hmem))
    (fun j hj => hnew (hl.probe_handedOut hj))
    (hclear.mono (AliasSupply.le_assign ..) (le_refl _)) fun hlater => ?_
  have hmembers := Found.members hfound hl (p := select.inside [] around) fun c hc =>
    List.mem_append_left _ (hreads c (List.mem_append_right _ hc) (hfound.bounded c hc))
  refine ⟨fun e he => ?_, by simp [hselect, baseSelect, Select.of], by
    simp [hselect, baseSelect, Select.of]⟩
  obtain rfl : filter = some e := by rw [← he, hselect]; rfl
  exact hfits.stands (select.inside [] around) hlater
    (fun c hc => hmembers c.member (List.mem_map_of_mem hc)) e (List.mem_singleton_self e)

theorem Underlaid.sorts {columns : List Column} {select : Select}
    (h : Underlaid l columns n n' select) {sorted : List (Column × Direction)}
    (hsorted : ∀ c ∈ sorted.map Prod.fst, c ∈ columns) (around : List String) :
    ∀ o ∈ orderBy l sorted, o.expr.Scoped (select.inside [] around) := by
  intro o ho
  obtain ⟨⟨column, direction⟩, hmem, rfl⟩ := List.mem_map.1 ho
  exact (h.shows (hsorted column (List.mem_map_of_mem hmem)) around).1

/-! ### Queries behind conditions -/

/-- A select from a derived table that shows one of its columns. -/
theorem scoped_ofDerived {inner : Select} {avoid around : List String} {name : String}
    (hne : name ≠ "") (hnew : name ∉ avoid)
    (hinner : inner.Scoped [] avoid (around ++ [name])) {items : List Sql.Item}
    (hitems : ∀ i ∈ items, Select.Shows ⟨[⟨name, some inner.resultNames⟩], [], around ++ [name]⟩
      [name] i) : Select.Scoped [] avoid around {Select.of (.derived inner name) with items} := by
  have hbase :
      Select.Scoped [] avoid around {Select.of (.derived inner name) with filter := none} := by
    refine Select.scoped_ofSource (by exact hne) (by exact hnew) (fun _ _ hderived => ?_) (by simp)
    obtain ⟨rfl, rfl⟩ := Sql.Source.derived.inj hderived
    exact hinner
  exact hbase.showing items [] none hitems (by simp)

/-- A membership test reads the column that its query shows, of a page through a table of its
own. -/
theorem Projected.standsAlone {column : Column} {sorted : List (Column × Direction)}
    {paging : Option Paging} {select projected : Select}
    (h : Projected l column sorted select m paging projected n')
    (hu : Underlaid l (column :: sorted.map Prod.fst) n m select) :
    StandsAlone n n' projected := by
  have hcolumn := fun around => hu.shows (List.mem_cons_self ..) around
  cases h with
  | whole _ =>
    refine ⟨hu.grows, fun around hclear => ?_⟩
    refine (hu.stands around around (List.Subset.refl _) hclear).showing
      [.expr (l.expr column) none] select.orderBy select.limit (fun i hi => ?_)
      (by simp [hu.unshown.orderBy])
    obtain rfl := List.mem_singleton.1 hi
    exact ⟨(hcolumn around).1, by simp⟩
  | @page limit _ =>
    refine ⟨le_trans hu.grows (AliasSupply.le_freshTable _), fun around hclear => ?_⟩
    have htaken := HandedOut.freshTable m.aliases
    have hpage : Select.Scoped [] around (around ++ [tableAlias m.aliases.tables])
        {select with
          items := [l.item column], orderBy := orderBy l sorted, limit := some limit} := by
      have hinner : Clear n.aliases m.aliases (around ++ [tableAlias m.aliases.tables]) :=
        (hclear.mono (le_refl _) (AliasSupply.le_freshTable _)).append
          (Clear.ofLater (fun name hname => List.mem_singleton.1 hname ▸ htaken) (le_refl _))
      refine (hu.stands _ _ (List.subset_append_left ..) hinner).showing _ _ (some limit)
        (fun i hi => ?_) (hu.sorts (fun c hc => List.mem_cons_of_mem _ hc) _)
      exact List.mem_singleton.1 hi ▸ (hcolumn _).2
    refine scoped_ofDerived htaken.ne_empty ?_ hpage fun i hi => ?_
    · exact fun hmem => hclear _ hmem (htaken.mono hu.grows (le_refl _))
    · obtain rfl := List.mem_singleton.1 hi
      refine ⟨Sql.scoped_qualified (v := ⟨_, _⟩) htaken.ne_empty (List.mem_singleton_self _) ?_,
        by simp⟩
      intro names hnames
      obtain rfl := Option.some.inj hnames
      exact ⟨l.resultName column, by simp [Select.resultNames, Sql.Item.resultName?, Layout.item,
        Column.item, Layout.resultName], Text.sameName_refl _⟩

theorem fits_invariant (hs : s.Acyclic) : Invariant s
    (fun f l n e n' => Fits s l f.conditions n n' e.toList)
    (fun fs l n es n' => Fits s l (Filter.conditionsOf fs) n n' es)
    (fun _ n select n' => StandsAlone n n' select) where
  nil := ⟨le_refl _, by simp⟩
  cons he hes := by
    refine ⟨le_trans he.grows hes.grows, fun p hclear hmembers t ht => ?_⟩
    rcases List.mem_append.1 ht with ht | ht
    · exact he.stands p (hclear.mono (le_refl _) hes.grows)
        (fun c hc => hmembers c (List.mem_append_left _ hc)) t ht
    · exact hes.stands p (hclear.mono he.grows (le_refl _))
        (fun c hc => hmembers c (List.mem_append_right _ hc)) t ht
  composite hes :=
    ⟨hes.grows, fun p hclear hmembers => scoped_joined? (hes.stands p hclear hmembers)⟩
  test hcolumn _ h := fits_test hcolumn (compare_ok h).1
  inSelect hcolumn _ hselect := by
    refine ⟨hselect.grows, fun p hclear hmembers t ht => ?_⟩
    obtain rfl := List.mem_singleton.1 ht
    exact .inSelect (hmembers _ (List.mem_singleton_self _) _ hcolumn)
      (hselect.stands p.around hclear)
  query h hfilter := by
    obtain ⟨e, member, g, column, grown, sorted, l, inner, m, -, hcolumn, hsorted, hfiltered,
      hprojected⟩ := subselect_ok h
    have hshown := Member.resolve_found hs (JoinGraph.rooted_ofRoot e.id) hcolumn
    have hall := hshown.append (resolveSorting_found hs hshown.rooted hsorted)
    exact hprojected.standsAlone
      (filtered_underlaid hs hall.rooted hall.bounded hfiltered fun _ _ _ he => hfilter he)

theorem filterExpr_fits (hs : s.Acyclic) {f : Filter} {e : Option Expr}
    (h : filterExpr s f l n = .ok (e, n')) : Fits s l f.conditions n n' e.toList :=
  (fits_invariant hs).filterExpr h

end EntityQuery.Plan
