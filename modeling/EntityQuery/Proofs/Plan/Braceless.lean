import EntityQuery.Proofs.Member.Worded
import EntityQuery.Proofs.Plan.Compiled
import EntityQuery.Proofs.Plan.Induction
import EntityQuery.Proofs.Sql.Braceless

/-! Compiled statements have no brace of their own.

What a statement has besides names and placeholders are keywords, numbers, aliases and functions. An
alias is a letter and a number, and a function is a word. -/
namespace EntityQuery

/-! ### Functions -/

theorem Member.IsWord.noBrace {t : String} (h : IsWord t) : NoBrace t := by
  intro hbrace
  exact absurd (List.all_eq_true.1 h.2 _ hbrace) (by decide)

namespace Member

/-- A function that a column is taken by has no brace in its name. -/
def Column.Braceless (c : Column) : Prop :=
  ∀ function, c.measure = .aggregate function → NoBrace function

theorem Column.Worded.braceless {c : Column} (h : c.Worded) : c.Braceless :=
  fun function hmeasure => (h function hmeasure).noBrace

theorem braceless_resolve {s : Schema} {g : JoinGraph} {path : String} {c : Column}
    (h : (resolve s g path).2 = .ok c) : c.Braceless :=
  (worded_resolve h).braceless

theorem braceless_resolveEach {s : Schema} {g g' : JoinGraph} {paths : List String}
    {columns : List Column} (h : resolveEach s g paths = .ok (g', columns)) :
    ∀ c ∈ columns, c.Braceless :=
  fun c hc => (worded_resolveEach h c hc).braceless

end Member

namespace Plan

open Member (Column)
open Sql (Expr Select Dialect Braceless)

/-- The root's alias has no brace. Those of joins never do. -/
def Layout.Braceless (l : Layout) : Prop := NoBrace l.names.table

theorem braceless_laidOut (g : JoinGraph) (columns : List Column) (supply : AliasSupply) :
    (laidOut g columns supply).Braceless :=
  noBrace_tableAlias supply.tables

theorem braceless_bareLayout (e : Entity) : (bareLayout e).Braceless := by
  show NoBrace ""
  decide

variable {s : Schema} {l : Layout} (d : Dialect)

theorem braceless_equal {a b : String} (ha : NoBrace a) (hb : NoBrace b) (column column' : String) :
    Braceless ((Expr.equal (.qualified a column) (.qualified b column')).pieces d) :=
  Sql.braceless_binary d (Sql.braceless_qualified d ha _) .eq (Sql.braceless_qualified d hb _)

/-! ### Columns and joins -/

section Layout
variable (hl : l.Braceless)
include hl

theorem Layout.Braceless.aliasName (scope : Nat) : NoBrace (l.aliasName scope) := by
  cases scope with
  | zero => exact hl
  | succ j => exact noBrace_joinAlias _

theorem braceless_expr {c : Column} (hc : c.Braceless) : Braceless ((l.expr c).pieces d) := by
  have hcolumn := Sql.braceless_qualified d (hl.aliasName c.scope) c.column
  unfold Layout.expr Column.expr
  cases hm : c.measure with
  | value => exact hcolumn
  | aggregate function =>
    exact Expr.braceless_call d (fun e he => List.mem_singleton.1 he ▸ hcolumn) (hc function hm)
  | rowCount => simp +decide [Expr.pieces]

theorem braceless_items {columns : List Column} (hc : ∀ c ∈ columns, c.Braceless) :
    ∀ i ∈ columns.map l.item, Braceless (i.pieces d) := by
  intro i hi
  obtain ⟨c, hmem, rfl⟩ := List.mem_map.1 hi
  exact Sql.braceless_item d (braceless_expr d hl (hc c hmem)) _

theorem braceless_orderBy {sorted : List (Column × Direction)}
    (hc : ∀ c ∈ sorted.map Prod.fst, c.Braceless) :
    ∀ o ∈ orderBy l sorted, Braceless (o.expr.pieces d) := by
  intro o ho
  obtain ⟨⟨c, direction⟩, hmem, rfl⟩ := List.mem_map.1 ho
  exact braceless_expr d hl (hc c (List.mem_map_of_mem hmem))

theorem braceless_rootTable : Braceless ((rootTable s l).pieces d) :=
  Sql.braceless_ofTable d _ (hl.aliasName 0)

theorem braceless_matchExists (j : Nat) : Braceless ((matchExists s l j).pieces d) := by
  have hprobe : NoBrace (l.aliasName (j + 1) ++ "X") :=
    (noBrace_append ..).2 ⟨hl.aliasName _, by decide⟩
  refine Sql.braceless_hasRow d (Select.Braceless.pieces
    {Select.Braceless.ofSource (Sql.braceless_ofTable d _ hprobe) with items := ?_, filter := ?_})
  · simp [Sql.Item.pieces, Sql.braceless_literal]
  · refine Expr.braceless_allOf? d fun e he => ?_
    obtain ⟨pair, -, rfl⟩ := List.mem_map.1 he
    exact braceless_equal d hprobe (hl.aliasName _) _ _

theorem braceless_join {host : Option String} (hhost : ∀ name, host = some name → NoBrace name)
    (j : Nat) : Braceless ((join s l host j).pieces d) := by
  have hconditions : ∀ e ∈ joinConditions s l host j, Braceless (e.pieces d) := by
    intro e he
    simp only [joinConditions, List.mem_append, List.mem_map] at he
    rcases he with ⟨pair, _, rfl⟩ | ⟨child, _, rfl⟩
    · unfold parentKey
      split
      · exact braceless_equal d (hhost _ rfl) (hl.aliasName _) _ _
      · exact braceless_equal d (hl.aliasName _) (hl.aliasName _) _ _
    · exact braceless_matchExists d hl child
  refine Sql.braceless_join d (Sql.braceless_ofTable d _ (hl.aliasName _)) ?_
  show Braceless (Expr.pieces d ((Expr.allOf? (joinConditions s l host j)).getD .never))
  cases hon : Expr.allOf? (joinConditions s l host j) with
  | none => exact Sql.braceless_never d
  | some e => exact Expr.braceless_allOf? d hconditions e hon

theorem braceless_joined {host : Option String} (hhost : ∀ name, host = some name → NoBrace name)
    (js : List Nat) : ∀ j ∈ js.map (join s l host), Braceless (j.pieces d) := by
  intro j hj
  obtain ⟨k, -, rfl⟩ := List.mem_map.1 hj
  exact braceless_join d hl hhost k

end Layout

/-! ### Filters -/

theorem braceless_params (ns : List Nat) :
    ∀ e ∈ ns.map Expr.param, Braceless (e.pieces d) := by
  intro e he
  obtain ⟨n, -, rfl⟩ := List.mem_map.1 he
  simp [Expr.pieces]

theorem braceless_param (n : Nat) : Braceless ((Expr.param n).pieces d) := by
  simp [Expr.pieces]

theorem braceless_test {column t : Expr} {k : Nat} {bound : List Value}
    (h : Test column k t bound) (hc : Braceless (column.pieces d)) : Braceless (t.pieces d) := by
  cases h with
  | isNull negate => exact Sql.braceless_isNull d hc negate
  | never => exact Sql.braceless_never d
  | binary op v => exact Sql.braceless_binary d hc op (braceless_param d k)
  | between low high =>
    exact Sql.braceless_between d hc (braceless_param d k) (braceless_param d (k + 1))
  | inList _ negate => exact Sql.braceless_inList d hc (braceless_params d _) negate

theorem braceless_joined? {es : List Expr} (h : ∀ e ∈ es, Braceless (e.pieces d)) (k : Combinator) :
    ∀ e, joined? k es = some e → Braceless (e.pieces d) := by
  cases k
  · exact Expr.braceless_allOf? d h
  · exact Expr.braceless_anyOf? d h

theorem filtered_braceless {g : JoinGraph} {columns : List Column} {f : Filter}
    {compile : Layout → Compile (Option Expr)} {select : Select} {n n' : Numbering}
    (h : filtered s g columns f compile n = .ok ((l, select), n'))
    (hc : ∀ l m e, l.Braceless → compile l m = .ok (e, n') →
      ∀ t, e = some t → Braceless (t.pieces d)) :
    l.Braceless ∧ select.Braceless d := by
  obtain ⟨grown, conditions, filter, -, rfl, hfilter, rfl⟩ := filtered_ok h
  have hl := braceless_laidOut grown (columns ++ conditions) n.aliases
  refine ⟨hl, {Select.Braceless.ofSource (braceless_rootTable d hl) with
    joins := braceless_joined d hl (by simp) _, filter := hc _ _ _ hl hfilter}⟩

theorem Projected.braceless {column : Column} {sorted : List (Column × Direction)}
    {select projected : Select} {paging : Option Paging} {m n' : Numbering}
    (h : Projected l column sorted select m paging projected n') (hl : l.Braceless)
    (hs : select.Braceless d) (hcolumn : column.Braceless)
    (hsorted : ∀ c ∈ sorted.map Prod.fst, c.Braceless) : projected.Braceless d := by
  have hitems : ∀ i ∈ [column].map l.item, Braceless (i.pieces d) :=
    braceless_items d hl (by simpa using hcolumn)
  cases h with
  | whole _ =>
    refine {hs with items := ?_}
    simpa using Sql.braceless_item d (braceless_expr d hl hcolumn) none
  | page _ =>
    have hpage := hs.showing hitems (braceless_orderBy d hl hsorted)
    refine {Select.Braceless.ofSource (Sql.braceless_derived d (hpage _).pieces
      (noBrace_tableAlias _)) with items := ?_}
    simpa using Sql.braceless_item d
      (Sql.braceless_qualified d (noBrace_tableAlias m.aliases.tables) (l.resultName column)) none

/-- Where the layout has no brace no filter has one, and the query behind a condition brings a
layout of its own. -/
theorem braceless_invariant (s : Schema) : Invariant s
    (fun _ l _ e _ => l.Braceless → ∀ t, e = some t → Braceless (t.pieces d))
    (fun _ l _ es _ => l.Braceless → ∀ e ∈ es, Braceless (e.pieces d))
    (fun _ _ select _ => select.Braceless d) where
  nil _ := by simp
  cons he hes hl := by
    intro e hmem
    rcases List.mem_append.1 hmem with hmem | hmem
    · exact he hl e (Option.mem_toList.1 hmem)
    · exact hes hl e hmem
  composite hes hl := braceless_joined? d (hes hl) _
  test hcolumn _ h hl := by
    rintro t rfl
    obtain ⟨column, hresolved, rfl⟩ := memberExpr_ok hcolumn
    obtain ⟨bound, -, htest⟩ := (compare_ok h).1
    exact braceless_test d htest (braceless_expr d hl (Member.braceless_resolve hresolved))
  inSelect hcolumn _ hselect hl := by
    rintro t heq
    obtain rfl := Option.some.inj heq
    obtain ⟨column, hresolved, rfl⟩ := memberExpr_ok hcolumn
    exact Sql.braceless_inSelect d
      (braceless_expr d hl (Member.braceless_resolve hresolved)) hselect.pieces _
  query h hfilter := by
    obtain ⟨_, _, _, column, _, sorted, _, _, _, -, hcolumn, hsorted, hfiltered, hprojected⟩ :=
      subselect_ok h
    obtain ⟨hl, hinner⟩ := filtered_braceless d hfiltered fun _ _ _ hl he => hfilter he hl
    exact hprojected.braceless d hl hinner (Member.braceless_resolve (by rw [hcolumn]))
      (Member.braceless_resolveEach (resolveSorting_ok hsorted))

theorem filterExpr_braceless {f : Filter} {n n' : Numbering} {e : Option Expr} (hl : l.Braceless)
    (h : filterExpr s f l n = .ok (e, n')) : ∀ t, e = some t → Braceless (t.pieces d) :=
  (braceless_invariant d s).filterExpr h hl

/-! ### Queries -/

theorem resolveGrouped_braceless {g : JoinGraph} {f : Filter} {grouping : Grouping}
    {display sorted : List Column} {c : GroupedColumns}
    (hasked : ∀ column ∈ display ++ sorted, column.Braceless)
    (h : resolveGrouped s g f grouping display sorted = .ok c) :
    (∀ column ∈ c.inner, column.Braceless) ∧ (∀ column ∈ c.keys, column.Braceless) ∧
      ∀ column ∈ c.beside, column.Braceless := by
  obtain ⟨_, _, _, _, _, rowCount, hkeys, -, -, hrowCount, hinner, -, hbeside, -, -⟩ :=
    resolveGrouped_ok h
  have hkeyed := Member.braceless_resolveEach hkeys
  have hcount : rowCount.Braceless := Member.braceless_resolve (by rw [hrowCount])
  refine ⟨fun column hcolumn => ?_, hkeyed, fun column hcolumn => ?_⟩
  · rw [hinner] at hcolumn
    obtain hcolumn | hcolumn | rfl := mem_innerColumns hcolumn
    · exact hkeyed column hcolumn
    · exact hasked column hcolumn
    · exact hcount
  · rw [hbeside] at hcolumn
    exact hasked column (List.mem_append_left _ (List.mem_of_mem_filter hcolumn))

theorem braceless_countItems : ∀ i ∈ countItems, Braceless (i.pieces d) := by
  simp +decide [countItems, Sql.Item.pieces, Expr.pieces]

section Groups
variable (hl : l.Braceless)
include hl

theorem braceless_groups {c : GroupedColumns} (hinner : ∀ column ∈ c.inner, column.Braceless)
    (hkeys : ∀ column ∈ c.keys, column.Braceless) {filter having : Option Expr}
    (hfilter : ∀ e, filter = some e → Braceless (e.pieces d))
    (hhaving : ∀ e, having = some e → Braceless (e.pieces d)) :
    (groupsSelect s l c filter having).Braceless d where
  __ := Select.Braceless.ofSource (braceless_rootTable d hl)
  items := braceless_items d hl hinner
  joins := braceless_joined d hl (by simp) _
  filter := hfilter
  groupBy := by
    intro e he
    obtain ⟨column, hcolumn, rfl⟩ := List.mem_map.1 he
    exact braceless_expr d hl (hkeys column hcolumn)
  having := hhaving

theorem braceless_outerOrder {derived : String} (hderived : NoBrace derived) (inner : List Column)
    {sorted : List (Column × Direction)} (hsorted : ∀ c ∈ sorted.map Prod.fst, c.Braceless) :
    ∀ o ∈ outerOrder l derived inner sorted, Braceless (o.expr.pieces d) := by
  intro o ho
  obtain ⟨⟨column, direction⟩, hmem, rfl⟩ := List.mem_map.1 ho
  show Braceless (Expr.pieces d (if _ then _ else _))
  split
  · exact Sql.braceless_qualified d hderived _
  · exact braceless_expr d hl (hsorted column (List.mem_map_of_mem hmem))

theorem braceless_beside {c : GroupedColumns} (hbeside : ∀ column ∈ c.beside, column.Braceless)
    {groups : Select} (hgroups : groups.Braceless d) {derived : String}
    (hderived : NoBrace derived) {sorted : List (Column × Direction)}
    (hsorted : ∀ c ∈ sorted.map Prod.fst, c.Braceless) :
    (besideSelect s l c groups derived sorted).Braceless d where
  __ := Select.Braceless.ofSource (Sql.braceless_derived d hgroups.pieces hderived)
  items := by
    refine List.forall_mem_append.2 ⟨braceless_items d hl hbeside, ?_⟩
    simp +decide [Sql.Item.pieces, toString, hderived]
  joins := braceless_joined d hl (fun _ h => Option.some.inj h ▸ hderived) _
  orderBy := braceless_outerOrder d hl hderived _ hsorted

end Groups

theorem querySelects_braceless {q : Query} {shown count : Select} {n n' : Numbering}
    (h : querySelects s q n = .ok ((l, shown, count), n')) :
    shown.Braceless d ∧ count.Braceless d := by
  obtain ⟨e, g, display, grown, sorted, -, hdisplay, hsorted, hcases⟩ := querySelects_ok h
  have hshown := Member.braceless_resolveEach hdisplay
  have hordered := Member.braceless_resolveEach (resolveSorting_ok hsorted)
  obtain ⟨inner, -, hfiltered, rfl, rfl⟩ | ⟨grouping, c, -, hc, hgrouped⟩ := hcases
  · obtain ⟨hl, hinner⟩ := filtered_braceless d hfiltered fun _ _ _ => filterExpr_braceless d
    exact ⟨hinner.showing (braceless_items d hl hshown) (braceless_orderBy d hl hordered) _,
      {hinner with items := braceless_countItems d}⟩
  · obtain ⟨hinner, hkeys, hbeside⟩ := resolveGrouped_braceless
      (List.forall_mem_append.2 ⟨hshown, hordered⟩) hc
    obtain ⟨filter, m, having, m', rfl, hfilter, hhaving, rfl, rfl, -⟩ := groupedSelects_ok hgrouped
    have hl := braceless_laidOut c.graph (c.inner ++ c.filtered ++ (c.beside ++ c.besideSorted))
      n.aliases
    have hderived := noBrace_tableAlias m'.aliases.tables
    have hgroups := braceless_groups d (s := s) hl hinner hkeys
      (filterExpr_braceless d hl hfilter) (filterExpr_braceless d hl hhaving)
    exact ⟨braceless_beside d hl hbeside hgroups hderived hordered,
      {Select.Braceless.ofSource (Sql.braceless_derived d hgroups.pieces hderived) with
        items := braceless_countItems d}⟩

theorem braceless_counted {columns : List Expr} (h : ∀ e ∈ columns, Braceless (e.pieces d)) :
    Braceless ((counted columns).pieces d) := by
  match columns with
  | [] => simp +decide [counted, Expr.pieces]
  | [_] => exact Expr.braceless_call d h (by decide)
  | _ :: _ :: _ =>
    refine Expr.braceless_call d (fun e he => ?_) (by decide)
    exact List.mem_singleton.1 he ▸ Expr.braceless_call d h (by decide)

/-! ### Writes -/

theorem braceless_column (column : String) : Braceless ((Expr.qualified "" column).pieces d) :=
  Sql.braceless_qualified d (by decide) column

theorem keyConditions_braceless {e : Entity} {row : OrderedMap Write} {keys : List Property}
    {conditions : List Expr} {n n' : Numbering}
    (h : keys.mapM (keyCondition e row) n = .ok (conditions, n')) :
    ∀ condition ∈ conditions, Braceless (condition.pieces d) := by
  induction keys generalizing n conditions with
  | nil =>
    rw [List.mapM_nil] at h
    obtain ⟨rfl, -⟩ := pure_ok.1 h
    exact fun _ h => absurd h List.not_mem_nil
  | cons key rest ih =>
    simp only [List.mapM_cons, bind_ok, pure_ok] at h
    obtain ⟨condition, m, hcondition, others, m', hothers, rfl, rfl⟩ := h
    obtain ⟨v, -, -, rfl, -⟩ := keyCondition_ok hcondition
    refine List.forall_mem_cons.2 ⟨?_, ih hothers⟩
    exact Sql.braceless_binary d (braceless_column d _) .eq (braceless_param d _)

theorem assignmentsOf_braceless {e : Entity} {row : OrderedMap Write} {byKey : Bool}
    {members : List String} {as : List Sql.Assignment} {n n' : Numbering}
    (h : assignmentsOf e row byKey members n = .ok (as, n')) :
    ∀ a ∈ as, Braceless (a.value.pieces d) := by
  induction members generalizing n as with
  | nil =>
    simp only [assignmentsOf, pure_ok] at h
    obtain ⟨rfl, -⟩ := h
    exact fun _ h => absurd h List.not_mem_nil
  | cons member rest ih =>
    obtain h | ⟨w, p, value, m, others, -, -, -, hvalue, hothers, rfl⟩ := assignmentsOf_cons_ok h
    · exact ih h
    · refine List.forall_mem_cons.2 ⟨?_, ih hothers⟩
      obtain ⟨rfl, -⟩ | ⟨v, -, rfl | ⟨column, op, rfl⟩⟩ := writeValue_ok hvalue
      · simp +decide [Expr.pieces]
      · exact braceless_param d _
      · exact Sql.braceless_binary d (braceless_column d _) op (braceless_param d _)

/-! ### Statements -/

theorem Compiled.braceless {statement : Sql.Statement} {params : List Value}
    (h : Compiled s statement params) : Braceless (statement.pieces d) := by
  cases h with
  | select h =>
    obtain ⟨n, hrun, -⟩ := select_ok h
    exact (querySelects_braceless d hrun).1.pieces
  | page p h =>
    obtain ⟨n, hrun, -⟩ := select_ok h
    have hshown := (querySelects_braceless d hrun).1
    exact (hshown.showing hshown.items hshown.orderBy (limit? p)).pieces
  | total h =>
    obtain ⟨n, hrun, -⟩ := select_ok h
    exact (querySelects_braceless d hrun).2.pieces
  | count h =>
    obtain ⟨e, g, included, l, inner, n, -, hincluded, hfiltered, rfl, -⟩ := count_ok h
    obtain ⟨hl, hinner⟩ := filtered_braceless d hfiltered fun _ _ _ => filterExpr_braceless d
    refine Select.Braceless.pieces {hinner with items := ?_}
    have hcounted : Braceless ((counted (included.map l.expr)).pieces d) := by
      refine braceless_counted d fun e he => ?_
      obtain ⟨column, hcolumn, rfl⟩ := List.mem_map.1 he
      exact braceless_expr d hl (Member.braceless_resolveEach hincluded column hcolumn)
    exact fun i hi => List.mem_singleton.1 hi ▸ Sql.braceless_item d hcounted none
  | existence h =>
    obtain ⟨e, l, inner, n, -, hfiltered, rfl, -⟩ := existence_ok h
    obtain ⟨-, hinner⟩ := filtered_braceless d hfiltered fun _ _ _ => filterExpr_braceless d
    refine (hinner.showing (fun i hi => ?_) hinner.orderBy (some ⟨0, 1⟩)).pieces
    exact List.mem_singleton.1 hi ▸ Sql.braceless_item d (Sql.braceless_literal d 0) none
  | insert h =>
    obtain ⟨columns, -, rfl⟩ := insert_ok h
    exact Sql.braceless_insert d _ _ (braceless_params d _)
  | update h =>
    obtain ⟨filter, n, as, n', hfilter, has, rfl⟩ := update_ok h
    refine Sql.braceless_update d _ (assignmentsOf_braceless d has) ?_
    obtain ⟨-, hkeys⟩ | ⟨-, hwrite⟩ := hfilter
    · obtain ⟨keys, hconditions, -, rfl⟩ := keysExpr_ok hkeys
      exact Expr.braceless_allOf? d (keyConditions_braceless d hconditions)
    · exact filterExpr_braceless d (braceless_bareLayout _) (writeFilterExpr_ok hwrite).2
  | delete h =>
    obtain ⟨filter, n, hfilter, rfl⟩ := delete_ok h
    exact Sql.braceless_delete d _
      (filterExpr_braceless d (braceless_bareLayout _) (writeFilterExpr_ok hfilter).2)

end Plan
end EntityQuery
