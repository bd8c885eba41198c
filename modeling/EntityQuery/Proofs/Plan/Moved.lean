import EntityQuery.Proofs.Plan.Carried

/-! Selects at another place.

A select depends on its place in a statement by the aliases and the placeholders in it alone:
compiled from a numbering that corresponds, its filter, its joins and its sources are the same under
the renaming, and so are the queries behind conditions, to any depth (`filterExpr_carried`,
`filtered_parallel`). -/
namespace EntityQuery.Plan

open Member (Column)
open Sql (Expr Select Renaming)

variable {s : Schema} {ρ : Renaming} {R : Value → Value → Prop} {l l' : Layout} {n n' : Numbering}

/-! ### Columns -/

/-- The expression of a member goes from one layout to another. -/
structure MemberCarried (s : Schema) (ρ : Renaming) (l l' : Layout) (member : String) : Prop where
  alike : Except.Alike (fun e e' => e' = e.renamed ρ []) (memberExpr s l member)
    (memberExpr s l' member)

/-- Two layouts of one graph, the second with the aliases of the first under a renaming. -/
structure Layout.Renamed (ρ : Renaming) (l l' : Layout) : Prop where
  graph : l'.graph = l.graph
  label : ∀ scope, l'.label scope = (l.label scope).bind ρ.name

namespace Layout.Renamed
variable (h : l.Renamed ρ l')
include h

theorem expr (c : Column) : (l.expr c).renamed ρ [] = l'.expr c :=
  expr_of_label (h.label c.scope) rfl rfl

theorem memberExpr_alike (member : String) : MemberCarried s ρ l l' member := by
  refine ⟨?_⟩
  rw [memberExpr, memberExpr, h.graph]
  exact (Except.Alike.refl (fun _ => rfl) _).map fun c c' hc => by rw [← hc, h.expr]

end Layout.Renamed

/-! ### Sources -/

/-- The layouts of one graph that takes its aliases at two places. -/
structure Layout.Moved (ρ : Renaming) (l l' : Layout) : Prop extends l.Renamed ρ l' where
  flipped : l'.flipped = l.flipped
  text : ∀ scope, ∃ key : AliasKey, l.aliasName scope = key.text ∧
    ρ.name key.text = some (l'.aliasName scope)
  probe : ∀ j, ρ.name (l.aliasName (j + 1) ++ "X") = some (l'.aliasName (j + 1) ++ "X")

theorem Corresponds.name_aliasKey (h : Corresponds ρ n n') (g : JoinGraph) (scope : Nat) :
    ρ.name (g.aliasKey n.aliases scope).text = some (g.aliasKey n'.aliases scope).text := by
  have htable := h.tables 0
  rw [Renaming.name_text]
  cases scope with
  | zero =>
    simp only [Nat.add_zero] at htable
    simp [JoinGraph.aliasKey, Renaming.key, htable]
  | succ j => simp [JoinGraph.aliasKey, Renaming.key, h.joins]

theorem label_laidOut (g : JoinGraph) (columns : List Column) (supply : AliasSupply) (scope : Nat) :
    (laidOut g columns supply).label scope = some (g.aliasKey supply scope).text := by
  show Sql.aliasName? (g.aliasName (g.assign supply).1 scope) = _
  rw [JoinGraph.aliasName_assign, aliasName?_of_ne (AliasKey.text_ne_empty _)]

theorem Corresponds.moved (h : Corresponds ρ n n') (g : JoinGraph) (columns : List Column) :
    (laidOut g columns n.aliases).Moved ρ (laidOut g columns n'.aliases) where
  graph := rfl
  label scope := by
    rw [label_laidOut, label_laidOut, Option.bind_some, h.name_aliasKey]
  flipped := rfl
  text scope := ⟨g.aliasKey n.aliases scope, JoinGraph.aliasName_assign g n.aliases scope, by
    rw [h.name_aliasKey]
    exact congrArg some (JoinGraph.aliasName_assign g n'.aliases scope).symm⟩
  probe j := by
    have hname := ρ.name_text (.probe (n.aliases.joins + g.preorder.idxOf j))
    rw [Renaming.key, h.joins] at hname
    exact hname

namespace Layout.Moved
variable (h : l.Moved ρ l')
include h

/-- Each scope goes to itself. -/
theorem carried (s : Schema) : l.Carried s ρ (· = ·) l' where
  text {a b} hab := by
    obtain rfl : a = b := hab
    exact h.text a
  probe {j k} hjk := by
    obtain rfl : j = k := Nat.succ.inj hjk
    exact h.probe j
  entity {a b} hab := by
    obtain rfl : a = b := hab
    rw [h.graph]
  navigation {j k} hjk := by
    obtain rfl : j = k := Nat.succ.inj hjk
    rw [h.graph]
  parent {j k} hjk := by
    obtain rfl : j = k := Nat.succ.inj hjk
    rw [h.graph]

theorem resultName (c : Column) : ρ.result (l.resultName c) = l'.resultName c :=
  (h.carried ⟨[]⟩).resultName rfl rfl rfl

theorem item (c : Column) : (l.item c).renamed ρ [] = l'.item c :=
  (h.carried ⟨[]⟩).item rfl rfl rfl

theorem rootTable : (rootTable s l).renamed ρ [] = rootTable s l' := (h.carried s).rootTable rfl

end Layout.Moved

theorem renamed?_joined? (k : Combinator) (es : List Expr) (derived : List String) :
    Expr.renamed? ρ (joined? k es) derived = joined? k (Expr.allRenamed ρ es derived) := by
  cases k <;> match es with
  | [] | [_] | _ :: _ :: _ => rfl

namespace Layout.Moved
variable (h : l.Moved ρ l')
include h

theorem joinConditions (j : Nat) : Expr.allRenamed ρ (joinConditions s l none j) [] =
    joinConditions s l' none j := by
  rw [joinConditions_eq, joinConditions_eq, h.graph, h.flipped, ← (h.carried s).keyConditions rfl,
    Sql.allRenamed_eq_map, Sql.allRenamed_eq_map, List.map_append, List.map_map]
  exact congrArg _ (List.map_congr_left fun child _ => (h.carried s).matchExists rfl)

theorem join (j : Nat) : (join s l none j).renamed ρ [] [] = join s l' none j := by
  have hon : ((Expr.allOf? (Plan.joinConditions s l none j)).getD Expr.never).renamed ρ [] =
      (Expr.allOf? (Plan.joinConditions s l' none j)).getD Expr.never := by
    rw [← h.joinConditions, ← renamed?_allOf?]
    cases Expr.allOf? (Plan.joinConditions s l none j) <;> rfl
  simp only [Plan.join, Sql.Join.renamed, h.graph, h.flipped, (h.carried s).ofTable _ rfl, hon]

end Layout.Moved

/-! ### Selects -/

/-- A select with its layout, and the two at another place. -/
structure SelectMoved (ρ : Renaming) (a b : Layout × Select) : Prop where
  layout : a.1.Moved ρ b.1
  noDerived : Sql.derivedNames a.2.source a.2.joins = []
  select : b.2 = a.2.renamed ρ []

theorem freshTable_parallel :
    Parallel ρ R (fun a b => ρ.name a = some b ∧ a ≠ "" ∧ b ≠ "") freshTable freshTable := by
  intro n n' hn
  have htable := hn.tables 0
  have hname := ρ.name_text (.table n.aliases.tables)
  simp only [Nat.add_zero] at htable
  rw [Renaming.key, htable] at hname
  have hne := fun k => AliasKey.text_ne_empty (.table k)
  exact .ok ⟨⟨hname, hne _, hne _⟩,
    ⟨⟨1, rfl, rfl⟩, ⟨0, rfl, rfl⟩, [], [], .nil, by simp, by simp⟩⟩

theorem layOut_parallel (g : JoinGraph) (columns : List Column) :
    Parallel ρ R (fun a b => a.1.Moved ρ b.1 ∧ b.2 = a.2) (layOut g columns) (layOut g columns) :=
  fun n n' hn => .ok ⟨⟨hn.moved g columns, rfl⟩,
    ⟨⟨1, rfl, rfl⟩, ⟨g.joins.length, rfl, rfl⟩, [], [], .nil, by simp, by simp⟩⟩

theorem derivedNames_joins (s : Schema) (l : Layout) (host : Option String) (needed : List Nat) :
    Sql.derivedNames (rootTable s l) (needed.map (join s l host)) = [] := by
  have hjoin : ∀ j, (join s l host j).source.derivedName? = none := fun j => rfl
  rw [Sql.derivedNames, List.filterMap_eq_nil_iff]
  intro source hsource
  rcases List.mem_cons.1 hsource with rfl | hsource
  · rfl
  · obtain ⟨j, hj, rfl⟩ := List.mem_map.1 hsource
    obtain ⟨i, -, rfl⟩ := List.mem_map.1 hj
    exact hjoin i

theorem Layout.Moved.joins (h : l.Moved ρ l') (needed : List Nat) :
    Sql.Join.allRenamed ρ (needed.map (Plan.join s l none)) [] [] =
      needed.map (Plan.join s l' none) := by
  induction needed with
  | nil => rfl
  | cons j rest ih => rw [List.map_cons, Sql.Join.allRenamed, h.join, ih, List.map_cons]

theorem filtered_parallel {f f' : Filter} {compile compile' : Layout → Compile (Option Expr)}
    (hmembers : f.conditions.map (·.member) = f'.conditions.map (·.member))
    (hcompile : ∀ l l', l.Moved ρ l' →
      Parallel ρ R (fun e e' => e' = Expr.renamed? ρ e []) (compile l) (compile' l'))
    (g : JoinGraph) (columns : List Column) :
    Parallel ρ R (SelectMoved ρ) (filtered s g columns f compile)
      (filtered s g columns f' compile') := by
  unfold filtered resolveConditions
  rw [hmembers]
  refine (Parallel.same _).bind_of_eq ?_
  rintro ⟨g, conditions⟩
  refine (layOut_parallel g (columns ++ conditions)).bind ?_
  rintro ⟨l, _⟩ ⟨l', needed⟩ ⟨hl, rfl⟩
  have hnone := derivedNames_joins s l none needed
  refine (hcompile l l' hl).bind fun filter filter' hfilter => .pure ⟨hl, hnone, ?_⟩
  rw [renamed_of_no_derived _ hnone, hfilter, ← hl.joins, ← hl.rootTable]
  rfl

theorem Layout.Moved.orderBy (h : l.Moved ρ l') (sorted : List (Column × Direction)) :
    Sql.OrderBy.allRenamed ρ (Plan.orderBy l sorted) [] = Plan.orderBy l' sorted := by
  induction sorted with
  | nil => rfl
  | cons first rest ih =>
    have hfirst := h.expr first.1
    simp only [Plan.orderBy, List.map_cons, Sql.OrderBy.allRenamed, Sql.OrderBy.renamed] at ih ⊢
    rw [hfirst, ih]

/-- What a select shows, sorts by and cuts off is given before it is moved or after. -/
theorem SelectMoved.showing {select select' : Select} (h : SelectMoved ρ (l, select) (l', select'))
    (items : List Sql.Item) (orders : List Sql.OrderBy) (limit : Option Sql.Limit) :
    Select.renamed ρ {select with items, orderBy := orders, limit} [] =
      {select' with
        items := Sql.Item.allRenamed ρ items []
        orderBy := Sql.OrderBy.allRenamed ρ orders []
        limit } := by
  have hselect : select' = select.renamed ρ [] := h.select
  rw [renamed_of_no_derived select h.noDerived] at hselect
  subst hselect
  exact renamed_of_no_derived {select with items, orderBy := orders, limit} h.noDerived

/-- A column that is read from a derived table has there the name that it gets inside. -/
theorem renamed_derived {page : Select} {derived derived' : String}
    (hname : ρ.name derived = some derived') (hne : derived ≠ "") (hne' : derived' ≠ "")
    (column : String) :
    Select.renamed ρ { Select.of (.derived page derived) with
        items := [.expr (.qualified derived column) none] } [] =
      { Select.of (.derived (page.renamed ρ []) derived') with
        items := [.expr (.qualified derived' (ρ.result column)) none] } := by
  have hcolumn : (Expr.qualified derived column).renamed ρ [derived] =
      .qualified derived' (ρ.result column) := by
    rw [Expr.qualified, aliasName?_of_ne hne, Expr.renamed, if_pos (List.mem_singleton_self _),
      hname, Expr.qualified, aliasName?_of_ne hne']
  have hinside : [] ++ Sql.derivedNames (.derived page derived) [] = [derived] := rfl
  simp only [Select.of, Select.renamed, hinside, Sql.Item.allRenamed, Sql.Item.renamed, hcolumn,
    Sql.Source.renamed, hname, Option.getD_some, Sql.Join.allRenamed, Expr.renamed?,
    Expr.allRenamed, Sql.OrderBy.allRenamed, Option.map_none]

theorem projectOne_parallel {select select' : Select}
    (h : SelectMoved ρ (l, select) (l', select')) (column : Column)
    (sorted : List (Column × Direction)) (paging : Option Paging) :
    Parallel ρ R (fun a b => b = a.renamed ρ []) (projectOne l column sorted paging select)
      (projectOne l' column sorted paging select') := by
  have hl : l.Moved ρ l' := h.layout
  unfold projectOne
  cases paging.bind limit? with
  | none =>
    have hselect : select' = select.renamed ρ [] := h.select
    have hshown := h.showing [.expr (l.expr column) none] select.orderBy select.limit
    rw [renamed_of_no_derived _ h.noDerived] at hselect
    refine .pure ?_
    rw [hshown, hselect]
    simp only [Sql.Item.allRenamed, Sql.Item.renamed, hl.expr, Option.map_none]
  | some limit =>
    have hpage := h.showing [l.item column] (orderBy l sorted) (some limit)
    rw [hl.orderBy, Sql.Item.allRenamed, hl.item] at hpage
    refine freshTable_parallel.bind fun derived derived' ⟨hname, hne, hne'⟩ => .pure ?_
    rw [renamed_derived hname hne hne', hpage, hl.resultName]
    rfl

/-! ### Filters -/

/-- The target of a query behind a condition depends on no value. -/
theorem subqueryTarget_alike {q r : Query} (h : q.Alike R r) :
    subqueryTarget s r = subqueryTarget s q := by
  cases h with
  | intro _ hgrouping => cases hgrouping <;> rfl

mutual

/-- **Filters in parallel.** A filter like another one compiles, where the numberings correspond and
its members go from one layout to the other, to the expression of that one under the renaming. -/
theorem filterExpr_carried (hR : ∀ v w, R v w → v.SameKind w) :
    ∀ {f g : Filter} {l l' : Layout}, f.Alike R g →
      (∀ c ∈ f.conditions, MemberCarried s ρ l l' c.member) → Parallel ρ R
        (fun e e' => e' = Expr.renamed? ρ e []) (filterExpr s f l) (filterExpr s g l')
  | .condition c, _, _, _, .condition h, hl => by
    rw [Filter.conditions] at hl
    exact conditionExpr_carried hR h (hl c (List.mem_singleton_self c))
  | .composite k fs, _, _, _, .composite h, hl => by
    rw [Filter.conditions] at hl
    refine (filterExprs_carried hR h hl).bind fun es es' hes => .pure ?_
    rw [hes]
    cases k
    · exact (renamed?_joined? .and es []).symm
    · exact (renamed?_joined? .or es []).symm
termination_by structural f => f

theorem filterExprs_carried (hR : ∀ v w, R v w → v.SameKind w) :
    ∀ {fs gs : List Filter} {l l' : Layout}, Filter.AllAlike R fs gs →
      (∀ c ∈ Filter.conditionsOf fs, MemberCarried s ρ l l' c.member) →
      Parallel ρ R (fun es es' => es' = Expr.allRenamed ρ es []) (filterExprs s fs l)
        (filterExprs s gs l')
  | [], _, _, _, .nil, _ => .pure rfl
  | f :: fs, _, _, _, .cons h hrest, hl => by
    rw [Filter.conditionsOf, List.forall_mem_append] at hl
    refine (filterExpr_carried hR h hl.1).bind fun e e' he =>
      (filterExprs_carried hR hrest hl.2).bind fun es es' hes => .pure ?_
    rw [he, hes]
    cases e <;> rfl
termination_by structural fs => fs

theorem conditionExpr_carried (hR : ∀ v w, R v w → v.SameKind w) :
    ∀ {c d : Condition} {l l' : Layout}, c.Alike R d → MemberCarried s ρ l l' c.member →
      Parallel ρ R (fun e e' => e' = Expr.renamed? ρ e []) (conditionExpr s c l)
        (conditionExpr s d l')
  | ⟨member, comparison, o⟩, _, _, _, .intro h, hl => by
    refine (Parallel.resolved hl.alike).bind fun column column' hcolumn => ?_
    have hcompare := compare_parallel hcolumn member comparison hR h.values
    split
    · refine (operandSelect_parallel hR h).bind fun select select' hselect => ?_
      cases hselect with
      | none => exact hcompare
      | some hselect =>
        refine .pure ?_
        rw [hcolumn, hselect]
        rfl
    · exact hcompare
termination_by structural c => c

theorem operandSelect_parallel (hR : ∀ v w, R v w → v.SameKind w) :
    ∀ {o p : Operand}, o.Alike R p → Parallel ρ R
      (Option.Rel fun a b => b = Select.renamed ρ a []) (operandSelect s o) (operandSelect s p)
  | .query _, _, .query h =>
    (subselect_parallel hR h).bind fun _ _ hselect => .pure (.some hselect)
  | .absent, _, .absent => .pure .none
  | .value _, _, .value _ => .pure .none
  | .list _, _, .list _ => .pure .none
termination_by structural o => o

theorem subselect_parallel (hR : ∀ v w, R v w → v.SameKind w) :
    ∀ {q r : Query}, q.Alike R r → Parallel ρ R
      (fun a b => b = Select.renamed ρ a []) (subselect s q) (subselect s r)
  | ⟨entity, filter, members, sorting, grouping, paging⟩, _, .intro hf hgrouping => by
    have halike : Query.Alike R ⟨entity, filter, members, sorting, grouping, paging⟩ _ :=
      .intro hf hgrouping
    have htarget := subqueryTarget_alike (s := s) halike
    unfold subselect
    rw [htarget]
    refine (Parallel.same _).bind_of_eq ?_
    rintro ⟨e, member⟩
    refine (Parallel.same _).bind_of_eq fun column => ?_
    refine (Parallel.same _).bind_of_eq ?_
    rintro ⟨g, sorted⟩
    refine (filtered_parallel hf.members (fun l l' hl => filterExpr_carried hR hf fun c _ =>
      hl.memberExpr_alike c.member) g (column :: sorted.map Prod.fst)).bind ?_
    rintro ⟨l, select⟩ ⟨l', select'⟩ hselect
    exact projectOne_parallel hselect column sorted paging
termination_by structural q => q

end

/-- Every filter goes along when nothing but aliases differ. -/
theorem filterExpr_parallel (hR : ∀ v w, R v w → v.SameKind w) {f g : Filter}
    (h : f.Alike R g) (hl : l.Renamed ρ l') : Parallel ρ R
      (fun e e' => e' = Expr.renamed? ρ e []) (filterExpr s f l) (filterExpr s g l') :=
  filterExpr_carried hR h fun c _ => hl.memberExpr_alike c.member

end EntityQuery.Plan
