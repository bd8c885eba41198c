import EntityQuery.Plan.Select
import EntityQuery.Plan.Write
import EntityQuery.Proofs.Chain

/-! Runs that succeed, opened.

A compilation is a chain of steps that may fail and that share a numbering. Every fact about what
comes out of one starts from the same place: it succeeded, so each of its steps did, and what it
returns is made of what they return. This module says that once for each function. What follows
about placeholders, scopes and truth unfolds none of them again. -/
namespace EntityQuery.Plan

open Member (Column)
open Sql (Expr Select)

section Steps
variable {α β : Type} {n n' : Numbering}

@[simp] theorem bind_ok {x : Compile α} {f : α → Compile β} {b : β} :
    (x >>= f) n = .ok (b, n') ↔ ∃ a m, x n = .ok (a, m) ∧ f a m = .ok (b, n') := by
  show (x n >>= fun p => f p.1 p.2) = _ ↔ _
  simp

@[simp] theorem pure_ok {a b : α} : (pure a : Compile α) n = .ok (b, n') ↔ a = b ∧ n = n' := by
  show (Except.ok (a, n) : Except Error _) = _ ↔ _
  simp

@[simp] theorem resolved_ok {step : Except Error α} {a : α} :
    resolved step n = .ok (a, n') ↔ step = .ok a ∧ n = n' := by
  cases step <;> simp [resolved, Except.map]

@[simp] theorem param_ok {v : Value} {e : Expr} :
    param v n = .ok (e, n') ↔
      .param n.params.length = e ∧ {n with params := n.params ++ [v]} = n' := by
  simp [param]

@[simp] theorem freshTable_ok {name : String} :
    freshTable n = .ok (name, n') ↔
      tableAlias n.aliases.tables = name ∧ {n with aliases := n.aliases.freshTable.2} = n' := by
  simp [freshTable, AliasSupply.freshTable]

@[simp] theorem assign_ok {g : JoinGraph} {names : Naming} :
    assign g n = .ok (names, n') ↔
      (g.assign n.aliases).1 = names ∧ {n with aliases := (g.assign n.aliases).2} = n' := by
  simp [assign]

@[simp] theorem raise_ne_ok {c : Cause} {a : α} : (Error.raise c : Except Error α) ≠ .ok a := by
  simp [Error.raise]

end Steps

/-! ### Values -/

variable {s : Schema} {l : Layout} {n n' : Numbering}

theorem paramAll_ok {vs : List Value} {es : List Expr} (h : paramAll vs n = .ok (es, n')) :
    es = (List.range' n.params.length vs.length).map .param ∧
      n' = {n with params := n.params ++ vs} := by
  induction vs generalizing n es with
  | nil =>
    simp only [paramAll, pure_ok] at h
    simp [← h.1, ← h.2]
  | cons v rest ih =>
    simp only [paramAll, bind_ok, param_ok, pure_ok] at h
    obtain ⟨e, m, ⟨rfl, rfl⟩, others, m', hrest, rfl, rfl⟩ := h
    obtain ⟨rfl, rfl⟩ := ih hrest
    simp [List.range'_succ]

/-- The shapes that the test of a column takes: the numbers of its placeholders start at `k`, and
its values are what they stand for. -/
inductive Test (column : Expr) (k : Nat) : Expr → List Value → Prop where
  | isNull (negate : Bool) : Test column k (.isNull column negate) []
  | never : Test column k .never []
  | binary (op : Sql.BinaryOp) (v : Value) : Test column k (.binary column op (.param k)) [v]
  | between (low high : Value) :
    Test column k (.between column (.param k) (.param (k + 1))) [low, high]
  | inList (vs : List Value) (negate : Bool) :
    Test column k (.inList column ((List.range' k vs.length).map .param) negate) vs

/-- What a step that tests a column may return: a test whose values are bound behind those that
are there, or nothing, and then no value is bound. -/
def Tested (column : Expr) (n n' : Numbering) (e : Option Expr) : Prop :=
  ∃ bound, n' = {n with params := n.params ++ bound} ∧
    match e with
    | none => bound = []
    | some t => Test column n.params.length t bound

theorem tested_of_test {column t : Expr} {bound : List Value}
    (h : Test column n.params.length t bound) :
    Tested column n {n with params := n.params ++ bound} (some t) :=
  ⟨bound, rfl, h⟩

theorem tested_isNull (column : Expr) (negate : Bool) (n : Numbering) :
    Tested column n n (some (.isNull column negate)) :=
  ⟨[], by simp, .isNull negate⟩

theorem membership_ok {column : Expr} {negate : Bool} {vs : List Value} {e : Option Expr}
    (h : membership column negate vs n = .ok (e, n')) :
    Tested column n n' e ∧ (e = none ↔ negate = true ∧ vs = []) := by
  match vs with
  | [] =>
    simp only [membership, pure_ok] at h
    obtain ⟨rfl, rfl⟩ := h
    cases negate
    · exact ⟨⟨[], by simp, .never⟩, by simp⟩
    · exact ⟨⟨[], by simp, rfl⟩, by simp⟩
  | [v] =>
    simp only [membership, bind_ok, param_ok, pure_ok] at h
    obtain ⟨p, m, ⟨rfl, rfl⟩, rfl, rfl⟩ := h
    exact ⟨tested_of_test (.binary _ v), by simp⟩
  | v :: w :: rest =>
    simp only [membership, bind_ok, pure_ok] at h
    obtain ⟨list, m, hlist, rfl, rfl⟩ := h
    obtain ⟨rfl, rfl⟩ := paramAll_ok hlist
    exact ⟨tested_of_test (.inList _ negate), by simp⟩

/-- Of all comparisons only being outside of nothing tests nothing. -/
theorem compare_ok {column : Expr} {member : String} {c : Comparison} {vs : List Value}
    {e : Option Expr} (h : compare column member c vs n = .ok (e, n')) :
    Tested column n n' e ∧ (e = none ↔ c = .notIn ∧ vs = []) := by
  cases c with
  | isIn => simpa using membership_ok h
  | notIn => simpa using membership_ok h
  | between =>
    match vs with
    | [low, high] =>
      simp only [compare, bind_ok, param_ok, pure_ok] at h
      obtain ⟨_, m, ⟨rfl, rfl⟩, _, m', ⟨rfl, rfl⟩, rfl, rfl⟩ := h
      refine ⟨⟨[low, high], by simp, ?_⟩, by simp⟩
      simpa using Test.between low high
    | [] | [_] | _ :: _ :: _ :: _ => simp [compare] at h
  | equal | like | notEqual =>
    cases hv : firstNonNull? vs with
    | none =>
      simp only [compare, hv, pure_ok] at h
      obtain ⟨rfl, rfl⟩ := h
      exact ⟨tested_isNull column _ _, by simp⟩
    | some v =>
      simp only [compare, hv, bind_ok, param_ok, pure_ok] at h
      obtain ⟨_, m, ⟨rfl, rfl⟩, rfl, rfl⟩ := h
      exact ⟨tested_of_test (.binary _ v), by simp⟩
  | greater | greaterOrEqual | less | lessOrEqual =>
    cases hv : firstNonNull? vs with
    | none => simp [compare, hv] at h
    | some v =>
      simp only [compare, hv, bind_ok, param_ok, pure_ok] at h
      obtain ⟨_, m, ⟨rfl, rfl⟩, rfl, rfl⟩ := h
      exact ⟨tested_of_test (.binary _ v), by simp⟩

/-! ### Members -/

theorem resolveEach_append {g g' g'' : JoinGraph} {paths others : List String}
    {columns more : List Column} (h : Member.resolveEach s g paths = .ok (g', columns))
    (hmore : Member.resolveEach s g' others = .ok (g'', more)) :
    Member.resolveEach s g (paths ++ others) = .ok (g'', columns ++ more) := by
  induction paths generalizing g columns with
  | nil =>
    obtain ⟨rfl, rfl⟩ := Prod.mk.inj (Except.ok.inj h)
    exact hmore
  | cons path rest ih =>
    simp only [Member.resolveEach, Except.bind_eq_ok, Except.pure_eq_ok, Prod.exists,
      Prod.mk.injEq] at h
    obtain ⟨c, hc, grown, found, hfound, rfl, rfl⟩ := h
    simp only [List.cons_append, Member.resolveEach, Except.bind_eq_ok, Except.pure_eq_ok,
      Prod.exists, Prod.mk.injEq]
    exact ⟨c, hc, g'', found ++ more, ih hfound, rfl, rfl⟩

theorem resolveEach_append_ok {g g'' : JoinGraph} {paths others : List String}
    {columns : List Column}
    (h : Member.resolveEach s g (paths ++ others) = .ok (g'', columns)) :
    ∃ g' first more, Member.resolveEach s g paths = .ok (g', first) ∧
      Member.resolveEach s g' others = .ok (g'', more) ∧ columns = first ++ more := by
  induction paths generalizing g columns with
  | nil => exact ⟨g, [], columns, rfl, h, rfl⟩
  | cons path rest ih =>
    simp only [List.cons_append, Member.resolveEach, Except.bind_eq_ok, Except.pure_eq_ok,
      Prod.exists, Prod.mk.injEq] at h
    obtain ⟨c, hc, grown, found, hfound, rfl, rfl⟩ := h
    obtain ⟨g', first, more, hfirst, hmore, rfl⟩ := ih hfound
    refine ⟨g', c :: first, more, ?_, hmore, rfl⟩
    simp only [Member.resolveEach, Except.bind_eq_ok, Except.pure_eq_ok, Prod.exists,
      Prod.mk.injEq]
    exact ⟨c, hc, g', first, hfirst, rfl, rfl⟩

theorem resolveEach_singleton_ok {g g' : JoinGraph} {path : String} {columns : List Column}
    (h : Member.resolveEach s g [path] = .ok (g', columns)) :
    ∃ c, Member.resolve s g path = (g', .ok c) ∧ columns = [c] := by
  simp only [Member.resolveEach, Except.bind_eq_ok, Except.pure_eq_ok, Prod.exists,
    Prod.mk.injEq, Except.ok.injEq] at h
  obtain ⟨c, hc, grown, others, ⟨rfl, rfl⟩, rfl, rfl⟩ := h
  exact ⟨c, by rw [← hc], rfl⟩

/-- The members of sortings are resolved one after another. -/
theorem resolveSorting_ok {g g' : JoinGraph} {sorting : List Sorting}
    {sorted : List (Column × Direction)} (h : resolveSorting s g sorting = .ok (g', sorted)) :
    Member.resolveEach s g (sorting.flatMap (·.members)) = .ok (g', sorted.map Prod.fst) := by
  induction sorting generalizing g sorted with
  | nil =>
    obtain ⟨rfl, rfl⟩ := Prod.mk.inj (Except.ok.inj h)
    rfl
  | cons first rest ih =>
    simp only [resolveSorting, Except.bind_eq_ok, Except.pure_eq_ok, Prod.exists,
      Prod.mk.injEq] at h
    obtain ⟨grown, columns, hcolumns, grown', others, hothers, rfl, rfl⟩ := h
    have hall := resolveEach_append hcolumns (ih hothers)
    simpa [Function.comp_def] using hall

/-! ### Filters -/

/-- The operands of a node under its combinator. -/
def joined? : Combinator → List Expr → Option Expr
  | .and => Expr.allOf?
  | .or => Expr.anyOf?

theorem filterExpr_composite_ok {k : Combinator} {fs : List Filter} {e : Option Expr}
    (h : filterExpr s (.composite k fs) l n = .ok (e, n')) :
    ∃ es, filterExprs s fs l n = .ok (es, n') ∧ e = joined? k es := by
  simp only [filterExpr, bind_ok, pure_ok] at h
  obtain ⟨es, m, hes, rfl, rfl⟩ := h
  exact ⟨es, hes, by cases k <;> rfl⟩

theorem filterExprs_nil_ok {es : List Expr} (h : filterExprs s [] l n = .ok (es, n')) :
    es = [] ∧ n' = n := by
  simp only [filterExprs, pure_ok] at h
  exact ⟨h.1.symm, h.2.symm⟩

theorem filterExprs_cons_ok {f : Filter} {fs : List Filter} {es : List Expr}
    (h : filterExprs s (f :: fs) l n = .ok (es, n')) :
    ∃ e m rest, filterExpr s f l n = .ok (e, m) ∧ filterExprs s fs l m = .ok (rest, n') ∧
      es = e.toList ++ rest := by
  simp only [filterExprs, bind_ok, pure_ok] at h
  obtain ⟨e, m, he, rest, m', hrest, rfl, rfl⟩ := h
  exact ⟨e, m, rest, he, hrest, rfl⟩

theorem operandSelect_query_ok {q : Query} {select : Option Select}
    (h : operandSelect s (.query q) n = .ok (select, n')) :
    ∃ found, subselect s q n = .ok (found, n') ∧ select = some found := by
  simp only [operandSelect, bind_ok, pure_ok] at h
  obtain ⟨found, m, hfound, rfl, rfl⟩ := h
  exact ⟨found, hfound, rfl⟩

theorem operandSelect_ok {o : Operand} {select : Option Select} (ho : ∀ q, o ≠ .query q)
    (h : operandSelect s o n = .ok (select, n')) : select = none ∧ n' = n := by
  cases o with
  | query q => exact absurd rfl (ho q)
  | absent | value v | list vs =>
    simp only [operandSelect, pure_ok] at h
    exact ⟨h.1.symm, h.2.symm⟩

/-- A condition compares its column with the query behind it, or else with its values. -/
theorem conditionExpr_ok {member : String} {c : Comparison} {o : Operand} {e : Option Expr}
    (h : conditionExpr s ⟨member, c, o⟩ l n = .ok (e, n')) :
    ∃ column, memberExpr s l member = .ok column ∧
      ((∃ select, operandSelect s o n = .ok (some select, n') ∧ (c = .isIn ∨ c = .notIn) ∧
          e = some (.inSelect column select (c = .notIn))) ∨
        ((∀ q, o = .query q → c ≠ .isIn ∧ c ≠ .notIn) ∧
          compare column member c o.values n = .ok (e, n'))) := by
  simp only [conditionExpr, bind_ok, resolved_ok] at h
  obtain ⟨column, m, ⟨hcolumn, rfl⟩, h⟩ := h
  refine ⟨column, hcolumn, ?_⟩
  by_cases hc : c = .isIn ∨ c = .notIn
  · rw [if_pos (by simpa using hc)] at h
    obtain ⟨select, m', hselect, hrest⟩ := bind_ok.1 h
    cases o with
    | query q =>
      obtain ⟨found, hfound, rfl⟩ := operandSelect_query_ok hselect
      obtain ⟨rfl, rfl⟩ := pure_ok.1 hrest
      exact .inl ⟨found, hselect, hc, rfl⟩
    | absent | value v | list vs =>
      obtain ⟨rfl, rfl⟩ := operandSelect_ok (by simp) hselect
      exact .inr ⟨by simp, hrest⟩
  · rw [if_neg (by simpa using hc)] at h
    exact .inr ⟨fun _ _ => not_or.1 hc, h⟩

theorem memberExpr_ok {member : String} {e : Expr} (h : memberExpr s l member = .ok e) :
    ∃ column, (Member.resolve s l.graph member).2 = .ok column ∧ e = l.expr column := by
  simp only [memberExpr, Except.map_eq_ok] at h
  obtain ⟨column, hcolumn, rfl⟩ := h
  exact ⟨column, hcolumn, rfl⟩

/-! ### Selects under a filter -/

/-- The alias of a scope as columns are qualified by it. The table of a write has none. -/
def Layout.label (l : Layout) (scope : Nat) : Option String := Sql.aliasName? (l.aliasName scope)

/-- The layout of a graph that takes its aliases from `supply`, the nested joins on the way to
`columns` flipped. -/
def laidOut (g : JoinGraph) (columns : List Column) (supply : AliasSupply) : Layout :=
  ⟨g, (g.assign supply).1, g.flipNested [] (g.joinsTo (scopesOf columns))⟩

/-- The numbering once a graph has taken its aliases. -/
def Numbering.named (n : Numbering) (g : JoinGraph) : Numbering :=
  {n with aliases := (g.assign n.aliases).2}

theorem filtered_ok {g : JoinGraph} {columns : List Column} {f : Filter}
    {compile : Layout → Compile (Option Expr)} {select : Select}
    (h : filtered s g columns f compile n = .ok ((l, select), n')) :
    ∃ grown conditions filter, resolveConditions s g f = .ok (grown, conditions) ∧
      l = laidOut grown (columns ++ conditions) n.aliases ∧
      compile l (n.named grown) = .ok (filter, n') ∧
      select = { Select.of (rootTable s l) with
        joins := (grown.joinsTo (scopesOf (columns ++ conditions))).map (join s l none)
        filter } := by
  simp only [filtered, layOut, bind_ok, resolved_ok, assign_ok, pure_ok] at h
  obtain ⟨⟨grown, conditions⟩, m, ⟨hc, rfl⟩, ⟨l', needed⟩, m', ⟨names, _, ⟨rfl, rfl⟩, ⟨rfl, rfl⟩,
    rfl⟩, filter, m'', hfilter, h, rfl⟩ := h
  simp only [Prod.mk.injEq] at h
  obtain ⟨rfl, rfl⟩ := h
  exact ⟨grown, conditions, filter, hc, rfl, hfilter, rfl⟩

/-- A select that shows nothing yet. -/
structure Unshown (select : Select) : Prop where
  items : select.items = []
  orderBy : select.orderBy = []

/-- What a membership test reads of the select of its query, and the numbering then. -/
inductive Projected (l : Layout) (column : Column) (sorted : List (Column × Direction))
    (select : Select) (n : Numbering) : Option Paging → Select → Numbering → Prop where
  | whole {paging : Option Paging} : paging.bind limit? = none →
    Projected l column sorted select n paging
      {select with items := [.expr (l.expr column) none]} n
  | page {paging : Option Paging} {limit : Sql.Limit} : paging.bind limit? = some limit →
    Projected l column sorted select n paging
      { Select.of (.derived
          {select with items := [l.item column], orderBy := orderBy l sorted, limit := some limit}
          (tableAlias n.aliases.tables)) with
        items := [.expr (.qualified (tableAlias n.aliases.tables) (l.resultName column)) none] }
      {n with aliases := n.aliases.freshTable.2}

theorem projectOne_ok {column : Column} {sorted : List (Column × Direction)}
    {paging : Option Paging} {select projected : Select}
    (h : projectOne l column sorted paging select n = .ok (projected, n')) :
    Projected l column sorted select n paging projected n' := by
  unfold projectOne at h
  cases hp : paging.bind limit? with
  | none =>
    simp only [hp, pure_ok] at h
    obtain ⟨rfl, rfl⟩ := h
    exact .whole hp
  | some limit =>
    simp only [hp, bind_ok, freshTable_ok, pure_ok] at h
    obtain ⟨_, m, ⟨rfl, rfl⟩, rfl, rfl⟩ := h
    exact .page hp

theorem subselect_ok {q : Query} {select : Select} (h : subselect s q n = .ok (select, n')) :
    ∃ e member g column grown sorted l inner m,
      subqueryTarget s q = .ok (e, member) ∧
      Member.resolve s (.ofRoot e.id) member = (g, .ok column) ∧
      resolveSorting s g q.sorting = .ok (grown, sorted) ∧
      filtered s grown (column :: sorted.map Prod.fst) q.filter (filterExpr s q.filter) n =
        .ok ((l, inner), m) ∧
      Projected l column sorted inner m q.paging select n' := by
  obtain ⟨entity, filter, members, sorting, grouping, paging⟩ := q
  simp only [subselect, bind_ok, resolved_ok] at h
  obtain ⟨⟨e, member⟩, _, ⟨htarget, rfl⟩, column, _, ⟨hcolumn, rfl⟩, ⟨grown, sorted⟩, _,
    ⟨hsorted, rfl⟩, ⟨l, inner⟩, m, hfiltered, hproject⟩ := h
  exact ⟨e, member, (Member.resolve s (.ofRoot e.id) member).1, column, grown, sorted, l, inner, m,
    htarget, by rw [← hcolumn], hsorted, hfiltered, projectOne_ok hproject⟩

/-! ### Grouped queries -/

/-- The aggregates that are asked for come behind the keys, each once. -/
theorem mem_withAggregates {c : Column} {asked keys : List Column} :
    c ∈ asked.foldl (fun done c =>
      if c.isAggregate && !done.contains c then done ++ [c] else done) keys ↔
      c ∈ keys ∨ c ∈ asked ∧ c.isAggregate = true := by
  induction asked generalizing keys with
  | nil => simp
  | cons first rest ih =>
    rw [List.foldl_cons, ih]
    by_cases hadd : (first.isAggregate && !keys.contains first) = true
    · rw [if_pos hadd]
      simp only [Bool.and_eq_true] at hadd
      grind
    · rw [if_neg hadd]
      simp only [Bool.and_eq_true, Bool.not_eq_true', List.contains_eq_mem,
        decide_eq_false_iff_not, not_and, not_not] at hadd
      grind

theorem mem_innerColumns {c rowCount : Column} {keys asked : List Column}
    (h : c ∈ innerColumns rowCount keys asked) : c ∈ keys ∨ c ∈ asked ∨ c = rowCount := by
  simp only [innerColumns] at h
  split at h
  · rcases mem_withAggregates.1 h with h | ⟨h, -⟩
    · exact .inl h
    · exact .inr (.inl h)
  · rcases List.mem_append.1 h with h | h
    · rcases mem_withAggregates.1 h with h | ⟨h, -⟩
      · exact .inl h
      · exact .inr (.inl h)
    · exact .inr (.inr (List.mem_singleton.1 h))

theorem key_mem_innerColumns {c rowCount : Column} {keys asked : List Column} (h : c ∈ keys) :
    c ∈ innerColumns rowCount keys asked := by
  simp only [innerColumns]
  split
  · exact mem_withAggregates.2 (.inl h)
  · exact List.mem_append_left _ (mem_withAggregates.2 (.inl h))

/-- The root's side of the join that leads to a column beside the groups is among their keys. -/
theorem checkBeside_ok {g : JoinGraph} {keys : List Column} {c : Column}
    (h : checkBeside s g keys c = .ok ()) :
    ∃ first, (g.rootPath c.scope).head? = some first ∧ ∀ pair ∈ (navigationOf g first).keys,
      isGroupKey keys ((g.entity s 0).columnOf pair.source) = true := by
  unfold checkBeside at h
  cases hfirst : (g.rootPath c.scope).head? with
  | none => simp [hfirst] at h
  | some first =>
    refine ⟨first, rfl, fun pair hpair => ?_⟩
    simp only [hfirst] at h
    split at h
    · simp at h
    · next hnone => simpa using List.find?_eq_none.1 hnone pair hpair

theorem resolveGrouped_ok {g : JoinGraph} {f : Filter} {grouping : Grouping}
    {display sorted : List Column} {c : GroupedColumns}
    (h : resolveGrouped s g f grouping display sorted = .ok c) :
    ∃ keyed filtered having conditions tested rowCount,
      Member.resolveEach s g grouping.members = .ok (keyed, c.keys) ∧
      resolveConditions s keyed f = .ok (filtered, conditions) ∧
      resolveConditions s filtered grouping.having = .ok (having, tested) ∧
      Member.resolve s having rowCountMember = (c.graph, .ok rowCount) ∧
      c.inner = innerColumns rowCount c.keys (display ++ sorted) ∧
      c.filtered = conditions ++ tested ∧
      c.beside = display.filter (!c.inner.contains ·) ∧
      c.besideSorted = sorted.filter (!c.inner.contains ·) ∧
      ∀ shown ∈ c.beside ++ c.besideSorted, checkBeside s c.graph c.keys shown = .ok () := by
  simp only [resolveGrouped, Except.bind_eq_ok, Except.pure_eq_ok, Prod.exists] at h
  obtain ⟨keyed, keys, hkeys, filtered, conditions, hconditions, having, tested, htested, rowCount,
    hrowCount, ⟨⟩, hbeside, rfl⟩ := h
  exact ⟨keyed, filtered, having, conditions, tested, rowCount, hkeys, hconditions, htested,
    by rw [← hrowCount], rfl, rfl, rfl, rfl, Except.forM_eq_ok.1 hbeside⟩

/-- All that a grouped query resolves is resolved one after another. -/
theorem resolveGrouped_resolved {g : JoinGraph} {f : Filter} {grouping : Grouping}
    {display sorted : List Column} {c : GroupedColumns}
    (h : resolveGrouped s g f grouping display sorted = .ok c) :
    ∃ rowCount, Member.resolveEach s g (grouping.members ++ (f.conditions.map (·.member) ++
        (grouping.having.conditions.map (·.member) ++ [rowCountMember]))) =
      .ok (c.graph, c.keys ++ (c.filtered ++ [rowCount])) := by
  obtain ⟨keyed, filtered, having, conditions, tested, rowCount, hkeys, hconditions, htested,
    hrowCount, -, hfiltered, -⟩ := resolveGrouped_ok h
  have hlast : Member.resolveEach s having [rowCountMember] = .ok (c.graph, [rowCount]) := by
    simp [Member.resolveEach, hrowCount, pure, Except.pure, bind, Except.bind]
  refine ⟨rowCount, ?_⟩
  rw [hfiltered, List.append_assoc]
  exact resolveEach_append hkeys (resolveEach_append hconditions
    (resolveEach_append htested hlast))

/-- The select of the groups: what stands inside the derived table. -/
def groupsSelect (s : Schema) (l : Layout) (c : GroupedColumns) (filter having : Option Expr) :
    Select :=
  { Select.of (rootTable s l) with
    items := c.inner.map l.item
    joins := (c.graph.joinsTo (scopesOf (c.inner ++ c.filtered))).map (join s l none)
    filter
    groupBy := c.keys.map l.expr
    having }

/-- The select around the derived table `derived` of the groups. -/
def besideSelect (s : Schema) (l : Layout) (c : GroupedColumns) (groups : Select)
    (derived : String) (sorted : List (Column × Direction)) : Select :=
  { Select.of (.derived groups derived) with
    items := c.beside.map l.item ++ [.wildcard derived]
    joins := (c.graph.joinsTo (scopesOf (c.beside ++ c.besideSorted))).map
      (join s l (some derived))
    orderBy := outerOrder l derived c.inner sorted }

theorem groupedSelects_ok {c : GroupedColumns} {f : Filter} {grouping : Grouping}
    {sorted : List (Column × Direction)} {shown count : Select}
    (h : groupedSelects s c f grouping sorted n = .ok ((l, shown, count), n')) :
    ∃ filter m having m',
      l = laidOut c.graph (c.inner ++ c.filtered ++ (c.beside ++ c.besideSorted)) n.aliases ∧
      filterExpr s f l (n.named c.graph) = .ok (filter, m) ∧
      filterExpr s grouping.having l m = .ok (having, m') ∧
      shown = besideSelect s l c (groupsSelect s l c filter having)
        (tableAlias m'.aliases.tables) sorted ∧
      count = { Select.of (.derived (groupsSelect s l c filter having)
        (tableAlias m'.aliases.tables)) with items := countItems } ∧
      n' = {m' with aliases := m'.aliases.freshTable.2} := by
  simp only [groupedSelects, bind_ok, assign_ok, freshTable_ok, pure_ok] at h
  obtain ⟨names, _, ⟨rfl, rfl⟩, filter, m, hfilter, having, m', hhaving, derived, _, ⟨rfl, rfl⟩, h,
    rfl⟩ := h
  simp only [Prod.mk.injEq] at h
  obtain ⟨rfl, rfl, rfl⟩ := h
  refine ⟨filter, m, having, m', ?_, hfilter, hhaving, rfl, rfl, rfl⟩
  simp [laidOut, scopesOf]

theorem groupedSelects_of_ok {c : GroupedColumns} {f : Filter} {grouping : Grouping}
    {sorted : List (Column × Direction)} {filter having : Option Expr} {m m' : Numbering}
    (hl : l = laidOut c.graph (c.inner ++ c.filtered ++ (c.beside ++ c.besideSorted)) n.aliases)
    (hfilter : filterExpr s f l (n.named c.graph) = .ok (filter, m))
    (hhaving : filterExpr s grouping.having l m = .ok (having, m')) :
    groupedSelects s c f grouping sorted n =
      .ok ((l, besideSelect s l c (groupsSelect s l c filter having)
          (tableAlias m'.aliases.tables) sorted,
        { Select.of (.derived (groupsSelect s l c filter having)
          (tableAlias m'.aliases.tables)) with items := countItems }),
        {m' with aliases := m'.aliases.freshTable.2}) := by
  have hlayout : l = ⟨c.graph, (c.graph.assign n.aliases).1, c.graph.flipNested [] (c.graph.joinsTo
      (scopesOf (c.inner ++ c.filtered) ++ scopesOf (c.beside ++ c.besideSorted)))⟩ := by
    rw [hl, laidOut, scopesOf, List.map_append, scopesOf, scopesOf]
  rw [hlayout] at hfilter hhaving ⊢
  simp only [groupedSelects, bind_ok, assign_ok, freshTable_ok, pure_ok]
  exact ⟨_, _, ⟨rfl, rfl⟩, filter, m, hfilter, having, m', hhaving, _, _, ⟨rfl, rfl⟩, rfl, rfl⟩

/-! ### Requests -/

/-- What a request resolves before any name is given, and then makes its selects of. -/
theorem querySelects_ok {q : Query} {shown count : Select}
    (h : querySelects s q n = .ok ((l, shown, count), n')) :
    ∃ e g display grown sorted, entityNamed s q.entity = .ok e ∧
      Member.resolveEach s (.ofRoot e.id) (Member.expand s e q.members) = .ok (g, display) ∧
      resolveSorting s g q.sorting = .ok (grown, sorted) ∧
      ((∃ inner, q.grouping = none ∧
          filtered s grown (display ++ sorted.map Prod.fst) q.filter (filterExpr s q.filter) n =
            .ok ((l, inner), n') ∧
          shown = {inner with items := display.map l.item, orderBy := orderBy l sorted} ∧
          count = {inner with items := countItems}) ∨
        ∃ grouping c, q.grouping = some grouping ∧
          resolveGrouped s grown q.filter grouping display (sorted.map Prod.fst) = .ok c ∧
          groupedSelects s c q.filter grouping sorted n = .ok ((l, shown, count), n')) := by
  simp only [querySelects, bind_ok, resolved_ok] at h
  obtain ⟨e, _, ⟨he, rfl⟩, ⟨g, display⟩, _, ⟨hdisplay, rfl⟩, ⟨grown, sorted⟩, _, ⟨hsorted, rfl⟩,
    h⟩ := h
  refine ⟨e, g, display, grown, sorted, he, hdisplay, hsorted, ?_⟩
  cases hg : q.grouping with
  | none =>
    simp only [hg, bind_ok, pure_ok] at h
    obtain ⟨⟨l', inner⟩, m, hfiltered, h, rfl⟩ := h
    simp only [Prod.mk.injEq] at h
    obtain ⟨rfl, rfl, rfl⟩ := h
    exact .inl ⟨inner, rfl, hfiltered, rfl, rfl⟩
  | some grouping =>
    simp only [hg, bind_ok, resolved_ok] at h
    obtain ⟨c, _, ⟨hc, rfl⟩, h⟩ := h
    exact .inr ⟨grouping, c, rfl, hc, h⟩

theorem select_ok {q : Query} {plan : CompiledQuery} (h : Plan.select s q = .ok plan) :
    ∃ n, querySelects s q {} = .ok ((plan.layout, plan.select, plan.count), n) ∧
      plan.params = n.params := by
  simp only [Plan.select, StateT.run, Except.bind_eq_ok, Except.pure_eq_ok] at h
  obtain ⟨⟨⟨l, shown, count⟩, n⟩, hrun, rfl⟩ := h
  exact ⟨n, hrun, rfl⟩

/-- A query is cut off nowhere before it is given a page. -/
theorem select_unlimited {q : Query} {plan : CompiledQuery} (h : Plan.select s q = .ok plan) :
    plan.select.limit = none := by
  obtain ⟨n, hselects, -⟩ := select_ok h
  obtain ⟨_, _, _, _, _, -, -, -, hselects⟩ := querySelects_ok hselects
  rcases hselects with ⟨_, -, hfiltered, hshown, -⟩ | ⟨_, _, -, -, hgrouped⟩
  · obtain ⟨_, _, _, -, -, -, rfl⟩ := filtered_ok hfiltered
    rw [hshown]
    rfl
  · obtain ⟨_, _, _, _, -, -, -, hshown, -⟩ := groupedSelects_ok hgrouped
    rw [hshown]
    rfl

theorem count_ok {entity : String} {f : Filter} {includes : List String} {select : Select}
    {params : List Value} (h : Plan.count s entity f includes = .ok (select, params)) :
    ∃ e g included l inner n, entityNamed s entity = .ok e ∧
      Member.resolveEach s (.ofRoot e.id) includes = .ok (g, included) ∧
      filtered s g included f (filterExpr s f) {} = .ok ((l, inner), n) ∧
      select = {inner with items := [.expr (counted (included.map l.expr)) none]} ∧
      params = n.params := by
  simp only [Plan.count, countSelect, StateT.run, Except.bind_eq_ok, Except.pure_eq_ok] at h
  obtain ⟨⟨_, n⟩, hrun, h⟩ := h
  simp only [bind_ok, resolved_ok, pure_ok] at hrun
  obtain ⟨e, _, ⟨he, rfl⟩, ⟨g, included⟩, _, ⟨hincluded, rfl⟩, ⟨l, inner⟩, m, hfiltered, rfl,
    rfl⟩ := hrun
  simp only [Prod.mk.injEq] at h
  exact ⟨e, g, included, l, inner, m, he, hincluded, hfiltered, h.1.symm, h.2.symm⟩

theorem existence_ok {entity : String} {f : Filter} {select : Select} {params : List Value}
    (h : Plan.existence s entity f = .ok (select, params)) :
    ∃ e l inner n, entityNamed s entity = .ok e ∧
      filtered s (.ofRoot e.id) [] f (filterExpr s f) {} = .ok ((l, inner), n) ∧
      select = {inner with items := [.expr (.literal 0) none], limit := some ⟨0, 1⟩} ∧
      params = n.params := by
  simp only [Plan.existence, existsSelect, StateT.run, Except.bind_eq_ok, Except.pure_eq_ok] at h
  obtain ⟨⟨_, n⟩, hrun, h⟩ := h
  simp only [bind_ok, resolved_ok, pure_ok] at hrun
  obtain ⟨e, _, ⟨he, rfl⟩, ⟨l, inner⟩, m, hfiltered, rfl, rfl⟩ := hrun
  simp only [Prod.mk.injEq] at h
  exact ⟨e, l, inner, m, he, hfiltered, h.1.symm, h.2.symm⟩

/-! ### Writes -/

theorem insert_ok {e : Entity} {row : Row} {includes : List String} {w : CompiledWrite}
    (h : Plan.insert e row includes = .ok w) :
    ∃ columns, insertColumns e includes row = .ok columns ∧ w = {
      statement := .insert {
        table := tableOf e
        columns := columns.map Prod.fst
        values := (List.range columns.length).map .param }
      params := columns.map Prod.snd } := by
  simp only [Plan.insert, Except.bind_eq_ok] at h
  obtain ⟨columns, hcolumns, h⟩ := h
  split at h
  · simp at h
  · exact ⟨columns, hcolumns, (Except.pure_eq_ok.1 h).symm⟩

theorem writeFilterExpr_ok {e : Entity} {f : Filter} {filter : Option Expr}
    (h : writeFilterExpr s e f n = .ok (filter, n')) :
    checkConditions s e (.ofRoot e.id) f.conditions = .ok () ∧
      filterExpr s f (bareLayout e) n = .ok (filter, n') := by
  simp only [writeFilterExpr, bind_ok, resolved_ok] at h
  obtain ⟨_, m, ⟨hc, rfl⟩, h⟩ := h
  exact ⟨hc, h⟩

/-- A key is tested against the value that the row has for it. -/
theorem keyCondition_ok {e : Entity} {row : OrderedMap Write} {key : Property} {condition : Expr}
    (h : keyCondition e row key n = .ok (condition, n')) :
    ∃ v, OrderedMap.named? row key.name = some (.set v) ∧ v.isNull = false ∧
      condition = .equal (.qualified "" key.column) (.param n.params.length) ∧
      n' = {n with params := n.params ++ [v]} := by
  unfold keyCondition at h
  cases hw : OrderedMap.named? row key.name with
  | none => simp [hw] at h
  | some w =>
    cases w with
    | arithmetic member operator v => simp [hw] at h
    | set v =>
      simp only [hw] at h
      by_cases hv : v.isNull
      · simp [hv] at h
      · rw [if_neg hv] at h
        simp only [bind_ok, param_ok, pure_ok] at h
        obtain ⟨_, m, ⟨rfl, rfl⟩, rfl, rfl⟩ := h
        exact ⟨v, rfl, Bool.eq_false_iff.2 hv, rfl, rfl⟩

theorem keysExpr_ok {e : Entity} {row : OrderedMap Write} {filter : Option Expr}
    (h : keysExpr e row n = .ok (filter, n')) :
    ∃ keys, e.keys.mapM (keyCondition e row) n = .ok (keys, n') ∧ keys ≠ [] ∧
      filter = Expr.allOf? keys := by
  simp only [keysExpr, bind_ok] at h
  obtain ⟨keys, m, hkeys, h⟩ := h
  split at h
  · simp at h
  · next hne =>
    obtain ⟨rfl, rfl⟩ := pure_ok.1 h
    exact ⟨keys, hkeys, by simpa using hne, rfl⟩

/-- An assignment takes null or a new parameter, possibly within arithmetic on a column. -/
theorem writeValue_ok {e : Entity} {w : Write} {value : Expr}
    (h : writeValue e w n = .ok (value, n')) :
    (value = .null ∧ n' = n) ∨ ∃ v, n' = {n with params := n.params ++ [v]} ∧
      (value = .param n.params.length ∨ ∃ column op,
        value = .binary (.qualified "" column) op (.param n.params.length)) := by
  cases w with
  | set v =>
    simp only [writeValue] at h
    split at h
    · obtain ⟨rfl, rfl⟩ := pure_ok.1 h
      exact .inl ⟨rfl, rfl⟩
    · obtain ⟨rfl, rfl⟩ := param_ok.1 h
      exact .inr ⟨v, rfl, .inl rfl⟩
  | arithmetic member operator v =>
    simp only [writeValue, bind_ok, param_ok, pure_ok] at h
    obtain ⟨_, m, ⟨rfl, rfl⟩, rfl, rfl⟩ := h
    exact .inr ⟨v, rfl, .inr ⟨_, _, rfl⟩⟩

theorem assignmentsOf_cons_ok {e : Entity} {row : OrderedMap Write} {byKey : Bool} {member : String}
    {rest : List String} {as : List Sql.Assignment}
    (h : assignmentsOf e row byKey (member :: rest) n = .ok (as, n')) :
    assignmentsOf e row byKey rest n = .ok (as, n') ∨
      ∃ w p value m others, OrderedMap.named? row member = some w ∧
        e.property? member = some p ∧ (p.ignored || byKey && p.key) = false ∧
        writeValue e w n = .ok (value, m) ∧ assignmentsOf e row byKey rest m = .ok (others, n') ∧
        as = ⟨p.column, value⟩ :: others := by
  cases hw : OrderedMap.named? row member with
  | none => exact .inl (by simpa only [assignmentsOf, hw] using h)
  | some w =>
    cases hp : e.property? member with
    | none => simp [assignmentsOf, hw, hp, unknownColumn] at h
    | some p =>
      simp only [assignmentsOf, hw, hp] at h
      by_cases hskip : (p.ignored || byKey && p.key) = true
      · exact .inl (by rwa [if_pos hskip] at h)
      · rw [if_neg hskip] at h
        simp only [bind_ok, pure_ok] at h
        obtain ⟨value, m, hvalue, others, m', hothers, rfl, rfl⟩ := h
        exact .inr
          ⟨w, p, value, m, others, rfl, rfl, Bool.eq_false_iff.2 hskip, hvalue, hothers, rfl⟩

/-- An update is matched by its keys, or under its filter when that has conditions. -/
theorem update_ok {e : Entity} {row : OrderedMap Write} {f : Filter} {members : List String}
    {w : CompiledWrite} (h : Plan.update s e row f members = .ok (some w)) :
    ∃ filter n as n', ((f.isEmpty = true ∧ keysExpr e row {} = .ok (filter, n)) ∨
        (f.isEmpty = false ∧ writeFilterExpr s e f {} = .ok (filter, n))) ∧
      assignmentsOf e row f.isEmpty members n = .ok (as, n') ∧
      w = ⟨.update ⟨tableOf e, as, filter⟩, n'.params⟩ := by
  simp only [Plan.update, updateStatement, StateT.run, Except.bind_eq_ok, Except.pure_eq_ok] at h
  obtain ⟨⟨u, m⟩, hrun, h⟩ := h
  have hsteps : ∃ filter n as, ((f.isEmpty = true ∧ keysExpr e row {} = .ok (filter, n)) ∨
        (f.isEmpty = false ∧ writeFilterExpr s e f {} = .ok (filter, n))) ∧
      assignmentsOf e row f.isEmpty members n = .ok (as, m) ∧ u = ⟨tableOf e, as, filter⟩ := by
    cases hf : f.isEmpty
    · simp only [hf, Bool.false_eq_true, if_false, bind_ok, pure_ok] at hrun
      obtain ⟨filter, n, hfilter, as, m', has, rfl, rfl⟩ := hrun
      exact ⟨filter, n, as, .inr ⟨rfl, hfilter⟩, has, rfl⟩
    · simp only [hf, if_true, bind_ok, pure_ok] at hrun
      obtain ⟨filter, n, hfilter, as, m', has, rfl, rfl⟩ := hrun
      exact ⟨filter, n, as, .inl ⟨rfl, hfilter⟩, has, rfl⟩
  obtain ⟨filter, n, as, hfilter, has, rfl⟩ := hsteps
  split at h
  · simp at h
  · exact ⟨filter, n, as, m, hfilter, has, (Option.some.inj h).symm⟩

theorem delete_ok {e : Entity} {f : Filter} {w : CompiledWrite}
    (h : Plan.delete s e f = .ok w) :
    ∃ filter n, writeFilterExpr s e f {} = .ok (filter, n) ∧
      w = ⟨.delete ⟨tableOf e, filter⟩, n.params⟩ := by
  simp only [Plan.delete, StateT.run, Except.bind_eq_ok, Except.pure_eq_ok] at h
  obtain ⟨⟨filter, n⟩, hfilter, rfl⟩ := h
  exact ⟨filter, n, hfilter, rfl⟩

end EntityQuery.Plan
