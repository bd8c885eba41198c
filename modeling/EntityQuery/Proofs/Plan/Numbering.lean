import EntityQuery.Proofs.Plan.Compiled
import EntityQuery.Proofs.Plan.Induction
import EntityQuery.Proofs.Sql.Placeholder

/-! Placeholders and parameters go together.

A step that makes a piece of a statement puts its values behind the parameters that are there, and
the piece holds exactly their numbers, in order (`Fills`). Pieces written one after another by
steps taken one after another do so together. Items, joins and orders hold no placeholder, and
hence a whole statement numbers its parameters from left to right
(`placeholders_numbered`). An update is the exception: its filter is made first and written
last. -/
namespace EntityQuery.Plan

open Member (Column)
open Sql (Expr Select Dialect placeholders)
open Sql.Expr (allPlaceholders optionPlaceholders)

/-- From `n` to `n'` parameters were only appended, and `ks` are their numbers. -/
structure Fills (n n' : Numbering) (ks : List Nat) : Prop where
  grows : n.params.length ≤ n'.params.length
  numbers : ks = List.range' n.params.length (n'.params.length - n.params.length)

namespace Fills
variable {n m n' : Numbering} {ks js : List Nat}

theorem refl (h : n'.params = n.params) : Fills n n' [] :=
  ⟨Nat.le_of_eq (by rw [h]), by rw [h, Nat.sub_self]; rfl⟩

theorem append (h : Fills n m ks) (h' : Fills m n' js) : Fills n n' (ks ++ js) := by
  obtain ⟨hle, rfl⟩ := h
  obtain ⟨hle', rfl⟩ := h'
  refine ⟨by omega, ?_⟩
  have hm : m.params.length = n.params.length + (m.params.length - n.params.length) := by omega
  have hall : n'.params.length - n.params.length =
      (m.params.length - n.params.length) + (n'.params.length - m.params.length) := by omega
  rw [hall, ← List.range'_append_1, ← hm]

theorem ofParams (h : n'.params = m.params) (hf : Fills n m ks) : Fills n n' ks := by
  obtain ⟨hle, hks⟩ := hf
  exact ⟨by rw [h]; exact hle, by rw [h]; exact hks⟩

/-- From the start, the numbers are those of all parameters. -/
theorem range (h : Fills {} n ks) : ks = List.range n.params.length := by
  rw [h.numbers, List.range_eq_range']
  rfl

end Fills

/-! ### What holds no placeholder -/

variable {s : Schema} (d : Dialect)

@[simp] theorem placeholders_expr (l : Layout) (c : Column) :
    placeholders ((l.expr c).pieces d) = [] := by
  unfold Layout.expr Column.expr
  cases c.measure <;> simp [Expr.pieces, Expr.allPieces]

@[simp] theorem placeholders_item (l : Layout) (c : Column) :
    placeholders ((l.item c).pieces d) = [] := by
  have he : placeholders ((c.expr l.graph l.names).pieces d) = [] := placeholders_expr d l c
  simp [Layout.item, Column.item, Sql.Item.pieces, he]

theorem placeholders_equal (a b a' b' : String) :
    placeholders ((Expr.equal (.qualified a b) (.qualified a' b')).pieces d) = [] := by
  simp [Expr.equal]

theorem placeholders_matchExists (l : Layout) (j : Nat) :
    placeholders ((matchExists s l j).pieces d) = [] := by
  have hkeys : allPlaceholders d ((navigationOf l.graph j).keys.map fun pair =>
      Expr.equal (.qualified (l.aliasName (j + 1) ++ "X")
          ((l.graph.entity s (j + 1)).columnOf pair.target))
        (.qualified (l.aliasName (l.graph.parent j))
          ((l.graph.entity s (l.graph.parent j)).columnOf pair.source))) = [] :=
    Expr.allPlaceholders_eq_nil d (by simp [placeholders_equal])
  simp [matchExists, Expr.pieces, Sql.placeholders_select, Sql.Select.of,
    Expr.optionPlaceholders_allOf?, hkeys, Sql.Item.allPieces, Sql.Item.pieces,
    Sql.OrderBy.allPieces, Sql.Join.allPieces]

theorem placeholders_join (l : Layout) (host : Option String) (j : Nat) :
    placeholders ((join s l host j).pieces d) = [] := by
  have hconditions : allPlaceholders d (joinConditions s l host j) = [] := by
    apply Expr.allPlaceholders_eq_nil
    intro e he
    simp only [joinConditions, List.mem_append, List.mem_map] at he
    rcases he with ⟨pair, _, rfl⟩ | ⟨child, _, rfl⟩
    · unfold parentKey
      split <;> exact placeholders_equal d _ _ _ _
    · exact placeholders_matchExists d l child
  have hon :
      placeholders (((Expr.allOf? (joinConditions s l host j)).getD .never).pieces d) = [] := by
    rw [← Expr.optionPlaceholders_allOf?] at hconditions
    cases he : Expr.allOf? (joinConditions s l host j) with
    | none => exact Expr.placeholders_never d
    | some e => rwa [he] at hconditions
  simp [join, Sql.Join.pieces, hon]

@[simp] theorem placeholders_joined (l : Layout) (host : Option String) (js : List Nat) :
    placeholders (Sql.Join.allPieces d (js.map (join s l host))) = [] :=
  Sql.placeholders_joins d (by simp [placeholders_join])

@[simp] theorem placeholders_shown (l : Layout) (columns : List Column) :
    (Sql.Item.allPieces d (columns.map l.item)).flatMap placeholders = [] :=
  Sql.placeholders_items d (by simp)

@[simp] theorem placeholders_sorted (l : Layout) (sorted : List (Column × Direction)) :
    (Sql.OrderBy.allPieces d (orderBy l sorted)).flatMap placeholders = [] :=
  Sql.placeholders_orderBy d (by
    intro o ho
    obtain ⟨⟨column, direction⟩, _, rfl⟩ := List.mem_map.1 ho
    exact placeholders_expr d l column)

@[simp] theorem placeholders_rootTable (l : Layout) :
    placeholders ((rootTable s l).pieces d) = [] :=
  Sql.placeholders_ofTable d _ _

/-! ### Filters -/

theorem placeholders_test {column t : Expr} {k : Nat} {bound : List Value}
    (h : Test column k t bound) (hc : placeholders (column.pieces d) = []) :
    placeholders (t.pieces d) = List.range' k bound.length := by
  cases h with
  | isNull negate => simp [Expr.pieces, hc]
  | never => simp
  | binary op v => simp [Expr.pieces, hc]
  | between low high => simp [Expr.pieces, hc, List.range'_succ]
  | inList _ negate =>
    have hall := Expr.allPlaceholders_params d (List.range' k bound.length)
    unfold allPlaceholders at hall
    simp [Expr.pieces, hc, hall]

theorem Tested.fills {column : Expr} {n n' : Numbering} {e : Option Expr}
    (h : Tested column n n' e) (hc : placeholders (column.pieces d) = []) :
    Fills n n' (optionPlaceholders d e) := by
  obtain ⟨bound, rfl, h⟩ := h
  cases e with
  | none =>
    obtain rfl := h
    exact .refl (by simp)
  | some t =>
    refine ⟨by simp, ?_⟩
    rw [Expr.optionPlaceholders_some, placeholders_test d h hc]
    simp

theorem fills_joined? {n n' : Numbering} {es : List Expr} (h : Fills n n' (allPlaceholders d es))
    (k : Combinator) : Fills n n' (optionPlaceholders d (joined? k es)) := by
  cases k
  · exact (Expr.optionPlaceholders_allOf? d es).symm ▸ h
  · exact (Expr.optionPlaceholders_anyOf? d es).symm ▸ h

/-- What a select shows, how it is sorted and which page it returns holds no placeholder. -/
theorem placeholders_showing {select : Select} (h : Unshown select) {items : List Sql.Item}
    {orders : List Sql.OrderBy} (limit : Option Sql.Limit)
    (hi : (Sql.Item.allPieces d items).flatMap placeholders = [])
    (ho : (Sql.OrderBy.allPieces d orders).flatMap placeholders = []) :
    placeholders (Select.pieces d {select with items, orderBy := orders, limit}) =
      placeholders (select.pieces d) := by
  rw [Sql.placeholders_select, Sql.placeholders_select, hi, ho, h.items, h.orderBy]
  rfl

theorem placeholders_showingItems {select : Select} (h : Unshown select) {items : List Sql.Item}
    (hi : (Sql.Item.allPieces d items).flatMap placeholders = []) :
    placeholders (Select.pieces d {select with items}) = placeholders (select.pieces d) :=
  placeholders_showing d h select.limit hi (by rw [h.orderBy]; rfl)

theorem placeholders_one {e : Expr} (h : placeholders (e.pieces d) = []) :
    (Sql.Item.allPieces d [.expr e none]).flatMap placeholders = [] := by
  simp [Sql.Item.allPieces, Sql.Item.pieces, h]

/-- The select under a filter holds what the filter does. -/
theorem filtered_fills {g : JoinGraph} {columns : List Column} {f : Filter} {l : Layout}
    {compile : Layout → Compile (Option Expr)} {select : Select} {n n' : Numbering}
    (h : filtered s g columns f compile n = .ok ((l, select), n'))
    (hc : ∀ l m e, compile l m = .ok (e, n') → Fills m n' (optionPlaceholders d e)) :
    Unshown select ∧ Fills n n' (placeholders (select.pieces d)) := by
  obtain ⟨grown, conditions, filter, -, rfl, hfilter, rfl⟩ := filtered_ok h
  refine ⟨⟨rfl, rfl⟩, ?_⟩
  obtain ⟨hgrows, hnumbers⟩ := hc _ _ _ hfilter
  refine ⟨hgrows, ?_⟩
  rw [Numbering.named] at hnumbers
  simpa [Sql.placeholders_select, Sql.Select.of, Sql.Item.allPieces, Sql.OrderBy.allPieces]
    using hnumbers

theorem Projected.fills {l : Layout} {column : Column} {sorted : List (Column × Direction)}
    {select projected : Select} {paging : Option Paging} {n m n' : Numbering}
    (h : Projected l column sorted select m paging projected n') (hu : Unshown select)
    (hf : Fills n m (placeholders (select.pieces d))) :
    Fills n n' (placeholders (projected.pieces d)) := by
  cases h with
  | whole _ =>
    rw [placeholders_showingItems d hu (placeholders_one d (placeholders_expr d l column))]
    exact hf
  | @page limit _ =>
    have hpage := placeholders_showing d hu (some limit) (placeholders_shown d l [column])
      (placeholders_sorted d l sorted)
    refine Fills.ofParams (m := m) rfl ?_
    rw [Sql.placeholders_select]
    simp [Sql.Select.of, Sql.Item.allPieces, Sql.Item.pieces, Sql.Join.allPieces,
      Sql.OrderBy.allPieces]
    exact hpage ▸ hf

/-- A filter's parts are numbered one after another, and the numbers of a query behind a condition
are those of the query's own filter. -/
theorem fills_invariant (s : Schema) : Invariant s
    (fun _ _ n e n' => Fills n n' (optionPlaceholders d e))
    (fun _ _ n es n' => Fills n n' (allPlaceholders d es))
    (fun _ n select n' => Fills n n' (placeholders (select.pieces d))) where
  nil := .refl rfl
  cons he hes := by
    rw [Expr.allPlaceholders_append, Expr.allPlaceholders_toList]
    exact he.append hes
  composite hes := fills_joined? d hes _
  test hcolumn _ h := by
    obtain ⟨column, -, rfl⟩ := memberExpr_ok hcolumn
    exact (compare_ok h).1.fills d (placeholders_expr d _ column)
  inSelect hcolumn _ hselect := by
    obtain ⟨column, -, rfl⟩ := memberExpr_ok hcolumn
    simpa [Expr.pieces] using hselect
  query h hfilter := by
    obtain ⟨_, _, _, _, _, _, _, _, _, _, _, _, hfiltered, hprojected⟩ := subselect_ok h
    obtain ⟨hunshown, hfills⟩ := filtered_fills d hfiltered fun _ _ _ he => hfilter he
    exact hprojected.fills d hunshown hfills

theorem filterExpr_fills {s : Schema} {l : Layout} {f : Filter} {n n' : Numbering} {e : Option Expr}
    (h : filterExpr s f l n = .ok (e, n')) : Fills n n' (optionPlaceholders d e) :=
  (fills_invariant d s).filterExpr h

/-! ### Queries -/

theorem placeholders_outerOrder (l : Layout) (derived : String) (inner : List Column)
    (sorted : List (Column × Direction)) :
    (Sql.OrderBy.allPieces d (outerOrder l derived inner sorted)).flatMap placeholders = [] := by
  apply Sql.placeholders_orderBy
  intro o ho
  obtain ⟨⟨column, direction⟩, _, rfl⟩ := List.mem_map.1 ho
  show placeholders (Expr.pieces d (if _ then _ else _)) = []
  split
  · exact Expr.placeholders_qualified d _ _
  · exact placeholders_expr d l column

/-- The groups hold what the filter does and then what the filter on the groups does. -/
theorem placeholders_groups (l : Layout) (c : GroupedColumns) (filter having : Option Expr) :
    placeholders ((groupsSelect s l c filter having).pieces d) =
      optionPlaceholders d filter ++ optionPlaceholders d having := by
  have hkeys : allPlaceholders d (c.keys.map l.expr) = [] :=
    Expr.allPlaceholders_eq_nil d (by simp)
  simp [groupsSelect, Sql.placeholders_select, Sql.Select.of, Sql.OrderBy.allPieces, hkeys]

theorem placeholders_beside (l : Layout) (c : GroupedColumns) (groups : Select) (derived : String)
    (sorted : List (Column × Direction)) :
    placeholders ((besideSelect s l c groups derived sorted).pieces d) =
      placeholders (groups.pieces d) := by
  have hitems : (Sql.Item.allPieces d (c.beside.map l.item ++ [.wildcard derived])).flatMap
      placeholders = [] := by
    apply Sql.placeholders_items
    intro i hi
    rcases List.mem_append.1 hi with hi | hi
    · obtain ⟨column, _, rfl⟩ := List.mem_map.1 hi
      exact placeholders_item d l column
    · obtain rfl := List.mem_singleton.1 hi
      rfl
  rw [Sql.placeholders_select]
  simp [besideSelect, Sql.Select.of, hitems, placeholders_outerOrder]

theorem placeholders_countOver (groups : Select) (derived : String) :
    placeholders (Select.pieces d { Select.of (.derived groups derived) with
      items := countItems }) = placeholders (groups.pieces d) := by
  rw [Sql.placeholders_select]
  simp [Sql.Select.of, countItems, Sql.Item.allPieces, Sql.Item.pieces, Expr.pieces,
    Sql.Join.allPieces, Sql.OrderBy.allPieces]

theorem groupedSelects_fills {c : GroupedColumns} {f : Filter} {grouping : Grouping}
    {sorted : List (Column × Direction)} {l : Layout} {shown count : Select} {n n' : Numbering}
    (h : groupedSelects s c f grouping sorted n = .ok ((l, shown, count), n')) :
    Fills n n' (placeholders (shown.pieces d)) ∧ Fills n n' (placeholders (count.pieces d)) := by
  obtain ⟨filter, m, having, m', -, hfilter, hhaving, rfl, rfl, rfl⟩ := groupedSelects_ok h
  obtain ⟨hgrows, hnumbers⟩ := (filterExpr_fills d hfilter).append (filterExpr_fills d hhaving)
  rw [placeholders_beside, placeholders_countOver, placeholders_groups]
  exact ⟨⟨hgrows, hnumbers⟩, hgrows, hnumbers⟩

theorem querySelects_fills {q : Query} {l : Layout} {shown count : Select} {n n' : Numbering}
    (h : querySelects s q n = .ok ((l, shown, count), n')) :
    Fills n n' (placeholders (shown.pieces d)) ∧ Fills n n' (placeholders (count.pieces d)) := by
  obtain ⟨e, g, display, grown, sorted, -, -, -, ⟨inner, -, hfiltered, rfl, rfl⟩ |
    ⟨grouping, c, -, -, hgrouped⟩⟩ := querySelects_ok h
  · obtain ⟨hunshown, hfills⟩ := filtered_fills d hfiltered fun _ _ _ he => filterExpr_fills d he
    constructor
    · exact placeholders_showing d hunshown inner.limit (placeholders_shown d l display)
        (placeholders_sorted d l sorted) ▸ hfills
    · exact placeholders_showingItems d hunshown (placeholders_one d (e := .countAll) rfl) ▸ hfills
  · exact groupedSelects_fills d hgrouped

theorem placeholders_counted {columns : List Expr}
    (h : ∀ e ∈ columns, placeholders (e.pieces d) = []) :
    placeholders ((counted columns).pieces d) = [] := by
  have hall := Expr.allPlaceholders_eq_nil d h
  unfold allPlaceholders at hall
  match columns with
  | [] => rfl
  | [_] | _ :: _ :: _ => simpa [counted, Expr.pieces, Expr.allPieces] using hall

/-! ### Writes -/

theorem mapM_fills {α : Type} {step : α → Compile Expr}
    (hstep : ∀ {a m m' e}, step a m = .ok (e, m') → Fills m m' (placeholders (e.pieces d)))
    {as : List α} {es : List Expr} {n n' : Numbering} (h : as.mapM step n = .ok (es, n')) :
    Fills n n' (allPlaceholders d es) := by
  induction as generalizing n es with
  | nil =>
    rw [List.mapM_nil] at h
    obtain ⟨rfl, rfl⟩ := pure_ok.1 h
    exact .refl rfl
  | cons a rest ih =>
    simp only [List.mapM_cons, bind_ok, pure_ok] at h
    obtain ⟨e, m, he, others, m', hothers, rfl, rfl⟩ := h
    rw [Expr.allPlaceholders_cons]
    exact (hstep he).append (ih hothers)

theorem keysExpr_fills {e : Entity} {row : OrderedMap Write} {filter : Option Expr}
    {n n' : Numbering} (h : keysExpr e row n = .ok (filter, n')) :
    Fills n n' (optionPlaceholders d filter) := by
  obtain ⟨keys, hkeys, -, rfl⟩ := keysExpr_ok h
  rw [Expr.optionPlaceholders_allOf?]
  refine mapM_fills d ?_ hkeys
  intro key m m' condition hcondition
  obtain ⟨v, -, -, rfl, rfl⟩ := keyCondition_ok hcondition
  exact ⟨by simp, by simp [Expr.equal, Expr.pieces]⟩

/-- The placeholders of the assignments of an update. -/
def assigned (as : List Sql.Assignment) : List Nat :=
  (as.map (Sql.Assignment.pieces d)).flatMap placeholders

theorem assigned_cons (column : String) (value : Expr) (as : List Sql.Assignment) :
    assigned d (⟨column, value⟩ :: as) = placeholders (value.pieces d) ++ assigned d as := by
  simp [assigned, Sql.Assignment.pieces]

theorem writeValue_fills {e : Entity} {w : Write} {value : Expr} {n n' : Numbering}
    (h : writeValue e w n = .ok (value, n')) : Fills n n' (placeholders (value.pieces d)) := by
  obtain ⟨rfl, rfl⟩ | ⟨v, rfl, rfl | ⟨column, op, rfl⟩⟩ := writeValue_ok h
  · exact .refl rfl
  · exact ⟨by simp, by simp [Expr.pieces]⟩
  · exact ⟨by simp, by simp [Expr.pieces]⟩

theorem assignmentsOf_fills {e : Entity} {row : OrderedMap Write} {byKey : Bool}
    {members : List String} {as : List Sql.Assignment} {n n' : Numbering}
    (h : assignmentsOf e row byKey members n = .ok (as, n')) : Fills n n' (assigned d as) := by
  induction members generalizing n as with
  | nil =>
    simp only [assignmentsOf, pure_ok] at h
    obtain ⟨rfl, rfl⟩ := h
    exact .refl rfl
  | cons member rest ih =>
    obtain h | ⟨w, p, value, m, others, -, -, -, hvalue, hothers, rfl⟩ := assignmentsOf_cons_ok h
    · exact ih h
    · rw [assigned_cons]
      exact (writeValue_fills d hvalue).append (ih hothers)

/-! ### Statements -/

/-- The placeholders of a statement are the numbers of all its parameters, each once. They stand
in order, where the filter of an update counts before its assignments. -/
def Numbered (statement : Sql.Statement) (count : Nat) : Prop :=
  match statement with
  | .update u => ∃ k ≤ count, optionPlaceholders d u.filter = List.range k ∧
      assigned d u.assignments = List.range' k (count - k)
  | statement => placeholders (statement.pieces d) = List.range count

theorem numbered_select {q : Query} {plan : CompiledQuery} (h : Plan.select s q = .ok plan) :
    placeholders (plan.select.pieces d) = List.range plan.params.length ∧
      placeholders (plan.count.pieces d) = List.range plan.params.length := by
  obtain ⟨n, hrun, hparams⟩ := select_ok h
  obtain ⟨hshown, hcount⟩ := querySelects_fills d hrun
  exact ⟨hparams ▸ hshown.range, hparams ▸ hcount.range⟩

theorem numbered_filtered {g : JoinGraph} {columns : List Column} {f : Filter} {l : Layout}
    {select : Select} {n : Numbering}
    (h : filtered s g columns f (filterExpr s f) {} = .ok ((l, select), n)) {items : List Sql.Item}
    (hi : (Sql.Item.allPieces d items).flatMap placeholders = []) (limit : Option Sql.Limit) :
    placeholders (Select.pieces d {select with items, limit}) = List.range n.params.length := by
  obtain ⟨hunshown, hfills⟩ := filtered_fills d h fun _ _ _ he => filterExpr_fills d he
  have hsorted : (Sql.OrderBy.allPieces d select.orderBy).flatMap placeholders = [] := by
    rw [hunshown.orderBy]
    rfl
  exact (placeholders_showing d hunshown limit hi hsorted).trans hfills.range

theorem placeholders_insert (t : Sql.TableName) (columns : List String) (count : Nat) :
    placeholders (Sql.Insert.pieces d ⟨t, columns, (List.range count).map .param⟩) =
      List.range count := by
  have hnames : (columns.map fun column => [Sql.Piece.name column]).flatMap placeholders = [] := by
    simp [List.flatMap_map]
  have hvalues : (((List.range count).map Expr.param).map (Expr.pieces d)).flatMap placeholders =
      List.range count := by
    simp [List.flatMap_map, Expr.pieces]
  simp only [Sql.Insert.pieces, Sql.placeholders_append, Sql.placeholders_separated, hnames,
    hvalues, Sql.placeholders_tableName, Sql.placeholders_text, Sql.placeholders_nil, List.append_nil,
    List.nil_append]

theorem placeholders_delete (t : Sql.TableName) (filter : Option Expr) :
    placeholders (Sql.Delete.pieces d ⟨t, filter⟩) = optionPlaceholders d filter := by
  cases filter <;> simp [Sql.Delete.pieces]

theorem numbered_update {e : Entity} {row : OrderedMap Write} {f : Filter} {members : List String}
    {w : CompiledWrite} (h : Plan.update s e row f members = .ok (some w)) :
    Numbered d w.statement w.params.length := by
  obtain ⟨filter, n, as, n', hfilter, has, rfl⟩ := update_ok h
  have hwhere : Fills {} n (optionPlaceholders d filter) := by
    obtain ⟨-, hkeys⟩ | ⟨-, hwrite⟩ := hfilter
    · exact keysExpr_fills d hkeys
    · exact filterExpr_fills d (writeFilterExpr_ok hwrite).2
  have hset := assignmentsOf_fills d has
  exact ⟨n.params.length, hset.grows, hwhere.range, hset.numbers⟩

theorem Compiled.numbered {statement : Sql.Statement} {params : List Value}
    (h : Compiled s statement params) : Numbered d statement params.length := by
  cases h with
  | select h => exact (numbered_select d h).1
  | page p h =>
    have hselect := (numbered_select d h).1
    rw [Sql.placeholders_select] at hselect
    exact (Sql.placeholders_select d _).trans hselect
  | total h => exact (numbered_select d h).2
  | count h =>
    obtain ⟨e, g, included, l, inner, n, -, -, hfiltered, rfl, rfl⟩ := count_ok h
    exact numbered_filtered d hfiltered
      (placeholders_one d (placeholders_counted d (by simp))) inner.limit
  | existence h =>
    obtain ⟨e, l, inner, n, -, hfiltered, rfl, rfl⟩ := existence_ok h
    exact numbered_filtered d hfiltered (placeholders_one d rfl) _
  | insert h =>
    obtain ⟨columns, -, rfl⟩ := insert_ok h
    rw [List.length_map]
    exact placeholders_insert d _ _ columns.length
  | update h => exact numbered_update d h
  | delete h =>
    obtain ⟨filter, n, hfilter, rfl⟩ := delete_ok h
    have hfills := filterExpr_fills d (writeFilterExpr_ok hfilter).2
    exact (placeholders_delete d _ filter).trans hfills.range

/-- **Every statement numbers its parameters**: its placeholders are exactly the positions of its
parameter list, each once and, but for the exchanged halves of an update, in the order in which
they are written. The select of a query and its count number one list. -/
theorem placeholders_numbered (s : Schema) (d : Dialect) :
    (∀ statement params, Compiled s statement params → Numbered d statement params.length) ∧
      ∀ q plan, Plan.select s q = .ok plan →
        placeholders (plan.select.pieces d) = placeholders (plan.count.pieces d) := by
  refine ⟨fun statement params h => h.numbered d, fun q plan h => ?_⟩
  rw [(numbered_select d h).1, (numbered_select d h).2]

/-- The query behind a condition and the page of it number their values in their place. -/
theorem placeholders_numbered_orders : ∃ plan, Plan.select salesSchema ordersQuery = .ok plan ∧
    placeholders (plan.select.pieces .mysql) = [0, 1, 2, 3, 4] ∧
    placeholders (plan.count.pieces .mysql) = [0, 1, 2, 3, 4] := by
  obtain ⟨plan, hplan, hparams⟩ := Except.exists_ok
    (x := Plan.select salesSchema ordersQuery) (fun plan => plan.params.length == 5)
    (by decide +kernel)
  have hselect := (placeholders_numbered salesSchema .mysql).1 _ _ (.select hplan)
  have hcount := (placeholders_numbered salesSchema .mysql).2 _ _ hplan
  rw [beq_iff_eq.1 hparams] at hselect
  exact ⟨plan, hplan, hselect, hcount ▸ hselect⟩

end EntityQuery.Plan
