import EntityQuery.Proofs.Plan.Nested
import EntityQuery.Proofs.Sql.RowCount

/-! The total of a query.

With a select goes a count, which is to say how many rows there are before a page is taken. Without
groups it counts what the select's own sources give, and that is a row each unless the select shows
or sorts by an aggregate. With groups it counts the groups, and the select joins to these what it
shows beside them: a group whose join finds nothing may be lost, and one that finds several rows
comes several times (`total_counts`). -/
namespace EntityQuery.Plan

open Member (Column)
open Sql (Database Frame Join Select)

variable {s : Schema} {l : Layout}

/-! ### What stands beside groups -/

theorem aggregate_mem_innerColumns {c rowCount : Column} {keys asked : List Column}
    (h : c ∈ asked) (hc : c.isAggregate = true) : c ∈ innerColumns rowCount keys asked := by
  simp only [innerColumns]
  split
  · exact mem_withAggregates.2 (.inr ⟨h, hc⟩)
  · exact List.mem_append_left _ (mem_withAggregates.2 (.inr ⟨h, hc⟩))

theorem aggregates_expr (db : Database) (l : Layout) {c : Column} (h : c.isAggregate = false) :
    (l.expr c).aggregates db = false := by
  have hvalue : c.measure = .value := by simpa [Column.isAggregate] using h
  rw [Layout.expr, Column.expr, hvalue]
  rfl

/-- All aggregates are inside the derived table. -/
theorem aggregates_beside (db : Database) {c : GroupedColumns} {rowCount : Column}
    {display : List Column} {sorted : List (Column × Direction)} (groups : Select)
    (derived : String)
    (hinner : c.inner = innerColumns rowCount c.keys (display ++ sorted.map Prod.fst))
    (hbeside : c.beside = display.filter (!c.inner.contains ·)) :
    (besideSelect s l c groups derived sorted).aggregates db = false := by
  have hplain : ∀ column ∈ display ++ sorted.map Prod.fst, column ∉ c.inner →
      (l.expr column).aggregates db = false := fun column hmem hout =>
    aggregates_expr db l <| Bool.eq_false_iff.2 fun haggregate =>
      hout (hinner ▸ aggregate_mem_innerColumns hmem haggregate)
  have hitems : ∀ i ∈ c.beside.map l.item ++ [.wildcard derived],
      Sql.Item.aggregates db i = false := by
    intro i hi
    rcases List.mem_append.1 hi with hi | hi
    · obtain ⟨column, hcolumn, rfl⟩ := List.mem_map.1 hi
      rw [hbeside, List.mem_filter] at hcolumn
      exact hplain column (List.mem_append_left _ hcolumn.1) (by simpa using hcolumn.2)
    · obtain rfl := List.mem_singleton.1 hi
      rfl
  have horders : ∀ o ∈ outerOrder l derived c.inner sorted, o.expr.aggregates db = false := by
    intro o ho
    obtain ⟨⟨column, direction⟩, hcolumn, rfl⟩ := List.mem_map.1 ho
    by_cases hin : c.inner.contains column
    · simp only [hin, if_true]
      rfl
    · simp only [hin, Bool.false_eq_true, if_false]
      exact hplain column (List.mem_append_right _ (List.mem_map_of_mem hcolumn))
        (by simpa using hin)
  have hshown := List.any_eq_false.2 fun i hi => Bool.eq_false_iff.1 (hitems i hi)
  have hsorted := List.any_eq_false.2 fun o ho => Bool.eq_false_iff.1 (horders o ho)
  simp only [Select.aggregates, besideSelect, Select.of, hshown, hsorted]
  rfl

/-! ### Totals -/

/-- What the count of a query without groups is to the rows of its select. -/
structure RowTotal (db : Database) (params : List Value) (shown : Select) (total : Nat) : Prop where
  counted : total = (shown.kept db params []).length
  /-- An aggregate puts all rows together. -/
  single : shown.aggregates db = true → (shown.rows db params []).length = 1
  equal : total = (shown.rows db params []).length ↔ (shown.aggregates db = true → total = 1)

/-- What the count of a grouped query is to the rows of its select, which joins something to the
groups. -/
structure GroupTotal (db : Database) (params : List Value) (shown : Select) (groups : List Row)
    (derived : String) (total : Nat) : Prop where
  counted : total = groups.length
  rows : (shown.rows db params []).length = (groups.flatMap fun group =>
    Join.allRows db params shown.joins [] [[(some derived, some group)]]).length
  /-- LEFT joins lose no group. -/
  left : (∀ j ∈ shown.joins, j.kind = .left) → total ≤ (shown.rows db params []).length
  /-- Where no group finds two rows in a join, only a lost one makes a difference. -/
  equal : (∀ group ∈ groups, Join.FindOne db params [] shown.joins [(some derived, some group)]) →
    (shown.rows db params []).length ≤ total ∧
      (total = (shown.rows db params []).length ↔ ∀ group ∈ groups,
        Join.allRows db params shown.joins [] [[(some derived, some group)]] ≠ [])

/-- The count of a query and the rows of its select. -/
inductive Totals (db : Database) (params : List Value) (plan : CompiledQuery) (total : Nat) :
    Option Grouping → Prop where
  | rows : RowTotal db params plan.select total → Totals db params plan total none
  | groups {grouping : Grouping} {groups : Select} {derived : String} :
    plan.select.source = .derived groups derived → plan.count.source = .derived groups derived →
    GroupTotal db params plan.select (groups.rows db params []) derived total →
    Totals db params plan total (some grouping)

section
variable (db : Database) (params : List Value)

theorem rowTotal {shown : Select} (hgroupBy : shown.groupBy = []) (hhaving : shown.having = none)
    (hlimit : shown.limit = none) : RowTotal db params shown (shown.kept db params []).length := by
  have hsingle : shown.aggregates db = true → (shown.rows db params []).length = 1 := fun h => by
    rw [Sql.rows_aggregated db params h hgroupBy hhaving hlimit]
    rfl
  refine ⟨rfl, hsingle, ?_⟩
  cases haggregates : shown.aggregates db with
  | false => simp [Sql.length_rows db params haggregates hlimit]
  | true => simp [hsingle haggregates]

theorem groupTotal {shown groups : Select} {derived : String}
    (hsource : shown.source = .derived groups derived) (hfilter : shown.filter = none)
    (haggregates : shown.aggregates db = false) (hlimit : shown.limit = none) :
    GroupTotal db params shown (groups.rows db params []) derived
      (groups.rows db params []).length := by
  have hkept : shown.kept db params [] = shown.joined db params [] := by
    rw [Select.kept, hfilter]
    exact List.filter_eq_self.2 fun _ _ => Sql.isTrue_bool true
  have hrows : (shown.rows db params []).length = ((groups.rows db params []).flatMap fun group =>
      Join.allRows db params shown.joins [] [[(some derived, some group)]]).length := by
    rw [Sql.length_rows db params haggregates hlimit, hkept, Select.joined, hsource,
      Sql.allRows_eq_flatMap, Sql.labelled, List.flatMap_map]
    rfl
  refine ⟨rfl, hrows, fun hleft => ?_, fun hone => ?_⟩
  · rw [hrows]
    exact Sql.length_le_flatMap fun group _ => Sql.allRows_ne_nil hleft [] (List.cons_ne_nil _ _)
  · rw [hrows, eq_comm]
    exact Sql.length_flatMap_le fun group hgroup => Sql.length_allRows_le (hone group hgroup)

/-- **What a count counts.** Without groups it is the rows under the filter, and these are the rows
of the select unless that puts them together. With groups it is the groups, and the rows of the
select are as many exactly when what it joins to them gives each one row on the whole. -/
theorem total_counts {q : Query} {plan : CompiledQuery} (h : Plan.select s q = .ok plan) :
    ∃ total, plan.count.rows db params [] = [[("", .int64 (.ofNat total))]] ∧
      Totals db params plan total q.grouping := by
  obtain ⟨n, hrun, -⟩ := select_ok h
  obtain ⟨e, g, display, grown, sorted, -, -, -, hcases⟩ := querySelects_ok hrun
  obtain ⟨inner, hgrouping, hfiltered, hshown, hcount⟩ | ⟨grouping, c, hgrouping, hc, hgrouped⟩ :=
    hcases
  · obtain ⟨_, _, _, -, -, -, hinner⟩ := filtered_ok hfiltered
    have htotal : RowTotal db params plan.select (plan.select.kept db params []).length :=
      rowTotal db params (by rw [hshown, hinner]; rfl) (by rw [hshown, hinner]; rfl)
        (by rw [hshown, hinner]; rfl)
    refine ⟨_, ?_, hgrouping ▸ Totals.rows htotal⟩
    rw [Sql.rows_countAll db params (by rw [hcount]; rfl) (by rw [hcount, hinner]; rfl)
      (by rw [hcount, hinner]; rfl) (by rw [hcount, hinner]; rfl), hcount, hshown]
    rfl
  · obtain ⟨_, _, _, _, _, _, -, -, -, -, hinner, -, hbeside, -, -⟩ := resolveGrouped_ok hc
    obtain ⟨filter, m, having, m', -, -, -, hshown, hcount, -⟩ := groupedSelects_ok hgrouped
    have hsource : plan.select.source = .derived (groupsSelect s plan.layout c filter having)
        (tableAlias m'.aliases.tables) := by rw [hshown]; rfl
    have haggregates : plan.select.aggregates db = false := by
      rw [hshown]
      exact aggregates_beside db _ _ hinner hbeside
    have hgroups := groupTotal db params hsource (by rw [hshown]; rfl) haggregates
      (by rw [hshown]; rfl)
    refine ⟨_, ?_, hgrouping ▸ Totals.groups hsource (by rw [hcount]; rfl) hgroups⟩
    rw [Sql.rows_countAll db params (by rw [hcount]; rfl) (by rw [hcount]; rfl)
      (by rw [hcount]; rfl) (by rw [hcount]; rfl), hcount]
    simp [Select.kept, Select.joined, Select.of, Join.allRows, Sql.labelled, Sql.Source.rows,
      Sql.Expr.valueOr, Sql.isTrue_bool]

end

theorem total_counts_ordersByCustomer :
    ∃ plan, Plan.select salesSchema ordersByCustomer = .ok plan ∧
      ∃ total, plan.count.rows lostRegion plan.params [] = [[("", .int64 (.ofNat total))]] ∧
        Totals lostRegion plan.params plan total ordersByCustomer.grouping := by
  obtain ⟨plan, hplan, -⟩ := Except.exists_ok (x := Plan.select salesSchema ordersByCustomer)
    (fun _ => true) (by decide +kernel)
  exact ⟨plan, hplan, total_counts lostRegion plan.params hplan⟩

/-- Countries by region, each region with its name. -/
def countriesByRegion : Query where
  entity := "Country"
  filter := .composite .and []
  members := ["RegionId", "Region.Name"]
  sorting := []
  grouping := some ⟨["RegionId"], .composite .and []⟩
  paging := none

/-- How many regions there are. -/
def regionCount : Query where
  entity := "Region"
  filter := .composite .and []
  members := ["count(0)"]
  sorting := []
  grouping := none
  paging := none

/-- A region that is not there is counted and not shown, and the number of regions is shown where
none are counted. -/
theorem countriesByRegion_miscounted :
    (∃ plan, Plan.select salesSchema countriesByRegion = .ok plan ∧
      plan.count.rows lostRegion plan.params [] = [[("", .int64 1)]] ∧
      plan.select.rows lostRegion plan.params [] = []) ∧
    ∃ plan, Plan.select salesSchema regionCount = .ok plan ∧
      plan.count.rows lostRegion plan.params [] = [[("", .int64 0)]] ∧
      (plan.select.rows lostRegion plan.params []).length = 1 := by
  refine ⟨?_, ?_⟩
  · obtain ⟨plan, hplan, h⟩ := Except.exists_ok (x := Plan.select salesSchema countriesByRegion)
      (fun plan => decide (plan.count.rows lostRegion plan.params [] = [[("", .int64 1)]] ∧
        plan.select.rows lostRegion plan.params [] = [])) (by decide +kernel)
    exact ⟨plan, hplan, of_decide_eq_true h⟩
  · obtain ⟨plan, hplan, h⟩ := Except.exists_ok (x := Plan.select salesSchema regionCount)
      (fun plan => decide (plan.count.rows lostRegion plan.params [] = [[("", .int64 0)]] ∧
        (plan.select.rows lostRegion plan.params []).length = 1)) (by decide +kernel)
    exact ⟨plan, hplan, of_decide_eq_true h⟩

end EntityQuery.Plan
