import EntityQuery.Proofs.JoinGraph.Inheritance
import EntityQuery.Proofs.Member.Steady
import EntityQuery.Proofs.Record.Absorbed
import EntityQuery.Proofs.JoinGraph.Alias
import EntityQuery.Proofs.Schema.Built

/-! The records of a row.

Each scope of a graph has a record: its own columns, and those of the scopes that it reaches by
inheritance alone (`merged`). The rest hangs below it under the names of navigations. While no
scope inherits over two joins, every column of the row that has the alias of a scope is in the
records it belongs to, once each, with its value and under its name with marks behind
(`record_materialized`). Over two joins the columns of one base may replace those of the other. -/
namespace EntityQuery.JoinGraph

variable {s : Schema} {g : JoinGraph} {names : Naming} {row : Row}

/-! ### Records -/

/-- The record of a scope, with all that hangs below it. -/
def recordOf (s : Schema) (g : JoinGraph) (names : Naming) (row : Row) (scope : Nat) : Record :=
  g.recordAt s names row g.joins.length scope

/-- What a join brings to the record of its parent. -/
def attachJoin (s : Schema) (g : JoinGraph) (names : Naming) (row : Row) (r : Record) (j : Nat) :
    Record :=
  match g.joins[j]? with
  | none => r
  | some join => r.attach join.navigation (g.recordOf s names row (j + 1))

/-- Looking deeper than there are joins brings nothing more. -/
theorem Rooted.recordAt_stable (hg : g.Rooted) {depth depth' scope : Nat}
    (h : g.joins.length ≤ depth + scope) (hdepth : depth ≤ depth') :
    g.recordAt s names row depth' scope = g.recordAt s names row depth scope := by
  induction depth generalizing depth' scope with
  | zero =>
    have hnone := hg.children_beyond (by omega : g.joins.length ≤ scope)
    cases depth' <;> simp [recordAt, hnone]
  | succ depth ih =>
    obtain ⟨depth', rfl⟩ := Nat.exists_eq_add_of_le' (Nat.le_of_add_left_le hdepth : 1 ≤ depth')
    simp only [recordAt]
    refine List.foldl_ext _ _ _ fun r j hj => ?_
    obtain ⟨-, rfl⟩ := mem_children.1 hj
    have hle := hg j
    rw [ih (by omega) (by omega)]

/-- The record of a scope: its own columns, and what each join below it brings. -/
theorem Rooted.recordOf_eq (hg : g.Rooted) (scope : Nat) : g.recordOf s names row scope =
    (g.children scope).foldl (attachJoin s g names row)
      ⟨(g.entity s scope).name, ownValues (g.aliasName names scope) row, []⟩ := by
  rw [recordOf, ← hg.recordAt_stable (Nat.le_add_right ..) (Nat.le_succ _), recordAt]
  rfl

/-! ### Columns -/

/-- Navigations leave the columns of a record as they are, and each base is absorbed. -/
theorem values_attachJoin (js : List Nat) (r : Record) :
    (js.foldl (attachJoin s g names row) r).values =
      (js.filter g.leadsToBase).foldl
        (fun values j => (g.recordOf s names row (j + 1)).values.foldl Record.absorbValue values)
        r.values := by
  induction js generalizing r with
  | nil => rfl
  | cons j rest ih =>
    rw [List.foldl_cons, ih, attachJoin]
    cases hj : g.joins[j]? with
    | none => simp [leadsToBase, hj]
    | some join =>
      cases hi : join.navigation.inheritance with
      | true => simp [leadsToBase, hj, hi, Record.attach, Record.absorb]
      | false =>
        cases hv : (g.recordOf s names row (j + 1)).isVoid <;>
          simp [leadsToBase, hj, hi, Record.attach, hv]

theorem Rooted.values_recordOf (hg : g.Rooted) (scope : Nat) :
    (g.recordOf s names row scope).values =
      (g.bases scope).foldl
        (fun values j => (g.recordOf s names row (j + 1)).values.foldl Record.absorbValue values)
        (ownValues (g.aliasName names scope) row) := by
  rw [hg.recordOf_eq, values_attachJoin, bases]

/-- The columns of some scopes, each with its scope. -/
def columns (g : JoinGraph) (names : Naming) (row : Row) (scopes : List Nat) :
    List (Nat × String × Value) :=
  scopes.flatMap fun scope => (ownValues (g.aliasName names scope) row).map (scope, ·)

theorem Rooted.columns_merged (hg : g.Rooted) (names : Naming) (row : Row) (scope : Nat) :
    g.columns names row (g.merged scope) =
      (ownValues (g.aliasName names scope) row).map (scope, ·) ++
        g.columns names row (g.merged scope).tail ∧
    g.columns names row (g.merged scope).tail =
      (g.bases scope).flatMap fun j => g.columns names row (g.merged (j + 1)) := by
  rw [hg.merged_eq, List.tail_cons]
  exact ⟨List.flatMap_cons, List.flatMap_assoc⟩

/-! ### Looking up -/

section Lookup
variable {name : String} (hname : Plain name)
include hname

open OrderedMap (getFold? named?)

/-- The columns of several bases are found one base after another. -/
theorem lookup_bases (columns : Nat → OrderedMap Value) (js : List Nat)
    (hjs : ∀ j ∈ js, getFold? (g.recordOf s names row (j + 1)).values name =
      getFold? (columns j) name) (values : OrderedMap Value) :
    let held := js.foldl
      (fun values j => (g.recordOf s names row (j + 1)).values.foldl Record.absorbValue values)
      values
    getFold? held name = (getFold? values name).or (getFold? (js.flatMap columns) name) ∧
      named? held name = (named? values name).or (getFold? (js.flatMap columns) name) := by
  induction js generalizing values with
  | nil => simp [getFold?]
  | cons j rest ih =>
    obtain ⟨hfirst, hrest⟩ := List.forall_mem_cons.1 hjs
    obtain ⟨hfold, hnamed⟩ := Record.lookup_absorbed hname
      (g.recordOf s names row (j + 1)).values values
    simp only [List.foldl_cons, List.flatMap_cons, OrderedMap.getFold?_append, (ih hrest _).1,
      (ih hrest _).2, hfold, hnamed, hfirst, Option.or_assoc, and_self]

/-- A name without marks finds the first column that has it in the order of the merged scopes, but
of the scope itself rather the column that has exactly this name. -/
theorem Rooted.lookup_recordOf (hg : g.Rooted) (s : Schema) (names : Naming) (row : Row)
    (scope : Nat) :
    getFold? (g.recordOf s names row scope).values name =
        getFold? ((g.columns names row (g.merged scope)).map Prod.snd) name ∧
      (g.recordOf s names row scope).value? name =
        (named? (ownValues (g.aliasName names scope) row) name).or
          (getFold? ((g.columns names row (g.merged scope).tail).map Prod.snd) name) := by
  refine hg.induction_below (motive := fun scope =>
    getFold? (g.recordOf s names row scope).values name =
        getFold? ((g.columns names row (g.merged scope)).map Prod.snd) name ∧
      (g.recordOf s names row scope).value? name =
        (named? (ownValues (g.aliasName names scope) row) name).or
          (getFold? ((g.columns names row (g.merged scope).tail).map Prod.snd) name))
    (fun scope ih => ?_) scope
  obtain ⟨hfold, hnamed⟩ := lookup_bases hname
    (fun j => (g.columns names row (g.merged (j + 1))).map Prod.snd) (g.bases scope)
    (fun j hj => (ih j (List.mem_of_mem_filter hj)).1) (ownValues (g.aliasName names scope) row)
  obtain ⟨hall, htail⟩ := hg.columns_merged names row scope
  have hown : ((ownValues (g.aliasName names scope) row).map (scope, ·)).map Prod.snd =
      ownValues (g.aliasName names scope) row := by
    simp [Function.comp_def]
  rw [Record.value?, hg.values_recordOf, hfold, hnamed, hall, List.map_append, hown,
    OrderedMap.getFold?_append, htail, List.map_flatMap]
  exact ⟨rfl, rfl⟩

end Lookup

/-! ### All columns of a row -/

/-- A column stands in a record under its name with marks behind, if any. -/
def Carried (column : Nat × String × Value) (held : String × Value) : Prop :=
  held.2 = column.2.2 ∧ ∃ n, held.1 = marked column.2.1 n

/-- A column that is carried is so still once it was moved. -/
theorem Carried.moved {column : Nat × String × Value} {held moved : String × Value}
    (h : Carried column held) (hmoved : Record.Moved held moved) : Carried column moved := by
  obtain ⟨hvalue, n, hname⟩ := h
  refine ⟨hmoved.1.trans hvalue, ?_⟩
  obtain hsame | hmark := hmoved.2
  · exact ⟨n, hsame.trans hname⟩
  · exact ⟨n + 1, by rw [hmark, hname, marked]⟩

/-- What the records of a row have of its columns. -/
structure Materialized (s : Schema) (g : JoinGraph) (names : Naming) (row : Row) : Prop where
  root : g.record s names row = g.recordOf s names row 0
  made : ∀ scope, g.recordOf s names row scope =
    (g.children scope).foldl (attachJoin s g names row)
      ⟨(g.entity s scope).name, ownValues (g.aliasName names scope) row, []⟩
  /-- A scope reads the columns that have its alias in front. -/
  read : ∀ scope column v, (column, v) ∈ ownValues (g.aliasName names scope) row ↔
    (rowName (g.aliasName names scope) column, v) ∈ row
  /-- No column is read by two scopes. -/
  once : ∀ scope ≤ g.joins.length, ∀ other ≤ g.joins.length, ∀ column column',
    rowName (g.aliasName names scope) column = rowName (g.aliasName names other) column' →
      scope = other ∧ column = column'
  /-- Where a column goes: along inheritance. -/
  merged : ∀ scope other, other ∈ g.merged scope ↔ Relation.ReflTransGen g.Inherits scope other
  /-- The columns of the scope itself come first and as they are. -/
  own : ∀ scope, ownValues (g.aliasName names scope) row <+: (g.recordOf s names row scope).values
  /-- The record has the columns of the merged scopes, in this order, and no others. -/
  carried : ∀ scope, List.Forall₂ Carried (g.columns names row (g.merged scope))
    (g.recordOf s names row scope).values
  /-- Each has a name of its own. -/
  distinct : ∀ scope, (g.recordOf s names row scope).values.keys.Nodup

theorem carried_moved {columns : List (Nat × String × Value)} {held moved : OrderedMap Value}
    (h : List.Forall₂ Carried columns held) (hmoved : List.Forall₂ Record.Moved held moved) :
    List.Forall₂ Carried columns moved := by
  induction h generalizing moved with
  | nil =>
    obtain rfl := List.forall₂_nil_left_iff.1 hmoved
    exact .nil
  | cons hcolumn _ ih =>
    obtain ⟨first, rest, hfirst, hrest, rfl⟩ := List.forall₂_cons_left_iff.1 hmoved
    exact .cons (hcolumn.moved hfirst) (ih hrest)

/-- A column's name without the alias has no mark when the row's name has none. -/
theorem unmarked_of_rowName {aliasName column : String}
    (h : Unmarked (rowName aliasName column)) : Unmarked column := by
  rintro front rfl
  exact h (rowName aliasName front) (by simp [rowName, String.append_assoc])

/-- An alias has no underscore. -/
theorem underscore_notMem_alias (g : JoinGraph) (a : AliasSupply) (scope : Nat) :
    '_' ∉ (g.aliasName (g.assign a).1 scope).toList := by
  cases scope with
  | zero => exact notMem_tableAlias (by decide) (by decide) _
  | succ j => exact notMem_joinAlias (by decide) (by decide) _

/-- The first underscore of a name in a row ends the alias. -/
theorem rowName_unique {a b column column' : String} (ha : '_' ∉ a.toList) (hb : '_' ∉ b.toList)
    (h : rowName a column = rowName b column') : a = b ∧ column = column' := by
  have hlist := congrArg String.toList h
  simp only [rowName, String.toList_append, List.append_assoc] at hlist
  obtain ⟨rest, hrest, hcolumns⟩ | ⟨rest, hrest, hcolumns⟩ := List.append_eq_append_iff.1 hlist
  all_goals
    cases rest with
    | nil =>
      rw [List.append_nil, String.toList_inj] at hrest
      exact ⟨by simp [hrest], String.toList_inj.1 (by simpa [eq_comm] using hcolumns)⟩
    | cons c rest =>
      obtain ⟨rfl, -⟩ : '_' = c ∧ _ := by simpa using hcolumns
      simp [hrest] at ha hb

section Row
variable (hg : g.Rooted) (hbase : g.SingleBase) (hkeys : row.keys.Nodup)
  (hrow : ∀ name ∈ row.keys, Unmarked name)
include hkeys hrow

theorem unmarked_ownValues (aliasName : String) :
    ∀ column ∈ (ownValues aliasName row).keys, Unmarked column := by
  intro column hcolumn
  obtain ⟨⟨_, v⟩, hmem, rfl⟩ := List.mem_map.1 hcolumn
  have hname := List.mem_map_of_mem (f := Prod.fst) ((mem_ownValues hkeys aliasName).1 hmem)
  exact unmarked_of_rowName (hrow _ hname)

include hg hbase

/-- One scope after another: a base is absorbed behind the scope's own columns and moves none. -/
theorem Rooted.carried_recordOf (scope : Nat) :
    ownValues (g.aliasName names scope) row <+: (g.recordOf s names row scope).values ∧
      List.Forall₂ Carried (g.columns names row (g.merged scope))
        (g.recordOf s names row scope).values ∧
      Layered (g.recordOf s names row scope).values.keys := by
  refine hg.induction_below (motive := fun scope =>
    ownValues (g.aliasName names scope) row <+: (g.recordOf s names row scope).values ∧
      List.Forall₂ Carried (g.columns names row (g.merged scope))
        (g.recordOf s names row scope).values ∧
      Layered (g.recordOf s names row scope).values.keys) (fun scope ih => ?_) scope
  have hunmarked := unmarked_ownValues hkeys hrow (g.aliasName names scope)
  have hlayered := layered_of_unmarked (nodup_ownValues hkeys _) hunmarked
  have hown : List.Forall₂ Carried
      ((ownValues (g.aliasName names scope) row).map (scope, ·))
      (ownValues (g.aliasName names scope) row) :=
    List.forall₂_map_left_iff.2 (List.forall₂_same.2 fun _ _ => ⟨rfl, 0, rfl⟩)
  obtain ⟨hall, htail⟩ := hg.columns_merged names row scope
  rw [hg.values_recordOf, hall, htail]
  match hbases : g.bases scope with
  | [] =>
    simpa only [List.flatMap_nil, List.append_nil, List.foldl_nil] using
      ⟨List.prefix_rfl, hown, hlayered⟩
  | [j] =>
    have hj : j ∈ g.bases scope := by simp [hbases]
    obtain ⟨-, hcarried, hbelow⟩ := ih j (List.mem_of_mem_filter hj)
    obtain ⟨held, hmoved, habsorbed, hall⟩ := Record.absorbed hbelow hlayered
      fun own hmem column _ n => hunmarked own hmem _
    simp only [List.foldl_cons, List.foldl_nil, List.flatMap_cons, List.flatMap_nil,
      List.append_nil, habsorbed]
    exact ⟨List.prefix_append .., List.rel_append hown (carried_moved hcarried hmoved), hall⟩
  | _ :: _ :: _ =>
    have hone := hbase scope
    simp [hbases] at hone

/-- **Columns are neither lost nor mixed up.** Where no scope inherits over two joins, a row none of
whose names ends with the mark is read into the records column by column. -/
theorem record_materialized (a : AliasSupply) : Materialized s g (g.assign a).1 row where
  root := rfl
  made := hg.recordOf_eq
  read _ _ _ := mem_ownValues hkeys _
  once scope hscope other hother column column' h := by
    obtain ⟨halias, hcolumn⟩ := rowName_unique (underscore_notMem_alias g a scope)
      (underscore_notMem_alias g a other) h
    exact ⟨hg.aliasName_injective a hscope hother halias, hcolumn⟩
  merged _ _ := hg.mem_merged
  own scope := (hg.carried_recordOf hbase hkeys hrow scope).1
  carried scope := (hg.carried_recordOf hbase hkeys hrow scope).2.1
  distinct scope := (hg.carried_recordOf hbase hkeys hrow scope).2.2.nodup

end Row

/-! ### Notes

Every entity of the chain keeps a note of its own. -/

def notes : List (String × Mapping.Document) := [
  ("notes", ⟨[
    { name := "Order", table := some "orders", keys := [{name := "Id"}]
      properties := [{name := "Remark", column := some "Note"}] },
    { name := "Invoice", base := some "Order"
      properties := [{name := "Notice", column := some "Note"}] },
    { name := "Receipt", base := some "Invoice"
      properties := [{name := "Memo", column := some "note"}] }]⟩)]

/-- A receipt's row. -/
def noted : Row :=
  [("T_Id", .int32 1), ("J1_Note", .text "remark"), ("J0_Note", .text "notice"),
    ("T_note", .text "memo")]

/-- Behind the receipt's own columns stands the note of the invoice and then that of the order,
which has a mark in the invoice's record already. -/
theorem record_materialized_notes : ∃ s g columns, Schema.build notes = .ok s ∧
    Member.resolveEach s (.ofRoot 2) ["Id", "Memo", "Notice", "Remark"] = .ok (g, columns) ∧
    g.Rooted ∧ g.SingleBase ∧ noted.keys.Nodup ∧ (∀ name ∈ noted.keys, Unmarked name) ∧
    Materialized s g (g.assign {}).1 noted ∧
    (g.record s (g.assign {}).1 noted).values = [("Id", .int32 1), ("note", .text "memo"),
      ("Note(base)", .text "notice"), ("Note(base)(base)", .text "remark")] := by
  obtain ⟨s, hs, h⟩ := Except.exists_ok (x := Schema.build notes) (fun s =>
    match Member.resolveEach s (.ofRoot 2) ["Id", "Memo", "Notice", "Remark"] with
    | .error _ => false
    | .ok (g, _) => decide ((∀ scope < g.joins.length, (g.bases scope).length ≤ 1) ∧
        (g.record s (g.assign {}).1 noted).values = [("Id", .int32 1), ("note", .text "memo"),
          ("Note(base)", .text "notice"), ("Note(base)(base)", .text "remark")]))
    (by decide +kernel)
  cases hresolve : Member.resolveEach s (.ofRoot 2) ["Id", "Memo", "Notice", "Remark"] with
  | error e => simp [hresolve] at h
  | ok found =>
    obtain ⟨g, columns⟩ := found
    simp only [hresolve, decide_eq_true_eq] at h
    obtain ⟨d, hb⟩ := Schema.build_ok hs
    have hg := (Member.resolveEach_found hb.acyclic (rooted_ofRoot 2) hresolve).rooted
    have hbase := hg.singleBase_of h.1
    have hkeys : noted.keys.Nodup := by decide +kernel
    have hrow : ∀ name ∈ noted.keys, Unmarked name := by decide +kernel
    exact ⟨s, g, columns, hs, hresolve, hg, hbase, hkeys, hrow,
      record_materialized hg hbase hkeys hrow {}, h.2⟩

/-- A pupil's École is a school, and pupils inherit from an entity of that name. -/
def pupils : List (String × Mapping.Document) := [
  ("pupils", ⟨[
    { name := "Pupil", keys := [{name := "Id"}], base := some "École"
      navigations := [{name := "École", target := "School", keys := [⟨"Id", "Id"⟩]}] },
    { name := "École", keys := [{name := "Id"}], base := some "Base" },
    { name := "Base", keys := [{name := "Id"}], base := some "Root"
      properties := [{name := "Name"}] },
    { name := "Root", keys := [{name := "Id"}], properties := [{name := "Name"}] },
    { name := "School", keys := [{name := "Id"}], properties := [{name := "Name"}] }]⟩)]

def pupilRow : Row :=
  [("T_Id", .int32 1), ("J0_Name", .text "school"), ("J1_Name", .text "base"),
    ("J2_Name", .text "root")]

/-- The school's scope is taken for that of the base and inherits over two joins. What the second
brings replaces what the first brought: the name of `Base` is in no record. -/
theorem pupils_lose : ∃ s g columns, Schema.build pupils = .ok s ∧
    Member.resolveEach s (.ofRoot 0) ["Id", "École.Name", "Base.Name", "Root.Name"] =
      .ok (g, columns) ∧
    g.Rooted ∧ pupilRow.keys.Nodup ∧ (∀ name ∈ pupilRow.keys, Unmarked name) ∧
    ("Name", Value.text "base") ∈ ownValues (g.aliasName (g.assign {}).1 2) pupilRow ∧
    g.merged 1 = [1, 2, 3] ∧
    (g.recordOf s (g.assign {}).1 pupilRow 1).values =
      [("Name", .text "school"), ("Name(base)", .text "root")] ∧
    ¬ Materialized s g (g.assign {}).1 pupilRow := by
  obtain ⟨s, hs, h⟩ := Except.exists_ok (x := Schema.build pupils) (fun s =>
    match Member.resolveEach s (.ofRoot 0) ["Id", "École.Name", "Base.Name", "Root.Name"] with
    | .error _ => false
    | .ok (g, _) => decide (
        ("Name", Value.text "base") ∈ ownValues (g.aliasName (g.assign {}).1 2) pupilRow ∧
        g.merged 1 = [1, 2, 3] ∧
        (g.columns (g.assign {}).1 pupilRow [1, 2, 3]).length = 3 ∧
        (g.recordOf s (g.assign {}).1 pupilRow 1).values =
          [("Name", .text "school"), ("Name(base)", .text "root")]))
    (by decide +kernel)
  cases hresolve : Member.resolveEach s (.ofRoot 0)
      ["Id", "École.Name", "Base.Name", "Root.Name"] with
  | error e => simp [hresolve] at h
  | ok found =>
    obtain ⟨g, columns⟩ := found
    simp only [hresolve, decide_eq_true_eq] at h
    obtain ⟨hread, hmerged, hcolumns, hvalues⟩ := h
    obtain ⟨d, hb⟩ := Schema.build_ok hs
    have hg := (Member.resolveEach_found hb.acyclic (rooted_ofRoot 0) hresolve).rooted
    refine ⟨s, g, columns, hs, hresolve, hg, by decide +kernel, by decide +kernel, hread, hmerged,
      hvalues, fun hall => ?_⟩
    -- Three columns are read and two are held.
    have hlength := (hall.carried 1).length_eq
    rw [hmerged, hcolumns, hvalues] at hlength
    exact absurd hlength (by decide)

end EntityQuery.JoinGraph
