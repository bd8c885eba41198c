import EntityQuery.Proofs.Plan.Parallel

/-! Scopes that go from one layout to another.

A select is made of scopes by the aliases they have, the entities whose tables they are and the
navigations that lead to them. Where these of one layout go together with those of another, the
aliases under a renaming (`Layout.Carried`), all that is written of a scope is carried over: its
columns, its source, the key columns that it is joined on, and the test for a match of its join. -/
namespace EntityQuery.Plan

open Member (Column)
open Sql (Expr Select Renaming)

variable {s : Schema} {ρ : Renaming} {l l' : Layout} {a b j k : Nat}

/-! ### Aliases -/

theorem aliasName?_of_ne {name : String} (h : name ≠ "") : Sql.aliasName? name = some name :=
  if_neg h

theorem aliasName?_probe (name : String) : Sql.aliasName? (name ++ "X") = some (name ++ "X") :=
  aliasName?_of_ne (by simp)

theorem renamed_qualified (aliasName column : String) :
    (Expr.qualified aliasName column).renamed ρ [] =
      .column ((Sql.aliasName? aliasName).bind ρ.name) column := by
  unfold Expr.qualified Sql.aliasName?
  split <;> rfl

theorem qualified_of_label (h : l'.label b = (l.label a).bind ρ.name) (column : String) :
    (Expr.qualified (l.aliasName a) column).renamed ρ [] = .qualified (l'.aliasName b) column := by
  rw [renamed_qualified]
  exact congrArg (Expr.column · column) h.symm

theorem expr_of_label {c c' : Column} (h : l'.label c'.scope = (l.label c.scope).bind ρ.name)
    (hcolumn : c.column = c'.column) (hmeasure : c.measure = c'.measure) :
    (l.expr c).renamed ρ [] = l'.expr c' := by
  have hqualified := qualified_of_label h c.column
  unfold Layout.expr Column.expr
  rw [← hmeasure, ← hcolumn]
  cases c.measure with
  | value => exact hqualified
  | aggregate function => exact congrArg (fun e => Expr.call function [e]) hqualified
  | rowCount => rfl

/-- The name of a column in a derived table begins with the alias of its scope. -/
theorem resultName_eq (column : String) (measure : Member.Measure) :
    ∃ rest, ∀ (l : Layout) path scope,
      l.resultName ⟨path, scope, column, measure⟩ = l.aliasName scope ++ "_" ++ rest := by
  cases measure with
  | value => exact ⟨column, fun _ _ _ => rfl⟩
  | aggregate function =>
    exact ⟨function ++ "_" ++ column, fun _ _ _ => by
      simp [Layout.resultName, Column.resultName, Layout.aliasName, toString, String.append_assoc]⟩
  | rowCount =>
    refine ⟨"COUNT", fun _ _ _ => ?_⟩
    rw [String.append_assoc]
    rfl

theorem renamed?_allOf? (es : List Expr) (derived : List String) :
    Expr.renamed? ρ (Expr.allOf? es) derived = Expr.allOf? (Expr.allRenamed ρ es derived) := by
  match es with
  | [] | [_] | _ :: _ :: _ => rfl

/-- A select without derived tables. -/
theorem renamed_of_no_derived (select : Select)
    (h : Sql.derivedNames select.source select.joins = []) : select.renamed ρ [] =
      { items := Sql.Item.allRenamed ρ select.items []
        source := select.source.renamed ρ []
        joins := Sql.Join.allRenamed ρ select.joins [] []
        filter := Expr.renamed? ρ select.filter []
        groupBy := Expr.allRenamed ρ select.groupBy []
        having := Expr.renamed? ρ select.having []
        orderBy := Sql.OrderBy.allRenamed ρ select.orderBy []
        limit := select.limit } := by
  obtain ⟨items, source, joins, filter, groupBy, having, orderBy, limit⟩ := select
  simp only at h
  rw [Select.renamed, h, List.nil_append]

/-! ### What is written of a scope -/

/-- The scopes of two layouts go together by `M`, the second with the aliases of the first under a
renaming. -/
structure Layout.Carried (s : Schema) (ρ : Renaming) (M : Nat → Nat → Prop) (l l' : Layout) :
    Prop where
  text : ∀ {a b}, M a b → ∃ key : AliasKey, l.aliasName a = key.text ∧
    ρ.name key.text = some (l'.aliasName b)
  probe : ∀ {j k}, M (j + 1) (k + 1) →
    ρ.name (l.aliasName (j + 1) ++ "X") = some (l'.aliasName (k + 1) ++ "X")
  entity : ∀ {a b}, M a b → l'.graph.entity s b = l.graph.entity s a
  navigation : ∀ {j k}, M (j + 1) (k + 1) → navigationOf l'.graph k = navigationOf l.graph j
  parent : ∀ {j k}, M (j + 1) (k + 1) → M (l.graph.parent j) (l'.graph.parent k)

/-- The key columns of a join, pair by pair. -/
def keyConditions (s : Schema) (l : Layout) (host : Option String) (j : Nat) : List Expr :=
  (navigationOf l.graph j).keys.map fun pair =>
    .equal (parentKey l host (l.graph.parent j)
        ((l.graph.entity s (l.graph.parent j)).columnOf pair.source))
      (.qualified (l.aliasName (j + 1)) ((l.graph.entity s (j + 1)).columnOf pair.target))

theorem joinConditions_eq (s : Schema) (l : Layout) (host : Option String) (j : Nat) :
    joinConditions s l host j =
      keyConditions s l host j ++ (l.graph.demands l.flipped j).map (matchExists s l) := rfl

namespace Layout.Carried
variable {M : Nat → Nat → Prop} (h : l.Carried s ρ M l')
include h

theorem label (hab : M a b) : l'.label b = (l.label a).bind ρ.name := by
  obtain ⟨key, htext, hname⟩ := h.text hab
  have hkey := ρ.name_text key
  rw [hname] at hkey
  obtain ⟨key', -, htext'⟩ := Option.map_eq_some_iff.1 hkey.symm
  have hne : l'.aliasName b ≠ "" := htext' ▸ AliasKey.text_ne_empty key'
  rw [Layout.label, Layout.label, htext, aliasName?_of_ne (AliasKey.text_ne_empty key),
    aliasName?_of_ne hne]
  exact hname.symm

theorem qualified (hab : M a b) (column : String) :
    (Expr.qualified (l.aliasName a) column).renamed ρ [] = .qualified (l'.aliasName b) column :=
  qualified_of_label (h.label hab) column

theorem expr {c c' : Column} (hscope : M c.scope c'.scope) (hcolumn : c.column = c'.column)
    (hmeasure : c.measure = c'.measure) : (l.expr c).renamed ρ [] = l'.expr c' :=
  expr_of_label (h.label hscope) hcolumn hmeasure

theorem resultName {c c' : Column} (hscope : M c.scope c'.scope) (hcolumn : c.column = c'.column)
    (hmeasure : c.measure = c'.measure) : ρ.result (l.resultName c) = l'.resultName c' := by
  obtain ⟨path, scope, column, measure⟩ := c
  obtain ⟨path', scope', column', measure'⟩ := c'
  obtain rfl : column = column' := hcolumn
  obtain rfl : measure = measure' := hmeasure
  obtain ⟨key, htext, hname⟩ := h.text hscope
  obtain ⟨rest, hrest⟩ := resultName_eq column measure
  have hresult := ρ.result_append key rest
  rw [hname, Option.getD_some] at hresult
  rw [hrest, hrest]
  exact (congrArg (fun name => ρ.result (name ++ "_" ++ rest)) htext).trans hresult

theorem item {c c' : Column} (hscope : M c.scope c'.scope) (hcolumn : c.column = c'.column)
    (hmeasure : c.measure = c'.measure) : (l.item c).renamed ρ [] = l'.item c' := by
  have hexpr := h.expr hscope hcolumn hmeasure
  have hname := h.resultName hscope hcolumn hmeasure
  simp only [Layout.expr, Layout.resultName] at hexpr hname
  simp [Layout.item, Column.item, Sql.Item.renamed, hexpr, hname]

theorem ofTable (t : Sql.TableName) (hab : M a b) :
    (Sql.Source.ofTable t (l.aliasName a)).renamed ρ [] = .ofTable t (l'.aliasName b) :=
  congrArg (Sql.Source.table t) (h.label hab).symm

theorem rootTable (hroot : M 0 0) : (rootTable s l).renamed ρ [] = rootTable s l' := by
  rw [Plan.rootTable, Plan.rootTable, h.entity hroot, h.ofTable _ hroot]

theorem probe_qualified (hjk : M (j + 1) (k + 1)) (column : String) :
    (Expr.qualified (l.aliasName (j + 1) ++ "X") column).renamed ρ [] =
      .qualified (l'.aliasName (k + 1) ++ "X") column := by
  rw [renamed_qualified, aliasName?_probe, Option.bind_some, h.probe hjk, Expr.qualified,
    aliasName?_probe]

theorem probeTable (t : Sql.TableName) (hjk : M (j + 1) (k + 1)) :
    (Sql.Source.ofTable t (l.aliasName (j + 1) ++ "X")).renamed ρ [] =
      .ofTable t (l'.aliasName (k + 1) ++ "X") := by
  simp only [Sql.Source.ofTable, Sql.Source.renamed, aliasName?_probe, Option.bind_some,
    h.probe hjk]

/-- The test for a match of a join is that for a match of the join it goes to. -/
theorem matchExists (hjk : M (j + 1) (k + 1)) :
    (matchExists s l j).renamed ρ [] = matchExists s l' k := by
  have hkeys : ∀ (pair : KeyPair) (source target : Entity),
      (Expr.equal (.qualified (l.aliasName (j + 1) ++ "X") (target.columnOf pair.target))
        (.qualified (l.aliasName (l.graph.parent j)) (source.columnOf pair.source))).renamed ρ [] =
      .equal (.qualified (l'.aliasName (k + 1) ++ "X") (target.columnOf pair.target))
        (.qualified (l'.aliasName (l'.graph.parent k)) (source.columnOf pair.source)) :=
    fun pair source target => by
      rw [Expr.equal, Expr.renamed, h.probe_qualified hjk, h.qualified (h.parent hjk)]
      rfl
  rw [Plan.matchExists, Expr.renamed, renamed_of_no_derived _ rfl]
  simp only [Select.of, h.probeTable _ hjk, renamed?_allOf?, Sql.allRenamed_eq_map, List.map_map,
    Function.comp_def, hkeys]
  rw [Plan.matchExists, h.navigation hjk, h.entity hjk, h.entity (h.parent hjk)]
  rfl

/-- So are the key columns that it is joined on. -/
theorem keyConditions (hjk : M (j + 1) (k + 1)) :
    Expr.allRenamed ρ (keyConditions s l none j) [] = keyConditions s l' none k := by
  have hparent : ∀ (l : Layout) (parent : Nat) (column : String),
      parentKey l none parent column = .qualified (l.aliasName parent) column :=
    fun l parent column => by cases parent <;> rfl
  simp only [Plan.keyConditions, Sql.allRenamed_eq_map, List.map_map, h.navigation hjk,
    h.entity hjk, h.entity (h.parent hjk)]
  refine List.map_congr_left fun pair _ => ?_
  simp only [Function.comp_apply, hparent, Expr.equal, Expr.renamed, h.qualified hjk,
    h.qualified (h.parent hjk)]

end Layout.Carried

end EntityQuery.Plan
