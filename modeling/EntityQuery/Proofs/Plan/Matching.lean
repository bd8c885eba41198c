import EntityQuery.Proofs.JoinGraph.Expansion
import EntityQuery.Proofs.Plan.Sources

/-! What the joins of a select ask of rows.

A row of scopes is a row of sources once the scopes have their aliases, and no source of the select
or around it hides another. The condition of a join compares the key columns of two scopes and asks
for a row of each join flipped below (`isTrue_on_row`); of an empty scope it is not true. -/
namespace EntityQuery.Plan

open JoinGraph (JoinedRow Tables rowAt)
open Sql (Database Expr Frame Moment Select columnOf isTrue)

variable {s : Schema} {l : Layout} {a : AliasSupply}

namespace Layout

/-- A row of scopes as a row of sources. -/
def frame (l : Layout) (f : JoinedRow Row) : Frame := f.map fun entry => (l.label entry.1, entry.2)

theorem frame_append (l : Layout) (f x : JoinedRow Row) :
    l.frame (f ++ x) = l.frame f ++ l.frame x :=
  List.map_append ..

/-- The row of a scope. -/
def rowOf (l : Layout) (frame : Frame) (scope : Nat) : Option Row := frame.row? (l.label scope)

/-- The layout with its joins as they are declared. -/
def declared (l : Layout) : Layout := {l with flipped := []}

end Layout

/-- The tables behind the joins of a layout. Rows belong together when all key columns are equal. -/
def tables (db : Database) (s : Schema) (l : Layout) : Tables Row where
  rows j := db.table (tableOf (l.graph.entity s (j + 1)))
  connects j r t := (navigationOf l.graph j).keys.all fun pair =>
    isTrue (db.operator .eq
      (columnOf r ((l.graph.entity s (l.graph.parent j)).columnOf pair.source))
      (columnOf t ((l.graph.entity s (j + 1)).columnOf pair.target)))

/-! ### Rows of scopes as rows of sources -/

namespace Laid
variable (hl : Laid l a)
include hl

theorem label_injective {i j : Nat} (hi : i ≤ l.graph.joins.length)
    (hj : j ≤ l.graph.joins.length) (h : l.label i = l.label j) : i = j := by
  have hi' : l.label i = some (l.aliasName i) := if_neg (hl.handedOut hi).ne_empty
  have hj' : l.label j = some (l.aliasName j) := if_neg (hl.handedOut hj).ne_empty
  rw [hi', hj'] at h
  exact hl.injective hi hj (Option.some.inj h)

theorem lookup_frame {f : JoinedRow Row} (hf : ∀ k ∈ f.map Prod.fst, k ≤ l.graph.joins.length)
    {scope : Nat} (hscope : scope ≤ l.graph.joins.length) :
    (l.frame f).lookup (l.label scope) = f.lookup scope := by
  induction f with
  | nil => rfl
  | cons entry rest ih =>
    obtain ⟨k, row⟩ := entry
    rw [List.map_cons, List.forall_mem_cons] at hf
    rw [Layout.frame, List.map_cons, List.lookup_cons, List.lookup_cons, ← Layout.frame, ih hf.2]
    have heq : (l.label scope == l.label k) = (scope == k) := by
      rw [Bool.eq_iff_iff, beq_iff_eq, beq_iff_eq]
      exact ⟨hl.label_injective hscope hf.1, congrArg l.label⟩
    rw [heq]

theorem rowOf_frame {f : JoinedRow Row} (hf : ∀ k ∈ f.map Prod.fst, k ≤ l.graph.joins.length)
    {scope : Nat} (hscope : scope ≤ l.graph.joins.length) :
    l.rowOf (l.frame f) scope = rowAt f scope := by
  rw [Layout.rowOf, Frame.row?, hl.lookup_frame hf hscope, rowAt]

/-- What is around a select does not change what its own scopes have. -/
theorem rowOf_around {f : JoinedRow Row} (hf : ∀ k ∈ f.map Prod.fst, k ≤ l.graph.joins.length)
    {scope : Nat} (hscope : scope ∈ f.map Prod.fst) (outer : Frame) :
    l.rowOf (l.frame f ++ outer) scope = rowAt f scope := by
  obtain ⟨entry, hentry, rfl⟩ := List.mem_map.1 hscope
  have hsome : (f.lookup entry.1).isSome = true :=
    List.lookup_isSome_iff.2 ⟨entry, hentry, beq_self_eq_true _⟩
  rw [Layout.rowOf, Frame.row?, List.lookup_append, hl.lookup_frame hf (hf _ hscope),
    Option.or_of_isSome hsome, rowAt]

end Laid

/-! ### What the conditions of a join ask -/

theorem value_qualified (db : Database) (params : List Value) (aliasName name : String)
    (m : Moment) :
    (Expr.qualified aliasName name).value db params m =
      m.frame.read (Sql.aliasName? aliasName) name := rfl

theorem isTrue_equal (db : Database) (params : List Value) (lhs rhs : Expr) (m : Moment) :
    isTrue ((Expr.equal lhs rhs).value db params m) =
      isTrue (db.operator .eq (lhs.value db params m) (rhs.value db params m)) := rfl

section Conditions
variable (db : Database) (params : List Value)

theorem read_of_row {frame : Frame} {aliasName : Option String} {row : Row}
    (h : frame.row? aliasName = some row) (name : String) :
    frame.read aliasName name = columnOf row name := by
  rw [Frame.read, h]
  rfl

theorem read_of_empty {frame : Frame} {aliasName : Option String}
    (h : frame.row? aliasName = none) (name : String) : frame.read aliasName name = .null := by
  rw [Frame.read, h]
  rfl

/-- An EXISTS in a condition asks for a row of the join's target. -/
theorem Laid.isTrue_matchExists (hl : Laid l a) {frame : Frame} {j : Nat}
    (hj : j < l.graph.joins.length) {r : Row} (hr : l.rowOf frame (l.graph.parent j) = some r) :
    isTrue ((matchExists s l j).value db params (.of frame)) =
      ((tables db s l).rows j).any ((tables db s l).connects j r) := by
  have hselect : matchExists s l j = .hasRow {Select.of (.ofTable
      (tableOf (l.graph.entity s (j + 1))) (probeAt l j).aliasName) with
    items := [.expr (.literal 0) none], filter := Expr.allOf? (matchKeys s l j)
    limit := some ⟨0, 1⟩} := rfl
  have hparent : l.graph.parent j ≤ l.graph.joins.length :=
    Nat.le_trans (hl.rooted j) (Nat.le_of_lt hj)
  have hprobe : (l.label (l.graph.parent j) == Sql.aliasName? (probeAt l j).aliasName) = false := by
    have hlabel : l.label (l.graph.parent j) = some (l.aliasName (l.graph.parent j)) :=
      if_neg (hl.handedOut hparent).ne_empty
    have hother : Sql.aliasName? (probeAt l j).aliasName = some (probeAt l j).aliasName :=
      if_neg (hl.probe_handedOut hj).ne_empty
    rw [beq_eq_false_iff_ne, hlabel, hother]
    exact fun heq => hl.ne_probe _ j (Option.some.inj heq)
  rw [hselect, Sql.isTrue_hasRow, Sql.isEmpty_rows_ofSource, Bool.not_not]
  show (db.table (tableOf (l.graph.entity s (j + 1)))).any _ = _
  congr 1
  funext t
  rw [Sql.isTrue_allOf?, matchKeys, List.all_map]
  congr 1
  funext pair
  have hown : Frame.row? ((Sql.aliasName? (probeAt l j).aliasName, some t) :: frame)
      (Sql.aliasName? (probeAt l j).aliasName) = some t := by
    rw [Frame.row?, List.lookup_cons_self]
    rfl
  have habove : Frame.row? ((Sql.aliasName? (probeAt l j).aliasName, some t) :: frame)
      (l.label (l.graph.parent j)) = some r := by
    rw [Frame.row?, List.lookup_cons, hprobe]
    exact hr
  rw [Function.comp_apply, isTrue_equal, value_qualified, value_qualified, db.isTrue_equal_comm]
  exact congrArg₂ (fun v w => isTrue (db.operator .eq v w)) (read_of_row habove _)
    (read_of_row hown _)

/-- The key columns of a join compare the rows of its two scopes. -/
theorem isTrue_keys {frame : Frame} {j : Nat} {r t : Row}
    (hr : l.rowOf frame (l.graph.parent j) = some r) (ht : l.rowOf frame (j + 1) = some t)
    (pair : KeyPair) :
    isTrue ((Expr.equal
        (parentKey l none (l.graph.parent j)
          ((l.graph.entity s (l.graph.parent j)).columnOf pair.source))
        (.qualified (l.aliasName (j + 1)) ((l.graph.entity s (j + 1)).columnOf pair.target))).value
          db params (.of frame)) =
      isTrue (db.operator .eq
        (columnOf r ((l.graph.entity s (l.graph.parent j)).columnOf pair.source))
        (columnOf t ((l.graph.entity s (j + 1)).columnOf pair.target))) :=
  congrArg₂ (fun v w => isTrue (db.operator .eq v w)) (read_of_row hr _) (read_of_row ht _)

theorem isTrue_on {j : Nat} (hkeys : (navigationOf l.graph j).keys ≠ []) (m : Moment) :
    isTrue ((join s l none j).on.value db params m) =
      (joinConditions s l none j).all fun e => isTrue (e.value db params m) := by
  refine Sql.isTrue_allOf?_getD db params (fun hnone => hkeys ?_) m
  exact List.map_eq_nil_iff.1 (List.append_eq_nil_iff.1 hnone).1

/-- The ON condition of a join is true of the rows that meet. -/
theorem Laid.isTrue_on_row (hl : Laid l a) {frame : Frame} {j : Nat}
    (hkeys : (navigationOf l.graph j).keys ≠ []) {r t : Row}
    (hr : l.rowOf frame (l.graph.parent j) = some r) (ht : l.rowOf frame (j + 1) = some t) :
    isTrue ((join s l none j).on.value db params (.of frame)) =
      l.graph.meets (tables db s l) l.flipped j r t := by
  have hdemands : ∀ child ∈ l.graph.demands l.flipped j,
      isTrue ((matchExists s l child).value db params (.of frame)) =
        ((tables db s l).rows child).any ((tables db s l).connects child t) := by
    intro child hchild
    obtain ⟨hflipped, hparent⟩ := JoinGraph.mem_demands.1 hchild
    exact hl.isTrue_matchExists db params (hl.flipped child hflipped) (by rw [hparent, ht])
  rw [isTrue_on db params hkeys, joinConditions, List.all_append, List.all_map, List.all_map,
    JoinGraph.meets]
  refine congrArg₂ _ (congrArg _ (funext fun pair => isTrue_keys db params hr ht pair)) ?_
  rw [Bool.eq_iff_iff, List.all_eq_true, List.all_eq_true]
  exact forall₂_congr fun child hchild => by rw [Function.comp_apply, hdemands child hchild]

/-- Nothing is joined to a scope that is empty. -/
theorem isTrue_on_empty {frame : Frame} {j : Nat} (hkeys : (navigationOf l.graph j).keys ≠ [])
    (hr : l.rowOf frame (l.graph.parent j) = none) :
    isTrue ((join s l none j).on.value db params (.of frame)) = false := by
  rw [isTrue_on db params hkeys, ← Bool.not_eq_true, List.all_eq_true]
  intro hall
  obtain ⟨pair, hpair⟩ := List.exists_mem_of_ne_nil _ hkeys
  have htrue := hall _ (List.mem_append_left _ (List.mem_map_of_mem hpair))
  have hnull : (parentKey l none (l.graph.parent j)
      ((l.graph.entity s (l.graph.parent j)).columnOf pair.source)).value db params (.of frame) =
        .null := read_of_empty hr _
  rw [isTrue_equal, hnull, db.isTrue_equal_null] at htrue
  exact absurd htrue (by decide)

end Conditions

end EntityQuery.Plan
