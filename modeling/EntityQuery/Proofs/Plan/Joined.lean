import EntityQuery.Proofs.JoinGraph.Flipped
import EntityQuery.Proofs.Plan.Matching

/-! The joined rows of a select.

The joins of a select are made from left to right, the joins below one before the next beside it.
So what they make of a row of a scope is put together branch by branch, and it is what the tree of
tables has for the row (`allRows_expand`). -/
namespace EntityQuery.Plan

open JoinGraph (JoinedRow rowAt)
open Sql (Database Frame Join isTrue joinRows orAbsent)

variable {s : Schema} {l : Layout} {a : AliasSupply}

/-! ### Branch after branch -/

/-- A row that has a scope and that the joins `ks` are still to be made to. -/
structure Open (l : Layout) (scope : Nat) (r : Option Row) (ks : List Nat) (f : JoinedRow Row) :
    Prop where
  bounded : ∀ k ∈ f.map Prod.fst, k ≤ l.graph.joins.length
  here : scope ∈ f.map Prod.fst
  row : rowAt f scope = r
  inside : ∀ k ∈ ks, k < l.graph.joins.length
  new : ∀ k ∈ ks, k + 1 ∉ f.map Prod.fst

namespace Open
variable {scope : Nat} {r : Option Row} {ks : List Nat} {f : JoinedRow Row}

theorem subset {ks' : List Nat} (h : Open l scope r ks f) (hsub : ks' ⊆ ks) :
    Open l scope r ks' f :=
  ⟨h.bounded, h.here, h.row, fun k hk => h.inside k (hsub hk), fun k hk => h.new k (hsub hk)⟩

/-- Some of the joins have been made. -/
theorem append {js : List Nat} {x : JoinedRow Row} (h : Open l scope r (js ++ ks) f)
    (hnodup : (js ++ ks).Nodup) (hx : x.map Prod.fst = js.map (· + 1)) :
    Open l scope r ks (f ++ x) where
  bounded k hk := by
    rw [List.map_append, List.mem_append, hx] at hk
    rcases hk with hk | hk
    · exact h.bounded k hk
    · obtain ⟨j, hj, rfl⟩ := List.mem_map.1 hk
      exact h.inside j (List.mem_append_left _ hj)
  here := by
    rw [List.map_append]
    exact List.mem_append_left _ h.here
  row := by rw [JoinGraph.rowAt_append_left h.here, h.row]
  inside k hk := h.inside k (List.mem_append_right _ hk)
  new k hk := by
    rw [List.map_append, List.mem_append, hx, not_or]
    refine ⟨h.new k (List.mem_append_right _ hk), fun hmem => ?_⟩
    obtain ⟨j, hj, heq⟩ := List.mem_map.1 hmem
    obtain rfl : j = k := Nat.succ.inj heq
    exact (List.nodup_append.1 hnodup).2.2 j hj j hk rfl

/-- The first of the joins has been made, and those below it come next. -/
theorem enter {c : Nat} {t : Option Row} (h : Open l scope r (c :: ks) f)
    (hnodup : (c :: ks).Nodup) : Open l (c + 1) t ks (f ++ [(c + 1, t)]) := by
  have hnew := h.new c (List.mem_cons_self ..)
  have hmade : Open l scope r ks (f ++ [(c + 1, t)]) :=
    (show Open l scope r ([c] ++ ks) f from h).append hnodup rfl
  refine ⟨hmade.bounded, by simp, ?_, hmade.inside, hmade.new⟩
  rw [JoinGraph.rowAt_append_right hnew, JoinGraph.rowAt_cons_self]

end Open

/-- A row of one scope takes all joins below it. -/
theorem Laid.open_row (hl : Laid l a) (needed : List Nat) (depth : Nat) {scope : Nat}
    (hscope : scope ≤ l.graph.joins.length) (r : Row) :
    Open l scope (some r) (l.graph.descend needed depth scope) [(scope, some r)] := by
  refine ⟨by simpa using hscope, by simp, JoinGraph.rowAt_cons_self .., fun k hk => ?_,
    fun k hk => ?_⟩
  · exact (hl.rooted.mem_descend hk).2.1
  · have hle := (hl.rooted.mem_descend hk).1
    simp
    omega

theorem foldl_eq_flatMap {step : List Frame → Nat → List Frame}
    (hlinear : ∀ left c, step left c = left.flatMap fun row => step [row] c) (cs : List Nat)
    (left : List Frame) : cs.foldl step left = left.flatMap fun row => cs.foldl step [row] := by
  induction cs generalizing left with
  | nil => simp
  | cons c rest ih =>
    simp only [List.foldl_cons]
    rw [ih, hlinear, List.flatMap_assoc]
    exact congrArg (left.flatMap ·) (funext fun row => (ih _).symm)

/-- Steps that put a row together with the rows of one branch put it together with the rows of all
branches, one after another. -/
theorem foldl_branches (block : Nat → List Nat) (rows : Nat → List (JoinedRow Row)) {scope : Nat}
    {r : Option Row} {step : List Frame → Nat → List Frame} {cs : List Nat}
    (hlinear : ∀ left c, step left c = left.flatMap fun row => step [row] c)
    (hkeys : ∀ c ∈ cs, ∀ x ∈ rows c, x.map Prod.fst = (block c).map (· + 1))
    (hstep : ∀ c ∈ cs, ∀ f, Open l scope r (block c) f →
      step [l.frame f] c = (rows c).map fun x => l.frame (f ++ x))
    (hnodup : (cs.flatMap block).Nodup) {f : JoinedRow Row}
    (hf : Open l scope r (cs.flatMap block) f) :
    cs.foldl step [l.frame f] =
      (JoinGraph.product (cs.map rows)).map fun x => l.frame (f ++ x) := by
  induction cs generalizing f with
  | nil => simp [JoinGraph.product]
  | cons c rest ih =>
    rw [List.flatMap_cons] at hnodup hf
    rw [List.foldl_cons, hstep c (List.mem_cons_self ..) f (hf.subset (List.subset_append_left ..)),
      foldl_eq_flatMap hlinear, List.flatMap_map, List.map_cons, JoinGraph.product,
      List.map_flatMap]
    refine List.flatMap_congr fun x hx => ?_
    rw [ih (fun c hc => hkeys c (List.mem_cons_of_mem _ hc))
      (fun c hc => hstep c (List.mem_cons_of_mem _ hc)) (List.nodup_append.1 hnodup).2.1
      (hf.append hnodup (hkeys c (List.mem_cons_self ..) x hx)), List.map_map]
    exact congrArg (List.map · _) (funext fun y => by rw [Function.comp_apply, List.append_assoc])

/-! ### Joins as they are made -/

/-- A join puts rows together with the rows of its target. -/
theorem rows_join_eq (db : Database) (params : List Value) (outer : Frame) (c : Nat)
    (left : List Frame) : (join s l none c).rows db params outer left =
      joinRows (l.graph.kind l.flipped c)
        (fun frame => isTrue ((join s l none c).on.value db params (.of (frame ++ outer))))
        (l.frame [(c + 1, none)]) left
        (((tables db s l).rows c).map fun t => l.frame [(c + 1, some t)]) := rfl

section Made
variable (hl : Laid l a) (hkeys : ∀ j < l.graph.joins.length, (navigationOf l.graph j).keys ≠ [])
  (db : Database) (params : List Value) (outer : Frame)
include hl hkeys

omit hkeys in
/-- What is joined to a row does not change what the row has. -/
theorem Laid.rowOf_parent {c : Nat} {r t : Option Row} {ks : List Nat} {f x : JoinedRow Row}
    (hf : Open l (l.graph.parent c) r (c :: ks) f)
    (hx : ∀ k ∈ x.map Prod.fst, k ≤ l.graph.joins.length) :
    l.rowOf (l.frame (f ++ (c + 1, t) :: x) ++ outer) (l.graph.parent c) = r ∧
      l.rowOf (l.frame (f ++ (c + 1, t) :: x) ++ outer) (c + 1) = t := by
  have hself := List.mem_cons_self (a := c) (l := ks)
  have hbounded : ∀ k ∈ (f ++ (c + 1, t) :: x).map Prod.fst, k ≤ l.graph.joins.length := by
    rw [List.map_append, List.map_cons, List.forall_mem_append, List.forall_mem_cons]
    exact ⟨hf.bounded, hf.inside c hself, hx⟩
  have hparent : l.graph.parent c ∈ (f ++ (c + 1, t) :: x).map Prod.fst := by
    rw [List.map_append]
    exact List.mem_append_left _ hf.here
  refine ⟨?_, ?_⟩
  · rw [hl.rowOf_around hbounded hparent, JoinGraph.rowAt_append_left hf.here, hf.row]
  · rw [hl.rowOf_around hbounded (by simp), JoinGraph.rowAt_append_right (hf.new c hself),
      JoinGraph.rowAt_cons_self]

/-- The ON condition of a join, in a row that has its parent and then a row of its target. -/
theorem Laid.isTrue_on_next {c : Nat} {r t : Row} {ks : List Nat} {f x : JoinedRow Row}
    (hf : Open l (l.graph.parent c) (some r) (c :: ks) f)
    (hx : ∀ k ∈ x.map Prod.fst, k ≤ l.graph.joins.length) :
    isTrue ((join s l none c).on.value db params
        (.of (l.frame f ++ l.frame ((c + 1, some t) :: x) ++ outer))) =
      l.graph.meets (tables db s l) l.flipped c r t := by
  obtain ⟨hr, ht⟩ := hl.rowOf_parent outer (t := some t) hf hx
  rw [← l.frame_append]
  exact hl.isTrue_on_row db params (hkeys c (hf.inside c (List.mem_cons_self ..))) hr ht

/-- What a join makes of a row that has a row of its parent. -/
theorem Laid.rows_join {c : Nat} {r : Row} {ks : List Nat} {f : JoinedRow Row}
    (hf : Open l (l.graph.parent c) (some r) (c :: ks) f) :
    (join s l none c).rows db params outer [l.frame f] =
      (orAbsent (l.graph.kind l.flipped c) [(c + 1, none)]
        ((((tables db s l).rows c).filter (l.graph.meets (tables db s l) l.flipped c r)).map
          fun t => [(c + 1, some t)])).map fun x => l.frame (f ++ x) := by
  have hon : (fun other => isTrue ((join s l none c).on.value db params
      (.of (l.frame f ++ other ++ outer)))) ∘ (fun t => l.frame [(c + 1, some t)]) =
        l.graph.meets (tables db s l) l.flipped c r :=
    funext fun t => hl.isTrue_on_next hkeys db params outer hf (by simp)
  have hframe : ∀ ts : List Row, (ts.map fun t => l.frame [(c + 1, some t)]) =
      (ts.map fun t => [(c + 1, some t)]).map l.frame := fun ts => by
    rw [List.map_map]
    rfl
  rw [rows_join_eq, joinRows, List.flatMap_singleton, List.filter_map, hon, hframe,
    ← Sql.map_orAbsent, List.map_map]
  exact congrArg (List.map · _) (funext fun x => (l.frame_append f x).symm)

/-- Nothing is joined to an empty scope, and a LEFT join keeps the row. -/
theorem Laid.rows_join_empty {c : Nat} {ks : List Nat} {f : JoinedRow Row}
    (hf : Open l (l.graph.parent c) none (c :: ks) f)
    (hkind : l.graph.kind l.flipped c = .left) :
    (join s l none c).rows db params outer [l.frame f] = [l.frame (f ++ [(c + 1, none)])] := by
  have hon : ∀ t, isTrue ((join s l none c).on.value db params
      (.of (l.frame f ++ l.frame [(c + 1, some t)] ++ outer))) = false := fun t => by
    rw [← l.frame_append]
    exact isTrue_on_empty db params (hkeys c (hf.inside c (List.mem_cons_self ..)))
      (hl.rowOf_parent outer (x := []) hf (by simp)).1
  have hfound : ((((tables db s l).rows c).map fun t => l.frame [(c + 1, some t)]).filter
      fun other => isTrue ((join s l none c).on.value db params
        (.of (l.frame f ++ other ++ outer)))) = [] := by
    refine List.filter_eq_nil_iff.2 fun other hother => ?_
    obtain ⟨t, -, rfl⟩ := List.mem_map.1 hother
    rw [hon t]
    exact Bool.false_ne_true
  rw [rows_join_eq, joinRows, List.flatMap_singleton, hfound, hkind, l.frame_append]
  rfl

end Made

/-! ### All joins -/

theorem allRows_flatMap (db : Database) (params : List Value) (outer : Frame)
    (block : Nat → List Nat) (cs : List Nat) (left : List Frame) :
    Join.allRows db params ((cs.flatMap block).map (join s l none)) outer left =
      cs.foldl (fun left c => Join.allRows db params ((block c).map (join s l none)) outer left)
        left := by
  induction cs generalizing left with
  | nil => rfl
  | cons c rest ih =>
    rw [List.flatMap_cons, List.map_append, Sql.allRows_append, ih, List.foldl_cons]

/-- The joins below a scope are made branch by branch. -/
theorem Laid.allRows_branches (hl : Laid l a) {needed : List Nat} (hclosed : l.graph.Closed needed)
    {db : Database} {params : List Value} {outer : Frame} {depth scope : Nat} {r : Option Row}
    (rows : Nat → List (JoinedRow Row))
    (hkeys : ∀ c ∈ l.graph.branches needed scope, ∀ x ∈ rows c,
      x.map Prod.fst = (c :: l.graph.descend needed depth (c + 1)).map (· + 1))
    (hbranch : ∀ c ∈ l.graph.branches needed scope, ∀ f : JoinedRow Row,
      Open l scope r (c :: l.graph.descend needed depth (c + 1)) f →
      Join.allRows db params ((c :: l.graph.descend needed depth (c + 1)).map (join s l none)) outer
        [l.frame f] = (rows c).map fun x => l.frame (f ++ x))
    {f : JoinedRow Row} (hf : Open l scope r (l.graph.descend needed (depth + 1) scope) f) :
    Join.allRows db params ((l.graph.descend needed (depth + 1) scope).map (join s l none)) outer
        [l.frame f] =
      (JoinGraph.product ((l.graph.branches needed scope).map rows)).map fun x =>
        l.frame (f ++ x) := by
  rw [JoinGraph.descend, allRows_flatMap]
  exact foldl_branches _ rows (fun left c => Sql.allRows_eq_flatMap db params
      ((c :: l.graph.descend needed depth (c + 1)).map (join s l none)) outer left)
    hkeys hbranch (hl.rooted.nodup_descend hclosed (depth + 1) scope) hf

section All
variable (hl : Laid l a) (hkeys : ∀ j < l.graph.joins.length, (navigationOf l.graph j).keys ≠ [])
  {needed : List Nat} (hclosed : l.graph.Closed needed)
  (hflipped : l.flipped = l.graph.flipNested [] needed)
  (db : Database) (params : List Value) (outer : Frame)
include hl hkeys hclosed hflipped

/-- Below an empty scope under a LEFT join everything is empty. -/
theorem Laid.allRows_empty {depth scope : Nat} {f : JoinedRow Row}
    (hunder : l.graph.underLeft scope = true)
    (hf : Open l scope none (l.graph.descend needed depth scope) f) :
    Join.allRows db params ((l.graph.descend needed depth scope).map (join s l none)) outer
        [l.frame f] =
      [l.frame (f ++ (l.graph.descend needed depth scope).map fun k => (k + 1, none))] := by
  induction depth generalizing scope f with
  | zero => simp [JoinGraph.descend, Join.allRows]
  | succ depth ih =>
    rw [hl.allRows_branches hclosed (fun c => [l.graph.absence needed depth c])
      (fun c _ x hx => ?_) (fun c hc f hf => ?_) hf, JoinGraph.product_singletons,
      List.map_singleton, JoinGraph.descend, List.map_flatMap]
    · rfl
    · rw [List.mem_singleton.1 hx, JoinGraph.keys_absence]
    · obtain ⟨⟨hlen, rfl⟩, hmem⟩ := JoinGraph.mem_branches.1 hc
      have hnodup := hl.rooted.nodup_block hclosed depth c
      have hleft : l.graph.underLeft (c + 1) = true := by
        rw [hl.rooted.underLeft_succ hlen, hunder, Bool.true_or]
      have hkind : l.graph.kind l.flipped c = .left := by
        rw [hflipped, hl.rooted.kind_flipNested hlen hmem, if_pos hleft]
      rw [List.map_cons, Join.allRows, hl.rows_join_empty hkeys db params outer hf hkind,
        ih hleft (hf.enter hnodup), List.append_assoc]
      rfl

/-- What a join that finds nothing and the joins below it make of a row of its parent. -/
theorem Laid.allRows_missed {depth c : Nat} {r : Row} {f : JoinedRow Row}
    (hmem : c ∈ needed) (hlen : c < l.graph.joins.length)
    (hf : Open l (l.graph.parent c) (some r) (c :: l.graph.descend needed depth (c + 1)) f)
    (hnone : ((tables db s l).rows c).filter (l.graph.meets (tables db s l) l.flipped c r) = []) :
    Join.allRows db params ((c :: l.graph.descend needed depth (c + 1)).map (join s l none)) outer
        [l.frame f] =
      (l.graph.branchRows needed (tables db s l) l.flipped depth c r).map fun x =>
        l.frame (f ++ x) := by
  have hnodup := hl.rooted.nodup_block hclosed depth c
  rw [List.map_cons, Join.allRows, hl.rows_join hkeys db params outer hf, JoinGraph.branchRows,
    JoinGraph.finds_eq_filter, hnone, List.map_nil, List.flatMap_nil]
  by_cases hunder : l.graph.underLeft (c + 1) = true
  · have hkind : l.graph.kind l.flipped c = .left := by
      rw [hflipped, hl.rooted.kind_flipNested hlen hmem, if_pos hunder]
    rw [hkind]
    show Join.allRows db params _ outer [l.frame (f ++ [(c + 1, none)])] = _
    rw [hl.allRows_empty hkeys hclosed hflipped db params outer hunder (hf.enter hnodup),
      List.append_assoc]
    rfl
  · have hkind : l.graph.kind l.flipped c = .inner := by
      rw [hflipped, hl.rooted.kind_flipNested hlen hmem, if_neg hunder]
    rw [hkind]
    show Join.allRows db params _ outer [] = _
    rw [Sql.allRows_eq_flatMap]
    rfl

/-- What a join and the joins below it make of a row that has a row of its parent. -/
theorem Laid.allRows_branch {depth c : Nat} {r : Row} {f : JoinedRow Row}
    (hmem : c ∈ needed) (hlen : c < l.graph.joins.length)
    (hdeeper : ∀ t f, Open l (c + 1) (some t) (l.graph.descend needed depth (c + 1)) f →
      Join.allRows db params ((l.graph.descend needed depth (c + 1)).map (join s l none)) outer
          [l.frame f] =
        (l.graph.expand needed (tables db s l) l.flipped depth (c + 1) t).map fun x =>
          l.frame (f ++ x))
    (hf : Open l (l.graph.parent c) (some r) (c :: l.graph.descend needed depth (c + 1)) f) :
    Join.allRows db params ((c :: l.graph.descend needed depth (c + 1)).map (join s l none)) outer
        [l.frame f] =
      (l.graph.branchRows needed (tables db s l) l.flipped depth c r).map fun x =>
        l.frame (f ++ x) := by
  by_cases hnone : ((tables db s l).rows c).filter
      (l.graph.meets (tables db s l) l.flipped c r) = []
  · exact hl.allRows_missed hkeys hclosed hflipped db params outer hmem hlen hf hnone
  · have hnodup := hl.rooted.nodup_block hclosed depth c
    obtain ⟨t, ht⟩ := List.exists_mem_of_ne_nil _ hnone
    obtain ⟨hrow, hmeets⟩ := List.mem_filter.1 ht
    have hfinds := hl.rooted.branchRows_of_meets depth hlen hmem hrow (hflipped ▸ hmeets)
    rw [← hflipped] at hfinds
    rw [List.map_cons, Join.allRows, hl.rows_join hkeys db params outer hf, hfinds,
      JoinGraph.finds_eq_filter, Sql.orAbsent_of_ne_nil (mt List.map_eq_nil_iff.1 hnone),
      List.map_map, Sql.allRows_eq_flatMap, List.flatMap_map, List.map_flatMap]
    congr 1
    funext t
    rw [Function.comp_apply, hdeeper t _ (hf.enter hnodup), List.map_map]
    exact congrArg (List.map · _) (funext fun x => by
      rw [Function.comp_apply, List.append_assoc, List.singleton_append])

/-- **What the joins below a scope make of a row**: what the tree of tables has for it. -/
theorem Laid.allRows_expand {depth scope : Nat} {r : Row} {f : JoinedRow Row}
    (hf : Open l scope (some r) (l.graph.descend needed depth scope) f) :
    Join.allRows db params ((l.graph.descend needed depth scope).map (join s l none)) outer
        [l.frame f] =
      (l.graph.expand needed (tables db s l) l.flipped depth scope r).map fun x =>
        l.frame (f ++ x) := by
  induction depth generalizing scope r f with
  | zero => simp [JoinGraph.descend, JoinGraph.expand, Join.allRows]
  | succ depth ih =>
    refine hl.allRows_branches hclosed
      (fun c => l.graph.branchRows needed (tables db s l) l.flipped depth c r)
      (fun c _ x hx => JoinGraph.keys_branchRows hx) (fun c hc f hf => ?_) hf
    obtain ⟨⟨hlen, rfl⟩, hmem⟩ := JoinGraph.mem_branches.1 hc
    exact hl.allRows_branch hkeys hclosed hflipped db params outer hmem hlen
      (fun t f hf => ih hf) hf

end All

end EntityQuery.Plan
