import EntityQuery.Proofs.Sql.Relation

/-! How many rows a select shows.

A select that puts no rows together shows one for each row that WHERE keeps; one that puts all of
them together shows a single row, and what it counts is how many were kept. A row that comes to
joins leaves them at most once when none of them finds two matches for it, and at least once when
all of them are LEFT. -/
namespace EntityQuery.Sql

variable (db : Database) (params : List Value)

/-- The joined rows of which WHERE is true. -/
def Select.kept (s : Select) (outer : Frame) : List Frame :=
  (s.joined db params outer).filter fun frame =>
    isTrue (Expr.valueOr db params s.filter (.of (frame ++ outer)))

/-! ### Selects -/

theorem length_sortedBy (keys : Moment → List (Direction × Value)) (moments : List Moment) :
    (sortedBy db keys moments).length = moments.length :=
  List.length_insertionSort ..

theorem length_rows {s : Select} (h : s.aggregates db = false) (hlimit : s.limit = none)
    (outer : Frame) : (s.rows db params outer).length = (s.kept db params outer).length := by
  obtain ⟨items, source, joins, filter, groupBy, having, orderBy, limit⟩ := s
  obtain rfl : limit = none := hlimit
  simp only [Select.rows, h, limited, List.length_map, length_sortedBy, Bool.false_eq_true,
    if_false]
  rfl

/-- What puts all its rows together is one row. -/
theorem rows_aggregated {s : Select} (h : s.aggregates db = true) (hgroupBy : s.groupBy = [])
    (hhaving : s.having = none) (hlimit : s.limit = none) (outer : Frame) :
    s.rows db params outer =
      [Item.allValues db params s.items (.ofGroup outer (s.kept db params outer))] := by
  obtain ⟨items, source, joins, filter, groupBy, having, orderBy, limit⟩ := s
  obtain rfl : limit = none := hlimit
  obtain rfl : groupBy = [] := hgroupBy
  obtain rfl : having = none := hhaving
  simp only [Select.rows, h, limited, if_true, List.isEmpty_nil]
  rfl

/-- A count counts the rows that WHERE keeps. -/
theorem rows_countAll {s : Select} (hitems : s.items = [.expr .countAll none])
    (hgroupBy : s.groupBy = []) (hhaving : s.having = none) (hlimit : s.limit = none)
    (outer : Frame) : s.rows db params outer =
      [[("", .int64 (.ofNat (s.kept db params outer).length))]] := by
  have haggregates : s.aggregates db = true := by
    simp [Select.aggregates, hitems, Item.aggregates, Expr.aggregates]
  rw [rows_aggregated db params haggregates hgroupBy hhaving hlimit, hitems]
  simp [Item.allValues, Item.values, Item.shownName, Expr.value, Moment.ofGroup]

/-! ### Joins -/

/-- The rows of a join's source that a row meets. -/
def Join.found (j : Join) (outer row : Frame) : List Frame :=
  (labelled j.source.label (j.source.rows db params outer)).filter fun other =>
    isTrue (j.on.value db params (.of (row ++ other ++ outer)))

theorem rows_single (j : Join) (outer row : Frame) : j.rows db params outer [row] =
    (orAbsent j.kind [(j.source.label, none)] (j.found db params outer row)).map (row ++ ·) := by
  obtain ⟨kind, source, on⟩ := j
  rw [Join.rows, joinRows, List.flatMap_singleton]
  rfl

/-- On its way through joins a row never finds two matches in one of them. -/
def Join.FindOne (outer : Frame) : List Join → Frame → Prop
  | [], _ => True
  | j :: rest, row => (j.found db params outer row).length ≤ 1 ∧
      ∀ next ∈ j.rows db params outer [row], Join.FindOne outer rest next

variable {db params}

section FlatMap
variable {α β : Type} {f : α → List β} {xs : List α}

theorem length_le_flatMap (h : ∀ x ∈ xs, f x ≠ []) : xs.length ≤ (xs.flatMap f).length := by
  induction xs with
  | nil => exact Nat.le_refl 0
  | cons x rest ih =>
    have hx : 0 < (f x).length := List.length_pos_iff.2 (h x (List.mem_cons_self ..))
    have hrest := ih fun y hy => h y (List.mem_cons_of_mem _ hy)
    rw [List.flatMap_cons, List.length_append, List.length_cons]
    omega

/-- With at most one each, there is one for each exactly when none has nothing. -/
theorem length_flatMap_le (h : ∀ x ∈ xs, (f x).length ≤ 1) :
    (xs.flatMap f).length ≤ xs.length ∧
      ((xs.flatMap f).length = xs.length ↔ ∀ x ∈ xs, f x ≠ []) := by
  induction xs with
  | nil => simp
  | cons x rest ih =>
    have hx := h x (List.mem_cons_self ..)
    obtain ⟨hle, heq⟩ := ih fun y hy => h y (List.mem_cons_of_mem _ hy)
    rw [List.forall_mem_cons, ← heq, List.flatMap_cons, List.length_append, List.length_cons,
      ← List.length_pos_iff]
    exact ⟨by omega, by omega⟩

end FlatMap

theorem length_orAbsent_le {α : Type} {kind : JoinKind} {absent : α} {found : List α}
    (h : found.length ≤ 1) : (orAbsent kind absent found).length ≤ 1 := by
  unfold orAbsent
  split
  · exact Nat.le_refl 1
  · exact h

theorem length_allRows_le {js : List Join} {outer row : Frame}
    (h : Join.FindOne db params outer js row) :
    (Join.allRows db params js outer [row]).length ≤ 1 := by
  induction js generalizing row with
  | nil => exact Nat.le_refl 1
  | cons j rest ih =>
    obtain ⟨hfound, hrest⟩ := h
    have hone : (j.rows db params outer [row]).length ≤ 1 := by
      rw [rows_single, List.length_map]
      exact length_orAbsent_le hfound
    rw [Join.allRows]
    cases hnext : j.rows db params outer [row] with
    | nil =>
      rw [allRows_eq_flatMap]
      exact Nat.zero_le 1
    | cons next others =>
      rw [hnext, List.length_cons] at hone
      obtain rfl : others = [] := List.length_eq_zero_iff.1 (by omega)
      exact ih (hrest next (hnext ▸ List.mem_singleton_self next))

/-- LEFT joins keep every row. -/
theorem allRows_ne_nil {js : List Join} (h : ∀ j ∈ js, j.kind = .left) (outer : Frame)
    {left : List Frame} (hleft : left ≠ []) : Join.allRows db params js outer left ≠ [] := by
  induction js generalizing left with
  | nil => exact hleft
  | cons j rest ih =>
    obtain ⟨row, hrow⟩ := List.exists_mem_of_ne_nil left hleft
    refine ih (fun j hj => h j (List.mem_cons_of_mem _ hj)) fun hnone => ?_
    rw [rows_eq_flatMap, List.flatMap_eq_nil_iff] at hnone
    have hkept := hnone row hrow
    rw [rows_single, h j (List.mem_cons_self ..), List.map_eq_nil_iff] at hkept
    exact orAbsent_left_ne_nil hkept

end EntityQuery.Sql
