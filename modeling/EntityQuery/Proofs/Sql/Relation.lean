import EntityQuery.Record
import EntityQuery.Sql.Statement
import Mathlib.Data.List.Sort

/-! What selects mean.

A database holds the rows of its tables and gives operators, functions and orders their meaning.
The sources of a select are joined from left to right: a row of what is joined already is put
together with every row of the next source under which the ON condition is true, and a LEFT join
keeps it when there is none. Of these rows WHERE keeps those of which it is true; they are shown
one by one, or put together first when the select groups them or asks for an aggregate of them.

Truth has three values, of which null is the unknown one. -/
namespace EntityQuery.Sql

/-- What a database gives: tables, operators and functions. Nothing is equal to null, and which of
two values is named first makes no difference to whether they are equal. -/
structure Database where
  table : TableName → List Row
  operator : BinaryOp → Value → Value → Value
  isAggregate : String → Bool
  function : String → List Value → Value
  /-- An aggregate of the arguments in each row. -/
  aggregate : String → List (List Value) → Value
  /-- Whether a value may come before another in ascending order. -/
  precedes : Value → Value → Bool
  equal_comm : ∀ v w, operator .eq v w = operator .eq w v
  equal_null : ∀ v, operator .eq .null v ≠ .bool true

/-! ### Truth -/

def isTrue (v : Value) : Bool := decide (v = .bool true)

def conjunction (vs : List Value) : Value :=
  if vs.all isTrue then .bool true
  else if vs.any fun v => decide (v = .bool false) then .bool false
  else .null

def disjunction (vs : List Value) : Value :=
  if vs.any isTrue then .bool true
  else if vs.all fun v => decide (v = .bool false) then .bool false
  else .null

def negation : Value → Value
  | .bool b => .bool !b
  | _ => .null

/-- Negated where a test is written with NOT. -/
def negatedIf (negate : Bool) (v : Value) : Value := if negate then negation v else v

/-! ### Rows of several sources -/

/-- The row of each source, by its alias. A source of which a LEFT join has found nothing has
none. -/
abbrev Frame := List (Option String × Option Row)

def columnOf (row : Row) (name : String) : Value := (OrderedMap.named? row name).getD .null

namespace Frame

/-- The row of a source. -/
def row? (frame : Frame) (aliasName : Option String) : Option Row :=
  (frame.lookup aliasName).join

/-- The value of a column, null where its source has no row. -/
def read (frame : Frame) (aliasName : Option String) (name : String) : Value :=
  ((frame.row? aliasName).map (columnOf · name)).getD .null

end Frame

/-- What an outer join has found, or when that is nothing the row that says so. -/
def orAbsent {α : Type} (kind : JoinKind) (absent : α) (found : List α) : List α :=
  if kind = .left ∧ found = [] then [absent] else found

/-- Joins rows to rows: each on the left is put together with those on the right that it meets. -/
def joinRows (kind : JoinKind) (meets : Frame → Bool) (absent : Frame)
    (left right : List Frame) : List Frame :=
  left.flatMap fun row =>
    (orAbsent kind absent (right.filter fun other => meets (row ++ other))).map (row ++ ·)

def Source.label : Source → Option String
  | .table _ aliasName => aliasName
  | .derived _ aliasName => some aliasName

/-- The rows of one source as rows of several. -/
def labelled (aliasName : Option String) (rows : List Row) : List Frame :=
  rows.map fun row => [(aliasName, some row)]

/-! ### Groups and order -/

/-- What an expression is read in: a row of the sources, and the rows it was put together of. -/
structure Moment where
  frame : Frame
  group : List Frame

/-- A row that stands for itself. -/
def Moment.of (frame : Frame) : Moment := ⟨frame, []⟩

/-- Rows put together that have the same key, in the order in which the keys come first. -/
def grouped (key : Frame → List Value) (frames : List Frame) : List (List Frame) :=
  (frames.map key).eraseDups.map fun k => frames.filter (key · = k)

/-- A row of the group stands for it; a group without rows has none. -/
def Moment.ofGroup (outer : Frame) (group : List Frame) : Moment :=
  ⟨group.headD [] ++ outer, group.map (· ++ outer)⟩

mutual

/-- Whether an expression asks for an aggregate. -/
def Expr.aggregates (db : Database) : Expr → Bool
  | .and es | .or es => Expr.anyAggregates db es
  | .binary lhs _ rhs => lhs.aggregates db || rhs.aggregates db
  | .between e low high => e.aggregates db || low.aggregates db || high.aggregates db
  | .countAll => true
  | .call function args => db.isAggregate function || Expr.anyAggregates db args
  | .inList e list _ => e.aggregates db || Expr.anyAggregates db list
  | .inSelect e _ _ | .isNull e _ => e.aggregates db
  | .column _ _ | .hasRow _ | .literal _ | .null | .param _ => false
termination_by structural e => e

def Expr.anyAggregates (db : Database) : List Expr → Bool
  | [] => false
  | e :: rest => e.aggregates db || Expr.anyAggregates db rest
termination_by structural es => es

end

def Item.aggregates (db : Database) : Item → Bool
  | .expr e _ => e.aggregates db
  | .wildcard _ => false

/-- Whether the rows of a select are put together before they are shown. -/
def Select.aggregates (db : Database) (s : Select) : Bool :=
  !s.groupBy.isEmpty || s.having.isSome || s.items.any (Item.aggregates db) ||
    s.orderBy.any fun o => o.expr.aggregates db

/-- Whether a row with the first keys may come before one with the second. -/
def sortsBefore (db : Database) : List (Direction × Value × Value) → Bool
  | [] => true
  | (direction, v, w) :: rest =>
    match direction, db.precedes v w, db.precedes w v with
    | _, true, true => sortsBefore db rest
    | .ascending, before, _ => before
    | .descending, _, after => after

def sortedBy (db : Database) (keys : Moment → List (Direction × Value)) (moments : List Moment) :
    List Moment :=
  moments.insertionSort fun a b =>
    sortsBefore db (List.zipWith (fun (d, v) (_, w) => (d, v, w)) (keys a) (keys b))

def limited {α : Type} (limit : Option Limit) (rows : List α) : List α :=
  match limit with
  | none => rows
  | some ⟨offset, count⟩ => (rows.drop offset.toNat).take count.toNat

/-- The name under which an item is shown. -/
def Item.shownName : Item → String
  | .expr _ (some name) => name
  | .expr (.column _ name) none => name
  | _ => ""

/-! ### Expressions and selects -/

section
variable (db : Database) (params : List Value)

mutual

def Expr.value : Expr → Moment → Value
  | .and es, m => conjunction (Expr.values es m)
  | .or es, m => disjunction (Expr.values es m)
  | .binary lhs op rhs, m => db.operator op (lhs.value m) (rhs.value m)
  | .between e low high, m =>
    conjunction [db.operator .ge (e.value m) (low.value m),
      db.operator .le (e.value m) (high.value m)]
  | .column aliasName name, m => m.frame.read aliasName name
  | .countAll, m => .int64 (.ofNat m.group.length)
  | .hasRow select, m => .bool !(select.rows m.frame).isEmpty
  | .call function args, m =>
    if db.isAggregate function then
      db.aggregate function (m.group.map fun frame => Expr.values args (.of frame))
    else db.function function (Expr.values args m)
  | .inList e list negate, m =>
    negatedIf negate (disjunction ((Expr.values list m).map (db.operator .eq (e.value m))))
  | .inSelect e select negate, m =>
    negatedIf negate (disjunction ((select.rows m.frame).map fun row =>
      db.operator .eq (e.value m) (row.first?.getD .null)))
  | .isNull e negate, m => .bool ((e.value m).isNull != negate)
  | .literal n, _ => .int64 (.ofInt n)
  | .null, _ => .null
  | .param n, _ => params.getD n .null
termination_by structural e => e

def Expr.values : List Expr → Moment → List Value
  | [], _ => []
  | e :: rest, m => e.value m :: Expr.values rest m
termination_by structural es => es

/-- What is absent is true of every row. -/
def Expr.valueOr : Option Expr → Moment → Value
  | none, _ => .bool true
  | some e, m => e.value m
termination_by structural e => e

def Source.rows : Source → Frame → List Row
  | .table name _, _ => db.table name
  | .derived select _, outer => select.rows outer
termination_by structural s => s

def Item.values : Item → Moment → Row
  | .expr e name, m => [((Item.expr e name).shownName, e.value m)]
  | .wildcard aliasName, m => (m.frame.row? (some aliasName)).getD []
termination_by structural i => i

def Item.allValues : List Item → Moment → Row
  | [], _ => []
  | i :: rest, m => i.values m ++ Item.allValues rest m
termination_by structural is => is

/-- Joins a source to rows. The ON condition sees them, the source, and the rows around. -/
def Join.rows : Join → Frame → List Frame → List Frame
  | ⟨kind, source, on⟩, outer, left =>
    joinRows kind (fun frame => isTrue (on.value (.of (frame ++ outer)))) [(source.label, none)]
      left (labelled source.label (source.rows outer))
termination_by structural j => j

def Join.allRows : List Join → Frame → List Frame → List Frame
  | [], _, left => left
  | j :: rest, outer, left => Join.allRows rest outer (j.rows outer left)
termination_by structural js => js

def OrderBy.key : OrderBy → Moment → Direction × Value
  | ⟨e, direction⟩, m => (direction, e.value m)
termination_by structural o => o

def OrderBy.keys : List OrderBy → Moment → List (Direction × Value)
  | [], _ => []
  | o :: rest, m => o.key m :: OrderBy.keys rest m
termination_by structural os => os

/-- The rows that a select shows, among the rows of the selects around it. -/
def Select.rows : Select → Frame → List Row
  | ⟨items, source, joins, filter, groupBy, having, orderBy, limit⟩, outer =>
    let joined := Join.allRows joins outer (labelled source.label (source.rows outer))
    let kept := joined.filter fun frame => isTrue (Expr.valueOr filter (.of (frame ++ outer)))
    let moments :=
      if Select.aggregates db ⟨items, source, joins, filter, groupBy, having, orderBy, limit⟩ then
        let groups := if groupBy.isEmpty then [kept] else
          grouped (fun frame => Expr.values groupBy (.of (frame ++ outer))) kept
        (groups.map (Moment.ofGroup outer)).filter fun m => isTrue (Expr.valueOr having m)
      else kept.map fun frame => .of (frame ++ outer)
    limited limit ((sortedBy db (OrderBy.keys orderBy) moments).map (Item.allValues items))
termination_by structural s => s

end

/-- The rows of a select's sources as they are joined, before WHERE. -/
def Select.joined (s : Select) (outer : Frame) : List Frame :=
  Join.allRows db params s.joins outer (labelled s.source.label (s.source.rows db params outer))

end

/-! ### What is true -/

theorem isTrue_bool (b : Bool) : isTrue (.bool b) = b := by
  cases b <;> rfl

theorem isTrue_conjunction (vs : List Value) : isTrue (conjunction vs) = vs.all isTrue := by
  unfold conjunction
  by_cases hall : vs.all isTrue = true
  · rw [if_pos hall, hall]
    rfl
  · rw [if_neg hall, Bool.eq_false_iff.2 hall]
    split <;> rfl

theorem Database.isTrue_equal_comm (db : Database) (v w : Value) :
    isTrue (db.operator .eq v w) = isTrue (db.operator .eq w v) := by
  rw [db.equal_comm]

theorem Database.isTrue_equal_null (db : Database) (v : Value) :
    isTrue (db.operator .eq .null v) = false :=
  decide_eq_false (db.equal_null v)

section
variable (db : Database) (params : List Value)

theorem values_eq_map (es : List Expr) (m : Moment) :
    Expr.values db params es m = es.map fun e => e.value db params m := by
  induction es with
  | nil => rfl
  | cons e rest ih => rw [Expr.values, ih, List.map_cons]

theorem isTrue_and (es : List Expr) (m : Moment) :
    isTrue ((Expr.and es).value db params m) = es.all fun e => isTrue (e.value db params m) := by
  rw [Expr.value, isTrue_conjunction, values_eq_map, List.all_map]
  rfl

/-- Expressions joined by AND are true when all are, and no expression is true. -/
theorem isTrue_allOf? (es : List Expr) (m : Moment) :
    isTrue (Expr.valueOr db params (Expr.allOf? es) m) =
      es.all fun e => isTrue (e.value db params m) := by
  match es with
  | [] => rfl
  | [e] => simp [Expr.allOf?, Expr.valueOr]
  | e :: e' :: rest => exact isTrue_and db params (e :: e' :: rest) m

/-- Where no expression stands for a condition that is never true. -/
theorem isTrue_allOf?_getD {es : List Expr} (h : es ≠ []) (m : Moment) :
    isTrue (((Expr.allOf? es).getD .never).value db params m) =
      es.all fun e => isTrue (e.value db params m) := by
  rw [← isTrue_allOf?]
  match es with
  | [] => exact absurd rfl h
  | [_] | _ :: _ :: _ => rfl

theorem isTrue_hasRow (select : Select) (m : Moment) :
    isTrue ((Expr.hasRow select).value db params m) = !(select.rows db params m.frame).isEmpty := by
  rw [Expr.value, isTrue_bool]

/-- Sorting and a limit of one row lose nothing but rows behind another. -/
theorem limited_one_eq_nil (keys : Moment → List (Direction × Value)) (shown : Moment → Row)
    (moments : List Moment) :
    limited (some ⟨0, 1⟩) ((sortedBy db keys moments).map shown) = [] ↔ moments = [] := by
  have hsorted : sortedBy db keys moments = [] ↔ moments = [] := by
    rw [← List.length_eq_zero_iff, ← List.length_eq_zero_iff, sortedBy, List.length_insertionSort]
  have hone : (1 : UInt64).toNat ≠ 0 := by decide
  rw [← hsorted, limited, List.take_eq_nil_iff, or_iff_right hone,
    show (0 : UInt64).toNat = 0 from rfl, List.drop_zero, List.map_eq_nil_iff]

/-- Whether there is a row: what an EXISTS over one source asks. -/
theorem isEmpty_rows_ofSource (source : Source) (filter : Option Expr) (outer : Frame) :
    (Select.rows db params {Select.of source with
        items := [.expr (.literal 0) none], filter, limit := some ⟨0, 1⟩} outer).isEmpty =
      !(source.rows db params outer).any fun row =>
        isTrue (Expr.valueOr db params filter (.of ((source.label, some row) :: outer))) := by
  simp only [Select.rows, Select.of, Select.aggregates, Item.aggregates, Expr.aggregates,
    List.isEmpty_nil, List.any_cons, List.any_nil, Option.isSome_none, Bool.not_true, Bool.or_false,
    Bool.false_eq_true, if_false]
  rw [Bool.eq_iff_iff, List.isEmpty_iff, limited_one_eq_nil, List.map_eq_nil_iff,
    List.filter_eq_nil_iff]
  simp [Join.allRows, labelled]

/-! ### Joining -/

section Absent
variable {α : Type} {kind : JoinKind} {absent : α} {found : List α}

theorem mem_orAbsent {x : α} (h : x ∈ orAbsent kind absent found) :
    x ∈ found ∨ kind = .left ∧ found = [] ∧ x = absent := by
  unfold orAbsent at h
  split at h
  · next hempty => exact .inr ⟨hempty.1, hempty.2, List.mem_singleton.1 h⟩
  · exact .inl h

theorem orAbsent_of_ne_nil (h : found ≠ []) : orAbsent kind absent found = found :=
  if_neg fun hempty => h hempty.2

theorem map_orAbsent {β : Type} (f : α → β) :
    (orAbsent kind absent found).map f = orAbsent kind (f absent) (found.map f) := by
  unfold orAbsent
  by_cases h : kind = .left ∧ found = []
  · rw [if_pos h, if_pos ⟨h.1, by rw [h.2, List.map_nil]⟩, List.map_singleton]
  · rw [if_neg h, if_neg fun h' => h ⟨h'.1, List.map_eq_nil_iff.1 h'.2⟩]

theorem orAbsent_left_ne_nil : orAbsent .left absent found ≠ [] := by
  unfold orAbsent
  split
  · simp
  · next h => exact fun hempty => h ⟨rfl, hempty⟩

end Absent

theorem joinRows_eq_flatMap (kind : JoinKind) (meets : Frame → Bool) (absent : Frame)
    (left right : List Frame) :
    joinRows kind meets absent left right =
      left.flatMap fun row => joinRows kind meets absent [row] right := by
  simp [joinRows]

theorem rows_eq_flatMap (j : Join) (outer : Frame) (left : List Frame) :
    j.rows db params outer left = left.flatMap fun row => j.rows db params outer [row] := by
  obtain ⟨kind, source, on⟩ := j
  simp only [Join.rows]
  exact joinRows_eq_flatMap ..

theorem allRows_append (js ks : List Join) (outer : Frame) (left : List Frame) :
    Join.allRows db params (js ++ ks) outer left =
      Join.allRows db params ks outer (Join.allRows db params js outer left) := by
  induction js generalizing left with
  | nil => rfl
  | cons j rest ih => exact ih _

/-- Each row is joined for itself. -/
theorem allRows_eq_flatMap (js : List Join) (outer : Frame) (left : List Frame) :
    Join.allRows db params js outer left =
      left.flatMap fun row => Join.allRows db params js outer [row] := by
  induction js generalizing left with
  | nil => simp [Join.allRows]
  | cons j rest ih =>
    simp only [Join.allRows]
    rw [ih, rows_eq_flatMap, List.flatMap_assoc]
    exact congrArg (left.flatMap ·) (funext fun row => (ih _).symm)

end

end EntityQuery.Sql
