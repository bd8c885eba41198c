import EntityQuery.Proofs.JoinGraph.Alias
import EntityQuery.Sql.Render

/-! Where the text of a statement has braces.

Names are written as they are and may have any character, and a placeholder is written in braces.
What is written around them has no opening brace: keywords, numbers, aliases, and the functions of
aggregates. A construct is free of them when its parts are, whatever the names in it. -/
namespace EntityQuery

/-- A text in which no brace opens. -/
def NoBrace (t : String) : Prop := '\x7b' ∉ t.toList

instance : DecidablePred NoBrace := fun _ => inferInstanceAs (Decidable (_ ∉ _))

@[simp] theorem noBrace_append (a b : String) : NoBrace (a ++ b) ↔ NoBrace a ∧ NoBrace b := by
  simp [NoBrace]

@[simp] theorem noBrace_repr (n : Nat) : NoBrace n.repr := by
  rw [NoBrace, Nat.toList_repr]
  exact notMem_toDigits (by decide) n

@[simp] theorem noBrace_intRepr (n : Int) : NoBrace n.repr := by
  cases n <;> simp +decide [Int.repr]

@[simp] theorem noBrace_tableAlias (n : Nat) : NoBrace (tableAlias n) :=
  notMem_tableAlias (by decide) (by decide) n

@[simp] theorem noBrace_joinAlias (n : Nat) : NoBrace (joinAlias n) :=
  notMem_joinAlias (by decide) (by decide) n

namespace Sql

/-- The fixed text of a piece has no brace. -/
def Piece.Braceless : Piece → Prop
  | .text t => NoBrace t
  | _ => True

def Braceless (pieces : List Piece) : Prop := ∀ p ∈ pieces, p.Braceless

section Pieces

@[simp] theorem braceless_nil : Braceless [] := fun _ h => absurd h List.not_mem_nil

@[simp] theorem braceless_append (a b : List Piece) :
    Braceless (a ++ b) ↔ Braceless a ∧ Braceless b :=
  List.forall_mem_append

@[simp] theorem braceless_text (t : String) (rest : List Piece) :
    Braceless (.text t :: rest) ↔ NoBrace t ∧ Braceless rest :=
  List.forall_mem_cons

@[simp] theorem braceless_name (name : String) (rest : List Piece) :
    Braceless (.name name :: rest) ↔ Braceless rest := by
  simp [Braceless, Piece.Braceless]

@[simp] theorem braceless_placeholder (n : Nat) (rest : List Piece) :
    Braceless (.placeholder n :: rest) ↔ Braceless rest := by
  simp [Braceless, Piece.Braceless]

theorem braceless_separated {separator : String} (h : NoBrace separator) {runs : List (List Piece)}
    (hruns : ∀ run ∈ runs, Braceless run) : Braceless (Piece.separated separator runs) := by
  refine Piece.separated_induction braceless_nil (fun hrun hrest => ?_) hruns
  exact (braceless_append ..).2 ⟨hrun, (braceless_text ..).2 ⟨h, hrest⟩⟩

theorem braceless_clause {opening : String} (h : NoBrace opening) {pieces : Option (List Piece)}
    (hp : ∀ run, pieces = some run → Braceless run) : Braceless (clause opening pieces) := by
  cases pieces with
  | none => exact braceless_nil
  | some run => exact (braceless_text ..).2 ⟨h, hp run rfl⟩

theorem braceless_listClause {opening : String} (h : NoBrace opening) {runs : List (List Piece)}
    (hruns : ∀ run ∈ runs, Braceless run) : Braceless (listClause opening runs) := by
  cases runs with
  | nil => exact braceless_nil
  | cons run rest => exact (braceless_text ..).2 ⟨h, braceless_separated (by decide) hruns⟩

end Pieces

variable (d : Dialect)

attribute [local simp] Expr.pieces Source.pieces Item.pieces Join.pieces Join.allPieces
  OrderBy.pieces Select.pieces

@[simp] theorem braceless_tableName (t : TableName) : Braceless t.pieces := by
  obtain ⟨_ | schema, name⟩ := t
  · simp [TableName.pieces]
  · simp +decide [TableName.pieces]

@[simp] theorem braceless_limit (l : Limit) : Braceless (l.pieces d) := by
  cases d <;> simp +decide [Limit.pieces, toString]

theorem braceless_ofTable (t : TableName) {name : String} (h : NoBrace name) :
    Braceless ((Source.ofTable t name).pieces d) := by
  unfold Source.ofTable aliasName?
  split
  · simp
  · simp +decide [toString, h]

/-! ### Expressions -/

namespace Expr

theorem allPieces_eq_map (es : List Expr) : Expr.allPieces d es = es.map (Expr.pieces d) := by
  induction es with
  | nil => rfl
  | cons e rest ih => rw [Expr.allPieces, ih, List.map_cons]

theorem optionPieces_eq_map (e : Option Expr) :
    Expr.optionPieces d e = e.map (Expr.pieces d) := by
  cases e <;> rfl

variable {es : List Expr} (h : ∀ e ∈ es, Braceless (e.pieces d))
include h

theorem braceless_allPieces : ∀ run ∈ Expr.allPieces d es, Braceless run := by
  rw [allPieces_eq_map]
  simpa using h

theorem braceless_operandPieces : ∀ run ∈ Expr.operandPieces d es, Braceless run := by
  induction es with
  | nil => simp [Expr.operandPieces]
  | cons e rest ih =>
    have he := h e (List.mem_cons_self ..)
    have hrest := ih fun e he => h e (List.mem_cons_of_mem _ he)
    rw [Expr.operandPieces, List.forall_mem_cons]
    refine ⟨?_, hrest⟩
    split
    · simp +decide [he]
    · exact he

theorem braceless_allOf? : ∀ e, Expr.allOf? es = some e → Braceless (e.pieces d) := by
  intro e he
  match es with
  | [] => simp [Expr.allOf?] at he
  | [only] => exact Option.some.inj he ▸ h only (List.mem_cons_self ..)
  | _ :: _ :: _ =>
    exact Option.some.inj he ▸ braceless_separated (by decide) (braceless_operandPieces d h)

theorem braceless_anyOf? : ∀ e, Expr.anyOf? es = some e → Braceless (e.pieces d) := by
  intro e he
  match es with
  | [] => simp [Expr.anyOf?] at he
  | [only] => exact Option.some.inj he ▸ h only (List.mem_cons_self ..)
  | _ :: _ :: _ =>
    exact Option.some.inj he ▸ braceless_separated (by decide) (braceless_operandPieces d h)

theorem braceless_call {function : String} (hf : NoBrace function) :
    Braceless ((Expr.call function es).pieces d) := by
  have hargs : Braceless (Piece.separated ", " (Expr.allPieces d es)) :=
    braceless_separated (by decide) (braceless_allPieces d h)
  simp +decide [toString, hf, hargs]

end Expr

section Parts
variable {a b e low high : Expr} {list : List Expr} {s : Select}

theorem braceless_qualified {table : String} (h : NoBrace table) (name : String) :
    Braceless ((Expr.qualified table name).pieces d) := by
  unfold Expr.qualified aliasName?
  split
  · simp
  · simp +decide [toString, h]

theorem braceless_binary (ha : Braceless (a.pieces d)) (op : BinaryOp)
    (hb : Braceless (b.pieces d)) : Braceless ((Expr.binary a op b).pieces d) := by
  have hop : NoBrace op.symbol := by cases op <;> decide
  simp +decide [toString, ha, hb, hop]

theorem braceless_literal (n : Int) : Braceless ((Expr.literal n).pieces d) := by
  simp

theorem braceless_never : Braceless (Expr.never.pieces d) :=
  braceless_binary d (braceless_literal d 1) .eq (braceless_literal d 0)

theorem braceless_hasRow (h : Braceless (s.pieces d)) :
    Braceless ((Expr.hasRow s).pieces d) := by
  simp +decide [h]

theorem braceless_inText (negate : Bool) : NoBrace (inText negate) := by
  cases negate <;> decide

theorem braceless_between (he : Braceless (e.pieces d)) (hlow : Braceless (low.pieces d))
    (hhigh : Braceless (high.pieces d)) : Braceless ((Expr.between e low high).pieces d) := by
  simp +decide [he, hlow, hhigh]

theorem braceless_inList (he : Braceless (e.pieces d))
    (hlist : ∀ e ∈ list, Braceless (e.pieces d)) (negate : Bool) :
    Braceless ((Expr.inList e list negate).pieces d) := by
  have hall : Braceless (Piece.separated ", " (Expr.allPieces d list)) :=
    braceless_separated (by decide) (Expr.braceless_allPieces d hlist)
  simp +decide [he, hall, braceless_inText]

theorem braceless_inSelect (he : Braceless (e.pieces d)) (hs : Braceless (s.pieces d))
    (negate : Bool) : Braceless ((Expr.inSelect e s negate).pieces d) := by
  simp +decide [he, hs, braceless_inText]

theorem braceless_isNull (he : Braceless (e.pieces d)) (negate : Bool) :
    Braceless ((Expr.isNull e negate).pieces d) := by
  cases negate <;> simp +decide [he]

end Parts

/-! ### Selects -/

theorem Item.allPieces_eq_map (is : List Item) : Item.allPieces d is = is.map (Item.pieces d) := by
  induction is with
  | nil => rfl
  | cons i rest ih => rw [Item.allPieces, ih, List.map_cons]

theorem OrderBy.allPieces_eq_map (os : List OrderBy) :
    OrderBy.allPieces d os = os.map (OrderBy.pieces d) := by
  induction os with
  | nil => rfl
  | cons o rest ih => rw [OrderBy.allPieces, ih, List.map_cons]

theorem braceless_item {e : Expr} (h : Braceless (e.pieces d)) (name : Option String) :
    Braceless ((Item.expr e name).pieces d) := by
  cases name
  · simpa using h
  · simp +decide [h]

theorem braceless_orderBy {o : OrderBy} (h : Braceless (o.expr.pieces d)) :
    Braceless (o.pieces d) := by
  obtain ⟨e, direction⟩ := o
  cases direction <;> simp +decide [directionText, h]

theorem braceless_joins {js : List Join} (h : ∀ j ∈ js, Braceless (j.pieces d)) :
    Braceless (Join.allPieces d js) := by
  induction js with
  | nil => exact braceless_nil
  | cons j rest ih =>
    have hj := h j (List.mem_cons_self ..)
    have hrest := ih fun j hj => h j (List.mem_cons_of_mem _ hj)
    simp +decide [hj, hrest]

theorem braceless_join {j : Join} (hsource : Braceless (j.source.pieces d))
    (hon : Braceless (j.on.pieces d)) : Braceless (j.pieces d) := by
  obtain ⟨kind, source, on⟩ := j
  cases kind <;> simp +decide [joinText, hsource, hon]

theorem braceless_derived {s : Select} (h : Braceless (s.pieces d)) {name : String}
    (hname : NoBrace name) : Braceless ((Source.derived s name).pieces d) := by
  simp +decide [toString, h, hname]

/-- The clauses of a select have no brace. -/
structure Select.Braceless (s : Select) : Prop where
  items : ∀ i ∈ s.items, Sql.Braceless (i.pieces d)
  source : Sql.Braceless (s.source.pieces d)
  joins : ∀ j ∈ s.joins, Sql.Braceless (j.pieces d)
  filter : ∀ e, s.filter = some e → Sql.Braceless (e.pieces d)
  groupBy : ∀ e ∈ s.groupBy, Sql.Braceless (e.pieces d)
  having : ∀ e, s.having = some e → Sql.Braceless (e.pieces d)
  orderBy : ∀ o ∈ s.orderBy, Sql.Braceless (o.expr.pieces d)

namespace Select.Braceless
variable {d} {s : Select}

theorem pieces (h : s.Braceless d) : Sql.Braceless (s.pieces d) := by
  have hitems : Sql.Braceless (Piece.separated ", " (Item.allPieces d s.items)) := by
    refine braceless_separated (by decide) ?_
    rw [Item.allPieces_eq_map]
    simpa using h.items
  have hfilter : Sql.Braceless (clause " WHERE " (Expr.optionPieces d s.filter)) := by
    refine braceless_clause (by decide) ?_
    rw [Expr.optionPieces_eq_map]
    simpa using h.filter
  have hgroupBy : Sql.Braceless (listClause " GROUP BY " (Expr.allPieces d s.groupBy)) :=
    braceless_listClause (by decide) (Expr.braceless_allPieces d h.groupBy)
  have hhaving : Sql.Braceless (clause " HAVING " (Expr.optionPieces d s.having)) := by
    refine braceless_clause (by decide) ?_
    rw [Expr.optionPieces_eq_map]
    simpa using h.having
  have horderBy : Sql.Braceless (listClause " ORDER BY " (OrderBy.allPieces d s.orderBy)) := by
    refine braceless_listClause (by decide) ?_
    rw [OrderBy.allPieces_eq_map]
    simpa using fun o ho => braceless_orderBy d (h.orderBy o ho)
  have hlimit : Sql.Braceless (clause " " (s.limit.map (Limit.pieces d))) :=
    braceless_clause (by decide) (by simp)
  have hjoins := braceless_joins d h.joins
  obtain ⟨items, source, joins, filter, groupBy, having, orderBy, limit⟩ := s
  simp +decide [hitems, h.source, hjoins, hfilter, hgroupBy, hhaving, horderBy, hlimit]

/-- A select may show and sort by anything without a brace. -/
theorem showing (h : s.Braceless d) {items : List Item} {orders : List OrderBy}
    (hitems : ∀ i ∈ items, Sql.Braceless (i.pieces d))
    (horders : ∀ o ∈ orders, Sql.Braceless (o.expr.pieces d)) (limit : Option Limit) :
    Select.Braceless d {s with items, orderBy := orders, limit} :=
  ⟨hitems, h.source, h.joins, h.filter, h.groupBy, h.having, horders⟩

/-- A source with nothing to show yet. -/
theorem ofSource {source : Source} (h : Sql.Braceless (source.pieces d)) :
    (Select.of source).Braceless d :=
  ⟨by simp [Select.of], h, by simp [Select.of], by simp [Select.of], by simp [Select.of],
    by simp [Select.of], by simp [Select.of]⟩

end Select.Braceless

/-! ### Writes -/

theorem braceless_where {filter : Option Expr}
    (h : ∀ e, filter = some e → Braceless (e.pieces d)) :
    Braceless (clause " WHERE " (filter.map (Expr.pieces d))) :=
  braceless_clause (by decide) (by simpa using h)

theorem braceless_insert (t : TableName) (columns : List String) {values : List Expr}
    (h : ∀ e ∈ values, Braceless (e.pieces d)) :
    Braceless (Insert.pieces d ⟨t, columns, values⟩) := by
  have hnames : Braceless (Piece.separated ", " (columns.map fun column => [Piece.name column])) :=
    braceless_separated (by decide) (by simp)
  have hvalues : Braceless (Piece.separated ", " (values.map (Expr.pieces d))) :=
    braceless_separated (by decide) (by simpa using h)
  simp +decide [Insert.pieces, hnames, hvalues]

theorem braceless_update (t : TableName) {assignments : List Assignment} {filter : Option Expr}
    (hset : ∀ a ∈ assignments, Braceless (a.value.pieces d))
    (hfilter : ∀ e, filter = some e → Braceless (e.pieces d)) :
    Braceless (Update.pieces d ⟨t, assignments, filter⟩) := by
  have hassigned : Braceless (Piece.separated ", " (assignments.map (Assignment.pieces d))) := by
    refine braceless_separated (by decide) fun run hrun => ?_
    obtain ⟨a, ha, rfl⟩ := List.mem_map.1 hrun
    simp +decide [Assignment.pieces, hset a ha]
  simp +decide [Update.pieces, hassigned, braceless_where d hfilter]

theorem braceless_delete (t : TableName) {filter : Option Expr}
    (h : ∀ e, filter = some e → Braceless (e.pieces d)) :
    Braceless (Delete.pieces d ⟨t, filter⟩) := by
  simp +decide [Delete.pieces, braceless_where d h]

end Sql
end EntityQuery
