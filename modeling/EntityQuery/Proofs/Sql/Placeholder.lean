import EntityQuery.Sql.Render

/-! The placeholders of a statement, in the order in which they are written.

They are read off the pieces of the text, so the order is the order of the text. Most of what a
statement is made of holds none: names, literals, and whatever is put together of those. What is
put together of parts holds theirs, one part after another. -/
namespace EntityQuery.Sql

def Piece.placeholder? : Piece → Option Nat
  | .placeholder n => some n
  | _ => none

/-- The placeholders of a text, first to last. -/
def placeholders (pieces : List Piece) : List Nat := pieces.filterMap Piece.placeholder?

section Pieces

@[simp] theorem placeholders_nil : placeholders [] = [] := rfl

@[simp] theorem placeholders_append (a b : List Piece) :
    placeholders (a ++ b) = placeholders a ++ placeholders b :=
  List.filterMap_append ..

@[simp] theorem placeholders_text (t : String) (rest : List Piece) :
    placeholders (.text t :: rest) = placeholders rest := rfl

@[simp] theorem placeholders_name (name : String) (rest : List Piece) :
    placeholders (.name name :: rest) = placeholders rest := rfl

@[simp] theorem placeholders_placeholder (n : Nat) (rest : List Piece) :
    placeholders (.placeholder n :: rest) = n :: placeholders rest := rfl

/-- What separates runs holds no placeholder. -/
@[simp] theorem placeholders_separated (separator : String) (runs : List (List Piece)) :
    placeholders (Piece.separated separator runs) = runs.flatMap placeholders := by
  unfold Piece.separated
  induction runs with
  | nil => rfl
  | cons run rest ih =>
    cases rest with
    | nil => simp
    | cons next rest =>
      rw [List.intercalate_cons_cons, placeholders_append, placeholders_append, ih]
      simp

@[simp] theorem placeholders_clause (opening : String) (pieces : Option (List Piece)) :
    placeholders (clause opening pieces) = placeholders (pieces.getD []) := by
  cases pieces <;> rfl

@[simp] theorem placeholders_listClause (opening : String) (runs : List (List Piece)) :
    placeholders (listClause opening runs) = runs.flatMap placeholders := by
  cases runs with
  | nil => rfl
  | cons run rest => simp [listClause]

end Pieces

variable (d : Dialect)

@[simp] theorem placeholders_limit (l : Limit) : placeholders (l.pieces d) = [] := by
  cases d <;> rfl

@[simp] theorem placeholders_tableName (t : TableName) : placeholders t.pieces = [] := by
  obtain ⟨_ | schema, name⟩ := t <;> rfl

/-! ### Expressions -/

namespace Expr

/-- The placeholders of expressions written one after another. -/
def allPlaceholders (es : List Expr) : List Nat := (Expr.allPieces d es).flatMap placeholders

@[simp] theorem allPlaceholders_nil : allPlaceholders d [] = [] := rfl

@[simp] theorem allPlaceholders_cons (e : Expr) (es : List Expr) :
    allPlaceholders d (e :: es) = placeholders (e.pieces d) ++ allPlaceholders d es := by
  simp [allPlaceholders, Expr.allPieces]

@[simp] theorem allPlaceholders_append (a b : List Expr) :
    allPlaceholders d (a ++ b) = allPlaceholders d a ++ allPlaceholders d b := by
  induction a with
  | nil => rfl
  | cons e rest ih => simp [ih]

theorem allPlaceholders_eq_nil {es : List Expr} (h : ∀ e ∈ es, placeholders (e.pieces d) = []) :
    allPlaceholders d es = [] := by
  induction es with
  | nil => rfl
  | cons e rest ih =>
    rw [allPlaceholders_cons, h e (List.mem_cons_self ..),
      ih fun e he => h e (List.mem_cons_of_mem _ he), List.append_nil]

theorem allPlaceholders_params (ns : List Nat) : allPlaceholders d (ns.map .param) = ns := by
  induction ns with
  | nil => rfl
  | cons n rest ih => simp [ih, Expr.pieces]

/-- Parentheses hold no placeholder. -/
theorem placeholders_operandPieces (es : List Expr) :
    (Expr.operandPieces d es).flatMap placeholders = allPlaceholders d es := by
  induction es with
  | nil => rfl
  | cons e rest ih =>
    rw [allPlaceholders_cons, ← ih, Expr.operandPieces, List.flatMap_cons]
    congr 1
    split <;> simp

@[simp] theorem placeholders_and (es : List Expr) :
    placeholders ((Expr.and es).pieces d) = allPlaceholders d es := by
  simp [Expr.pieces, placeholders_operandPieces]

@[simp] theorem placeholders_or (es : List Expr) :
    placeholders ((Expr.or es).pieces d) = allPlaceholders d es := by
  simp [Expr.pieces, placeholders_operandPieces]

@[simp] theorem placeholders_qualified (table name : String) :
    placeholders ((Expr.qualified table name).pieces d) = [] := by
  unfold Expr.qualified aliasName?
  split <;> simp [Expr.pieces]

@[simp] theorem placeholders_binary (a b : Expr) (op : BinaryOp) :
    placeholders ((Expr.binary a op b).pieces d) =
      placeholders (a.pieces d) ++ placeholders (b.pieces d) := by
  simp [Expr.pieces]

@[simp] theorem placeholders_never : placeholders (Expr.never.pieces d) = [] := by
  simp [Expr.never, Expr.equal, Expr.pieces]

/-- The placeholders of an expression that need not be there. -/
def optionPlaceholders (e : Option Expr) : List Nat :=
  placeholders ((Expr.optionPieces d e).getD [])

@[simp] theorem optionPlaceholders_none : optionPlaceholders d none = [] := rfl

@[simp] theorem optionPlaceholders_some (e : Expr) :
    optionPlaceholders d (some e) = placeholders (e.pieces d) := rfl

theorem allPlaceholders_toList (e : Option Expr) :
    allPlaceholders d e.toList = optionPlaceholders d e := by
  cases e <;> simp

theorem optionPlaceholders_allOf? (es : List Expr) :
    optionPlaceholders d (Expr.allOf? es) = allPlaceholders d es := by
  match es with
  | [] => rfl
  | [e] => simp [Expr.allOf?]
  | _ :: _ :: _ => simp only [Expr.allOf?, optionPlaceholders_some, placeholders_and]

theorem optionPlaceholders_anyOf? (es : List Expr) :
    optionPlaceholders d (Expr.anyOf? es) = allPlaceholders d es := by
  match es with
  | [] => rfl
  | [e] => simp [Expr.anyOf?]
  | _ :: _ :: _ => simp only [Expr.anyOf?, optionPlaceholders_some, placeholders_or]

end Expr

/-! ### Selects -/

/-- A select holds the placeholders of its clauses in the order of the clauses. -/
theorem placeholders_select (s : Select) :
    placeholders (s.pieces d) =
      (Item.allPieces d s.items).flatMap placeholders ++ placeholders (s.source.pieces d)
        ++ placeholders (Join.allPieces d s.joins) ++ Expr.optionPlaceholders d s.filter
        ++ Expr.allPlaceholders d s.groupBy ++ Expr.optionPlaceholders d s.having
        ++ (OrderBy.allPieces d s.orderBy).flatMap placeholders := by
  obtain ⟨items, source, joins, filter, groupBy, having, orderBy, limit⟩ := s
  have hlimit : placeholders ((limit.map (Limit.pieces d)).getD []) = [] := by
    cases limit <;> simp
  simp [Select.pieces, Expr.optionPlaceholders, Expr.allPlaceholders, hlimit]

@[simp] theorem placeholders_ofTable (t : TableName) (name : String) :
    placeholders ((Source.ofTable t name).pieces d) = [] := by
  unfold Source.ofTable
  cases aliasName? name <;> simp [Source.pieces]

@[simp] theorem placeholders_derived (s : Select) (name : String) :
    placeholders ((Source.derived s name).pieces d) = placeholders (s.pieces d) := by
  simp [Source.pieces]

theorem placeholders_items {is : List Item} (h : ∀ i ∈ is, placeholders (i.pieces d) = []) :
    (Item.allPieces d is).flatMap placeholders = [] := by
  induction is with
  | nil => rfl
  | cons i rest ih =>
    rw [Item.allPieces, List.flatMap_cons, h i (List.mem_cons_self ..),
      ih fun i hi => h i (List.mem_cons_of_mem _ hi), List.append_nil]

theorem placeholders_joins {js : List Join} (h : ∀ j ∈ js, placeholders (j.pieces d) = []) :
    placeholders (Join.allPieces d js) = [] := by
  induction js with
  | nil => rfl
  | cons j rest ih =>
    rw [Join.allPieces, placeholders_text, placeholders_append, h j (List.mem_cons_self ..),
      ih fun j hj => h j (List.mem_cons_of_mem _ hj), List.append_nil]

theorem placeholders_orderBy {os : List OrderBy}
    (h : ∀ o ∈ os, placeholders (o.expr.pieces d) = []) :
    (OrderBy.allPieces d os).flatMap placeholders = [] := by
  induction os with
  | nil => rfl
  | cons o rest ih =>
    have ho := h o (List.mem_cons_self ..)
    obtain ⟨e, direction⟩ := o
    rw [OrderBy.allPieces, List.flatMap_cons, OrderBy.pieces, placeholders_append, ho,
      ih fun o ho => h o (List.mem_cons_of_mem _ ho)]
    rfl

end EntityQuery.Sql
