import EntityQuery.Proofs.Plan.Braceless
import EntityQuery.Proofs.Plan.Numbering
import EntityQuery.Proofs.Sql.Bound

/-! What binding makes of compiled statements.

Statements are sent as text, and binding finds the placeholders by reading that text again, the
names in it included. A column may be called anything, also what reads as a placeholder. Binding is
exact when no name does, and only then (`compiled_bound`). -/
namespace EntityQuery.Plan

open Sql (Dialect placeholders Bound HoldsPlaceholder)
open Sql.Expr (optionPlaceholders)

variable {s : Schema} (d : Dialect) {statement : Sql.Statement} {params : List Value}

/-! ### The parameters of placeholders -/

theorem Numbered.lt {count : Nat} (h : Numbered d statement count) :
    ∀ n ∈ placeholders (statement.pieces d), n < count := by
  cases statement with
  | update u =>
    obtain ⟨k, hk, hfilter, hassigned⟩ := h
    intro n hn
    have hpieces : placeholders (u.pieces d) =
        List.range' k (count - k) ++ List.range k := by
      rw [← hassigned, ← hfilter]
      cases hw : u.filter <;> simp [Sql.Update.pieces, assigned, hw]
    change n ∈ placeholders (u.pieces d) at hn
    rw [hpieces, List.mem_append, List.mem_range'_1, List.mem_range] at hn
    omega
  | select _ | insert _ | delete _ =>
    intro n hn
    exact List.mem_range.1 (h ▸ hn)

/-! ### Binding -/

/-- **Binding is exact when no name of a statement holds a placeholder, and only then.** Each
placeholder of the statement becomes the dialect's own and every other character stays; the values
are the coerced parameters, for MySQL those of the placeholders in the order of the text. -/
theorem compiled_bound (s : Schema) (d : Dialect) (statement : Sql.Statement) (params : List Value)
    (h : Compiled s statement params) :
    (∃ text values, d.bind (statement.text d) params = .ok (text, values) ∧
        Bound d (statement.pieces d) params text values) ↔
      ∀ name, .name name ∈ statement.pieces d → ¬ HoldsPlaceholder name.toList := by
  have hbraceless := h.braceless d
  constructor
  · rintro ⟨text, values, hbind, hbound⟩ name hname hstray
    exact Sql.bind_stray hbraceless hname hstray hbind hbound.text
  · exact Sql.bind_bound hbraceless (Numbered.lt d (h.numbered d))

/-- No name among pieces holds a placeholder, to be decided. -/
def noStray (pieces : List Sql.Piece) : Bool :=
  pieces.all fun p => match p with
    | .name name => !decide (HoldsPlaceholder name.toList)
    | _ => true

theorem not_holdsPlaceholder_of_noStray {pieces : List Sql.Piece} (h : noStray pieces = true) :
    ∀ name, .name name ∈ pieces → ¬ HoldsPlaceholder name.toList := by
  intro name hname
  simpa using List.all_eq_true.1 h _ hname

/-- Five placeholders, two of them in a page of the query behind a condition. -/
theorem compiled_bound_orders : ∃ plan text values,
    Plan.select salesSchema ordersQuery = .ok plan ∧ values.length = 5 ∧
    Dialect.mysql.bind ((Sql.Statement.select plan.select).text .mysql) plan.params =
      .ok (text, values) ∧ Bound .mysql (plan.select.pieces .mysql) plan.params text values := by
  obtain ⟨plan, hplan, hcheck⟩ := Except.exists_ok (x := Plan.select salesSchema ordersQuery)
    (fun plan => noStray (plan.select.pieces .mysql) &&
      (placeholders (plan.select.pieces .mysql)).length == 5) (by decide +kernel)
  rw [Bool.and_eq_true, beq_iff_eq] at hcheck
  obtain ⟨text, values, hbind, hbound⟩ := (compiled_bound salesSchema .mysql _ _ (.select hplan)).2
    (not_holdsPlaceholder_of_noStray hcheck.1)
  refine ⟨plan, text, values, hplan, ?_, hbind, hbound⟩
  have hlength := congrArg List.length hbound.values
  simpa [Dialect.taken, Sql.Statement.pieces, hcheck.2] using hlength

/-- Orders with a column of some name. -/
def ordersWith (column : String) : Mapping.Document := ⟨[
  { name := "Order", table := some "orders", keys := [{name := "Id"}]
    properties := [{name := "Status", column := some column}] }]⟩

def ordersWithSchema (column : String) : Schema :=
  match Schema.build [("orders", ordersWith column)] with
  | .ok s => s
  | .error _ => ⟨[]⟩

/-- The order 7 and its status. -/
def statusOfSeven : Query where
  entity := "Order"
  filter := .condition ⟨"Id", .equal, .value (.int64 7)⟩
  members := ["Id", "Status"]
  sorting := []
  grouping := none
  paging := none

/-- What is sent for the plan of a query, as MySQL takes it. -/
def sent (plan : CompiledQuery) : Except ResultFault (String × List Value) :=
  Dialect.mysql.bind ((Sql.Statement.select plan.select).text .mysql) plan.params

/-- A name that reads as a placeholder is bound as one: another column is read, and the key goes out
three times for the one placeholder there is. Where the name reads as a placeholder without a
parameter nothing is bound at all. -/
theorem statusOfSeven_misbound :
    (∃ plan, Plan.select (ordersWithSchema "status\x7b0\x7d") statusOfSeven = .ok plan ∧
      plan.params = [.int64 7] ∧ sent plan = .ok
        ("SELECT T.`Id` AS `T_Id`, T.`status?` AS `T_status?` FROM `orders` T WHERE T.`Id` = ?",
          [.int64 7, .int64 7, .int64 7]) ∧
      ¬ ∃ text values, sent plan = .ok (text, values) ∧
        Bound .mysql (plan.select.pieces .mysql) plan.params text values) ∧
    ∃ plan, Plan.select (ordersWithSchema "status\x7b9\x7d") statusOfSeven = .ok plan ∧
      (sent plan).toOption = none := by
  constructor
  · obtain ⟨plan, hplan, hcheck⟩ := Except.exists_ok
      (x := Plan.select (ordersWithSchema "status\x7b0\x7d") statusOfSeven)
      (fun plan => decide (plan.params = [.int64 7] ∧ (sent plan).toOption = some
        ("SELECT T.`Id` AS `T_Id`, T.`status?` AS `T_status?` FROM `orders` T WHERE T.`Id` = ?",
          [.int64 7, .int64 7, .int64 7]) ∧ placeholders (plan.select.pieces .mysql) = [0]))
      (by decide +kernel)
    obtain ⟨hparams, hsent, hplaceholders⟩ := of_decide_eq_true hcheck
    refine ⟨plan, hplan, hparams, Except.eq_ok_of_toOption hsent, ?_⟩
    rintro ⟨text, values, hbind, hbound⟩
    rw [hbind] at hsent
    obtain ⟨-, rfl⟩ := Prod.mk.inj (Option.some.inj hsent)
    have hlength := congrArg List.length hbound.values
    simp [Dialect.taken, hplaceholders] at hlength
  · obtain ⟨plan, hplan, hcheck⟩ := Except.exists_ok
      (x := Plan.select (ordersWithSchema "status\x7b9\x7d") statusOfSeven)
      (fun plan => decide ((sent plan).toOption = none)) (by decide +kernel)
    exact ⟨plan, hplan, of_decide_eq_true hcheck⟩

end EntityQuery.Plan
