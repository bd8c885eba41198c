import EntityQuery.Proofs.Plan.Numbering

/-! What becomes of operands.

A condition is honoured when its expression has all of its operand (`Kept`): a null check where the
operand is absent or null, the select of a query, and otherwise one placeholder for each value, in
order. What an operator has no meaning for is refused. Comparisons of one value read the first of
several and forget the others, and an equality takes a query for no value: such a condition drops
its operand (`Condition.drops`), and it is the only kind that is not honoured
(`condition_honoured_iff`). A filter without any binds all values that it holds, those of the
queries in it included, from left to right (`filterExpr_binds`). -/
namespace EntityQuery

/-! ### Operators and operands -/

/-- The comparisons that test for null when there is no value. -/
def Comparison.checksNull : Comparison → Bool
  | .equal | .like | .notEqual => true
  | _ => false

def Comparison.isMembership : Comparison → Bool
  | .isIn | .notIn => true
  | _ => false

/-- Whether a comparison has a meaning for these values. -/
def Comparison.takes : Comparison → List Value → Bool
  | .isIn, _ | .notIn, _ => true
  | .between, vs => vs.length == 2
  | .equal, vs | .like, vs | .notEqual, vs => vs.length ≤ 1
  | _, [v] => !v.isNull
  | _, _ => false

/-- The values for which a comparison is a null check. -/
def Comparison.isNullCheck (c : Comparison) (vs : List Value) : Bool :=
  c.checksNull && (vs == [] || vs == [.null])

/-- Whether a comparison reads the first of several values and forgets the others. -/
def Comparison.cuts : Comparison → List Value → Bool
  | .equal, vs | .like, vs | .notEqual, vs => 2 ≤ vs.length
  | .greater, v :: _ :: _ | .greaterOrEqual, v :: _ :: _ | .less, v :: _ :: _
  | .lessOrEqual, v :: _ :: _ => !v.isNull
  | _, _ => false

namespace Condition

/-- Whether the operator has a meaning for the operand. -/
def accepted : Condition → Bool
  | ⟨_, c, .query q⟩ => c.isMembership && q.members.length == 1 && q.grouping.isNone
  | ⟨_, c, o⟩ => c.takes o.values

/-- Whether the condition compiles to a test without all of its operand. -/
def drops : Condition → Bool
  | ⟨_, c, .query _⟩ => c.checksNull
  | ⟨_, c, o⟩ => c.cuts o.values

end Condition

/-! ### The conditions of a filter -/

mutual

/-- The conditions of a filter, and behind each those of the query that it holds. -/
def Filter.allConditions : Filter → List Condition
  | .condition c => c :: c.within
  | .composite _ children => Filter.allConditionsOf children
termination_by structural f => f

def Filter.allConditionsOf : List Filter → List Condition
  | [] => []
  | f :: rest => f.allConditions ++ Filter.allConditionsOf rest
termination_by structural fs => fs

def Condition.within : Condition → List Condition
  | ⟨_, _, o⟩ => o.within
termination_by structural c => c

def Operand.within : Operand → List Condition
  | .query q => q.within
  | _ => []
termination_by structural o => o

def Query.within : Query → List Condition
  | ⟨_, filter, _, _, _, _⟩ => filter.allConditions
termination_by structural q => q

end

/-- The values that a condition holds itself; a null check needs none. -/
def Condition.held (c : Condition) : List Value :=
  if c.comparison.isNullCheck c.operand.values then [] else c.operand.values

namespace Plan

open Sql (Expr Select Dialect placeholders)
open Sql.Expr (optionPlaceholders)

variable {s : Schema} {l : Layout} {n n' : Numbering}

/-- The expression of a condition on `column` has all of the operand. -/
def Kept (s : Schema) (column : Expr) (n : Numbering) (e : Option Expr) (n' : Numbering) :
    Condition → Prop
  | ⟨_, c, .query q⟩ =>
    ∃ select, subselect s q n = .ok (select, n') ∧ e = some (.inSelect column select (c = .notIn))
  | ⟨_, c, o⟩ =>
    if c.isNullCheck o.values then e = some (.isNull column (c = .notEqual)) ∧ n' = n
    else n' = {n with params := n.params ++ o.values} ∧
      ∀ d, optionPlaceholders d e = List.range' n.params.length o.values.length

/-- What is to be expected of a condition on `column`: when it compiles all of the operand is there,
it compiles when the operator has a meaning for the operand, and it is refused otherwise. -/
structure Honoured (s : Schema) (l : Layout) (column : Expr) (n : Numbering) (c : Condition) :
    Prop where
  kept : ∀ {e n'}, conditionExpr s c l n = .ok (e, n') → Kept s column n e n' c
  compiled : c.accepted = true →
    (∀ q, c.operand = .query q → ∃ found, subselect s q n = .ok found) →
    ∃ found, conditionExpr s c l n = .ok found
  refused : c.accepted = false →
    (∀ q, c.operand = .query q → ∃ e, s.resolve q.entity = .ok e) →
    ∃ error, conditionExpr s c l n = .error error ∧
      (error.kind = .operator ∨ error.kind = .feature)

/-! ### Comparing with values -/

/-- How a comparison with values ends. -/
inductive Compared (column : Expr) (c : Comparison) (vs : List Value) (n : Numbering) :
    Except Error (Option Expr × Numbering) → Prop where
  | nullCheck : c.isNullCheck vs = true → c.takes vs = true → c.cuts vs = false →
    Compared column c vs n (.ok (some (.isNull column (c = .notEqual)), n))
  | bound {e : Option Expr} : c.isNullCheck vs = false → c.takes vs = true → c.cuts vs = false →
    Tested column n {n with params := n.params ++ vs} e →
    Compared column c vs n (.ok (e, {n with params := n.params ++ vs}))
  | cut {e : Option Expr} {n' : Numbering} : c.isNullCheck vs = false → c.takes vs = false →
    c.cuts vs = true → n'.params.length < n.params.length + vs.length →
    Compared column c vs n (.ok (e, n'))
  | refused {error : Error} : c.takes vs = false → c.cuts vs = false → error.kind = .operator →
    Compared column c vs n (.error error)

theorem paramAll_run (vs : List Value) (n : Numbering) :
    paramAll vs n = .ok ((List.range' n.params.length vs.length).map .param,
      {n with params := n.params ++ vs}) := by
  obtain ⟨⟨es, n'⟩, h⟩ : ∃ found, paramAll vs n = .ok found := by
    induction vs generalizing n with
    | nil => exact ⟨_, rfl⟩
    | cons v rest ih =>
      obtain ⟨⟨es, n'⟩, h⟩ := ih {n with params := n.params ++ [v]}
      refine ⟨(.param n.params.length :: es, n'), ?_⟩
      simp only [paramAll, bind_ok, param_ok, pure_ok]
      exact ⟨_, _, ⟨rfl, rfl⟩, es, n', h, rfl, rfl⟩
  obtain ⟨rfl, rfl⟩ := paramAll_ok h
  exact h

/-- A test for membership binds every value. -/
theorem membership_compared {column : Expr} {c : Comparison} (vs : List Value) (n : Numbering)
    (hc : c.isMembership = true) :
    Compared column c vs n (membership column (c = .notIn) vs n) := by
  have hcheck : c.isNullCheck vs = false := by cases c <;> first | rfl | nomatch hc
  have htakes : c.takes vs = true := by cases c <;> first | rfl | nomatch hc
  have hcuts : c.cuts vs = false := by cases c <;> first | rfl | nomatch hc
  have hbound : ∀ {e}, membership column (c = .notIn) vs n =
      .ok (e, {n with params := n.params ++ vs}) →
      Compared column c vs n (membership column (c = .notIn) vs n) := fun h =>
    h ▸ .bound hcheck htakes hcuts (membership_ok h).1
  match vs with
  | [] => exact hbound (by rw [List.append_nil]; rfl)
  | [v] => exact hbound rfl
  | v :: w :: rest =>
    refine hbound (e := some (.inList column
      ((List.range' n.params.length (v :: w :: rest).length).map .param) (c = .notIn))) ?_
    simp only [membership, bind_ok, pure_ok]
    exact ⟨_, _, paramAll_run .., rfl, rfl⟩

/-- The comparisons of one value read the first. -/
theorem compare_first {c : Comparison} (column : Expr) (member : String) {v : Value}
    (rest : List Value) (n : Numbering) (hc : c.isMembership = false) (hbetween : c ≠ .between)
    (hv : v.isNull = false) :
    ∃ op, compare column member c (v :: rest) n = .ok
      (some (.binary column op (.param n.params.length)), {n with params := n.params ++ [v]}) := by
  have hfirst : firstNonNull? (v :: rest) = some v := by simp [firstNonNull?, hv]
  cases c with
  | isIn | notIn => cases hc
  | between => exact absurd rfl hbetween
  | equal | like | notEqual | greater | greaterOrEqual | less | lessOrEqual =>
    simp only [compare, hfirst]
    exact ⟨_, rfl⟩

/-- Every comparison with values ends in one of the four ways. -/
theorem compare_compared (column : Expr) (member : String) (c : Comparison) (vs : List Value)
    (n : Numbering) : Compared column c vs n (compare column member c vs n) := by
  have hfirst := fun v rest => compare_first (c := c) (v := v) column member rest n
  cases c with
  | isIn => exact membership_compared vs n rfl
  | notIn => exact membership_compared vs n rfl
  | between =>
    match vs with
    | [low, high] =>
      have hrun : compare column member .between [low, high] n =
          .ok (some (.between column (.param n.params.length)
            (.param (n.params ++ [low]).length)), {n with params := n.params ++ [low] ++ [high]}) :=
        rfl
      rw [List.append_assoc] at hrun
      exact hrun ▸ .bound rfl rfl rfl (compare_ok hrun).1
    | [] | [_] | _ :: _ :: _ :: _ => exact .refused rfl rfl rfl
  | equal | like | notEqual =>
    match vs with
    | [] => exact .nullCheck rfl rfl rfl
    | v :: rest =>
      cases hv : v.isNull with
      | true =>
        obtain rfl := Value.isNull_iff.1 hv
        cases rest with
        | nil => exact .nullCheck rfl rfl rfl
        | cons w rest => exact .cut (by simp [Comparison.isNullCheck]) rfl rfl (by simp)
      | false =>
        obtain ⟨op, hrun⟩ := hfirst v rest rfl (by decide) hv
        cases rest with
        | nil =>
          have hvalue : v ≠ .null := mt Value.isNull_iff.2 (by simp [hv])
          rw [hrun]
          exact .bound (by simp [Comparison.isNullCheck, hvalue]) rfl rfl (compare_ok hrun).1
        | cons w rest => exact hrun ▸ .cut (by simp [Comparison.isNullCheck]) rfl rfl (by simp)
  | greater | greaterOrEqual | less | lessOrEqual =>
    match vs with
    | [] => exact .refused rfl rfl rfl
    | v :: rest =>
      cases hv : v.isNull with
      | true =>
        obtain rfl := Value.isNull_iff.1 hv
        cases rest with
        | nil => exact .refused rfl rfl rfl
        | cons w rest => exact .refused rfl rfl rfl
      | false =>
        obtain ⟨op, hrun⟩ := hfirst v rest rfl (by decide) hv
        cases rest with
        | nil =>
          rw [hrun]
          exact .bound rfl (by simp [Comparison.takes, hv]) rfl (compare_ok hrun).1
        | cons w rest => exact hrun ▸ .cut rfl rfl (by simp [Comparison.cuts, hv]) (by simp)

/-! ### Conditions -/

section Values
variable {member : String} {c : Comparison} {o : Operand} (ho : ∀ q, o ≠ .query q)
include ho

theorem accepted_values : (⟨member, c, o⟩ : Condition).accepted = c.takes o.values := by
  cases o with
  | query q => exact absurd rfl (ho q)
  | absent | value _ | list _ => rfl

theorem drops_values : (⟨member, c, o⟩ : Condition).drops = c.cuts o.values := by
  cases o with
  | query q => exact absurd rfl (ho q)
  | absent | value _ | list _ => rfl

theorem kept_values {column : Expr} {e : Option Expr} : Kept s column n e n' ⟨member, c, o⟩ ↔
    if c.isNullCheck o.values then e = some (.isNull column (c = .notEqual)) ∧ n' = n
    else n' = {n with params := n.params ++ o.values} ∧
      ∀ d, optionPlaceholders d e = List.range' n.params.length o.values.length := by
  cases o with
  | query q => exact absurd rfl (ho q)
  | absent | value _ | list _ => rfl

end Values

theorem placeholders_memberExpr {member : String} {column : Expr} (d : Dialect)
    (h : memberExpr s l member = .ok column) : placeholders (column.pieces d) = [] := by
  obtain ⟨c, -, rfl⟩ := memberExpr_ok h
  exact placeholders_expr d l c

/-- A chain goes on from what its first step returns. -/
theorem bind_of_ok {α β : Type} {x : Compile α} {f : α → Compile β} {a : α}
    (h : x n = .ok (a, n')) : (x >>= f) n = f a n' := by
  show (x n >>= fun p => f p.1 p.2) = _
  rw [h]
  rfl

theorem bind_of_error {α β : Type} {x : Compile α} {f : α → Compile β} {error : Error}
    (h : x n = .error error) : (x >>= f) n = .error error := by
  show (x n >>= fun p => f p.1 p.2) = _
  rw [h]
  rfl

section Runs
variable {member : String} {c : Comparison} {column : Expr}
  (hcolumn : memberExpr s l member = .ok column)
include hcolumn

/-- A membership test of a query is made of the query's select. -/
theorem conditionExpr_query {q : Query} (hc : c.isMembership = true) :
    conditionExpr s ⟨member, c, .query q⟩ l n = (subselect s q n).map fun found =>
      (some (.inSelect column found.1 (c = .notIn)), found.2) := by
  have hif : (decide (c = .isIn) || decide (c = .notIn)) = true := by
    cases c <;> first | rfl | nomatch hc
  rw [conditionExpr, bind_of_ok (resolved_ok.2 ⟨hcolumn, rfl⟩), if_pos hif]
  cases hq : subselect s q n with
  | error error =>
    have hselect : operandSelect s (.query q) n = .error error := by
      rw [operandSelect]
      exact bind_of_error hq
    exact bind_of_error hselect
  | ok found =>
    have hselect : operandSelect s (.query q) n = .ok (some found.1, found.2) := by
      rw [operandSelect]
      exact bind_of_ok hq
    rw [bind_of_ok hselect]
    rfl

/-- Every other condition compares with the operand's values. -/
theorem conditionExpr_values {o : Operand} (h : ∀ q, o = .query q → c.isMembership = false) :
    conditionExpr s ⟨member, c, o⟩ l n = compare column member c o.values n := by
  rw [conditionExpr, bind_of_ok (resolved_ok.2 ⟨hcolumn, rfl⟩)]
  cases hc : c.isMembership with
  | false =>
    rw [if_neg]
    cases c <;> first | decide | nomatch hc
  | true =>
    cases o with
    | query q => simp [h q rfl] at hc
    | absent | value _ | list _ =>
      rw [if_pos (by cases c <;> first | rfl | nomatch hc),
        bind_of_ok (show operandSelect s _ n = .ok (none, n) from rfl)]

end Runs

/-- A query is refused for what it shows or for its groups. -/
theorem subselect_refused {q : Query} {e : Entity} (he : s.resolve q.entity = .ok e)
    (h : (q.members.length == 1 && q.grouping.isNone) = false) :
    ∃ error, subselect s q n = .error error ∧ error.kind = .feature := by
  have htarget : ∃ error, subqueryTarget s q = .error error ∧ error.kind = .feature := by
    unfold subqueryTarget
    rw [he]
    match hmembers : q.members with
    | [member] =>
      have hgrouping : q.grouping.isSome = true := by simpa [hmembers] using h
      exact ⟨_, if_pos hgrouping, rfl⟩
    | [] | _ :: _ :: _ => exact ⟨_, rfl, rfl⟩
  obtain ⟨error, htarget, hkind⟩ := htarget
  refine ⟨error, ?_, hkind⟩
  obtain ⟨entity, filter, members, sorting, grouping, paging⟩ := q
  rw [subselect]
  exact bind_of_error (by rw [resolved, htarget]; rfl)

section Honoured
variable {member : String} {c : Comparison} {column : Expr}
  (hcolumn : memberExpr s l member = .ok column)
include hcolumn

theorem honoured_inSelect (q : Query) (hc : c.isMembership = true) :
    Honoured s l column n ⟨member, c, .query q⟩ := by
  have hrun := conditionExpr_query (n := n) (q := q) hcolumn hc
  refine ⟨fun h => ?_, fun _ hq => ?_, fun haccepted he => ?_⟩
  · rw [hrun, Except.map_eq_ok] at h
    obtain ⟨found, hfound, h⟩ := h
    obtain ⟨rfl, rfl⟩ := Prod.mk.inj h
    exact ⟨found.1, hfound, rfl⟩
  · obtain ⟨found, hfound⟩ := hq q rfl
    exact ⟨_, hrun.trans (by rw [hfound]; rfl)⟩
  · obtain ⟨e, he⟩ := he q rfl
    rw [Condition.accepted, hc, Bool.true_and] at haccepted
    obtain ⟨error, herror, hkind⟩ := subselect_refused (n := n) he haccepted
    exact ⟨error, hrun.trans (by rw [herror]; rfl), .inr hkind⟩

/-- No other comparison looks at a query. -/
theorem honoured_query_iff (q : Query) (hc : c.isMembership = false) :
    Honoured s l column n ⟨member, c, .query q⟩ ↔
      (⟨member, c, .query q⟩ : Condition).drops = false := by
  have hrun := conditionExpr_values (n := n) (o := .query q) hcolumn fun _ _ => hc
  have haccepted : (⟨member, c, .query q⟩ : Condition).accepted = false := by
    rw [Condition.accepted, hc]
    rfl
  rw [Condition.drops]
  cases hnull : c.checksNull with
  | true =>
    refine iff_of_false (fun h => ?_) (by simp)
    have hisNull : compare column member c [] n =
        .ok (some (.isNull column (c = .notEqual)), n) := by
      cases c <;> first | rfl | nomatch hnull
    obtain ⟨select, -, hselect⟩ := h.kept (hrun.trans hisNull)
    cases hselect
  | false =>
    obtain ⟨error, herror, hkind⟩ : ∃ error, compare column member c [] n = .error error ∧
        error.kind = .operator := by
      cases c with
      | equal | like | notEqual => nomatch hnull
      | isIn | notIn => nomatch hc
      | greater | greaterOrEqual | less | lessOrEqual | between => exact ⟨_, rfl, rfl⟩
    refine iff_of_true ⟨fun h => ?_, fun h => ?_, fun _ _ => ?_⟩ rfl
    · cases (hrun.trans herror).symm.trans h
    · cases haccepted.symm.trans h
    · exact ⟨error, hrun.trans herror, .inl hkind⟩

theorem honoured_values_iff {o : Operand} (ho : ∀ q, o ≠ .query q) :
    Honoured s l column n ⟨member, c, o⟩ ↔ (⟨member, c, o⟩ : Condition).drops = false := by
  have hrun := conditionExpr_values (c := c) (n := n) hcolumn fun q hq => absurd hq (ho q)
  have hcompared := compare_compared column member c o.values n
  rw [drops_values ho]
  generalize compare column member c o.values n = found at hrun hcompared
  cases hcompared with
  | nullCheck hnull htakes hcuts =>
    refine iff_of_true ⟨fun h => ?_, fun _ _ => ⟨_, hrun⟩, fun hrefused => ?_⟩ hcuts
    · obtain ⟨rfl, rfl⟩ := Prod.mk.inj (Except.ok.inj (hrun.symm.trans h))
      exact (kept_values ho).2 (by rw [if_pos hnull]; exact ⟨rfl, rfl⟩)
    · cases (accepted_values ho).symm.trans hrefused |>.symm.trans htakes
  | bound hnull htakes hcuts htested =>
    refine iff_of_true ⟨fun h => ?_, fun _ _ => ⟨_, hrun⟩, fun hrefused => ?_⟩ hcuts
    · obtain ⟨rfl, rfl⟩ := Prod.mk.inj (Except.ok.inj (hrun.symm.trans h))
      refine (kept_values ho).2 ?_
      rw [if_neg (by simp [hnull])]
      refine ⟨rfl, fun d => ?_⟩
      rw [(htested.fills d (placeholders_memberExpr d hcolumn)).numbers]
      simp
    · cases (accepted_values ho).symm.trans hrefused |>.symm.trans htakes
  | cut hnull htakes hcuts hlt =>
    refine iff_of_false (fun h => ?_) (by simp [hcuts])
    have hkept := (kept_values ho).1 (h.kept hrun)
    rw [if_neg (by simp [hnull])] at hkept
    rw [hkept.1, List.length_append] at hlt
    exact Nat.lt_irrefl _ hlt
  | refused htakes hcuts hkind =>
    refine iff_of_true ⟨fun h => ?_, fun haccepted => ?_, fun _ _ => ⟨_, hrun, .inl hkind⟩⟩ hcuts
    · cases hrun.symm.trans h
    · cases (accepted_values ho).symm.trans haccepted |>.symm.trans htakes

end Honoured

/-- **A condition keeps its operand or is refused**, but for those that drop it. -/
theorem condition_honoured_iff {column : Expr} {c : Condition}
    (hcolumn : memberExpr s l c.member = .ok column) :
    Honoured s l column n c ↔ c.drops = false := by
  obtain ⟨member, c, o⟩ := c
  cases o with
  | query q =>
    cases hc : c.isMembership with
    | true =>
      exact iff_of_true (honoured_inSelect hcolumn q hc) (by cases c <;> first | rfl | nomatch hc)
    | false => exact honoured_query_iff hcolumn q hc
  | absent | value _ | list _ => exact honoured_values_iff hcolumn (by simp)

/-- A list of two states is all tested by membership, and not by an equality. -/
theorem condition_honoured_iff_status : ∃ column,
    memberExpr salesSchema (laidOut (.ofRoot 0) [] {}) "Status" = .ok column ∧
      Honoured salesSchema (laidOut (.ofRoot 0) [] {}) column {}
        ⟨"Status", .isIn, .list [.text "open", .text "held"]⟩ ∧
      ¬ Honoured salesSchema (laidOut (.ofRoot 0) [] {}) column {}
        ⟨"Status", .equal, .list [.text "open", .text "held"]⟩ := by
  obtain ⟨column, hcolumn, -⟩ := Except.exists_ok
    (x := memberExpr salesSchema (laidOut (.ofRoot 0) [] {}) "Status") (fun _ => true)
    (by decide +kernel)
  refine ⟨column, hcolumn, ?_, ?_⟩
  · exact (condition_honoured_iff (c := ⟨"Status", .isIn, _⟩) hcolumn).2 rfl
  · refine mt (condition_honoured_iff (c := ⟨"Status", .equal, _⟩) hcolumn).1 ?_
    simp [Condition.drops, Comparison.cuts, Operand.values]

/-- The orders that meet a condition. -/
def ordersWhere (c : Condition) : Query :=
  {Query.on "Order" with filter := .condition c, members := ["Id"]}

/-- The second state is forgotten, and a query is read as null. -/
theorem ordersWhere_drops :
    (∃ plan, Plan.select salesSchema
        (ordersWhere ⟨"Status", .equal, .list [.text "open", .text "held"]⟩) = .ok plan ∧
      plan.params = [.text "open"] ∧
      plan.select.filter = some (.equal (.qualified "T" "Status") (.param 0))) ∧
    ∃ plan, Plan.select salesSchema
        (ordersWhere ⟨"CustomerId", .equal, .query {Query.on "Customer" with members := ["Id"]}⟩) =
          .ok plan ∧
      plan.params = [] ∧
      plan.select.filter = some (.isNull (.qualified "T" "CustomerId") false) :=
  ⟨⟨_, rfl, rfl, rfl⟩, _, rfl, rfl, rfl⟩

/-! ### Filters -/

theorem compare_binds {column : Expr} {member : String} {c : Comparison} {o : Operand}
    {e : Option Expr} (h : compare column member c o.values n = .ok (e, n'))
    (hcuts : c.cuts o.values = false) :
    n'.params = n.params ++ (⟨member, c, o⟩ : Condition).held := by
  have hcompared := compare_compared column member c o.values n
  rw [h] at hcompared
  rw [Condition.held]
  cases hcompared with
  | nullCheck hnull => rw [if_pos hnull, List.append_nil]
  | bound hnull => rw [if_neg (by simp [hnull])]
  | cut _ _ hcut => cases hcuts.symm.trans hcut

theorem binds_invariant (s : Schema) : Invariant s
    (fun f _ n _ n' => (∀ c ∈ f.allConditions, c.drops = false) →
      n'.params = n.params ++ f.allConditions.flatMap Condition.held)
    (fun fs _ n _ n' => (∀ c ∈ Filter.allConditionsOf fs, c.drops = false) →
      n'.params = n.params ++ (Filter.allConditionsOf fs).flatMap Condition.held)
    (fun q n _ n' => (∀ c ∈ q.within, c.drops = false) →
      n'.params = n.params ++ q.within.flatMap Condition.held) where
  nil := fun _ => by simp [Filter.allConditionsOf]
  cons he hes := fun h => by
    rw [Filter.allConditionsOf] at h ⊢
    rw [hes fun c hc => h c (List.mem_append_right _ hc),
      he fun c hc => h c (List.mem_append_left _ hc), List.append_assoc, List.flatMap_append]
  composite hes := fun h => by
    rw [Filter.allConditions] at h ⊢
    exact hes h
  test {member c o l n n' column e} hcolumn ho h := fun hkept => by
    rw [Filter.allConditions] at hkept ⊢
    have hdrops := hkept _ (List.mem_cons_self ..)
    cases o with
    | query q =>
      -- Without a null check no comparison but membership takes an operand for no value.
      have hc := ho q rfl
      cases c with
      | equal | like | notEqual => cases hdrops
      | isIn | notIn => simp at hc
      | greater | greaterOrEqual | less | lessOrEqual | between => cases h
    | absent | value _ | list _ =>
      simpa [Condition.within, Operand.within] using compare_binds h hdrops
  inSelect {member c q l n n' column select} hcolumn hc hselect := fun h => by
    rw [Filter.allConditions, Condition.within, Operand.within] at h ⊢
    have hheld : (⟨member, c, .query q⟩ : Condition).held = [] := ite_self _
    rw [hselect fun c hc => h c (List.mem_cons_of_mem _ hc), List.flatMap_cons, hheld,
      List.nil_append]
  query {q n n' select} h hfilter := fun hkept => by
    obtain ⟨_, _, _, _, _, _, l, _, _, -, -, -, hfiltered, hprojected⟩ := subselect_ok h
    obtain ⟨_, _, filter, -, -, hfilter', -⟩ := filtered_ok hfiltered
    obtain ⟨entity, f, members, sorting, grouping, paging⟩ := q
    rw [Query.within] at hkept ⊢
    have hparams := hfilter hfilter' hkept
    cases hprojected <;> exact hparams

/-- **Nothing is lost on the way**: a filter whose conditions do not drop their operands binds the
values of all of them, those in queries included, from left to right. -/
theorem filterExpr_binds {f : Filter} {e : Option Expr}
    (h : filterExpr s f l n = .ok (e, n')) (hkept : ∀ c ∈ f.allConditions, c.drops = false) :
    n'.params = n.params ++ f.allConditions.flatMap Condition.held :=
  (binds_invariant s).filterExpr h hkept

end Plan
end EntityQuery
