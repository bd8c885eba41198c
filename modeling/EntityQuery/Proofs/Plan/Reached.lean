import EntityQuery.Proofs.Member.AtRoot
import EntityQuery.Proofs.Plan.Truth

/-! The rows that a write reaches.

A DELETE or an UPDATE without a WHERE reaches all rows of its table. A filter leaves the WHERE out
only when its conditions, however they are nested, are all outside of no values, and an UPDATE
under a filter without any condition is matched by the keys of its row instead. What a filter asks
of another table is refused (`write_reaches`). -/
namespace EntityQuery

mutual

/-- A tree is empty when there is no condition anywhere in it. -/
theorem Filter.isEmpty_iff : ∀ f : Filter, f.isEmpty = true ↔ f.conditions = []
  | .condition _ => by simp [Filter.isEmpty, Filter.conditions]
  | .composite _ children => by
    rw [Filter.isEmpty, Filter.conditions]
    exact Filter.allEmpty_iff children
termination_by structural f => f

theorem Filter.allEmpty_iff : ∀ fs : List Filter,
    Filter.allEmpty fs = true ↔ Filter.conditionsOf fs = []
  | [] => by simp [Filter.allEmpty, Filter.conditionsOf]
  | f :: rest => by
    rw [Filter.allEmpty, Filter.conditionsOf, Bool.and_eq_true, List.append_eq_nil_iff,
      Filter.isEmpty_iff f, Filter.allEmpty_iff rest]
termination_by structural fs => fs

end

namespace Plan

open Member (Column)
open Sql (Expr)

variable {s : Schema} {l : Layout} {n n' : Numbering} {e : Entity}

/-! ### The filter -/

theorem unrestricted_invariant (s : Schema) : Invariant s
    (fun f _ _ filter _ => filter = none ↔ ∀ c ∈ f.conditions, c.unrestricting = true)
    (fun fs _ _ es _ => es = [] ↔ ∀ c ∈ Filter.conditionsOf fs, c.unrestricting = true)
    (fun _ _ _ _ => True) where
  nil := by simp [Filter.conditionsOf]
  cons {_ _ _ _ _ _ filter _} hf hfs := by
    rw [Filter.conditionsOf, List.forall_mem_append, ← hf, ← hfs, List.append_eq_nil_iff]
    cases filter <;> simp
  composite hfs := by rw [Clause.joined?_eq_none, hfs, Filter.conditions]
  test {member _ _ _ _ _ _ _} _ hquery hcompare := by
    rw [(compare_ok hcompare).2, unrestricting_of_values member hquery]
    simp [Filter.conditions]
  inSelect _ _ _ := by simp [Filter.conditions, unrestricting_query]
  query _ _ := trivial

/-- Compiling loses every restriction only where there was none. -/
theorem filterExpr_eq_none {f : Filter} {filter : Option Expr}
    (h : filterExpr s f l n = .ok (filter, n')) :
    filter = none ↔ ∀ c ∈ f.conditions, c.unrestricting = true :=
  (unrestricted_invariant s).filterExpr h

/-- The conditions pass exactly when each of them is on a column of the table. -/
theorem checkConditions_eq_ok {g : JoinGraph} {cs : List Condition} :
    checkConditions s e g cs = .ok () ↔
      ∀ c ∈ cs, ∃ column, (Member.resolve s g c.member).2 = .ok column ∧ column.scope = 0 := by
  induction cs with
  | nil => simp [checkConditions]
  | cons c rest ih =>
    rw [List.forall_mem_cons, ← ih, checkConditions]
    cases hcolumn : (Member.resolve s g c.member).2 with
    | error fault => simp [hcolumn, bind, Except.bind]
    | ok column =>
      by_cases hroot : column.scope = 0
      · simp [hcolumn, hroot, Member.graph_of_atRoot hcolumn hroot]
      · simp [hcolumn, hroot]

/-! ### Keys -/

/-- The tests of keys against parameters from `k` on. -/
def keyTests (k : Nat) (keys : List Property) : List Expr :=
  (keys.zipIdx k).map fun (key, i) => .equal (.qualified "" key.column) (.param i)

/-- What a row has for keys: a value for each, which is not null. -/
def KeyValues (row : OrderedMap Write) : List Property → List Value → Prop :=
  List.Forall₂ fun key v => OrderedMap.named? row key.name = some (.set v) ∧ v.isNull = false

theorem keyConditions_ok {row : OrderedMap Write} {keys : List Property} {es : List Expr}
    (h : keys.mapM (keyCondition e row) n = .ok (es, n')) :
    ∃ values, KeyValues row keys values ∧ es = keyTests n.params.length keys ∧
      n' = {n with params := n.params ++ values} := by
  induction keys generalizing n es with
  | nil =>
    rw [List.mapM_nil] at h
    obtain ⟨rfl, rfl⟩ := pure_ok.1 h
    exact ⟨[], .nil, rfl, by simp⟩
  | cons key rest ih =>
    simp only [List.mapM_cons, bind_ok, pure_ok] at h
    obtain ⟨condition, m, hcondition, others, m', hothers, rfl, rfl⟩ := h
    obtain ⟨v, hv, hnull, rfl, rfl⟩ := keyCondition_ok hcondition
    obtain ⟨values, hvalues, rfl, rfl⟩ := ih hothers
    refine ⟨v :: values, .cons ⟨hv, hnull⟩ hvalues, ?_, by simp⟩
    simp [keyTests]

theorem writeValue_extends {w : Write} {value : Expr} (h : writeValue e w n = .ok (value, n')) :
    ∃ more, n'.params = n.params ++ more := by
  obtain ⟨-, rfl⟩ | ⟨v, rfl, -⟩ := writeValue_ok h
  · exact ⟨[], by simp⟩
  · exact ⟨[v], rfl⟩

/-- What is assigned are members that have a column, and no keys when rows are matched by these. -/
theorem assignmentsOf_ok {row : OrderedMap Write} {byKey : Bool} {members : List String}
    {as : List Sql.Assignment} (h : assignmentsOf e row byKey members n = .ok (as, n')) :
    (∃ more, n'.params = n.params ++ more) ∧ ∀ a ∈ as, ∃ member ∈ members, ∃ p,
      e.property? member = some p ∧ (p.ignored || byKey && p.key) = false ∧
        a.column = p.column := by
  induction members generalizing n as with
  | nil =>
    simp only [assignmentsOf, pure_ok] at h
    obtain ⟨rfl, rfl⟩ := h
    exact ⟨⟨[], by simp⟩, by simp⟩
  | cons member rest ih =>
    obtain h | ⟨w, p, value, m, others, -, hp, hskip, hvalue, hothers, rfl⟩ :=
      assignmentsOf_cons_ok h
    · obtain ⟨hmore, has⟩ := ih h
      exact ⟨hmore, fun a ha => (has a ha).imp fun _ h => ⟨List.mem_cons_of_mem _ h.1, h.2⟩⟩
    · obtain ⟨first, hfirst⟩ := writeValue_extends hvalue
      obtain ⟨⟨more, hmore⟩, hothers⟩ := ih hothers
      refine ⟨⟨first ++ more, by rw [hmore, hfirst, List.append_assoc]⟩, ?_⟩
      rw [List.forall_mem_cons]
      exact ⟨⟨member, List.mem_cons_self .., p, hp, hskip, rfl⟩, fun a ha =>
        (hothers a ha).imp fun _ h => ⟨List.mem_cons_of_mem _ h.1, h.2⟩⟩

/-- An UPDATE that is matched by the keys of its row. -/
structure MatchedByKeys (e : Entity) (row : OrderedMap Write) (members : List String)
    (u : Sql.Update) (params : List Value) : Prop where
  keyed : e.keys ≠ []
  filter : u.filter = Expr.allOf? (keyTests 0 e.keys)
  bound : ∃ values rest, KeyValues row e.keys values ∧ params = values ++ rest
  assigned : ∀ a ∈ u.assignments, ∃ member ∈ members, ∃ p, e.property? member = some p ∧
    p.key = false ∧ a.column = p.column

theorem matchedByKeys {row : OrderedMap Write} {members : List String} {filter : Option Expr}
    {as : List Sql.Assignment} (hfilter : keysExpr e row {} = .ok (filter, n))
    (has : assignmentsOf e row true members n = .ok (as, n')) :
    MatchedByKeys e row members ⟨tableOf e, as, filter⟩ n'.params := by
  obtain ⟨es, hes, hne, rfl⟩ := keysExpr_ok hfilter
  obtain ⟨values, hvalues, rfl, rfl⟩ := keyConditions_ok hes
  obtain ⟨⟨more, hmore⟩, has⟩ := assignmentsOf_ok has
  refine ⟨fun hkeys => hne (by rw [hkeys]; rfl), rfl, ⟨values, more, hvalues, by simpa using hmore⟩,
    fun a ha => ?_⟩
  obtain ⟨member, hmem, p, hp, hskip, hcolumn⟩ := has a ha
  simp only [Bool.true_and, Bool.or_eq_false_iff] at hskip
  exact ⟨member, hmem, p, hp, hskip.2, hcolumn⟩

theorem allOf?_ne_none {es : List Expr} (h : es ≠ []) : Expr.allOf? es ≠ none :=
  mt (Clause.joined?_eq_none (k := .and)).1 h

/-! ### Writes -/

/-- A filter that asks something of another table is refused. -/
theorem writeFilterExpr_refused {f : Filter} {c : Condition} (hc : c ∈ f.conditions)
    {column : Column} (hcolumn : (Member.resolve s (.ofRoot e.id) c.member).2 = .ok column)
    (hscope : column.scope ≠ 0) (n : Numbering) :
    ∃ fault, writeFilterExpr s e f n = .error fault := by
  cases h : writeFilterExpr s e f n with
  | error fault => exact ⟨fault, rfl⟩
  | ok found =>
    obtain ⟨other, hother, hroot⟩ := checkConditions_eq_ok.1 (writeFilterExpr_ok h).1 c hc
    obtain rfl := Except.ok.inj (hcolumn.symm.trans hother)
    exact absurd hroot hscope

/-- **What a write reaches.** A DELETE has no WHERE exactly when all conditions of its filter are
outside of no values. An UPDATE has none exactly when there are also such conditions: without any
condition it is matched by all keys of its row, which it leaves as they are. No write has a filter
with a condition on another table. -/
theorem write_reaches (s : Schema) (e : Entity) (f : Filter) :
    (∀ w, Plan.delete s e f = .ok w → ∃ filter, w.statement = .delete ⟨tableOf e, filter⟩ ∧
      (filter = none ↔ ∀ c ∈ f.conditions, c.unrestricting = true)) ∧
    (∀ row members w, Plan.update s e row f members = .ok (some w) →
      ∃ u, w.statement = .update u ∧ u.table = tableOf e ∧
        (u.filter = none ↔ f.conditions ≠ [] ∧ ∀ c ∈ f.conditions, c.unrestricting = true) ∧
        (f.conditions = [] → MatchedByKeys e row members u w.params)) ∧
    ∀ c ∈ f.conditions, ∀ column, (Member.resolve s (.ofRoot e.id) c.member).2 = .ok column →
      column.scope ≠ 0 → (∃ fault, Plan.delete s e f = .error fault) ∧
        ∀ row members, ∃ fault, Plan.update s e row f members = .error fault := by
  refine ⟨fun w hw => ?_, fun row members w hw => ?_, fun c hc column hcolumn hscope => ?_⟩
  · obtain ⟨filter, n, hfilter, rfl⟩ := delete_ok hw
    exact ⟨filter, rfl, filterExpr_eq_none (writeFilterExpr_ok hfilter).2⟩
  · obtain ⟨filter, n, as, n', hfilter, has, rfl⟩ := update_ok hw
    refine ⟨⟨tableOf e, as, filter⟩, rfl, rfl, ?_⟩
    obtain ⟨hempty, hfilter⟩ | ⟨hempty, hfilter⟩ := hfilter
    · have hnone := f.isEmpty_iff.1 hempty
      have hkeys := matchedByKeys hfilter (hempty ▸ has)
      have hsome : filter ≠ none := by
        rw [show filter = _ from hkeys.filter]
        exact allOf?_ne_none (by simpa [keyTests] using hkeys.keyed)
      exact ⟨iff_of_false hsome fun h => h.1 hnone, fun _ => hkeys⟩
    · have hconditions : f.conditions ≠ [] := fun hnone => by
        simp [f.isEmpty_iff.2 hnone] at hempty
      refine ⟨?_, fun hnone => absurd hnone hconditions⟩
      rw [filterExpr_eq_none (writeFilterExpr_ok hfilter).2]
      exact (and_iff_right hconditions).symm
  · have hrefused := writeFilterExpr_refused hc hcolumn hscope {}
    have hempty : f.isEmpty = false := by
      rw [Bool.eq_false_iff, Ne, f.isEmpty_iff]
      exact List.ne_nil_of_mem hc
    obtain ⟨fault, hfault⟩ := hrefused
    refine ⟨⟨fault, ?_⟩, fun row members => ⟨fault, ?_⟩⟩
    · simp [Plan.delete, StateT.run, hfault, bind, Except.bind]
    · simp [Plan.update, updateStatement, StateT.run, hempty, hfault, bind, Except.bind,
        StateT.bind]

/-- The orders that are none of no orders. -/
def anyOrder : Filter := .composite .or [.condition ⟨"Id", .notIn, .list []⟩]

/-- The orders of one customer. -/
def ordersOfAnna : Filter := .condition ⟨"Customer.Name", .equal, .value (.text "Anna")⟩

def heldOrder : OrderedMap Write := [("Status", .set (.text "held")), ("Id", .set (.int32 5))]

/-- All orders are deleted, one is put on hold, and those of a customer are not found this way. -/
theorem write_reaches_orders :
    (∃ w filter, Plan.delete salesSchema (salesSchema.entity 0) anyOrder = .ok w ∧
      w.statement = .delete ⟨tableOf (salesSchema.entity 0), filter⟩ ∧ filter = none) ∧
    (∃ w u, Plan.update salesSchema (salesSchema.entity 0) heldOrder .everything ["Id", "Status"] =
        .ok (some w) ∧ w.statement = .update u ∧
      MatchedByKeys (salesSchema.entity 0) heldOrder ["Id", "Status"] u w.params) ∧
    ∃ fault, Plan.delete salesSchema (salesSchema.entity 0) ordersOfAnna = .error fault := by
  refine ⟨?_, ?_, ?_⟩
  · obtain ⟨w, hw, -⟩ := Except.exists_ok
      (x := Plan.delete salesSchema (salesSchema.entity 0) anyOrder) (fun _ => true)
      (by decide +kernel)
    obtain ⟨filter, hfilter, hnone⟩ := (write_reaches ..).1 w hw
    exact ⟨w, filter, hw, hfilter, hnone.2 (by decide)⟩
  · obtain ⟨w, hw, hsome⟩ := Except.exists_ok (x := Plan.update salesSchema (salesSchema.entity 0)
      heldOrder .everything ["Id", "Status"]) (fun w => w.isSome) (by decide +kernel)
    obtain ⟨w, rfl⟩ := Option.isSome_iff_exists.1 hsome
    obtain ⟨u, hu, -, -, hkeys⟩ := (write_reaches ..).2.1 _ _ w hw
    exact ⟨w, u, hw, hu, hkeys rfl⟩
  · obtain ⟨column, hcolumn, hscope⟩ := Except.exists_ok
      (x := (Member.resolve salesSchema (.ofRoot 0) "Customer.Name").2)
      (fun column => column.scope != 0) (by decide +kernel)
    exact ((write_reaches salesSchema (salesSchema.entity 0) ordersOfAnna).2.2 _
      (List.mem_singleton_self _) column hcolumn (by simpa using hscope)).1

end Plan
end EntityQuery
