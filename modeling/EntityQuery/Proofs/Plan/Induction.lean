import EntityQuery.Proofs.Plan.Run

/-! Induction over what compiles.

Filters and queries contain each other, so whatever holds of the expressions of all filters holds of
the selects behind their conditions too, and is shown for both at once. The recursion is walked
here, once: an `Invariant` says what remains to be shown at each kind of step. -/
namespace EntityQuery.Plan

open Sql (Expr Select)

variable {s : Schema} {l : Layout} {n n' : Numbering}

/-- What is to be shown of a statement about filters, lists of filters and queries behind
conditions so that it holds of all that compile. Filters and queries contain each other; their
induction is done once, in `Invariant.filterExpr` and `Invariant.subselect`. -/
structure Invariant (s : Schema) (F : Filter → Layout → Numbering → Option Expr → Numbering → Prop)
    (Fs : List Filter → Layout → Numbering → List Expr → Numbering → Prop)
    (Q : Query → Numbering → Select → Numbering → Prop) : Prop where
  nil : ∀ {l n}, Fs [] l n [] n
  cons : ∀ {f fs l n m n' e es}, F f l n e m → Fs fs l m es n' →
    Fs (f :: fs) l n (e.toList ++ es) n'
  composite : ∀ {k fs l n n' es}, Fs fs l n es n' → F (.composite k fs) l n (joined? k es) n'
  test : ∀ {member c o l n n' column e}, memberExpr s l member = .ok column →
    (∀ q, o = .query q → c ≠ .isIn ∧ c ≠ .notIn) →
    compare column member c o.values n = .ok (e, n') → F (.condition ⟨member, c, o⟩) l n e n'
  inSelect : ∀ {member c q l n n' column select}, memberExpr s l member = .ok column →
    (c = .isIn ∨ c = .notIn) → Q q n select n' →
    F (.condition ⟨member, c, .query q⟩) l n (some (.inSelect column select (c = .notIn))) n'
  query : ∀ {q n n' select}, subselect s q n = .ok (select, n') →
    (∀ {l m e m'}, filterExpr s q.filter l m = .ok (e, m') → F q.filter l m e m') →
    Q q n select n'

section Induction
variable {F : Filter → Layout → Numbering → Option Expr → Numbering → Prop}
  {Fs : List Filter → Layout → Numbering → List Expr → Numbering → Prop}
  {Q : Query → Numbering → Select → Numbering → Prop}

mutual

private theorem filter_induction (hI : Invariant s F Fs Q) : ∀ (f : Filter)
    {l : Layout} {n n' : Numbering} {e : Option Expr},
    filterExpr s f l n = .ok (e, n') → F f l n e n'
  | .condition c, _, _, _, _, h => condition_induction hI c h
  | .composite _ fs, _, _, _, _, h => by
    obtain ⟨es, hes, rfl⟩ := filterExpr_composite_ok h
    exact hI.composite (filters_induction hI fs hes)
termination_by structural f => f

private theorem filters_induction (hI : Invariant s F Fs Q) : ∀ (fs : List Filter)
    {l : Layout} {n n' : Numbering} {es : List Expr},
    filterExprs s fs l n = .ok (es, n') → Fs fs l n es n'
  | [], _, _, _, _, h => by
    obtain ⟨rfl, rfl⟩ := filterExprs_nil_ok h
    exact hI.nil
  | f :: fs, _, _, _, _, h => by
    obtain ⟨e, m, rest, he, hrest, rfl⟩ := filterExprs_cons_ok h
    exact hI.cons (filter_induction hI f he) (filters_induction hI fs hrest)
termination_by structural fs => fs

private theorem condition_induction (hI : Invariant s F Fs Q) : ∀ (c : Condition)
    {l : Layout} {n n' : Numbering} {e : Option Expr},
    conditionExpr s c l n = .ok (e, n') → F (.condition c) l n e n'
  | ⟨_, _, o⟩ => by
    intro h
    obtain ⟨column, hcolumn, ⟨select, hselect, hc, rfl⟩ | ⟨hc, h⟩⟩ := conditionExpr_ok h
    · obtain ⟨q, rfl, hq⟩ := operand_induction hI o hselect
      exact hI.inSelect hcolumn hc hq
    · exact hI.test hcolumn hc h
termination_by structural c => c

private theorem operand_induction (hI : Invariant s F Fs Q) : ∀ (o : Operand)
    {n n' : Numbering} {select : Select},
    operandSelect s o n = .ok (some select, n') → ∃ q, o = .query q ∧ Q q n select n'
  | .query q, _, _, _, h => by
    obtain ⟨_, hselect, h⟩ := operandSelect_query_ok h
    obtain rfl := Option.some.inj h
    exact ⟨q, rfl, query_induction hI q hselect⟩
  | .absent, _, _, _, h => by simp [operandSelect] at h
  | .value _, _, _, _, h => by simp [operandSelect] at h
  | .list _, _, _, _, h => by simp [operandSelect] at h
termination_by structural o => o

private theorem query_induction (hI : Invariant s F Fs Q) : ∀ (q : Query)
    {n n' : Numbering} {select : Select}, subselect s q n = .ok (select, n') → Q q n select n'
  | ⟨_, filter, _, _, _, _⟩, _, _, _, h => hI.query h fun he => filter_induction hI filter he
termination_by structural q => q

end

theorem Invariant.filterExpr (hI : Invariant s F Fs Q) {f : Filter} {e : Option Expr}
    (h : filterExpr s f l n = .ok (e, n')) : F f l n e n' :=
  filter_induction hI f h

theorem Invariant.subselect (hI : Invariant s F Fs Q) {q : Query} {select : Select}
    (h : subselect s q n = .ok (select, n')) : Q q n select n' :=
  query_induction hI q h

end Induction

end EntityQuery.Plan
