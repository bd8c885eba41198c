import EntityQuery.Query.Filter
import EntityQuery.Record
import Mathlib.Data.List.Forall2
import Mathlib.Data.Option.Basic

/-! Requests that differ in values only.

Two requests are alike when they are the same but for their values, and each value belongs to the
one in its place (`R`). What a request does may depend on whether a value is null and on whether it
is a pattern, so values that belong together should agree on these (`Value.SameKind`). -/
namespace EntityQuery

/-- Whatever statements depend on is the same of both values. -/
structure Value.SameKind (v w : Value) : Prop where
  isNull : v.isNull = w.isNull
  isPattern : v.isPattern = w.isPattern

variable (R : Value → Value → Prop)

mutual

inductive Operand.Alike : Operand → Operand → Prop where
  | absent : Operand.Alike .absent .absent
  | value {v w : Value} : R v w → Operand.Alike (.value v) (.value w)
  | list {vs ws : List Value} : List.Forall₂ R vs ws → Operand.Alike (.list vs) (.list ws)
  | query {q r : Query} : Query.Alike q r → Operand.Alike (.query q) (.query r)

inductive Condition.Alike : Condition → Condition → Prop where
  | intro {member : String} {comparison : Comparison} {o p : Operand} : Operand.Alike o p →
    Condition.Alike ⟨member, comparison, o⟩ ⟨member, comparison, p⟩

inductive Filter.Alike : Filter → Filter → Prop where
  | condition {c d : Condition} : Condition.Alike c d → Filter.Alike (.condition c) (.condition d)
  | composite {k : Combinator} {fs gs : List Filter} : Filter.AllAlike fs gs →
    Filter.Alike (.composite k fs) (.composite k gs)

inductive Filter.AllAlike : List Filter → List Filter → Prop where
  | nil : Filter.AllAlike [] []
  | cons {f g : Filter} {fs gs : List Filter} : Filter.Alike f g → Filter.AllAlike fs gs →
    Filter.AllAlike (f :: fs) (g :: gs)

inductive Grouping.Alike? : Option Grouping → Option Grouping → Prop where
  | none : Grouping.Alike? none none
  | some {members : List String} {having having' : Filter} : Filter.Alike having having' →
    Grouping.Alike? (some ⟨members, having⟩) (some ⟨members, having'⟩)

inductive Query.Alike : Query → Query → Prop where
  | intro {entity : String} {f g : Filter} {members : List String} {sorting : List Sorting}
    {grouping grouping' : Option Grouping} {paging : Option Paging} : Filter.Alike f g →
    Grouping.Alike? grouping grouping' →
    Query.Alike ⟨entity, f, members, sorting, grouping, paging⟩
      ⟨entity, g, members, sorting, grouping', paging⟩

end

/-- Rows that have values for the same members. -/
def Row.Alike : Row → Row → Prop := List.Forall₂ fun a b => a.1 = b.1 ∧ R a.2 b.2

inductive Write.Alike : Write → Write → Prop where
  | set {v w : Value} : R v w → Write.Alike (.set v) (.set w)
  | arithmetic {member : String} {operator : Arithmetic} {v w : Value} : R v w →
    Write.Alike (.arithmetic member operator v) (.arithmetic member operator w)

/-- Rows that write the same members. -/
def OrderedMap.WritesAlike : OrderedMap Write → OrderedMap Write → Prop :=
  List.Forall₂ fun a b => a.1 = b.1 ∧ Write.Alike R a.2 b.2

variable {R}

/-! ### What alike requests share -/

theorem Operand.Alike.values {o p : Operand} (h : o.Alike R p) :
    List.Forall₂ R o.values p.values := by
  cases h with
  | absent | query _ => exact .nil
  | value h => exact .cons h .nil
  | list h => exact h

mutual

theorem Filter.Alike.members : ∀ {f g : Filter}, f.Alike R g →
    f.conditions.map (·.member) = g.conditions.map (·.member)
  | _, _, .condition (.intro _) => rfl
  | _, _, .composite h => h.members
termination_by structural f => f

theorem Filter.AllAlike.members : ∀ {fs gs : List Filter}, Filter.AllAlike R fs gs →
    (Filter.conditionsOf fs).map (·.member) = (Filter.conditionsOf gs).map (·.member)
  | _, _, .nil => rfl
  | _, _, .cons h hrest => by
    rw [Filter.conditionsOf, Filter.conditionsOf, List.map_append, List.map_append, h.members,
      hrest.members]
termination_by structural fs => fs

end

namespace OrderedMap.WritesAlike
variable {row row' : OrderedMap Write}

/-- Alike rows answer alike whatever looks for the first entry of some name. -/
theorem find (p : String → Prop) [DecidablePred p] (find : OrderedMap Write → Option Write)
    (hnil : find [] = none)
    (hcons : ∀ k v rest, find ((k, v) :: rest) = if p k then some v else find rest)
    (h : WritesAlike R row row') : Option.Rel (Write.Alike R) (find row) (find row') := by
  induction h with
  | nil =>
    rw [hnil]
    exact .none
  | cons hentry _ ih =>
    rw [hcons, hcons, hentry.1]
    split
    · exact .some hentry.2
    · exact ih

theorem named? (h : WritesAlike R row row') (name : String) :
    Option.Rel (Write.Alike R) (OrderedMap.named? row name) (OrderedMap.named? row' name) := by
  have hexact := h.find (· = name) (get? · name) rfl fun _ _ _ => rfl
  have hfold := h.find (Text.sameName · name = true) (getFold? · name) rfl fun _ _ _ => rfl
  unfold OrderedMap.named?
  revert hexact
  generalize get? row name = found
  generalize get? row' name = found'
  rintro (hfound | _)
  · exact .some hfound
  · exact hfold

theorem refl (hR : ∀ v, R v v) (row : OrderedMap Write) : WritesAlike R row row :=
  List.forall₂_same.2 fun (_, w) _ => ⟨rfl, by
    cases w with
    | set v => exact .set (hR v)
    | arithmetic member operator v => exact .arithmetic (hR v)⟩

end OrderedMap.WritesAlike

/-! ### Every request is like itself -/

mutual

theorem Operand.Alike.refl (hR : ∀ v, R v v) : ∀ o : Operand, o.Alike R o
  | .absent => .absent
  | .value v => .value (hR v)
  | .list _ => .list (List.forall₂_same.2 fun v _ => hR v)
  | .query q => .query (Query.Alike.refl hR q)
termination_by structural o => o

theorem Condition.Alike.refl (hR : ∀ v, R v v) : ∀ c : Condition, c.Alike R c
  | ⟨_, _, o⟩ => .intro (Operand.Alike.refl hR o)
termination_by structural c => c

theorem Filter.Alike.refl (hR : ∀ v, R v v) : ∀ f : Filter, f.Alike R f
  | .condition c => .condition (Condition.Alike.refl hR c)
  | .composite _ fs => .composite (Filter.AllAlike.refl hR fs)
termination_by structural f => f

theorem Filter.AllAlike.refl (hR : ∀ v, R v v) : ∀ fs : List Filter, Filter.AllAlike R fs fs
  | [] => .nil
  | f :: rest => .cons (Filter.Alike.refl hR f) (Filter.AllAlike.refl hR rest)
termination_by structural fs => fs

theorem Grouping.Alike?.refl (hR : ∀ v, R v v) : ∀ grouping : Option Grouping,
    Grouping.Alike? R grouping grouping
  | none => .none
  | some ⟨_, having⟩ => .some (Filter.Alike.refl hR having)
termination_by structural grouping => grouping

theorem Query.Alike.refl (hR : ∀ v, R v v) : ∀ q : Query, q.Alike R q
  | ⟨_, filter, _, _, grouping, _⟩ =>
    .intro (Filter.Alike.refl hR filter) (Grouping.Alike?.refl hR grouping)
termination_by structural q => q

end

end EntityQuery
