import EntityQuery.Proofs.Plan.Compiled
import EntityQuery.Proofs.Plan.Induction
import Mathlib.Tactic.Tauto

/-! What filters mean.

The conditions of a filter become fragments, and a row gives each fragment a truth value. A filter
is then true or false by its tree, where being outside of no values is true and a node of nothing
but such conditions restricts nothing. Compiling leaves out what restricts nothing. Under AND that
loses nothing; under OR it does, for there one child that restricts nothing makes the whole node
restrict nothing (`Clause.mixed`). -/
namespace EntityQuery

def Combinator.holds : Combinator → List Bool → Bool
  | .and, values => values.all id
  | .or, values => values.any id

/-- Being outside of no values. -/
def Condition.unrestricting : Condition → Bool
  | ⟨_, .notIn, .query _⟩ => false
  | ⟨_, .notIn, operand⟩ => operand.values.isEmpty
  | _ => false

namespace Sql

mutual

/-- The truth of an expression when what it is joined of has these truths. -/
def Expr.holds (σ : Expr → Bool) : Expr → Bool
  | .and es => Expr.allHold σ es
  | .or es => Expr.anyHolds σ es
  | e => σ e
termination_by structural e => e

def Expr.allHold (σ : Expr → Bool) : List Expr → Bool
  | [] => true
  | e :: rest => e.holds σ && Expr.allHold σ rest
termination_by structural es => es

def Expr.anyHolds (σ : Expr → Bool) : List Expr → Bool
  | [] => false
  | e :: rest => e.holds σ || Expr.anyHolds σ rest
termination_by structural es => es

end

namespace Expr
variable (σ : Expr → Bool)

theorem allHold_eq (es : List Expr) : allHold σ es = es.all (holds σ) := by
  induction es with
  | nil => rfl
  | cons e rest ih => rw [allHold, ih, List.all_cons]

theorem anyHolds_eq (es : List Expr) : anyHolds σ es = es.any (holds σ) := by
  induction es with
  | nil => rfl
  | cons e rest ih => rw [anyHolds, ih, List.any_cons]

theorem holds_of_not_junction {e : Expr} (h : e.isJunction = false) : e.holds σ = σ e := by
  cases e <;> first | rfl | simp [isJunction] at h

/-- No expression is one that every row satisfies. -/
def holds? (e : Option Expr) : Bool := (e.map (holds σ)).getD true

end Expr
end Sql

namespace Plan

open Sql (Expr)

variable {s : Schema} {l : Layout} {n n' : Numbering}

/-- A filter with the fragment that each of its conditions is compiled to. -/
inductive Clause where
  | leaf (condition : Condition) (fragment : Option Expr)
  | node (combinator : Combinator) (children : List Clause)

mutual

/-- The fragments of a filter's conditions, in their places. -/
def clauseOf (s : Schema) : Filter → Layout → Compile Clause
  | .condition c, l => do return .leaf c (← conditionExpr s c l)
  | .composite k children, l => do return .node k (← clausesOf s children l)
termination_by structural f => f

def clausesOf (s : Schema) : List Filter → Layout → Compile (List Clause)
  | [], _ => pure []
  | f :: rest, l => do
    let c ← clauseOf s f l
    return c :: (← clausesOf s rest l)
termination_by structural fs => fs

end

namespace Clause

mutual

/-- A tree of nothing but conditions that restrict nothing. -/
def unrestricting : Clause → Bool
  | .leaf c _ => c.unrestricting
  | .node _ children => allUnrestricting children

def allUnrestricting : List Clause → Bool
  | [] => true
  | c :: rest => c.unrestricting && allUnrestricting rest

end

mutual

/-- The truth of a tree whose fragments have these truths. What restricts nothing is true. -/
def truth (σ : Expr → Bool) : Clause → Bool
  | .leaf c fragment => c.unrestricting || (fragment.map σ).getD true
  | .node k children => allUnrestricting children || k.holds (truths σ children)

def truths (σ : Expr → Bool) : List Clause → List Bool
  | [] => []
  | c :: rest => c.truth σ :: truths σ rest

end

mutual

/-- The fragments that are there, joined as the tree says. -/
def lower : Clause → Option Expr
  | .leaf _ fragment => fragment
  | .node k children => joined? k (lowered children)

def lowered : List Clause → List Expr
  | [] => []
  | c :: rest => c.lower.toList ++ lowered rest

end

mutual

def fragments : Clause → List Expr
  | .leaf _ fragment => fragment.toList
  | .node _ children => allFragments children

def allFragments : List Clause → List Expr
  | [] => []
  | c :: rest => c.fragments ++ allFragments rest

end

mutual

/-- Somewhere an OR joins what restricts with what does not. -/
def mixed : Clause → Bool
  | .leaf _ _ => false
  | .node k children =>
    k == .or && children.any unrestricting && !allUnrestricting children || anyMixed children

def anyMixed : List Clause → Bool
  | [] => false
  | c :: rest => c.mixed || anyMixed rest

end

variable (σ : Expr → Bool)

theorem allUnrestricting_eq (cs : List Clause) : allUnrestricting cs = cs.all unrestricting := by
  induction cs with
  | nil => rfl
  | cons c rest ih => rw [allUnrestricting, ih, List.all_cons]

theorem truths_eq (cs : List Clause) : truths σ cs = cs.map (truth σ) := by
  induction cs with
  | nil => rfl
  | cons c rest ih => rw [truths, ih, List.map_cons]

theorem mem_lowered {cs : List Clause} {e : Expr} :
    e ∈ lowered cs ↔ ∃ c ∈ cs, c.lower = some e := by
  induction cs with
  | nil => simp [lowered]
  | cons c rest ih => simp [lowered, ih]

theorem mem_allFragments {cs : List Clause} {e : Expr} :
    e ∈ allFragments cs ↔ ∃ c ∈ cs, e ∈ c.fragments := by
  induction cs with
  | nil => simp [allFragments]
  | cons c rest ih => simp [allFragments, ih]

theorem allFragments_append (cs ds : List Clause) :
    allFragments (cs ++ ds) = allFragments cs ++ allFragments ds := by
  induction cs with
  | nil => rfl
  | cons c rest ih => rw [List.cons_append, allFragments, allFragments, ih, List.append_assoc]

theorem anyMixed_eq (cs : List Clause) : anyMixed cs = cs.any mixed := by
  induction cs with
  | nil => rfl
  | cons c rest ih => rw [anyMixed, ih, List.any_cons]

/-- The fragments of a tree are those of its conditions: none exactly where a condition restricts
nothing, and none of them joined of others. -/
inductive Faithful : Clause → Prop where
  | leaf {c : Condition} {fragment : Option Expr} : (fragment = none ↔ c.unrestricting = true) →
    (∀ e, fragment = some e → e.isJunction = false) → Faithful (.leaf c fragment)
  | node {k : Combinator} {cs : List Clause} : (∀ c ∈ cs, Faithful c) → Faithful (.node k cs)

/-! ### What is left out -/

theorem joined?_eq_none {k : Combinator} {es : List Expr} : joined? k es = none ↔ es = [] := by
  cases k <;> match es with
  | [] | [_] | _ :: _ :: _ => simp [joined?, Expr.allOf?, Expr.anyOf?]

theorem holds?_joined? {k : Combinator} {es : List Expr} (h : es ≠ []) :
    Expr.holds? σ (joined? k es) = k.holds (es.map (Expr.holds σ)) := by
  match es with
  | [] => exact absurd rfl h
  | [e] => cases k <;> simp [joined?, Expr.allOf?, Expr.anyOf?, Expr.holds?, Combinator.holds]
  | e :: e' :: rest =>
    cases k
    · show Expr.allHold σ (e :: e' :: rest) = _
      rw [Expr.allHold_eq, Combinator.holds, List.all_map]
      rfl
    · show Expr.anyHolds σ (e :: e' :: rest) = _
      rw [Expr.anyHolds_eq, Combinator.holds, List.any_map]
      rfl

theorem node_unrestricting {k : Combinator} {cs : List Clause} :
    (node k cs).unrestricting = true ↔ ∀ c ∈ cs, c.unrestricting = true := by
  rw [unrestricting, allUnrestricting_eq, List.all_eq_true]

/-- Exactly what restricts nothing has no expression. -/
theorem Faithful.lower_eq_none {c : Clause} (h : c.Faithful) :
    c.lower = none ↔ c.unrestricting = true := by
  induction h with
  | leaf hnone _ => exact hnone
  | @node k cs _ ih =>
    rw [lower, joined?_eq_none, node_unrestricting, List.eq_nil_iff_forall_not_mem]
    constructor
    · intro hempty c hc
      by_contra hrestricts
      obtain ⟨e, he⟩ := Option.ne_none_iff_exists'.1 (mt (ih c hc).1 hrestricts)
      exact hempty e (mem_lowered.2 ⟨c, hc, he⟩)
    · intro hall e he
      obtain ⟨c, hc, hlower⟩ := mem_lowered.1 he
      rw [(ih c hc).2 (hall c hc)] at hlower
      exact absurd hlower (by simp)

theorem truth_of_unrestricting {c : Clause} (h : c.unrestricting = true) : c.truth σ = true := by
  cases c with
  | leaf c fragment => rw [truth, show c.unrestricting = true from h, Bool.true_or]
  | node k cs => rw [truth, show allUnrestricting cs = true from h, Bool.true_or]

theorem holds?_iff {e : Option Expr} :
    Expr.holds? σ e = true ↔ ∀ part, e = some part → part.holds σ = true := by
  cases e <;> simp [Expr.holds?]

theorem Faithful.lower_some {c : Clause} (h : c.Faithful) (hrestricts : c.unrestricting = false) :
    ∃ e, c.lower = some e := by
  rw [← Option.ne_none_iff_exists', Ne, h.lower_eq_none, hrestricts]
  simp

theorem Faithful.children {k : Combinator} {cs : List Clause} (h : Faithful (.node k cs)) :
    ∀ c ∈ cs, c.Faithful := by
  cases h with
  | node hcs => exact hcs

/-- Under AND nothing is lost. -/
theorem holds?_and (cs : List Clause) :
    Expr.holds? σ (lower (.node .and cs)) = true ↔ ∀ c ∈ cs, Expr.holds? σ c.lower = true := by
  have hparts : (∀ c ∈ cs, Expr.holds? σ c.lower = true) ↔ ∀ e ∈ lowered cs, e.holds σ = true := by
    simp only [holds?_iff, mem_lowered]
    exact ⟨fun hall e ⟨c, hc, he⟩ => hall c hc e he, fun hall c hc e he => hall e ⟨c, hc, he⟩⟩
  rw [hparts, lower]
  by_cases hempty : lowered cs = []
  · simp [hempty, joined?, Expr.allOf?, Expr.holds?]
  · rw [holds?_joined? σ hempty, Combinator.holds, List.all_map]
    simp

/-- Under OR the parts that restrict nothing are. -/
theorem Faithful.holds?_or {cs : List Clause} (h : Faithful (.node .or cs))
    (hrestricts : unrestricting (.node .or cs) = false) :
    Expr.holds? σ (lower (.node .or cs)) = true ↔
      ∃ c ∈ cs, c.unrestricting = false ∧ Expr.holds? σ c.lower = true := by
  have hempty : lowered cs ≠ [] := by
    obtain ⟨e, he⟩ := h.lower_some hrestricts
    intro hempty
    rw [lower, joined?_eq_none.2 hempty] at he
    simp at he
  rw [lower, holds?_joined? σ hempty, Combinator.holds, List.any_map, List.any_eq_true]
  constructor
  · rintro ⟨e, he, hholds⟩
    obtain ⟨c, hc, hlower⟩ := mem_lowered.1 he
    refine ⟨c, hc, ?_, by simpa [hlower, Expr.holds?] using hholds⟩
    rw [← Bool.not_eq_true, ← (h.children c hc).lower_eq_none, hlower]
    simp
  · rintro ⟨c, hc, hrestricts, hholds⟩
    obtain ⟨e, he⟩ := (h.children c hc).lower_some hrestricts
    exact ⟨e, mem_lowered.2 ⟨c, hc, he⟩, by simpa [he, Expr.holds?] using hholds⟩

/-! ### What the tree says -/

theorem truth_and (cs : List Clause) :
    truth σ (.node .and cs) = true ↔ ∀ c ∈ cs, c.truth σ = true := by
  rw [truth, truths_eq, Combinator.holds, List.all_map, allUnrestricting_eq, Bool.or_eq_true,
    List.all_eq_true, List.all_eq_true]
  constructor
  · rintro (hall | hall) c hc
    · exact truth_of_unrestricting σ (hall c hc)
    · exact hall c hc
  · exact fun hall => .inr hall

theorem truth_or {cs : List Clause} (hrestricts : unrestricting (.node .or cs) = false) :
    truth σ (.node .or cs) = true ↔ ∃ c ∈ cs, c.truth σ = true := by
  rw [truth, truths_eq, Combinator.holds, List.any_map,
    show allUnrestricting cs = false from hrestricts, Bool.false_or, List.any_eq_true]
  rfl

theorem Faithful.leaf_holds {c : Condition} {fragment : Option Expr}
    (h : Faithful (.leaf c fragment)) :
    Expr.holds? σ (lower (.leaf c fragment)) = truth σ (.leaf c fragment) := by
  cases h with
  | leaf hnone hjunction =>
    rw [lower, truth]
    cases fragment with
    | none => simp [Expr.holds?]
    | some e =>
      have hrestricts : c.unrestricting = false := by simpa using hnone
      simp [Expr.holds?, Expr.holds_of_not_junction σ (hjunction e rfl), hrestricts]

/-- What the expression lets through, the tree lets through. -/
theorem Faithful.truth_of_holds? {c : Clause} (h : c.Faithful)
    (hholds : Expr.holds? σ c.lower = true) : c.truth σ = true := by
  induction h with
  | leaf hnone hjunction => rwa [← Faithful.leaf_holds σ (.leaf hnone hjunction)]
  | @node k cs hcs ih =>
    cases hrestricts : unrestricting (.node k cs) with
    | true => exact truth_of_unrestricting σ hrestricts
    | false =>
      cases k with
      | and =>
        rw [holds?_and] at hholds
        exact (truth_and σ cs).2 fun c hc => ih c hc (hholds c hc)
      | or =>
        obtain ⟨c, hc, -, hc'⟩ := (Faithful.holds?_or σ (.node hcs) hrestricts).1 hholds
        exact (truth_or σ hrestricts).2 ⟨c, hc, ih c hc hc'⟩

theorem mixed_node {k : Combinator} {cs : List Clause} (h : mixed (.node k cs) = false) :
    (∀ c ∈ cs, c.mixed = false) ∧
      (k = .or → unrestricting (.node k cs) = false → ∀ c ∈ cs, c.unrestricting = false) := by
  rw [mixed, anyMixed_eq, Bool.or_eq_false_iff] at h
  constructor
  · simpa using h.2
  · rintro rfl hrestricts
    have hall : allUnrestricting cs = false := hrestricts
    simpa [hall] using h.1

/-- Unless an OR is mixed, the expression means what the tree says. -/
theorem Faithful.holds?_eq_truth {c : Clause} (h : c.Faithful) (hmixed : c.mixed = false) :
    Expr.holds? σ c.lower = c.truth σ := by
  induction h with
  | leaf hnone hjunction => exact Faithful.leaf_holds σ (.leaf hnone hjunction)
  | @node k cs hcs ih =>
    obtain ⟨hchildren, hor⟩ := mixed_node hmixed
    rw [Bool.eq_iff_iff]
    refine ⟨Faithful.truth_of_holds? σ (.node hcs), fun htruth => ?_⟩
    cases k with
    | and =>
      rw [truth_and] at htruth
      refine (holds?_and σ cs).2 fun c hc => ?_
      rw [ih c hc (hchildren c hc)]
      exact htruth c hc
    | or =>
      cases hrestricts : unrestricting (.node .or cs) with
      | true =>
        rw [(Faithful.node hcs).lower_eq_none.2 hrestricts]
        rfl
      | false =>
        obtain ⟨c, hc, htrue⟩ := (truth_or σ hrestricts).1 htruth
        refine (Faithful.holds?_or σ (.node hcs) hrestricts).2 ⟨c, hc, hor rfl hrestricts c hc, ?_⟩
        rwa [ih c hc (hchildren c hc)]

/-! ### What a mixed OR loses -/

section Congruence
variable {σ τ : Expr → Bool} {c : Clause}

theorem Faithful.truth_congr (h : c.Faithful) (heq : ∀ e ∈ c.fragments, σ e = τ e) :
    c.truth σ = c.truth τ := by
  induction h with
  | @leaf c fragment _ _ =>
    rw [truth, truth]
    cases fragment with
    | none => rfl
    | some e => simp [heq e (by simp [fragments])]
  | @node k cs _ ih =>
    rw [truth, truth, truths_eq, truths_eq, List.map_congr_left fun c hc =>
      ih c hc fun e he => heq e (mem_allFragments.2 ⟨c, hc, he⟩)]

theorem Faithful.holds?_congr (h : c.Faithful) (heq : ∀ e ∈ c.fragments, σ e = τ e) :
    Expr.holds? σ c.lower = Expr.holds? τ c.lower := by
  induction h with
  | leaf hnone hjunction =>
    rw [Faithful.leaf_holds σ (.leaf hnone hjunction),
      Faithful.leaf_holds τ (.leaf hnone hjunction)]
    exact Faithful.truth_congr (.leaf hnone hjunction) heq
  | @node k cs hcs ih =>
    have hchildren : ∀ c ∈ cs, Expr.holds? σ c.lower = Expr.holds? τ c.lower := fun c hc =>
      ih c hc fun e he => heq e (mem_allFragments.2 ⟨c, hc, he⟩)
    rw [Bool.eq_iff_iff]
    cases k with
    | and =>
      rw [holds?_and, holds?_and]
      exact forall₂_congr fun c hc => by rw [hchildren c hc]
    | or =>
      cases hrestricts : unrestricting (.node .or cs) with
      | true => rw [(Faithful.node hcs).lower_eq_none.2 hrestricts]; rfl
      | false =>
        rw [Faithful.holds?_or σ (.node hcs) hrestricts,
          Faithful.holds?_or τ (.node hcs) hrestricts]
        exact exists_congr fun c => and_congr_right fun hc => by rw [hchildren c hc]

end Congruence

theorem exists_restricting {k : Combinator} {cs : List Clause}
    (h : unrestricting (.node k cs) = false) : ∃ c ∈ cs, c.unrestricting = false := by
  simpa [unrestricting, allUnrestricting_eq] using h

/-- When every fragment is true, so is every tree. -/
theorem Faithful.truth_true {c : Clause} (h : c.Faithful) : c.truth (fun _ => true) = true := by
  induction h with
  | @leaf c fragment _ _ => cases fragment <;> simp [truth]
  | @node k cs _ ih =>
    cases hrestricts : unrestricting (.node k cs) with
    | true => exact truth_of_unrestricting _ hrestricts
    | false =>
      cases k with
      | and => exact (truth_and _ cs).2 ih
      | or =>
        obtain ⟨c, hc, -⟩ := exists_restricting hrestricts
        exact (truth_or _ hrestricts).2 ⟨c, hc, ih c hc⟩

/-- When every fragment is false, so is every expression. -/
theorem Faithful.holds?_false {c : Clause} (h : c.Faithful) (hrestricts : c.unrestricting = false) :
    Expr.holds? (fun _ => false) c.lower = false := by
  induction h with
  | @leaf c fragment hnone hjunction =>
    rw [Faithful.leaf_holds _ (.leaf hnone hjunction), truth,
      show c.unrestricting = false from hrestricts]
    cases fragment with
    | none => exact absurd (hnone.1 rfl) (Bool.not_eq_true _ ▸ hrestricts)
    | some e => rfl
  | @node k cs hcs ih =>
    rw [← Bool.not_eq_true]
    cases k with
    | and =>
      obtain ⟨c, hc, hchild⟩ := exists_restricting hrestricts
      intro hholds
      have hc' := (holds?_and _ cs).1 hholds c hc
      rw [ih c hc hchild] at hc'
      exact absurd hc' (by decide)
    | or =>
      rw [Faithful.holds?_or _ (.node hcs) hrestricts]
      rintro ⟨c, hc, hchild, hholds⟩
      rw [ih c hc hchild] at hholds
      exact absurd hholds (by decide)

theorem Faithful.restricts_of_mixed {c : Clause} (h : c.Faithful) (hmixed : c.mixed = true) :
    c.unrestricting = false := by
  induction h with
  | leaf _ _ => simp [mixed] at hmixed
  | @node k cs _ ih =>
    rw [mixed, anyMixed_eq, Bool.or_eq_true] at hmixed
    rw [← Bool.not_eq_true]
    intro hall
    rcases hmixed with hmixed | hmixed
    · simp [show allUnrestricting cs = true from hall] at hmixed
    · obtain ⟨c, hc, hchild⟩ := List.any_eq_true.1 hmixed
      have hrestricts := ih c hc hchild
      rw [node_unrestricting.1 hall c hc] at hrestricts
      exact absurd hrestricts (by decide)

open Classical in
/-- Truth values of their own for the fragments of one tree. -/
noncomputable def override (c : Clause) (σ τ : Expr → Bool) (e : Expr) : Bool :=
  if e ∈ c.fragments then σ e else τ e

theorem override_own {c : Clause} (σ τ : Expr → Bool) {e : Expr} (h : e ∈ c.fragments) :
    override c σ τ e = σ e :=
  if_pos h

theorem override_other {before after : List Clause} {c d : Clause}
    (hnodup : (allFragments (before ++ c :: after)).Nodup) (hd : d ∈ before ++ after)
    (σ τ : Expr → Bool) {e : Expr} (h : e ∈ d.fragments) : override c σ τ e = τ e := by
  refine if_neg fun hown => ?_
  rw [allFragments_append, allFragments, List.nodup_append, List.nodup_append] at hnodup
  obtain ⟨-, ⟨-, -, hafter⟩, hbefore⟩ := hnodup
  rcases List.mem_append.1 hd with hd | hd
  · exact hbefore e (mem_allFragments.2 ⟨d, hd, h⟩) e (List.mem_append_left _ hown) rfl
  · exact hafter e hown e (mem_allFragments.2 ⟨d, hd, h⟩) rfl

theorem mem_around {before after : List Clause} {c d : Clause} (h : d ∈ before ++ c :: after) :
    d = c ∨ d ∈ before ++ after := by
  simp only [List.mem_append, List.mem_cons] at h ⊢
  tauto

/-- The other trees under a node are given what leaves one of them to decide. -/
theorem Faithful.lost_node {k : Combinator} {before after : List Clause} {c : Clause}
    (h : Faithful (.node k (before ++ c :: after)))
    (hor : k = .or → ∀ d ∈ before ++ after, d.unrestricting = false)
    (hrestricts : unrestricting (.node k (before ++ c :: after)) = false)
    (hnodup : (allFragments (before ++ c :: after)).Nodup) {σ : Expr → Bool}
    (hfalse : Expr.holds? σ c.lower = false) (htrue : c.truth σ = true) :
    ∃ τ, Expr.holds? τ (lower (.node k (before ++ c :: after))) = false ∧
      truth τ (.node k (before ++ c :: after)) = true := by
  have hc : c ∈ before ++ c :: after := by simp
  have hchildren := h.children
  cases k with
  | and =>
    refine ⟨override c σ fun _ => true, ?_, (truth_and _ _).2 fun d hd => ?_⟩
    · rw [← Bool.not_eq_true, holds?_and]
      intro hall
      have hholds := hall c hc
      rw [(hchildren c hc).holds?_congr fun e he => override_own σ _ he, hfalse] at hholds
      exact absurd hholds (by decide)
    · rcases mem_around hd with rfl | hd'
      · rw [(hchildren _ hc).truth_congr fun e he => override_own σ _ he, htrue]
      · rw [(hchildren d hd).truth_congr fun e he => override_other hnodup hd' σ _ he]
        exact (hchildren d hd).truth_true
  | or =>
    refine ⟨override c σ fun _ => false, ?_, (truth_or _ hrestricts).2 ⟨c, hc, ?_⟩⟩
    · rw [← Bool.not_eq_true, h.holds?_or _ hrestricts]
      rintro ⟨d, hd, -, hholds⟩
      rcases mem_around hd with rfl | hd'
      · rw [(hchildren _ hc).holds?_congr fun e he => override_own σ _ he, hfalse] at hholds
        exact absurd hholds (by decide)
      · rw [(hchildren d hd).holds?_congr fun e he => override_other hnodup hd' σ _ he,
          (hchildren d hd).holds?_false (hor rfl d hd')] at hholds
        exact absurd hholds (by decide)
    · rw [(hchildren c hc).truth_congr fun e he => override_own σ _ he, htrue]

/-- Where an OR is mixed, the expression is false of a row of which the tree is true. -/
theorem Faithful.lost {c : Clause} (h : c.Faithful) (hmixed : c.mixed = true)
    (hnodup : c.fragments.Nodup) :
    ∃ σ, Expr.holds? σ c.lower = false ∧ c.truth σ = true := by
  induction h with
  | leaf _ _ => simp [mixed] at hmixed
  | @node k cs hcs ih =>
    have hrestricts := Faithful.restricts_of_mixed (.node hcs) hmixed
    by_cases hhere : k = .or ∧ ∃ c ∈ cs, c.unrestricting = true
    · obtain ⟨rfl, c, hc, hchild⟩ := hhere
      exact ⟨fun _ => false, Faithful.holds?_false (.node hcs) hrestricts,
        (truth_or _ hrestricts).2 ⟨c, hc, truth_of_unrestricting _ hchild⟩⟩
    · obtain ⟨c, hc, hchild⟩ : ∃ c ∈ cs, c.mixed = true := by
        rw [mixed, anyMixed_eq, Bool.or_eq_true] at hmixed
        rcases hmixed with hmixed | hmixed
        · simp only [Bool.and_eq_true, beq_iff_eq, List.any_eq_true] at hmixed
          exact absurd hmixed.1 hhere
        · exact List.any_eq_true.1 hmixed
      obtain ⟨before, after, rfl⟩ := List.append_of_mem hc
      have hown : c.fragments.Nodup := by
        rw [fragments, allFragments_append, allFragments, List.nodup_append,
          List.nodup_append] at hnodup
        exact hnodup.2.1.1
      obtain ⟨σ, hfalse, htrue⟩ := ih c hc hchild hown
      refine Faithful.lost_node (.node hcs) (fun hk d hd => ?_) hrestricts hnodup hfalse htrue
      rw [← Bool.not_eq_true]
      intro hd'
      refine hhere ⟨hk, d, ?_, hd'⟩
      rcases List.mem_append.1 hd with hd | hd
      · exact List.mem_append_left _ hd
      · exact List.mem_append_right _ (List.mem_cons_of_mem _ hd)

end Clause

/-! ### Filters -/

theorem isJunction_test {column t : Expr} {k : Nat} {bound : List Value}
    (h : Test column k t bound) : t.isJunction = false := by
  cases h <;> rfl

theorem unrestricting_of_values (member : String) {c : Comparison} {o : Operand}
    (h : ∀ q, o = .query q → c ≠ .isIn ∧ c ≠ .notIn) :
    c = .notIn ∧ o.values = [] ↔ Condition.unrestricting ⟨member, c, o⟩ = true := by
  cases c with
  | notIn =>
    cases o with
    | query q => exact absurd rfl (h q rfl).2
    | absent | value v | list vs => simp [Condition.unrestricting, Operand.values]
  | _ => simp [Condition.unrestricting]

theorem unrestricting_query {member : String} {c : Comparison} {q : Query} :
    Condition.unrestricting ⟨member, c, .query q⟩ = false := by
  cases c <;> rfl

/-- The only condition without a fragment is that of being outside of no values. -/
theorem conditionExpr_faithful {c : Condition} {fragment : Option Expr}
    (h : conditionExpr s c l n = .ok (fragment, n')) : Clause.Faithful (.leaf c fragment) := by
  obtain ⟨member, comparison, o⟩ := c
  obtain ⟨column, -, ⟨select, hselect, hc, rfl⟩ | ⟨hquery, hcompare⟩⟩ := conditionExpr_ok h
  · refine .leaf ?_ fun e he => Option.some.inj he ▸ rfl
    cases o with
    | query q => simp [unrestricting_query]
    | absent | value v | list vs => exact absurd (operandSelect_ok (by simp) hselect).1 (by simp)
  · obtain ⟨⟨bound, -, htest⟩, hnone⟩ := compare_ok hcompare
    refine .leaf (hnone.trans (unrestricting_of_values _ hquery)) fun e he => ?_
    subst he
    exact isJunction_test htest

mutual

/-- When all conditions compile, the filter does, to its fragments joined as its tree says. -/
theorem clauseOf_ok : ∀ (f : Filter) {l : Layout} {n n' : Numbering} {c : Clause},
    clauseOf s f l n = .ok (c, n') → filterExpr s f l n = .ok (c.lower, n') ∧ c.Faithful
  | .condition condition, _, _, _, _, h => by
    simp only [clauseOf, bind_ok, pure_ok] at h
    obtain ⟨fragment, m, hfragment, rfl, rfl⟩ := h
    exact ⟨hfragment, conditionExpr_faithful hfragment⟩
  | .composite k fs, _, _, _, _, h => by
    simp only [clauseOf, bind_ok, pure_ok] at h
    obtain ⟨cs, m, hcs, rfl, rfl⟩ := h
    obtain ⟨hes, hfaithful⟩ := clausesOf_ok fs hcs
    refine ⟨?_, .node hfaithful⟩
    simp only [filterExpr, bind_ok, pure_ok]
    exact ⟨_, _, hes, by cases k <;> rfl, rfl⟩
termination_by structural f => f

theorem clausesOf_ok : ∀ (fs : List Filter) {l : Layout} {n n' : Numbering} {cs : List Clause},
    clausesOf s fs l n = .ok (cs, n') →
      filterExprs s fs l n = .ok (Clause.lowered cs, n') ∧ ∀ c ∈ cs, c.Faithful
  | [], _, _, _, _, h => by
    obtain ⟨rfl, rfl⟩ := pure_ok.1 h
    exact ⟨rfl, fun _ hc => absurd hc List.not_mem_nil⟩
  | f :: fs, _, _, _, _, h => by
    simp only [clausesOf, bind_ok, pure_ok] at h
    obtain ⟨c, m, hc, rest, m', hrest, rfl, rfl⟩ := h
    obtain ⟨he, hfaithful⟩ := clauseOf_ok f hc
    obtain ⟨hes, hall⟩ := clausesOf_ok fs hrest
    refine ⟨?_, List.forall_mem_cons.2 ⟨hfaithful, hall⟩⟩
    simp only [filterExprs, bind_ok, pure_ok]
    exact ⟨_, _, he, _, _, hes, rfl, rfl⟩
termination_by structural fs => fs

end

/-- **Filters mean what their trees say, but for mixed ORs.** A filter has no expression exactly
when its tree restricts nothing. What its expression lets through its tree lets through, and
unless an OR is mixed the two are true together. A mixed OR loses rows: where no two conditions
share a fragment, some row that the tree lets through is not let through by the expression. -/
theorem filterExpr_truth {f : Filter} {c : Clause} (h : clauseOf s f l n = .ok (c, n')) :
    ∃ e, filterExpr s f l n = .ok (e, n') ∧ (e = none ↔ c.unrestricting = true) ∧
      (∀ σ, Expr.holds? σ e = true → c.truth σ = true) ∧
      (c.mixed = false → ∀ σ, Expr.holds? σ e = c.truth σ) ∧
      (c.mixed = true → c.fragments.Nodup → ∃ σ, Expr.holds? σ e = false ∧ c.truth σ = true) := by
  obtain ⟨he, hfaithful⟩ := clauseOf_ok f h
  exact ⟨c.lower, he, hfaithful.lower_eq_none, fun σ => hfaithful.truth_of_holds? σ,
    fun hmixed σ => hfaithful.holds?_eq_truth σ hmixed, hfaithful.lost⟩

/-- Orders that are none of no orders, or open. These are all orders. -/
def anyOrOpen : Filter := .composite .or [
  .condition ⟨"Id", .notIn, .list []⟩, .condition ⟨"Status", .equal, .value (.text "open")⟩]

def ordersLayout : Layout := ⟨.ofRoot 0, ⟨"T", 0⟩, []⟩

theorem filterExpr_truth_anyOrOpen : ∃ c n',
    clauseOf salesSchema anyOrOpen ordersLayout {} = .ok (c, n') ∧
      ∃ e, filterExpr salesSchema anyOrOpen ordersLayout {} = .ok (e, n') ∧
        c.mixed = true ∧ c.fragments.Nodup ∧
          ∃ σ, Expr.holds? σ e = false ∧ c.truth σ = true := by
  refine ⟨_, _, rfl, ?_⟩
  obtain ⟨e, he, -, -, -, hlost⟩ :=
    filterExpr_truth (s := salesSchema) (f := anyOrOpen) (l := ordersLayout) (n := {}) rfl
  exact ⟨e, he, rfl, List.pairwise_singleton _ _, hlost rfl (List.pairwise_singleton _ _)⟩

/-- An order that is not open is lost, for the condition that restricts nothing is left out. -/
theorem anyOrOpen_loses : ∃ c e n',
    clauseOf salesSchema anyOrOpen ordersLayout {} = .ok (c, n') ∧
      filterExpr salesSchema anyOrOpen ordersLayout {} = .ok (e, n') ∧
        c.truth (fun _ => false) = true ∧ Expr.holds? (fun _ => false) e = false :=
  ⟨_, _, _, rfl, rfl, rfl, rfl⟩

end Plan
end EntityQuery
