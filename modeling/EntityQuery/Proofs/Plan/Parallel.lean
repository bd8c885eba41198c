import EntityQuery.Proofs.Plan.Run
import EntityQuery.Proofs.Query.Alike
import EntityQuery.Proofs.Sql.Renaming

/-! One request compiled twice.

The second time the numbering may stand elsewhere and the values may be others, as long as they
belong to the first ones. The two compilations then go in parallel: both fail with the same error,
or both end well, as many aliases were taken and as many values bound, and what the second returns
is what the first does under a renaming (`Parallel`). Nothing looks at a value but to see whether
it is null or a pattern. -/
namespace EntityQuery.Plan

open Member (Column)
open Sql (Expr Select Renaming)

/-! ### Two numberings -/

/-- What is numbered from `n` on gets the numbers from `n'` on. -/
structure Corresponds (ρ : Renaming) (n n' : Numbering) : Prop where
  tables : ∀ i, ρ.table (n.aliases.tables + i) = some (n'.aliases.tables + i)
  joins : ∀ i, ρ.join (n.aliases.joins + i) = n'.aliases.joins + i
  params : ∀ i, ρ.placeholder (n.params.length + i) = n'.params.length + i

/-- From `n` to `m` as many aliases are taken and as many values bound as from `n'` to `m'`, and
the values belong together. -/
structure Advance (R : Value → Value → Prop) (n m n' m' : Numbering) : Prop where
  tables : ∃ k, m.aliases.tables = n.aliases.tables + k ∧
    m'.aliases.tables = n'.aliases.tables + k
  joins : ∃ k, m.aliases.joins = n.aliases.joins + k ∧ m'.aliases.joins = n'.aliases.joins + k
  bound : ∃ vs ws, List.Forall₂ R vs ws ∧ m.params = n.params ++ vs ∧ m'.params = n'.params ++ ws

section
variable {ρ : Renaming} {R : Value → Value → Prop} {n m k n' m' k' : Numbering}

theorem Advance.refl (R : Value → Value → Prop) (n n' : Numbering) : Advance R n n n' n' :=
  ⟨⟨0, rfl, rfl⟩, ⟨0, rfl, rfl⟩, ⟨[], [], .nil, by simp, by simp⟩⟩

theorem Advance.trans (h : Advance R n m n' m') (h' : Advance R m k m' k') :
    Advance R n k n' k' := by
  obtain ⟨⟨t, ht, ht'⟩, ⟨j, hj, hj'⟩, vs, ws, hvs, hm, hm'⟩ := h
  obtain ⟨⟨t₂, ht₂, ht₂'⟩, ⟨j₂, hj₂, hj₂'⟩, vs₂, ws₂, hvs₂, hk, hk'⟩ := h'
  refine ⟨⟨t + t₂, by omega, by omega⟩, ⟨j + j₂, by omega, by omega⟩, vs ++ vs₂, ws ++ ws₂,
    List.rel_append hvs hvs₂, ?_, ?_⟩
  · rw [hk, hm, List.append_assoc]
  · rw [hk', hm', List.append_assoc]

theorem Corresponds.advance (h : Corresponds ρ n n') (ha : Advance R n m n' m') :
    Corresponds ρ m m' := by
  obtain ⟨⟨t, ht, ht'⟩, ⟨j, hj, hj'⟩, vs, ws, hvs, hm, hm'⟩ := ha
  refine ⟨fun i => ?_, fun i => ?_, fun i => ?_⟩
  · rw [ht, ht', Nat.add_assoc, Nat.add_assoc, h.tables]
  · rw [hj, hj', Nat.add_assoc, Nat.add_assoc, h.joins]
  · rw [hm, hm', List.length_append, List.length_append, ← hvs.length_eq, Nat.add_assoc,
      Nat.add_assoc, h.params]

end

/-! ### Two compilations -/

/-- From numberings that correspond two compilations go alike and advance alike. -/
def Parallel (ρ : Renaming) (R : Value → Value → Prop) {α β : Type} (A : α → β → Prop)
    (x : Compile α) (y : Compile β) : Prop :=
  ∀ n n', Corresponds ρ n n' →
    Except.Alike (fun a b => A a.1 b.1 ∧ Advance R n a.2 n' b.2) (x n) (y n')

variable {ρ : Renaming} {R : Value → Value → Prop}

namespace Parallel
variable {α β γ δ : Type} {A : α → β → Prop} {B : γ → δ → Prop}

theorem pure {a : α} {b : β} (h : A a b) : Parallel ρ R A (pure a) (pure b) :=
  fun n n' _ => .ok ⟨h, .refl R n n'⟩

theorem bind {x : Compile α} {y : Compile β} {f : α → Compile γ} {g : β → Compile δ}
    (h : Parallel ρ R A x y) (hf : ∀ a b, A a b → Parallel ρ R B (f a) (g b)) :
    Parallel ρ R B (x >>= f) (y >>= g) := fun n n' hn =>
  (h n n' hn).bind fun (a, m) (b, m') ⟨hab, ha⟩ =>
    (hf a b hab m m' (hn.advance ha)).mono fun _ _ ⟨hcd, ha'⟩ => ⟨hcd, ha.trans ha'⟩

theorem bind_of_eq {x y : Compile α} {f : α → Compile γ} {g : α → Compile δ}
    (h : Parallel ρ R (fun a b => b = a) x y) (hf : ∀ a, Parallel ρ R B (f a) (g a)) :
    Parallel ρ R B (x >>= f) (y >>= g) :=
  h.bind fun a _ hab => hab ▸ hf a

theorem resolved {x : Except Error α} {y : Except Error β} (h : Except.Alike A x y) :
    Parallel ρ R A (resolved x) (resolved y) :=
  fun n n' _ => h.map fun _ _ hab => ⟨hab, .refl R n n'⟩

theorem mono {A' : α → β → Prop} {x : Compile α} {y : Compile β} (h : Parallel ρ R A x y)
    (hA : ∀ a b, A a b → A' a b) : Parallel ρ R A' x y :=
  fun n n' hn => (h n n' hn).mono fun _ _ ⟨hab, ha⟩ => ⟨hA _ _ hab, ha⟩

/-- A step that reads no number is parallel to itself. -/
theorem same (x : Except Error α) : Parallel ρ R (fun a b : α => b = a) (Plan.resolved x)
    (Plan.resolved x) :=
  resolved (.refl (A := fun a b => b = a) (fun _ => rfl) x)

end Parallel

/-! ### Values -/

theorem param_parallel {v w : Value} (h : R v w) :
    Parallel ρ R (fun e e' => e' = e.renamed ρ []) (param v) (param w) := by
  intro n n' hn
  refine .ok ⟨?_, ⟨⟨0, rfl, rfl⟩, ⟨0, rfl, rfl⟩, [v], [w], .cons h .nil, rfl, rfl⟩⟩
  exact (congrArg Expr.param (hn.params 0)).symm

theorem paramAll_parallel {vs ws : List Value} (h : List.Forall₂ R vs ws) :
    Parallel ρ R (fun es es' => es' = Expr.allRenamed ρ es []) (paramAll vs) (paramAll ws) := by
  induction h with
  | nil => exact .pure rfl
  | cons hvw _ ih =>
    refine (param_parallel hvw).bind fun e e' he => ih.bind fun es es' hes => .pure ?_
    rw [he, hes]
    rfl

theorem firstNonNull?_alike {vs ws : List Value} (hR : ∀ v w, R v w → v.SameKind w)
    (h : List.Forall₂ R vs ws) : Option.Rel R (firstNonNull? vs) (firstNonNull? ws) := by
  cases h with
  | nil => exact .none
  | @cons v w _ _ hvw _ =>
    simp only [firstNonNull?, ← (hR v w hvw).isNull]
    split
    · exact .none
    · exact .some hvw

/-- A column compared with one value, which may be absent. -/
def compareOne (column : Expr) (op : Value → Sql.BinaryOp) (absent : Compile (Option Expr)) :
    Option Value → Compile (Option Expr)
  | none => absent
  | some v => do return some (.binary column (op v) (← param v))

section Tests
variable {column column' : Expr} (hcolumn : column' = column.renamed ρ [])
include hcolumn

theorem membership_parallel {negate : Bool} {vs ws : List Value} (h : List.Forall₂ R vs ws) :
    Parallel ρ R (fun e e' => e' = Expr.renamed? ρ e []) (membership column negate vs)
      (membership column' negate ws) := by
  subst hcolumn
  cases h with
  | nil => exact .pure (by cases negate <;> rfl)
  | cons hvw hrest =>
    cases hrest with
    | nil => exact (param_parallel hvw).bind fun e e' he => .pure (by rw [he]; rfl)
    | cons hvw' hrest =>
      refine (paramAll_parallel (.cons hvw (.cons hvw' hrest))).bind fun es es' hes => .pure ?_
      rw [hes]
      rfl

theorem compareOne_parallel (op : Value → Sql.BinaryOp) {absent absent' : Compile (Option Expr)}
    {v w : Option Value} (hop : ∀ v w, R v w → op v = op w)
    (habsent : Parallel ρ R (fun e e' => e' = Expr.renamed? ρ e []) absent absent')
    (h : Option.Rel R v w) : Parallel ρ R (fun e e' => e' = Expr.renamed? ρ e [])
      (compareOne column op absent v) (compareOne column' op absent' w) := by
  cases h with
  | none => exact habsent
  | some hvw =>
    refine (param_parallel hvw).bind fun e e' he => .pure ?_
    rw [hcolumn, he, hop _ _ hvw]
    rfl

/-- The only looks at values are these: is it null, is it a pattern, how many are there. -/
theorem compare_parallel (member : String) (comparison : Comparison) {vs ws : List Value}
    (hR : ∀ v w, R v w → v.SameKind w) (h : List.Forall₂ R vs ws) :
    Parallel ρ R (fun e e' => e' = Expr.renamed? ρ e []) (compare column member comparison vs)
      (compare column' member comparison ws) := by
  have hfirst := firstNonNull?_alike hR h
  have hop : ∀ v w, R v w → equalityOp v = equalityOp w := fun v w hvw => by
    rw [equalityOp, equalityOp, (hR v w hvw).isPattern]
  have hnull : ∀ negate, Parallel ρ R (fun e e' => e' = Expr.renamed? ρ e [])
      (pure (some (.isNull column negate))) (pure (some (.isNull column' negate))) :=
    fun negate => .pure (by rw [hcolumn]; rfl)
  have hraise : ∀ cause, Parallel ρ R (fun e e' => e' = Expr.renamed? ρ e [])
      (resolved (Error.raise cause)) (resolved (Error.raise cause)) :=
    fun cause => .resolved (.error _)
  cases comparison with
  | equal | like => exact compareOne_parallel hcolumn _ hop (hnull false) hfirst
  | notEqual =>
    exact compareOne_parallel hcolumn (fun _ => .ne) (fun _ _ _ => rfl) (hnull true) hfirst
  | greater | greaterOrEqual | less | lessOrEqual =>
    exact compareOne_parallel hcolumn (fun _ => (orderOp? _).getD .le) (fun _ _ _ => rfl)
      (hraise _) hfirst
  | isIn | notIn => exact membership_parallel hcolumn h
  | between =>
    cases h with
    | nil => exact hraise _
    | cons hlow hrest =>
      cases hrest with
      | nil => exact hraise _
      | cons hhigh hrest =>
        cases hrest with
        | nil =>
          refine (param_parallel hlow).bind fun low low' hlow => (param_parallel hhigh).bind
            fun high high' hhigh => .pure ?_
          rw [hcolumn, hlow, hhigh]
          rfl
        | cons _ hrest =>
          simp only [compare, List.length_cons, hrest.length_eq]
          exact hraise _

end Tests

/-! ### Writes

The statements that write take aliases for queries in their filters only, and their placeholders
have the same numbers on both sides. -/

section Writes
variable {e : Entity} {row row' : OrderedMap Write} (hρ : ∀ k, ρ.placeholder k = k)
include hρ

theorem param_parallel_same {v w : Value} (h : R v w) :
    Parallel ρ R (fun e e' : Expr => e' = e) (param v) (param w) := by
  intro n n' hn
  have hlength := hn.params 0
  rw [hρ] at hlength
  exact .ok ⟨congrArg Expr.param hlength.symm,
    ⟨⟨0, rfl, rfl⟩, ⟨0, rfl, rfl⟩, [v], [w], .cons h .nil, rfl, rfl⟩⟩

variable (hR : ∀ v w, R v w → v.SameKind w)
include hR

theorem writeValue_parallel {w w' : Write} (h : w.Alike R w') :
    Parallel ρ R (fun e e' : Expr => e' = e) (writeValue e w) (writeValue e w') := by
  cases h with
  | @set v v' hv =>
    simp only [writeValue, ← (hR v v' hv).isNull]
    split
    · exact .pure rfl
    · exact param_parallel_same hρ hv
  | arithmetic hv =>
    exact (param_parallel_same hρ hv).bind_of_eq fun _ => .pure rfl

theorem assignmentsOf_parallel (h : OrderedMap.WritesAlike R row row') (byKey : Bool)
    (members : List String) :
    Parallel ρ R (fun as as' : List Sql.Assignment => as' = as)
      (assignmentsOf e row byKey members) (assignmentsOf e row' byKey members) := by
  induction members with
  | nil => exact .pure rfl
  | cons member rest ih =>
    unfold assignmentsOf
    have hwrite := h.named? member
    revert hwrite
    generalize OrderedMap.named? row member = w
    generalize OrderedMap.named? row' member = w'
    rintro (hwrite | _)
    · cases e.property? member with
      | none => exact .resolved (.error _)
      | some p =>
        simp only
        split
        · exact ih
        · exact (writeValue_parallel hρ hR hwrite).bind_of_eq fun value =>
            ih.bind_of_eq fun as => .pure rfl
    · exact ih

theorem keyCondition_parallel (h : OrderedMap.WritesAlike R row row') (key : Property) :
    Parallel ρ R (fun e e' : Expr => e' = e) (keyCondition e row key)
      (keyCondition e row' key) := by
  have hraise : ∀ cause, Parallel ρ R (fun e e' : Expr => e' = e) (resolved (Error.raise cause))
      (resolved (Error.raise cause)) := fun cause => .resolved (.error _)
  unfold keyCondition
  have hwrite := h.named? key.name
  revert hwrite
  generalize OrderedMap.named? row key.name = w
  generalize OrderedMap.named? row' key.name = w'
  rintro (hwrite | _)
  · cases hwrite with
    | @set v v' hv =>
      simp only [← (hR v v' hv).isNull]
      split
      · exact hraise _
      · exact (param_parallel_same hρ hv).bind_of_eq fun _ => .pure rfl
    | arithmetic _ => exact hraise _
  · exact hraise _

theorem keysExpr_parallel (h : OrderedMap.WritesAlike R row row') :
    Parallel ρ R (fun e e' : Option Expr => e' = e) (keysExpr e row) (keysExpr e row') := by
  have hkeys : ∀ keys : List Property, Parallel ρ R (fun es es' : List Expr => es' = es)
      (keys.mapM (keyCondition e row)) (keys.mapM (keyCondition e row')) := fun keys => by
    induction keys with
    | nil => exact .pure rfl
    | cons key rest ih =>
      rw [List.mapM_cons, List.mapM_cons]
      exact (keyCondition_parallel hρ hR h key).bind_of_eq fun condition =>
        ih.bind_of_eq fun es => .pure rfl
  refine (hkeys e.keys).bind_of_eq fun es => ?_
  split
  · exact .resolved (.error _)
  · exact .pure rfl

end Writes

end EntityQuery.Plan
