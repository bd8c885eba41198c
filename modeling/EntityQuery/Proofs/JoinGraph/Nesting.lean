import EntityQuery.JoinGraph.Nesting
import EntityQuery.Proofs.JoinGraph.Tree

/-! Flipped joins.

With no join flipped, `isLeft` and `isNested` say how joins are declared. A join is flipped when it
is required and nested as declared: what was flipped before it stands below a LEFT join already, so
it nests nothing more. -/
namespace EntityQuery.JoinGraph

variable {g : JoinGraph} {flipped needed : List Nat} {j : Nat}

/-- A scope on the way to which there is a join declared LEFT. -/
def underLeft (g : JoinGraph) (scope : Nat) : Bool := (g.rootPath scope).any (g.isLeft [])

@[simp] theorem underLeft_zero (g : JoinGraph) : g.underLeft 0 = false := by
  rw [underLeft, rootPath_zero, List.any_nil]

theorem Rooted.underLeft_succ (hg : g.Rooted) (hj : j < g.joins.length) :
    g.underLeft (j + 1) = (g.underLeft (g.parent j) || g.isLeft [] j) := by
  rw [underLeft, hg.rootPath_succ hj, List.any_append, List.any_cons, List.any_nil, Bool.or_false]
  rfl

theorem isNested_declared : g.isNested [] j = (!g.isLeft [] j && g.underLeft (g.parent j)) := rfl

theorem isLeft_iff : g.isLeft flipped j = true ↔ j ∈ flipped ∨ g.isLeft [] j = true := by
  simp [isLeft]

/-- The way to a scope under a nested join passes a join that is declared LEFT. -/
theorem Rooted.underLeft_of_nested (hg : g.Rooted) {scope k : Nat} (hk : k ∈ g.rootPath scope)
    (hnested : g.isNested [] k = true) : g.underLeft scope = true := by
  rw [isNested_declared, Bool.and_eq_true] at hnested
  obtain ⟨i, hi, hleft⟩ := List.any_eq_true.1 hnested.2
  have hpre := hg.rootPath_prefix hk
  rw [hg.rootPath_succ (hg.mem_rootPath_lt hk).2] at hpre
  exact List.any_eq_true.2 ⟨i, hpre.subset (List.mem_append_left _ hi), hleft⟩

/-- Joins that are nested as declared make no other join nested. -/
theorem Rooted.isNested_iff (hg : g.Rooted) (hflipped : ∀ k ∈ flipped, g.isNested [] k = true) :
    g.isNested flipped j = true ↔ j ∉ flipped ∧ g.isNested [] j = true := by
  have hway : (g.rootPath (g.parent j)).any (g.isLeft flipped) = true ↔
      g.underLeft (g.parent j) = true := by
    constructor
    · intro h
      obtain ⟨k, hk, hleft⟩ := List.any_eq_true.1 h
      rcases isLeft_iff.1 hleft with hmem | hdeclared
      · exact hg.underLeft_of_nested hk (hflipped k hmem)
      · exact List.any_eq_true.2 ⟨k, hk, hdeclared⟩
    · intro h
      obtain ⟨k, hk, hdeclared⟩ := List.any_eq_true.1 h
      exact List.any_eq_true.2 ⟨k, hk, isLeft_iff.2 (.inr hdeclared)⟩
  rw [isNested, isNested_declared, Bool.and_eq_true, Bool.and_eq_true, hway, Bool.not_eq_true',
    Bool.not_eq_true', ← Bool.not_eq_true, isLeft_iff, not_or, and_assoc, Bool.not_eq_true]

theorem Rooted.mem_flipStep (hg : g.Rooted) (hflipped : ∀ k ∈ flipped, g.isNested [] k = true)
    {k : Nat} : k ∈ g.flipStep flipped j ↔ k ∈ flipped ∨ k = j ∧ g.isNested [] k = true := by
  rw [flipStep]
  by_cases hnested : g.isNested flipped j = true
  · have hdeclared := ((hg.isNested_iff hflipped).1 hnested).2
    rw [if_pos hnested, List.mem_append, List.mem_singleton]
    exact or_congr_right ⟨fun h => ⟨h, h ▸ hdeclared⟩, fun h => h.1⟩
  · rw [if_neg hnested]
    refine ⟨.inl, ?_⟩
    rintro (hmem | ⟨rfl, hdeclared⟩)
    · exact hmem
    · by_cases hmem : k ∈ flipped
      · exact hmem
      · exact absurd ((hg.isNested_iff hflipped).2 ⟨hmem, hdeclared⟩) hnested

/-- **The flipped joins** are the required ones that are nested as declared. -/
theorem Rooted.mem_flipNested (hg : g.Rooted) :
    j ∈ g.flipNested [] needed ↔ j ∈ needed ∧ g.isNested [] j = true := by
  have hfold : ∀ {flipped}, (∀ k ∈ flipped, g.isNested [] k = true) →
      (j ∈ g.flipNested flipped needed ↔
        j ∈ flipped ∨ j ∈ needed ∧ g.isNested [] j = true) := by
    induction needed with
    | nil => simp [flipNested]
    | cons k rest ih =>
      intro flipped hflipped
      have hstep := fun i => hg.mem_flipStep hflipped (j := k) (k := i)
      rw [flipNested, List.foldl_cons, ← flipNested, ih fun i hi =>
        ((hstep i).1 hi).elim (hflipped i) fun h => h.2, hstep, List.mem_cons, or_and_right,
        or_assoc]
  rw [hfold (by simp)]
  simp

/-- They come in the order of the required ones. -/
theorem Rooted.flipNested_eq_filter (hg : g.Rooted) (hnodup : needed.Nodup) :
    g.flipNested [] needed = needed.filter (g.isNested []) := by
  have hfold : ∀ {flipped}, (∀ k ∈ flipped, g.isNested [] k = true) → (∀ j ∈ needed, j ∉ flipped) →
      g.flipNested flipped needed = flipped ++ needed.filter (g.isNested []) := by
    induction needed with
    | nil => simp [flipNested]
    | cons j rest ih =>
      intro flipped hflipped hnew
      obtain ⟨hj, hrest⟩ := List.nodup_cons.1 hnodup
      obtain ⟨hjnew, hrestnew⟩ := List.forall_mem_cons.1 hnew
      rw [flipNested, List.foldl_cons, ← flipNested, flipStep]
      by_cases hnested : g.isNested [] j = true
      · rw [if_pos ((hg.isNested_iff hflipped).2 ⟨hjnew, hnested⟩), List.filter_cons_of_pos hnested,
          ih hrest, List.append_assoc, List.singleton_append]
        · intro k hk
          rcases List.mem_append.1 hk with hk | hk
          · exact hflipped k hk
          · exact List.mem_singleton.1 hk ▸ hnested
        · intro k hk hmem
          rcases List.mem_append.1 hmem with hmem | hmem
          · exact hrestnew k hk hmem
          · exact hj (List.mem_singleton.1 hmem ▸ hk)
      · rw [if_neg fun h => hnested ((hg.isNested_iff hflipped).1 h).2,
          List.filter_cons_of_neg hnested, ih hrest hflipped hrestnew]
  exact hfold (fun k hk => absurd hk List.not_mem_nil) fun j _ => List.not_mem_nil

/-- Where all nested joins are flipped there is nothing left to flip. -/
theorem Rooted.flipNested_flipped (hg : g.Rooted) :
    g.flipNested (g.flipNested [] needed) needed = g.flipNested [] needed := by
  have hflipped := fun k (hk : k ∈ g.flipNested [] needed) => (hg.mem_flipNested.1 hk).2
  have hdone : ∀ j ∈ needed, g.flipStep (g.flipNested [] needed) j = g.flipNested [] needed := by
    intro j hj
    refine if_neg fun hnested => ?_
    obtain ⟨hnew, hdeclared⟩ := (hg.isNested_iff hflipped).1 hnested
    exact hnew (hg.mem_flipNested.2 ⟨hj, hdeclared⟩)
  refine List.foldlRecOn (motive := (· = g.flipNested [] needed)) needed g.flipStep rfl ?_
  rintro _ rfl j hj
  exact hdone j hj

theorem mem_demands {child : Nat} :
    child ∈ g.demands flipped j ↔ child ∈ flipped ∧ g.parent child = j + 1 := by
  simp [demands]

/-- A required join is made with LEFT when it or a join on the way to it is declared so. -/
theorem Rooted.isLeft_flipNested (hg : g.Rooted) (hj : j < g.joins.length) (hmem : j ∈ needed) :
    g.isLeft (g.flipNested [] needed) j = g.underLeft (j + 1) := by
  rw [hg.underLeft_succ hj, Bool.eq_iff_iff, isLeft_iff, hg.mem_flipNested, isNested_declared]
  cases g.isLeft [] j <;> simp [hmem]

end EntityQuery.JoinGraph
