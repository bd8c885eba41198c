import EntityQuery.Proofs.JoinGraph.Tree

/-! The required joins below a scope.

A join is required together with all joins on the way to it (`Closed`), so leaving out what is not
required leaves out whole branches, and the order of the required joins is again that of a tree. -/
namespace EntityQuery.JoinGraph

variable {g : JoinGraph} {needed : List Nat}

/-- The required joins that hang off a scope. -/
def branches (g : JoinGraph) (needed : List Nat) (scope : Nat) : List Nat :=
  (g.children scope).filter needed.contains

/-- The required joins below a scope, depth first, down to `depth` levels. -/
def descend (g : JoinGraph) (needed : List Nat) : Nat → Nat → List Nat
  | 0, _ => []
  | depth + 1, scope =>
    (g.branches needed scope).flatMap fun j => j :: g.descend needed depth (j + 1)

theorem mem_branches {scope j : Nat} :
    j ∈ g.branches needed scope ↔ (j < g.joins.length ∧ g.parent j = scope) ∧ j ∈ needed := by
  rw [branches, List.mem_filter, mem_children, List.contains_iff_mem]

/-- With a join all joins on the way to it are required. -/
def Closed (g : JoinGraph) (needed : List Nat) : Prop :=
  ∀ j ∈ needed, g.rootPath (j + 1) ⊆ needed

theorem Rooted.closed_joinsTo (hg : g.Rooted) (scopes : List Nat) :
    g.Closed (g.joinsTo scopes) := by
  intro j hj i hi
  obtain ⟨scope, hscope, hway⟩ := hg.mem_joinsTo.1 hj
  exact hg.mem_joinsTo.2 ⟨scope, hscope, (hg.rootPath_prefix hway).subset hi⟩

theorem Rooted.filter_below (hg : g.Rooted) (hclosed : g.Closed needed) (depth scope : Nat) :
    (g.below depth scope).filter needed.contains = g.descend needed depth scope := by
  induction depth generalizing scope with
  | zero => rfl
  | succ depth ih =>
    rw [below, descend, branches, List.filter_flatMap]
    induction g.children scope with
    | nil => rfl
    | cons c rest ihrest =>
      rw [List.flatMap_cons, ihrest]
      by_cases hc : c ∈ needed
      · have hcontains : needed.contains c = true := List.contains_iff_mem.2 hc
        rw [List.filter_cons_of_pos hcontains, List.filter_cons_of_pos hcontains, ih,
          List.flatMap_cons]
      · have hcontains : ¬ needed.contains c = true := mt List.contains_iff_mem.1 hc
        have hbelow : (g.below depth (c + 1)).filter needed.contains = [] := by
          -- What is required below a join would require the join.
          refine List.filter_eq_nil_iff.2 fun k hk hmem => hc ?_
          obtain ⟨-, d, hd, hpre⟩ := hg.mem_below hk
          obtain ⟨hdlen, hparent⟩ := mem_children.1 hd
          have hclen : c < g.joins.length := by
            have hle := hg d
            omega
          refine hclosed k (List.contains_iff_mem.1 hmem) (hpre.subset ?_)
          rw [hg.rootPath_succ hdlen, hparent]
          exact List.mem_append_left _ (hg.mem_rootPath_self hclen)
        rw [List.filter_cons_of_neg hcontains, List.filter_cons_of_neg hcontains, hbelow,
          List.nil_append]

theorem Rooted.joinsTo_eq_descend (hg : g.Rooted) (scopes : List Nat) :
    g.joinsTo scopes = g.descend (g.joinsTo scopes) g.joins.length 0 := by
  rw [← hg.filter_below (hg.closed_joinsTo scopes)]
  refine List.filter_congr fun j hj => ?_
  rw [Bool.eq_iff_iff, List.contains_iff_mem, joinsTo, List.mem_filter, and_iff_right hj]

theorem Rooted.nodup_descend (hg : g.Rooted) (hclosed : g.Closed needed) (depth scope : Nat) :
    (g.descend needed depth scope).Nodup := by
  have hbelow : (g.below depth scope).Nodup := by
    refine List.Pairwise.imp_of_mem ?_ (hg.pairwise_below depth scope)
    rintro a b ha - hnot rfl
    exact hnot (hg.mem_rootPath_self (hg.mem_below ha).1)
  rw [← hg.filter_below hclosed]
  exact hbelow.filter _

/-- What is below a scope comes behind it. -/
theorem Rooted.mem_descend (hg : g.Rooted) {depth scope j : Nat}
    (hj : j ∈ g.descend needed depth scope) :
    scope ≤ j ∧ j < g.joins.length ∧ j ∈ needed := by
  induction depth generalizing scope with
  | zero => exact absurd hj List.not_mem_nil
  | succ depth ih =>
    obtain ⟨c, hc, hmem⟩ := List.mem_flatMap.1 hj
    obtain ⟨⟨hlen, rfl⟩, hneeded⟩ := mem_branches.1 hc
    rcases List.mem_cons.1 hmem with rfl | hmem
    · exact ⟨hg j, hlen, hneeded⟩
    · have hle := hg c
      obtain ⟨hscope, hrest⟩ := ih hmem
      exact ⟨by omega, hrest⟩

/-- What is below a scope hangs off it or off something below it. -/
theorem parent_descend {depth scope j : Nat} (hj : j ∈ g.descend needed depth scope) :
    g.parent j = scope ∨ ∃ k ∈ g.descend needed depth scope, g.parent j = k + 1 := by
  induction depth generalizing scope with
  | zero => exact absurd hj List.not_mem_nil
  | succ depth ih =>
    obtain ⟨c, hc, hmem⟩ := List.mem_flatMap.1 hj
    rcases List.mem_cons.1 hmem with rfl | hmem
    · exact .inl (mem_branches.1 hc).1.2
    · rcases ih hmem with hp | ⟨k, hk, hp⟩
      · exact .inr ⟨c, List.mem_flatMap.2 ⟨c, hc, List.mem_cons_self ..⟩, hp⟩
      · exact .inr ⟨k, List.mem_flatMap.2 ⟨c, hc, List.mem_cons_of_mem _ hk⟩, hp⟩

/-- What is below a join hangs off its scope or off something below that. -/
theorem parent_below {depth c j : Nat} (hj : j ∈ g.descend needed depth (c + 1)) :
    ∃ k ∈ c :: g.descend needed depth (c + 1), g.parent j = k + 1 := by
  rcases parent_descend hj with hparent | ⟨k, hk, hparent⟩
  · exact ⟨c, List.mem_cons_self .., hparent⟩
  · exact ⟨k, List.mem_cons_of_mem _ hk, hparent⟩

/-- A join stands once among what is below it. -/
theorem Rooted.nodup_block (hg : g.Rooted) (hclosed : g.Closed needed) (depth c : Nat) :
    (c :: g.descend needed depth (c + 1)).Nodup := by
  refine List.nodup_cons.2 ⟨fun hmem => ?_, hg.nodup_descend hclosed depth (c + 1)⟩
  have hle := (hg.mem_descend hmem).1
  omega

end EntityQuery.JoinGraph
