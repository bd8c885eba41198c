import EntityQuery.Proofs.JoinGraph.Expansion

/-! Flipped joins against declared ones.

What a row has for a join answers to what it has above (`Answered`): a row that the one above
meets, or none when there is none to meet. So a flipped join is found exactly below rows that have
a match with a row for each join flipped below that (`nested_found`), while the join above has only
asked for a match. Where every flipped join is found below every row, nothing is lost or made up by
the flip, and the rows are those of the joins as they are declared (`expand_flipped`). -/
namespace EntityQuery.JoinGraph

open Sql (orAbsent)

variable {g : JoinGraph} {needed : List Nat} {ρ : Type} {T : Tables ρ}

/-! ### Kinds and matches -/

theorem kind_declared (g : JoinGraph) (j : Nat) :
    g.kind [] j = if g.isLeft [] j then .left else .inner := rfl

theorem Rooted.kind_flipNested (hg : g.Rooted) {j : Nat} (hj : j < g.joins.length)
    (hmem : j ∈ needed) :
    g.kind (g.flipNested [] needed) j = if g.underLeft (j + 1) then .left else .inner := by
  rw [kind, hg.isLeft_flipNested hj hmem]

/-- A flipped join is made with LEFT, and any other as it is declared. -/
theorem Rooted.kind_eq (hg : g.Rooted) {j : Nat} (hj : j < g.joins.length) (hmem : j ∈ needed) :
    g.kind (g.flipNested [] needed) j = if g.isNested [] j then .left else g.kind [] j := by
  rw [hg.kind_flipNested hj hmem, hg.underLeft_succ hj, kind_declared, isNested_declared]
  cases g.isLeft [] j <;> cases g.underLeft (g.parent j) <;> rfl

theorem meets_declared (j : Nat) (r t : ρ) : g.meets T [] j r t = T.connects j r t := by
  simp [meets, demands]

theorem Rooted.meets_flipNested (hg : g.Rooted) {j : Nat} {r t : ρ} :
    g.meets T (g.flipNested [] needed) j r t = true ↔ T.connects j r t = true ∧
      ∀ child ∈ needed, g.parent child = j + 1 → g.isNested [] child = true →
        ∃ u ∈ T.rows child, T.connects child t u = true := by
  rw [meets, Bool.and_eq_true, List.all_eq_true]
  refine and_congr_right fun _ => ⟨fun h child hmem hparent hnested => ?_, fun h child hchild => ?_⟩
  · have hdemand := mem_demands.2 ⟨hg.mem_flipNested.2 ⟨hmem, hnested⟩, hparent⟩
    exact List.any_eq_true.1 (h child hdemand)
  · obtain ⟨hflipped, hparent⟩ := mem_demands.1 hchild
    obtain ⟨hmem, hnested⟩ := hg.mem_flipNested.1 hflipped
    exact List.any_eq_true.2 (h child hmem hparent hnested)

/-- A match of a join that stands below no LEFT join is asked for nothing besides. -/
theorem Rooted.meets_outside (hg : g.Rooted) {j : Nat} (hout : g.underLeft (j + 1) = false)
    (r t : ρ) : g.meets T (g.flipNested [] needed) j r t = T.connects j r t := by
  rw [Bool.eq_iff_iff, hg.meets_flipNested]
  refine and_iff_left fun child _ hparent hnested => ?_
  rw [isNested_declared, hparent, hout, Bool.and_false] at hnested
  exact absurd hnested (by decide)

/-! ### What a row has for a join -/

/-- What a row has for a join answers to what it has above. -/
structure Answered (g : JoinGraph) (T : Tables ρ) (flipped : List Nat) (f : JoinedRow ρ) (j : Nat) :
    Prop where
  found : ∀ t, rowAt f (j + 1) = some t →
    ∃ r, rowAt f (g.parent j) = some r ∧ t ∈ T.rows j ∧ g.meets T flipped j r t = true
  empty : ∀ r, rowAt f (g.parent j) = some r → rowAt f (j + 1) = none →
    ∀ t ∈ T.rows j, g.meets T flipped j r t = false

theorem Answered.congr {flipped : List Nat} {f f' : JoinedRow ρ} {j : Nat}
    (h : g.Answered T flipped f j) (hparent : rowAt f' (g.parent j) = rowAt f (g.parent j))
    (hown : rowAt f' (j + 1) = rowAt f (j + 1)) : g.Answered T flipped f' j := by
  refine ⟨?_, ?_⟩
  · rw [hparent, hown]
    exact h.found
  · rw [hparent, hown]
    exact h.empty

theorem Answered.of_empty {flipped : List Nat} {f : JoinedRow ρ} {j : Nat}
    (hparent : rowAt f (g.parent j) = none) (hown : rowAt f (j + 1) = none) :
    g.Answered T flipped f j :=
  ⟨fun _ ht => absurd (hown.symm.trans ht) (by simp),
    fun _ hr => absurd (hparent.symm.trans hr) (by simp)⟩

section Rows
variable (hg : g.Rooted)
include hg

/-- Below a LEFT join a row is never lost. -/
theorem Rooted.expand_ne_nil {scope : Nat} (hunder : g.underLeft scope = true) (depth : Nat)
    (r : ρ) : g.expand needed T (g.flipNested [] needed) depth scope r ≠ [] := by
  cases depth with
  | zero => simp [expand]
  | succ depth =>
    refine product_ne_nil.2 fun rows hrows => ?_
    obtain ⟨j, hj, rfl⟩ := List.mem_map.1 hrows
    obtain ⟨⟨hlen, rfl⟩, hmem⟩ := mem_branches.1 hj
    rw [hg.kind_flipNested hlen hmem, hg.underLeft_succ hlen, hunder, Bool.true_or, if_pos rfl]
    exact Sql.orAbsent_left_ne_nil

/-- A join that has a match finds it: the match is not lost below. -/
theorem Rooted.branchRows_of_meets (depth : Nat) {c : Nat} {r t : ρ}
    (hlen : c < g.joins.length) (hmem : c ∈ needed) (ht : t ∈ T.rows c)
    (hmeets : g.meets T (g.flipNested [] needed) c r t = true) :
    g.branchRows needed T (g.flipNested [] needed) depth c r =
      g.finds T (g.flipNested [] needed)
        (g.expand needed T (g.flipNested [] needed) depth (c + 1)) c r := by
  rw [branchRows, hg.kind_flipNested hlen hmem]
  by_cases hunder : g.underLeft (c + 1) = true
  · exact Sql.orAbsent_of_ne_nil fun hnone =>
      hg.expand_ne_nil hunder depth t (finds_eq_nil.1 hnone t ht hmeets)
  · rw [if_neg hunder]
    exact if_neg (by simp)

/-- A row of one branch answers to the row above it. -/
theorem Rooted.answered_branch {depth scope c : Nat} {r : ρ} {x f : JoinedRow ρ}
    (hc : c ∈ g.branches needed scope)
    (hx : x ∈ g.branchRows needed T (g.flipNested [] needed) depth c r)
    (hparent : rowAt f scope = some r) (hown : rowAt f (c + 1) = rowAt x (c + 1)) :
    g.Answered T (g.flipNested [] needed) f c := by
  obtain ⟨⟨hlen, rfl⟩, hmem⟩ := mem_branches.1 hc
  rcases Sql.mem_orAbsent hx with hfound | ⟨hkind, hnone, rfl⟩
  · obtain ⟨t, ht, hmeets, f', -, rfl⟩ := mem_finds.1 hfound
    rw [rowAt_cons_self] at hown
    refine ⟨fun t' ht' => ⟨r, hparent, ?_⟩, fun _ _ hempty => ?_⟩
    · obtain rfl := Option.some.inj (hown.symm.trans ht')
      exact ⟨ht, hmeets⟩
    · exact absurd (hown.symm.trans hempty) (by simp)
  · rw [rowAt_absence] at hown
    refine ⟨fun t ht => absurd (hown.symm.trans ht) (by simp), fun r' hr' _ t ht => ?_⟩
    obtain rfl := Option.some.inj (hparent.symm.trans hr')
    have hunder : g.underLeft (c + 1) = true := by
      by_contra hout
      rw [hg.kind_flipNested hlen hmem, if_neg hout] at hkind
      exact absurd hkind (by decide)
    rw [← Bool.not_eq_true]
    exact fun hmeets => hg.expand_ne_nil hunder depth t (finds_eq_nil.1 hnone t ht hmeets)

variable (hclosed : g.Closed needed)
include hclosed

/-- What a row has for any join below answers to what it has above. -/
theorem Rooted.answered {depth scope : Nat} {r : ρ} {f : JoinedRow ρ}
    (hf : f ∈ g.expand needed T (g.flipNested [] needed) depth scope r) :
    ∀ j ∈ g.descend needed depth scope,
      g.Answered T (g.flipNested [] needed) ((scope, some r) :: f) j := by
  induction depth generalizing scope r f with
  | zero => exact fun j hj => absurd hj List.not_mem_nil
  | succ depth ih =>
    intro j hj
    obtain ⟨c, hc, hj⟩ := List.mem_flatMap.1 hj
    obtain ⟨x, hx, hrow⟩ := hg.branch_of_expand hclosed hc hf
    have hown := hrow j hj
    rcases List.mem_cons.1 hj with rfl | hbelow
    · exact hg.answered_branch hc hx (rowAt_cons_self ..) hown
    · obtain ⟨k, hk, hparent⟩ := parent_below hbelow
      have habove := hrow k hk
      rw [← hparent] at habove
      rcases Sql.mem_orAbsent hx with hfound | ⟨-, -, rfl⟩
      · obtain ⟨t, -, -, f', hf', rfl⟩ := mem_finds.1 hfound
        exact (ih hf' j hbelow).congr habove hown
      · rw [rowAt_absence] at habove hown
        exact .of_empty habove hown

/-- **A flipped join is found** exactly below a row with a match that has a row for each join
flipped below it. That a match is there at all is what the join above has asked for. -/
theorem Rooted.nested_found {depth : Nat} {r p : ρ} {f : JoinedRow ρ} {j : Nat}
    (hf : f ∈ g.expand needed T (g.flipNested [] needed) depth 0 r)
    (hj : j ∈ g.descend needed depth 0) (hnested : g.isNested [] j = true)
    (hp : rowAt ((0, some r) :: f) (g.parent j) = some p) :
    (∃ t ∈ T.rows j, T.connects j p t = true) ∧
      ((rowAt ((0, some r) :: f) (j + 1)).isSome = true ↔
        ∃ t ∈ T.rows j, g.meets T (g.flipNested [] needed) j p t = true) := by
  have hanswered := hg.answered hclosed hf
  refine ⟨?_, ?_⟩
  · rcases parent_descend hj with hroot | ⟨k, hk, hparent⟩
    · rw [isNested_declared, hroot, underLeft_zero, Bool.and_false] at hnested
      exact absurd hnested (by decide)
    · rw [hparent] at hp
      obtain ⟨_, -, -, hmeets⟩ := (hanswered k hk).found p hp
      exact (hg.meets_flipNested.1 hmeets).2 j (hg.mem_descend hj).2.2 hparent hnested
  · constructor
    · intro hsome
      obtain ⟨t, ht⟩ := Option.isSome_iff_exists.1 hsome
      obtain ⟨p', hp', hrow, hmeets⟩ := (hanswered j hj).found t ht
      obtain rfl := Option.some.inj (hp.symm.trans hp')
      exact ⟨t, hrow, hmeets⟩
    · rintro ⟨t, ht, hmeets⟩
      rw [Option.isSome_iff_ne_none]
      intro hempty
      exact absurd hmeets (by simp [(hanswered j hj).empty p hp hempty t ht])

end Rows

/-! ### Joins as they are declared -/

/-- A row with a nested inner join that finds nothing is lost. -/
theorem Rooted.expand_declared_eq_nil (hg : g.Rooted) {depth scope c : Nat} {r : ρ}
    (hdeep : g.joins.length ≤ scope + depth) (hc : c ∈ g.branches needed scope)
    (hinner : g.isLeft [] c = false) (hnone : ∀ u ∈ T.rows c, T.connects c r u = false) :
    g.expand needed T [] depth scope r = [] := by
  obtain ⟨⟨hlen, rfl⟩, -⟩ := mem_branches.1 hc
  cases depth with
  | zero =>
    have hle := hg c
    omega
  | succ depth =>
    by_contra hne
    refine product_ne_nil.1 hne _ (List.mem_map_of_mem hc) ?_
    have hfinds : g.finds T [] (g.expand needed T [] depth (c + 1)) c r = [] :=
      finds_eq_nil.2 fun u hu hmeets => by
        rw [meets_declared, hnone u hu] at hmeets
        exact absurd hmeets (by decide)
    rw [hfinds, kind_declared, hinner]
    rfl

/-- Outside of LEFT joins rows are lost to flipped joins and to declared ones alike. -/
theorem Rooted.expand_outside (hg : g.Rooted) {depth scope : Nat} {r : ρ}
    (hout : g.underLeft scope = false) :
    g.expand needed T (g.flipNested [] needed) depth scope r = [] ↔
      g.expand needed T [] depth scope r = [] := by
  induction depth generalizing scope r with
  | zero => rfl
  | succ depth ih =>
    have hbranch : ∀ c ∈ g.branches needed scope,
        (g.branchRows needed T (g.flipNested [] needed) depth c r ≠ [] ↔
          g.branchRows needed T [] depth c r ≠ []) := by
      intro c hc
      obtain ⟨⟨hlen, rfl⟩, hmem⟩ := mem_branches.1 hc
      have hunder : g.underLeft (c + 1) = g.isLeft [] c := by
        rw [hg.underLeft_succ hlen, hout, Bool.false_or]
      rw [branchRows, branchRows, hg.kind_flipNested hlen hmem, kind_declared, hunder]
      cases hleft : g.isLeft [] c with
      | true => exact iff_of_true Sql.orAbsent_left_ne_nil Sql.orAbsent_left_ne_nil
      | false =>
        rw [hleft] at hunder
        show g.finds T (g.flipNested [] needed) _ c r ≠ [] ↔ g.finds T [] _ c r ≠ []
        rw [Ne, Ne, not_iff_not, finds_eq_nil, finds_eq_nil]
        refine forall₂_congr fun t _ => ?_
        rw [hg.meets_outside hunder, meets_declared, ih hunder]
    rw [← not_iff_not, expand_succ, expand_succ, ← Ne, ← Ne, product_ne_nil, product_ne_nil,
      List.forall_mem_map, List.forall_mem_map]
    exact forall₂_congr hbranch

/-- What a flipped join finds is what it finds as declared, when its rows are whole. -/
theorem Rooted.finds_flipped (hg : g.Rooted) {depth c : Nat} {r : ρ}
    (hdeep : g.joins.length ≤ c + 1 + depth)
    (hequal : ∀ t ∈ T.rows c, g.meets T (g.flipNested [] needed) c r t = true →
      g.expand needed T (g.flipNested [] needed) depth (c + 1) t =
        g.expand needed T [] depth (c + 1) t) :
    g.finds T (g.flipNested [] needed)
        (g.expand needed T (g.flipNested [] needed) depth (c + 1)) c r =
      g.finds T [] (g.expand needed T [] depth (c + 1)) c r := by
  refine List.flatMap_congr fun t ht => ?_
  rw [meets_declared]
  by_cases hmeets : g.meets T (g.flipNested [] needed) c r t = true
  · rw [if_pos hmeets, if_pos (hg.meets_flipNested.1 hmeets).1, hequal t ht hmeets]
  · rw [if_neg hmeets]
    by_cases hconnects : T.connects c r t = true
    · -- Some join flipped below has no row, and as declared it would lose the match.
      obtain ⟨child, hmem, hparent, hnested, hnone⟩ : ∃ child ∈ needed,
          g.parent child = c + 1 ∧ g.isNested [] child = true ∧
            ∀ u ∈ T.rows child, T.connects child t u = false := by
        by_contra hall
        refine hmeets (hg.meets_flipNested.2 ⟨hconnects, fun child hmem hparent hnested => ?_⟩)
        by_contra hnone
        refine hall ⟨child, hmem, hparent, hnested, fun u hu => ?_⟩
        rw [← Bool.not_eq_true]
        exact fun h => hnone ⟨u, hu, h⟩
      rw [isNested_declared, Bool.and_eq_true, Bool.not_eq_true'] at hnested
      have hchild : child ∈ g.branches needed (c + 1) := by
        refine mem_branches.2 ⟨⟨?_, hparent⟩, hmem⟩
        by_contra hout
        have hzero : g.parent child = 0 := by
          rw [parent, List.getElem?_eq_none (Nat.le_of_not_lt hout)]
          rfl
        omega
      rw [if_pos hconnects, hg.expand_declared_eq_nil hdeep hchild hnested.1 hnone, List.map_nil]
    · rw [if_neg hconnects]

/-- No nested join among these is empty below a row. -/
def Whole (g : JoinGraph) (js : List Nat) (f : JoinedRow ρ) : Prop :=
  ∀ j ∈ js, g.isNested [] j = true → (rowAt f (g.parent j)).isSome = true →
    (rowAt f (j + 1)).isSome = true

section Equal
variable (hg : g.Rooted) (hclosed : g.Closed needed)
include hg hclosed

/-- Joins as they are declared lose the row above a nested join that finds nothing. -/
theorem Rooted.whole_declared {depth scope : Nat} {r : ρ} {f : JoinedRow ρ}
    (hf : f ∈ g.expand needed T [] depth scope r) :
    g.Whole (g.descend needed depth scope) ((scope, some r) :: f) := by
  induction depth generalizing scope r f with
  | zero => exact fun j hj => absurd hj List.not_mem_nil
  | succ depth ih =>
    intro j hj hnested habove
    obtain ⟨c, hc, hj⟩ := List.mem_flatMap.1 hj
    obtain ⟨x, hx, hrow⟩ := hg.branch_of_expand hclosed hc hf
    rw [hrow j hj]
    rcases List.mem_cons.1 hj with rfl | hbelow
    · rw [isNested_declared, Bool.and_eq_true, Bool.not_eq_true'] at hnested
      rcases Sql.mem_orAbsent hx with hfound | ⟨hkind, -, -⟩
      · obtain ⟨t, -, -, f', -, rfl⟩ := mem_finds.1 hfound
        rw [rowAt_cons_self]
        rfl
      · rw [kind_declared, hnested.1] at hkind
        exact absurd hkind (by decide)
    · obtain ⟨k, hk, hparent⟩ := parent_below hbelow
      rw [hparent, hrow k hk] at habove
      rcases Sql.mem_orAbsent hx with hfound | ⟨-, -, rfl⟩
      · obtain ⟨t, -, -, f', hf', rfl⟩ := mem_finds.1 hfound
        refine ih hf' j hbelow hnested ?_
        rw [hparent]
        exact habove
      · rw [rowAt_absence] at habove
        exact absurd habove (by simp)

/-- The rows of one branch are whole when those they stand in are. -/
theorem Rooted.whole_branch {depth scope c : Nat} {r : ρ} (hc : c ∈ g.branches needed scope)
    (hne : g.expand needed T (g.flipNested [] needed) (depth + 1) scope r ≠ [])
    (hwhole : ∀ f ∈ g.expand needed T (g.flipNested [] needed) (depth + 1) scope r,
      g.Whole (g.descend needed (depth + 1) scope) ((scope, some r) :: f))
    {x : JoinedRow ρ} (hx : x ∈ g.branchRows needed T (g.flipNested [] needed) depth c r) :
    (g.isNested [] c = true → (rowAt x (c + 1)).isSome = true) ∧
      g.Whole (g.descend needed depth (c + 1)) x := by
  obtain ⟨⟨-, hparent⟩, -⟩ := mem_branches.1 hc
  obtain ⟨f, hf, hrow⟩ := hg.expand_of_branch hclosed hc hne hx
  have hmem : ∀ j ∈ c :: g.descend needed depth (c + 1), j ∈ g.descend needed (depth + 1) scope :=
    fun j hj => List.mem_flatMap.2 ⟨c, hc, hj⟩
  refine ⟨fun hnested => ?_, fun j hj hnested habove => ?_⟩
  · have hself := List.mem_cons_self (a := c) (l := g.descend needed depth (c + 1))
    rw [← hrow c hself]
    refine hwhole f hf c (hmem c hself) hnested ?_
    rw [hparent, rowAt_cons_self]
    rfl
  · have hbelow := List.mem_cons_of_mem c hj
    obtain ⟨k, hk, hp⟩ := parent_below hj
    rw [← hrow j hbelow]
    refine hwhole f hf j (hmem j hbelow) hnested ?_
    rw [hp, hrow k hk, ← hp]
    exact habove

omit hclosed in
/-- A flipped join that finds what it finds as declared, and always finds one, might as well be
made as declared. -/
theorem Rooted.branchRows_flipped {depth c : Nat} {r : ρ} (hlen : c < g.joins.length)
    (hmem : c ∈ needed)
    (hfinds : g.finds T (g.flipNested [] needed)
        (g.expand needed T (g.flipNested [] needed) depth (c + 1)) c r =
      g.finds T [] (g.expand needed T [] depth (c + 1)) c r)
    (hfound : ∀ x ∈ g.branchRows needed T (g.flipNested [] needed) depth c r,
      g.isNested [] c = true → (rowAt x (c + 1)).isSome = true) :
    g.branchRows needed T (g.flipNested [] needed) depth c r =
      g.branchRows needed T [] depth c r := by
  by_cases hnested : g.isNested [] c = true
  · have hsome : g.finds T [] (g.expand needed T [] depth (c + 1)) c r ≠ [] := by
      intro hnone
      have habsent : g.absence needed depth c ∈
          g.branchRows needed T (g.flipNested [] needed) depth c r := by
        rw [branchRows, hfinds, hnone, hg.kind_eq hlen hmem, if_pos hnested]
        exact List.mem_singleton_self _
      have hrow := hfound _ habsent hnested
      rw [rowAt_absence] at hrow
      exact absurd hrow (by simp)
    rw [branchRows, branchRows, hfinds, Sql.orAbsent_of_ne_nil hsome, Sql.orAbsent_of_ne_nil hsome]
  · rw [branchRows, branchRows, hfinds, hg.kind_eq hlen hmem, if_neg hnested]

/-- **Where no flipped join is empty below a row**, the rows are those of the joins as they are
declared. -/
theorem Rooted.expand_flipped {depth scope : Nat} {r : ρ}
    (hdeep : g.joins.length ≤ scope + depth)
    (hwhole : ∀ f ∈ g.expand needed T (g.flipNested [] needed) depth scope r,
      g.Whole (g.descend needed depth scope) ((scope, some r) :: f)) :
    g.expand needed T (g.flipNested [] needed) depth scope r =
      g.expand needed T [] depth scope r := by
  induction depth generalizing scope r with
  | zero => rfl
  | succ depth ih =>
    by_cases hne : g.expand needed T (g.flipNested [] needed) (depth + 1) scope r = []
    · have hout : g.underLeft scope = false := by
        rw [← Bool.not_eq_true]
        exact fun hunder => hg.expand_ne_nil hunder (depth + 1) r hne
      rw [hne, (hg.expand_outside hout).1 hne]
    · rw [expand_succ, expand_succ]
      refine congrArg product (List.map_congr_left fun c hc => ?_)
      obtain ⟨⟨hlen, hparent⟩, hmem⟩ := mem_branches.1 hc
      have hbranch := fun x => hg.whole_branch hclosed hc hne hwhole (x := x)
      have hfinds : g.finds T (g.flipNested [] needed)
            (g.expand needed T (g.flipNested [] needed) depth (c + 1)) c r =
          g.finds T [] (g.expand needed T [] depth (c + 1)) c r := by
        refine hg.finds_flipped (by have hle := hg c; omega) fun t ht hmeets => ?_
        refine ih (by have hle := hg c; omega) fun f hf => ?_
        have hfound := mem_finds.2 ⟨t, ht, hmeets, f, hf, rfl⟩
        refine (hbranch _ ?_).2
        rw [branchRows, Sql.orAbsent_of_ne_nil (List.ne_nil_of_mem hfound)]
        exact hfound
      exact hg.branchRows_flipped hlen hmem hfinds fun x hx => (hbranch x hx).1

end Equal

end EntityQuery.JoinGraph
