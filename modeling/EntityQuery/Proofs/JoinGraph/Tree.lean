import EntityQuery.JoinGraph.Basic

/-! The joins of a graph as a tree.

A join hangs off a scope that was there before it (`Rooted`), so a way up ends at the root, and the
joins on it are the way of the parent's scope and the join itself (`rootPath_succ`). What is known
of the order of joins follows from ways: no join stands behind one that it is on the way to
(`pairwise_preorder`). -/
namespace EntityQuery.JoinGraph

/-- Every join hangs off a scope that was there before it. -/
def Rooted (g : JoinGraph) : Prop := ∀ j, g.parent j ≤ j

variable {g : JoinGraph}

theorem rooted_ofRoot (entity : Nat) : (ofRoot entity).Rooted := fun j => by
  simp [ofRoot, parent]

theorem parent_append {join : GraphJoin} {j : Nat} :
    parent {g with joins := g.joins ++ [join]} j =
      if j = g.joins.length then join.parent else g.parent j := by
  unfold parent
  by_cases hj : j = g.joins.length
  · simp [hj]
  · rw [if_neg hj]
    by_cases hlt : j < g.joins.length
    · simp [List.getElem?_append_left hlt]
    · have hout : (g.joins ++ [join]).length ≤ j := by simp; omega
      have hout' : g.joins.length ≤ j := by omega
      simp [List.getElem?_eq_none hout, List.getElem?_eq_none hout']

theorem Rooted.append (hg : g.Rooted) (join : GraphJoin) (hp : join.parent ≤ g.joins.length) :
    Rooted {g with joins := g.joins ++ [join]} := fun j => by
  rw [parent_append]
  by_cases hj : j = g.joins.length
  · rwa [if_pos hj, hj]
  · rw [if_neg hj]
    exact hg j

theorem mem_children {scope j : Nat} :
    j ∈ g.children scope ↔ j < g.joins.length ∧ g.parent j = scope := by
  simp [children]

theorem nodup_children (g : JoinGraph) (scope : Nat) : (g.children scope).Nodup :=
  List.nodup_range.filter _

/-- A join comes last among the children of the scope it hangs off. -/
theorem children_append (g : JoinGraph) (join : GraphJoin) (scope : Nat) :
    children {g with joins := g.joins ++ [join]} scope =
      if join.parent = scope then g.children scope ++ [g.joins.length] else g.children scope := by
  have hbefore : (List.range g.joins.length).filter
      (fun j => parent {g with joins := g.joins ++ [join]} j == scope) = g.children scope :=
    List.filter_congr fun j hj => by rw [parent_append, if_neg (Nat.ne_of_lt (List.mem_range.1 hj))]
  have hlast : parent {g with joins := g.joins ++ [join]} g.joins.length = join.parent := by
    rw [parent_append, if_pos rfl]
  rw [children, List.length_append, List.length_singleton, List.range_succ, List.filter_append,
    hbefore]
  by_cases h : join.parent = scope <;> simp [hlast, h]

/-- Nothing hangs off the last scope or what would come behind it. -/
theorem Rooted.children_beyond (hg : g.Rooted) {scope : Nat} (h : g.joins.length ≤ scope) :
    g.children scope = [] := by
  refine List.eq_nil_iff_forall_not_mem.2 fun j hj => ?_
  obtain ⟨hlen, rfl⟩ := mem_children.1 hj
  have hle := hg j
  omega

/-! ### The way to a scope -/

theorem rootPathBelow_eq {scope m n : Nat} (hs : scope ≤ m) (hn : m ≤ n) :
    g.rootPathBelow scope n = g.rootPathBelow scope m := by
  induction n with
  | zero => rw [Nat.le_zero.1 hn]
  | succ n ih =>
    by_cases hm : m = n + 1
    · rw [hm]
    · rw [rootPathBelow, if_neg (by omega), ih (by omega)]

theorem rootPathBelow_beyond {scope n : Nat} (h : n < scope) : g.rootPathBelow scope n = [] := by
  induction n with
  | zero => rfl
  | succ n ih => rw [rootPathBelow, if_neg (by omega), ih (by omega)]

theorem rootPath_beyond {scope : Nat} (h : g.joins.length < scope) : g.rootPath scope = [] :=
  rootPathBelow_beyond h

@[simp] theorem rootPath_zero (g : JoinGraph) : g.rootPath 0 = [] := by
  rw [rootPath, rootPathBelow_eq (Nat.le_refl 0) (Nat.zero_le _)]
  rfl

/-- The way to a join's scope is that to its parent and then the join. -/
theorem Rooted.rootPath_succ (hg : g.Rooted) {j : Nat} (hj : j < g.joins.length) :
    g.rootPath (j + 1) = g.rootPath (g.parent j) ++ [j] := by
  have hp := hg j
  rw [rootPath, rootPathBelow_eq (Nat.le_refl (j + 1)) hj, rootPathBelow, if_pos rfl, rootPath,
    rootPathBelow_eq hp (Nat.le_of_lt hj)]

/-- What holds of the root's way and passes from a scope to those that hang off it holds of every
way. -/
theorem Rooted.rootPath_induction (hg : g.Rooted) {motive : Nat → List Nat → Prop}
    (root : ∀ scope, motive scope [])
    (join : ∀ j, j < g.joins.length → motive (g.parent j) (g.rootPath (g.parent j)) →
      motive (j + 1) (g.rootPath (g.parent j) ++ [j])) (scope : Nat) :
    motive scope (g.rootPath scope) := by
  induction scope using Nat.strongRecOn with
  | ind scope ih =>
    match scope with
    | 0 => exact (rootPath_zero g).symm ▸ root 0
    | j + 1 =>
      by_cases hj : j < g.joins.length
      · rw [hg.rootPath_succ hj]
        exact join j hj (ih _ (Nat.lt_succ_of_le (hg j)))
      · rw [rootPath_beyond (by omega)]
        exact root (j + 1)

theorem Rooted.mem_rootPath_lt (hg : g.Rooted) {scope k : Nat} (hk : k ∈ g.rootPath scope) :
    k < scope ∧ k < g.joins.length := by
  revert hk
  refine hg.rootPath_induction (motive := fun scope path => k ∈ path → k < scope ∧ k < _)
    ?_ ?_ scope
  · exact fun _ h => absurd h List.not_mem_nil
  · intro j hj ih hk
    have hp := hg j
    rcases List.mem_append.1 hk with hk | hk
    · exact ⟨by have := (ih hk).1; omega, (ih hk).2⟩
    · rw [List.mem_singleton.1 hk]
      exact ⟨Nat.lt_succ_self j, hj⟩

theorem Rooted.mem_rootPath_self (hg : g.Rooted) {j : Nat} (hj : j < g.joins.length) :
    j ∈ g.rootPath (j + 1) := by
  simp [hg.rootPath_succ hj]

/-- A way begins with the ways to the joins on it. -/
theorem Rooted.rootPath_prefix (hg : g.Rooted) {scope k : Nat} (hk : k ∈ g.rootPath scope) :
    g.rootPath (k + 1) <+: g.rootPath scope := by
  revert hk
  refine hg.rootPath_induction (motive := fun _ path => k ∈ path → g.rootPath (k + 1) <+: path)
    ?_ ?_ scope
  · exact fun _ h => absurd h List.not_mem_nil
  · intro j hj ih hk
    rcases List.mem_append.1 hk with hk | hk
    · exact (ih hk).trans (List.prefix_append ..)
    · obtain rfl := List.mem_singleton.1 hk
      exact hg.rootPath_succ hj ▸ List.prefix_rfl

/-- With a join, a way holds the one that its parent was reached by. -/
theorem Rooted.parent_mem_rootPath (hg : g.Rooted) {scope k p : Nat} (hk : k ∈ g.rootPath scope)
    (hp : g.parent k = p + 1) : p ∈ g.rootPath scope := by
  have hlen := (hg.mem_rootPath_lt hk).2
  have hpk := hg k
  apply (hg.rootPath_prefix hk).subset
  rw [hg.rootPath_succ hlen, hp]
  exact List.mem_append_left _ (hg.mem_rootPath_self (by omega))

/-- The first join of a way is the only one on it that hangs off the root. -/
theorem Rooted.head?_rootPath (hg : g.Rooted) {scope k : Nat} (hk : k ∈ g.rootPath scope)
    (hp : g.parent k = 0) : (g.rootPath scope).head? = some k := by
  have hpre := hg.rootPath_prefix hk
  rw [hg.rootPath_succ (hg.mem_rootPath_lt hk).2, hp, rootPath_zero] at hpre
  obtain ⟨rest, hrest⟩ := hpre
  rw [← hrest]
  rfl

/-- A way begins at the root. -/
theorem Rooted.parent_of_head? (hg : g.Rooted) {scope k : Nat}
    (hk : (g.rootPath scope).head? = some k) : g.parent k = 0 := by
  revert hk
  refine hg.rootPath_induction (motive := fun _ path => path.head? = some k → g.parent k = 0)
    ?_ ?_ scope
  · exact fun _ h => nomatch h
  · intro j hj ih h
    cases hparent : g.parent j with
    | zero =>
      rw [hparent, rootPath_zero] at h
      obtain rfl := Option.some.inj h
      exact hparent
    | succ p =>
      have hp := hg j
      have hne : g.rootPath (g.parent j) ≠ [] := by
        rw [hparent]
        exact List.ne_nil_of_mem (hg.mem_rootPath_self (by omega))
      obtain ⟨first, rest, hpath⟩ := List.exists_cons_of_ne_nil hne
      rw [hpath] at ih h
      exact ih h

/-- A way has no more joins than the graph. -/
theorem Rooted.length_rootPath_le (hg : g.Rooted) (scope : Nat) :
    (g.rootPath scope).length ≤ min scope g.joins.length := by
  refine hg.rootPath_induction (motive := fun scope path => path.length ≤ min scope _) ?_ ?_ scope
  · exact fun _ => Nat.zero_le _
  · intro j hj ih
    have hp := hg j
    simp only [List.length_append, List.length_singleton]
    omega

/-! ### The order of all joins -/

/-- What stands below a scope has a child of it on its way. -/
theorem Rooted.mem_below (hg : g.Rooted) {depth scope k : Nat} (hk : k ∈ g.below depth scope) :
    k < g.joins.length ∧ ∃ c ∈ g.children scope, g.rootPath (c + 1) <+: g.rootPath (k + 1) := by
  induction depth generalizing scope with
  | zero => exact absurd hk List.not_mem_nil
  | succ depth ih =>
    obtain ⟨c, hc, hk⟩ := List.mem_flatMap.1 hk
    have hlen := (mem_children.1 hc).1
    rcases List.mem_cons.1 hk with rfl | hk
    · exact ⟨hlen, k, hc, List.prefix_rfl⟩
    · obtain ⟨hk, d, hd, hpre⟩ := ih hk
      obtain ⟨hdlen, hparent⟩ := mem_children.1 hd
      refine ⟨hk, c, hc, List.IsPrefix.trans ?_ hpre⟩
      rw [hg.rootPath_succ hdlen, hparent]
      exact List.prefix_append ..

theorem below_mono {d d' scope k : Nat} (h : d ≤ d') (hk : k ∈ g.below d scope) :
    k ∈ g.below d' scope := by
  induction d generalizing d' scope with
  | zero => exact absurd hk List.not_mem_nil
  | succ d ih =>
    obtain ⟨m, rfl⟩ : ∃ m, d' = m + 1 := ⟨d' - 1, by omega⟩
    obtain ⟨c, hc, hk⟩ := List.mem_flatMap.1 hk
    refine List.mem_flatMap.2 ⟨c, hc, ?_⟩
    rcases List.mem_cons.1 hk with rfl | hk
    · exact List.mem_cons_self ..
    · exact List.mem_cons_of_mem _ (ih (by omega) hk)

/-- One level below a join are the joins that hang off it. -/
theorem below_child {d scope c j : Nat} (hc : c ∈ g.below d scope) (hj : j ∈ g.children (c + 1)) :
    j ∈ g.below (d + 1) scope := by
  induction d generalizing scope with
  | zero => exact absurd hc List.not_mem_nil
  | succ d ih =>
    obtain ⟨b, hb, hc⟩ := List.mem_flatMap.1 hc
    refine List.mem_flatMap.2 ⟨b, hb, List.mem_cons_of_mem _ ?_⟩
    rcases List.mem_cons.1 hc with rfl | hc
    · exact List.mem_flatMap.2 ⟨j, hj, List.mem_cons_self ..⟩
    · exact ih hc

/-- A join stands as deep below the root as its way is long. -/
theorem Rooted.mem_below_rootPath (hg : g.Rooted) {j : Nat} (hj : j < g.joins.length) :
    j ∈ g.below (g.rootPath (j + 1)).length 0 := by
  induction j using Nat.strongRecOn with
  | ind j ih =>
    rw [hg.rootPath_succ hj, List.length_append, List.length_singleton]
    cases hp : g.parent j with
    | zero =>
      rw [rootPath_zero]
      exact List.mem_flatMap.2 ⟨j, mem_children.2 ⟨hj, hp⟩, List.mem_cons_self ..⟩
    | succ p =>
      have hpj := hg j
      exact below_child (ih p (by omega) (by omega)) (mem_children.2 ⟨hj, hp⟩)

theorem Rooted.mem_preorder (hg : g.Rooted) {j : Nat} :
    j ∈ g.preorder ↔ j < g.joins.length := by
  constructor
  · exact fun hj => (hg.mem_below hj).1
  · intro hj
    have hlen := hg.length_rootPath_le (j + 1)
    exact below_mono (by omega) (hg.mem_below_rootPath hj)

/-- Two children of a scope are on no common way. -/
theorem Rooted.children_eq (hg : g.Rooted) {scope a b k : Nat} (ha : a ∈ g.children scope)
    (hb : b ∈ g.children scope) (hka : g.rootPath (a + 1) <+: g.rootPath (k + 1))
    (hkb : g.rootPath (b + 1) <+: g.rootPath (k + 1)) : a = b := by
  obtain ⟨halen, hap⟩ := mem_children.1 ha
  obtain ⟨hblen, hbp⟩ := mem_children.1 hb
  rw [hg.rootPath_succ halen, hap] at hka
  rw [hg.rootPath_succ hblen, hbp] at hkb
  have heq := (List.prefix_of_prefix_length_le hka hkb (by simp)).eq_of_length (by simp)
  simpa using heq

/-- A child of a scope is on the way to what stands below it. -/
theorem Rooted.prefix_branch (hg : g.Rooted) {depth scope c k : Nat} (hc : c ∈ g.children scope)
    (hk : k ∈ c :: g.below depth (c + 1)) :
    k < g.joins.length ∧ g.rootPath (c + 1) <+: g.rootPath (k + 1) := by
  rcases List.mem_cons.1 hk with rfl | hk
  · exact ⟨(mem_children.1 hc).1, List.prefix_rfl⟩
  · obtain ⟨hlen, d, hd, hpre⟩ := hg.mem_below hk
    obtain ⟨hdlen, hparent⟩ := mem_children.1 hd
    rw [hg.rootPath_succ hdlen, hparent] at hpre
    exact ⟨hlen, (List.prefix_append ..).trans hpre⟩

/-- Nothing below one child of a scope is on the way to what stands below another: it would bring
both children onto that way. -/
theorem Rooted.notMem_branch (hg : g.Rooted) {depth scope a b x y : Nat} (ha : a ∈ g.children scope)
    (hb : b ∈ g.children scope) (hne : a ≠ b) (hx : x ∈ a :: g.below depth (a + 1))
    (hy : y ∈ b :: g.below depth (b + 1)) : y ∉ g.rootPath (x + 1) := by
  intro hmem
  have hbway := (hg.prefix_branch hb hy).2.trans (hg.rootPath_prefix hmem)
  exact hne (hg.children_eq ha hb (hg.prefix_branch ha hx).2 hbway)

/-- No join stands behind one that it is on the way to, and none stands twice. -/
theorem Rooted.pairwise_below (hg : g.Rooted) (depth scope : Nat) :
    (g.below depth scope).Pairwise fun a b => b ∉ g.rootPath (a + 1) := by
  induction depth generalizing scope with
  | zero => exact .nil
  | succ depth ih =>
    refine List.pairwise_flatMap.2
      ⟨fun c hc => List.pairwise_cons.2 ⟨fun k hk hmem => ?_, ih _⟩, ?_⟩
    · obtain ⟨hlen, d, hd, hpre⟩ := hg.mem_below hk
      obtain ⟨hdlen, hparent⟩ := mem_children.1 hd
      have hdk := (hg.mem_rootPath_lt (hpre.subset (hg.mem_rootPath_self hdlen))).1
      have hkc := (hg.mem_rootPath_lt hmem).1
      have hcd := hg d
      omega
    · refine List.Pairwise.imp_of_mem ?_ (g.nodup_children scope)
      intro a b ha hb hne x hx y hy
      exact hg.notMem_branch ha hb hne hx hy

theorem Rooted.pairwise_preorder (hg : g.Rooted) :
    g.preorder.Pairwise fun a b => b ∉ g.rootPath (a + 1) :=
  hg.pairwise_below ..

theorem Rooted.nodup_preorder (hg : g.Rooted) : g.preorder.Nodup := by
  refine List.Pairwise.imp_of_mem ?_ hg.pairwise_preorder
  rintro a b ha - hnot rfl
  exact hnot (hg.mem_rootPath_self (hg.mem_preorder.1 ha))

theorem Rooted.length_preorder_le (hg : g.Rooted) : g.preorder.length ≤ g.joins.length := by
  have hsubset : g.preorder ⊆ List.range g.joins.length := fun j hj =>
    List.mem_range.2 (hg.mem_preorder.1 hj)
  have hle := List.Nodup.length_le_of_subset hg.nodup_preorder hsubset
  rwa [List.length_range] at hle

/-- Every join stands in the order of all joins once. -/
theorem Rooted.length_preorder (hg : g.Rooted) : g.preorder.length = g.joins.length := by
  refine Nat.le_antisymm hg.length_preorder_le ?_
  have hsubset : List.range g.joins.length ⊆ g.preorder := fun j hj =>
    hg.mem_preorder.2 (List.mem_range.1 hj)
  have hle := List.Nodup.length_le_of_subset List.nodup_range hsubset
  rwa [List.length_range] at hle

/-! ### The joins to some scopes -/

theorem Rooted.mem_joinsTo (hg : g.Rooted) {scopes : List Nat} {j : Nat} :
    j ∈ g.joinsTo scopes ↔ ∃ scope ∈ scopes, j ∈ g.rootPath scope := by
  simp only [joinsTo, List.mem_filter, hg.mem_preorder, List.any_eq_true, List.contains_iff_mem]
  constructor
  · exact fun h => h.2
  · exact fun ⟨scope, hscope, hj⟩ => ⟨(hg.mem_rootPath_lt hj).2, scope, hscope, hj⟩

/-- The scope of a join that is needed is reached. -/
theorem Rooted.joinsTo_scope (hg : g.Rooted) {scopes : List Nat} {j : Nat} (hj : j + 1 ∈ scopes)
    (hlen : j < g.joins.length) : j ∈ g.joinsTo scopes :=
  hg.mem_joinsTo.2 ⟨j + 1, hj, hg.mem_rootPath_self hlen⟩

theorem Rooted.nodup_joinsTo (hg : g.Rooted) (scopes : List Nat) : (g.joinsTo scopes).Nodup :=
  hg.nodup_preorder.filter _

/-- Joins to some scopes come one after another, each behind the join of its parent. -/
theorem Rooted.parent_joinsTo (hg : g.Rooted) {scopes earlier later : List Nat} {j : Nat}
    (h : g.joinsTo scopes = earlier ++ j :: later) :
    g.parent j = 0 ∨ ∃ p ∈ earlier, g.parent j = p + 1 := by
  cases hp : g.parent j with
  | zero => exact .inl rfl
  | succ p =>
    have hj : j ∈ g.joinsTo scopes := by simp [h]
    obtain ⟨scope, hscope, hway⟩ := hg.mem_joinsTo.1 hj
    have hpmem : p ∈ g.joinsTo scopes :=
      hg.mem_joinsTo.2 ⟨scope, hscope, hg.parent_mem_rootPath hway hp⟩
    have horder : (g.joinsTo scopes).Pairwise fun a b => b ∉ g.rootPath (a + 1) :=
      hg.pairwise_preorder.filter _
    rw [h] at hpmem horder
    have hbehind := (List.pairwise_cons.1 (List.pairwise_append.1 horder).2.1).1 p
    have hpj := hg j
    have hon : p ∈ g.rootPath (j + 1) :=
      hg.parent_mem_rootPath (hg.mem_rootPath_self (hg.mem_rootPath_lt hway).2) hp
    rcases List.mem_append.1 hpmem with hpmem | hpmem
    · exact .inr ⟨p, hpmem, rfl⟩
    · rcases List.mem_cons.1 hpmem with rfl | hpmem
      · omega
      · exact absurd hon (hbehind hpmem)

end EntityQuery.JoinGraph
