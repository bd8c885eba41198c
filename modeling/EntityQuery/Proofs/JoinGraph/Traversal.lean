import EntityQuery.Proofs.JoinGraph.Alias
import EntityQuery.Proofs.JoinGraph.Growth

/-! The order in which joins are visited.

Joins are visited from a stack: the top one comes next, and the joins that hang off its scope come
onto the stack in its place (`Visits`). From the root this ends, having visited every join once, in
the order of `preorder`. Aliases are numbered in it, and so the joins to some scopes, sorted by
their numbers, come parent first with what is below a join right behind it (`aliases_assigned`). -/
namespace EntityQuery.JoinGraph

variable {g : JoinGraph}

/-- Grown from a root by following navigations from scopes that are there. -/
inductive GrownFrom (entity : Nat) : JoinGraph → Prop where
  | root : GrownFrom entity (ofRoot entity)
  | reach {g : JoinGraph} {scope : Nat} (h : GrownFrom entity g)
      (hscope : scope ≤ g.joins.length) (n : Navigation) : GrownFrom entity (g.reach scope n).1

theorem GrownFrom.rooted {entity : Nat} (h : GrownFrom entity g) : g.Rooted := by
  induction h with
  | root => exact rooted_ofRoot entity
  | reach _ hscope n ih => exact (ih.steady_reach hscope n).rooted

/-! ### Visiting from a stack -/

/-- From this stack the joins are visited in this order. -/
inductive Visits (g : JoinGraph) : List Nat → List Nat → Prop where
  | done : Visits g [] []
  | visit {j : Nat} {stack order : List Nat} (h : Visits g (g.children (j + 1) ++ stack) order) :
      Visits g (j :: stack) (j :: order)

/-- A stack is visited in one order only. -/
theorem Visits.unique {stack order order' : List Nat} (h : g.Visits stack order)
    (h' : g.Visits stack order') : order' = order := by
  induction h generalizing order' with
  | done => cases h'; rfl
  | visit _ ih =>
    cases h' with
    | visit h' => rw [ih h']

/-- Where the levels below a scope reach down to the last, its branches are visited before the rest
of the stack. -/
theorem Rooted.visits_below (hg : g.Rooted) {depth scope : Nat} (hscope : scope ≤ g.joins.length)
    (hdepth : g.joins.length - scope ≤ depth) {stack order : List Nat} (h : g.Visits stack order) :
    g.Visits (g.children scope ++ stack) (g.below depth scope ++ order) := by
  induction depth generalizing scope stack order with
  | zero =>
    obtain rfl : scope = g.joins.length := by omega
    rwa [hg.children_beyond (Nat.le_refl _)]
  | succ depth ih =>
    have hbranches : ∀ branches ⊆ g.children scope, g.Visits (branches ++ stack)
        ((branches.flatMap fun j => j :: g.below depth (j + 1)) ++ order) := by
      intro branches hsub
      induction branches with
      | nil => exact h
      | cons j rest ihrest =>
        obtain ⟨hlen, hparent⟩ := mem_children.1 (hsub (List.mem_cons_self ..))
        have hle := hg j
        have hrest := ihrest fun k hk => hsub (List.mem_cons_of_mem _ hk)
        rw [List.flatMap_cons, List.cons_append, List.cons_append, List.cons_append,
          List.append_assoc]
        exact .visit (ih hlen (by omega) hrest)
    exact hbranches _ (List.Subset.refl _)

/-- All joins are visited, in depth-first order. -/
theorem Rooted.visits_preorder (hg : g.Rooted) : g.Visits (g.children 0) g.preorder := by
  have h := hg.visits_below (Nat.zero_le _) (Nat.le_refl _) .done
  rwa [List.append_nil, List.append_nil] at h

/-! ### The joins on a way -/

/-- The join is on the way from the root to the scope. -/
inductive OnWay (g : JoinGraph) (j : Nat) : Nat → Prop where
  | last (hj : j < g.joins.length) : OnWay g j (j + 1)
  | further {k : Nat} (hk : k < g.joins.length) (h : OnWay g j (g.parent k)) : OnWay g j (k + 1)

theorem Rooted.mem_rootPath (hg : g.Rooted) {j scope : Nat} :
    j ∈ g.rootPath scope ↔ g.OnWay j scope := by
  constructor
  · refine hg.rootPath_induction
      (motive := fun scope path => j ∈ path → g.OnWay j scope) ?_ ?_ scope
    · exact fun _ h => absurd h List.not_mem_nil
    · intro k hk ih hj
      rcases List.mem_append.1 hj with hj | hj
      · exact .further hk (ih hj)
      · obtain rfl := List.mem_singleton.1 hj
        exact .last hk
  · intro h
    induction h with
    | last hj => exact hg.mem_rootPath_self hj
    | further hk _ ih =>
      rw [hg.rootPath_succ hk]
      exact List.mem_append_left _ ih

/-! ### What is below a join -/

/-- In the order below a scope, what is below a join stands right behind it. -/
theorem Rooted.split_below (hg : g.Rooted) {depth scope j : Nat} (hj : j ∈ g.below depth scope) :
    ∃ earlier block later, g.below depth scope = earlier ++ j :: (block ++ later) ∧
      (∀ k ∈ block, j ∈ g.rootPath (k + 1)) ∧ ∀ k ∈ later, j ∉ g.rootPath (k + 1) := by
  induction depth generalizing scope with
  | zero => exact absurd hj List.not_mem_nil
  | succ depth ih =>
    obtain ⟨c, hc, hj⟩ := List.mem_flatMap.1 hj
    obtain ⟨front, rest, hsplit⟩ := List.append_of_mem hc
    have hnodup := g.nodup_children scope
    rw [hsplit] at hnodup
    have hdistinct : c ∉ rest := (List.nodup_cons.1 (List.nodup_append.1 hnodup).2.1).1
    have hbelow : g.below (depth + 1) scope = (front.flatMap fun i => i :: g.below depth (i + 1)) ++
        c :: (g.below depth (c + 1) ++ rest.flatMap fun i => i :: g.below depth (i + 1)) := by
      rw [below, hsplit, List.flatMap_append, List.flatMap_cons, List.cons_append]
    have hother : ∀ k ∈ rest.flatMap fun i => i :: g.below depth (i + 1),
        j ∉ g.rootPath (k + 1) := by
      intro k hk
      obtain ⟨b, hb, hk⟩ := List.mem_flatMap.1 hk
      have hbchild : b ∈ g.children scope := by simp [hsplit, hb]
      exact hg.notMem_branch hbchild hc (fun heq => hdistinct (heq ▸ hb)) hk hj
    rcases List.mem_cons.1 hj with rfl | hj
    · refine ⟨_, _, _, hbelow, fun k hk => ?_, hother⟩
      have hpre := (hg.prefix_branch hc (List.mem_cons_of_mem _ hk)).2
      exact hpre.subset (hg.mem_rootPath_self (mem_children.1 hc).1)
    · obtain ⟨earlier, block, later, hinner, hblock, hlater⟩ := ih hj
      refine ⟨(front.flatMap fun i => i :: g.below depth (i + 1)) ++ c :: earlier, block,
        later ++ rest.flatMap fun i => i :: g.below depth (i + 1), ?_, hblock, ?_⟩
      · rw [hbelow, hinner]
        simp
      · exact List.forall_mem_append.2 ⟨hlater, hother⟩

/-- Of the joins to some scopes, those below a join stand right behind it. -/
theorem Rooted.split_joinsTo (hg : g.Rooted) {scopes : List Nat} {j : Nat}
    (hj : j ∈ g.joinsTo scopes) : ∃ earlier block later,
      g.joinsTo scopes = earlier ++ j :: (block ++ later) ∧
      ∀ k ∈ g.joinsTo scopes, k ∈ block ↔ k ≠ j ∧ j ∈ g.rootPath (k + 1) := by
  obtain ⟨hmem, hneeded⟩ := List.mem_filter.1 hj
  obtain ⟨earlier, block, later, hsplit, hblock, hlater⟩ := hg.split_below hmem
  have horder := hg.pairwise_preorder
  have hnodup := hg.nodup_preorder
  rw [preorder, hsplit] at horder hnodup
  have hearlier : ∀ k ∈ earlier, j ∉ g.rootPath (k + 1) := fun k hk =>
    (List.pairwise_append.1 horder).2.2 k hk j (List.mem_cons_self ..)
  have hnew : j ∉ block := fun hk => (List.nodup_cons.1 (List.nodup_append.1 hnodup).2.1).1
    (List.mem_append_left _ hk)
  have hfilter (p : Nat → Bool) (hp : p j = true) : g.preorder.filter p =
      earlier.filter p ++ j :: (block.filter p ++ later.filter p) := by
    rw [preorder, hsplit, List.filter_append, List.filter_cons_of_pos hp, List.filter_append]
  refine ⟨_, _, _, hfilter _ hneeded, fun k hk => ?_⟩
  obtain ⟨hk, hkneeded⟩ := List.mem_filter.1 hk
  rw [List.mem_filter, and_iff_left hkneeded]
  constructor
  · exact fun hkblock => ⟨fun heq => hnew (heq ▸ hkblock), hblock k hkblock⟩
  · rintro ⟨hne, hway⟩
    rw [preorder, hsplit] at hk
    rcases List.mem_append.1 hk with hk | hk
    · exact absurd hway (hearlier k hk)
    · rcases List.mem_append.1 (List.mem_of_ne_of_mem hne hk) with hk | hk
      · exact hk
      · exact absurd hway (hlater k hk)

/-! ### Gathering and sorting -/

/-- The joins put behind those that were found before, except where they were. -/
def pushNew (before joins : List Nat) : List Nat :=
  joins.foldl (fun before j => if j ∈ before then before else before ++ [j]) before

/-- The joins on the ways to some scopes, each where it is found first. -/
def gathered (g : JoinGraph) (scopes : List Nat) : List Nat :=
  scopes.foldl (fun before scope => pushNew before (g.rootPath scope)) []

theorem mem_pushNew {before joins : List Nat} {j : Nat} :
    j ∈ pushNew before joins ↔ j ∈ before ∨ j ∈ joins := by
  induction joins generalizing before with
  | nil => simp [pushNew]
  | cons k rest ih =>
    rw [pushNew, List.foldl_cons, ← pushNew, ih]
    split <;> grind

theorem nodup_pushNew {before : List Nat} (h : before.Nodup) (joins : List Nat) :
    (pushNew before joins).Nodup := by
  induction joins generalizing before with
  | nil => exact h
  | cons k rest ih =>
    rw [pushNew, List.foldl_cons, ← pushNew]
    split
    · exact ih h
    · next hnew => exact ih (List.nodup_append.2 ⟨h, by simp, by grind⟩)

theorem mem_gathered {scopes : List Nat} {j : Nat} :
    j ∈ g.gathered scopes ↔ ∃ scope ∈ scopes, j ∈ g.rootPath scope := by
  have hfold (before : List Nat) : j ∈ scopes.foldl (fun before scope =>
      pushNew before (g.rootPath scope)) before ↔
        j ∈ before ∨ ∃ scope ∈ scopes, j ∈ g.rootPath scope := by
    induction scopes generalizing before with
    | nil => simp
    | cons scope rest ih => rw [List.foldl_cons, ih, mem_pushNew]; simp [or_assoc]
  rw [gathered, hfold, or_iff_right List.not_mem_nil]

theorem nodup_gathered (g : JoinGraph) (scopes : List Nat) : (g.gathered scopes).Nodup :=
  List.foldlRecOn (motive := List.Nodup) scopes _ .nil fun _ h _ _ => nodup_pushNew h _

/-- In a list without repetitions, numbers of places grow. -/
theorem pairwise_idxOf {joins : List Nat} (h : joins.Nodup) :
    joins.Pairwise fun a b => joins.idxOf a < joins.idxOf b := by
  refine List.pairwise_iff_getElem.2 fun i j hi hj hlt => ?_
  rwa [h.idxOf_getElem, h.idxOf_getElem]

/-- The joins to some scopes come in the order of all joins. -/
theorem Rooted.pairwise_joinsTo (hg : g.Rooted) (scopes : List Nat) :
    (g.joinsTo scopes).Pairwise fun a b => g.preorder.idxOf a < g.preorder.idxOf b :=
  (pairwise_idxOf hg.nodup_preorder).filter _

/-- They are the joins found on the ways, sorted by their numbers. -/
theorem Rooted.mergeSort_gathered (hg : g.Rooted) (scopes : List Nat) :
    (g.gathered scopes).mergeSort (fun a b => g.preorder.idxOf a ≤ g.preorder.idxOf b) =
      g.joinsTo scopes := by
  have hmem (j : Nat) : j ∈ g.gathered scopes ↔ j ∈ g.joinsTo scopes := by
    rw [mem_gathered, hg.mem_joinsTo]
  have hperm : (g.gathered scopes).Perm (g.joinsTo scopes) :=
    (List.perm_ext_iff_of_nodup (g.nodup_gathered scopes) (hg.nodup_joinsTo scopes)).2 hmem
  have hsorted : ((g.gathered scopes).mergeSort
      fun a b => g.preorder.idxOf a ≤ g.preorder.idxOf b).Pairwise
      fun a b => g.preorder.idxOf a ≤ g.preorder.idxOf b := by
    have h := @List.pairwise_mergeSort _
      (fun a b => decide (g.preorder.idxOf a ≤ g.preorder.idxOf b))
      (by simp; omega) (by simp; omega) (g.gathered scopes)
    simpa using h
  refine List.Perm.eq_of_pairwise (fun a b ha hb hab hba => ?_) hsorted
    ((hg.pairwise_joinsTo scopes).imp Nat.le_of_lt) ((List.mergeSort_perm ..).trans hperm)
  have hpreorder {j : Nat} (hj : j ∈ g.joinsTo scopes) : j ∈ g.preorder := List.mem_of_mem_filter hj
  have ha' := (hmem a).1 ((List.mergeSort_perm ..).mem_iff.1 ha)
  exact (List.idxOf_inj (hpreorder ha')).1 (Nat.le_antisymm hab hba)

/-! ### Aliases and joins of a grown graph -/

/-- The aliases that a graph takes from a supply: its joins are visited in this order, and numbered
in it. -/
structure Aliased (g : JoinGraph) (a : AliasSupply) (order : List Nat) : Prop where
  visited : ∀ joins, g.Visits (g.children 0) joins ↔ joins = order
  nodup : order.Nodup
  mem : ∀ j, j ∈ order ↔ j < g.joins.length
  root : g.aliasName (g.assign a).1 0 = tableAlias a.tables
  join : ∀ j ∈ order, g.aliasName (g.assign a).1 (j + 1) = joinAlias (a.joins + order.idxOf j)
  /-- So many aliases are handed out. -/
  taken : (g.assign a).2 = ⟨a.tables + 1, a.joins + order.length⟩
  ne_empty : ∀ scope ≤ g.joins.length, g.aliasName (g.assign a).1 scope ≠ ""
  distinct : ∀ scope ≤ g.joins.length, ∀ other ≤ g.joins.length,
    g.aliasName (g.assign a).1 scope = g.aliasName (g.assign a).1 other → scope = other
  /-- None was handed out before. -/
  fresh : ∀ scope ≤ g.joins.length, ¬ HandedOut {} a (g.aliasName (g.assign a).1 scope)

/-- These are the joins on the ways to some scopes, sorted by the order of all joins. -/
structure LeadsTo (g : JoinGraph) (order scopes joins : List Nat) : Prop where
  mem : ∀ j, j ∈ joins ↔ ∃ scope ∈ scopes, g.OnWay j scope
  nodup : joins.Nodup
  gathered : (g.gathered scopes).mergeSort (fun a b => order.idxOf a ≤ order.idxOf b) = joins
  sorted : joins.Pairwise fun a b => order.idxOf a < order.idxOf b
  /-- A join stands behind that of its parent, and right behind it all that is below it. -/
  split : ∀ j ∈ joins, ∃ earlier block later, joins = earlier ++ j :: (block ++ later) ∧
    (g.parent j = 0 ∨ ∃ p ∈ earlier, g.parent j = p + 1) ∧
    ∀ k ∈ joins, k ∈ block ↔ k ≠ j ∧ g.OnWay j (k + 1)

theorem Rooted.aliased (hg : g.Rooted) (a : AliasSupply) : g.Aliased a g.preorder where
  visited joins :=
    ⟨fun h => hg.visits_preorder.unique h, fun h => h ▸ hg.visits_preorder⟩
  nodup := hg.nodup_preorder
  mem _ := hg.mem_preorder
  root := rfl
  join _ _ := rfl
  taken := by rw [assign, hg.length_preorder]
  ne_empty _ hscope := (hg.aliasName_handedOut a hscope).ne_empty
  distinct _ hscope _ hother := hg.aliasName_injective a hscope hother
  fresh _ hscope hbefore := hbefore.not_later (le_refl a) (hg.aliasName_handedOut a hscope)

theorem Rooted.leadsTo (hg : g.Rooted) (scopes : List Nat) :
    g.LeadsTo g.preorder scopes (g.joinsTo scopes) where
  mem _ := by simp only [hg.mem_joinsTo, hg.mem_rootPath]
  nodup := hg.nodup_joinsTo scopes
  gathered := hg.mergeSort_gathered scopes
  sorted := hg.pairwise_joinsTo scopes
  split j hj := by
    obtain ⟨earlier, block, later, hsplit, hblock⟩ := hg.split_joinsTo hj
    refine ⟨earlier, block, later, hsplit, hg.parent_joinsTo hsplit, fun k hk => ?_⟩
    rw [hblock k hk, hg.mem_rootPath]

/-- **Aliases are given in depth-first order.** However a graph was grown and whatever the supply
handed out before, visiting the joins from the root ends and visits each once, in one order. The
aliases are numbered in this order; none is empty, none comes twice, and none was handed out before.
The joins to any scopes are those on the ways to them, sorted by this order, so that each comes
behind its parent and directly before all that is below it. -/
theorem aliases_assigned {entity : Nat} (h : GrownFrom entity g) (a : AliasSupply) :
    ∃ order, g.Aliased a order ∧ ∀ scopes, g.LeadsTo order scopes (g.joinsTo scopes) :=
  ⟨g.preorder, h.rooted.aliased a, h.rooted.leadsTo⟩

def followed (name : String) (target : Nat) : Navigation := ⟨name, target, .inner, [], false⟩

/-- An order's customer, its product, and then the customer's country. -/
def branched : JoinGraph :=
  ⟨0, [⟨0, followed "Customer" 1⟩, ⟨0, followed "Product" 2⟩, ⟨1, followed "Country" 3⟩]⟩

/-- The country was joined last and is numbered before the product. -/
theorem aliases_assigned_branched : GrownFrom 0 branched ∧
    branched.Aliased ⟨1, 4⟩ [0, 2, 1] ∧
    branched.aliasName (branched.assign ⟨1, 4⟩).1 3 = "J5" ∧
    branched.LeadsTo [0, 2, 1] [3] [0, 2] := by
  have hgrown : GrownFrom 0 branched :=
    .reach (.reach (.reach .root (Nat.zero_le _) (followed "Customer" 1)) (Nat.zero_le _)
      (followed "Product" 2)) (Nat.le_succ 1) (followed "Country" 3)
  obtain ⟨order, haliased, hleads⟩ := aliases_assigned hgrown ⟨1, 4⟩
  have hvisits : branched.Visits (branched.children 0) [0, 2, 1] := .visit (.visit (.visit .done))
  obtain rfl := (haliased.visited _).1 hvisits
  have hjoins : branched.joinsTo [3] = [0, 2] := by decide
  exact ⟨hgrown, haliased, haliased.join 2 (by decide), hjoins ▸ hleads [3]⟩

end EntityQuery.JoinGraph
