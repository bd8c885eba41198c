import EntityQuery.Proofs.JoinGraph.Descent
import EntityQuery.Proofs.JoinGraph.Nesting
import EntityQuery.Proofs.Sql.Relation

/-! The rows of a tree of tables.

A row of a table is put together with the rows that the joins below it find, branch by branch: with
one branch's rows it takes every row of the others (`expand`). A join finds what the row above it
meets; a LEFT join that finds nothing leaves its scope and all below it empty.

Joins may be made as they are declared, or flipped. A flipped join keeps the row above it, which
the match above it makes up for by asking that there be a row to find. It does not ask whether
that row has what it is asked for in turn. The two give the same rows when no flipped join is
empty below a row (`expand_flipped`). -/
namespace EntityQuery.JoinGraph

open Sql (orAbsent)

/-- A row of several scopes: the row of each, or that it is empty. -/
abbrev JoinedRow (ρ : Type) := List (Nat × Option ρ)

/-- The row of a scope. -/
def rowAt {ρ : Type} (f : JoinedRow ρ) (scope : Nat) : Option ρ := (f.lookup scope).join

/-- The rows of each join's target, and which of them belong to a row above. -/
structure Tables (ρ : Type) where
  rows : Nat → List ρ
  connects : Nat → ρ → ρ → Bool

/-- Every list of the first with every list of the second and so on. -/
def product {α : Type} : List (List (List α)) → List (List α)
  | [] => [[]]
  | xs :: rest => xs.flatMap fun x => (product rest).map (x ++ ·)

section Product
variable {α : Type}

theorem product_ne_nil {xss : List (List (List α))} : product xss ≠ [] ↔ ∀ xs ∈ xss, xs ≠ [] := by
  induction xss with
  | nil => simp [product]
  | cons xs rest ih =>
    rw [List.forall_mem_cons, ← ih, product, Ne, List.flatMap_eq_nil_iff]
    constructor
    · intro h
      refine ⟨fun hxs => h fun x hx => absurd (hxs ▸ hx) List.not_mem_nil, fun hrest => h ?_⟩
      simp [hrest]
    · rintro ⟨hxs, hrest⟩ hall
      obtain ⟨x, hx⟩ := List.exists_mem_of_ne_nil xs hxs
      exact hrest (List.map_eq_nil_iff.1 (hall x hx))

theorem product_singletons {β : Type} (f : β → List α) (xs : List β) :
    product (xs.map fun x => [f x]) = [xs.flatMap f] := by
  induction xs with
  | nil => rfl
  | cons x rest ih => simp [product, ih]

theorem mem_product_append {as bs : List (List (List α))} {f : List α} :
    f ∈ product (as ++ bs) ↔ ∃ a ∈ product as, ∃ b ∈ product bs, f = a ++ b := by
  induction as generalizing f with
  | nil => simp [product]
  | cons xs rest ih =>
    simp only [List.cons_append, product, List.mem_flatMap, List.mem_map, ih]
    constructor
    · rintro ⟨x, hx, _, ⟨a, ha, b, hb, rfl⟩, rfl⟩
      exact ⟨x ++ a, ⟨x, hx, a, ha, rfl⟩, b, hb, (List.append_assoc ..).symm⟩
    · rintro ⟨_, ⟨x, hx, a, ha, rfl⟩, b, hb, rfl⟩
      exact ⟨x, hx, a ++ b, ⟨a, ha, b, hb, rfl⟩, (List.append_assoc ..).symm⟩

theorem mem_product_cons {xs : List (List α)} {bs : List (List (List α))} {f : List α} :
    f ∈ product (xs :: bs) ↔ ∃ x ∈ xs, ∃ b ∈ product bs, f = x ++ b := by
  simp only [product, List.mem_flatMap, List.mem_map, eq_comm]

end Product

section Expand
variable {ρ : Type} (g : JoinGraph) (needed : List Nat) (T : Tables ρ) (flipped : List Nat)

/-- A row of a join's target meets a row above it when the two belong together and it has a row for
each join flipped below it. -/
def meets (j : Nat) (r t : ρ) : Bool :=
  T.connects j r t && (g.demands flipped j).all fun child => (T.rows child).any (T.connects child t)

/-- What a join finds for a row above it, with the rows below what it finds. -/
def finds (deeper : ρ → List (JoinedRow ρ)) (j : Nat) (r : ρ) : List (JoinedRow ρ) :=
  (T.rows j).flatMap fun t =>
    if g.meets T flipped j r t then (deeper t).map ((j + 1, some t) :: ·) else []

/-- A join and all below it are empty. -/
def absence (depth j : Nat) : JoinedRow ρ :=
  (j :: g.descend needed depth (j + 1)).map fun k => (k + 1, none)

/-- The rows that the joins below a scope have for a row of it. -/
def expand : Nat → Nat → ρ → List (JoinedRow ρ)
  | 0, _, _ => [[]]
  | depth + 1, scope, r => product ((g.branches needed scope).map fun j =>
      orAbsent (g.kind flipped j) (g.absence needed depth j)
        (g.finds T flipped (expand depth (j + 1)) j r))

/-- The rows that one join and all below it have for a row above. -/
def branchRows (depth j : Nat) (r : ρ) : List (JoinedRow ρ) :=
  orAbsent (g.kind flipped j) (g.absence needed depth j)
    (g.finds T flipped (g.expand needed T flipped depth (j + 1)) j r)

end Expand

variable {g : JoinGraph} {needed flipped : List Nat} {ρ : Type} {T : Tables ρ}

theorem expand_succ (depth scope : Nat) (r : ρ) :
    g.expand needed T flipped (depth + 1) scope r =
      product ((g.branches needed scope).map fun j =>
        g.branchRows needed T flipped depth j r) := rfl

theorem mem_finds {deeper : ρ → List (JoinedRow ρ)} {j : Nat} {r : ρ} {x : JoinedRow ρ} :
    x ∈ g.finds T flipped deeper j r ↔
      ∃ t ∈ T.rows j, g.meets T flipped j r t = true ∧
        ∃ f ∈ deeper t, x = (j + 1, some t) :: f := by
  simp only [finds, List.mem_flatMap]
  refine exists_congr fun t => and_congr_right fun _ => ?_
  by_cases hmeets : g.meets T flipped j r t = true
  · simp [hmeets, eq_comm]
  · simp [hmeets]

theorem finds_eq_nil {deeper : ρ → List (JoinedRow ρ)} {j : Nat} {r : ρ} :
    g.finds T flipped deeper j r = [] ↔
      ∀ t ∈ T.rows j, g.meets T flipped j r t = true → deeper t = [] := by
  simp only [finds, List.flatMap_eq_nil_iff]
  refine forall₂_congr fun t _ => ?_
  by_cases hmeets : g.meets T flipped j r t = true
  · simp [hmeets]
  · simp [hmeets]

theorem finds_eq_filter (deeper : ρ → List (JoinedRow ρ)) (j : Nat) (r : ρ) :
    g.finds T flipped deeper j r = ((T.rows j).filter (g.meets T flipped j r)).flatMap fun t =>
      (deeper t).map ((j + 1, some t) :: ·) := by
  rw [finds]
  induction T.rows j with
  | nil => rfl
  | cons t rest ih =>
    rw [List.flatMap_cons, ih]
    by_cases hmeets : g.meets T flipped j r t = true
    · rw [if_pos hmeets, List.filter_cons_of_pos hmeets, List.flatMap_cons]
    · rw [if_neg hmeets, List.filter_cons_of_neg hmeets, List.nil_append]

/-! ### Which scopes a row has -/

theorem keys_product {js : List Nat} {rows : Nat → List (JoinedRow ρ)} {keys : Nat → List Nat}
    (h : ∀ j ∈ js, ∀ x ∈ rows j, x.map Prod.fst = keys j) {f : JoinedRow ρ}
    (hf : f ∈ product (js.map rows)) : f.map Prod.fst = js.flatMap keys := by
  induction js generalizing f with
  | nil =>
    obtain rfl := List.mem_singleton.1 hf
    rfl
  | cons j rest ih =>
    obtain ⟨x, hx, b, hb, rfl⟩ := mem_product_cons.1 hf
    rw [List.map_append, h j (List.mem_cons_self ..) x hx,
      ih (fun k hk => h k (List.mem_cons_of_mem _ hk)) hb, List.flatMap_cons]

theorem keys_absence (depth j : Nat) :
    (g.absence needed depth j : JoinedRow ρ).map Prod.fst =
      (j :: g.descend needed depth (j + 1)).map (· + 1) := by
  rw [absence, List.map_map]
  rfl

theorem keys_branchRows_of {depth j : Nat} {r : ρ} {x : JoinedRow ρ}
    (hdeeper : ∀ t, ∀ f ∈ g.expand needed T flipped depth (j + 1) t,
      f.map Prod.fst = (g.descend needed depth (j + 1)).map (· + 1))
    (hx : x ∈ g.branchRows needed T flipped depth j r) :
    x.map Prod.fst = (j :: g.descend needed depth (j + 1)).map (· + 1) := by
  rcases Sql.mem_orAbsent hx with hx | ⟨-, -, rfl⟩
  · obtain ⟨t, -, -, f, hf, rfl⟩ := mem_finds.1 hx
    rw [List.map_cons, hdeeper t f hf, List.map_cons]
  · exact keys_absence depth j

/-- A row has each scope below once, in their order. -/
theorem keys_expand {depth scope : Nat} {r : ρ} {f : JoinedRow ρ}
    (hf : f ∈ g.expand needed T flipped depth scope r) :
    f.map Prod.fst = (g.descend needed depth scope).map (· + 1) := by
  induction depth generalizing scope r f with
  | zero =>
    obtain rfl := List.mem_singleton.1 hf
    rfl
  | succ depth ih =>
    rw [descend, List.map_flatMap]
    exact keys_product (fun j _ x hx => keys_branchRows_of (fun t f hf => ih hf) hx)
      (expand_succ depth scope r ▸ hf)

theorem keys_branchRows {depth j : Nat} {r : ρ} {x : JoinedRow ρ}
    (hx : x ∈ g.branchRows needed T flipped depth j r) :
    x.map Prod.fst = (j :: g.descend needed depth (j + 1)).map (· + 1) :=
  keys_branchRows_of (fun _ _ => keys_expand) hx

theorem lookup_eq_none {f : JoinedRow ρ} {scope : Nat} (h : scope ∉ f.map Prod.fst) :
    f.lookup scope = none := by
  refine List.lookup_eq_none_iff.2 fun entry hentry => ?_
  simpa using fun heq : scope = entry.1 => h (heq ▸ List.mem_map_of_mem hentry)

theorem rowAt_append_right {a f : JoinedRow ρ} {scope : Nat} (h : scope ∉ a.map Prod.fst) :
    rowAt (a ++ f) scope = rowAt f scope := by
  rw [rowAt, List.lookup_append, lookup_eq_none h, Option.none_or, rowAt]

theorem rowAt_append_left {x b : JoinedRow ρ} {scope : Nat} (h : scope ∈ x.map Prod.fst) :
    rowAt (x ++ b) scope = rowAt x scope := by
  obtain ⟨entry, hentry, rfl⟩ := List.mem_map.1 h
  have hsome : (x.lookup entry.1).isSome = true :=
    List.lookup_isSome_iff.2 ⟨entry, hentry, beq_self_eq_true _⟩
  rw [rowAt, List.lookup_append, Option.or_of_isSome hsome, rowAt]

@[simp] theorem rowAt_cons_self (scope : Nat) (r : Option ρ) (f : JoinedRow ρ) :
    rowAt ((scope, r) :: f) scope = r := by
  simp [rowAt]

/-- Where nothing was found nothing is. -/
theorem rowAt_absence (depth j scope : Nat) :
    rowAt (g.absence needed depth j : JoinedRow ρ) scope = none := by
  rw [rowAt, Option.join_eq_none_iff]
  cases h : (g.absence needed depth j : JoinedRow ρ).lookup scope with
  | none => exact .inl rfl
  | some r =>
    obtain ⟨before, after, heq, -⟩ := List.lookup_eq_some_iff.1 h
    have hmem : (scope, r) ∈ (g.absence needed depth j : JoinedRow ρ) := heq ▸ by simp
    obtain ⟨k, -, hk⟩ := List.mem_map.1 hmem
    exact .inr (congrArg some (Prod.mk.inj hk).2.symm)

/-! ### One branch of a row -/

section Branch
variable (hg : g.Rooted) (hclosed : g.Closed needed) {depth scope c : Nat} {r : ρ}
  (hc : c ∈ g.branches needed scope)
include hg hclosed hc

/-- Among rows of the branches next to it a row of one branch is what its scopes have. -/
theorem Rooted.rowAt_branches {js ks : List Nat} (hsplit : g.branches needed scope = js ++ c :: ks)
    {a x b : JoinedRow ρ}
    (ha : a ∈ product (js.map fun j => g.branchRows needed T flipped depth j r))
    (hx : x ∈ g.branchRows needed T flipped depth c r) :
    ∀ k ∈ c :: g.descend needed depth (c + 1),
      rowAt ((scope, some r) :: (a ++ (x ++ b))) (k + 1) = rowAt x (k + 1) := by
  intro k hk
  have hkeys := keys_product (fun j _ y hy => keys_branchRows hy) ha
  have hnodup := hg.nodup_descend hclosed (depth + 1) scope
  rw [descend, hsplit, List.flatMap_append, List.flatMap_cons, List.nodup_append] at hnodup
  have hbefore : k + 1 ∉ ((scope, some r) :: a : JoinedRow ρ).map Prod.fst := by
    rw [List.map_cons, List.mem_cons, not_or, hkeys, ← List.map_flatMap]
    refine ⟨fun heq => ?_, fun hmem => ?_⟩
    · have hbelow : k ∈ g.descend needed (depth + 1) scope := List.mem_flatMap.2 ⟨c, hc, hk⟩
      have hle := (hg.mem_descend hbelow).1
      omega
    · obtain ⟨k', hk', heq⟩ := List.mem_map.1 hmem
      obtain rfl : k' = k := Nat.succ.inj heq
      exact hnodup.2.2 k' hk' k' (List.mem_append_left _ hk) rfl
  rw [← List.cons_append, rowAt_append_right hbefore,
    rowAt_append_left (keys_branchRows hx ▸ List.mem_map_of_mem hk)]

/-- In a row of a scope stands a row of each branch. -/
theorem Rooted.branch_of_expand {f : JoinedRow ρ}
    (hf : f ∈ g.expand needed T flipped (depth + 1) scope r) :
    ∃ x ∈ g.branchRows needed T flipped depth c r, ∀ k ∈ c :: g.descend needed depth (c + 1),
      rowAt ((scope, some r) :: f) (k + 1) = rowAt x (k + 1) := by
  obtain ⟨js, ks, hsplit⟩ := List.append_of_mem hc
  rw [expand_succ, hsplit, List.map_append, List.map_cons] at hf
  obtain ⟨a, ha, b, hb, rfl⟩ := mem_product_append.1 hf
  obtain ⟨x, hx, b, -, rfl⟩ := mem_product_cons.1 hb
  exact ⟨x, hx, hg.rowAt_branches hclosed hc hsplit ha hx⟩

/-- If a scope has a row at all, each row of each branch stands in one. -/
theorem Rooted.expand_of_branch (hne : g.expand needed T flipped (depth + 1) scope r ≠ [])
    {x : JoinedRow ρ} (hx : x ∈ g.branchRows needed T flipped depth c r) :
    ∃ f ∈ g.expand needed T flipped (depth + 1) scope r,
      ∀ k ∈ c :: g.descend needed depth (c + 1),
        rowAt ((scope, some r) :: f) (k + 1) = rowAt x (k + 1) := by
  obtain ⟨js, ks, hsplit⟩ := List.append_of_mem hc
  rw [expand_succ, hsplit, List.map_append, List.map_cons] at hne ⊢
  obtain ⟨f, hf⟩ := List.exists_mem_of_ne_nil _ hne
  obtain ⟨a, ha, b, hb, -⟩ := mem_product_append.1 hf
  obtain ⟨y, -, b, hb, -⟩ := mem_product_cons.1 hb
  exact ⟨a ++ (x ++ b), mem_product_append.2 ⟨a, ha, x ++ b, mem_product_cons.2 ⟨x, hx, b, hb, rfl⟩,
    rfl⟩, hg.rowAt_branches hclosed hc hsplit ha hx⟩

end Branch

end EntityQuery.JoinGraph
