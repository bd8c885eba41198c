import EntityQuery.Proofs.Member.Steady

/-! Paths that end at the root.

Every navigation that is followed leads away from the root, and so does every base that is climbed
to: nothing ever comes back to scope 0. So a path whose column is the root's own has joined nothing
on its way (`graph_of_atRoot`). -/
namespace EntityQuery

variable {s : Schema} {g : JoinGraph}

namespace JoinGraph

theorem reach_ne_zero (g : JoinGraph) (scope : Nat) (n : Navigation) : (g.reach scope n).2 ≠ 0 := by
  unfold reach
  split <;> exact Nat.succ_ne_zero _

theorem climb_zero {scope owner fuel : Nat} (h : (climb s g scope owner fuel).2 = 0) :
    scope = 0 ∧ (climb s g scope owner fuel).1 = g := by
  induction fuel generalizing g scope with
  | zero => exact ⟨h, rfl⟩
  | succ fuel ih =>
    unfold climb at h ⊢
    by_cases howner : g.entityAt scope = owner
    · rw [if_pos howner] at h ⊢
      exact ⟨h, rfl⟩
    · rw [if_neg howner] at h ⊢
      cases hbase : (g.entity s scope).baseNavigation? with
      | none =>
        simp only [hbase] at h ⊢
        exact ⟨h, trivial⟩
      | some base =>
        simp only [hbase] at h
        exact absurd (ih h).1 (reach_ne_zero g scope base)

end JoinGraph

namespace Member

theorem walk_zero {scope : Nat} {names : List String} (h : (walk s g scope names).2 = .ok 0) :
    scope = 0 ∧ (walk s g scope names).1 = g := by
  induction names generalizing g scope with
  | nil => exact ⟨Except.ok.inj h, rfl⟩
  | cons name rest ih =>
    cases hn : s.nearestNavigation? (g.entity s scope) name with
    | none => simp [walk_none hn] at h
    | some found =>
      obtain ⟨owner, n⟩ := found
      rw [walk_some hn] at h
      exact absurd (ih h).1 (JoinGraph.reach_ne_zero _ _ n)

theorem leaf_zero {scope : Nat} {name column : String}
    (h : (leaf s g scope name).2 = .ok (0, column)) : scope = 0 ∧ (leaf s g scope name).1 = g := by
  cases hp : s.nearestProperty? (g.entity s scope) name with
  | some found =>
    obtain ⟨owner, property⟩ := found
    cases hi : property.ignored with
    | true => simp [leaf, hp, hi] at h
    | false =>
      simp only [leaf, hp, hi] at h ⊢
      exact JoinGraph.climb_zero (Prod.mk.inj (Except.ok.inj h)).1
  | none =>
    by_cases hn : (s.nearestNavigation? (g.entity s scope) name).isSome
    · simp [leaf, hp, hn] at h
    · simp only [leaf, hp, hn] at h ⊢
      exact ⟨(Prod.mk.inj (Except.ok.inj h)).1, rfl⟩

theorem follow_zero {path column : String} (h : (follow s g path).2 = .ok (0, column)) :
    (follow s g path).1 = g := by
  by_cases hempty : (segments path).any (· == "")
  · simp [follow, hempty] at h
  · rw [follow_eq hempty] at h ⊢
    cases hlast : (walk s g 0 (segments path).dropLast).2 with
    | error fault => simp [hlast, finish] at h
    | ok scope =>
      simp only [hlast, finish] at h ⊢
      obtain ⟨rfl, hleaf⟩ := leaf_zero h
      rw [hleaf, (walk_zero hlast).2]

/-- A path to a column of the root joins nothing. -/
theorem graph_of_atRoot {path : String} {c : Column} (h : (resolve s g path).2 = .ok c)
    (hc : c.scope = 0) : (resolve s g path).1 = g := by
  simp only [resolve_eq, Except.mapError_eq_ok] at h ⊢
  by_cases hcount : isRowCount path
  · simp [locate, hcount]
  · -- What is measured is at the root when what was followed is.
    have hmeasured : ∀ target measure, (measured s path target measure g).2 = .ok c →
        (measured s path target measure g).1 = g := fun target measure h => by
      obtain ⟨⟨scope, column⟩, hfollow, rfl⟩ := Except.map_eq_ok.1 h
      obtain rfl : scope = 0 := hc
      exact follow_zero hfollow
    cases happlied : applied? path with
    | none =>
      rw [locate_value hcount happlied] at h ⊢
      exact hmeasured path .value h
    | some applied =>
      obtain ⟨function, argument⟩ := applied
      by_cases hnested : '(' ∈ (Text.trim argument).toList
      · simp [locate, hcount, happlied, hnested] at h
      · rw [locate_aggregate hcount happlied hnested] at h ⊢
        exact hmeasured _ (.aggregate (Text.capitals function)) h

/-- Paths to columns of the root join nothing one after another. -/
theorem resolveEach_atRoot {paths : List String}
    (h : ∀ path ∈ paths, ∃ c, (resolve s g path).2 = .ok c ∧ c.scope = 0) :
    ∃ columns, resolveEach s g paths = .ok (g, columns) := by
  induction paths with
  | nil => exact ⟨[], rfl⟩
  | cons path rest ih =>
    obtain ⟨c, hfound, hc⟩ := h path (List.mem_cons_self ..)
    obtain ⟨columns, hcolumns⟩ := ih fun other hother => h other (List.mem_cons_of_mem _ hother)
    refine ⟨c :: columns, ?_⟩
    simp only [resolveEach, Except.bind_eq_ok, Except.pure_eq_ok, Prod.exists, Prod.mk.injEq]
    refine ⟨c, hfound, g, columns, ?_, rfl, rfl⟩
    rw [graph_of_atRoot hfound hc]
    exact hcolumns

end Member
end EntityQuery
