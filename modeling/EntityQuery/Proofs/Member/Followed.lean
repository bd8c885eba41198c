import EntityQuery.Proofs.Member.Steady

/-! Joins follow navigations.

Whatever is resolved, nothing is joined but along navigations that entities of the schema have. -/
namespace EntityQuery

/-- Each join follows a navigation of some entity. -/
def JoinGraph.Follows (s : Schema) (g : JoinGraph) : Prop :=
  ∀ join ∈ g.joins, ∃ id, join.navigation ∈ (s.entity id).navigations

namespace Member

open JoinGraph (Follows climb climbTo)

variable {s : Schema} {g g' : JoinGraph}

/-! ### What resolving keeps -/

/-- What the two steps keep that following a path is made of: climbing to the entity that declares a
member, and following a navigation from there. -/
structure Kept (s : Schema) (motive : JoinGraph → Prop) : Prop where
  climb : ∀ {g : JoinGraph} {scope : Nat} {name : String} {owner : Entity} {p : Property},
    motive g → scope ≤ g.joins.length →
    s.nearestProperty? (g.entity s scope) name = some (owner, p) →
    motive (climbTo s g scope owner.id).1
  hop : ∀ {g : JoinGraph} {scope : Nat} {name : String} {owner : Entity} {n : Navigation},
    motive g → scope ≤ g.joins.length →
    s.nearestNavigation? (g.entity s scope) name = some (owner, n) →
    motive (hop s scope owner.id n g).1

section Kept
variable {motive : JoinGraph → Prop} (h : Kept s motive)
include h

theorem Kept.walk (hg : motive g) {scope : Nat} (hscope : scope ≤ g.joins.length)
    (names : List String) : motive (Member.walk s g scope names).1 := by
  induction names generalizing g scope with
  | nil => exact hg
  | cons name rest ih =>
    cases hn : s.nearestNavigation? (g.entity s scope) name with
    | none => rwa [walk_none hn]
    | some found =>
      obtain ⟨owner, n⟩ := found
      rw [walk_some hn]
      exact ih (h.hop hg hscope hn) (hop_le ..)

theorem Kept.leaf (hg : motive g) {scope : Nat} (hscope : scope ≤ g.joins.length)
    (name : String) : motive (Member.leaf s g scope name).1 := by
  cases hp : s.nearestProperty? (g.entity s scope) name with
  | none =>
    by_cases hn : (s.nearestNavigation? (g.entity s scope) name).isSome
    · simpa [Member.leaf, hp, hn] using hg
    · simpa [Member.leaf, hp, hn] using hg
  | some found =>
    obtain ⟨owner, property⟩ := found
    cases hi : property.ignored with
    | true => simpa [Member.leaf, hp, hi] using hg
    | false => simpa [Member.leaf, hp, hi] using h.climb hg hscope hp

theorem Kept.follow (hg : motive g) (path : String) : motive (Member.follow s g path).1 := by
  by_cases hempty : (segments path).any (· == "")
  · simpa [Member.follow, hempty] using hg
  · have hwalk := h.walk hg (Nat.zero_le _) (segments path).dropLast
    rw [follow_eq hempty]
    cases hlast : (Member.walk s g 0 (segments path).dropLast).2 with
    | error fault => exact hwalk
    | ok scope => exact h.leaf hwalk (walk_le (Nat.zero_le _) hlast) _

theorem Kept.resolve (hg : motive g) (path : String) : motive (Member.resolve s g path).1 := by
  rw [resolve_eq]
  by_cases hcount : isRowCount path
  · simpa [locate, hcount] using hg
  · cases happlied : applied? path with
    | none => simpa [locate, hcount, happlied] using h.follow hg path
    | some applied =>
      obtain ⟨function, argument⟩ := applied
      by_cases hnested : '(' ∈ (Text.trim argument).toList
      · simpa [locate, hcount, happlied, hnested] using hg
      · simpa [locate, hcount, happlied, hnested] using h.follow hg (Text.trim argument)

/-- What resolving one path keeps is kept by resolving several one after another. -/
theorem Kept.resolveEach (hg : motive g) {paths : List String} {columns : List Column}
    (hpaths : Member.resolveEach s g paths = .ok (g', columns)) : motive g' := by
  induction paths generalizing g columns with
  | nil =>
    obtain ⟨rfl, -⟩ := Prod.mk.inj (Except.ok.inj hpaths)
    exact hg
  | cons path rest ih =>
    simp only [Member.resolveEach, Except.bind_eq_ok, Except.pure_eq_ok, Prod.exists,
      Prod.mk.injEq] at hpaths
    obtain ⟨c, hc, grown, others, hothers, rfl, rfl⟩ := hpaths
    exact ih (h.resolve hg path) hothers

end Kept

/-! ### Navigations -/

theorem follows_ofRoot (s : Schema) (entity : Nat) : (JoinGraph.ofRoot entity).Follows s :=
  fun _ h => absurd h List.not_mem_nil

theorem follows_reach (hg : g.Follows s) {n : Navigation} {id : Nat}
    (hn : n ∈ (s.entity id).navigations) (scope : Nat) : (g.reach scope n).1.Follows s := by
  unfold JoinGraph.reach
  split
  · exact hg
  · intro join hjoin
    rcases List.mem_append.1 hjoin with hjoin | hjoin
    · exact hg join hjoin
    · exact List.mem_singleton.1 hjoin ▸ ⟨id, hn⟩

theorem follows_climb (hg : g.Follows s) (scope owner fuel : Nat) :
    (climb s g scope owner fuel).1.Follows s := by
  induction fuel generalizing g scope with
  | zero => exact hg
  | succ fuel ih =>
    rw [climb]
    by_cases howner : g.entityAt scope = owner
    · rw [if_pos howner]
      exact hg
    · rw [if_neg howner]
      cases hbase : (g.entity s scope).baseNavigation? with
      | none => exact hg
      | some base => exact ih (follows_reach hg (List.mem_of_find?_eq_some hbase) scope) _

theorem follows_climbTo (hg : g.Follows s) (scope owner : Nat) :
    (climbTo s g scope owner).1.Follows s :=
  follows_climb hg scope owner _

theorem mem_lineageFrom {id fuel : Nat} {owner : Entity}
    (h : owner ∈ s.lineageFrom (s.entity id) fuel) : ∃ id, owner = s.entity id := by
  induction fuel generalizing id with
  | zero => exact ⟨id, List.mem_singleton.1 h⟩
  | succ fuel ih =>
    rw [Schema.lineageFrom, Schema.base?] at h
    cases hbase : (s.entity id).base with
    | none =>
      rw [hbase] at h
      exact ⟨id, List.mem_singleton.1 h⟩
    | some base =>
      rw [hbase] at h
      rcases List.mem_cons.1 h with h | h
      · exact ⟨id, h⟩
      · exact ih h

theorem nearestNavigation?_some {scope : Nat} {name : String} {owner : Entity} {n : Navigation}
    (h : s.nearestNavigation? (g.entity s scope) name = some (owner, n)) :
    ∃ id, n ∈ (s.entity id).navigations := by
  obtain ⟨e, he, hn⟩ := List.exists_of_findSome?_eq_some h
  obtain ⟨n', hn', hpair⟩ := Option.map_eq_some_iff.1 hn
  obtain ⟨rfl, rfl⟩ := Prod.mk.inj hpair
  obtain ⟨id, rfl⟩ := mem_lineageFrom he
  exact ⟨id, List.mem_of_find?_eq_some hn'⟩

theorem kept_follows (s : Schema) : Kept s (·.Follows s) where
  climb hg _ _ := follows_climbTo hg _ _
  hop hg _ hn := by
    obtain ⟨id, hmem⟩ := nearestNavigation?_some hn
    exact follows_reach (follows_climbTo hg _ _) hmem _

theorem follows_resolveEach (hg : g.Follows s) {paths : List String} {columns : List Column}
    (h : resolveEach s g paths = .ok (g', columns)) : g'.Follows s :=
  (kept_follows s).resolveEach hg h

end Member
end EntityQuery
