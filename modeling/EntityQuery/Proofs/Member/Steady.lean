import EntityQuery.Member.Column
import EntityQuery.Proofs.JoinGraph.Growth
import EntityQuery.Proofs.Chain

/-! Members are found again.

To resolve a path is to climb and to follow names, so it is steady: once a path was resolved, its
column is the same in every graph grown since, and nothing needs to be joined for it. The scope of
a column is one that is there. -/
namespace EntityQuery.Member

open JoinGraph (Steady Rooted climbTo)

variable {s : Schema} {g g' : JoinGraph}

/-! ### One path -/

/-- Follows a navigation from the scope of the entity that declares it. -/
def hop (s : Schema) (scope owner : Nat) (n : Navigation) (g : JoinGraph) : JoinGraph × Nat :=
  let (g, origin) := climbTo s g scope owner
  g.reach origin n

theorem walk_none {scope : Nat} {name : String} {rest : List String}
    (hn : s.nearestNavigation? (g.entity s scope) name = none) :
    walk s g scope (name :: rest) = (g, .error (.notNavigation name (g.entity s scope).name)) := by
  simp [walk, hn]

theorem walk_some {scope : Nat} {name : String} {rest : List String} {owner : Entity}
    {n : Navigation} (hn : s.nearestNavigation? (g.entity s scope) name = some (owner, n)) :
    walk s g scope (name :: rest) =
      walk s (hop s scope owner.id n g).1 (hop s scope owner.id n g).2 rest := by
  simp [walk, hn, hop]

theorem hop_le (s : Schema) (scope owner : Nat) (n : Navigation) (g : JoinGraph) :
    (hop s scope owner n g).2 ≤ (hop s scope owner n g).1.joins.length :=
  JoinGraph.reach_le _ _ n

/-- Navigations lead to scopes that are there. -/
theorem walk_le {scope last : Nat} {names : List String} (hscope : scope ≤ g.joins.length)
    (h : (walk s g scope names).2 = .ok last) : last ≤ (walk s g scope names).1.joins.length := by
  induction names generalizing g scope with
  | nil => exact Except.ok.inj h ▸ hscope
  | cons name rest ih =>
    cases hn : s.nearestNavigation? (g.entity s scope) name with
    | none => simp [walk_none hn] at h
    | some found =>
      obtain ⟨owner, n⟩ := found
      rw [walk_some hn] at h ⊢
      exact ih (hop_le ..) h

section Path
variable (hs : s.Acyclic) (hg : g.Rooted) {scope : Nat} (hscope : scope ≤ g.joins.length)
include hs hg hscope

theorem steady_hop (owner : Nat) (n : Navigation) : Steady (hop s scope owner n) g :=
  have hclimb := hg.steady_climbTo hs hscope owner
  hclimb.bind (f := fun origin g => g.reach origin n)
    (hclimb.rooted.steady_reach (hg.climbTo_le hscope) n)

theorem steady_walk (names : List String) : Steady (fun g => walk s g scope names) g := by
  induction names generalizing g scope with
  | nil => exact .const hg (Except.ok scope)
  | cons name rest ih =>
    cases hn : s.nearestNavigation? (g.entity s scope) name with
    | none =>
      refine (Steady.const hg (.error (.notNavigation name (g.entity s scope).name))).congr
        fun hgrows => ?_
      have hentity := hgrows.entity s hscope
      rw [walk_none (by rw [hentity, hn]), hentity]
    | some found =>
      obtain ⟨owner, n⟩ := found
      have hhop := steady_hop hs hg hscope owner.id n
      exact (hhop.bind (f := fun next g => walk s g next rest) (ih hhop.rooted (hop_le ..))).congr
        fun hgrows => walk_some (by rw [hgrows.entity s hscope, hn])

/-- The last name of a path: a property is read where it is declared, and all else where the path
has led. -/
theorem steady_leaf (name : String) :
    Steady (fun g => leaf s g scope name) g ∧ ∀ found, (leaf s g scope name).2 = .ok found →
      found.1 ≤ (leaf s g scope name).1.joins.length := by
  cases hp : s.nearestProperty? (g.entity s scope) name with
  | some declared =>
    obtain ⟨owner, property⟩ := declared
    cases hi : property.ignored with
    | true =>
      refine ⟨(Steady.const hg (.error (.notMapped name))).congr fun hgrows => ?_,
        fun found h => ?_⟩
      · simp [leaf, hgrows.entity s hscope, hp, hi]
      · simp [leaf, hp, hi] at h
    | false =>
      have hclimb := hg.steady_climbTo hs hscope owner.id
      refine ⟨(hclimb.map fun holder => .ok (holder, property.column)).congr fun hgrows => ?_,
        fun found h => ?_⟩
      · simp [leaf, hgrows.entity s hscope, hp, hi]
      · simp only [leaf, hp, hi] at h ⊢
        exact Except.ok.inj h ▸ hg.climbTo_le hscope
  | none =>
    by_cases hn : (s.nearestNavigation? (g.entity s scope) name).isSome
    · refine ⟨(Steady.const hg (.error (.isNavigation name))).congr fun hgrows => ?_,
        fun found h => ?_⟩
      · simp [leaf, hgrows.entity s hscope, hp, hn]
      · simp [leaf, hp, hn] at h
    · refine ⟨(Steady.const hg (.ok (scope, name))).congr fun hgrows => ?_, fun found h => ?_⟩
      · simp [leaf, hgrows.entity s hscope, hp, hn]
      · simp only [leaf, hp, hn] at h ⊢
        exact Except.ok.inj h ▸ hscope

end Path

/-- The last name of a path, once the names before it were followed. -/
def finish (s : Schema) (name : String) :
    Except MemberFault Nat → JoinGraph → JoinGraph × Except MemberFault (Nat × String)
  | .error fault, g => (g, .error fault)
  | .ok scope, g => leaf s g scope name

theorem follow_eq {path : String} (hempty : ¬ (segments path).any (· == "")) :
    follow s g path = finish s ((segments path).getLastD "")
      (walk s g 0 (segments path).dropLast).2 (walk s g 0 (segments path).dropLast).1 := by
  rw [follow, if_neg hempty]
  generalize walk s g 0 (segments path).dropLast = reached
  obtain ⟨g, fault | scope⟩ := reached <;> rfl

/-- What is taken of the column that a dotted path leads to. -/
def measured (s : Schema) (path target : String) (measure : Measure) (g : JoinGraph) :
    JoinGraph × Except MemberFault Column :=
  let (g, found) := follow s g target
  (g, found.map fun (scope, column) => ⟨path, scope, column, measure⟩)

theorem locate_value {path : String} (hcount : ¬ isRowCount path) (happlied : applied? path = none)
    (g : JoinGraph) : locate s g path = measured s path path .value g := by
  simp [locate, hcount, happlied, measured]

theorem locate_aggregate {path function argument : String} (hcount : ¬ isRowCount path)
    (happlied : applied? path = some (function, argument))
    (hnested : '(' ∉ (Text.trim argument).toList) (g : JoinGraph) : locate s g path =
      measured s path (Text.trim argument) (.aggregate (Text.capitals function)) g := by
  simp [locate, hcount, happlied, hnested, measured]

theorem resolve_eq (s : Schema) (g : JoinGraph) (path : String) :
    resolve s g path = ((locate s g path).1, (locate s g path).2.mapError fun fault =>
      Error.ofCause (.member (g.entity s 0).name path fault)) := by
  rw [resolve]

section Resolve
variable (hs : s.Acyclic) (hg : g.Rooted)
include hs hg

theorem steady_follow (path : String) :
    Steady (fun g => follow s g path) g ∧ ∀ found, (follow s g path).2 = .ok found →
      found.1 ≤ (follow s g path).1.joins.length := by
  by_cases hempty : (segments path).any (· == "")
  · refine ⟨(Steady.const hg (.error .emptySegment)).congr fun _ => ?_, fun found h => ?_⟩
    · simp [follow, hempty]
    · simp [follow, hempty] at h
  · have hwalk := steady_walk hs hg (Nat.zero_le _) (segments path).dropLast
    have hfinish : Steady (finish s ((segments path).getLastD "")
          (walk s g 0 (segments path).dropLast).2) (walk s g 0 (segments path).dropLast).1 ∧
        ∀ found, (follow s g path).2 = .ok found →
          found.1 ≤ (follow s g path).1.joins.length := by
      rw [follow_eq hempty]
      cases hlast : (walk s g 0 (segments path).dropLast).2 with
      | error fault => exact ⟨.const hwalk.rooted _, fun found h => by simp [finish] at h⟩
      | ok scope => exact steady_leaf hs hwalk.rooted (walk_le (Nat.zero_le _) hlast) _
    exact ⟨(hwalk.bind hfinish.1).congr fun _ => follow_eq hempty, hfinish.2⟩

theorem steady_measured (path target : String) (measure : Measure) :
    Steady (measured s path target measure) g ∧ ∀ c, (measured s path target measure g).2 = .ok c →
      c.scope ≤ (measured s path target measure g).1.joins.length := by
  obtain ⟨hfollow, hle⟩ := steady_follow hs hg target
  refine ⟨hfollow.map fun found => found.map fun (scope, column) =>
    (⟨path, scope, column, measure⟩ : Column), fun c h => ?_⟩
  obtain ⟨found, hfound, rfl⟩ := Except.map_eq_ok.1 h
  exact hle found hfound

theorem steady_locate (path : String) :
    Steady (fun g => locate s g path) g ∧ ∀ c, (locate s g path).2 = .ok c →
      c.scope ≤ (locate s g path).1.joins.length := by
  by_cases hcount : isRowCount path
  · refine ⟨(Steady.const hg (.ok ⟨path, 0, "COUNT", .rowCount⟩)).congr fun _ => ?_, fun c h => ?_⟩
    · simp [locate, hcount]
    · simp only [locate, hcount, if_true] at h
      exact Except.ok.inj h ▸ Nat.zero_le _
  · cases happlied : applied? path with
    | none =>
      have hlocate := locate_value (s := s) hcount happlied
      obtain ⟨hsteady, hle⟩ := steady_measured hs hg path path .value
      exact ⟨hsteady.congr fun _ => hlocate _, hlocate g ▸ hle⟩
    | some applied =>
      obtain ⟨function, argument⟩ := applied
      by_cases hnested : '(' ∈ (Text.trim argument).toList
      · refine ⟨(Steady.const hg (.error .nestedAggregate)).congr fun _ => ?_, fun c h => ?_⟩
        · simp [locate, hcount, happlied, hnested]
        · simp [locate, hcount, happlied, hnested] at h
      · have hlocate := locate_aggregate (s := s) hcount happlied hnested
        obtain ⟨hsteady, hle⟩ := steady_measured hs hg path (Text.trim argument)
          (.aggregate (Text.capitals function))
        exact ⟨hsteady.congr fun _ => hlocate _, hlocate g ▸ hle⟩

/-- Resolving a path is steady, and the scope of its column is there. -/
theorem steady_resolve (path : String) :
    Steady (fun g => resolve s g path) g ∧ ∀ c, (resolve s g path).2 = .ok c →
      c.scope ≤ (resolve s g path).1.joins.length := by
  obtain ⟨hlocate, hle⟩ := steady_locate hs hg path
  refine ⟨(hlocate.map fun found => found.mapError fun fault =>
    Error.ofCause (.member (g.entity s 0).name path fault)).congr fun hgrows => ?_, fun c h => ?_⟩
  · rw [resolve_eq, hgrows.entity s (Nat.zero_le _)]
  · simp only [resolve_eq, Except.mapError_eq_ok] at h ⊢
    exact hle c h

end Resolve

/-! ### Several paths -/

/-- Paths were resolved one after another, from `g` to `g'`: their columns are of scopes that are
there, and every graph grown since has them. -/
structure Found (s : Schema) (g : JoinGraph) (paths : List String) (g' : JoinGraph)
    (columns : List Column) : Prop where
  rooted : g'.Rooted
  grows : g.Grows g'
  bounded : ∀ c ∈ columns, c.scope ≤ g'.joins.length
  again : ∀ path ∈ paths, ∃ c ∈ columns, ∀ {grown}, g'.Grows grown →
    (resolve s grown path).2 = .ok c

namespace Found
variable {g'' : JoinGraph} {paths paths' : List String} {columns columns' : List Column}

theorem nil (hg : g.Rooted) : Found s g [] g [] :=
  ⟨hg, .refl g, by simp, by simp⟩

theorem append (h : Found s g paths g' columns) (h' : Found s g' paths' g'' columns') :
    Found s g (paths ++ paths') g'' (columns ++ columns') where
  rooted := h'.rooted
  grows := h.grows.trans h'.grows
  bounded c hc := by
    rcases List.mem_append.1 hc with hc | hc
    · exact Nat.le_trans (h.bounded c hc) h'.grows.length_le
    · exact h'.bounded c hc
  again path hpath := by
    rcases List.mem_append.1 hpath with hpath | hpath
    · obtain ⟨c, hc, hagain⟩ := h.again path hpath
      exact ⟨c, List.mem_append_left _ hc, fun hgrows => hagain (h'.grows.trans hgrows)⟩
    · obtain ⟨c, hc, hagain⟩ := h'.again path hpath
      exact ⟨c, List.mem_append_right _ hc, hagain⟩

/-- What was found is found in every graph grown since. -/
theorem later (h : Found s g paths g' columns) (hgrows : g'.Grows g'') (hg : g''.Rooted) :
    Found s g paths g'' columns where
  rooted := hg
  grows := h.grows.trans hgrows
  bounded c hc := Nat.le_trans (h.bounded c hc) hgrows.length_le
  again path hpath := by
    obtain ⟨c, hc, hagain⟩ := h.again path hpath
    exact ⟨c, hc, fun hmore => hagain (hgrows.trans hmore)⟩

end Found

theorem resolve_found (hs : s.Acyclic) (hg : g.Rooted) {path : String} {c : Column}
    (h : resolve s g path = (g', .ok c)) : Found s g [path] g' [c] := by
  obtain ⟨⟨hrooted, hgrows, hagain⟩, hle⟩ := steady_resolve hs hg path
  simp only [h] at hrooted hgrows hagain hle
  refine ⟨hrooted, hgrows, by simpa using hle c rfl, fun other hother => ?_⟩
  obtain rfl := List.mem_singleton.1 hother
  exact ⟨c, List.mem_singleton_self c, fun hmore => by rw [hagain hmore]⟩

theorem resolveEach_found (hs : s.Acyclic) (hg : g.Rooted) {paths : List String}
    {columns : List Column} (h : resolveEach s g paths = .ok (g', columns)) :
    Found s g paths g' columns := by
  induction paths generalizing g columns with
  | nil =>
    obtain ⟨rfl, rfl⟩ := Prod.mk.inj (Except.ok.inj h)
    exact .nil hg
  | cons path rest ih =>
    simp only [resolveEach, Except.bind_eq_ok, Except.pure_eq_ok, Prod.exists, Prod.mk.injEq] at h
    obtain ⟨c, hc, grown, others, hothers, rfl, rfl⟩ := h
    have hpath : Found s g [path] (resolve s g path).1 [c] :=
      resolve_found hs hg (by rw [← hc])
    exact hpath.append (ih hpath.rooted hothers)

end EntityQuery.Member
