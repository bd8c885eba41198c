import EntityQuery.Proofs.Member.Homed

/-! Scopes by the way to them.

The numbers of scopes are an accident of the order in which joins were made. The navigations
followed from the root are not: a scope is known by its trail (`Homed.trail_injective`), and a trail
stays what it is while the graph grows. Moving on from a scope is therefore said by the navigations
that are followed (`Leads`): where it comes to, and that the graph has afterwards the trails that it
had and those that the way passes, and no others. Following a navigation leads over it
(`leads_reach`), and climbing over the bases up to the owner (`leads_climbTo`). -/
namespace EntityQuery

/-- The navigations to bases between an entity and the one that stands at `owner`. -/
def Schema.ascent (s : Schema) (id owner : Nat) : List Navigation :=
  ((s.lineage (s.entity id)).takeWhile (·.id != owner)).filterMap (·.baseNavigation?)

namespace Schema.Ascends

variable {s : Schema} {id owner : Nat}

theorem id_of_base (hs : s.Ascends) {base : Navigation}
    (hbase : (s.entity id).baseNavigation? = some base) : (s.entity id).id = id :=
  (hs.placed id).resolve_left fun hnone => by
    rw [hnone] at hbase
    exact absurd (List.mem_of_find?_eq_some hbase) List.not_mem_nil

theorem ascent_ends (hs : s.Ascends) (hnone : (s.entity id).baseNavigation? = none) :
    s.ascent id owner = [] := by
  rw [ascent, hs.ends id hnone, List.takeWhile_cons]
  split <;> simp [hnone]

theorem ascent_self (hs : s.Ascends) : s.ascent id id = [] := by
  cases hbase : (s.entity id).baseNavigation? with
  | none => exact hs.ascent_ends hbase
  | some base => simp [ascent, hs.climbs id base hbase, hs.id_of_base hbase]

theorem ascent_base (hs : s.Ascends) (hne : id ≠ owner) {base : Navigation}
    (hbase : (s.entity id).baseNavigation? = some base) :
    s.ascent id owner = base :: s.ascent base.target owner := by
  rw [ascent, hs.climbs id base hbase,
    List.takeWhile_cons_of_pos (by simp [hs.id_of_base hbase, hne]),
    List.filterMap_cons_some hbase]
  rfl

end Schema.Ascends

namespace JoinGraph

variable {s : Schema} {g g' g'' : JoinGraph} {scope : Nat}

/-! ### Trails -/

/-- The navigations that are followed from the root to a scope. -/
def trail (g : JoinGraph) (scope : Nat) : List Navigation :=
  (g.rootPath scope).filterMap fun j => g.joins[j]?.map (·.navigation)

/-- Some scope is reached by these navigations. -/
def Has (g : JoinGraph) (t : List Navigation) : Prop :=
  ∃ scope ≤ g.joins.length, g.trail scope = t

@[simp] theorem trail_zero (g : JoinGraph) : g.trail 0 = [] := by
  rw [trail, rootPath_zero, List.filterMap_nil]

theorem parent_eq {j : Nat} {join : GraphJoin} (h : g.joins[j]? = some join) :
    g.parent j = join.parent := by
  simp [parent, h]

/-- The trail of a join's scope is that of its parent and then its navigation. -/
theorem Rooted.trail_succ (hg : g.Rooted) {j : Nat} {join : GraphJoin}
    (h : g.joins[j]? = some join) :
    g.trail (j + 1) = g.trail join.parent ++ [join.navigation] := by
  obtain ⟨hlen, -⟩ := List.getElem?_eq_some_iff.1 h
  rw [trail, hg.rootPath_succ hlen, List.filterMap_append, parent_eq h, trail]
  simp [h]

theorem Rooted.parent_le (hg : g.Rooted) {j : Nat} {join : GraphJoin}
    (h : g.joins[j]? = some join) : join.parent ≤ j :=
  parent_eq h ▸ hg j

/-- Growing a graph leaves the trails of the scopes that are there. -/
theorem Grows.trail (h : g.Grows g') (hg : g.Rooted) (hg' : g'.Rooted)
    (hscope : scope ≤ g.joins.length) : g'.trail scope = g.trail scope := by
  induction scope using Nat.strongRecOn with
  | ind scope ih =>
    match scope with
    | 0 => rw [trail_zero, trail_zero]
    | j + 1 =>
      have hget : g.joins[j]? = some g.joins[j] := List.getElem?_eq_getElem hscope
      have hget' := (h.getElem? hscope).trans hget
      have hle := hg.parent_le hget
      rw [hg.trail_succ hget, hg'.trail_succ hget', ih _ (by omega) (by omega)]

theorem Grows.has (h : g.Grows g') (hg : g.Rooted) (hg' : g'.Rooted) {t : List Navigation}
    (ht : g.Has t) : g'.Has t := by
  obtain ⟨scope, hscope, rfl⟩ := ht
  exact ⟨scope, Nat.le_trans hscope h.length_le, h.trail hg hg' hscope⟩

/-- **A scope is known by its trail.** -/
theorem Homed.trail_injective (hg : g.Homed s) {a b : Nat} (ha : a ≤ g.joins.length)
    (hb : b ≤ g.joins.length) (h : g.trail a = g.trail b) : a = b := by
  induction a using Nat.strongRecOn generalizing b with
  | ind a ih =>
    have hget : ∀ j, j + 1 ≤ g.joins.length → ∃ join, g.joins[j]? = some join := fun j hj =>
      ⟨_, List.getElem?_eq_getElem hj⟩
    match a, b with
    | 0, 0 => rfl
    | 0, k + 1 =>
      obtain ⟨join, hjoin⟩ := hget k hb
      simp [hg.rooted.trail_succ hjoin] at h
    | j + 1, 0 =>
      obtain ⟨join, hjoin⟩ := hget j ha
      simp [hg.rooted.trail_succ hjoin] at h
    | j + 1, k + 1 =>
      obtain ⟨join, hjoin⟩ := hget j ha
      obtain ⟨join', hjoin'⟩ := hget k hb
      rw [hg.rooted.trail_succ hjoin, hg.rooted.trail_succ hjoin', List.append_singleton_inj] at h
      have hle := hg.rooted.parent_le hjoin
      have hle' := hg.rooted.parent_le hjoin'
      have hparent := ih join.parent (by omega) (by omega) (by omega) h.1
      have hfirst := hg.first hjoin
      rw [hparent, h.2, hg.first hjoin'] at hfirst
      rw [Option.some.inj hfirst]

/-- The trail of a scope that a way ends at has a scope for each of its beginnings. -/
theorem Rooted.has_prefix (hg : g.Rooted) (hscope : scope ≤ g.joins.length) {t : List Navigation}
    (ht : t <+: g.trail scope) : g.Has t := by
  induction scope using Nat.strongRecOn with
  | ind scope ih =>
    match scope with
    | 0 =>
      rw [trail_zero, List.prefix_nil] at ht
      exact ⟨0, Nat.zero_le _, by rw [trail_zero, ht]⟩
    | j + 1 =>
      have hget : g.joins[j]? = some g.joins[j] := List.getElem?_eq_getElem hscope
      have hle := hg.parent_le hget
      have hall := hg.trail_succ hget
      rw [hall, List.prefix_concat_iff] at ht
      rcases ht with rfl | ht
      · exact ⟨j + 1, hscope, hall⟩
      · exact ih _ (by omega) (by omega) ht

/-! ### Moving on -/

/-- A way over these navigations leads from a scope to another one of a grown graph, and nothing is
joined but on it. -/
structure Leads (s : Schema) (g : JoinGraph) (scope : Nat) (way : List Navigation)
    (g' : JoinGraph) (next : Nat) : Prop where
  homed : g'.Homed s
  grows : g.Grows g'
  reached : next ≤ g'.joins.length
  trail : g'.trail next = g.trail scope ++ way
  has : ∀ t, g'.Has t ↔ g.Has t ∨ ∃ front, front <+: way ∧ t = g.trail scope ++ front

theorem prefix_append_iff {α : Type} {front as bs : List α} :
    front <+: as ++ bs ↔ front <+: as ∨ ∃ rest, rest <+: bs ∧ front = as ++ rest := by
  constructor
  · intro h
    rcases List.prefix_or_prefix_of_prefix h (List.prefix_append as bs) with h' | ⟨rest, rfl⟩
    · exact .inl h'
    · exact .inr ⟨rest, (List.prefix_append_right_inj as).1 h, rfl⟩
  · rintro (h | ⟨rest, hrest, rfl⟩)
    · exact h.trans (List.prefix_append ..)
    · exact (List.prefix_append_right_inj as).2 hrest

namespace Leads
variable {next last : Nat} {way way' : List Navigation}

theorem stay (hg : g.Homed s) (hscope : scope ≤ g.joins.length) : Leads s g scope [] g scope where
  homed := hg
  grows := .refl g
  reached := hscope
  trail := (List.append_nil _).symm
  has t := by
    refine ⟨.inl, ?_⟩
    rintro (h | ⟨front, hfront, rfl⟩)
    · exact h
    · rw [List.prefix_nil.1 hfront, List.append_nil]
      exact ⟨scope, hscope, rfl⟩

theorem trans (h : Leads s g scope way g' next) (h' : Leads s g' next way' g'' last) :
    Leads s g scope (way ++ way') g'' last where
  homed := h'.homed
  grows := h.grows.trans h'.grows
  reached := h'.reached
  trail := by rw [h'.trail, h.trail, List.append_assoc]
  has t := by
    rw [h'.has, h.has, or_assoc, h.trail]
    refine or_congr_right ⟨?_, ?_⟩
    · rintro (⟨front, hfront, rfl⟩ | ⟨front, hfront, rfl⟩)
      · exact ⟨front, hfront.trans (List.prefix_append ..), rfl⟩
      · exact ⟨way ++ front, (List.prefix_append_right_inj way).2 hfront, List.append_assoc ..⟩
    · rintro ⟨front, hfront, rfl⟩
      rcases prefix_append_iff.1 hfront with hfront | ⟨rest, hrest, rfl⟩
      · exact .inl ⟨front, hfront, rfl⟩
      · exact .inr ⟨rest, hrest, (List.append_assoc ..).symm⟩

end Leads

section Told
variable (ht : s.TellsApart)
include ht

/-- A navigation is followed over itself. -/
theorem leads_reach (hg : g.Homed s) (hscope : scope ≤ g.joins.length) {n : Navigation}
    (hn : n ∈ (g.entity s scope).navigations) :
    Leads s g scope [n] (g.reach scope n).1 (g.reach scope n).2 := by
  obtain ⟨hhomed, j, hj, hget⟩ := homed_reach ht hg hscope hn
  have hgrows : g.Grows (g.reach scope n).1 := ⟨root_reach .., joins_reach ..⟩
  have htrail : (g.reach scope n).1.trail (g.reach scope n).2 = g.trail scope ++ [n] := by
    rw [hj, hhomed.rooted.trail_succ hget, hgrows.trail hg.rooted hhomed.rooted hscope]
  refine ⟨hhomed, hgrows, reach_le g scope n, htrail, fun t => ⟨?_, ?_⟩⟩
  · rintro ⟨other, hother, rfl⟩
    -- A scope that was not there before is the one that was just joined.
    by_cases hold : other ≤ g.joins.length
    · exact .inl ⟨other, hold, (hgrows.trail hg.rooted hhomed.rooted hold).symm⟩
    · refine .inr ⟨[n], List.prefix_rfl, ?_⟩
      cases hfind : g.find? scope n.name with
      | some k =>
        rw [reach_of_find? hfind] at hother
        exact absurd hother hold
      | none =>
        rw [← htrail]
        rw [reach_of_none hfind] at hother ⊢
        simp only [List.length_append, List.length_singleton] at hother
        rw [show other = g.joins.length + 1 by omega]
  · rintro (h | ⟨front, hfront, rfl⟩)
    · exact hgrows.has hg.rooted hhomed.rooted h
    · refine hhomed.rooted.has_prefix (reach_le g scope n) ?_
      rw [htrail]
      exact (List.prefix_append_right_inj _).2 hfront

/-- The entity that a navigation has led to. -/
theorem entityAt_reach (hg : g.Homed s) (hscope : scope ≤ g.joins.length) {n : Navigation}
    (hn : n ∈ (g.entity s scope).navigations) :
    (g.reach scope n).1.entityAt (g.reach scope n).2 = n.target := by
  obtain ⟨-, j, hj, hget⟩ := homed_reach ht hg hscope hn
  rw [hj]
  simp [entityAt, hget]

variable (hs : s.Ascends)
include hs

theorem leads_climb (hg : g.Homed s) (hscope : scope ≤ g.joins.length) {owner fuel : Nat}
    (hend : Settled s (climb s g scope owner fuel).1 (climb s g scope owner fuel).2 owner) :
    Leads s g scope (s.ascent (g.entityAt scope) owner) (climb s g scope owner fuel).1
      (climb s g scope owner fuel).2 := by
  have hsettles : ∀ {g scope}, Settled s g scope owner →
      s.ascent (g.entityAt scope) owner = [] := by
    rintro g scope (hat | hnone)
    · rw [hat, hs.ascent_self]
    · exact hs.ascent_ends hnone
  induction fuel generalizing g scope with
  | zero =>
    have hend : Settled s g scope owner := hend
    rw [hsettles hend]
    exact .stay hg hscope
  | succ fuel ih =>
    by_cases hsettled : Settled s g scope owner
    · rw [hsettles hsettled, climb_settled hsettled]
      exact .stay hg hscope
    · obtain ⟨ho, base, hb⟩ := next_of_not_settled hsettled
      have hmem : base ∈ (g.entity s scope).navigations := List.mem_of_find?_eq_some hb
      have hreach := leads_reach ht hg hscope hmem
      rw [climb_step ho hb] at hend ⊢
      rw [hs.ascent_base ho hb, ← entityAt_reach ht hg hscope hmem]
      exact hreach.trans (ih hreach.homed hreach.reached hend)

/-- A climb to the owner of a member leads over the bases in between. -/
theorem leads_climbTo (hacyclic : s.Acyclic) (hg : g.Homed s) (hscope : scope ≤ g.joins.length)
    (owner : Nat) : Leads s g scope (s.ascent (g.entityAt scope) owner) (climbTo s g scope owner).1
      (climbTo s g scope owner).2 :=
  leads_climb ht hs hg hscope (hg.rooted.climb_settles hacyclic hscope (by omega))

end Told

end JoinGraph
end EntityQuery
