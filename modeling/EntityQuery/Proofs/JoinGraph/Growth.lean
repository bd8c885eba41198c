import EntityQuery.Proofs.JoinGraph.Tree

/-! Growing graphs.

Following a name joins its scope unless it is there, and so a name that was followed once leads to
the same scope ever after, however many joins came since: the step is `Steady`. Steps that are
taken one after another are steady together. Climbing to an ancestor is steady where chains of
bases end (`Acyclic`): it stops at the ancestor, or where there is no base, but never because its
fuel is used up. -/
namespace EntityQuery

/-- From the entity at this position, bases end within so many steps. -/
def Schema.BasesEnd (s : Schema) (id : Nat) : Nat → Prop
  | 0 => (s.entity id).baseNavigation? = none
  | k + 1 => ∀ base, (s.entity id).baseNavigation? = some base → s.BasesEnd base.target k

/-- No entity is among its own ancestors. -/
def Schema.Acyclic (s : Schema) : Prop := ∀ id, s.BasesEnd id s.entities.length

namespace JoinGraph
variable {g g' g'' : JoinGraph}

/-- The second graph is the first with joins appended. -/
structure Grows (g g' : JoinGraph) : Prop where
  root : g'.root = g.root
  joins : g.joins <+: g'.joins

namespace Grows

theorem refl (g : JoinGraph) : g.Grows g := ⟨rfl, List.prefix_rfl⟩

theorem trans (h : g.Grows g') (h' : g'.Grows g'') : g.Grows g'' :=
  ⟨h'.root.trans h.root, h.joins.trans h'.joins⟩

theorem length_le (h : g.Grows g') : g.joins.length ≤ g'.joins.length := h.joins.length_le

theorem getElem? (h : g.Grows g') {j : Nat} (hj : j < g.joins.length) :
    g'.joins[j]? = g.joins[j]? := by
  obtain ⟨rest, hrest⟩ := h.joins
  rw [← hrest, List.getElem?_append_left hj]

theorem entityAt (h : g.Grows g') {scope : Nat} (hs : scope ≤ g.joins.length) :
    g'.entityAt scope = g.entityAt scope := by
  cases scope with
  | zero => exact h.root
  | succ j => rw [JoinGraph.entityAt, JoinGraph.entityAt, h.getElem? hs, h.root]

theorem entity (h : g.Grows g') (s : Schema) {scope : Nat} (hs : scope ≤ g.joins.length) :
    g'.entity s scope = g.entity s scope := by
  rw [JoinGraph.entity, JoinGraph.entity, h.entityAt hs]

theorem find? (h : g.Grows g') {scope j : Nat} {name : String}
    (hf : g.find? scope name = some j) : g'.find? scope name = some j := by
  obtain ⟨rest, hrest⟩ := h.joins
  rw [JoinGraph.find?] at hf
  rw [JoinGraph.find?, ← hrest, List.findIdx?_append, hf]
  rfl

end Grows

theorem find?_some {scope j : Nat} {name : String} (h : g.find? scope name = some j) :
    j < g.joins.length ∧ g.parent j = scope := by
  obtain ⟨hj, hp, -⟩ := List.findIdx?_eq_some_iff_getElem.1 h
  simp only [Bool.and_eq_true, beq_iff_eq] at hp
  refine ⟨hj, ?_⟩
  simp [parent, List.getElem?_eq_getElem hj, hp.1]

/-! ### Steady steps -/

/-- A step that leaves the joins there are, and that finds the same again in every graph grown
from its result, where it joins nothing. -/
structure Steady {α : Type} (step : JoinGraph → JoinGraph × α) (g : JoinGraph) : Prop where
  rooted : (step g).1.Rooted
  grows : g.Grows (step g).1
  again : ∀ {g'}, (step g).1.Grows g' → step g' = (g', (step g).2)

namespace Steady
variable {α β : Type}

theorem const (hg : g.Rooted) (a : α) : Steady (fun g => (g, a)) g :=
  ⟨hg, .refl g, fun _ => rfl⟩

theorem bind {step : JoinGraph → JoinGraph × α} {f : α → JoinGraph → JoinGraph × β}
    (h : Steady step g) (h' : Steady (f (step g).2) (step g).1) :
    Steady (fun g => f (step g).2 (step g).1) g where
  rooted := h'.rooted
  grows := h.grows.trans h'.grows
  again hgrows := by
    rw [h.again (h'.grows.trans hgrows)]
    exact h'.again hgrows

theorem map {step : JoinGraph → JoinGraph × α} (h : Steady step g) (f : α → β) :
    Steady (fun g => ((step g).1, f (step g).2)) g :=
  ⟨h.rooted, h.grows, fun hgrows => by rw [h.again hgrows]⟩

/-- Steps that agree on all graphs grown from here are steady together. -/
theorem congr {step step' : JoinGraph → JoinGraph × α} (h : Steady step g)
    (heq : ∀ {g'}, g.Grows g' → step' g' = step g') : Steady step' g := by
  have hself := heq (.refl g)
  refine ⟨hself ▸ h.rooted, hself ▸ h.grows, fun hgrows => ?_⟩
  rw [hself] at hgrows ⊢
  rw [heq (h.grows.trans hgrows), h.again hgrows]

end Steady

/-- A navigation leads to the scope of a join from here, behind all that were there or not. -/
theorem find?_reach (g : JoinGraph) (scope : Nat) (n : Navigation) :
    ∃ j, (g.reach scope n).2 = j + 1 ∧ (g.reach scope n).1.find? scope n.name = some j := by
  unfold reach
  cases hf : g.find? scope n.name with
  | some j => exact ⟨j, rfl, hf⟩
  | none =>
    refine ⟨g.joins.length, rfl, ?_⟩
    rw [find?] at hf
    simp [find?, List.findIdx?_append, hf]

theorem reach_of_find? {scope j : Nat} {n : Navigation} (h : g.find? scope n.name = some j) :
    g.reach scope n = (g, j + 1) := by
  simp [reach, h]

theorem reach_of_none {scope : Nat} {n : Navigation} (h : g.find? scope n.name = none) :
    g.reach scope n = ({g with joins := g.joins ++ [⟨scope, n⟩]}, g.joins.length + 1) := by
  simp [reach, h]

/-- A graph to which a join along a navigation was attached. -/
structure Attached (g : JoinGraph) (scope : Nat) (n : Navigation) (g' : JoinGraph) (next : Nat) :
    Prop where
  /-- It leads to a scope behind all others, of the entity that the navigation points at, where
  nothing hangs off yet. -/
  behind : next = g.joins.length + 1
  target : g'.entityAt next = n.target
  leaf : g'.children next = []
  /-- It comes last among the children of its scope. -/
  listed : g'.children scope = g.children scope ++ [g.joins.length]
  /-- Scopes that were there keep their entities, and all but that one their children. -/
  entities : ∀ other ≤ g.joins.length, g'.entityAt other = g.entityAt other
  others : ∀ other ≤ g.joins.length, other ≠ scope → g'.children other = g.children other

/-- A navigation is attached where it was not followed before. -/
theorem Rooted.reach_attached (hg : g.Rooted) {scope : Nat} (hs : scope ≤ g.joins.length)
    {n : Navigation} (h : g.find? scope n.name = none) :
    g.Attached scope n (g.reach scope n).1 (g.reach scope n).2 := by
  have hgrows : g.Grows (g.reach scope n).1 := ⟨root_reach g scope n, joins_reach g scope n⟩
  rw [reach_of_none h] at hgrows ⊢
  have hchildren := children_append g ⟨scope, n⟩
  exact {
    behind := rfl
    target := by simp [entityAt]
    leaf := (hg.append ⟨scope, n⟩ hs).children_beyond (by simp)
    listed := by rw [hchildren, if_pos rfl]
    entities := fun other hother => hgrows.entityAt hother
    others := fun other _ hne => by rw [hchildren, if_neg (Ne.symm hne)] }

/-- What `reach` leads to is there. -/
theorem reach_le (g : JoinGraph) (scope : Nat) (n : Navigation) :
    (g.reach scope n).2 ≤ (g.reach scope n).1.joins.length := by
  obtain ⟨j, hnext, hfind⟩ := find?_reach g scope n
  rw [hnext]
  exact (find?_some hfind).1

theorem Rooted.steady_reach (hg : g.Rooted) {scope : Nat} (hs : scope ≤ g.joins.length)
    (n : Navigation) : Steady (fun g => g.reach scope n) g where
  rooted := by
    show (g.reach scope n).1.Rooted
    cases hf : g.find? scope n.name with
    | some j => rwa [reach_of_find? hf]
    | none =>
      rw [reach_of_none hf]
      exact hg.append _ hs
  grows := ⟨root_reach g scope n, joins_reach g scope n⟩
  again hgrows := by
    obtain ⟨j, hnext, hfind⟩ := find?_reach g scope n
    exact (reach_of_find? (hgrows.find? hfind)).trans (by rw [hnext])

/-! ### Climbing -/

/-- A climb to `owner` has nothing to do here. -/
def Settled (s : Schema) (g : JoinGraph) (scope owner : Nat) : Prop :=
  g.entityAt scope = owner ∨ (g.entity s scope).baseNavigation? = none

variable {s : Schema}

theorem climb_settled {scope owner : Nat} (h : Settled s g scope owner) (fuel : Nat) :
    climb s g scope owner fuel = (g, scope) := by
  cases fuel with
  | zero => rfl
  | succ fuel =>
    rw [climb]
    by_cases ho : g.entityAt scope = owner
    · rw [if_pos ho]
    · rw [if_neg ho]
      simp [h.resolve_left ho]

theorem climb_step {scope owner : Nat} {base : Navigation} (ho : g.entityAt scope ≠ owner)
    (hb : (g.entity s scope).baseNavigation? = some base) (fuel : Nat) :
    climb s g scope owner (fuel + 1) =
      climb s (g.reach scope base).1 (g.reach scope base).2 owner fuel := by
  rw [climb, if_neg ho]
  simp [hb]

/-- Where a climb has not come to its end, there is a next base. -/
theorem next_of_not_settled {scope owner : Nat} (h : ¬ Settled s g scope owner) :
    g.entityAt scope ≠ owner ∧ ∃ base, (g.entity s scope).baseNavigation? = some base := by
  rw [Settled, not_or] at h
  exact ⟨h.1, Option.ne_none_iff_exists'.1 h.2⟩

/-- A climb stays in a tree that only grows, and finds the way again once it came to its end. -/
theorem Rooted.kept_climb (hg : g.Rooted) (s : Schema) {scope : Nat}
    (hs : scope ≤ g.joins.length) (owner fuel : Nat) :
    (climb s g scope owner fuel).1.Rooted ∧ g.Grows (climb s g scope owner fuel).1 ∧
      (climb s g scope owner fuel).2 ≤ (climb s g scope owner fuel).1.joins.length := by
  induction fuel generalizing g scope with
  | zero => exact ⟨hg, .refl g, hs⟩
  | succ fuel ih =>
    by_cases hsettled : Settled s g scope owner
    · rw [climb_settled hsettled]
      exact ⟨hg, .refl g, hs⟩
    · obtain ⟨ho, base, hb⟩ := next_of_not_settled hsettled
      have hreach := hg.steady_reach hs base
      obtain ⟨hrooted, hgrows, hle⟩ := ih hreach.rooted (reach_le g scope base)
      rw [climb_step ho hb]
      exact ⟨hrooted, hreach.grows.trans hgrows, hle⟩

theorem Settled.grows {scope owner : Nat} (h : Settled s g scope owner) (hgrows : g.Grows g')
    (hs : scope ≤ g.joins.length) : Settled s g' scope owner := by
  rwa [Settled, hgrows.entityAt hs, hgrows.entity s hs]

theorem Rooted.climb_again (hg : g.Rooted) {scope owner fuel fuel' : Nat}
    (hs : scope ≤ g.joins.length) (hfuel : fuel ≤ fuel')
    (hend : Settled s (climb s g scope owner fuel).1 (climb s g scope owner fuel).2 owner)
    (hgrows : (climb s g scope owner fuel).1.Grows g') :
    climb s g' scope owner fuel' = (g', (climb s g scope owner fuel).2) := by
  induction fuel generalizing g scope fuel' with
  | zero => exact climb_settled (hend.grows hgrows hs) fuel'
  | succ fuel ih =>
    obtain ⟨fuel', rfl⟩ : ∃ k, fuel' = k + 1 := ⟨fuel' - 1, by omega⟩
    by_cases hsettled : Settled s g scope owner
    · rw [climb_settled hsettled] at hgrows ⊢
      exact climb_settled (hsettled.grows hgrows hs) _
    · obtain ⟨ho, base, hb⟩ := next_of_not_settled hsettled
      rw [climb_step ho hb] at hend hgrows ⊢
      have hreach := hg.steady_reach hs base
      have hrest := hreach.rooted.kept_climb s (reach_le g scope base) owner fuel
      have hall : g.Grows g' := hreach.grows.trans (hrest.2.1.trans hgrows)
      rw [climb_step (by rwa [hall.entityAt hs]) (by rwa [hall.entity s hs])]
      have hfind := hreach.again (hrest.2.1.trans hgrows)
      rw [hfind]
      exact ih hreach.rooted (reach_le g scope base) (by omega) hend hgrows

theorem Rooted.find?_last (hg : g.Rooted) (name : String) :
    g.find? g.joins.length name = none := by
  cases hf : g.find? g.joins.length name with
  | none => rfl
  | some j =>
    obtain ⟨hj, hparent⟩ := find?_some hf
    have hle := hg j
    omega

/-- Nothing hangs off the last scope, and so from there each step joins the next base. -/
theorem Rooted.climb_last (hg : g.Rooted) (owner fuel : Nat) {k : Nat}
    (hbases : s.BasesEnd (g.entityAt g.joins.length) k) (hk : k ≤ fuel) :
    Settled s (climb s g g.joins.length owner fuel).1
      (climb s g g.joins.length owner fuel).2 owner := by
  induction fuel generalizing g k with
  | zero =>
    obtain rfl := Nat.le_zero.1 hk
    exact .inr hbases
  | succ fuel ih =>
    by_cases hsettled : Settled s g g.joins.length owner
    · rwa [climb_settled hsettled]
    · obtain ⟨ho, base, hb⟩ := next_of_not_settled hsettled
      rw [climb_step ho hb, reach_of_none (hg.find?_last base.name)]
      cases k with
      | zero => exact absurd (.inr hbases) hsettled
      | succ k =>
        have hstep := ih (hg.append ⟨g.joins.length, base⟩ (Nat.le_refl _)) (k := k)
          (by simpa [entityAt] using hbases base hb) (by omega)
        simpa using hstep

/-- With as much fuel as there are joins and entities, a climb comes to its end: each step leads
further from the root, or joins the next base behind all joins. -/
theorem Rooted.climb_settles (hg : g.Rooted) (hs : s.Acyclic) {scope owner fuel : Nat}
    (hscope : scope ≤ g.joins.length)
    (hfuel : g.joins.length - scope + s.entities.length ≤ fuel) :
    Settled s (climb s g scope owner fuel).1 (climb s g scope owner fuel).2 owner := by
  have hends := hs (g.entityAt scope)
  induction fuel generalizing scope with
  | zero =>
    rw [show s.entities.length = 0 by omega] at hends
    exact .inr hends
  | succ fuel ih =>
    by_cases hsettled : Settled s g scope owner
    · rwa [climb_settled hsettled]
    · obtain ⟨ho, base, hb⟩ := next_of_not_settled hsettled
      rw [climb_step ho hb]
      cases hf : g.find? scope base.name with
      | some j =>
        obtain ⟨hj, hparent⟩ := find?_some hf
        have hle := hg j
        rw [reach_of_find? hf]
        exact ih hj (by omega) (hs _)
      | none =>
        rw [reach_of_none hf]
        cases hn : s.entities.length with
        | zero =>
          rw [hn] at hends
          exact absurd (.inr hends) hsettled
        | succ n =>
          rw [hn] at hends
          have hlast := (hg.append ⟨scope, base⟩ hscope).climb_last owner fuel (k := n)
            (by simpa [entityAt] using hends base hb) (by omega)
          simpa using hlast

theorem Rooted.steady_climbTo (hg : g.Rooted) (hs : s.Acyclic) {scope : Nat}
    (hscope : scope ≤ g.joins.length) (owner : Nat) :
    Steady (fun g => climbTo s g scope owner) g := by
  obtain ⟨hrooted, hgrows, -⟩ := hg.kept_climb s hscope owner
    (g.joins.length + s.entities.length)
  refine ⟨hrooted, hgrows, fun hmore => hg.climb_again hscope ?_ ?_ hmore⟩
  · have hle := (hgrows.trans hmore).length_le
    omega
  · exact hg.climb_settles hs hscope (by omega)

theorem Rooted.climbTo_le (hg : g.Rooted) {scope owner : Nat} (hscope : scope ≤ g.joins.length) :
    (climbTo s g scope owner).2 ≤ (climbTo s g scope owner).1.joins.length :=
  (hg.kept_climb s hscope owner _).2.2

end JoinGraph
end EntityQuery
