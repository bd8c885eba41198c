import EntityQuery.Member.Projection
import EntityQuery.Proofs.Member.Route
import EntityQuery.Proofs.Schema.Relabelled

/-! Paths do not read the columns of ignored properties.

A path joins what it joins and names the column it names, or fails as it fails, whatever columns the
ignored properties have; and a projection stands for the same members. A path that comes to a
property (`Finds`) fails if the property is ignored, and names its column otherwise. -/
namespace EntityQuery

variable (column : Property → String) (s : Schema) (g : JoinGraph)

namespace JoinGraph

@[simp] theorem entity_relabelled (scope : Nat) :
    g.entity (s.relabelled column) scope = (g.entity s scope).relabelled column :=
  Schema.entity_relabelled column s _

theorem climb_relabelled (scope owner fuel : Nat) :
    climb (s.relabelled column) g scope owner fuel = climb s g scope owner fuel := by
  induction fuel generalizing g scope with
  | zero => rfl
  | succ fuel ih =>
    rw [climb, climb, entity_relabelled, Entity.baseNavigation?_relabelled]
    cases (g.entity s scope).baseNavigation? with
    | none => rfl
    | some base => simp only [ih]

@[simp] theorem climbTo_relabelled (scope owner : Nat) :
    climbTo (s.relabelled column) g scope owner = climbTo s g scope owner := by
  rw [climbTo, climbTo, Schema.length_relabelled, climb_relabelled]

end JoinGraph

namespace Member

/-! ### Following a path -/

theorem walk_relabelled (scope : Nat) (names : List String) :
    walk (s.relabelled column) g scope names = walk s g scope names := by
  induction names generalizing g scope with
  | nil => rfl
  | cons name rest ih =>
    rw [walk, walk, JoinGraph.entity_relabelled, Schema.nearestNavigation?_relabelled]
    cases s.nearestNavigation? (g.entity s scope) name with
    | none => rfl
    | some found => simp [ih]

/-- Of the properties that a last name may find, only one with a column is asked for it. -/
theorem leaf_relabelled (scope : Nat) (name : String) :
    leaf (s.relabelled column) g scope name = leaf s g scope name := by
  rw [leaf, leaf, JoinGraph.entity_relabelled, Schema.nearestProperty?_relabelled,
    Schema.nearestNavigation?_relabelled]
  cases s.nearestProperty? (g.entity s scope) name with
  | none => simp
  | some found =>
    obtain ⟨owner, p⟩ := found
    cases hp : p.ignored with
    | true => simp [hp]
    | false => simp [hp, Property.relabelled_of_mapped column hp]

theorem follow_relabelled (path : String) :
    follow (s.relabelled column) g path = follow s g path := by
  simp only [follow, walk_relabelled, leaf_relabelled]

@[simp] theorem resolve_relabelled (path : String) :
    resolve (s.relabelled column) g path = resolve s g path := by
  simp only [resolve, locate, follow_relabelled, JoinGraph.entity_relabelled,
    Entity.name_relabelled]

@[simp] theorem resolveEach_relabelled (paths : List String) :
    resolveEach (s.relabelled column) g paths = resolveEach s g paths := by
  induction paths generalizing g with
  | nil => rfl
  | cons path rest ih => simp only [resolveEach, resolve_relabelled, ih]

/-! ### Projections -/

theorem lineageColumns_relabelled (front chain : String) (seen : List String)
    (owners : List Entity) :
    lineageColumns front chain seen (owners.map (Entity.relabelled column)) =
      lineageColumns front chain seen owners := by
  induction owners generalizing chain seen with
  | nil => rfl
  | cons owner rest ih =>
    rw [List.map_cons, lineageColumns, lineageColumns, Entity.columns_relabelled]
    cases rest with
    | nil => rfl
    | cons base rest =>
      show _ ++ lineageColumns _ (under chain base.name) _ ((base :: rest).map _) = _
      rw [ih]

variable (e : Entity)

theorem columnsUnder_relabelled (front : String) :
    columnsUnder (s.relabelled column) (e.relabelled column) front = columnsUnder s e front := by
  rw [columnsUnder, columnsUnder, Schema.lineage_relabelled, lineageColumns_relabelled]

theorem targetOf?_relabelled (names : List String) :
    targetOf? (s.relabelled column) (e.relabelled column) names =
      (targetOf? s e names).map (Entity.relabelled column) := by
  induction names generalizing e with
  | nil => rfl
  | cons name rest ih =>
    rw [targetOf?, targetOf?, Schema.nearestProperty?_relabelled,
      Schema.nearestNavigation?_relabelled, Option.isSome_map]
    split
    · rfl
    · cases s.nearestNavigation? e name with
      | none => rfl
      | some found =>
        show targetOf? _ ((s.relabelled column).entity found.2.target) rest = _
        rw [Schema.entity_relabelled, ih]

theorem expandOne_relabelled (member : String) :
    expandOne (s.relabelled column) (e.relabelled column) member = expandOne s e member := by
  have hshown : shownEntity? (s.relabelled column) (e.relabelled column) member =
      (shownEntity? s e member).map (Entity.relabelled column) := by
    rw [shownEntity?, shownEntity?, targetOf?_relabelled]
    split <;> rfl
  rw [expandOne, expandOne, hshown]
  cases shownEntity? s e member with
  | none => rfl
  | some target => exact columnsUnder_relabelled column s target member

@[simp] theorem expand_relabelled (members : List String) :
    expand (s.relabelled column) (e.relabelled column) members = expand s e members := by
  have hone : expandOne (s.relabelled column) (e.relabelled column) = expandOne s e :=
    funext (expandOne_relabelled column s e)
  rw [expand, expand, columnsUnder_relabelled, hone]

/-! ### The property of a path -/

/-- From an entity, all names but the last lead over navigations, and there the last name has the
property `p`. -/
inductive Finds (s : Schema) (p : Property) : Nat → List String → Prop where
  | last {id : Nat} {name : String} {owner : Entity} :
    s.nearestProperty? (s.entity id) name = some (owner, p) → Finds s p id [name]
  | through {id : Nat} {name next : String} {rest : List String} {owner : Entity} {n : Navigation} :
    s.nearestNavigation? (s.entity id) name = some (owner, n) →
    Finds s p n.target (next :: rest) → Finds s p id (name :: next :: rest)

variable {s g} {p : Property} {id : Nat} {names : List String}

theorem readNames_of_finds (h : Finds s p id names) {r : List Navigation × String}
    (hr : readNames s id names = .ok r) : p.ignored = false ∧ r.2 = p.column := by
  induction h generalizing r with
  | last hp =>
    rw [readNames, readLeaf_some hp] at hr
    cases hignored : p.ignored with
    | true => simp [hignored] at hr
    | false =>
      rw [hignored, if_neg Bool.false_ne_true] at hr
      exact ⟨rfl, (Except.ok.inj hr) ▸ rfl⟩
  | through hn _ ih =>
    rw [readNames_some hn, Except.map_eq_ok] at hr
    obtain ⟨found, hfound, rfl⟩ := hr
    obtain ⟨hmapped, hcolumn⟩ := ih hfound
    exact ⟨hmapped, hcolumn⟩

/-- A path that finds a property has the property's column, and only if that is not ignored. -/
theorem column_of_finds (ht : s.TellsApart) (hs : s.Ascends) (hacyclic : s.Acyclic)
    (hg : g.Homed s) {path : String} (hmember : isRowCount path = false)
    (h : Finds s p g.root (named path)) {c : Column} (hc : (resolve s g path).2 = .ok c) :
    p.ignored = false ∧ c.column = p.column := by
  obtain ⟨r, hr, hreads, -⟩ := read_of_resolve ht hs hacyclic hg hc
  obtain ⟨hmapped, hcolumn⟩ := readNames_of_finds h (readNames_of_read hmember hr)
  exact ⟨hmapped, hreads.column.trans hcolumn⟩

end Member
end EntityQuery
