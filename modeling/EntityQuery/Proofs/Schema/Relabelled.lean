import Mathlib.Data.List.Basic
import EntityQuery.Schema.Basic

/-! Other columns for the members that have none.

An ignored property still carries the name of a column. To say that nothing reads it, all these
names are exchanged at once, for any others: the schema that comes of it (`Schema.relabelled`) has
the same entities with the same members, in the same lineages, and each member that has a column
has the one it had. -/
namespace EntityQuery

/-- The property, with another column if it has none. -/
def Property.relabelled (column : Property → String) (p : Property) : Property :=
  if p.ignored then {p with column := column p} else p

def Entity.relabelled (column : Property → String) (e : Entity) : Entity :=
  {e with properties := e.properties.map (Property.relabelled column)}

def Schema.relabelled (column : Property → String) (s : Schema) : Schema :=
  ⟨s.entities.map (Entity.relabelled column)⟩

/-- The property that the entity has by this name, if it has one, is not ignored. -/
def Entity.Maps (e : Entity) (name : String) : Prop :=
  ∀ p ∈ e.property? name, p.ignored = false

instance (e : Entity) (name : String) : Decidable (e.Maps name) :=
  inferInstanceAs (Decidable (∀ p ∈ e.property? name, _))

/-- No navigation leads over a property that is ignored. -/
def Schema.MapsKeys (s : Schema) : Prop :=
  ∀ e ∈ s.entities, ∀ n ∈ e.navigations, ∀ pair ∈ n.keys,
    e.Maps pair.source ∧ (s.entity n.target).Maps pair.target

instance (s : Schema) : Decidable s.MapsKeys :=
  inferInstanceAs (Decidable (∀ e ∈ s.entities, _))

variable (column : Property → String)

/-! ### Properties and entities -/

namespace Property
variable (p : Property)

@[simp] theorem name_relabelled : (p.relabelled column).name = p.name := by
  unfold relabelled; split <;> rfl

@[simp] theorem key_relabelled : (p.relabelled column).key = p.key := by
  unfold relabelled; split <;> rfl

@[simp] theorem ignored_relabelled : (p.relabelled column).ignored = p.ignored := by
  unfold relabelled; split <;> rfl

variable {p}

theorem relabelled_of_mapped (h : p.ignored = false) : p.relabelled column = p := by
  rw [relabelled, h, if_neg Bool.false_ne_true]

end Property

namespace Entity
variable (e : Entity)

@[simp] theorem relabelled_default : (default : Entity).relabelled column = default := rfl

@[simp] theorem id_relabelled : (e.relabelled column).id = e.id := rfl

@[simp] theorem name_relabelled : (e.relabelled column).name = e.name := rfl

@[simp] theorem table_relabelled : (e.relabelled column).table = e.table := rfl

@[simp] theorem navigation?_relabelled (name : String) :
    (e.relabelled column).navigation? name = e.navigation? name := rfl

@[simp] theorem baseNavigation?_relabelled :
    (e.relabelled column).baseNavigation? = e.baseNavigation? := rfl

@[simp] theorem property?_relabelled (name : String) :
    (e.relabelled column).property? name = (e.property? name).map (Property.relabelled column) := by
  show (e.properties.map (Property.relabelled column)).find? _ = _
  rw [List.find?_map]
  congr 2
  funext p
  simp

@[simp] theorem keys_relabelled :
    (e.relabelled column).keys = e.keys.map (Property.relabelled column) := by
  show (e.properties.map (Property.relabelled column)).filter _ = _
  rw [List.filter_map]
  congr 2
  funext p
  simp

/-- The properties with a column have the columns they had. -/
@[simp] theorem columns_relabelled : (e.relabelled column).columns = e.columns := by
  have hcomp : (fun p : Property => !p.ignored) ∘ Property.relabelled column =
      fun p => !p.ignored := by
    funext p
    simp
  show (e.properties.map (Property.relabelled column)).filter _ = _
  rw [List.filter_map, hcomp]
  conv => rhs; rw [Entity.columns, ← List.map_id (e.properties.filter _)]
  refine List.map_congr_left fun p hp => Property.relabelled_of_mapped column ?_
  simpa using (List.mem_filter.1 hp).2

variable {e}

theorem columnOf_relabelled {name : String} (h : e.Maps name) :
    (e.relabelled column).columnOf name = e.columnOf name := by
  unfold columnOf
  rw [property?_relabelled]
  cases hp : e.property? name with
  | none => rfl
  | some p => rw [Option.map_some, Property.relabelled_of_mapped column (h p hp)]

end Entity

/-! ### The schema -/

namespace Schema
variable (s : Schema) (e : Entity) (name : String)

@[simp] theorem length_relabelled :
    (s.relabelled column).entities.length = s.entities.length :=
  List.length_map _

@[simp] theorem entity_relabelled (id : Nat) :
    (s.relabelled column).entity id = (s.entity id).relabelled column := by
  show (s.entities.map (Entity.relabelled column)).getD id default = _
  rw [entity, List.getD_eq_getElem?_getD, List.getD_eq_getElem?_getD, List.getElem?_map]
  cases s.entities[id]? <;> rfl

@[simp] theorem entity?_relabelled :
    (s.relabelled column).entity? name = (s.entity? name).map (Entity.relabelled column) :=
  List.find?_map ..

@[simp] theorem resolve_relabelled :
    (s.relabelled column).resolve name = (s.resolve name).map (Entity.relabelled column) := by
  unfold resolve
  rw [entity?_relabelled]
  cases s.entity? name <;> rfl

@[simp] theorem base?_relabelled :
    (s.relabelled column).base? (e.relabelled column) =
      (s.base? e).map (Entity.relabelled column) := by
  show e.base.map (s.relabelled column).entity = _
  rw [base?, Option.map_map]
  congr 1
  funext id
  exact entity_relabelled column s id

@[simp] theorem lineage_relabelled :
    (s.relabelled column).lineage (e.relabelled column) =
      (s.lineage e).map (Entity.relabelled column) := by
  have hfrom : ∀ fuel, (s.relabelled column).lineageFrom (e.relabelled column) fuel =
      (s.lineageFrom e fuel).map (Entity.relabelled column) := by
    intro fuel
    induction fuel generalizing e with
    | zero => rfl
    | succ fuel ih =>
      rw [lineageFrom, lineageFrom, base?_relabelled]
      cases s.base? e with
      | none => rfl
      | some base =>
        show e.relabelled column :: _ = _
        rw [ih base, List.map_cons]
  rw [lineage, lineage, length_relabelled, hfrom]

@[simp] theorem nearestProperty?_relabelled :
    (s.relabelled column).nearestProperty? (e.relabelled column) name =
      (s.nearestProperty? e name).map
        fun found => (found.1.relabelled column, found.2.relabelled column) := by
  rw [nearestProperty?, nearestProperty?, lineage_relabelled, List.findSome?_map,
    List.map_findSome?]
  congr 1
  funext owner
  show ((owner.relabelled column).property? name).map _ = _
  rw [Entity.property?_relabelled, Option.map_map, Function.comp_apply, Option.map_map]
  rfl

@[simp] theorem nearestNavigation?_relabelled :
    (s.relabelled column).nearestNavigation? (e.relabelled column) name =
      (s.nearestNavigation? e name).map fun found => (found.1.relabelled column, found.2) := by
  rw [nearestNavigation?, nearestNavigation?, lineage_relabelled, List.findSome?_map,
    List.map_findSome?]
  congr 1
  funext owner
  show (owner.navigation? name).map _ = _
  rw [Function.comp_apply, Option.map_map]
  rfl

end Schema
end EntityQuery
