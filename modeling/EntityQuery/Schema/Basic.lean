import EntityQuery.Mapping.Document
import EntityQuery.Schema.Fault
import EntityQuery.Text.Case

/-! The schema: entities, the columns of their tables, and the navigations between them.

An entity is known by its position in the schema. One that inherits has a navigation to its base
that is named after the base, and the entities met by following bases are its lineage, nearest
first; members are looked up along it. -/
namespace EntityQuery

/-- A member that stands for a column of the entity's table. -/
structure Property where
  name : String
  column : String
  key : Bool := false
  /-- The member has no column. -/
  ignored : Bool := false
  /-- The constructor parameter that takes the value. -/
  constructor : Option String := none
  /-- The database generates the value when a row is inserted. -/
  sequence : Bool := false
deriving DecidableEq, Repr, Inhabited

/-- A property of the entity that declares a navigation, and the one of the target it equals. -/
structure KeyPair where
  source : String
  target : String
deriving DecidableEq, Repr, Inhabited

structure Navigation where
  name : String
  target : Nat
  kind : JoinKind
  keys : List KeyPair
  /-- The navigation leads from an entity to its base. -/
  inheritance : Bool
deriving DecidableEq, Repr, Inhabited

structure Entity where
  id : Nat
  name : String
  table : String
  schema : Option String
  /-- Key properties first. -/
  properties : List Property
  /-- Declared navigations, then the one to the base. -/
  navigations : List Navigation
  base : Option Nat
deriving DecidableEq, Repr, Inhabited

structure Schema where
  entities : List Entity
deriving DecidableEq, Repr

/-! ### Members of one entity -/

namespace Entity

def property? (e : Entity) (name : String) : Option Property :=
  e.properties.find? fun p => Text.sameName p.name name

def navigation? (e : Entity) (name : String) : Option Navigation :=
  e.navigations.find? fun n => Text.sameName n.name name

def keys (e : Entity) : List Property := e.properties.filter (·.key)

/-- The properties with a column. -/
def columns (e : Entity) : List Property := e.properties.filter (!·.ignored)

def sequence? (e : Entity) : Option Property := e.properties.find? (·.sequence)

def baseNavigation? (e : Entity) : Option Navigation := e.navigations.find? (·.inheritance)

/-- The column of a property, or the name itself when no property has it. -/
def columnOf (e : Entity) (name : String) : String :=
  ((e.property? name).map (·.column)).getD name

end Entity

/-! ### Entities of a schema -/

namespace Schema

/-- The entity at a position. The positions that a schema's entities hold are all taken. -/
def entity (s : Schema) (id : Nat) : Entity := s.entities.getD id default

/-- The entity of a name, up to case. -/
def entity? (s : Schema) (name : String) : Option Entity :=
  s.entities.find? fun e => Text.sameLower e.name name

def resolve (s : Schema) (name : String) : Except Fault Entity :=
  match s.entity? name with
  | some e => .ok e
  | none => .error (.unknownEntity name)

def base? (s : Schema) (e : Entity) : Option Entity := e.base.map s.entity

/-- Follows bases for at most `fuel` steps. -/
def lineageFrom (s : Schema) (e : Entity) : Nat → List Entity
  | 0 => [e]
  | fuel + 1 =>
    match s.base? e with
    | none => [e]
    | some base => e :: lineageFrom s base fuel

/-- The entity and its ancestors, nearest first. No chain of bases is longer than the schema. -/
def lineage (s : Schema) (e : Entity) : List Entity := s.lineageFrom e s.entities.length

/-- The nearest entity of the lineage that declares the property. -/
def nearestProperty? (s : Schema) (e : Entity) (name : String) : Option (Entity × Property) :=
  (s.lineage e).findSome? fun owner => (owner.property? name).map (owner, ·)

/-- The nearest entity of the lineage that declares the navigation. -/
def nearestNavigation? (s : Schema) (e : Entity) (name : String) : Option (Entity × Navigation) :=
  (s.lineage e).findSome? fun owner => (owner.navigation? name).map (owner, ·)

end Schema
end EntityQuery
